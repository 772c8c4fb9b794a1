/-!
# Reading JSON into records

A reader takes what it expects from the front of a text and stops at the first problem, which is of
one of three kinds: the text ends too early, it is no JSON, or it is JSON of an unexpected type.
Records are read straight from the text, so the order in which problems are met is the order of the
text.

A record is written as an object or as an array of its fields in order; fields may be missing, unknown
fields of an object are passed over, and a known field must not come twice.
-/

namespace TemplateValues.Json

inductive Fault where
  /-- The text ends too early. -/
  | eof
  /-- The text is no JSON, or goes on after its value. -/
  | malformed
  /-- The text is JSON, but not of the expected type. -/
  | data
deriving DecidableEq, Repr, Inhabited

def Fault.category : Fault → String
  | .eof => "eof"
  | .malformed => "syntax"
  | .data => "data"

/-- Reads a value from the front of a text. -/
abbrev Reader (α : Type) := StateT (List Char) (Except Fault) α

namespace Reader

/-! ## Characters -/

def isSpace (c : Char) : Bool := c = ' ' || c = '\n' || c = '\t' || c = '\r'

/-- Passes over blanks; the next character, if there is one, is not taken. -/
def peek : Reader (Option Char) := do
  modify (·.dropWhile isSpace)
  return (← get).head?

def skip : Reader Unit := modify (·.drop 1)

def peekValue : Reader Char := do
  match ← peek with
  | some c => return c
  | none => throw .eof

def next : Reader Char := do
  match ← get with
  | c :: cs => set cs; return c
  | [] => throw .eof

def letters : List Char → Reader Unit
  | [] => return
  | c :: cs => do
    if (← next) = c then letters cs else throw .malformed

/-! ## Strings -/

def hexDigit? (c : Char) : Option Nat :=
  if c.isDigit then some (c.toNat - '0'.toNat)
  else if 'a' ≤ c && c ≤ 'f' then some (c.toNat - 'a'.toNat + 10)
  else if 'A' ≤ c && c ≤ 'F' then some (c.toNat - 'A'.toNat + 10)
  else none

def hasFourBytes (cs : List Char) : Bool :=
  4 ≤ (cs.take 4).foldl (fun n c => n + c.utf8Size) 0

def fourHex : Reader Nat := do
  let cs ← get
  -- whether the text ends here is told by bytes, whatever characters these are
  unless hasFourBytes cs do throw .eof
  match cs with
  | a :: b :: c :: d :: rest =>
    set rest
    match hexDigit? a, hexDigit? b, hexDigit? c, hexDigit? d with
    | some a, some b, some c, some d => return ((a * 16 + b) * 16 + c) * 16 + d
    | _, _, _, _ => throw .malformed
  | _ => throw .malformed

/-- What follows `\u`: one code unit, or two that belong together. -/
def codePoint : Reader Char := do
  let n ← fourHex
  -- the second unit of a pair cannot come first
  if 0xDC00 ≤ n && n ≤ 0xDFFF then throw .malformed
  else if 0xD800 ≤ n && n ≤ 0xDBFF then
    unless (← next) = '\\' do throw .malformed
    unless (← next) = 'u' do throw .malformed
    let m ← fourHex
    if 0xDC00 ≤ m && m ≤ 0xDFFF then
      return Char.ofNat (0x10000 + (n - 0xD800) * 0x400 + (m - 0xDC00))
    else throw .malformed
  else return Char.ofNat n

def escape? (c : Char) : Option Char :=
  match c with
  | '"' => some '"'
  | '\\' => some '\\'
  | '/' => some '/'
  | 'b' => some (Char.ofNat 8)
  | 'f' => some (Char.ofNat 12)
  | 'n' => some '\n'
  | 'r' => some '\r'
  | 't' => some '\t'
  | _ => none

/-- The rest of a string after its opening quote, within `n` characters; `out` was read before, last
character first. -/
def stringRest : Nat → List Char → Reader String
  | 0, _ => throw .eof
  | n + 1, out => do
    let c ← next
    if c = '"' then return String.ofList out.reverse
    else if c = '\\' then
      let e ← next
      if e = 'u' then stringRest n ((← codePoint) :: out)
      else match escape? e with
        | some d => stringRest n (d :: out)
        | none => throw .malformed
    else if c.toNat < 0x20 then throw .malformed
    else stringRest n (c :: out)

def stringTail : Reader String := do stringRest ((← get).length + 1) []

/-! ## Numbers -/

def digits : Reader (List Char) := do
  let cs ← get
  set (cs.dropWhile Char.isDigit)
  return cs.takeWhile Char.isDigit

/-- A number as digits, the number of them behind the point, and an exponent. -/
structure Number where
  negative : Bool
  whole : List Char
  fraction : Option (List Char)
  exponent : Option (Bool × List Char)
deriving Repr

def digit : Reader Char := do
  let c ← next
  if c.isDigit then return c else throw .malformed

def fractionTail : Reader (List Char) := do
  match ← digits with
  | [] => if (← get).isEmpty then throw .eof else throw .malformed
  | ds => return ds

def numberTail (negative : Bool) : Reader Number := do
  let first ← digit
  let more ← if first = '0' then pure [] else digits
  if first = '0' && (← get).head?.any Char.isDigit then throw .malformed
  let fraction ← if (← get).head? = some '.' then do skip; pure (some (← fractionTail)) else pure none
  let exponent ←
    if (← get).head? = some 'e' || (← get).head? = some 'E' then do
      skip
      let down : Bool := (← get).head? = some '-'
      if down || (← get).head? = some '+' then skip
      let d ← digit
      pure (some (down, d :: (← digits)))
    else pure none
  return ⟨negative, first :: more, fraction, exponent⟩

def natOfDigits (ds : List Char) : Nat :=
  ds.foldl (fun n c => n * 10 + (c.toNat - '0'.toNat)) 0

structure Scaled where
  significand : Nat
  exponent : Int
deriving Repr

/-- One more digit, if the significand still has at most 64 bits with it. -/
def moreSignificant? (significand : Nat) (c : Char) : Option Nat :=
  let next := significand * 10 + (c.toNat - '0'.toNat)
  if next < Nat.pow 2 64 then some next else none

/-- Adds whole digits; from the first one on that does not fit, digits count as zeros. -/
def Scaled.addWhole (s : Scaled) : List Char → Scaled
  | [] => s
  | c :: cs =>
    match moreSignificant? s.significand c with
    | some next => { s with significand := next }.addWhole cs
    | none => { s with exponent := s.exponent + (c :: cs).length }

/-- Adds digits behind the point; from the first one on that does not fit, digits are dropped. -/
def Scaled.addFraction (s : Scaled) : List Char → Scaled
  | [] => s
  | c :: cs =>
    match moreSignificant? s.significand c with
    | some next => Scaled.addFraction ⟨next, s.exponent - 1⟩ cs
    | none => s

def Number.scaled (n : Number) : Scaled :=
  let s := (Scaled.addWhole ⟨0, 0⟩ n.whole).addFraction (n.fraction.getD [])
  match n.exponent with
  | none => s
  | some (down, ds) =>
    { s with exponent := s.exponent + (if down then -(natOfDigits ds : Int) else natOfDigits ds) }

/-- The nearest number with at most 53 significant bits; of two equally near ones the even one. -/
def roundToDouble (n : Nat) : Nat :=
  let extra := Nat.log2 n + 1 - 53
  if extra = 0 then n
  else
    let unit := Nat.pow 2 extra
    let rest := n % unit
    let up := unit < 2 * rest || (unit = 2 * rest && n / unit % 2 = 1)
    (n / unit + if up then 1 else 0) * unit

/-- Is the number too large for a double-precision value?  It is the product of its significand and
its power of ten, each rounded to such a value. -/
def Number.overflows (n : Number) : Bool :=
  let s := n.scaled
  if s.significand = 0 || s.exponent < 0 then false
  else if 308 < s.exponent then true
  else
    let limit := Nat.pow 2 1024 - Nat.pow 2 970
    limit ≤ roundToDouble s.significand * roundToDouble (Nat.pow 10 s.exponent.toNat)

/-- The value of a number without sign, point and exponent, if it has at most 64 bits. -/
def Number.word? (n : Number) : Option Nat :=
  let value := natOfDigits n.whole
  if n.negative || n.fraction.isSome || n.exponent.isSome || Nat.pow 2 64 ≤ value then none
  else some value

/-! ## Expected values -/

/-- The fault of a value of an unexpected type: the value itself may be malformed. -/
def unexpected (c : Char) : Reader α := do
  match c with
  | 'n' => skip; letters "ull".toList; throw .data
  | 't' => skip; letters "rue".toList; throw .data
  | 'f' => skip; letters "alse".toList; throw .data
  | '"' => skip; let _ ← stringTail; throw .data
  | '[' => throw .data
  | '{' => throw .data
  | '-' =>
    skip
    let n ← numberTail true
    throw (if n.overflows then .malformed else .data)
  | c =>
    if c.isDigit then
      let n ← numberTail false
      throw (if n.overflows then .malformed else .data)
    else throw .malformed

def string : Reader String := do
  let c ← peekValue
  if c = '"' then skip; stringTail else unexpected c

def word : Reader Nat := do
  let c ← peekValue
  if c.isDigit then
    let n ← numberTail false
    match n.word? with
    | some value => return value
    | none => throw (if n.overflows then .malformed else .data)
  else unexpected c

def nullable (p : Reader α) : Reader (Option α) := do
  if (← peekValue) = 'n' then skip; letters "ull".toList; return none
  else return some (← p)

/-! ## Arrays and objects -/

def anotherElement (first : Bool) : Reader Bool := do
  match ← peek with
  | some ']' => return false
  | some ',' =>
    -- a comma in front of all elements is left to the reader of the first one
    if first then return true
    skip
    match ← peek with
    | some ']' => throw .malformed
    | some _ => return true
    | none => throw .eof
  | some _ => if first then return true else throw .malformed
  | none => throw .eof

def anotherKey (first : Bool) : Reader Bool := do
  let key (c : Option Char) : Reader Bool :=
    match c with
    | some '"' => return true
    | some _ => throw .malformed
    | none => throw .eof
  match ← peek with
  | some '}' => return false
  | some ',' => if first then throw .malformed else do skip; key (← peek)
  | some c => if first then key (some c) else throw .malformed
  | none => throw .eof

def colon : Reader Unit := do
  match ← peek with
  | some ':' => skip
  | some _ => throw .malformed
  | none => throw .eof

def close (bracket : Char) : Reader Unit := do
  match ← peek with
  | some c => if c = bracket then skip else throw .malformed
  | none => throw .eof

def elements (p : Reader α) : Nat → Bool → Reader (List α)
  | 0, _ => throw .eof
  | n + 1, first => do
    if ← anotherElement first then
      let a ← p
      return a :: (← elements p n false)
    else
      close ']'
      return []

def array (p : Reader α) : Reader (List α) := do
  let c ← peekValue
  if c = '[' then
    skip
    elements p ((← get).length + 1) true
  else unexpected c

def members (p : Reader α) : Nat → Bool → Reader (List (String × α))
  | 0, _ => throw .eof
  | n + 1, first => do
    if ← anotherKey first then
      skip
      let key ← stringTail
      colon
      let a ← p
      return (key, a) :: (← members p n false)
    else
      close '}'
      return []

def object (p : Reader α) : Reader (List (String × α)) := do
  let c ← peekValue
  if c = '{' then
    skip
    members p ((← get).length + 1) true
  else unexpected c

/-! ## Values passed over -/

def ignoreString : Nat → Reader Unit
  | 0 => throw .eof
  | n + 1 => do
    let c ← next
    if c = '"' then return
    else if c = '\\' then
      let e ← next
      -- two code units need not belong together here
      if e = 'u' then do let _ ← fourHex; ignoreString n
      else if (escape? e).isSome then ignoreString n
      else throw .malformed
    else if c.toNat < 0x20 then throw .malformed
    else ignoreString n

/-- A number that is passed over, after its sign: it may be of any size, and a part that is missing
makes it malformed even at the end of the text. -/
def ignoreNumber : Reader Unit := do
  let some first := (← get).head? | throw .malformed
  unless first.isDigit do throw .malformed
  skip
  if first = '0' then
    if (← get).head?.any Char.isDigit then throw .malformed
  else
    let _ ← digits
  if (← get).head? = some '.' then
    skip
    if (← digits).isEmpty then throw .malformed
  if (← get).head? = some 'e' || (← get).head? = some 'E' then
    skip
    if (← get).head? = some '-' || (← get).head? = some '+' then skip
    if (← digits).isEmpty then throw .malformed

def ignoreUpTo : Nat → Reader Unit
  | 0 => throw .eof
  | n + 1 => do
    match ← peekValue with
    | 'n' => skip; letters "ull".toList
    | 't' => skip; letters "rue".toList
    | 'f' => skip; letters "alse".toList
    | '-' => skip; ignoreNumber
    | '"' => skip; ignoreString ((← get).length + 1)
    | '[' =>
      skip
      let _ ← elements (ignoreUpTo n) ((← get).length + 1) true
    | '{' =>
      skip
      ignoreMembers n ((← get).length + 1) true
    | c => if c.isDigit then ignoreNumber else throw .malformed
where
  /-- The members of an object that is passed over; its keys are not looked at either. -/
  ignoreMembers (depth : Nat) : Nat → Bool → Reader Unit
    | 0, _ => throw .eof
    | k + 1, first => do
      if ← anotherKey first then
        skip
        ignoreString ((← get).length + 1)
        colon
        ignoreUpTo depth
        ignoreMembers depth k false
      else close '}'

def ignore : Reader Unit := do ignoreUpTo ((← get).length + 1)

/-! ## Records -/

structure FieldReader (α : Type) where
  name : String
  read : α → Reader α

/-- Takes members into the record `a`, within `n`; `seen` are the names of the fields read before. -/
def recordMembers (fields : List (FieldReader α)) : Nat → Bool → List String → α → Reader α
  | 0, _, _, _ => throw .eof
  | n + 1, first, seen, a => do
    if ← anotherKey first then
      skip
      let key ← stringTail
      match fields.find? (·.name = key) with
      | some f =>
        if seen.contains key then throw .data
        colon
        recordMembers fields n false (key :: seen) (← f.read a)
      | none =>
        colon
        ignore
        recordMembers fields n false seen a
    else
      close '}'
      return a

def recordElements : List (FieldReader α) → Bool → α → Reader α
  | [], _, a => do
    close ']'
    return a
  | f :: fs, first, a => do
    if ← anotherElement first then recordElements fs false (← f.read a)
    else
      close ']'
      return a

/-- A record, starting from the values its fields have when they are missing. -/
def record (fields : List (FieldReader α)) (missing : α) : Reader α := do
  match ← peekValue with
  | '{' =>
    skip
    recordMembers fields ((← get).length + 1) true [] missing
  | '[' =>
    skip
    recordElements fields true missing
  | c => unexpected c

end Reader

def read (p : Reader α) (text : String) : Except Fault α := do
  let (a, rest) ← p.run text.toList
  if (rest.dropWhile Reader.isSpace).isEmpty then return a else throw .malformed

end TemplateValues.Json
