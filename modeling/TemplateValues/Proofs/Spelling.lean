import TemplateValues.Proofs.NormalText

/-!
# The spellings of a member chain

A member chain can be written in many ways: with `.` or `?.` between its names, with non-null marks after
them, and with blanks around the connectors and the whole.  The normal text of all of them has the names
with dots between them, and a space before each `?.` that follows on a blank.  So spellings without that are
brought to one text, and others are not (`normalize_spelling`).

The proof reads a spelling from left to right, part by part.  Between the parts the reader always stands
after a name, which is what makes it drop the marks.
-/

namespace TemplateValues.Chain

open TemplateValues.Text

/-! ## Spellings -/

/-- A name, and the number of non-null marks directly after it. -/
structure Marked where
  name : String
  marks : Nat
  isName : Chain.isName name

/-- A connector with the blanks around it, and the name after it. -/
structure Link where
  before : List Char
  optional : Bool
  after : List Char
  target : Marked
  blank_before : ∀ c ∈ before, isBlank c
  blank_after : ∀ c ∈ after, isBlank c

structure Spelling where
  lead : List Char
  first : Marked
  links : List Link
  trail : List Char
  blank_lead : ∀ c ∈ lead, isBlank c
  blank_trail : ∀ c ∈ trail, isBlank c

def Marked.chars (m : Marked) : List Char := m.name.toList ++ List.replicate m.marks '!'

def Link.connector (l : Link) : List Char := if l.optional then ['?', '.'] else ['.']

def Link.chars (l : Link) : List Char := l.before ++ (l.connector ++ (l.after ++ l.target.chars))

def Spelling.body (s : Spelling) : List Char := s.first.chars ++ s.links.flatMap Link.chars

def Spelling.text (s : Spelling) : String := String.ofList (s.lead ++ (s.body ++ s.trail))

def Spelling.names (s : Spelling) : List String := s.first.name :: s.links.map (·.target.name)

/-- What is left of the blanks before a connector: a space, if there are any and it is optional. -/
def Link.space (l : Link) : List Char := if l.optional ∧ l.before ≠ [] then [' '] else []

def Link.normal (l : Link) : List Char := l.space ++ '.' :: l.target.name.toList

/-! ## Characters of names -/

theorem isNamePart_of_isNameStart {c : Char} (start : isNameStart c) : isNamePart c := by
  simp only [isNameStart, isNamePart, Bool.or_eq_true, decide_eq_true_eq] at start ⊢
  tauto

theorem ne_of_isNamePart {c d : Char} (part : isNamePart c) (other : isNamePart d = false) : c ≠ d := by
  rintro rfl
  rw [part] at other
  cases other

theorem isBlank_of_isNamePart {c : Char} (part : isNamePart c) : isBlank c = false := by
  simp only [isNamePart, Bool.or_eq_true, decide_eq_true_eq] at part
  rcases part with ((letter | number) | rfl) | rfl
  · exact isBlank_of_alphanumeric (.inl letter)
  · exact isBlank_of_alphanumeric (.inr number)
  all_goals decide

theorem isQuote_of_isNamePart {c : Char} (part : isNamePart c) : isQuote c = false := by
  simp only [isQuote, Bool.or_eq_false_iff, decide_eq_false_iff_not]
  exact ⟨⟨ne_of_isNamePart part (by decide), ne_of_isNamePart part (by decide)⟩,
    ne_of_isNamePart part (by decide)⟩

/-- No name starts with a digit. -/
theorem isDigit_of_isNameStart {c : Char} (start : isNameStart c) : c.isDigit = false := by
  rw [Bool.eq_false_iff]
  intro digit
  have bounds := toNat_of_isDigit digit
  have ascii : c.toNat < 0x80 := by omega
  simp only [isNameStart, isAlphabetic, if_pos ascii, Bool.or_eq_true, decide_eq_true_eq] at start
  rcases start with (letter | rfl) | rfl
  · have := toNat_of_isAlpha letter
    omega
  · cases digit
  · cases digit

theorem assertsBefore_of_isNamePart {c : Char} (part : isNamePart c) (out : List Char) :
    assertsBefore (c :: out) := by
  have marks : assertsBefore (c :: out) = (isNamePart c || c = ')' || c = ']') := rfl
  rw [marks, part]
  rfl

/-- The characters of a name: all are parts of names, and the first one can start a name. -/
theorem Marked.exists_chars (m : Marked) : ∃ c cs, m.name.toList = c :: cs ∧ isNameStart c ∧
    ∀ d ∈ c :: cs, isNamePart d := by
  have isName := m.isName
  unfold Chain.isName at isName
  split at isName
  case h_1 c cs equal =>
    obtain ⟨start, parts⟩ := Bool.and_eq_true_iff.mp isName
    refine ⟨c, cs, equal, start, List.forall_mem_cons.mpr ⟨isNamePart_of_isNameStart start, ?_⟩⟩
    exact List.all_eq_true.mp parts
  case h_2 => cases isName

theorem isDigit_of_isBlank {c : Char} (blank : isBlank c) : c.isDigit = false := by
  rw [Bool.eq_false_iff]
  intro digit
  have bounds := toNat_of_isDigit digit
  simp only [isBlank, Bool.or_eq_true, Bool.and_eq_true, decide_eq_true_eq] at blank
  omega

/-! ## Reading the parts of a spelling

Every part is read from a place outside of quotes.  What is written already stands in `out`, the last
character first. -/

section Reading

variable {out rest : List Char}

/-- A character that means nothing to the reader is copied. -/
theorem normalFrom_copy {c : Char} (notQuote : isQuote c = false) (solid : isBlank c = false)
    (notMark : c ≠ '?' ∧ c ≠ '!') :
    normalFrom .plain out (c :: rest) = normalFrom .plain (c :: out) rest := by
  simp [normalFrom, notQuote, solid, notMark]

theorem normalFrom_name {cs : List Char} (parts : ∀ c ∈ cs, isNamePart c) :
    normalFrom .plain out (cs ++ rest) = normalFrom .plain (cs.reverse ++ out) rest := by
  induction cs generalizing out with
  | nil => rfl
  | cons c cs ih =>
    obtain ⟨part, others⟩ := List.forall_mem_cons.mp parts
    have notMark : c ≠ '?' ∧ c ≠ '!' :=
      ⟨ne_of_isNamePart part (by decide), ne_of_isNamePart part (by decide)⟩
    rw [List.cons_append,
      normalFrom_copy (isQuote_of_isNamePart part) (isBlank_of_isNamePart part) notMark, ih others]
    simp

theorem normalFrom_mark (asserts : assertsBefore out) (noEqual : rest.head? ≠ some '=') :
    normalFrom .plain out ('!' :: rest) = normalFrom .plain out rest := by
  have notQuote : isQuote '!' = false := by decide
  simp [normalFrom, notQuote, asserts, noEqual]

theorem normalFrom_marks (k : Nat) (asserts : assertsBefore out) (noEqual : rest.head? ≠ some '=') :
    normalFrom .plain out (List.replicate k '!' ++ rest) = normalFrom .plain out rest := by
  induction k with
  | zero => rfl
  | succ k ih =>
    -- After a mark there is another mark, or the rest.
    have next : (List.replicate k '!' ++ rest).head? ≠ some '=' := by
      cases k with
      | zero => exact noEqual
      | succ k => simp [List.replicate_succ]
    rw [List.replicate_succ, List.cons_append, normalFrom_mark asserts next, ih]

/-- Both connectors become a dot. -/
theorem normalFrom_connector (l : Link) (notDigit : ∀ d ∈ rest.head?, d.isDigit = false) :
    normalFrom .plain out (l.connector ++ rest) = normalFrom .plain ('.' :: out) rest := by
  have dot : normalFrom .plain out ('.' :: rest) = normalFrom .plain ('.' :: out) rest :=
    normalFrom_copy (by decide) (by decide) (by decide)
  by_cases optional : l.optional
  · have notQuote : isQuote '?' = false := by decide
    have ahead : chainsAhead ('.' :: rest) := by
      cases rest with
      | nil => rfl
      | cons d rest => simp [chainsAhead, notDigit d rfl]
    rw [Link.connector, if_pos optional, ← dot]
    simp [normalFrom, notQuote, ahead]
  · rw [Link.connector, if_neg optional]
    exact dot

/-- After the last blank of a run it makes no difference that the reader was in one. -/
theorem normalFrom_afterBlank (starts : StartsSolid rest) :
    normalFrom .blank out rest = normalFrom .plain out rest := by
  cases rest with
  | nil => rfl
  | cons c rest => simp [normalFrom, starts c rfl]

theorem normalFrom_blank {c : Char} {state : Scan} (outside : state.isOutside) (blank : isBlank c) :
    normalFrom state out (c :: rest) =
      if state = .blank ∨ out.head? = some '.' ∨ (trimFront rest).head? = some '.' then
        normalFrom .blank out rest
      else normalFrom .blank (' ' :: out) rest := by
  have notMark : c ≠ '?' ∧ c ≠ '!' := by
    constructor <;> rintro rfl <;> exact absurd blank (by decide)
  cases state with
  | plain | blank => simp [normalFrom, isQuote_of_blank blank, notMark, blank]
  | quoted q | escaped q => cases outside

/-- In a run of blanks nothing more is written. -/
theorem normalFrom_moreBlanks {blanks : List Char} (blank : ∀ c ∈ blanks, isBlank c) :
    normalFrom .blank out (blanks ++ rest) = normalFrom .blank out rest := by
  induction blanks with
  | nil => rfl
  | cons c blanks ih =>
    obtain ⟨first, others⟩ := List.forall_mem_cons.mp blank
    rw [List.cons_append, normalFrom_blank rfl first, if_pos (.inl rfl), ih others]

theorem trimFront_append {blanks : List Char} (blank : ∀ c ∈ blanks, isBlank c)
    (starts : StartsSolid rest) : trimFront (blanks ++ rest) = rest := by
  rw [trimFront, List.dropWhile_append_of_pos blank]
  cases rest with
  | nil => rfl
  | cons c rest => rw [List.dropWhile_cons_of_neg (by simp [starts c rfl])]

/-- A run of blanks becomes a space, unless there is a dot next to it. -/
theorem normalFrom_blanks {blanks : List Char} (blank : ∀ c ∈ blanks, isBlank c)
    (starts : StartsSolid rest) :
    normalFrom .plain out (blanks ++ rest) =
      normalFrom .plain
        (if blanks = [] ∨ out.head? = some '.' ∨ rest.head? = some '.' then out else ' ' :: out) rest := by
  cases blanks with
  | nil => simp
  | cons c blanks =>
    obtain ⟨first, others⟩ := List.forall_mem_cons.mp blank
    have notBlank : ¬ Scan.plain = .blank := Scan.noConfusion
    rw [List.cons_append, normalFrom_blank rfl first, trimFront_append others starts,
      normalFrom_moreBlanks others, normalFrom_moreBlanks others, normalFrom_afterBlank starts,
      normalFrom_afterBlank starts]
    simp only [notBlank, List.cons_ne_nil, false_or]
    split <;> rfl

end Reading

/-! ## Reading a whole spelling -/

theorem Marked.startsSolid (m : Marked) (rest : List Char) : StartsSolid (m.chars ++ rest) := by
  obtain ⟨c, cs, equal, start, -⟩ := m.exists_chars
  simpa [Marked.chars, equal, StartsSolid] using
    isBlank_of_isNamePart (isNamePart_of_isNameStart start)

/-- What is left of a name with its marks is the name, after which there may be marks again. -/
theorem normalFrom_marked (m : Marked) (out : List Char) {rest : List Char}
    (noEqual : rest.head? ≠ some '=') :
    normalFrom .plain out (m.chars ++ rest) = normalFrom .plain (m.name.toList.reverse ++ out) rest ∧
      assertsBefore (m.name.toList.reverse ++ out) := by
  obtain ⟨c, cs, equal, -, parts⟩ := m.exists_chars
  rw [← equal] at parts
  have asserts : assertsBefore (m.name.toList.reverse ++ out) := by
    -- What is written last is the end of the name.
    obtain ⟨d, ds, last⟩ := List.exists_cons_of_ne_nil (l := m.name.toList.reverse) (by simp [equal])
    rw [last]
    refine assertsBefore_of_isNamePart (parts d (List.mem_reverse.mp ?_)) _
    exact last ▸ List.mem_cons_self
  refine ⟨?_, asserts⟩
  rw [Marked.chars, List.append_assoc, normalFrom_name parts, normalFrom_marks _ asserts noEqual]

theorem Link.isDigit_head? (l : Link) (rest : List Char) :
    ∀ d ∈ (l.after ++ (l.target.chars ++ rest)).head?, d.isDigit = false := by
  cases after : l.after with
  | nil =>
    obtain ⟨c, cs, equal, start, -⟩ := l.target.exists_chars
    simpa [Marked.chars, equal] using isDigit_of_isNameStart start
  | cons c blanks => simpa using isDigit_of_isBlank (l.blank_after c (by simp [after]))

/-- The blanks before a connector see its first character, which is a dot only if it is not optional. -/
theorem normalFrom_before (l : Link) {out : List Char} (notDot : out.head? ≠ some '.') (rest : List Char) :
    normalFrom .plain out (l.before ++ (l.connector ++ rest)) =
      normalFrom .plain (l.space ++ out) (l.connector ++ rest) := by
  have starts : StartsSolid (l.connector ++ rest) := by
    cases optional : l.optional <;> simp [Link.connector, optional, StartsSolid, isBlank]
  rw [normalFrom_blanks l.blank_before starts]
  congr 1
  by_cases nothing : l.before = [] <;> cases optional : l.optional <;>
    simp [Link.connector, Link.space, optional, nothing, notDot]

theorem Link.reverse_normal (l : Link) (out : List Char) :
    l.normal.reverse ++ out = l.target.name.toList.reverse ++ '.' :: (l.space ++ out) := by
  have one : l.space.reverse = l.space := by
    rw [Link.space]
    split <;> rfl
  simp [Link.normal, one]

/-- What is left of a link, read after a name. -/
theorem normalFrom_link (l : Link) {out rest : List Char} (asserts : assertsBefore out)
    (noEqual : rest.head? ≠ some '=') :
    normalFrom .plain out (l.chars ++ rest) = normalFrom .plain (l.normal.reverse ++ out) rest ∧
      assertsBefore (l.normal.reverse ++ out) := by
  have notDot : out.head? ≠ some '.' := by
    intro isDot
    rw [← assertsBefore_head?, isDot] at asserts
    exact absurd asserts (by decide)
  have target := normalFrom_marked l.target ('.' :: (l.space ++ out)) noEqual
  rw [l.reverse_normal]
  refine ⟨?_, target.2⟩
  calc normalFrom .plain out (l.chars ++ rest)
      = normalFrom .plain out (l.before ++ (l.connector ++ (l.after ++ (l.target.chars ++ rest)))) := by
        simp [Link.chars]
    _ = normalFrom .plain (l.space ++ out) (l.connector ++ (l.after ++ (l.target.chars ++ rest))) :=
        normalFrom_before l notDot _
    _ = normalFrom .plain ('.' :: (l.space ++ out)) (l.after ++ (l.target.chars ++ rest)) :=
        normalFrom_connector l (l.isDigit_head? rest)
    _ = normalFrom .plain ('.' :: (l.space ++ out)) (l.target.chars ++ rest) := by
        rw [normalFrom_blanks l.blank_after (l.target.startsSolid rest), if_pos (.inr (.inl rfl))]
    _ = normalFrom .plain (l.target.name.toList.reverse ++ '.' :: (l.space ++ out)) rest := target.1

/-- What follows on a name is a blank or a connector. -/
theorem head?_links (links : List Link) : (links.flatMap Link.chars).head? ≠ some '=' := by
  cases links with
  | nil => simp
  | cons l links =>
    rw [List.flatMap_cons, Link.chars]
    cases before : l.before with
    | nil => cases optional : l.optional <;> simp [Link.connector, optional]
    | cons c blanks =>
      have blank := l.blank_before c (by simp [before])
      intro equal
      obtain rfl : c = '=' := by simpa using equal
      exact absurd blank (by decide)

theorem normalFrom_links (links : List Link) {out : List Char} (asserts : assertsBefore out) :
    normalFrom .plain out (links.flatMap Link.chars) = out.reverse ++ links.flatMap Link.normal := by
  induction links generalizing out with
  | nil => simp [normalFrom]
  | cons l links ih =>
    obtain ⟨read, asserts⟩ := normalFrom_link l asserts (head?_links links)
    rw [List.flatMap_cons, read, ih asserts]
    simp

/-! ## Blanks around the whole -/

theorem Marked.endsSolid (m : Marked) (front : List Char) : EndsSolid (front ++ m.chars) := by
  obtain ⟨c, cs, equal, -, parts⟩ := m.exists_chars
  rw [endsSolid_append (by simp [Marked.chars, equal])]
  intro d isLast
  have member := List.mem_of_getLast? isLast
  rw [Marked.chars, equal] at member
  rcases List.mem_append.mp member with inName | isMark
  · exact isBlank_of_isNamePart (parts d inName)
  · rw [List.eq_of_mem_replicate isMark]
    decide

theorem endsSolid_links (links : List Link) {front : List Char} (ends : EndsSolid front) :
    EndsSolid (front ++ links.flatMap Link.chars) := by
  induction links generalizing front with
  | nil => simpa using ends
  | cons l links ih =>
    rw [List.flatMap_cons, ← List.append_assoc]
    refine ih ?_
    simpa [Link.chars] using l.target.endsSolid (front ++ (l.before ++ (l.connector ++ l.after)))

theorem trim_append {lead body trail : List Char} (blank_lead : ∀ c ∈ lead, isBlank c)
    (blank_trail : ∀ c ∈ trail, isBlank c) (starts : StartsSolid (body ++ trail))
    (ends : EndsSolid body) : trim (lead ++ (body ++ trail)) = body := by
  -- Trimming the back is trimming the front of what is read backwards.
  have back : StartsSolid body.reverse := by
    rwa [StartsSolid, List.head?_reverse]
  have blank : ∀ c ∈ trail.reverse, isBlank c := by simpa using blank_trail
  have fromBack : (trail.reverse ++ body.reverse).dropWhile isBlank = body.reverse :=
    trimFront_append blank back
  rw [trim, trimFront_append blank_lead starts, trimBack, List.reverse_append, fromBack,
    List.reverse_reverse]

theorem Spelling.trim_text (s : Spelling) : trim s.text.toList = s.body := by
  rw [Spelling.text, String.toList_ofList]
  refine trim_append s.blank_lead s.blank_trail ?_ ?_
  · rw [Spelling.body, List.append_assoc]
    exact s.first.startsSolid _
  · exact endsSolid_links s.links (by simpa using s.first.endsSolid [])

theorem Spelling.toList_normalize (s : Spelling) :
    (normalize s.text).toList = s.first.name.toList ++ s.links.flatMap Link.normal := by
  obtain ⟨read, asserts⟩ := normalFrom_marked s.first [] (head?_links s.links)
  rw [normalize, String.toList_ofList, normalChars, s.trim_text, Spelling.body, read,
    normalFrom_links s.links asserts]
  simp

/-! ## One text for all spellings -/

theorem Spelling.toList_dotted (s : Spelling) : (".".intercalate s.names).toList =
    s.first.name.toList ++ s.links.flatMap fun l => '.' :: l.target.name.toList := by
  have chain (first : String) (links : List Link) :
      (".".intercalate (first :: links.map (·.target.name))).toList =
        first.toList ++ links.flatMap fun l => '.' :: l.target.name.toList := by
    induction links generalizing first with
    | nil => simp
    | cons l links ih => simp [String.intercalate_cons_cons, ih]
  exact chain s.first.name s.links

/-- There is no space in a name. -/
theorem Marked.space_notMem (m : Marked) : ' ' ∉ m.name.toList := by
  obtain ⟨c, cs, equal, -, parts⟩ := m.exists_chars
  intro member
  have solid := isBlank_of_isNamePart (parts ' ' (equal ▸ member))
  exact absurd solid (by decide)

theorem Link.space_eq_nil {l : Link} (tight : l.optional → l.before = []) : l.space = [] :=
  if_neg fun stray => stray.2 (tight stray.1)

theorem Link.space_eq {l : Link} (optional : l.optional) (blanks : l.before ≠ []) : l.space = [' '] :=
  if_pos ⟨optional, blanks⟩

/-- **The normal text of a spelling.**  It has the names of the chain with a dot before each but the
first, and a space before the dot of an optional connector that follows on a blank.  So it is the names
with dots between them just if no optional connector follows on a blank. -/
theorem normalize_spelling (s : Spelling) :
    (normalize s.text).toList = s.first.name.toList ++ s.links.flatMap Link.normal ∧
    (normalize s.text = ".".intercalate s.names ↔
      ∀ l ∈ s.links, l.optional = true → l.before = []) := by
  refine ⟨s.toList_normalize, ?_⟩
  rw [← String.toList_inj, s.toList_normalize, s.toList_dotted, List.append_cancel_left_eq]
  constructor
  · -- A space left in the normal text is in no name, so the two texts differ.
    intro equal l member optional
    by_contra blanks
    have space : ' ' ∈ s.links.flatMap Link.normal :=
      List.mem_flatMap.mpr ⟨l, member, by simp [Link.normal, Link.space_eq optional blanks]⟩
    rw [equal] at space
    obtain ⟨other, -, inDotted⟩ := List.mem_flatMap.mp space
    exact other.target.space_notMem (List.mem_of_ne_of_mem (by decide) inDotted)
  · intro tight
    refine List.flatMap_congr fun l member => ?_
    rw [Link.normal, Link.space_eq_nil (tight l member), List.nil_append]

example : normalize "\t msg!!\n. payload!?.\n kind! " = "msg.payload.kind" := by
  decide

def Sample.brokenChain : Spelling where
  lead := []
  first := ⟨"a", 0, by decide⟩
  links := [⟨[' '], true, [], ⟨"b", 0, by decide⟩, by simp [isBlank], by simp⟩]
  trail := []
  blank_lead := by simp
  blank_trail := by simp

/-- A blank before an optional connector leaves a space in the normal text. -/
theorem space_before_optional_stays :
    Sample.brokenChain.text = "a ?.b" ∧ Sample.brokenChain.names = ["a", "b"] ∧
    normalize "a ?.b" = "a .b" ∧
    normalize Sample.brokenChain.text ≠ ".".intercalate Sample.brokenChain.names := by
  decide

end TemplateValues.Chain
