import TemplateValues.Proofs.Alike
import TemplateValues.Proofs.KeyChains

/-!
# Expressions in wrappers

Parentheses, `as const`, `satisfies T`, `x!` and `Object.freeze(x)` may stand around an expression, one around
the other, with comments before what they enclose.  `Source.Wraps` says so without reference to how an
expression is unwrapped.

There are two kinds of comments.  If only comments in slashes are passed over, everything that is asked about
the expression in its wrappers is answered as for the expression itself.  But a comment `<!-- …` is taken
for the expression, and then there is nothing to be known (`wrapped_answers`).
-/

namespace TemplateValues

open Syntax

/-! ## Wrappers -/

def Syntax.Kind.isComment : Kind → Bool
  | .comment | .htmlComment => true
  | _ => false

/-- Among the named children there are comments first, and then `m`. -/
structure Syntax.Node.OpensWith (n : Node) (comments : List Node) (m : Node) : Prop where
  split : ∃ rest, n.namedChildren = comments ++ m :: rest
  comments : ∀ x ∈ comments, x.kind.isComment
  other : ¬ m.kind.isComment

namespace Source

variable {s : Source}

/-- The node is a wrapper, and what it encloses is written among the children of `inside`. -/
inductive Encloses (s : Source) (w : Node) : (inside : Node) → Prop where
  | parentheses : w.kind = .parenthesizedExpression → s.Encloses w w
  | const {last} : w.kind = .asExpression → w.children.getLast? = some last → s.textOf last = "const" →
      s.Encloses w w
  | satisfies : w.kind = .satisfiesExpression → s.Encloses w w
  | nonNull : w.kind = .nonNullExpression → s.Encloses w w
  | frozen {callee arguments} : w.kind = .callExpression → w.child? .function = some callee →
      callee.kind = .memberExpression → s.textOf callee = "Object.freeze" →
      w.child? .arguments = some arguments → s.Encloses w arguments

/-- The node is `e` in any number of wrappers, within which the comments `passed` stand before `e`. -/
inductive Wraps (s : Source) (e : Node) : Node → (passed : List Node) → Prop where
  | bare : s.Wraps e e []
  | layer {w inside comments m passed} : s.Encloses w inside → inside.OpensWith comments m →
      s.Wraps e m passed → s.Wraps e w (comments ++ passed)

structure Gives (s : Source) (d : Declaration) (n : Node) : Prop where
  declared : d ∈ s.declarations
  kind : d.kind = .binding
  given : d.initializer? = some n

/-! ## Unwrapping -/

theorem Encloses.wrapped? {w inside : Node} (encloses : s.Encloses w inside) :
    s.wrapped? w = inside.content.head? := by
  cases encloses with
  | parentheses kind | satisfies kind | nonNull kind => simp only [Source.wrapped?, kind]
  | const kind last isConst =>
    have asserted : s.isConstAssertion w := by simp [isConstAssertion, kind, last, isConst]
    simp only [Source.wrapped?, kind, asserted, ↓reduceIte]
  | frozen kind function member written arguments =>
    have target : s.callTarget? w = some "Object.freeze" := by
      simp only [callTarget?, kind, function, member, written]
      rfl
    simp only [Source.wrapped?, kind, target, callArguments, arguments, ↓reduceIte]

/-- A comment `<!-- …` counts as content, other comments do not. -/
theorem head?_content_of_opensWith {inside m : Node} {comments : List Node}
    (opens : inside.OpensWith comments m) :
    inside.content.head? = (comments.find? fun x => x.kind = .htmlComment).or (some m) := by
  obtain ⟨⟨rest, split⟩, isComment, other⟩ := opens
  have kept : m.kind ≠ .comment := fun kind => other (by rw [kind]; rfl)
  rw [Node.content, List.head?_filter, split, List.find?_append]
  -- of the comments only those of the second kind are found, and after them `m` is
  congr 1
  · clear split
    induction comments with
    | nil => rfl
    | cons x comments ih =>
      have first : x.kind = .comment ∨ x.kind = .htmlComment := by
        have isComment := isComment x List.mem_cons_self
        unfold Kind.isComment at isComment
        split at isComment
        · exact .inl ‹_›
        · exact .inr ‹_›
        · cases isComment
      rw [List.find?_cons, List.find?_cons, ih fun y member => isComment y (List.mem_cons_of_mem x member)]
      rcases first with kind | kind <;> simp [kind]
  · simp [kept]

theorem unwrap_htmlComment {n : Node} (kind : n.kind = .htmlComment) : s.unwrap n = n :=
  unwrap_of_none (by simp only [wrapped?, kind])

/-- Under all wrappers there is what is under those of the expression, or else a comment. -/
theorem Wraps.unwrap_eq {e w : Node} {passed : List Node} (wraps : s.Wraps e w passed) :
    s.unwrap w = (passed.find? fun x => x.kind = .htmlComment).getD (s.unwrap e) := by
  induction wraps with
  | bare => rfl
  | @layer w inside comments m passed encloses opens _ ih =>
    have wrapped := encloses.wrapped?.trans (head?_content_of_opensWith opens)
    rw [List.find?_append]
    cases found : comments.find? fun x => x.kind = .htmlComment with
    | none =>
      rw [found, Option.none_or] at wrapped
      rw [unwrap_of_wrapped? wrapped, ih, Option.none_or]
    | some x =>
      -- a comment is no wrapper, so unwrapping stops here
      have kind : x.kind = .htmlComment := by simpa using List.find?_some found
      rw [found, Option.some_or] at wrapped
      rw [unwrap_of_wrapped? wrapped, unwrap_htmlComment kind, Option.some_or, Option.getD_some]

theorem Wraps.unwrap_of_plain {e w : Node} {passed : List Node} (wraps : s.Wraps e w passed)
    (plain : ∀ x ∈ passed, x.kind ≠ .htmlComment) : s.unwrap w = s.unwrap e := by
  rw [wraps.unwrap_eq, List.find?_eq_none.mpr (by simpa using plain), Option.getD_none]

theorem Wraps.kind_unwrap {e w : Node} {passed : List Node} (wraps : s.Wraps e w passed)
    (marked : ∃ x ∈ passed, x.kind = .htmlComment) : (s.unwrap w).kind = .htmlComment := by
  obtain ⟨x, member, kind⟩ := marked
  rw [wraps.unwrap_eq]
  cases found : passed.find? fun x => x.kind = .htmlComment with
  | none => exact absurd kind (by simpa using List.find?_eq_none.mp found x member)
  | some y => simpa using List.find?_some found

end Source

/-! ## What is asked about an expression -/

inductive Aspect where
  /-- Its values. -/
  | values
  /-- The values of its elements. -/
  | elements
  /-- Its keys. -/
  | keys
  /-- The values of its members. -/
  | memberValues
  /-- The values of a member chain that starts at it. -/
  | member (name : String) (rest : List String)

namespace Aspect

variable {M : Type → Type} [Monad M] (c : Codebase) (ask : Goal → M LiteralSet) {s : Source} {m n : Node}

def answer (s : Source) (n : Node) : Aspect → M LiteralSet
  | .values => Values.expression c ask s n
  | .elements => Values.elementsOf c ask s n
  | .keys => Values.keysOf c ask s n
  | .memberValues => Values.valuesOf c ask s n
  | .member name rest => Values.expressionMember c ask s n name rest

/-- Every answer is about the unwrapped expression. -/
theorem answer_of_unwrap_eq (a : Aspect) (same : s.unwrap m = s.unwrap n) :
    a.answer c ask s m = a.answer c ask s n := by
  cases a with
  | values => simp only [answer, Values.expression, same]
  | elements => simp only [answer, Values.elementsOf, same]
  | keys => simp only [answer, Values.keysOf, same]
  | memberValues => simp only [answer, Values.valuesOf, same]
  | member name rest => simp only [answer, Values.expressionMember, same]

/-- About a comment nothing is known. -/
theorem answer_of_htmlComment (a : Aspect) (kind : (s.unwrap n).kind = .htmlComment) :
    a.answer c ask s n = Eval.unknown := by
  cases a with
  | values => simp only [answer, Values.expression, kind]
  | elements => simp only [answer, Values.elementsOf, kind]
  | keys => simp only [answer, Values.keysOf, kind]
  | memberValues => simp only [answer, Values.valuesOf, kind]
  | member name rest => simp only [answer, Values.expressionMember, kind]

end Aspect

/-! ## The keys of a variable -/

section Keys

variable {c : Codebase} {s : Source} {d d' : Declaration} {m n : Node}

/-- What a variable is given counts as it is written. -/
theorem Source.Gives.initializerKeys_eq {M : Type → Type} [Monad M] (ask : Goal → M LiteralSet)
    (gives : s.Gives d m) (gives' : s.Gives d' n) (alike : s.Alike (s.unwrap m) (s.unwrap n)) :
    Values.initializerKeys c ask s d = Values.initializerKeys c ask s d' := by
  simp only [Values.initializerKeys, gives.given, gives'.given, Option.map_some, alike.kind,
    alike.objectKeys_eq, alike.text]

theorem Source.Gives.returns_keys_eq (gives : s.Gives d m) (gives' : s.Gives d' n)
    (alike : s.Alike (s.unwrap m) (s.unwrap n)) (distinct : Distinct (s :: c.sources)) {v : Visit}
    (held : d.key s ∈ v.held ↔ d'.key s ∈ v.held) :
    ∃ values u, Returns Guard.visit c (.keys s d) v values u ∧
      Returns Guard.visit c (.keys s d') v values u := by
  have inquiry : (Goal.keys s d).inquiry c = (Goal.keys s d').inquiry c := by
    simp only [Goal.inquiry, gives.kind, gives'.kind, gives.initializerKeys_eq _ gives' alike]
  exact returns_keys_alike (List.subset_cons_self s c.sources) distinct List.mem_cons_self
    gives.declared gives'.declared gives.kind gives'.kind inquiry held

theorem Source.Gives.returns_keys_of_htmlComment (gives : s.Gives d m)
    (kind : (s.unwrap m).kind = .htmlComment) (v : Visit) :
    ∃ w, Returns Guard.visit c (.keys s d) v .empty w := by
  have known : (Goal.keys s d).inquiry c = .done .empty := by
    simp only [Goal.inquiry, gives.kind, Values.initializerKeys, gives.given, Option.map_some, kind]
    rfl
  by_cases refused : v.limit ≤ v.depth ∨ d.key s ∈ v.held
  · exact ⟨v.refuse, returns_keys_of_refused gives.kind refused⟩
  · obtain ⟨allowed, absent⟩ := not_or.mp refused
    exact ⟨v.refuseTimes 0, returns_keys_of_run gives.kind (Nat.lt_of_not_le allowed) absent
      (known ▸ .done)⟩

end Keys

/-! ## Samples -/

namespace Sample

def record : Tree :=
  .node .object (some .value) 8 13
    [.node (.token "\x7b") none 8 9 [],
      .node .pair none 9 12
        [.node .propertyIdentifier (some .key) 9 10 [], .node (.token ":") none 10 11 [],
          .node .number (some .value) 11 12 []],
      .node (.token "\x7d") none 12 13 []]

def asserted : Tree :=
  .node .nonNullExpression none 36 38
    [.node .identifier none 36 37 [], .node (.token "!") none 37 38 []]

def parenthesized : Tree :=
  .node .parenthesizedExpression none 30 39
    [.node (.token "(") none 30 31 [], .node .comment none 31 36 [], asserted,
      .node (.token ")") none 38 39 []]

def frozenArguments : Tree :=
  .node .arguments (some .arguments) 29 40
    [.node (.token "(") none 29 30 [], parenthesized, .node (.token ")") none 39 40 []]

def frozenCall : Tree :=
  .node .callExpression (some .value) 16 40
    [.node .memberExpression (some .function) 16 29
        [.node .identifier (some .object) 16 22 [], .node (.token ".") none 22 23 [],
          .node .propertyIdentifier (some .property) 23 29 []],
      frozenArguments]

def declarator (start stop : Nat) (value : Tree) : Tree :=
  .node .variableDeclarator none start stop
    [.node .identifier (some .name) start (start + 1) [], .node (.token "=") none (start + 1) (start + 2) [],
      value]

def copied : Tree := .node .identifier (some .value) 43 44 []

def frozenStatement : Tree :=
  .node .lexicalDeclaration none 0 45
    [.node (.token "const") (some .kind) 0 5 [], declarator 6 13 record,
      .node (.token ",") none 13 14 [], declarator 14 40 frozenCall,
      .node (.token ",") none 40 41 [], declarator 41 44 copied, .node (.token ";") none 44 45 []]

def frozenFile : Source where
  path := ⟨["", "a.ts"]⟩
  language := .typescript
  text := "const X=\x7bp:1\x7d,A=Object.freeze((/*c*/X!)),B=X;"
  tree := .node .program none 0 45 [frozenStatement]

def childAt (n : Node) (i : Nat) : Node := ⟨n.tree.children.getD i n.tree, (n.tree, i) :: n.above⟩

def variableAt (s : Source) (i : Nat) : Declaration :=
  ⟨.binding, childAt (childAt s.root 0) i, childAt (childAt (childAt s.root 0) i) 0⟩

def valueAt (s : Source) (i : Nat) : Node := childAt (childAt (childAt s.root 0) i) 2

def frozenVariable : Declaration := variableAt frozenFile 3

def copiedVariable : Declaration := variableAt frozenFile 5

def frozenValue : Node := valueAt frozenFile 3

def frozenParentheses : Node := childAt (childAt frozenValue 1) 1

def frozenComment : Node := childAt frozenParentheses 1

def frozenName : Node := childAt (childAt frozenParentheses 2) 0

def frozenCodebase : Codebase := ⟨⟨[], []⟩, [], .relativeOnly, 8⟩

theorem distinct_frozenFile : Distinct [frozenFile] := .singleton (by decide +kernel)

theorem frozen_wraps : frozenFile.Wraps frozenName frozenValue [frozenComment] := by
  have inner : frozenFile.Wraps frozenName (childAt frozenParentheses 2) [] :=
    .layer (.nonNull rfl) ⟨⟨[], rfl⟩, List.forall_mem_nil _, by decide⟩ .bare
  have middle : frozenFile.Wraps frozenName frozenParentheses [frozenComment] :=
    .layer (.parentheses rfl) ⟨⟨[], rfl⟩, List.forall_mem_singleton.mpr rfl, by decide⟩ inner
  exact .layer (.frozen rfl rfl rfl (by decide +kernel) rfl)
    ⟨⟨[], rfl⟩, List.forall_mem_nil _, by decide⟩ middle

theorem frozen_gives : frozenFile.Gives frozenVariable frozenValue :=
  ⟨List.mem_of_getElem? (i := 2) rfl, rfl, rfl⟩

theorem copied_gives : frozenFile.Gives copiedVariable (valueAt frozenFile 5) :=
  ⟨List.mem_of_getElem? (i := 3) rfl, rfl, rfl⟩

theorem copied_alike : frozenFile.Alike frozenName (valueAt frozenFile 5) :=
  .intro rfl (by decide +kernel) rfl .nil

def commented : Tree :=
  .node .parenthesizedExpression (some .value) 8 20
    [.node (.token "(") none 8 9 [], .node .htmlComment none 9 15 [],
      .node .string none 16 19
        [.node (.token "'") none 16 17 [], .node .stringFragment none 17 18 [],
          .node (.token "'") none 18 19 []],
      .node (.token ")") none 19 20 []]

def commentedFile : Source where
  path := ⟨["", "a.js"]⟩
  language := .javascript
  text := "const a=(<!-- c\n'x');"
  tree :=
    .node .program none 0 21
      [.node .lexicalDeclaration none 0 21
        [.node (.token "const") (some .kind) 0 5 [], declarator 6 20 commented,
          .node (.token ";") none 20 21 []]]

def commentedValue : Node := valueAt commentedFile 1

def htmlComment : Node := childAt commentedValue 1

def commentedString : Node := childAt commentedValue 2

theorem commented_wraps : commentedFile.Wraps commentedString commentedValue [htmlComment] :=
  .layer (.parentheses rfl) ⟨⟨[], rfl⟩, List.forall_mem_singleton.mpr rfl, by decide⟩ .bare

end Sample

/-! ## Answers for expressions in wrappers -/

/-- If no comment `<!-- …` stands before an expression in wrappers, everything that is asked about it is
answered as for the expression alone, with the same visit left.  A variable that is given it has the keys of a
variable that is given the expression alone, however it is written elsewhere in the source: the same is asked
for both, and unless a key stands for two declarations, the same comes of it.  If there is such a comment,
nothing is known. -/
theorem wrapped_answers (c : Codebase) {s : Source} {e w : Node} {passed : List Node}
    (wraps : s.Wraps e w passed) :
    ((∀ x ∈ passed, x.kind ≠ .htmlComment) →
      (∀ (a : Aspect) depth v, a.answer c (Values.answer Guard.visit c depth) s w v =
        a.answer c (Values.answer Guard.visit c depth) s e v) ∧
      ∀ d d' e', s.Gives d w → s.Gives d' e' → s.Alike e e' →
        (∀ depth v, Values.initializerKeys c (Values.answer Guard.visit c depth) s d v =
          Values.initializerKeys c (Values.answer Guard.visit c depth) s d' v) ∧
        (Distinct (s :: c.sources) → ∀ v, (d.key s ∈ v.held ↔ d'.key s ∈ v.held) →
          ∃ values u, Returns Guard.visit c (.keys s d) v values u ∧
            Returns Guard.visit c (.keys s d') v values u)) ∧
    ((∃ x ∈ passed, x.kind = .htmlComment) →
      (∀ (a : Aspect) depth v, a.answer c (Values.answer Guard.visit c depth) s w v =
        .ok (.empty, v)) ∧
      ∀ d, s.Gives d w → ∀ v, ∃ u, Returns Guard.visit c (.keys s d) v .empty u) := by
  refine ⟨fun plain => ?_, fun marked => ?_⟩
  · have same : s.unwrap w = s.unwrap e := wraps.unwrap_of_plain plain
    refine ⟨fun a depth v => by rw [a.answer_of_unwrap_eq c _ same], ?_⟩
    intro d d' e' gives gives' alike
    have alike' : s.Alike (s.unwrap w) (s.unwrap e') := same ▸ alike.unwrap
    refine ⟨fun depth v => by rw [gives.initializerKeys_eq _ gives' alike'], ?_⟩
    exact fun distinct v held => gives.returns_keys_eq gives' alike' distinct held
  · have isComment : (s.unwrap w).kind = .htmlComment := wraps.kind_unwrap marked
    refine ⟨fun a depth v => by rw [a.answer_of_htmlComment c _ isComment]; rfl, ?_⟩
    exact fun d gives v => gives.returns_keys_of_htmlComment isComment v

/-- In `const X={p:1},A=Object.freeze((/*c*/X!)),B=X;`, the keys of `A` are those of `B`; and about the value
of `a` in a source where a comment `<!-- c` precedes it in parentheses, nothing is known. -/
theorem frozen_keys_as_copied :
    (Sample.frozenFile.Wraps Sample.frozenName Sample.frozenValue [Sample.frozenComment] ∧
      (∀ x ∈ [Sample.frozenComment], x.kind ≠ .htmlComment) ∧
      Returns Guard.visit Sample.frozenCodebase (.keys Sample.frozenFile Sample.frozenVariable)
        (.start 48) (.singleton "p") (.start 48)) ∧
    (∃ x ∈ [Sample.htmlComment], x.kind = .htmlComment) ∧
      ∀ (a : Aspect) depth v, a.answer Sample.frozenCodebase
        (Values.answer Guard.visit Sample.frozenCodebase depth) Sample.commentedFile Sample.commentedValue v =
          .ok (.empty, v) := by
  have plain : ∀ x ∈ [Sample.frozenComment], x.kind ≠ .htmlComment := by decide
  have marked : ∃ x ∈ [Sample.htmlComment], x.kind = .htmlComment := ⟨_, List.mem_cons_self, rfl⟩
  refine ⟨⟨Sample.frozen_wraps, plain, ?_⟩, marked,
    ((wrapped_answers Sample.frozenCodebase Sample.commented_wraps).2 marked).1⟩
  obtain ⟨values, u, returned, returned'⟩ :=
    (((wrapped_answers Sample.frozenCodebase Sample.frozen_wraps).1 plain).2 _ _ _ Sample.frozen_gives
      Sample.copied_gives Sample.copied_alike).2 Sample.distinct_frozenFile (.start 48) (by decide)
  have keys : Returns Guard.visit Sample.frozenCodebase
      (.keys Sample.frozenFile Sample.copiedVariable) (.start 48) (.singleton "p") (.start 48) :=
    ⟨3, rfl⟩
  obtain ⟨rfl, rfl⟩ := keys.unique returned'
  exact returned

/-- In `const a=(<!-- c`, continued by `'x');` in the next line, the string in parentheses has a value, but
the parentheses have none, and neither has `a`. -/
theorem htmlComment_hides_value :
    Sample.commentedFile.Wraps Sample.commentedString Sample.commentedValue [Sample.htmlComment] ∧
    Returns Guard.visit Sample.frozenCodebase (.expression Sample.commentedFile Sample.commentedString)
      (.start 48) (.singleton "x") (.start 48) ∧
    Returns Guard.visit Sample.frozenCodebase
      (.expression Sample.commentedFile Sample.commentedValue) (.start 48) .empty (.start 48) ∧
    ∃ w, Returns Guard.visit Sample.frozenCodebase
      (.declaration Sample.commentedFile (Sample.variableAt Sample.commentedFile 1)) (.start 48) .empty w :=
  ⟨Sample.commented_wraps, ⟨1, rfl⟩, ⟨1, rfl⟩, _, ⟨2, rfl⟩⟩

end TemplateValues
