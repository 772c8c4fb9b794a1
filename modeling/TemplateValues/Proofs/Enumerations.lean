import TemplateValues.Proofs.Completeness
import TemplateValues.Proofs.EnumMembers
import TemplateValues.Proofs.Idioms
import TemplateValues.Proofs.MemberChains
import TemplateValues.Proofs.StaleCopy

/-!
# The ways to list an enumeration

What an enumeration stands for can be asked in many ways: for its name, for the types that are read off
it, for what runs over the values or the keys of it, and for its keys in a loop.  All of them list the same
members in the same order (`enumeration_listed`).

Only the name itself is looked up by a declaration that is remembered, so only there does it matter what
the visit knows: of two copies of one file, a visit takes the enumeration of the one for that of the other.
-/

namespace TemplateValues

open Syntax

/-! ## Lists of members -/

namespace Source

variable {s : Source} {n : Node}

theorem values_enumNames (distinct : s.DistinctMembers n) :
    (s.enumNames n).values = (s.enumMembers n).map EnumMember.name :=
  LiteralSet.values_ofList_of_nodup distinct

/-- The strings of an enumeration are those of its names, one after the other. -/
theorem values_enumValues (distinct : s.DistinctMembers n) :
    (s.enumValues n).values =
      ((s.enumNames n).values.flatMap fun name => (s.enumValue n name).values).eraseDups := by
  have each : ∀ m ∈ s.enumMembers n, (s.enumValue n m.name).values = [m.value] := by
    intro m member
    rw [enumValue_of_mem distinct member]
    rfl
  rw [enumValues, LiteralSet.values_ofList, values_enumNames distinct, List.flatMap_map,
    List.flatMap_congr each, List.map_eq_flatMap]

end Source

/-! ## Ways to ask -/

/-- The expression is a name, under wrappers that do not change it. -/
def Source.IsName (s : Source) (name : String) (n : Node) : Prop :=
  (s.unwrap n).kind = .identifier ∧ s.textOf (s.unwrap n) = name

def Source.Applies (s : Source) (function name : String) (n : Node) : Prop :=
  s.callTarget? (s.unwrap n) = some function ∧
    ∃ argument, (callArguments (s.unwrap n)).head? = some argument ∧ s.IsName name argument

theorem Source.Applies.isCall {s : Source} {function name : String} {n : Node}
    (applies : s.Applies function name n) : (s.unwrap n).kind = .callExpression := by
  have target := applies.1
  unfold callTarget? at target
  split at target
  · assumption
  · cases target

/-- The variable of a loop over an expression, of the form `of` or `in`. -/
def Declaration.LoopsOver (s : Source) (p : Declaration) (form : String) (n : Node) : Prop :=
  p.kind = .parameter ∧ ∃ statement, p.node.parent? = some statement ∧
    statement.kind = .forInStatement ∧ statement.child? .right = some n ∧
    Values.loopWord? s statement = some form

/-- The parameter of a function that is called for the elements of an expression. -/
inductive Declaration.CalledFor (s : Source) (p : Declaration) (n : Node) : Prop where
  | single {function} : p.kind = .parameter → p.node.parent? = some function →
      function.kind = .arrowFunction → Values.collection? s function = some n → p.CalledFor s n
  | first {parameters function} : p.kind = .parameter → p.node.parent? = some parameters →
      parameters.kind = .formalParameters → parameters.parent? = some function →
      parameters.content.head?.any p.node.same →
      function.kind = .arrowFunction ∨ function.kind = .functionExpression ∨
        function.kind = .token "function" →
      Values.collection? s function = some n → p.CalledFor s n

/-- What asks for the values of what a name stands for, by a type or by what runs over the values. -/
inductive Source.AsksValues (s : Source) (name : String) : Call → Prop where
  | type {n : Node} (spelling : Idiom.ValuesSpelling) : n.kind = .lookupType →
      (s.textOf n).toList = spelling.chars name → s.AsksValues name (.ask (.type s n))
  | iteration {p : Declaration} {n : Node} : p.LoopsOver s "of" n ∨ p.CalledFor s n →
      s.Applies "Object.values" name n → s.AsksValues name (.iteration s p)

/-- What asks for the keys of what a name stands for, by a type, by what runs over the keys, or in a
loop. -/
inductive Source.AsksKeys (s : Source) (name : String) : Call → Prop where
  | type {n : Node} (spelling : Idiom.KeysSpelling) : n.kind = .indexTypeQuery →
      (s.textOf n).toList = spelling.before name [] → s.AsksKeys name (.ask (.type s n))
  | iteration {p : Declaration} {n : Node} : p.LoopsOver s "of" n ∨ p.CalledFor s n →
      s.Applies "Object.keys" name n → s.AsksKeys name (.iteration s p)
  | loop {p : Declaration} {n : Node} : p.LoopsOver s "in" n → s.IsName name n →
      s.AsksKeys name (.iteration s p)

inductive Codebase.AsksWhole (c : Codebase) (s : Source) (name : String) (t : Source)
    (d : Declaration) : Call → Prop where
  | declaration : c.AsksWhole s name t d (.ask (.declaration t d))
  | expression {n : Node} : s.IsName name n → c.AsksWhole s name t d (.ask (.expression s n))

/-! ## Inquiries -/

namespace Values

variable {c : Codebase} {s t : Source} {d : Declaration} {name : String} {n : Node}

section

variable (means : c.declared? s name .value = some (t, d))
include means

theorem named_of_means (goal : Source → Declaration → Goal) :
    named c Inquiry.one s name .value goal = Inquiry.one (goal t d) := by
  rw [named, meant_eq, means]

theorem expression_of_isName (isName : s.IsName name n) :
    Values.expression c Inquiry.one s n = Inquiry.one (.declaration t d) := by
  obtain ⟨kind, rfl⟩ := isName
  simp only [Values.expression, kind, named_of_means means]

theorem keysOf_of_isName (isName : s.IsName name n) :
    keysOf c Inquiry.one s n = Inquiry.one (.keys t d) := by
  obtain ⟨kind, rfl⟩ := isName
  simp only [keysOf, kind, named_of_means means]

theorem valuesOf_of_isName (kind : d.kind = .enumeration) (isName : s.IsName name n) :
    valuesOf c Inquiry.one s n = pure (t.enumValues d.node) := by
  obtain ⟨isIdentifier, rfl⟩ := isName
  simp only [valuesOf, isIdentifier, meant_eq, means, kind]

theorem elementsOf_values (kind : d.kind = .enumeration) (applies : s.Applies "Object.values" name n) :
    elementsOf c Inquiry.one s n = pure (t.enumValues d.node) := by
  have isCall := applies.isCall
  obtain ⟨target, argument, first, isName⟩ := applies
  simp only [elementsOf, isCall, target, first]
  exact valuesOf_of_isName means kind isName

theorem elementsOf_keys (applies : s.Applies "Object.keys" name n) :
    elementsOf c Inquiry.one s n = Inquiry.one (.keys t d) := by
  have isCall := applies.isCall
  obtain ⟨target, argument, first, isName⟩ := applies
  simp only [elementsOf, isCall, target, first]
  exact keysOf_of_isName means isName

theorem type_values (kind : d.kind = .enumeration) (plain : Idiom.isPlain name)
    (spelling : Idiom.ValuesSpelling) (isLookup : n.kind = .lookupType)
    (spelled : (s.textOf n).toList = spelling.chars name) :
    Values.type c Inquiry.one s n = pure (t.enumValues d.node) := by
  simp only [Values.type, isLookup, Idiom.ofText?_values spelling plain spelled, Eval.asked, idiom,
    meant_eq, means, kind, ↓reduceIte]

theorem type_keys (plain : Idiom.isPlain name) (spelling : Idiom.KeysSpelling)
    (isQuery : n.kind = .indexTypeQuery) (spelled : (s.textOf n).toList = spelling.before name []) :
    Values.type c Inquiry.one s n = Inquiry.one (.keys t d) := by
  simp only [Values.type, isQuery, Idiom.ofText?_keys spelling plain spelled, Eval.asked, idiom]
  exact named_of_means means .keys

end

/-- What a parameter takes is asked of what it runs over. -/
theorem iteration_elements {p : Declaration} (runs : p.LoopsOver s "of" n ∨ p.CalledFor s n) :
    iteration c Inquiry.one s p = elementsOf c Inquiry.one s n := by
  obtain ⟨isParameter, statement, parent, kind, right, form⟩ | called := runs
  · simp only [iteration, isParameter, parent, kind, loop, right, form, ↓reduceIte]
  · cases called with
    | single isParameter parent kind collection =>
      simp only [iteration, isParameter, parent, kind, collection, Eval.asked, ↓reduceIte]
    | first isParameter parent kind around isFirst function collection =>
      simp only [iteration, isParameter, parent, kind, around, isFirst, function, collection, Eval.asked,
        Bool.true_and, Bool.or_eq_true, or_assoc, decide_eq_true_eq, ↓reduceIte]

theorem iteration_keys {p : Declaration} (loops : p.LoopsOver s "in" n) :
    iteration c Inquiry.one s p = keysOf c Inquiry.one s n := by
  obtain ⟨isParameter, statement, parent, kind, right, form⟩ := loops
  simp only [iteration, isParameter, parent, kind, loop, right, form, ↓reduceIte]

end Values

/-! ## Answers -/

section Answers

variable {c : Codebase} {v w : Visit} {values : LiteralSet}

/-- A call has the answers that its inquiry comes to. -/
theorem Call.returns_iff {call : Call} :
    call.Returns c v values w ↔ (call.inquiry c).Run (TemplateValues.Returns Guard.visit c) v values w := by
  constructor
  · rintro ⟨depth, returned⟩
    rw [Call.answer_eq_run, Inquiry.run_ok_iff] at returned
    exact returned.mono fun _ _ _ _ answered => ⟨depth, answered⟩
  · intro run
    obtain ⟨depth, run⟩ := exists_depth_of_run run
    exact ⟨depth, by rw [Call.answer_eq_run, Inquiry.run_ok_iff]; exact run⟩

/-- A goal that is asked freely and asks nothing always has its answer. -/
theorem returns_iff_of_free_done {goal : Goal} {answer : LiteralSet} (free : goal.gate = .free)
    (known : goal.inquiry c = .done answer) :
    Returns Guard.visit c goal v values w ↔ values = answer ∧ w = v := by
  rw [returns_iff_of_done known, free]
  constructor
  · rintro (turned | ⟨u, opened, rfl, rfl⟩)
    · cases turned
    · cases opened
      exact ⟨rfl, rfl⟩
  · rintro ⟨rfl, rfl⟩
    exact .inr ⟨w, .free, rfl, rfl⟩

variable {s t : Source} {d : Declaration} {name : String} {call : Call}

theorem returns_keys_iff (kind : d.kind = .enumeration) :
    Returns Guard.visit c (.keys t d) v values w ↔ values = t.enumNames d.node ∧ w = v := by
  refine returns_iff_of_free_done ?_ ?_
  · simp [Goal.gate, kind]
  · simp only [Goal.inquiry, kind]
    rfl

/-- The values of an enumeration are those that the visit knows, or the strings of its members. -/
theorem exists_returns_enumeration (kind : d.kind = .enumeration) (v : Visit) :
    ∃ values w, Returns Guard.visit c (.declaration t d) v values w ∧
      (w.refusals = v.refusals → values = (v.finished? (d.key t)).getD (t.enumValues d.node)) := by
  obtain ⟨values, w, turned⟩ | ⟨u, opened⟩ := Guard.turns_or_opens (g := Guard.visit)
    (Goal.declaration t d).gate v
  · refine ⟨values, w, TemplateValues.returns_iff.mpr (.inl turned), fun unrefused => ?_⟩
    cases turned with
    | known known =>
      rw [show v.finished? (d.key t) = some values from known]
      rfl
    | unentered _ refused =>
      -- the refusal was counted
      rw [(Visit.enter_false_iff.mp refused).2] at unrefused
      exact absurd unrefused (Nat.succ_ne_self _)
  · refine ⟨_, _, (returns_iff_of_done (Source.inquiry_enumeration kind)).mpr
      (.inr ⟨u, opened, rfl, rfl⟩), fun _ => ?_⟩
    cases opened with
    | remembered unknown _ =>
      rw [show v.finished? (d.key t) = none from unknown]
      rfl

section

variable (means : c.declared? s name .value = some (t, d))
include means

theorem Codebase.AsksWhole.returns_iff (asks : c.AsksWhole s name t d call) :
    call.Returns c v values w ↔ Returns Guard.visit c (.declaration t d) v values w := by
  rw [Call.returns_iff]
  cases asks with
  | declaration => exact Inquiry.run_one_iff
  | @expression n isName =>
    have passes : (Goal.expression s n).inquiry c = .one (.declaration t d) :=
      Values.expression_of_isName means isName
    exact Inquiry.run_one_iff.trans (returns_iff_of_free rfl passes)

theorem Source.AsksValues.returns_iff (kind : d.kind = .enumeration) (plain : Idiom.isPlain name)
    (asks : s.AsksValues name call) :
    call.Returns c v values w ↔ values = t.enumValues d.node ∧ w = v := by
  rw [Call.returns_iff]
  cases asks with
  | type spelling isLookup spelled =>
    exact Inquiry.run_one_iff.trans
      (returns_iff_of_free_done rfl (Values.type_values means kind plain spelling isLookup spelled))
  | iteration runs applies =>
    rw [Call.inquiry, Values.iteration_elements runs, Values.elementsOf_values means kind applies]
    exact Inquiry.run_done_iff

theorem Source.AsksKeys.returns_iff (kind : d.kind = .enumeration) (plain : Idiom.isPlain name)
    (asks : s.AsksKeys name call) :
    call.Returns c v values w ↔ values = t.enumNames d.node ∧ w = v := by
  refine Iff.trans ?_ (returns_keys_iff (c := c) kind)
  rw [Call.returns_iff]
  cases asks with
  | @type n spelling isQuery spelled =>
    have passes : (Goal.type s n).inquiry c = .one (.keys t d) :=
      Values.type_keys means plain spelling isQuery spelled
    exact Inquiry.run_one_iff.trans (returns_iff_of_free rfl passes)
  | iteration runs applies =>
    rw [Call.inquiry, Values.iteration_elements runs, Values.elementsOf_keys means applies]
    exact Inquiry.run_one_iff
  | loop loops isName =>
    rw [Call.inquiry, Values.iteration_keys loops, Values.keysOf_of_isName means isName]
    exact Inquiry.run_one_iff

end

/-- Where all sources are kept apart, what a visit knows about an enumeration are the strings of its
members. -/
theorem known_enumeration {sources : List Source} (all : c.sources ⊆ sources)
    (apart : Distinct sources) (arises : v.Arises c sources) (source : t ∈ sources)
    (declared : d ∈ t.declarations) (kind : d.kind = .enumeration)
    (known : v.finished? (d.key t) = some values) : values = t.enumValues d.node := by
  have complete := (arises.faithful all apart).known apart source declared known
  obtain turned | ⟨-, -, same, -⟩ :=
    (returns_iff_of_done (Source.inquiry_enumeration (c := c) kind)).mp complete
  · exact absurd (free_opens _) turned.not_opens
  · exact same

end Answers

/-! ## The main statement -/

/-- **All ways to list an enumeration agree, if copies of a file are kept apart.**  Let the members have
different names.  Then each name has one string and no other name has one, and the strings of the
enumeration are those of its names in turn, each once.  The types that are read off it and all that runs over
its values or its keys list just these strings or names, in every visit.  The name itself has the values that
the visit remembers for the place of the enumeration, or else these strings.  So in a visit that only deals
with sources at different places, it has these strings whenever nothing is refused. -/
theorem enumeration_listed (c : Codebase) {t : Source} {d : Declaration}
    (distinct : t.DistinctMembers d.node) :
    (∀ m ∈ (t.enumNames d.node).values, ∃ value, t.enumValue d.node m = .singleton value) ∧
    (∀ m, m ∉ (t.enumNames d.node).values → t.enumValue d.node m = .empty) ∧
    (t.enumValues d.node).values =
      ((t.enumNames d.node).values.flatMap fun m => (t.enumValue d.node m).values).eraseDups ∧
    (d.kind = .enumeration → ∀ s name, c.declared? s name .value = some (t, d) →
      (Idiom.isPlain name →
        (∀ call, s.AsksValues name call → ∀ v values w,
          call.Returns c v values w ↔ values = t.enumValues d.node ∧ w = v) ∧
        ∀ call, s.AsksKeys name call → ∀ v values w,
          call.Returns c v values w ↔ values = t.enumNames d.node ∧ w = v) ∧
      ∀ call, c.AsksWhole s name t d call → ∀ v, ∃ values w, call.Returns c v values w ∧
        (w.refusals = v.refusals → values = (v.finished? (d.key t)).getD (t.enumValues d.node)) ∧
        ∀ sources, c.sources ⊆ sources → s ∈ sources → Distinct sources → v.Arises c sources →
          w.refusals = v.refusals → values = t.enumValues d.node) := by
  have names := Source.values_enumNames distinct
  refine ⟨?_, ?_, Source.values_enumValues distinct, ?_⟩
  · intro m member
    rw [names] at member
    obtain ⟨written, listed, rfl⟩ := List.mem_map.mp member
    exact ⟨written.value, Source.enumValue_of_mem distinct listed⟩
  · intro m absent
    rw [names] at absent
    exact Source.enumValue_of_not_mem absent
  · intro kind s name means
    refine ⟨fun plain => ⟨fun call asks v values w => asks.returns_iff means kind plain,
      fun call asks v values w => asks.returns_iff means kind plain⟩, fun call asks v => ?_⟩
    obtain ⟨values, w, returned, remembers⟩ := exists_returns_enumeration (c := c) (t := t) kind v
    refine ⟨values, w, (asks.returns_iff means).mpr returned, remembers, ?_⟩
    intro sources all source apart arises unrefused
    obtain ⟨source', declared⟩ := (Codebase.provides_of_declared? means).within all source
    rw [remembers unrefused]
    cases known : v.finished? (d.key t) with
    | none => rfl
    | some values => exact known_enumeration all apart arises source' declared kind known

namespace Sample

def keyLoop (start : Nat) : Tree :=
  .node .forInStatement none start (start + 19)
    [.node (.token "for") none start (start + 3) [], .node (.token "(") none (start + 4) (start + 5) [],
      .node (.token "const") (some .kind) (start + 5) (start + 10) [],
      .node .identifier (some .left) (start + 11) (start + 12) [],
      .node (.token "in") (some .operator) (start + 13) (start + 15) [],
      .node .identifier (some .right) (start + 16) (start + 17) [],
      .node (.token ")") none (start + 17) (start + 18) [],
      .node .emptyStatement (some .body) (start + 18) (start + 19) []]

def looped : Source where
  path := ⟨["", "a.ts"]⟩
  language := .typescript
  text := "enum E \x7b A, 'B' \x7d\nfor (const k in E);"
  tree := .node .program none 0 37 [bareEnum, keyLoop 18]

def loopedCodebase : Codebase := ⟨⟨[], []⟩, [looped], .relativeOnly, 8⟩

def loopedEnum : Declaration where
  kind := .enumeration
  node := ⟨bareEnum, [(looped.tree, 0)]⟩
  name := ⟨.node .identifier (some .name) 5 6 [], [(bareEnum, 1), (looped.tree, 0)]⟩

def loopPart (i : Nat) : Node :=
  ⟨(keyLoop 18).children.getD i (keyLoop 18), [(keyLoop 18, i), (looped.tree, 1)]⟩

def loopVariable : Declaration := ⟨.parameter, loopPart 3, loopPart 3⟩

end Sample

/-- In `enum E { A, 'B' }`, a loop over the keys of `E` runs over the names of both members. -/
theorem looped_enumeration_listed :
    Sample.loopedCodebase.declared? Sample.looped "E" .value = some (Sample.looped, Sample.loopedEnum) ∧
    Sample.looped.DistinctMembers Sample.loopedEnum.node ∧ Idiom.isPlain "E" ∧
    Sample.looped.AsksKeys "E" (.iteration Sample.looped Sample.loopVariable) ∧
    ∀ v values w, (Call.iteration Sample.looped Sample.loopVariable).Returns Sample.loopedCodebase v
      values w ↔ values = .ofList ["A", "B"] ∧ w = v := by
  have means : Sample.loopedCodebase.declared? Sample.looped "E" .value =
      some (Sample.looped, Sample.loopedEnum) := rfl
  have distinct : Sample.looped.DistinctMembers Sample.loopedEnum.node := by decide +kernel
  have plain : Idiom.isPlain "E" := by decide +kernel
  have asks : Sample.looped.AsksKeys "E" (.iteration Sample.looped Sample.loopVariable) :=
    .loop ⟨rfl, _, rfl, rfl, rfl, by decide +kernel⟩ ⟨rfl, by decide +kernel⟩
  have names : Sample.looped.enumNames Sample.loopedEnum.node = .ofList ["A", "B"] := by decide +kernel
  refine ⟨means, distinct, plain, asks, ?_⟩
  rw [← names]
  obtain ⟨-, -, -, listed⟩ := enumeration_listed Sample.loopedCodebase distinct
  exact ((listed rfl _ _ means).1 plain).2 _ asks

namespace Edited

open Syntax

/-- A file with an enumeration of one member, whose string has three characters, and a constant that another
module gives its value. -/
def enumerated (value : String) : Source where
  path := ⟨["", "a.ts"]⟩
  language := .typescript
  text := "import \x7b Y \x7d from './b';\nconst X = Y;\nexport enum E \x7b A = '" ++ value ++ "' \x7d\n"
  tree := .node .program none 0 66
    [importStatement,
      .node .lexicalDeclaration none 25 37
        [.node (.token "const") (some .kind) 25 30 [],
          .node .variableDeclarator none 31 36
            [.node .identifier (some .name) 31 32 [], .node (.token "=") none 33 34 [],
              .node .identifier (some .value) 35 36 []],
          .node (.token ";") none 36 37 []],
      .node .exportStatement none 38 65
        [.node (.token "export") none 38 44 [],
          .node .enumDeclaration (some .declaration) 45 65
            [.node (.token "enum") none 45 49 [], .node .identifier (some .name) 50 51 [],
              .node .enumBody (some .body) 52 65
                [.node (.token "\x7b") none 52 53 [],
                  .node .enumAssignment none 54 63
                    [.node .propertyIdentifier (some .name) 54 55 [],
                      .node (.token "=") none 56 57 [], Barrel.literal .value 58 5],
                  .node (.token "\x7d") none 64 65 []]]]]

def enumeratedBack : Source where
  path := ⟨["", "b.ts"]⟩
  language := .typescript
  text := "import \x7b E \x7d from './a';\nexport const Y = E;\n"
  tree := .node .program none 0 45 back.tree.children

def enumeratedCodebase : Codebase where
  workspace := ⟨[enumerated "old", enumeratedBack].map fun s => ⟨s.path.pieces.drop 1, s.text.toUTF8⟩, []⟩
  sources := [enumerated "old", enumeratedBack]
  lookup := .relativeOnly
  hops := 8

def asked (name : String) (v : Visit) : Option (LiteralSet × Visit) :=
  ((enumerated "new").find? name .value).bind fun d =>
    (Values.answer Guard.visit enumeratedCodebase 20 (.declaration (enumerated "new") d) v).toOption

theorem returns_of_asked {name : String} {v w : Visit} {values : LiteralSet}
    (answered : asked name v = some (values, w)) :
    ∃ d, (enumerated "new").find? name .value = some d ∧
      Returns Guard.visit enumeratedCodebase (.declaration (enumerated "new") d) v values w := by
  obtain ⟨d, found, answered⟩ := Option.bind_eq_some_iff.mp answered
  refine ⟨d, found, 20, ?_⟩
  cases computed : Values.answer Guard.visit enumeratedCodebase 20 (.declaration (enumerated "new") d) v with
  | error halt =>
    rw [computed] at answered
    cases answered
  | ok result =>
    rw [computed] at answered
    cases answered
    rfl

end Edited

/-- A file is edited, and another module leads back to its copy on disk.  After the enumeration of the copy
was looked up on the way, the enumeration of the file has the string of the copy, with nothing refused. -/
theorem remembered_copy_listed : ∃ x e v w,
    (Edited.enumerated "new").find? "X" .value = some x ∧
    Edited.enumeratedCodebase.declared? (Edited.enumerated "new") "E" .value =
      some (Edited.enumerated "new", e) ∧
    Returns Guard.visit Edited.enumeratedCodebase (.declaration (Edited.enumerated "new") x) (.start 48)
      (.singleton "old") v ∧
    Returns Guard.visit Edited.enumeratedCodebase (.declaration (Edited.enumerated "new") e) v
      (.singleton "old") w ∧
    w.refusals = v.refusals ∧ (Edited.enumerated "new").enumValues e.node = .singleton "new" := by
  have run : ((Edited.asked "X" (.start 48)).bind fun first => (Edited.asked "E" first.2).map fun second =>
      (first.1, second.1, second.2.refusals == first.2.refusals)) = some (.singleton "old", .singleton "old", true) := by
    decide +kernel
  have own : ((Edited.enumerated "new").find? "E" .value).map (fun e =>
      (Edited.enumerated "new").enumValues e.node) = some (.singleton "new") := by decide +kernel
  obtain ⟨⟨values, v⟩, first, rest⟩ := Option.bind_eq_some_iff.mp run
  obtain ⟨⟨values', w⟩, second, same⟩ := Option.map_eq_some_iff.mp rest
  simp only [Prod.mk.injEq, beq_iff_eq] at same
  obtain ⟨rfl, rfl, unrefused⟩ := same
  obtain ⟨x, foundX, returnedX⟩ := Edited.returns_of_asked first
  obtain ⟨e, foundE, returnedE⟩ := Edited.returns_of_asked second
  rw [foundE] at own
  refine ⟨x, e, v, w, foundX, ?_, returnedX, returnedE, unrefused, Option.some.inj own⟩
  rw [Codebase.declared?_eq, foundE]

end TemplateValues
