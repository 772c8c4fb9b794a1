import TemplateValues.Proofs.ImportForms
import TemplateValues.Proofs.Wrappers

/-!
# Member chains and their paths

A member chain is followed name by name: each rule takes the first name off a path and hands the rest on.
A path may come to its end, and it may grow again, where the value of a variable is itself a member chain.
Only at some places does a rule ask whether there is a name left; a rule for a member of an expression or
of a type does not, and it comes to a halt if there is none.

That this never happens is an invariant of questions: where a member is asked for, it has a name
(`Goal.NamesMember`).  Whatever a rule asks keeps it (`Goal.NamesMember.inquiry`), so it holds of all that
is ever asked (`AsksEventually.namesMember`), and no answer ends in that halt (`answer_ne_noMember`).
-/

namespace TemplateValues

open Syntax

/-! ## Texts that are put together -/

namespace Chain

theorem segments_append_dot (front rest : String) :
    segments (front ++ "." ++ rest) = segments front ++ segments rest := by
  have chars : (front ++ "." ++ rest).toList = front.toList ++ '.' :: rest.toList := by
    rw [String.toList_append, String.toList_append, List.append_assoc]
    rfl
  rw [segments, chars, Text.splitAt_append, List.map_append, segments, segments]

theorem segments_intercalate_names {path : List String} (names : path ≠ []) :
    segments (".".intercalate path) = path.flatMap segments := by
  induction path with
  | nil => exact absurd rfl names
  | cons name rest ih =>
    cases rest with
    | nil => rw [String.intercalate_singleton, List.flatMap_singleton]
    | cons next others =>
      have more : next :: others ≠ [] := List.cons_ne_nil _ _
      rw [String.intercalate_cons_of_ne_nil more, segments_append_dot, ih more, ← List.flatMap_cons]

/-- A chain that goes on has its own segments, and then those of the names that it goes on with. -/
theorem segments_extend (text : String) {path : List String} (names : path ≠ []) :
    segments (extend text path) = segments text ++ path.flatMap segments := by
  rw [extend, segments_append_dot, segments_intercalate_names names]

theorem length_segments_pos (text : String) : 0 < (segments text).length := by
  rw [segments, List.length_map]
  exact List.length_pos_of_ne_nil (Text.splitAt_ne_nil '.' _)

theorem two_le_length_segments_extend (text : String) (path : List String) :
    2 ≤ (segments (extend text path)).length := by
  rw [extend, segments_append_dot, List.length_append]
  exact Nat.add_le_add (length_segments_pos text) (length_segments_pos _)

end Chain

/-! ## What is asked has a name -/

/-- Where a member of an expression or of a type is asked for, it has a name. -/
def Goal.NamesMember : Goal → Prop
  | .expressionMember _ _ path | .typeMember _ _ path => path ≠ []
  | .declaration .. | .keys .. | .chain .. | .expression .. | .type .. => True

theorem TermAsks.namesMember {c : Codebase} {s : Source} {n : Node} {q : Inquiry LiteralSet} {goal : Goal}
    (asks : TermAsks c s n q goal) : goal.NamesMember := by
  cases asks <;> trivial

theorem MemberAsks.namesMember {c : Codebase} {s : Source} {n : Node} {goal : Goal}
    (asks : MemberAsks c s n goal) : goal.NamesMember := by
  cases asks with
  | expressionMember _ more | typeMember _ more => exact more
  | expression | type | chain => trivial

namespace Inquiry

variable {c : Codebase} {s : Source}

theorem namesMember_objectValues (object : Node) :
    (Values.objectValues c one s object).Only Goal.NamesMember := by
  refine only_collect fun m _ => ?_
  unfold Values.propertyValues
  split
  · exact only_asked fun _ _ => only_one trivial
  · exact only_named fun _ _ _ => trivial
  · exact only_unknown

theorem namesMember_valuesOf (n : Node) : (Values.valuesOf c one s n).Only Goal.NamesMember := by
  unfold Values.valuesOf
  dsimp only
  split
  · exact namesMember_objectValues _
  · refine only_meant fun t d _ => ?_
    split
    · exact only_pure _
    · split
      · exact namesMember_objectValues _
      · exact only_unknown
    · exact only_unknown
  · exact only_unknown

theorem namesMember_keysOf (n : Node) : (Values.keysOf c one s n).Only Goal.NamesMember := by
  unfold Values.keysOf
  dsimp only
  split
  · exact only_pure _
  · exact only_named fun _ _ _ => trivial
  · exact only_unknown

theorem namesMember_dotted (expression : String) :
    (Values.dotted c one s expression).Only Goal.NamesMember :=
  only_dotted fun _ _ _ _ => trivial

theorem namesMember_elementsOf (n : Node) : (Values.elementsOf c one s n).Only Goal.NamesMember := by
  unfold Values.elementsOf
  dsimp only
  split
  · split
    · exact namesMember_valuesOf _
    · exact namesMember_keysOf _
    · exact only_unknown
  · exact only_elements fun _ _ => trivial
  · exact only_named fun _ _ _ => trivial
  · -- the text does not matter, and it must not be evaluated
    generalize Values.chainText s (s.unwrap n) = text
    exact namesMember_dotted text
  · exact only_unknown

theorem namesMember_iteration (d : Declaration) : (Values.iteration c one s d).Only Goal.NamesMember := by
  have called : ∀ n?, (Eval.asked (Values.elementsOf c one s) n?).Only Goal.NamesMember :=
    fun _ => only_asked fun n _ => namesMember_elementsOf n
  unfold Values.iteration
  refine only_ite (fun _ => ?_) fun _ => only_unknown
  split
  · split
    · unfold Values.loop
      split
      · exact namesMember_elementsOf _
      · exact namesMember_keysOf _
      · exact only_unknown
    · exact called _
    · split
      · exact only_ite (fun _ => called _) fun _ => only_unknown
      · exact only_unknown
    · exact only_unknown
  · exact only_unknown

theorem namesMember_declaration (d : Declaration) :
    (Values.declaration c one s d).Only Goal.NamesMember := by
  have written : (Values.ascribed one s d).Only Goal.NamesMember := only_asked fun _ _ => only_one trivial
  have given : (Values.given one s d).Only Goal.NamesMember :=
    only_orElse written (only_asked fun _ _ => only_one trivial)
  unfold Values.declaration
  split
  · exact only_pure _
  · exact given
  · exact only_asked fun _ _ => only_one trivial
  · exact only_unknown
  · exact only_orElse written (namesMember_iteration d)
  · unfold Values.property
    split
    · exact only_pure _
    · exact only_pure _
    · exact given

theorem namesMember_initializerKeys (d : Declaration) :
    (Values.initializerKeys c one s d).Only Goal.NamesMember := by
  unfold Values.initializerKeys
  split
  · split
    · exact only_pure _
    · exact only_named fun _ _ _ => trivial
    · exact only_unknown
  · exact only_unknown

theorem namesMember_declarationMember (d : Declaration) (name : String) (rest : List String) :
    (Values.declarationMember one s d name rest).Only Goal.NamesMember := by
  have inType : ∀ t, (one (.typeMember s t (name :: rest))).Only Goal.NamesMember :=
    fun _ => only_one (List.cons_ne_nil name rest)
  have inValue : ∀ n, (one (.expressionMember s n (name :: rest))).Only Goal.NamesMember :=
    fun _ => only_one (List.cons_ne_nil name rest)
  unfold Values.declarationMember
  dsimp only
  split
  · exact only_ite (fun _ => only_pure _) fun _ => only_unknown
  · exact only_asked fun t _ => inType t
  · exact only_orElse (only_asked fun t _ => inType t) (only_firstKnown fun t _ => inType t)
  all_goals exact only_orElse (only_asked fun t _ => inType t) (only_asked fun n _ => inValue n)

end Inquiry

/-- If a goal names its member, so do the goals that its rule asks, and the rule does not halt. -/
theorem Goal.NamesMember.inquiry {c : Codebase} {goal : Goal} (names : goal.NamesMember) :
    (goal.inquiry c).Only Goal.NamesMember := by
  match goal, names with
  | .declaration s d, _ => exact Inquiry.namesMember_declaration d
  | .keys s d, _ =>
    unfold Goal.inquiry
    dsimp only
    split
    · exact Inquiry.only_pure _
    · exact Inquiry.namesMember_initializerKeys d
    · exact Inquiry.only_unknown
  | .chain s d [], _ => exact Inquiry.only_one trivial
  | .chain s d (name :: rest), _ => exact Inquiry.namesMember_declarationMember d name rest
  | .expression s n, _ => exact (Inquiry.only_expression n).mono fun _ => TermAsks.namesMember
  | .type s n, _ => exact (Inquiry.only_type n).mono fun _ => TermAsks.namesMember
  | .expressionMember s n [], names | .typeMember s n [], names => exact absurd rfl names
  | .expressionMember s n (name :: rest), _ =>
    exact (Inquiry.only_expressionMember n name rest).mono fun _ => MemberAsks.namesMember
  | .typeMember s n (name :: rest), _ =>
    exact (Inquiry.only_typeMember n name rest).mono fun _ => MemberAsks.namesMember

section Course

variable {σ : Type} {g : Guard σ} {c : Codebase}

theorem AsksEventually.namesMember {x y : Goal × σ} (asks : AsksEventually g c x y)
    (names : x.1.NamesMember) : y.1.NamesMember := by
  induction asks with
  | refl => exact names
  | tail _ step ih =>
    obtain ⟨u, -, asked⟩ := step
    exact ih.inquiry.mayAsk asked.mayAsk

/-- An inquiry halts for want of a name only if a goal that it asks does. -/
theorem Inquiry.run_ne_noMember {α : Type} {P : Goal → Prop} {ask : Ask σ}
    (each : ∀ goal, P goal → ∀ v, ask goal v ≠ .error .noMember) {q : Inquiry α} (only : q.Only P) (v : σ) :
    q.run ask v ≠ .error .noMember := by
  induction q generalizing v with
  | done a =>
    intro halted
    cases halted
  | ask goal next ih =>
    simp only [Inquiry.run, bind, StateT.bind, Except.bind]
    cases answered : ask goal v with
    | error halt =>
      have other : halt ≠ .noMember := fun same => each goal only.1 v (answered.trans (congrArg _ same))
      simpa using other
    | ok result => exact ih _ (only.2 _) _
  | halt h => exact only.elim

/-- A goal that names its member is never without an answer for want of a name. -/
theorem answer_ne_noMember {goal : Goal} (names : goal.NamesMember) (depth : Nat) (v : σ) :
    Values.answer g c depth goal v ≠ .error .noMember := by
  induction depth generalizing goal v with
  | zero =>
    intro halted
    cases halted
  | succ depth ih =>
    rw [Values.answer, rule_eq_through]
    rcases Guard.turns_or_opens (g := g) goal.gate v with ⟨values, w, turned⟩ | ⟨u, opened⟩
    · rw [Guard.through_of_turns turned]
      intro halted
      cases halted
    · -- closing the gate behind an answer does not halt
      have behind := Inquiry.run_ne_noMember (fun _ names v => ih names v) (names.inquiry (c := c)) u
      intro halted
      rw [Guard.through_of_opens opened] at halted
      cases computed : (goal.inquiry c).run (Values.answer g c depth) u with
      | ok result =>
        rw [computed] at halted
        cases halted
      | error halt =>
        rw [computed] at halted
        cases halted
        exact behind computed

end Course

/-! ## Calls with a path -/

/-- A call of a rule that takes a name off a path: for a declaration that was entered, for the type that an
alias or an interface declares, for an expression and for a type. -/
inductive PathCall where
  | declaration (s : Source) (d : Declaration) (path : List String)
  | declaredType (s : Source) (d : Declaration) (path : List String)
  | expression (s : Source) (n : Node) (path : List String)
  | type (s : Source) (n : Node) (path : List String)

namespace PathCall

def path : PathCall → List String
  | .declaration _ _ path | .declaredType _ _ path | .expression _ _ path | .type _ _ path => path

def goal : PathCall → Goal
  | .declaration s d path | .declaredType s d path => .chain s d path
  | .expression s n path => .expressionMember s n path
  | .type s n path => .typeMember s n path

/-- What the rule asks once it has taken the first name off its path. -/
def rule (c : Codebase) (name : String) (rest : List String) : PathCall → Inquiry LiteralSet
  | .declaration s d _ | .declaredType s d _ => Values.declarationMember .one s d name rest
  | .expression s n _ => Values.expressionMember c .one s n name rest
  | .type s n _ => Values.typeMember c .one s n name rest

/-- Where its goal is asked in a state, the rule is called: for a declaration only if the chain goes on to
hold it, and is let in. -/
inductive MadeIn {σ : Type} (g : Guard σ) : PathCall → σ → Prop where
  | declaration {s d path v u} : (Goal.chain s d path).gate = .held (d.key s) →
      g.Opens (.held (d.key s)) v u → MadeIn g (.declaration s d path) v
  | declaredType {s d path v u} : (Goal.chain s d path).gate = .held (d.key s) →
      g.Opens (.held (d.key s)) v u → d.kind = .typeAlias ∨ d.kind = .interface →
      MadeIn g (.declaredType s d path) v
  | expression {s n path v} : MadeIn g (.expression s n path) v
  | type {s n path v} : MadeIn g (.type s n path) v

/-- A rule that is called for a goal that names its member gets a name. -/
theorem MadeIn.path_ne_nil {σ : Type} {g : Guard σ} {made : PathCall} {v : σ} (madeIn : made.MadeIn g v)
    (names : made.goal.NamesMember) : made.path ≠ [] := by
  cases madeIn with
  | declaration gate | declaredType gate =>
    -- a chain that has come to its end holds nothing
    rintro (rfl : _ = [])
    cases gate
  | expression | type => exact names

theorem inquiry_goal {c : Codebase} {made : PathCall} {name : String} {rest : List String}
    (path : made.path = name :: rest) : made.goal.inquiry c = made.rule c name rest := by
  cases made with
  | declaration | declaredType | expression | type =>
    cases path
    rfl

end PathCall

namespace Call

variable (c : Codebase)

inductive OfChain : Call → Prop where
  | text (s : Source) (expression : String) : OfChain (.access s expression)
  | path (s : Source) (d : Declaration) (path : List String) : OfChain (.ask (.chain s d path))

/-- A rule is called with a path during the call, whether the call returns or not. -/
def Makes (call : Call) (v : Visit) (made : PathCall) : Prop :=
  ∃ x u, (call.inquiry c).AsksAt (TemplateValues.Returns Guard.visit c) v x.1 x.2 ∧
    AsksEventually Guard.visit c x (made.goal, u) ∧ made.MadeIn Guard.visit u

variable {c} {call : Call}

theorem OfChain.inquiry (ofChain : call.OfChain) : (call.inquiry c).Only Goal.NamesMember := by
  cases ofChain with
  | text s expression => exact Inquiry.namesMember_dotted expression
  | path s d path => exact Inquiry.only_one trivial

theorem Makes.path_ne_nil {v : Visit} {made : PathCall} (makes : call.Makes c v made)
    (ofChain : call.OfChain) : made.path ≠ [] := by
  obtain ⟨x, u, asked, eventually, madeIn⟩ := makes
  have first : x.1.NamesMember := (ofChain.inquiry (c := c)).mayAsk asked.mayAsk
  exact madeIn.path_ne_nil (eventually.namesMember first)

end Call

/-- What is asked about a text with dots goes on with what stands behind its first or its second dot. -/
theorem Inquiry.only_dotted_path {c : Codebase} {s : Source} (text : String) :
    (Values.dotted c one s text).Only fun goal => ∃ t d root member rest,
      Chain.segments text = root :: member :: rest ∧
        (goal = .chain t d (member :: rest) ∨ goal = .chain t d rest) := by
  unfold Values.dotted
  split
  · rename_i root member rest cut
    refine only_ite (fun _ => ?_) fun _ => only_unknown
    rw [Values.chained_eq]
    split
    · exact only_one ⟨_, _, root, member, rest, cut, .inl rfl⟩
    · split
      · exact only_one ⟨_, _, root, member, rest, cut, .inr rfl⟩
      · exact only_unknown
  · exact only_unknown

theorem inquiry_expressionMember_of_memberExpression {c : Codebase} {s : Source} {n : Node}
    {path : List String} (names : path ≠ []) (kind : (s.unwrap n).kind = .memberExpression) :
    (Goal.expressionMember s n path).inquiry c =
      Values.dotted c .one s (Chain.extend (Values.chainText s (s.unwrap n)) path) := by
  obtain ⟨name, rest, rfl⟩ := List.exists_cons_of_ne_nil names
  simp only [Goal.inquiry, Values.expressionMember, kind]

/-- **A member chain never runs out of names.**  Let a member chain be looked up, as any text or as any path
from any declaration, in whatever visit.  Every rule that takes a name off a path and is called on the way
gets a path with a first name, and goes on with that name and the rest.  The text that is put together from
a member expression and the rest of a path is looked up next, and it has at least two segments: those of the
member expression and those of the rest.  From a text the chain goes on with what stands behind the first or
the second of at least two segments.  However deep the questions may be nested, none is left open for want
of a name. -/
theorem chain_never_out_of_names (c : Codebase) {call : Call} (ofChain : call.OfChain) (v : Visit) :
    (∀ made, call.Makes c v made → ∃ name rest, made.path = name :: rest ∧
      made.goal.inquiry c = made.rule c name rest) ∧
    (∀ s n path, call.Makes c v (.expression s n path) → (s.unwrap n).kind = .memberExpression →
      let text := Chain.extend (Values.chainText s (s.unwrap n)) path
      (Goal.expressionMember s n path).inquiry c = Values.dotted c .one s text ∧
        Chain.segments text =
          Chain.segments (Values.chainText s (s.unwrap n)) ++ path.flatMap Chain.segments ∧
        2 ≤ (Chain.segments text).length) ∧
    (∀ s text goal, (Values.dotted c Inquiry.one s text).MayAsk goal → ∃ t d root member rest,
      Chain.segments text = root :: member :: rest ∧
        (goal = .chain t d (member :: rest) ∨ goal = .chain t d rest)) ∧
    ∀ depth, call.answer c depth v ≠ .error .noMember := by
  refine ⟨?_, ?_, ?_, ?_⟩
  · intro made makes
    obtain ⟨name, rest, path⟩ := List.exists_cons_of_ne_nil (makes.path_ne_nil ofChain)
    exact ⟨name, rest, path, PathCall.inquiry_goal path⟩
  · intro s n path makes kind text
    have names : path ≠ [] := makes.path_ne_nil ofChain
    exact ⟨inquiry_expressionMember_of_memberExpression names kind, Chain.segments_extend _ names,
      Chain.two_le_length_segments_extend _ _⟩
  · exact fun s text goal may => (Inquiry.only_dotted_path text).mayAsk may
  · intro depth
    rw [Call.answer_eq_run]
    exact Inquiry.run_ne_noMember (fun _ names v => answer_ne_noMember names depth v) ofChain.inquiry v

namespace Sample

def memberTree : Tree :=
  .node .memberExpression (some .value) 22 25
    [.node .identifier (some .object) 22 23 [], .node (.token ".") none 23 24 [],
      .node .propertyIdentifier (some .property) 24 25 []]

def innerObject : Tree :=
  .node .object (some .value) 11 18
    [.node (.token "\x7b") none 11 12 [],
      .node .pair none 12 17
        [.node .propertyIdentifier (some .key) 12 13 [], .node (.token ":") none 13 14 [], givenString 14],
      .node (.token "\x7d") none 17 18 []]

def outerObject : Tree :=
  .node .object (some .value) 8 19
    [.node (.token "\x7b") none 8 9 [],
      .node .pair none 9 18
        [.node .propertyIdentifier (some .key) 9 10 [], .node (.token ":") none 10 11 [], innerObject],
      .node (.token "\x7d") none 18 19 []]

def memberFile : Source where
  path := ⟨["", "a.ts"]⟩
  language := .typescript
  text := "const b=\x7bc:\x7bd:'x'\x7d\x7d,a=b.c;"
  tree := .node .program none 0 26
    [.node .lexicalDeclaration none 0 26
      [.node (.token "const") (some .kind) 0 5 [], declarator 6 19 outerObject,
        .node (.token ",") none 19 20 [], declarator 20 25 memberTree, .node (.token ";") none 25 26 []]]

def memberCodebase : Codebase := ⟨⟨[], []⟩, [], .relativeOnly, 8⟩

def memberVisit : Visit := (Visit.start 48).hold ((variableAt memberFile 3).key memberFile)

def objectVisit : Visit := memberVisit.hold ((variableAt memberFile 1).key memberFile)

/-- One question after the other, from `a.d` on: the path gets shorter, then longer, then shorter again. -/
theorem memberFile_asks :
    (Call.access memberFile "a.d").Makes memberCodebase (.start 48)
      (.expression memberFile (valueAt memberFile 3) ["d"]) ∧
    (Call.access memberFile "a.d").Makes memberCodebase (.start 48)
      (.expression memberFile (valueAt memberFile 1) ["c", "d"]) := by
  have step : ∀ {goal next : Goal} {v u : Visit}, goal.inquiry memberCodebase = .one next →
      Guard.visit.Opens goal.gate v u → Asks Guard.visit memberCodebase (goal, v) (next, u) :=
    fun passes opened => ⟨_, opened, passes ▸ .now⟩
  have text : (Call.access memberFile "a.d").inquiry memberCodebase =
      .one (.chain memberFile (variableAt memberFile 3) ["d"]) := rfl
  have first : Asks Guard.visit memberCodebase
      (.chain memberFile (variableAt memberFile 3) ["d"], .start 48)
      (.expressionMember memberFile (valueAt memberFile 3) ["d"], memberVisit) := step rfl (.held rfl)
  have second : Asks Guard.visit memberCodebase
      (.expressionMember memberFile (valueAt memberFile 3) ["d"], memberVisit)
      (.chain memberFile (variableAt memberFile 1) ["c", "d"], memberVisit) := step rfl .free
  have third : Asks Guard.visit memberCodebase
      (.chain memberFile (variableAt memberFile 1) ["c", "d"], memberVisit)
      (.expressionMember memberFile (valueAt memberFile 1) ["c", "d"], objectVisit) := step rfl (.held rfl)
  have begun : ((Call.access memberFile "a.d").inquiry memberCodebase).AsksAt
      (TemplateValues.Returns Guard.visit memberCodebase) (.start 48)
      (.chain memberFile (variableAt memberFile 3) ["d"]) (.start 48) := text ▸ .now
  exact ⟨⟨(_, _), _, begun, .single first, .expression⟩,
    ⟨(_, _), _, begun, .tail (.tail (.single first) second) third, .expression⟩⟩

end Sample

/-- In `const b={c:{d:'x'}},a=b.c;`, the chain `a.d` goes on as `b.c.d`, and finds `x`. -/
theorem sample_never_out_of_names :
    (Call.access Sample.memberFile "a.d").OfChain ∧
    (Call.access Sample.memberFile "a.d").Makes Sample.memberCodebase (.start 48)
      (.expression Sample.memberFile (Sample.valueAt Sample.memberFile 3) ["d"]) ∧
    2 ≤ (Chain.segments (Chain.extend
      (Values.chainText Sample.memberFile (Sample.memberFile.unwrap (Sample.valueAt Sample.memberFile 3)))
      ["d"])).length ∧
    (Call.access Sample.memberFile "a.d").Makes Sample.memberCodebase (.start 48)
      (.expression Sample.memberFile (Sample.valueAt Sample.memberFile 1) ["c", "d"]) ∧
    (∃ name rest, ["c", "d"] = name :: rest ∧
      (Goal.expressionMember Sample.memberFile (Sample.valueAt Sample.memberFile 1) ["c", "d"]).inquiry
          Sample.memberCodebase =
        Values.expressionMember Sample.memberCodebase .one Sample.memberFile
          (Sample.valueAt Sample.memberFile 1) name rest) ∧
    (∀ depth, (Call.access Sample.memberFile "a.d").answer Sample.memberCodebase depth (.start 48) ≠
      .error .noMember) ∧
    ∃ w, (Call.access Sample.memberFile "a.d").answer Sample.memberCodebase 10 (.start 48) =
      .ok (.singleton "x", w) := by
  have ofChain : (Call.access Sample.memberFile "a.d").OfChain := .text _ _
  obtain ⟨short, long⟩ := Sample.memberFile_asks
  obtain ⟨named, rebuilt, -, answered⟩ := chain_never_out_of_names Sample.memberCodebase ofChain (.start 48)
  exact ⟨ofChain, short, (rebuilt _ _ _ short rfl).2.2, long, named _ long, answered, _, rfl⟩

end TemplateValues
