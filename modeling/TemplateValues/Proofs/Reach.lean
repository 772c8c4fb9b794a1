import TemplateValues.Proofs.Fallback
import TemplateValues.Proofs.Termination

/-!
# What can be reached from a source

Two codebases may differ in sources that a given source never leads to.  If they find the same modules in
all sources that can be reached by imports and re-exports (`Codebase.AgreeOn`), then they give the same
answers there, at every depth (`answer_eq`), and find the same values (`found_eq`).
-/

namespace TemplateValues

open Syntax Template

/-! ## Modules by name -/

namespace Source

variable {s : Source} {name : String}

def specifiers (s : Source) : List String :=
  (s.root.childrenOfKind .importStatement ++ s.exports).filterMap s.specifier?

theorem specifier_mem_of_import? {i : Import} (bound : s.import? name = some i) :
    i.specifier ∈ s.specifiers := by
  obtain ⟨statement, member, bound⟩ := List.exists_of_findSome?_eq_some bound
  unfold importIn? at bound
  split at bound
  · rename_i specifier clause named _
    obtain ⟨_, -, rfl⟩ := Option.map_eq_some_iff.mp bound
    exact List.mem_filterMap.mpr ⟨statement, List.mem_append_left _ member, named⟩
  · cases bound

theorem specifier_mem_of_reexport {r : Reexport} (member : r ∈ s.reexports name) :
    r.specifier ∈ s.specifiers := by
  -- both kinds of re-exports have the module of their statement
  obtain ⟨statement, exports, named⟩ : ∃ n ∈ s.exports, s.specifier? n = some r.specifier := by
    rcases List.mem_append.mp member with member | member
    · obtain ⟨n, exports, member⟩ := List.mem_flatMap.mp member
      unfold namedReexports at member
      split at member
      · obtain ⟨_, -, rfl⟩ := List.mem_map.mp member
        exact ⟨n, exports, ‹_›⟩
      · cases member
    · obtain ⟨n, exports, found⟩ := List.mem_filterMap.mp member
      unfold starReexport? at found
      split at found
      · split at found
        · cases found
          exact ⟨n, exports, ‹_›⟩
        · cases found
      · cases found
  exact List.mem_filterMap.mpr ⟨statement, List.mem_append_right _ exports, named⟩

end Source

namespace Codebase

/-- In all sources in `R` the codebases find the same modules, and these are in `R` again. -/
structure AgreeOn (R : Source → Prop) (c c' : Codebase) : Prop where
  hops : c.hops = c'.hops
  module? : ∀ s, R s → ∀ specifier ∈ s.specifiers, c.module? s specifier = c'.module? s specifier
  closed : ∀ s, R s → ∀ specifier ∈ s.specifiers, ∀ t, c.module? s specifier = some t → R t

namespace AgreeOn

variable {R : Source → Prop} {c c' c'' : Codebase}

theorem trans (agree : AgreeOn R c c') (agree' : AgreeOn R c' c'') : AgreeOn R c c'' := by
  refine ⟨agree.hops.trans agree'.hops, fun s reached specifier named => ?_, agree.closed⟩
  rw [agree.module? s reached specifier named, agree'.module? s reached specifier named]

/-! ## What names mean -/

theorem findSome?_congr {α β : Type} {f g : α → Option β} {xs : List α} (same : ∀ x ∈ xs, f x = g x) :
    xs.findSome? f = xs.findSome? g := by
  induction xs with
  | nil => rfl
  | cons x xs ih =>
    rw [List.findSome?_cons, List.findSome?_cons, same x List.mem_cons_self,
      ih fun y member => same y (List.mem_cons_of_mem x member)]

theorem eq_or_further_of_nearest {space : Space} {s t : Source} {name : String} {d : Declaration}
    {further : Option (Source × Declaration)} (found : nearest space s name further = some (t, d)) :
    t = s ∨ further = some (t, d) := by
  unfold nearest at found
  split at found
  · cases found
    exact .inl rfl
  · rcases Option.or_eq_some_iff.mp found with further | ⟨-, own⟩
    · exact .inr further
    · obtain ⟨_, -, equal⟩ := Option.map_eq_some_iff.mp own
      cases equal
      exact .inl rfl

section Names

variable (agree : AgreeOn R c c') {s : Source} (reached : R s)

include agree reached

theorem importStep?_eq (name : String) : c.importStep? s name = c'.importStep? s name := by
  unfold importStep?
  cases bound : s.import? name with
  | none => rfl
  | some i => simp only [agree.module? s reached _ (Source.specifier_mem_of_import? bound)]

theorem reached_of_importStep? {name imported : String} {t : Source}
    (step : c.importStep? s name = some (t, imported)) : R t := by
  unfold importStep? at step
  split at step
  · rename_i i bound
    split at step
    · cases step
    · obtain ⟨u, found, equal⟩ := Option.map_eq_some_iff.mp step
      cases equal
      exact agree.closed s reached _ (Source.specifier_mem_of_import? bound) t found
  · cases step

theorem namespaceModule?_eq (root : String) : c.namespaceModule? s root = c'.namespaceModule? s root := by
  unfold namespaceModule?
  cases bound : s.import? root with
  | none => rfl
  | some i =>
    have named := Source.specifier_mem_of_import? bound
    cases kept : (some i).filter fun i => i.form = .asNamespace with
    | none => rfl
    | some j =>
      cases (Option.filter_eq_some_iff.mp kept).1
      exact agree.module? s reached _ named

theorem reached_of_namespaceModule? {root : String} {t : Source}
    (found : c.namespaceModule? s root = some t) : R t := by
  obtain ⟨i, kept, found⟩ := Option.bind_eq_some_iff.mp found
  have bound := (Option.filter_eq_some_iff.mp kept).1
  exact agree.closed s reached _ (Source.specifier_mem_of_import? bound) t found

theorem steps_eq (name : String) : c.steps s name = c'.steps s name := by
  have imports : c.importStep? s = c'.importStep? s := funext (agree.importStep?_eq reached)
  unfold steps
  rw [imports]
  congr 1
  refine List.filterMap_congr fun r member => ?_
  rw [agree.module? s reached _ (Source.specifier_mem_of_reexport member)]

theorem reached_of_mem_steps {name : String} {step : Source × String} (member : step ∈ c.steps s name) :
    R step.1 := by
  rcases List.mem_append.mp member with imports | reexports
  · obtain ⟨inside, -, found⟩ := Option.bind_eq_some_iff.mp (Option.mem_toList.mp imports)
    exact agree.reached_of_importStep? reached found
  · obtain ⟨r, listed, stepped⟩ := List.mem_filterMap.mp reexports
    obtain ⟨t, found, rfl⟩ := Option.map_eq_some_iff.mp stepped
    exact agree.closed s reached _ (Source.specifier_mem_of_reexport listed) t found

theorem follow_eq (space : Space) (hops : Nat) (name : String) :
    c.follow space hops s name = c'.follow space hops s name := by
  induction hops generalizing s name with
  | zero => rw [follow_zero, follow_zero]
  | succ hops ih =>
    have further : ∀ step ∈ c.steps s name,
        c.follow space hops step.1 step.2 = c'.follow space hops step.1 step.2 :=
      fun step member => ih (agree.reached_of_mem_steps reached member) step.2
    rw [follow_succ, follow_succ, ← agree.steps_eq reached]
    -- what is declared in the source itself does not depend on the codebase
    exact congrArg (nearest space s name) (findSome?_congr further)

theorem reached_of_follow {space : Space} {hops : Nat} {name : String} {t : Source} {d : Declaration}
    (found : c.follow space hops s name = some (t, d)) : R t := by
  induction hops generalizing s name with
  | zero =>
    rw [follow_zero] at found
    rcases eq_or_further_of_nearest found with rfl | further
    · exact reached
    · cases further
  | succ hops ih =>
    rw [follow_succ] at found
    rcases eq_or_further_of_nearest found with rfl | further
    · exact reached
    · obtain ⟨step, member, further⟩ := List.exists_of_findSome?_eq_some further
      exact ih (agree.reached_of_mem_steps reached member) further

theorem imported?_eq (name : String) (space : Space) :
    c.imported? s name space = c'.imported? s name space := by
  rw [Codebase.imported?_eq, Codebase.imported?_eq, ← agree.importStep?_eq reached, agree.hops]
  cases step : c.importStep? s name with
  | none => rfl
  | some found => exact agree.follow_eq (agree.reached_of_importStep? reached step) space _ _

theorem reached_of_imported? {name : String} {space : Space} {t : Source} {d : Declaration}
    (found : c.imported? s name space = some (t, d)) : R t := by
  rw [Codebase.imported?_eq] at found
  obtain ⟨step, stepped, followed⟩ := Option.bind_eq_some_iff.mp found
  exact agree.reached_of_follow (agree.reached_of_importStep? reached stepped) followed

theorem declared?_eq (name : String) (space : Space) :
    c.declared? s name space = c'.declared? s name space := by
  rw [Codebase.declared?_eq, Codebase.declared?_eq, agree.imported?_eq reached]

theorem reached_of_declared? {name : String} {space : Space} {t : Source} {d : Declaration}
    (found : c.declared? s name space = some (t, d)) : R t := by
  rw [Codebase.declared?_eq] at found
  split at found
  · cases found
    exact reached
  · exact agree.reached_of_imported? reached found

theorem namespaceMember?_eq (root member : String) (space : Space) :
    c.namespaceMember? s root member space = c'.namespaceMember? s root member space := by
  rw [Codebase.namespaceMember?_eq, Codebase.namespaceMember?_eq, ← agree.namespaceModule?_eq reached,
    agree.hops]
  cases opened : c.namespaceModule? s root with
  | none => rfl
  | some t => exact agree.follow_eq (agree.reached_of_namespaceModule? reached opened) space _ _

theorem reached_of_namespaceMember? {root member : String} {space : Space} {t : Source} {d : Declaration}
    (found : c.namespaceMember? s root member space = some (t, d)) : R t := by
  rw [Codebase.namespaceMember?_eq] at found
  obtain ⟨u, opened, followed⟩ := Option.bind_eq_some_iff.mp found
  exact agree.reached_of_follow (agree.reached_of_namespaceModule? reached opened) followed

end Names

/-! ## What rules ask -/

section Rules

open Values

variable {M : Type → Type} [Monad M] [LawfulMonad M] {ask : Goal → M LiteralSet}
  (agree : AgreeOn R c c') {s : Source} (reached : R s)

include agree reached

theorem meant_eq {name : String} {space : Space} {onward onward' : Source → Declaration → M LiteralSet}
    (same : ∀ t d, R t → onward t d = onward' t d) :
    meant c s name space onward = meant c' s name space onward' := by
  rw [Values.meant_eq, Values.meant_eq, ← agree.declared?_eq reached]
  cases found : c.declared? s name space with
  | none => rfl
  | some place => exact same _ _ (agree.reached_of_declared? reached found)

theorem named_eq (name : String) (space : Space) (goal : Source → Declaration → Goal) :
    named c ask s name space goal = named c' ask s name space goal :=
  agree.meant_eq reached fun _ _ _ => rfl

theorem dotted_eq (expression : String) : dotted c ask s expression = dotted c' ask s expression := by
  unfold dotted
  split
  · rw [chained_eq, chained_eq, agree.declared?_eq reached, agree.namespaceMember?_eq reached]
  · rfl

theorem objectValues_eq (object : Node) : objectValues c ask s object = objectValues c' ask s object := by
  have each : propertyValues c ask s = propertyValues c' ask s := by
    funext n
    unfold propertyValues
    simp only [agree.named_eq reached]
  rw [objectValues, each, objectValues]

theorem expression_eq (n : Node) : expression c ask s n = expression c' ask s n := by
  unfold expression
  simp only [agree.named_eq reached, agree.dotted_eq reached]

theorem expressionMember_eq (n : Node) (name : String) (rest : List String) :
    expressionMember c ask s n name rest = expressionMember c' ask s n name rest := by
  unfold expressionMember
  simp only [agree.named_eq reached, agree.dotted_eq reached]

theorem idiom_eq (i : Idiom) : idiom c ask s i = idiom c' ask s i := by
  cases i with
  | values x y => simp only [idiom, agree.meant_eq reached fun _ _ _ => rfl]
  | keys x => exact agree.named_eq reached _ _ _
  | elements x => exact agree.meant_eq reached fun _ _ _ => rfl

theorem type_eq (n : Node) : Values.type c ask s n = Values.type c' ask s n := by
  have idioms : idiom c ask s = idiom c' ask s := funext (agree.idiom_eq reached)
  unfold Values.type
  simp only [agree.named_eq reached, idioms]

theorem typeMember_eq (n : Node) (name : String) (rest : List String) :
    typeMember c ask s n name rest = typeMember c' ask s n name rest := by
  unfold typeMember
  simp only [agree.named_eq reached]

theorem valuesOf_eq (n : Node) : valuesOf c ask s n = valuesOf c' ask s n := by
  unfold valuesOf
  dsimp only
  split
  · exact agree.objectValues_eq reached _
  · refine agree.meant_eq reached fun t d reached' => ?_
    split
    · rfl
    · split
      · exact agree.objectValues_eq reached' _
      · rfl
    · rfl
  · rfl

theorem keysOf_eq (n : Node) : keysOf c ask s n = keysOf c' ask s n := by
  unfold keysOf
  simp only [agree.named_eq reached]

theorem elementsOf_eq (n : Node) : elementsOf c ask s n = elementsOf c' ask s n := by
  unfold elementsOf
  simp only [agree.valuesOf_eq reached, agree.keysOf_eq reached, agree.named_eq reached,
    agree.dotted_eq reached]

theorem iteration_eq (d : Declaration) : iteration c ask s d = iteration c' ask s d := by
  have elements : elementsOf c ask s = elementsOf c' ask s := funext (agree.elementsOf_eq reached)
  unfold iteration loop
  simp only [elements, agree.keysOf_eq reached]

theorem declaration_eq (d : Declaration) : declaration c ask s d = declaration c' ask s d := by
  unfold declaration
  simp only [agree.iteration_eq reached]

theorem initializerKeys_eq (d : Declaration) :
    initializerKeys c ask s d = initializerKeys c' ask s d := by
  unfold initializerKeys
  simp only [agree.named_eq reached]

end Rules

end AgreeOn

end Codebase

/-! ## Answers -/

def Goal.source : Goal → Source
  | .declaration s _ | .keys s _ | .chain s _ _ | .expression s _ | .type s _ | .expressionMember s _ _
  | .typeMember s _ _ => s

theorem Goal.Within.source {sources : List Source} {goal : Goal} (within : goal.Within sources) :
    goal.source ∈ sources := by
  cases goal <;> exact within.1

/-- Only the answers to goals that are asked matter. -/
theorem Inquiry.Only.run_congr {σ α : Type} {P : Goal → Prop} {ask ask' : Ask σ} {q : Inquiry α}
    (only : q.Only P) (same : ∀ goal, P goal → ask goal = ask' goal) : q.run ask = q.run ask' := by
  induction q with
  | done a => rfl
  | ask goal next ih =>
    have rest : ∀ values, (next values).run ask = (next values).run ask' :=
      fun values => ih values (only.2 values)
    simp only [Inquiry.run, same goal only.1, rest]
  | halt h => rfl

section Answers

variable {σ : Type} (g : Guard σ) {R : Source → Prop} {c c' : Codebase}

theorem rule_eq (agree : c.AgreeOn R c') (ask : Ask σ) {goal : Goal} (reached : R goal.source) :
    Values.rule g c ask goal = Values.rule g c' ask goal := by
  match goal with
  | .declaration s d => exact congrArg (g.remembering (d.key s)) (agree.declaration_eq reached d)
  | .keys s d =>
    have reached : R s := reached
    simp only [Values.rule, agree.initializerKeys_eq reached]
  | .chain s d [] | .chain s d (_ :: _) => rfl
  | .expression s n => exact agree.expression_eq reached n
  | .type s n => exact agree.type_eq reached n
  | .expressionMember s n [] | .typeMember s n [] => rfl
  | .expressionMember s n (name :: rest) => exact agree.expressionMember_eq reached n name rest
  | .typeMember s n (name :: rest) => exact agree.typeMember_eq reached n name rest

/-- A codebase all of whose sources are reached answers as one that agrees with it there. -/
theorem answer_eq_of_subset (agree : c.AgreeOn R c') {sources : List Source} (all : c.sources ⊆ sources)
    (inside : ∀ t ∈ sources, R t) (depth : Nat) {goal : Goal} (within : goal.Within sources) :
    Values.answer g c depth goal = Values.answer g c' depth goal := by
  induction depth generalizing goal with
  | zero => rfl
  | succ depth ih =>
    calc Values.rule g c (Values.answer g c depth) goal
      _ = Values.rule g c (Values.answer g c' depth) goal := by
        -- a rule asks only about sources of its codebase, and all of these are reached
        rw [rule_eq_through, rule_eq_through,
          (within.inquiry all).run_congr fun goal within => ih within]
      _ = Values.rule g c' (Values.answer g c' depth) goal :=
        rule_eq g agree _ (inside _ within.source)

end Answers

namespace Codebase

open Classical in
noncomputable def restrict (R : Source → Prop) (c : Codebase) : Codebase :=
  { c with sources := c.sources.filter fun t => R t }

theorem mem_sources_restrict {R : Source → Prop} {c : Codebase} {t : Source} :
    t ∈ (c.restrict R).sources ↔ t ∈ c.sources ∧ R t := by
  simp [restrict]

theorem find?_filter_of_kept {α : Type} {p q : α → Bool} {xs : List α}
    (kept : ∀ x, xs.find? q = some x → p x) : (xs.filter p).find? q = xs.find? q := by
  induction xs with
  | nil => rfl
  | cons x xs ih =>
    by_cases here : q x
    · have found : (x :: xs).find? q = some x := List.find?_cons_of_pos here
      rw [found, List.filter_cons_of_pos (kept x found), List.find?_cons_of_pos here]
    · rw [List.find?_cons_of_neg here] at kept ⊢
      rw [List.filter_cons]
      split
      · rw [List.find?_cons_of_neg here, ih kept]
      · exact ih kept

/-- What is found among all sources is found among those that are reached if it is one of them. -/
theorem source?_restrict {R : Source → Prop} {c : Codebase} {p : Path}
    (reached : ∀ t, c.source? p = some t → R t) : (c.restrict R).source? p = c.source? p := by
  unfold source? at reached ⊢
  simp only [restrict]
  cases located : c.workspace.locate p with
  | error f => rfl
  | ok names =>
    rw [located] at reached
    exact find?_filter_of_kept fun t found => by simpa using reached t found

theorem agreeOn_restrict {R : Source → Prop} {c : Codebase}
    (closed : ∀ s, R s → ∀ specifier ∈ s.specifiers, ∀ t, c.module? s specifier = some t → R t) :
    AgreeOn R (c.restrict R) c := by
  have modules : ∀ s, R s → ∀ specifier ∈ s.specifiers,
      (c.restrict R).module? s specifier = c.module? s specifier := by
    intro s reached specifier named
    have reaches := closed s reached specifier named
    unfold module? at reaches ⊢
    rw [show (c.restrict R).workspace = c.workspace from rfl, show (c.restrict R).lookup = c.lookup from rfl]
    cases located : c.lookup.locate? c.workspace s.path specifier with
    | none => rfl
    | some p => exact source?_restrict fun t found => reaches t (by rw [located]; exact found)
  refine ⟨rfl, modules, fun s reached specifier named t found => ?_⟩
  rw [modules s reached specifier named] at found
  exact closed s reached specifier named t found

end Codebase

/-! ## What is found -/

/-- If there is an answer at all, the bound is deep enough for it. -/
theorem answer_depthBound {c : Codebase} {s : Source} {goal : Goal} (within : goal.Within (s :: c.sources))
    {v w : Visit} {values : LiteralSet} (returned : Returns Guard.visit c goal v values w) :
    Values.answer Guard.visit c (Values.depthBound c s v.limit) goal v = .ok (values, w) := by
  have round : ¬ ComesRound c goal v := fun round => round.not_returns values w returned
  obtain ⟨values', w', answered⟩ := answer_ok_of_rank_lt (List.subset_cons_self s c.sources) _ within round
    (rank_lt_depthBound within v)
  obtain ⟨rfl, rfl⟩ := returned.unique ⟨_, answered⟩
  exact answered

theorem found_of_returns {c : Codebase} {s : Source} {goal : Goal} (within : goal.Within (s :: c.sources))
    {limit : Nat} {w : Visit} {values : LiteralSet}
    (returned : Returns Guard.visit c goal (.start limit) values w) :
    (Call.ask goal).found c s limit = some values := by
  have answered := answer_depthBound within returned
  rw [show (Visit.start limit).limit = limit from rfl] at answered
  simp only [Call.found, Call.answer, Values.attempt, answered, Outcome.answer]

theorem found_of_not_returns {c : Codebase} {s : Source} {goal : Goal}
    (within : goal.Within (s :: c.sources)) {limit : Nat}
    (unanswered : ¬ ∃ values w, Returns Guard.visit c goal (.start limit) values w) :
    (Call.ask goal).found c s limit = none := by
  simp only [Call.found, Call.answer, Values.attempt]
  cases answered : Values.answer Guard.visit c (Values.depthBound c s limit) goal (.start limit) with
  | ok result => exact absurd ⟨_, _, _, answered⟩ unanswered
  | error halt =>
    rw [halt_eq_depth (List.subset_cons_self s c.sources) _ within answered]
    rfl

/-- Both codebases provide the declaration, and its source is reached. -/
structure Codebase.Shares (R : Source → Prop) (c c' : Codebase) (s t : Source) (d : Declaration) :
    Prop where
  reached : R t
  provided : c.Provides s t d
  provided' : c'.Provides s t d

section Found

variable {R : Source → Prop} {c c' : Codebase} (agree : c.AgreeOn R c') {s : Source} (reached : R s)

include agree reached

theorem shares_of_declared? {name : String} {space : Space} {t : Source} {d : Declaration}
    (found : c.declared? s name space = some (t, d)) : c.Shares R c' s t d := by
  refine ⟨agree.reached_of_declared? reached found, Codebase.provides_of_declared? found, ?_⟩
  rw [agree.declared?_eq reached] at found
  exact Codebase.provides_of_declared? found

theorem shares_of_imported? {name : String} {space : Space} {t : Source} {d : Declaration}
    (found : c.imported? s name space = some (t, d)) : c.Shares R c' s t d := by
  refine ⟨agree.reached_of_imported? reached found, Codebase.provides_of_imported? found, ?_⟩
  rw [agree.imported?_eq reached] at found
  exact Codebase.provides_of_imported? found

theorem shares_of_namespaceMember? {root member : String} {space : Space} {t : Source}
    {d : Declaration} (found : c.namespaceMember? s root member space = some (t, d)) :
    c.Shares R c' s t d := by
  refine ⟨agree.reached_of_namespaceMember? reached found, Codebase.provides_of_namespaceMember? found, ?_⟩
  rw [agree.namespaceMember?_eq reached] at found
  exact Codebase.provides_of_namespaceMember? found

theorem answer_eq {σ : Type} (g : Guard σ) (depth : Nat) {goal : Goal}
    (within : goal.Within (s :: (c.restrict R).sources)) :
    Values.answer g c depth goal = Values.answer g c' depth goal := by
  have inside : ∀ t ∈ s :: (c.restrict R).sources, R t := by
    intro t member
    rcases List.mem_cons.mp member with rfl | member
    · exact reached
    · exact (Codebase.mem_sources_restrict.mp member).2
  have all : (c.restrict R).sources ⊆ s :: (c.restrict R).sources := List.subset_cons_self _ _
  -- both are compared with the codebase that has nothing but what is reached
  have own := Codebase.agreeOn_restrict agree.closed
  rw [← answer_eq_of_subset g own all inside depth within,
    answer_eq_of_subset g (own.trans agree) all inside depth within]

/-- The sources of the two codebases that are not reached only make the bounds on the depth differ. -/
theorem found_eq {t : Source} {d : Declaration} (shares : c.Shares R c' s t d) {goal : Goal}
    (about : ∀ sources, t ∈ sources → d ∈ t.declarations → goal.Within sources) (limit : Nat) :
    (Call.ask goal).found c s limit = (Call.ask goal).found c' s limit := by
  have same : ∀ depth, Values.answer Guard.visit c depth goal = Values.answer Guard.visit c' depth goal := by
    intro depth
    refine answer_eq agree reached Guard.visit depth (about _ ?_ shares.provided.declared)
    rcases shares.provided.source with rfl | member
    · exact List.mem_cons_self
    · exact List.mem_cons_of_mem _ (Codebase.mem_sources_restrict.mpr ⟨member, shares.reached⟩)
  have within : goal.Within (s :: c.sources) :=
    about _ (List.mem_cons.mpr shares.provided.source) shares.provided.declared
  have within' : goal.Within (s :: c'.sources) :=
    about _ (List.mem_cons.mpr shares.provided'.source) shares.provided'.declared
  -- an answer is one at some depth, whatever the bound
  have returns : ∀ values w, Returns Guard.visit c goal (.start limit) values w ↔
      Returns Guard.visit c' goal (.start limit) values w := by
    intro values w
    simp only [Returns, same]
  by_cases answered : ∃ values w, Returns Guard.visit c goal (.start limit) values w
  · obtain ⟨values, w, returned⟩ := answered
    rw [found_of_returns within returned, found_of_returns within' ((returns values w).mp returned)]
  · rw [found_of_not_returns within answered, found_of_not_returns within']
    simpa only [returns] using answered

/-- A dotted expression stands for a chain from some declaration, or for nothing. -/
theorem dotted_cases (expression : String) :
    (∃ t d path, c.Shares R c' s t d ∧
      ∀ ask : Ask Visit, Values.dotted c ask s expression = ask (.chain t d path)) ∨
    ∀ ask : Ask Visit, Values.dotted c ask s expression = Eval.unknown := by
  unfold Values.dotted
  split
  · rename_i root member rest _
    split
    · -- a declaration of the first name comes before a namespace of this name
      simp only [Values.chained_eq]
      cases declared : c.declared? s root .value with
      | some place =>
        exact .inl ⟨_, _, _, shares_of_declared? agree reached declared, fun ask => rfl⟩
      | none =>
        cases provided : c.namespaceMember? s root member .value with
        | some place =>
          exact .inl ⟨_, _, _, shares_of_namespaceMember? agree reached provided, fun ask => rfl⟩
        | none => exact .inr fun ask => rfl
    · exact .inr fun ask => rfl
  · exact .inr fun ask => rfl

theorem found_access_eq (expression : String) (limit : Nat) :
    (Call.access s expression).found c s limit = (Call.access s expression).found c' s limit := by
  rcases dotted_cases agree reached expression with ⟨t, d, path, shares, chain⟩ | unknown
  · have about : ∀ sources, t ∈ sources → d ∈ t.declarations → (Goal.chain t d path).Within sources :=
      fun _ source declared => ⟨source, declared⟩
    have asked := found_eq agree reached shares about limit
    simp only [Call.found, Call.answer, ← agree.dotted_eq reached, chain] at asked ⊢
    exact asked
  · simp only [Call.found, Call.answer, ← agree.dotted_eq reached, unknown]

theorem found_declaration_eq {t : Source} {d : Declaration} (shares : c.Shares R c' s t d) (limit : Nat) :
    (Call.ask (.declaration t d)).found c s limit = (Call.ask (.declaration t d)).found c' s limit := by
  have about : ∀ sources, t ∈ sources → d ∈ t.declarations → (Goal.declaration t d).Within sources :=
    fun _ source declared => ⟨source, declared⟩
  exact found_eq agree reached shares about limit

end Found

/-! ## Sites -/

section Sites

variable {σ : Type} {r r' : Resolver σ} {s : Source}
  (same : ∀ expression p, r.resolveVariable s expression p = r'.resolveVariable s expression p)
  (limits : r.limits = r'.limits)

include same

theorem resolveVariables_congr (asked : List (String × Position)) :
    r.resolveVariables s asked = r'.resolveVariables s asked := by
  induction asked with
  | nil => rfl
  | cons x asked ih => simp only [Resolver.resolveVariables, same, ih]

include limits

theorem resolveSite_congr (site : Site) : r.resolveSite s site = r'.resolveSite s site := by
  simp only [Resolver.resolveSite, resolveVariables_congr same, limits]

theorem resolveSites_congr (cancels : r.isCancelled = r'.isCancelled) (sites : List Site) :
    r.resolveSites s sites = r'.resolveSites s sites := by
  induction sites with
  | nil => rfl
  | cons site sites ih => simp only [Resolver.resolveSites, cancels, resolveSite_congr same limits, ih]

end Sites

section Alone

variable {σ : Type} {r : Resolver σ} (silent : r.oracle = none) {R : Source → Prop} {c' : Codebase}
  (agree : r.codebase.AgreeOn R c') {s : Source} (reached : R s)

include silent agree reached

theorem resolveVariable_agree (expression : String) (p : Position) :
    r.resolveVariable s expression p =
      Resolver.resolveVariable { r with codebase := c' } s expression p := by
  funext o
  have chain : r.byChain s expression = Resolver.byChain { r with codebase := c' } s expression := by
    simp only [Resolver.byChain, Resolver.found, found_access_eq agree reached]
  have declaration : r.byDeclaration s expression =
      Resolver.byDeclaration { r with codebase := c' } s expression := by
    unfold Resolver.byDeclaration
    cases own : s.find? expression .value with
    | none => rfl
    | some d =>
      have declared := Source.mem_declarations_of_find? own
      have shares : r.codebase.Shares R c' s s d := ⟨reached, ⟨.inl rfl, declared⟩, ⟨.inl rfl, declared⟩⟩
      simp only [Resolver.found, found_declaration_eq agree reached shares]
  have imported : r.byImport s expression =
      Resolver.byImport { r with codebase := c' } s expression := by
    unfold Resolver.byImport
    simp only [← agree.imported?_eq reached]
    cases behind : r.codebase.imported? s expression .value with
    | none => rfl
    | some place =>
      have shares := shares_of_imported? agree reached behind
      simp only [Resolver.found, found_declaration_eq agree reached shares]
  simp only [resolveVariable_eq, chain, declaration, imported, Resolver.byOracle, silent]

/-- Without an oracle, a source is resolved alike in codebases that agree on what it leads to. -/
theorem resolveSource_agree :
    r.resolveSource s = Resolver.resolveSource { r with codebase := c' } s :=
  resolveSites_congr (resolveVariable_agree silent agree reached) rfl rfl s.sites

end Alone

end TemplateValues
