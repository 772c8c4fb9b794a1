import TemplateValues.Proofs.Fallback

/-!
# How an oracle is consulted

An oracle is consulted in three stages: for hover text, for where the type is defined, and for where the
symbol is defined.  What happens in a stage is told here without the code that does it.  `Oracle.Asked`
says how often a question is put and which reply counts, `Oracle.Located` which of several locations
decides, and `Oracle.Course` which stages take place.  From the outcomes of these stages alone follows
what the oracle is found to say (`Oracle.verdict`), although the code goes by two notes that it takes on
the way.

The main statement is `consult_takes_course`: a consultation takes the one course that there is, with its
questions in the log and its verdict as the result.
-/

namespace TemplateValues

open Template

variable {σ α : Type}

/-- The outcome ends a consultation: there are values, or the oracle has broken down, or there is no end. -/
def Outcome.settles {ε : Type} : Outcome ε → Bool
  | .known values => !values.isEmpty
  | .failed _ => false
  | .crashed => true
  | .endless => true

def Outcome.fault? {ε : Type} : Outcome ε → Option ε
  | .failed fault => some fault
  | _ => none

def Outcome.isFailed {ε : Type} (outcome : Outcome ε) : Bool := outcome.fault?.isSome

namespace Oracle

/-! ## One stage -/

/-- The question is put once; and once more just if the first reply is that the oracle is not ready.  The
last reply counts. -/
inductive Asked (question : σ → Reply α × σ) (o : σ) : (times : Nat) → Reply α → σ → Prop where
  | once {reply o'} : question o = (reply, o') → reply ≠ .notReady → Asked question o 1 reply o'
  | twice {reply o' o''} : question o = (.notReady, o') → question o' = (reply, o'') →
      Asked question o 2 reply o''

/-- What is extracted at a location: the values of the declaration around its position in the source that
it leads to, if there is such a source and such a declaration. -/
def extracted (c : Codebase) (s : Source) (limit : Nat) (l : Location) (v : Visit) :
    Except Halt (LiteralSet × Visit) :=
  match (sourceAt? c s l).bind fun t =>
    (Declaration.enclosing? (t.nodeAt l.position)).map fun d => Goal.declaration t d with
  | some goal => Values.answerIn c s limit goal v
  | none => .ok (.empty, v)

/-- The values at some locations are those of the first one with values.  The locations before it are
passed over, but what was found out there stays known.  If the search for the values at a location comes
to a halt, so does the stage that was `begun`. -/
inductive Located (c : Codebase) (s : Source) (begun : Visit) :
    List Location → Visit → Outcome OracleFault → Visit → Prop where
  | nowhere {v} : Located c s begun [] v (.known .empty) v
  | passed {l ls v values u outcome w} : extracted c s begun.limit l v = .ok (values, u) →
      values.isEmpty → Located c s begun ls u outcome w → Located c s begun (l :: ls) v outcome w
  | found {l ls v values w} : extracted c s begun.limit l v = .ok (values, w) → ¬ values.isEmpty →
      Located c s begun (l :: ls) v (.known values) w
  | halted {l ls v halt} : extracted c s begun.limit l v = .error halt →
      Located c s begun (l :: ls) v halt.outcome begun

def Hovers (hover : Option String) (v : Visit) (outcome : Outcome OracleFault) (w : Visit) : Prop :=
  outcome = .known ((hover.map Hover.values).getD .empty) ∧ w = v

/-- What a reply that counts comes to; `use` is what a value comes to. -/
def Means (use : α → Visit → Outcome OracleFault → Visit → Prop) (v : Visit) :
    Reply α → Outcome OracleFault → Visit → Prop
  | .value a, outcome, w => use a v outcome w
  | .notReady, outcome, w => outcome = .failed .notReady ∧ w = v
  | .failed reason, outcome, w => outcome = .failed (.failed reason) ∧ w = v
  | .crashed, outcome, w => outcome = .crashed ∧ w = v

def Ends (question : σ → Reply α × σ) (use : α → Visit → Outcome OracleFault → Visit → Prop)
    (x : Visit × σ) (times : Nat) (outcome : Outcome OracleFault) (y : Visit × σ) : Prop :=
  ∃ reply, Asked question x.2 times reply y.2 ∧ Means use x.1 reply outcome y.1

/-! ## One stage after the other -/

structure Stage (σ : Type) where
  query : Query
  ends : Visit × σ → (times : Nat) → Outcome OracleFault → Visit × σ → Prop

def stages (service : Oracle σ) (c : Codebase) (s : Source) (p : Position) : List (Stage σ) :=
  [⟨.hover, Ends (service.hover s.path p) Hovers⟩,
   ⟨.typeDefinition, Ends (service.typeDefinition s.path p) fun ls v => Located c s v ls v⟩,
   ⟨.definition, Ends (service.definition s.path p) fun ls v => Located c s v ls v⟩]

structure Record where
  query : Query
  times : Nat
  outcome : Outcome OracleFault

/-- The stages take place one after the other until one of them settles the matter. -/
inductive Course : List (Stage σ) → Visit × σ → List Record → Visit × σ → Prop where
  | done {x} : Course [] x [] x
  | settled {stage stages x times outcome y} : stage.ends x times outcome y → outcome.settles →
      Course (stage :: stages) x [⟨stage.query, times, outcome⟩] y
  | further {stage stages x times outcome y records z} : stage.ends x times outcome y →
      ¬ outcome.settles → Course stages y records z →
      Course (stage :: stages) x (⟨stage.query, times, outcome⟩ :: records) z

/-- The outcome that settles the matter.  If there is none, it is the last fault if all stages failed, and
else nothing is known. -/
def verdict (outcomes : List (Outcome OracleFault)) : Outcome OracleFault :=
  match outcomes.find? Outcome.settles with
  | some outcome => outcome
  | none =>
    if outcomes.all Outcome.isFailed then outcomes.getLast?.getD (.known .empty) else .known .empty

def questions (path : Path) (p : Position) (records : List Record) : List LogEntry :=
  (records.flatMap fun r => List.replicate r.times ⟨r.query, path, p⟩).reverse

/-! ## There is one course -/

theorem Asked.unique {question : σ → Reply α × σ} {o : σ} {n m : Nat} {reply reply' : Reply α}
    {o' o'' : σ} (first : Asked question o n reply o') (second : Asked question o m reply' o'') :
    n = m ∧ reply = reply' ∧ o' = o'' := by
  cases first with
  | once replied ready =>
    cases second with
    | once replied' =>
      rw [replied] at replied'
      cases replied'
      exact ⟨rfl, rfl, rfl⟩
    | twice unready =>
      rw [replied] at unready
      cases unready
      exact absurd rfl ready
  | twice unready replied =>
    cases second with
    | once replied' ready =>
      rw [unready] at replied'
      cases replied'
      exact absurd rfl ready
    | twice unready' replied' =>
      rw [unready] at unready'
      cases unready'
      rw [replied] at replied'
      cases replied'
      exact ⟨rfl, rfl, rfl⟩

theorem Located.unique {c : Codebase} {s : Source} {begun v w w' : Visit} {ls : List Location}
    {outcome outcome' : Outcome OracleFault} (first : Located c s begun ls v outcome w)
    (second : Located c s begun ls v outcome' w') : outcome = outcome' ∧ w = w' := by
  -- the cases are told apart by what is extracted at the first location
  induction first with
  | nowhere =>
    cases second
    exact ⟨rfl, rfl⟩
  | passed here none _ ih =>
    cases second with
    | passed here' _ rest =>
      rw [here] at here'
      cases here'
      exact ih rest
    | found here' some =>
      rw [here] at here'
      cases here'
      exact absurd none some
    | halted here' =>
      rw [here] at here'
      cases here'
  | found here some =>
    cases second with
    | passed here' none =>
      rw [here] at here'
      cases here'
      exact absurd none some
    | found here' =>
      rw [here] at here'
      cases here'
      exact ⟨rfl, rfl⟩
    | halted here' =>
      rw [here] at here'
      cases here'
  | halted here =>
    cases second with
    | passed here' | found here' =>
      rw [here] at here'
      cases here'
    | halted here' =>
      rw [here] at here'
      cases here'
      exact ⟨rfl, rfl⟩

theorem Ends.unique {question : σ → Reply α × σ}
    {use : α → Visit → Outcome OracleFault → Visit → Prop}
    (determined : ∀ a v outcome outcome' w w', use a v outcome w → use a v outcome' w' →
      outcome = outcome' ∧ w = w') {x y z : Visit × σ} {n m : Nat}
    {outcome outcome' : Outcome OracleFault} (first : Ends question use x n outcome y)
    (second : Ends question use x m outcome' z) : n = m ∧ outcome = outcome' ∧ y = z := by
  obtain ⟨reply, asked, means⟩ := first
  obtain ⟨reply', asked', means'⟩ := second
  obtain ⟨rfl, rfl, state⟩ := asked.unique asked'
  have same : outcome = outcome' ∧ y.1 = z.1 := by
    cases reply with
    | value a => exact determined _ _ _ _ _ _ means means'
    | notReady | failed | crashed =>
      exact ⟨means.1.trans means'.1.symm, means.2.trans means'.2.symm⟩
  exact ⟨rfl, same.1, Prod.ext same.2 state⟩

theorem Course.unique {stages : List (Stage σ)}
    (determined : ∀ stage ∈ stages, ∀ {x n m outcome outcome' y z}, stage.ends x n outcome y →
      stage.ends x m outcome' z → n = m ∧ outcome = outcome' ∧ y = z)
    {x y z : Visit × σ} {records records' : List Record} (first : Course stages x records y)
    (second : Course stages x records' z) : records = records' ∧ y = z := by
  induction first generalizing records' with
  | done =>
    cases second
    exact ⟨rfl, rfl⟩
  | settled ended settles =>
    cases second with
    | settled ended' =>
      obtain ⟨rfl, rfl, rfl⟩ := determined _ List.mem_cons_self ended ended'
      exact ⟨rfl, rfl⟩
    | further ended' open' =>
      obtain ⟨-, rfl, -⟩ := determined _ List.mem_cons_self ended ended'
      exact absurd settles open'
  | further ended unsettled _ ih =>
    cases second with
    | settled ended' settles =>
      obtain ⟨-, rfl, -⟩ := determined _ List.mem_cons_self ended ended'
      exact absurd settles unsettled
    | further ended' _ rest =>
      obtain ⟨rfl, rfl, rfl⟩ := determined _ List.mem_cons_self ended ended'
      obtain ⟨rfl, rfl⟩ := ih (fun stage member => determined stage (List.mem_cons_of_mem _ member)) rest
      exact ⟨rfl, rfl⟩

theorem course_stages_unique {service : Oracle σ} {c : Codebase} {s : Source} {p : Position}
    {x y z : Visit × σ} {records records' : List Record}
    (first : Course (service.stages c s p) x records y)
    (second : Course (service.stages c s p) x records' z) : records = records' ∧ y = z := by
  refine first.unique ?_ second
  simp only [stages, List.forall_mem_cons, List.not_mem_nil, false_implies, implies_true, and_true]
  have hovers : ∀ hover v outcome outcome' w w', Hovers hover v outcome w →
      Hovers hover v outcome' w' → outcome = outcome' ∧ w = w' := by
    rintro hover v outcome outcome' w w' ⟨rfl, rfl⟩ ⟨rfl, rfl⟩
    exact ⟨rfl, rfl⟩
  have locations : ∀ ls v outcome outcome' w w', Located c s v ls v outcome w →
      Located c s v ls v outcome' w' → outcome = outcome' ∧ w = w' :=
    fun _ _ _ _ _ _ => Located.unique
  exact ⟨Ends.unique hovers, Ends.unique locations, Ends.unique locations⟩

/-! ## The code takes this course -/

section Code

variable (path : Path) (p : Position)

theorem asked_insist (q : Query) (question : Path → Position → σ → Reply α × σ) (o : σ)
    (log : List LogEntry) :
    ∃ times reply o', Asked (question path p) o times reply o' ∧
      insist (logging q question path p) (o, log) =
        (reply, o', List.replicate times ⟨q, path, p⟩ ++ log) := by
  rcases replied : question path p o with ⟨reply, o'⟩
  cases reply with
  | notReady =>
    rcases again : question path p o' with ⟨reply, o''⟩
    refine ⟨2, reply, o'', .twice replied again, ?_⟩
    simp only [insist, logging, replied, again]
    rfl
  | value | failed | crashed =>
    refine ⟨1, _, o', .once replied (by simp), ?_⟩
    simp only [insist, logging, replied]
    rfl

/-- The attempt ends as the stage does, and notes down the questions. -/
def Follows (attempt : Attempt (σ × List LogEntry) (Outcome OracleFault)) (stage : Stage σ) : Prop :=
  ∀ v o log, ∃ times outcome w o', stage.ends (v, o) times outcome (w, o') ∧
    attempt (v, o, log) = (outcome, w, o', List.replicate times ⟨stage.query, path, p⟩ ++ log)

theorem follows_stage (q : Query) (question : Path → Position → σ → Reply α × σ)
    {use : α → Attempt (σ × List LogEntry) (Outcome OracleFault)}
    {used : α → Visit → Outcome OracleFault → Visit → Prop}
    (uses : ∀ a v x, ∃ outcome w, used a v outcome w ∧ use a (v, x) = (outcome, w, x)) :
    Follows path p (stage (logging q question path p) use) ⟨q, Ends (question path p) used⟩ := by
  intro v o log
  obtain ⟨times, reply, o', asked, insisted⟩ := asked_insist path p q question o log
  unfold stage
  simp only [insisted]
  cases reply with
  | value a =>
    obtain ⟨outcome, w, made, equal⟩ := uses a v (o', List.replicate times ⟨q, path, p⟩ ++ log)
    exact ⟨times, outcome, w, o', ⟨.value a, asked, made⟩, equal⟩
  | notReady | failed | crashed => exact ⟨times, _, v, o', ⟨_, asked, rfl, rfl⟩, rfl⟩

/-! ### Locations -/

theorem valuesAt_eq (c : Codebase) (s : Source) (limit : Nat) (l : Location) (v : Visit) :
    valuesAt c s limit l v = extracted c s limit l v := by
  unfold valuesAt extracted
  cases sourceAt? c s l with
  | none => rfl
  | some t =>
    simp only [Option.bind_some]
    cases Declaration.enclosing? (t.nodeAt l.position) with
    | none => rfl
    | some d => rfl

theorem located_atLocations (c : Codebase) (s : Source) (begun : Visit) (ls : List Location) (o : σ) :
    ∃ outcome w, Located c s begun ls begun outcome w ∧
      atLocations c s ls (begun, o) = (outcome, w, o) := by
  -- the locations left are gone through from a later visit, but a halt leads back to the first
  suffices general : ∀ v,
      (∃ values w, Located c s begun ls v (.known values) w ∧
        Eval.firstKnown (valuesAt c s begun.limit) ls v = .ok (values, w)) ∨
      ∃ halt, Located c s begun ls v halt.outcome begun ∧
        Eval.firstKnown (valuesAt c s begun.limit) ls v = .error halt by
    unfold atLocations Values.attempt
    rcases general begun with ⟨values, w, located, found⟩ | ⟨halt, located, halted⟩
    · exact ⟨_, w, located, by simp only [found]⟩
    · exact ⟨_, begun, located, by simp only [halted]⟩
  induction ls with
  | nil => exact fun v => .inl ⟨_, v, .nowhere, rfl⟩
  | cons l ls ih =>
    intro v
    simp only [Eval.firstKnown, bind, StateT.bind, Except.bind, valuesAt_eq]
    cases here : extracted c s begun.limit l v with
    | error halt => exact .inr ⟨halt, .halted here, rfl⟩
    | ok result =>
      obtain ⟨values, u⟩ := result
      by_cases none : values.isEmpty
      · simp only [none, ↓reduceIte]
        rcases ih u with ⟨values', w, rest, found⟩ | ⟨halt, rest, halted⟩
        · exact .inl ⟨values', w, .passed here none rest, found⟩
        · exact .inr ⟨halt, .passed here none rest, halted⟩
      · refine .inl ⟨values, u, .found here none, ?_⟩
        simp only [none, Bool.false_eq_true, ↓reduceIte]
        rfl

/-! ### Stages -/

/-- The two notes that are taken on the way, whether a stage did not fail and what the last fault was, are
enough to tell the verdict if nothing has settled the matter. -/
theorem verdict_of_unsettled {outcomes : List (Outcome OracleFault)}
    (unsettled : ∀ outcome ∈ outcomes, ¬ outcome.settles) :
    verdict outcomes =
      match outcomes.reverse.findSome? Outcome.fault? with
      | some fault =>
        if outcomes.any fun outcome => !outcome.isFailed then .known .empty else .failed fault
      | none => .known .empty := by
  have none : outcomes.find? Outcome.settles = none := List.find?_eq_none.mpr unsettled
  simp only [verdict, none, ← List.not_all_eq_any_not]
  cases failed : outcomes.all Outcome.isFailed with
  | false => cases outcomes.reverse.findSome? Outcome.fault? <;> rfl
  | true =>
    rcases List.eq_nil_or_concat outcomes with rfl | ⟨front, last, rfl⟩
    · rfl
    · have lastFailed : last.isFailed := List.all_eq_true.mp failed last (by simp)
      cases last with
      | failed fault => simp [List.findSome?_cons, Outcome.fault?]
      | known | crashed | endless => cases lastFailed

theorem course_firstStage {attempts : List (Attempt (σ × List LogEntry) (Outcome OracleFault))}
    {stages : List (Stage σ)} (follow : List.Forall₂ (Follows path p) attempts stages)
    (before : List (Outcome OracleFault)) (unsettled : ∀ outcome ∈ before, ¬ outcome.settles)
    (v : Visit) (o : σ) (log : List LogEntry) :
    ∃ records w o', Course stages (v, o) records (w, o') ∧
      firstStage (before.any fun outcome => !outcome.isFailed)
          (before.reverse.findSome? Outcome.fault?) attempts (v, o, log) =
        (verdict (before ++ records.map Record.outcome), w, o', questions path p records ++ log) := by
  -- the notes are those on the outcomes before, and every stage adds its own
  induction follow generalizing before v o log with
  | nil =>
    refine ⟨[], v, o, .done, ?_⟩
    rw [List.map_nil, List.append_nil, verdict_of_unsettled unsettled]
    rfl
  | @cons attempt stage attempts stages first _ ih =>
    obtain ⟨times, outcome, w, o', ended, equal⟩ := first v o log
    have asked : ∀ records, questions path p (⟨stage.query, times, outcome⟩ :: records) ++ log =
        questions path p records ++ (List.replicate times ⟨stage.query, path, p⟩ ++ log) := by
      intro records
      simp [questions]
    simp only [firstStage, bind, StateT.bind, equal]
    by_cases settles : outcome.settles
    · -- the notes are of no use any more
      have found : (before ++ [outcome]).find? Outcome.settles = some outcome := by
        rw [List.find?_append, List.find?_eq_none.mpr unsettled]
        simp [settles]
      refine ⟨[⟨stage.query, times, outcome⟩], w, o', .settled ended settles, ?_⟩
      rw [asked]
      simp only [List.map_cons, List.map_nil, verdict, found]
      cases outcome with
      | known values =>
        have some : values.isEmpty = false := by simpa [Outcome.settles] using settles
        simp only [some, Bool.false_eq_true, ↓reduceIte]
        rfl
      | failed fault => cases settles
      | crashed | endless => rfl
    · have unsettled' : ∀ outcome' ∈ before ++ [outcome], ¬ outcome'.settles := by
        intro outcome' member
        rcases List.mem_append.mp member with earlier | last
        · exact unsettled outcome' earlier
        · cases List.mem_singleton.mp last
          exact settles
      obtain ⟨records, u, o'', course, rest⟩ :=
        ih (before ++ [outcome]) unsettled' w o' (List.replicate times ⟨stage.query, path, p⟩ ++ log)
      refine ⟨⟨stage.query, times, outcome⟩ :: records, u, o'', .further ended settles course, ?_⟩
      rw [asked, List.map_cons, List.append_cons, ← rest]
      -- what the code notes down is what follows from the longer list
      cases outcome with
      | known values =>
        have none : values.isEmpty := by simpa [Outcome.settles] using settles
        simp [none, Outcome.isFailed, Outcome.fault?, List.findSome?_cons]
      | failed fault => simp [Outcome.isFailed, Outcome.fault?, List.findSome?_cons]
      | crashed | endless => exact absurd rfl settles

theorem course_logged (service : Oracle σ) (c : Codebase) (s : Source) (p : Position) (v : Visit) (o : σ)
    (log : List LogEntry) :
    ∃ records w o', Course (service.stages c s p) (v, o) records (w, o') ∧
      service.logged.consult c s p (v, o, log) =
        (verdict (records.map Record.outcome), w, o', questions s.path p records ++ log) := by
  have hovers : Follows s.path p
      (stage (logging .hover service.hover s.path p) fun hover =>
        return .known ((hover.map Hover.values).getD .empty))
      ⟨.hover, Ends (service.hover s.path p) Hovers⟩ :=
    follows_stage s.path p .hover service.hover fun hover v x => ⟨_, v, ⟨rfl, rfl⟩, rfl⟩
  have locations : ∀ ls v (x : σ × List LogEntry), ∃ outcome w, Located c s v ls v outcome w ∧
      atLocations c s ls (v, x) = (outcome, w, x) := fun ls v x => located_atLocations c s v ls x
  have follow := List.Forall₂.cons hovers (.cons
    (follows_stage s.path p .typeDefinition service.typeDefinition locations) (.cons
    (follows_stage s.path p .definition service.definition locations) .nil))
  obtain ⟨records, w, o', course, equal⟩ :=
    course_firstStage s.path p follow [] (by simp) v o log
  exact ⟨records, w, o', course, equal⟩

end Code

/-! ## The main statement -/

/-- **The course of a consultation.**  From every state there is one course through the stages: first the
hover text, then where the type is defined, then where the symbol is, each stage only if no stage before
has values, and in each stage one question, or two if the first finds the oracle not ready.  A
consultation takes this course.  It puts just these questions, in this order, and comes to the verdict on
the outcomes of the stages, be it values, the last fault or nothing. -/
theorem consult_takes_course (service : Oracle σ) (c : Codebase) (s : Source) (p : Position) (v : Visit)
    (o : σ) (log : List LogEntry) :
    ∃ records w o', Course (service.stages c s p) (v, o) records (w, o') ∧
      (∀ records' x, Course (service.stages c s p) (v, o) records' x →
        records' = records ∧ x = (w, o')) ∧
      service.consult c s p (v, o) = (verdict (records.map Record.outcome), w, o') ∧
      service.logged.consult c s p (v, o, log) =
        (verdict (records.map Record.outcome), w, o', questions s.path p records ++ log) := by
  obtain ⟨records, w, o', course, logged⟩ := course_logged service c s p v o log
  refine ⟨records, w, o', course, fun _ _ other => course_stages_unique other course, ?_, logged⟩
  -- without the log it is the same consultation
  obtain ⟨outcome, x, y, plain, logged', visit, state⟩ :=
    agrees_consult (agrees_logged service) c s p (v, o) (v, o, log) ⟨rfl, rfl⟩
  rw [logged] at logged'
  cases logged'
  rw [plain]
  exact Prod.ext rfl (Prod.ext visit state.symm)

end Oracle

end TemplateValues
