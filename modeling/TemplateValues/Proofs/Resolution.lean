import Mathlib.Data.List.Forall2
import TemplateValues.Proofs.Provenance
import TemplateValues.Resolver

/-!
# Where resolved values come from

The values of a variable are found by strategies, some of which ask goals and one of which asks an
oracle.  The oracle can point to declarations, and then its word counts for no more than theirs; only
the text of a hover is taken at its word.  So every value is written in a source or in a hover text that
the oracle gave while the variable was resolved.

To say which texts the oracle gave, it is *recorded*: a recorded oracle answers as before and keeps the
hover texts it has given.
-/

namespace TemplateValues

open Text

/-! ## Hover texts -/

namespace Hover

/-- A text on one line between two equal quotation marks, without that mark inside. -/
def IsQuoted (l : List Char) : Prop :=
  ∃ q inner, (q = '"' ∨ q = '\x27') ∧ l = q :: inner ++ [q] ∧ ∀ c ∈ inner, c ≠ q ∧ c ≠ '\n'

/-- The value stands between quotation marks in a line of the signature. -/
def Spells (hover value : String) : Prop :=
  ∃ line ∈ signature hover.toList, ∃ l, IsQuoted l ∧ l <:+: line ∧
    unquote (String.ofList l) = some value

theorem literal?_eq_some {cs l rest : List Char} (read : literal? cs = some (l, rest)) :
    IsQuoted l ∧ cs = l ++ rest := by
  unfold literal? at read
  split at read
  · rename_i q cs
    split at read
    · rename_i mark
      dsimp only at read
      split at read
      · rename_i c after dropped
        split at read
        · obtain rfl : c = q := ‹_›
          cases read
          have whole := List.prefix_iff_eq_append.mp
            (List.takeWhile_prefix (l := cs) fun d => d ≠ c && d ≠ '\n')
          rw [dropped] at whole
          refine ⟨⟨c, _, by simpa using mark, rfl, fun d member => ?_⟩, ?_⟩
          · simpa using List.all_eq_true.mp List.all_takeWhile d member
          · rw [List.append_assoc, List.cons_append, List.singleton_append, whole]
        · cases read
      · cases read
    · cases read
  · cases read

theorem trimFront_suffix (cs : List Char) : trimFront cs <:+ cs := List.dropWhile_suffix _

/-- A literal after blanks stands in the text, and so does what follows it. -/
theorem quoted_of_literal? {cs first after : List Char}
    (read : literal? (trimFront cs) = some (first, after)) :
    IsQuoted first ∧ first <:+: cs ∧ after <:+ cs := by
  obtain ⟨quoted, split⟩ := literal?_eq_some read
  have inside := trimFront_suffix cs
  rw [split] at inside
  refine ⟨quoted, (List.prefix_append _ _).isInfix.trans inside.isInfix, ?_⟩
  exact (List.suffix_append _ _).trans inside

theorem quoted_of_mem_moreLiterals? {room : Nat} {cs : List Char} {ls : List (List Char)}
    (read : moreLiterals? room cs = some ls) {l : List Char} (member : l ∈ ls) :
    IsQuoted l ∧ l <:+: cs := by
  fun_induction moreLiterals? room cs generalizing ls with
  | case2 cs rest bar room first after literal ih =>
    obtain ⟨others, more, rfl⟩ := Option.map_eq_some_iff.mp read
    obtain ⟨quoted, inside, behind⟩ := quoted_of_literal? literal
    have outer : rest <:+ cs := by
      refine List.IsSuffix.trans ?_ (trimFront_suffix cs)
      rw [bar]
      exact List.suffix_cons _ _
    obtain rfl | member := List.mem_cons.mp member
    · exact ⟨quoted, inside.trans outer.isInfix⟩
    · obtain ⟨quoted, further⟩ := ih more member
      exact ⟨quoted, further.trans (behind.trans outer).isInfix⟩
  | case1 | case3 | case5 | case7 => cases read
  | case4 | case6 =>
    cases read
    cases member

theorem quoted_of_mem_union? {cs : List Char} {ls : List (List Char)} (read : union? cs = some ls)
    {l : List Char} (member : l ∈ ls) : IsQuoted l ∧ l <:+: cs := by
  unfold union? at read
  split at read
  · rename_i first after literal
    obtain ⟨others, more, rfl⟩ := Option.map_eq_some_iff.mp read
    obtain ⟨quoted, inside, behind⟩ := quoted_of_literal? literal
    obtain rfl | member := List.mem_cons.mp member
    · exact ⟨quoted, inside⟩
    · obtain ⟨quoted, further⟩ := quoted_of_mem_moreLiterals? more member
      exact ⟨quoted, further.trans behind.isInfix⟩
  · cases read

theorem quoted_of_mem_unionAfterSign? {cs : List Char} {ls : List (List Char)}
    (read : unionAfterSign? cs = some ls) {l : List Char} (member : l ∈ ls) :
    IsQuoted l ∧ l <:+: cs := by
  induction cs with
  | nil => cases read
  | cons c cs ih =>
    have behind : cs <:+: c :: cs := (List.suffix_cons c cs).isInfix
    obtain here | ⟨-, later⟩ := Option.or_eq_some_iff.mp read
    · split at here
      · obtain ⟨quoted, inside⟩ := quoted_of_mem_union? here member
        exact ⟨quoted, inside.trans behind⟩
      · cases here
    · obtain ⟨quoted, inside⟩ := ih later
      exact ⟨quoted, inside.trans behind⟩

theorem quoted_of_mem_lineLiterals {line l : List Char} (member : l ∈ lineLiterals line) :
    IsQuoted l ∧ l <:+: line := by
  unfold lineLiterals at member
  cases read : (union? line).or (unionAfterSign? line) with
  | none =>
    rw [read] at member
    cases member
  | some ls =>
    rw [read] at member
    obtain whole | ⟨-, part⟩ := Option.or_eq_some_iff.mp read
    · exact quoted_of_mem_union? whole member
    · exact quoted_of_mem_unionAfterSign? part member

/-- The values of a hover text stand in its signature. -/
theorem genuine_values (hover : String) : (values hover).Genuine (Spells hover) := by
  refine LiteralSet.genuine_ofList fun v member => ?_
  obtain ⟨l, literal, unquoted⟩ := List.mem_filterMap.mp member
  obtain ⟨line, signed, literal⟩ := List.mem_flatMap.mp literal
  obtain ⟨quoted, inside⟩ := quoted_of_mem_lineLiterals literal
  exact ⟨line, signed, l, quoted, inside, by simpa [unquote] using unquoted⟩

end Hover

/-! ## Recorded oracles -/

/-- The oracle with the hover texts that it has given. -/
def Oracle.recorded {σ : Type} (oracle : Oracle σ) : Oracle (σ × List String) where
  hover path p := fun (o, given) =>
    match oracle.hover path p o with
    | (.value (some text), o) => (.value (some text), o, given ++ [text])
    | (reply, o) => (reply, o, given)
  typeDefinition path p := fun (o, given) =>
    let (reply, o) := oracle.typeDefinition path p o
    (reply, o, given)
  definition path p := fun (o, given) =>
    let (reply, o) := oracle.definition path p o
    (reply, o, given)

def Resolver.recorded {σ : Type} (r : Resolver σ) : Resolver (σ × List String) where
  codebase := r.codebase
  limits := r.limits
  oracle := r.oracle.map Oracle.recorded
  isCancelled := fun (o, _) => r.isCancelled o

/-- The value is written in one of the sources or in one of the hover texts. -/
def Told (sources : List Source) (given : List String) (value : String) : Prop :=
  Spelled sources value ∨ ∃ text ∈ given, Hover.Spells text value

section Tracks

variable {σ ε α : Type} {c : Codebase} {sources : List Source} {s : Source}

/-- Recorded, a question gets the same reply and is in the same state then; `heard` holds of the answer
and of the texts given so far. -/
def Echoes (heard : α → List String → Prop) (question : σ → Reply α × σ)
    (recorded : σ × List String → Reply α × σ × List String) : Prop :=
  ∀ o given, ∃ reply o' given', question o = (reply, o') ∧ recorded (o, given) = (reply, o', given') ∧
    ∀ a, reply = .value a → heard a given'

/-- Recorded, an attempt comes to the same, and all that it finds is written somewhere. -/
def Tracks (sources : List Source) (plain : Outcome ε × Visit × σ)
    (recorded : Outcome ε × Visit × σ × List String) : Prop :=
  ∃ outcome w o given, plain = (outcome, w, o) ∧ recorded = (outcome, w, o, given) ∧
    w.Genuine (Spelled sources) ∧
    ∀ values, outcome = .known values → values.Genuine (Told sources given)

def Traces (sources : List Source) (plain : Attempt σ (Outcome ε))
    (recorded : Attempt (σ × List String) (Outcome ε)) : Prop :=
  ∀ v o given, v.Genuine (Spelled sources) → Tracks sources (plain (v, o)) (recorded (v, o, given))

theorem echoes_hover (oracle : Oracle σ) (path : Path) (p : Template.Position) :
    Echoes (fun hover given => ∀ text, hover = some text → text ∈ given) (oracle.hover path p)
      (oracle.recorded.hover path p) := by
  intro o given
  rcases replied : oracle.hover path p o with ⟨reply, o'⟩
  match reply with
  | .value (some text) =>
    exact ⟨_, o', given ++ [text], rfl, by simp [Oracle.recorded, replied], by simp⟩
  | .value none | .notReady | .failed _ | .crashed =>
    exact ⟨_, o', given, rfl, by simp [Oracle.recorded, replied], by simp⟩

/-- Asking once more is recorded as well. -/
theorem Echoes.insist {heard : α → List String → Prop} {question : σ → Reply α × σ}
    {recorded : σ × List String → Reply α × σ × List String} (echoes : Echoes heard question recorded) :
    Echoes heard (Oracle.insist question) (Oracle.insist recorded) := by
  intro o given
  obtain ⟨reply, o', given', plain, kept, holds⟩ := echoes o given
  simp only [Oracle.insist, plain, kept]
  cases reply with
  | notReady => exact echoes o' given'
  | value | failed | crashed => exact ⟨_, o', given', rfl, rfl, holds⟩

theorem Tracks.of_unknown {outcome : Outcome ε} {v : Visit} {o : σ} {given : List String}
    (start : v.Genuine (Spelled sources)) (unknown : ∀ values, outcome ≠ .known values) :
    Tracks sources (outcome, v, o) (outcome, v, o, given) :=
  ⟨outcome, v, o, given, rfl, rfl, start, fun values known => absurd known (unknown values)⟩

theorem Tracks.of_known {values : LiteralSet} {v : Visit} {o : σ} {given : List String}
    (start : v.Genuine (Spelled sources)) (genuine : values.Genuine (Told sources given)) :
    Tracks sources ((.known values : Outcome ε), v, o) (.known values, v, o, given) := by
  refine ⟨.known values, v, o, given, rfl, rfl, start, ?_⟩
  rintro _ ⟨⟩
  exact genuine

theorem tracks_stage {heard : α → List String → Prop} {question : σ → Reply α × σ}
    {recorded : σ × List String → Reply α × σ × List String} (echoes : Echoes heard question recorded)
    {use : α → Attempt σ (Outcome OracleFault)}
    {use' : α → Attempt (σ × List String) (Outcome OracleFault)}
    (uses : ∀ a given, heard a given → ∀ v o, v.Genuine (Spelled sources) →
      Tracks sources (use a (v, o)) (use' a (v, o, given))) :
    Traces sources (Oracle.stage question use) (Oracle.stage recorded use') := by
  intro v o given start
  obtain ⟨reply, o', given', plain, kept, holds⟩ := echoes.insist o given
  simp only [Oracle.stage, plain, kept]
  cases reply with
  | value a => exact uses a given' (holds a rfl) v o' start
  | notReady | failed | crashed => exact .of_unknown start (by simp)

theorem traces_firstStage {plain : List (Attempt σ (Outcome OracleFault))}
    {recorded : List (Attempt (σ × List String) (Outcome OracleFault))}
    (stages : List.Forall₂ (Traces sources) plain recorded) (answered : Bool)
    (fault : Option OracleFault) :
    Traces sources (Oracle.firstStage answered fault plain)
      (Oracle.firstStage answered fault recorded) := by
  induction stages generalizing answered fault with
  | nil =>
    intro v o given start
    simp only [Oracle.firstStage]
    cases fault with
    | none => exact .of_known start LiteralSet.genuine_empty
    | some f =>
      cases answered with
      | true => exact .of_known start LiteralSet.genuine_empty
      | false => exact .of_unknown start (by simp)
  | cons first _ ih =>
    intro v o given start
    obtain ⟨outcome, w, o', given', plain, kept, after, genuine⟩ := first v o given start
    simp only [Oracle.firstStage, bind, StateT.bind, plain, kept]
    cases outcome with
    | known values =>
      dsimp only
      split
      · exact ih true fault w o' given' after
      · exact .of_known after (genuine values rfl)
    | failed f => exact ih answered (some f) w o' given' after
    | crashed | endless => exact .of_unknown after (by simp)

end Tracks

/-! ## Strategies -/

section Strategies

variable {σ ε : Type} {c : Codebase} {s : Source}

/-- Asking finds only what is written. -/
theorem tracks_attempt {q : Inquiry LiteralSet} (only : q.Only (Goal.Inside (s :: c.sources)))
    (keeps : q.Keeps (Spelled (s :: c.sources))) (limit : Nat) (v : Visit) (o : σ)
    (given : List String) (start : v.Genuine (Spelled (s :: c.sources))) :
    Tracks (ε := ε) (s :: c.sources) (Values.attempt (q.run (Values.answerIn c s limit)) (v, o))
      (Values.attempt (q.run (Values.answerIn c s limit)) (v, o, given)) := by
  have answers : ∀ goal v values w, Values.answerIn c s limit goal v = .ok (values, w) →
      goal.Inside (s :: c.sources) → v.Genuine (Spelled (s :: c.sources)) →
      values.Genuine (Spelled (s :: c.sources)) ∧ w.Genuine (Spelled (s :: c.sources)) :=
    fun _ _ _ _ answered => Returns.genuine (List.subset_cons_self s c.sources) ⟨_, answered⟩
  cases computed : q.run (Values.answerIn c s limit) v with
  | error halt =>
    simp only [Values.attempt, computed]
    cases halt <;> exact .of_unknown start (by simp [Halt.outcome])
  | ok result =>
    simp only [Values.attempt, computed]
    obtain ⟨genuine, after⟩ := Inquiry.Keeps.of_run answers (Inquiry.run_ok_iff.mp computed) only keeps start
    exact .of_known after (genuine.mono fun _ => .inl)

theorem tracks_ask {goal : Goal} (inside : goal.Inside (s :: c.sources)) (limit : Nat) (v : Visit)
    (o : σ) (given : List String) (start : v.Genuine (Spelled (s :: c.sources))) :
    Tracks (ε := ε) (s :: c.sources) (Values.attempt (Values.answerIn c s limit goal) (v, o))
      (Values.attempt (Values.answerIn c s limit goal) (v, o, given)) := by
  have tracks := tracks_attempt (ε := ε) (Inquiry.only_one inside) (Inquiry.keeps_one goal) limit v o
    given start
  rwa [Inquiry.run_one] at tracks

theorem inside_of_provides {t : Source} {d : Declaration} (provides : c.Provides s t d) :
    t ∈ s :: c.sources ∧ t.Holds d :=
  ⟨List.mem_cons.mpr provides.source, provides.holds⟩

/-- The declaration around a place is made by a node of the source. -/
theorem holds_of_enclosing? {t : Source} {p : Template.Position} {d : Declaration}
    (found : Declaration.enclosing? (t.nodeAt p) = some d) : t.Holds d := by
  obtain ⟨n, around, declares⟩ := List.exists_of_findSome?_eq_some found
  obtain rfl := Declaration.ofNode?_node declares
  have place : t.root.Under (t.nodeAt p) := Syntax.Node.Under.innermostUpTo _ .refl .refl
  exact ⟨place.of_mem_withAncestors rfl ((List.takeWhile_prefix _).subset around), declares⟩

theorem mem_of_sourceAt? {t : Source} {l : Location} (found : Oracle.sourceAt? c s l = some t) :
    t ∈ s :: c.sources := by
  unfold Oracle.sourceAt? at found
  split at found
  · cases found
    exact List.mem_cons_self
  · unfold Codebase.source? at found
    split at found
    · exact List.mem_cons_of_mem _ (List.mem_of_find?_eq_some found)
    · cases found

def located (c : Codebase) (s : Source) (l : Location) : Inquiry LiteralSet :=
  match Oracle.sourceAt? c s l with
  | some t =>
    match Declaration.enclosing? (t.nodeAt l.position) with
    | some d => .one (.declaration t d)
    | none => Eval.unknown
  | none => Eval.unknown

theorem run_located (limit : Nat) (l : Location) :
    (located c s l).run (Values.answerIn c s limit) = Oracle.valuesAt c s limit l := by
  unfold located Oracle.valuesAt
  cases Oracle.sourceAt? c s l with
  | none => rfl
  | some t =>
    dsimp only
    cases Declaration.enclosing? (t.nodeAt l.position) with
    | none => rfl
    | some d => exact Inquiry.run_one _ _

theorem tracks_atLocations (ls : List Location) (v : Visit) (o : σ) (given : List String)
    (start : v.Genuine (Spelled (s :: c.sources))) :
    Tracks (s :: c.sources) (Oracle.atLocations c s ls (v, o))
      (Oracle.atLocations c s ls (v, o, given)) := by
  have asked := Inquiry.run_firstKnown (Values.answerIn c s v.limit) (located c s) ls
  simp only [run_located] at asked
  simp only [Oracle.atLocations, ← asked]
  refine tracks_attempt (Inquiry.only_firstKnown fun l _ => ?_)
    (Inquiry.keeps_firstKnown fun l _ => ?_) v.limit v o given start
  · unfold located
    split
    · split
      · exact Inquiry.only_one ⟨mem_of_sourceAt? ‹_›, holds_of_enclosing? ‹_›⟩
      · exact Inquiry.only_unknown
    · exact Inquiry.only_unknown
  · unfold located
    split
    · split
      · exact Inquiry.keeps_one _
      · exact Inquiry.keeps_unknown
    · exact Inquiry.keeps_unknown

theorem traces_consult (oracle : Oracle σ) (p : Template.Position) :
    Traces (s :: c.sources) (oracle.consult c s p) (oracle.recorded.consult c s p) := by
  have anything : ∀ question : σ → Reply (List Location) × σ,
      Echoes (fun _ _ => True) question fun (o, given) =>
        let (reply, o) := question o
        (reply, o, given) :=
    fun question o given => ⟨_, _, given, rfl, rfl, fun _ _ => trivial⟩
  refine traces_firstStage (.cons ?_ (.cons ?_ (.cons ?_ .nil))) false none
  · refine tracks_stage (echoes_hover oracle s.path p) fun hover given heard v o start => ?_
    refine .of_known start ?_
    cases hover with
    | none => exact LiteralSet.genuine_empty
    | some text =>
      exact (Hover.genuine_values text).mono fun v spells => .inr ⟨text, heard text rfl, spells⟩
  all_goals
    exact tracks_stage (anything _) fun ls given _ v o start => tracks_atLocations ls v o given start

structure Strategy.Recorded (c : Codebase) (r : Request) (plain : Strategy σ)
    (recorded : Strategy (σ × List String)) : Prop where
  applies : recorded.applies r = plain.applies r
  attempt : Traces (r.source :: c.sources) (plain.attempt r) (recorded.attempt r)

theorem recorded_propertyAccess (r : Request) :
    Strategy.Recorded c r (.propertyAccess c : Strategy σ) (.propertyAccess c) where
  applies := rfl
  attempt v o given start := by
    simp only [Strategy.propertyAccess, Strategy.asking, ← Inquiry.run_dotted]
    refine tracks_attempt (Inquiry.only_dotted ?_) (Inquiry.keeps_dotted _) v.limit v o given start
    exact fun _ _ _ provides => inside_of_provides provides

theorem recorded_localDeclaration (r : Request) :
    Strategy.Recorded c r (.localDeclaration c : Strategy σ) (.localDeclaration c) where
  applies := rfl
  attempt v o given start := by
    simp only [Strategy.localDeclaration, Strategy.asking]
    cases found : r.source.find? r.expression .value with
    | none => exact .of_known start LiteralSet.genuine_empty
    | some d =>
      have holds := Source.holds_of_mem_declarations (Source.mem_declarations_of_find? found)
      have inside : (Goal.declaration r.source d).Inside (r.source :: c.sources) :=
        ⟨List.mem_cons_self, holds⟩
      exact tracks_ask inside v.limit v o given start

theorem recorded_importedDeclaration (r : Request) :
    Strategy.Recorded c r (.importedDeclaration c : Strategy σ) (.importedDeclaration c) where
  applies := rfl
  attempt v o given start := by
    simp only [Strategy.importedDeclaration, Codebase.importedThen_eq]
    cases r.source.import? r.expression with
    | none => exact .of_known start LiteralSet.genuine_empty
    | some i =>
      cases found : c.imported? r.source r.expression .value with
      | none => exact .of_unknown start (by simp)
      | some place =>
        have inside : (Goal.declaration place.1 place.2).Inside (r.source :: c.sources) :=
          inside_of_provides (Codebase.provides_of_imported? found)
        exact tracks_ask inside v.limit v o given start

theorem recorded_oracle (oracle : Oracle σ) (r : Request) :
    Strategy.Recorded c r (.oracle c oracle) (.oracle c oracle.recorded) where
  applies := rfl
  attempt v o given start := by
    obtain ⟨outcome, w, o', given', plain, kept, after, genuine⟩ :=
      traces_consult oracle r.position v o given start
    simp only [Strategy.oracle, bind, StateT.bind, plain, kept]
    cases outcome with
    | known values => exact .of_known after (genuine values rfl)
    | failed | crashed | endless => exact .of_unknown after (by simp)

theorem recorded_standard (service : Option (Oracle σ)) (r : Request) :
    List.Forall₂ (Strategy.Recorded c r) (Strategy.standard c service)
      (Strategy.standard c (service.map Oracle.recorded)) := by
  have rest := List.Forall₂.cons (recorded_localDeclaration (σ := σ) (c := c) r)
    (.cons (recorded_importedDeclaration r) .nil)
  cases service with
  | none => exact .cons (recorded_propertyAccess r) rest
  | some oracle => exact .cons (recorded_propertyAccess r) (.cons (recorded_oracle oracle r) rest)

theorem firstKnown_recorded {r : Request} {plain : List (Strategy σ)}
    {recorded : List (Strategy (σ × List String))}
    (strategies : List.Forall₂ (Strategy.Recorded c r) plain recorded) (limit : Nat) (o : σ)
    (given : List String) :
    ∃ result o' given', Strategy.firstKnown limit r plain o = (result, o') ∧
      Strategy.firstKnown limit r recorded (o, given) = (result, o', given') ∧
      ∀ values ∈ result, values.Genuine (Told (r.source :: c.sources) given') := by
  induction strategies generalizing o given with
  | nil => exact ⟨some .empty, o, given, rfl, rfl, by simp [LiteralSet.genuine_empty]⟩
  | cons first _ ih =>
    simp only [Strategy.firstKnown, first.applies]
    split
    · obtain ⟨outcome, w, o', given', plain, kept, -, genuine⟩ :=
        first.attempt (.start limit) o given (Visit.genuine_start _ limit)
      simp only [plain, kept]
      cases outcome with
      | known values =>
        dsimp only
        split
        · exact ih o' given'
        · exact ⟨some values, o', given', rfl, rfl, by simpa using genuine values rfl⟩
      | failed | crashed => exact ih o' given'
      | endless => exact ⟨none, o', given', rfl, rfl, by simp⟩
    · exact ih o given

end Strategies

namespace Resolver

/-- **No value is invented.**  Recorded, a variable resolves to the same values and leaves the oracle in
the same state.  The values, if there is an end to the search for them, are pairwise different, and each
of them is written in the source itself, in a source of the codebase or in a hover text that the oracle
gave meanwhile. -/
theorem resolved_values_written {σ : Type} (r : Resolver σ) (s : Source) (expression : String)
    (position : Template.Position) (o : σ) :
    ∃ result o' given, r.resolveVariable s expression position o = (result, o') ∧
      r.recorded.resolveVariable s expression position (o, []) = (result, o', given) ∧
      ∀ values ∈ result, values.values.Nodup ∧ ∀ v ∈ values.values,
        (∃ t, (t = s ∨ t ∈ r.codebase.sources) ∧ t.Spells v) ∨ ∃ text ∈ given, Hover.Spells text v := by
  obtain ⟨result, o', given, plain, kept, told⟩ :=
    firstKnown_recorded (recorded_standard r.oracle ⟨s, expression, position⟩)
      r.limits.maxResolutionDepth o []
  refine ⟨result, o', given, plain, kept, fun values returned => ⟨values.nodup, fun v member => ?_⟩⟩
  obtain ⟨t, source, spells⟩ | heard := told values returned v member
  · exact .inl ⟨t, List.mem_cons.mp source, spells⟩
  · exact .inr heard

end Resolver

end TemplateValues
