import TemplateValues.Proofs.Parsing.Automaton
import TemplateValues.Syntax.Parse

/-!
# What the productions of a grammar show

A property of the symbols of a rule, and of the kinds under which they are shown, is passed on to the
productions that the rule is spelled out as (`Rule.yields_alternatives`).  Repetitions are spelled out
as symbols of their own, so what is said of a step with such a symbol is said of what is repeated.
-/

namespace TemplateValues.Syntax

mutual

/-- Does `ok` hold of every symbol of a rule, of the kind under which it is shown and of its own? -/
def Rule.every (ok : Option Kind → Option Kind → Bool) (shown : Option Kind) : Rule → Bool
  | .empty => true
  | .symbol (.run _) => false
  | .symbol s => ok shown s.kind?
  | .seq rs => Rule.everyOf ok shown rs
  | .choice rs => Rule.everyOf ok shown rs
  | .many1 r => ok shown none && r.every ok none
  | .strong _ r => r.every ok shown
  | .sided _ r => r.every ok shown
  | .favoured _ r => r.every ok shown
  | .shown k r => r.every ok (some k)
  | .field _ r => r.every ok shown

@[inherit_doc Rule.every]
def Rule.everyOf (ok : Option Kind → Option Kind → Bool) (shown : Option Kind) : List Rule → Bool
  | [] => true
  | r :: rs => r.every ok shown && Rule.everyOf ok shown rs

end

variable {ok : Option Kind → Option Kind → Bool} {bodies bodies' : Array (List Alternative)}

/-! ## Steps -/

inductive Step.Fits (ok : Option Kind → Option Kind → Bool) (bodies : Array (List Alternative)) :
    Step → Prop where
  | symbol {s : Step} : (∀ n, s.symbol ≠ .run n) → ok s.shown s.symbol.kind? → Fits ok bodies s
  | run {s : Step} {n : Nat} {body : List Alternative} : s.symbol = .run n → ok s.shown none →
      bodies[n]? = some body → (∀ a ∈ body, ∀ s ∈ a.steps, Fits ok bodies s) → Fits ok bodies s

def Alternative.Fits (ok : Option Kind → Option Kind → Bool) (bodies : Array (List Alternative))
    (a : Alternative) : Prop := ∀ s ∈ a.steps, s.Fits ok bodies

theorem Step.Fits.holds {s : Step} (fits : s.Fits ok bodies) : ok s.shown s.symbol.kind? := by
  cases fits with
  | symbol _ holds => exact holds
  | run same holds => rwa [same]

theorem Step.Fits.congr {s s' : Step} (fits : s.Fits ok bodies) (symbol : s'.symbol = s.symbol)
    (shown : s'.shown = s.shown) : s'.Fits ok bodies := by
  cases fits with
  | symbol single holds => exact .symbol (by rwa [symbol]) (by rwa [symbol, shown])
  | run same holds found inner => exact .run (by rwa [symbol]) (by rwa [shown]) found inner

theorem Step.Fits.mono {s : Step} (fits : s.Fits ok bodies) (grows : Extends bodies bodies') :
    s.Fits ok bodies' := by
  induction fits with
  | symbol single holds => exact .symbol single holds
  | run same holds found _ ih => exact .run same holds (grows _ _ found) ih

namespace Alternative

theorem Fits.mono {a : Alternative} (fits : a.Fits ok bodies) (grows : Extends bodies bodies') :
    a.Fits ok bodies' :=
  fun s member => (fits s member).mono grows

theorem Fits.append {a b : Alternative} (first : a.Fits ok bodies) (second : b.Fits ok bodies) :
    (a.append b).Fits ok bodies := by
  intro s member
  obtain before | after := List.mem_append.mp member
  · exact first s before
  · exact second s after

theorem Fits.mapLast {a : Alternative} (fits : a.Fits ok bodies) {f : Step → Step}
    (symbol : ∀ s, (f s).symbol = s.symbol) (shown : ∀ s, (f s).shown = s.shown) :
    (a.mapLast f).Fits ok bodies := by
  unfold Alternative.mapLast
  split
  · rename_i s last
    intro s' member
    obtain before | after := List.mem_append.mp member
    · exact fits s' ((List.dropLast_sublist _).subset before)
    · cases List.mem_singleton.mp after
      exact (fits s (List.mem_of_getLast? last)).congr (symbol s) (shown s)
  · exact fits

end Alternative

/-! ## Repetitions -/

namespace Runs

/-- Known repetitions stand where they are known to stand, and `base` holds of what is repeated. -/
structure Sound (base : Option Kind → Option Kind → Bool) (runs : Runs) : Prop where
  known : ∀ {body : List Alternative} {n : Nat}, runs.known[body]? = some n →
    runs.bodies[n]? = some body
  fits : ∀ {body : List Alternative} {n : Nat}, runs.bodies[n]? = some body →
    ∀ a ∈ body, a.Fits base runs.bodies

def growth (base : Option Kind → Option Kind → Bool) : Growth Runs where
  Sound := Sound base
  Grows runs runs' := Extends runs.bodies runs'.bodies
  refl _ _ _ found := found
  trans first second n a found := second n a (first n a found)

variable {base : Option Kind → Option Kind → Bool} {runs : Runs}

theorem yields_symbol (sound : runs.Sound base) {body : List Alternative}
    (fits : ∀ a ∈ body, a.Fits base runs.bodies) :
    (growth base).Yields runs (Runs.symbol body) fun runs' s =>
      ∃ n, s = .run n ∧ runs'.bodies[n]? = some body := by
  cases found : runs.known[body]? with
  | some n =>
    have run : (Runs.symbol body).run runs = (.run n, runs) := by
      simp [StateT.run, Runs.symbol, found]
    exact .of_run run sound ((growth base).refl runs) ⟨n, rfl, sound.known found⟩
  | none =>
    have run : (Runs.symbol body).run runs = (.run runs.bodies.size,
        ⟨runs.known.insert body runs.bodies.size, runs.bodies.push body⟩) := by
      simp [StateT.run, Runs.symbol, found]
    have grows := extends_push runs.bodies body
    refine .of_run run ⟨?_, ?_⟩ grows ⟨_, rfl, by simp⟩
    · intro body' n known
      rw [Std.HashMap.getElem?_insert] at known
      split at known
      · rename_i same
        cases known
        cases eq_of_beq same
        simp
      · exact grows _ _ (sound.known known)
    · intro body' n here a member
      rw [Array.getElem?_push] at here
      split at here
      · cases here
        exact (fits a member).mono grows
      · exact (sound.fits here a member).mono grows

end Runs

/-! ## Rules -/

/-- The alternatives have whatever holds of the symbols of the rule. -/
def Spelled (every : (Option Kind → Option Kind → Bool) → Bool) (runs : Runs) (as : List Alternative) :
    Prop := ∀ ok, every ok → ∀ a ∈ as, a.Fits ok runs.bodies

theorem Spelled.mono {every : (Option Kind → Option Kind → Bool) → Bool} {runs runs' : Runs}
    {as : List Alternative} (spelled : Spelled every runs as)
    (grows : Extends runs.bodies runs'.bodies) : Spelled every runs' as :=
  fun ok holds a member => (spelled ok holds a member).mono grows

/-- The last step may get another strength or another side. -/
theorem Spelled.mapLast {every : (Option Kind → Option Kind → Bool) → Bool} {runs : Runs}
    {as : List Alternative} (spelled : Spelled every runs as) (final : Bool) {f : Step → Step}
    (symbol : ∀ s, (f s).symbol = s.symbol) (shown : ∀ s, (f s).shown = s.shown) :
    Spelled every runs (if final then as else as.map (·.mapLast f)) := by
  split
  · exact spelled
  · intro ok holds a member
    obtain ⟨a, listed, rfl⟩ := List.mem_map.mp member
    exact (spelled ok holds a listed).mapLast symbol shown

variable {base : Option Kind → Option Kind → Bool}

mutual

theorem Rule.yields_alternatives {runs : Runs} (sound : runs.Sound base) (around : Step)
    (final : Bool) : ∀ r : Rule, r.every base around.shown →
      (Runs.growth base).Yields runs (r.alternatives around final)
        (Spelled fun ok => r.every ok around.shown)
  | .empty, _ => .pure sound fun ok _ a member s step => by
    cases List.mem_singleton.mp member
    cases step
  | .symbol s, _ => by
    unfold Rule.alternatives
    refine .pure sound fun ok holds a member step among => ?_
    cases List.mem_singleton.mp member
    cases List.mem_singleton.mp among
    cases s with
    | run n => simp [Rule.every] at holds
    | terminal | node | phrase => exact .symbol (by simp) holds
  | .seq rs, holds => by
    unfold Rule.alternatives
    exact Rule.yields_sequences sound around final rs holds
  | .choice rs, holds => by
    unfold Rule.alternatives
    exact Rule.yields_choices sound around final rs holds
  | .many1 r, holds => by
    unfold Rule.alternatives
    have inner := (Bool.and_eq_true_iff.mp holds).2
    -- what is repeated is spelled out first, as if it stood alone, and then gets its symbol
    refine (Rule.yields_alternatives sound default true r inner).bind
      fun runs' body sound' _ spelled => ?_
    refine (Runs.yields_symbol sound' (spelled base inner)).bind
      fun runs'' s sound'' grows ⟨n, same, found⟩ => ?_
    refine .pure sound'' fun ok holds a member step among => ?_
    cases List.mem_singleton.mp member
    cases List.mem_singleton.mp among
    obtain ⟨shown, inner⟩ := Bool.and_eq_true_iff.mp holds
    exact .run same shown found ((spelled.mono grows) ok inner)
  | .strong s r, holds => by
    unfold Rule.alternatives
    exact (Rule.yields_alternatives sound { around with strength := s } final r holds).bind
      fun runs' as sound' _ spelled =>
        .pure sound' (spelled.mapLast final (fun _ => rfl) (fun _ => rfl))
  | .sided s r, holds => by
    unfold Rule.alternatives
    exact (Rule.yields_alternatives sound { around with side := some s } final r holds).bind
      fun runs' as sound' _ spelled =>
        .pure sound' (spelled.mapLast final (fun _ => rfl) (fun _ => rfl))
  | .favoured n r, holds => by
    unfold Rule.alternatives
    refine (Rule.yields_alternatives sound around final r holds).bind
      fun runs' as sound' _ spelled => .pure sound' fun ok holds a member => ?_
    obtain ⟨a, listed, rfl⟩ := List.mem_map.mp member
    exact spelled ok holds a listed
  | .shown k r, holds => by
    unfold Rule.alternatives
    exact Rule.yields_alternatives sound { around with shown := some k } final r holds
  | .field f r, holds => by
    unfold Rule.alternatives
    exact Rule.yields_alternatives sound { around with role := some f } final r holds

theorem Rule.yields_sequences {runs : Runs} (sound : runs.Sound base) (around : Step)
    (final : Bool) : ∀ rs : List Rule, Rule.everyOf base around.shown rs →
      (Runs.growth base).Yields runs (Rule.sequences around final rs)
        (Spelled fun ok => Rule.everyOf ok around.shown rs)
  | [], _ => .pure sound fun ok _ a member s step => by
    cases List.mem_singleton.mp member
    cases step
  | r :: rs, holds => by
    unfold Rule.sequences
    obtain ⟨first, others⟩ := Bool.and_eq_true_iff.mp holds
    refine (Rule.yields_alternatives sound around _ r first).bind
      fun runs' as sound' _ spelled => ?_
    refine (Rule.yields_sequences sound' around final rs others).bind
      fun runs'' bs sound'' grows spelled' => .pure sound'' fun ok holds a member => ?_
    obtain ⟨first, others⟩ := Bool.and_eq_true_iff.mp holds
    obtain ⟨a, listed, rest⟩ := List.mem_flatMap.mp member
    obtain ⟨b, listed', rfl⟩ := List.mem_map.mp rest
    exact ((spelled.mono grows) ok first a listed).append (spelled' ok others b listed')

theorem Rule.yields_choices {runs : Runs} (sound : runs.Sound base) (around : Step)
    (final : Bool) : ∀ rs : List Rule, Rule.everyOf base around.shown rs →
      (Runs.growth base).Yields runs (Rule.choices around final rs)
        (Spelled fun ok => Rule.everyOf ok around.shown rs)
  | [], _ => .pure sound fun ok _ a member => by cases member
  | r :: rs, holds => by
    unfold Rule.choices
    obtain ⟨first, others⟩ := Bool.and_eq_true_iff.mp holds
    refine (Rule.yields_alternatives sound around final r first).bind
      fun runs' as sound' _ spelled => ?_
    refine (Rule.yields_choices sound' around final rs others).bind
      fun runs'' bs sound'' grows spelled' => .pure sound'' fun ok holds a member => ?_
    obtain ⟨first, others⟩ := Bool.and_eq_true_iff.mp holds
    obtain here | there := List.mem_append.mp member
    · exact (spelled.mono grows) ok first a here
    · exact spelled' ok others a there

end

/-! ## Productions -/

/-- Where a production comes from: a rule, and then it has whatever holds of the symbols of the rule,
or a repetition. -/
inductive Production.Origin (g : Grammar) (p : Production) : Prop where
  | rule {rule : Rule} : (p.head, rule) ∈ g.rules →
      (∀ ok, rule.every ok none → p.body.Fits ok g.spelled.2.bodies) → Origin g p
  | run {n : Nat} {body : List Alternative} : p.head = .run n →
      g.spelled.2.bodies[n]? = some body →
      p.body ∈ ⟨[{ symbol := .run n }, { symbol := .run n }], 0⟩ :: body → Origin g p

theorem mem_productionsOf {head : Symbol} {bodies : List Alternative} {p : Production} :
    p ∈ productionsOf head bodies ↔ p.head = head ∧ p.body ∈ bodies := by
  simp only [productionsOf, List.mem_map, mem_distinct]
  constructor
  · rintro ⟨body, listed, rfl⟩
    exact ⟨rfl, listed⟩
  · rintro ⟨rfl, listed⟩
    exact ⟨p.body, listed, rfl⟩

namespace Grammar

variable {g : Grammar} (passes : ∀ r ∈ g.rules, r.2.every base none)
include passes

theorem spelled_spec : g.spelled.2.Sound base ∧ ∀ made ∈ g.spelled.1, ∀ p ∈ made, p.Origin g := by
  have yields : (Runs.growth base).Yields {} (g.rules.mapM spell) fun runs made =>
      ∀ ps ∈ made, ∃ r ∈ g.rules, ∀ p ∈ ps, p.head = r.1 ∧
        ∀ ok, r.2.every ok none → p.body.Fits ok runs.bodies := by
    refine .mapM ⟨by simp, by simp⟩ ?_ fun runs r member sound => ?_
    · intro runs runs' r ps grows holds p listed
      exact ⟨(holds p listed).1, fun ok every => ((holds p listed).2 ok every).mono grows⟩
    · refine (Rule.yields_alternatives sound default true r.2 (passes r member)).bind
        fun runs' bodies sound' _ spelled => .pure sound' fun p listed => ?_
      obtain ⟨head, among⟩ := mem_productionsOf.mp listed
      exact ⟨head, fun ok every => spelled ok every _ among⟩
  refine ⟨yields.sound, fun made listed p member => ?_⟩
  obtain ⟨⟨head, rule⟩, among, holds⟩ := yields.result made listed
  obtain ⟨same, fits⟩ := holds p member
  exact .rule (same ▸ among) fits

theorem origin_of_mem {p : Production} (member : p ∈ g.productions) : p.Origin g := by
  obtain made | repeated := List.mem_append.mp member
  · obtain ⟨ps, listed, among⟩ := List.mem_flatten.mp made
    exact (spelled_spec passes).2 ps listed p among
  · obtain ⟨ps, listed, among⟩ := List.mem_flatten.mp repeated
    obtain ⟨⟨body, n⟩, found, rfl⟩ := List.mem_map.mp listed
    obtain ⟨head, among⟩ := mem_productionsOf.mp among
    refine .run head ?_ among
    rw [← Array.getElem?_toList]
    exact List.mem_zipIdx_iff_getElem?.mp found

end Grammar

end TemplateValues.Syntax
