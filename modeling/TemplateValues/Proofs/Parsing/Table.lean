import TemplateValues.Syntax.Automaton

/-!
# What a table says of its grammar

Symbols and their numbers determine each other (`Table.symbols_number`).  Items are shared between
productions, so an item does not tell what has been read before its place; but with its first symbol
it does: what an opening leads to, item after item, is a production of the grammar (`Table.Lawful`).
-/

namespace TemplateValues.Syntax

/-! ## Lists without repetition -/

theorem mem_foldl_distinct {α : Type} [BEq α] [LawfulBEq α] [Hashable α] (as : List α)
    (seen : Std.HashMap α Unit) (out : List α) (same : ∀ b, b ∈ seen ↔ b ∈ out) (a : α) :
    a ∈ (as.foldl (fun (seen, out) a =>
      if seen.contains a then (seen, out) else (seen.insert a (), a :: out)) (seen, out)).2 ↔
      a ∈ out ∨ a ∈ as := by
  induction as generalizing seen out with
  | nil => simp
  | cons b as ih =>
    rw [List.foldl_cons]
    by_cases old : seen.contains b
    · have listed : b ∈ out := (same b).mp old
      simp only [old, ↓reduceIte, ih seen out same, List.mem_cons]
      constructor
      · rintro (before | later)
        · exact .inl before
        · exact .inr (.inr later)
      · rintro (before | rfl | later)
        · exact .inl before
        · exact .inl listed
        · exact .inr later
    · simp only [old, Bool.false_eq_true, ↓reduceIte]
      rw [ih, List.mem_cons, List.mem_cons, or_assoc, or_left_comm]
      intro c
      rw [Std.HashMap.mem_insert, beq_iff_eq, List.mem_cons, same c, eq_comm]

theorem mem_distinct {α : Type} [BEq α] [LawfulBEq α] [Hashable α] {as : List α} {a : α} :
    a ∈ distinct as ↔ a ∈ as := by
  rw [distinct, List.mem_reverse, mem_foldl_distinct]
  · simp
  · simp

/-! ## Lists that grow -/

def Extends {α : Type} (before after : Array α) : Prop :=
  ∀ (n : Nat) (a : α), before[n]? = some a → after[n]? = some a

theorem extends_push {α : Type} (as : Array α) (a : α) : Extends as (as.push a) := by
  intro n b found
  rw [Array.getElem?_push]
  split
  · rename_i last
    rw [last, Array.getElem?_size] at found
    cases found
  · exact found

namespace Table

/-! ## Numbers of symbols -/

theorem getElem?_foldl_insert {pairs : List (Symbol × Nat)} {m : Std.HashMap Symbol Nat} {s : Symbol}
    {n : Nat} (found : (pairs.foldl (fun m (s, n) => m.insert s n) m)[s]? = some n) :
    (s, n) ∈ pairs ∨ m[s]? = some n := by
  induction pairs generalizing m with
  | nil => exact .inr found
  | cons pair pairs ih =>
    obtain later | here := ih found
    · exact .inl (List.mem_cons_of_mem _ later)
    · rw [Std.HashMap.getElem?_insert] at here
      split at here
      · rename_i same
        cases here
        cases eq_of_beq same
        exact .inl List.mem_cons_self
      · exact .inr here

theorem mem_foldl_insert {pairs : List (Symbol × Nat)} {m : Std.HashMap Symbol Nat} {s : Symbol}
    (member : s ∈ pairs.map Prod.fst ∨ s ∈ m) :
    s ∈ pairs.foldl (fun m (s, n) => m.insert s n) m := by
  induction pairs generalizing m with
  | nil => simpa using member
  | cons pair pairs ih =>
    refine ih ?_
    simp only [List.map_cons, List.mem_cons, Std.HashMap.mem_insert, beq_iff_eq] at member ⊢
    obtain (rfl | later) | old := member
    · exact .inr (.inl rfl)
    · exact .inl later
    · exact .inr (.inr old)

/-- The number of a symbol; symbols that have none get the first one that is free. -/
def numberOf (symbols : Array Symbol) (s : Symbol) : Nat := (numbers symbols).getD s symbols.size

theorem getElem?_numbers {symbols : Array Symbol} {s : Symbol} {n : Nat}
    (found : (numbers symbols)[s]? = some n) : symbols[n]? = some s := by
  obtain listed | absurd := getElem?_foldl_insert found
  · rw [← Array.getElem?_toList]
    exact List.mem_zipIdx_iff_getElem?.mp listed
  · simp at absurd

theorem eq_of_symbols_numberOf {symbols : Array Symbol} {s s' : Symbol}
    (found : symbols[numberOf symbols s]? = some s') : s' = s := by
  rw [numberOf, Std.HashMap.getD_eq_getD_getElem?] at found
  cases number : (numbers symbols)[s]? with
  | none => simp [number] at found
  | some n =>
    rw [number, Option.getD_some, getElem?_numbers number] at found
    exact (Option.some.inj found).symm

theorem symbols_numberOf {symbols : Array Symbol} {s : Symbol} (member : s ∈ symbols) :
    symbols[numberOf symbols s]? = some s := by
  have listed : s ∈ numbers symbols := by
    refine mem_foldl_insert (.inl ?_)
    rw [List.zipIdx_map_fst]
    exact Array.mem_toList_iff.mpr member
  obtain ⟨n, number⟩ := Option.isSome_iff_exists.mp (Std.HashMap.isSome_getElem?_iff_mem.mpr listed)
  rw [numberOf, Std.HashMap.getD_eq_getD_getElem?, number]
  exact getElem?_numbers number

/-! ## Items -/

def Numbered.symbols (p : Numbered) : List Nat := p.steps.map Prod.fst

structure Numbered.Has (p : Numbered) (i : Item) : Prop where
  head : i.head = p.head
  length : i.length = p.steps.length
  showings : i.showings = p.showings

/-- At the item, these symbols of the production are still to come. -/
inductive Awaits (items : Array Item) (p : Numbered) : Nat → List Nat → Prop where
  | done {n i} : items[n]? = some i → p.Has i → i.next = none → Awaits items p n []
  | more {n i s m rest} : items[n]? = some i → p.Has i → i.next = some (s, m) →
      Awaits items p m rest → Awaits items p n (s :: rest)

theorem Awaits.extend {before after : Array Item} {p : Numbered} {n : Nat} {rest : List Nat}
    (awaits : Awaits before p n rest) (grows : Extends before after) : Awaits after p n rest := by
  induction awaits with
  | done found has last => exact .done (grows _ _ found) has last
  | more found has next _ ih => exact .more (grows _ _ found) has next ih

theorem Awaits.lt_size {items : Array Item} {p : Numbered} {n : Nat} {rest : List Nat}
    (awaits : Awaits items p n rest) : n < items.size := by
  cases awaits with
  | done found | more found => exact (Array.getElem?_eq_some_iff.mp found).1

namespace Items

/-- Known items stand where they are known to stand, and items point to items. -/
structure Sound (items : Items) : Prop where
  known : ∀ {i : Item} {n : Nat}, items.known[i]? = some n → items.list[n]? = some i
  next : ∀ {n s m : Nat} {i : Item}, items.list[n]? = some i → i.next = some (s, m) →
    m < items.list.size

theorem sound_empty : ({} : Items).Sound where
  known found := by simp at found
  next found := by simp at found

theorem number_spec (i : Item) {items : Items} (sound : items.Sound)
    (inside : ∀ s m, i.next = some (s, m) → m < items.list.size) :
    (items.number i).2.Sound ∧ Extends items.list (items.number i).2.list ∧
      (items.number i).2.list[(items.number i).1]? = some i := by
  unfold number
  split
  · rename_i n found
    exact ⟨sound, fun _ _ found => found, sound.known found⟩
  · refine ⟨⟨?_, ?_⟩, extends_push _ i, by simp⟩
    · intro j n found
      rw [Std.HashMap.getElem?_insert] at found
      split at found
      · rename_i same
        cases found
        cases eq_of_beq same
        simp
      · exact extends_push _ i _ _ (sound.known found)
    · intro n s m j found next
      rw [Array.getElem?_push] at found
      rw [Array.size_push]
      split at found
      · cases found
        exact Nat.lt_succ_of_lt (inside s m next)
      · exact Nat.lt_succ_of_lt (sound.next found next)

theorem addFrom_spec (p : Numbered) (last : Step) (dot : Nat) (steps : List (Nat × Step))
    {items : Items} (sound : items.Sound) :
    (addFrom p p.showings last dot steps items).2.Sound ∧
      Extends items.list (addFrom p p.showings last dot steps items).2.list ∧
      Awaits (addFrom p p.showings last dot steps items).2.list p
        (addFrom p p.showings last dot steps items).1 (steps.map Prod.fst) := by
  induction steps generalizing last dot items with
  | nil =>
    obtain ⟨sound, grows, found⟩ := number_spec
      ⟨p.head, p.steps.length, p.favour, p.showings, last.strength, last.side, none, dot⟩ sound (by simp)
    exact ⟨sound, grows, .done found ⟨rfl, rfl, rfl⟩ rfl⟩
  | cons step steps ih =>
    obtain ⟨sound, grows, awaits⟩ := ih step.2 (dot + 1) sound
    have inside := awaits.lt_size
    obtain ⟨sound, more, found⟩ := number_spec
      ⟨p.head, p.steps.length, p.favour, p.showings, last.strength, last.side,
        some (step.1, (addFrom p p.showings step.2 (dot + 1) steps items).1), dot⟩ sound (by simp_all)
    refine ⟨sound, fun n i old => more n i (grows n i old), ?_⟩
    exact .more found ⟨rfl, rfl, rfl⟩ rfl (awaits.extend more)

/-- What is opened is opened by a production: its first symbol, what it makes, and an item at which
the rest of it is to come. -/
def Opened (items : Array Item) (ps : List Numbered) (o : Nat × Nat × Nat) : Prop :=
  ∃ p ∈ ps, ∃ step rest, p.steps = (o.1, step) :: rest ∧ p.head = o.2.1 ∧
    Awaits items p o.2.2 (rest.map Prod.fst)

theorem addOpening_spec {p : Numbered} {ps : List Numbered} (member : p ∈ ps)
    {opened : List (Nat × Nat × Nat)} {items : Items} (sound : items.Sound)
    (before : ∀ o ∈ opened, Opened items.list ps o) :
    (items.addOpening p opened).2.Sound ∧
      ∀ o ∈ (items.addOpening p opened).1, Opened (items.addOpening p opened).2.list ps o := by
  cases steps : p.steps with
  | nil => simpa only [addOpening, add, steps] using ⟨sound, before⟩
  | cons first rest =>
    obtain ⟨sound, grows, awaits⟩ := addFrom_spec p first.2 1 rest sound
    simp only [addOpening, add, steps]
    refine ⟨sound, fun o listed => ?_⟩
    obtain rfl | listed := List.mem_cons.mp listed
    · exact ⟨p, member, first.2, rest, steps, rfl, awaits⟩
    · obtain ⟨q, member, step, rest, steps, head, awaits⟩ := before o listed
      exact ⟨q, member, step, rest, steps, head, awaits.extend grows⟩

theorem ofProductions_spec (ps : List Numbered) :
    (ofProductions ps).2.Sound ∧
      ∀ o ∈ (ofProductions ps).1, Opened (ofProductions ps).2.list ps o := by
  refine List.foldlRecOn (motive := fun state : List (Nat × Nat × Nat) × Items =>
    state.2.Sound ∧ ∀ o ∈ state.1, Opened state.2.list ps o) ps _ ⟨sound_empty, by simp⟩ ?_
  intro state holds p member
  exact addOpening_spec member holds.1 holds.2

theorem Sound.apart {items : Items} (sound : items.Sound) {start final : Item}
    (first : ∀ s m, start.next = some (s, m) → m = items.list.size + 1) (last : final.next = none)
    {n s m : Nat} (next : (((items.list.push start).push final).getD n default).next = some (s, m)) :
    n < items.list.size ↔ m < items.list.size := by
  rw [Array.getD_eq_getD_getElem?, Array.getElem?_push, Array.getElem?_push, Array.size_push] at next
  split at next
  · rw [Option.getD_some, last] at next
    cases next
  split at next
  · have := first s m next
    omega
  · cases found : items.list[n]? with
    | none =>
      rw [found] at next
      cases next
    | some i =>
      rw [found] at next
      have inside : n < items.list.size := (Array.getElem?_eq_some_iff.mp found).1
      exact ⟨fun _ => sound.next found next, fun _ => inside⟩

end Items

theorem mem_openingsOf {size : Nat} {opened : List (Nat × Nat × Nat)} {s : Nat} {o : Nat × Nat}
    (member : o ∈ (openingsOf size opened).getD s []) : (s, o) ∈ opened := by
  refine List.foldlRecOn (motive := fun os => ∀ s o, o ∈ Array.getD os s [] → (s, o) ∈ opened)
    (distinct opened) _ ?_ ?_ s o member
  · intro s o absurd
    rw [Array.getD_eq_getD_getElem?, Array.getElem?_replicate] at absurd
    split at absurd <;> simp at absurd
  · intro os before first listed s o member
    have known : first ∈ opened := mem_distinct.mp listed
    rw [Array.getD_eq_getD_getElem?, Array.getElem?_modify] at member
    split at member
    · rename_i same
      subst same
      cases old : os[first.1]? with
      | none => simp [old] at member
      | some list =>
        simp only [old, Option.map_some, Option.getD_some, List.mem_cons] at member
        obtain rfl | member := member
        · exact known
        · exact before _ _ (by rwa [Array.getD_eq_getD_getElem?, old])
    · exact before s o (by rwa [Array.getD_eq_getD_getElem?])

/-! ## The table of a grammar -/

/-- What the automaton relies on: openings are the beginnings of productions, and the items of
productions are apart from the two in front of everything. -/
structure Lawful (t : Table) (ps : List Numbered) : Prop where
  opening : ∀ {s head n : Nat}, (head, n) ∈ t.openings.getD s [] → n < t.origin ∧
    ∃ p ∈ ps, ∃ rest, p.symbols = s :: rest ∧ p.head = head ∧ Awaits t.items p n rest
  apart : ∀ {n s m : Nat}, (t.item n).next = some (s, m) → (n < t.origin ↔ m < t.origin)

end Table

namespace Grammar

variable (g : Grammar)

def symbols : Array Symbol := (Table.numbering g.productions).1

def number : Symbol → Nat := Table.numberOf g.symbols

def numbered : List Table.Numbered := g.productions.map (.ofProduction g.number)

theorem symbols_ofGrammar : (Table.ofGrammar g).symbols = g.symbols := rfl

theorem symbols_pattern (p : Pattern) : g.symbols[p.index]? = some (.terminal (.pattern p)) := by
  have listed : Pattern.all[p.index]? = some p := by cases p <;> rfl
  have inside : p.index < Pattern.all.length := (List.getElem?_eq_some_iff.mp listed).1
  simp only [symbols, Table.numbering, Array.append_assoc]
  rw [Array.getElem?_append_left (by simpa using inside)]
  simp [listed]

theorem symbols_head {p : Production} (member : p ∈ g.productions) :
    g.symbols[g.number p.head]? = some p.head := by
  refine Table.symbols_numberOf ?_
  have listed : p.head ∈ distinct (g.productions.map Production.head) :=
    mem_distinct.mpr (List.mem_map_of_mem member)
  simp [symbols, Table.numbering, listed]

theorem lawful_ofGrammar : (Table.ofGrammar g).Lawful g.numbered := by
  obtain ⟨sound, opened⟩ := Table.Items.ofProductions_spec g.numbered
  refine ⟨?_, ?_⟩
  · intro s head n member
    obtain ⟨p, listed, step, rest, steps, made, awaits⟩ := opened _ (Table.mem_openingsOf member)
    refine ⟨awaits.lt_size, p, listed, rest.map Prod.fst, by simp [Table.Numbered.symbols, steps], made,
      awaits.extend fun n i found => ?_⟩
    exact extends_push _ _ _ _ (extends_push _ _ _ _ found)
  · intro n s m next
    refine sound.apart (fun s m first => ?_) rfl next
    obtain ⟨p, -, same⟩ := Option.map_eq_some_iff.mp first
    cases same
    rfl

end Grammar

end TemplateValues.Syntax
