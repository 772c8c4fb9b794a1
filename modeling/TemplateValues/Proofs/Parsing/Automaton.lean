import TemplateValues.Proofs.Parsing.Table

/-!
# What the states of the automaton say

An item of a state stands for what has been read of a production (`Table.Reads`), and a move to a
state appends a symbol to it or opens a production (`Kernel.Leads`).  The states, moves and decisions
that a `Memo` keeps are all of this kind (`Memo.Sound`), and none of them is ever lost or changed, so
what is known of a state goes on to hold while a text is read.
-/

namespace TemplateValues.Syntax

/-! ## Computations whose state grows -/

/-- States that only grow: what is sound about them, and when one of them has all of another. -/
structure Growth (σ : Type) where
  Sound : σ → Prop
  Grows : σ → σ → Prop
  refl : ∀ s, Grows s s
  trans : ∀ {s t u}, Grows s t → Grows t u → Grows s u

namespace Growth

variable {σ α β : Type} {g : Growth σ}

/-- From the state `s` the computation gets to a sound state that has all of `s`, with a result as
stated. -/
structure Yields (g : Growth σ) (s : σ) (m : StateM σ α) (post : σ → α → Prop) : Prop where
  sound : g.Sound (m.run s).2
  grows : g.Grows s (m.run s).2
  result : post (m.run s).2 (m.run s).1

namespace Yields

variable {s : σ} {m : StateM σ α} {post post' : σ → α → Prop}

theorem of_run {s' : σ} {a : α} (run : m.run s = (a, s')) (sound : g.Sound s') (grows : g.Grows s s')
    (result : post s' a) : g.Yields s m post := by
  refine ⟨?_, ?_, ?_⟩ <;> rwa [run]

theorem pure {a : α} (sound : g.Sound s) (result : post s a) : g.Yields s (pure a) post :=
  ⟨sound, g.refl s, result⟩

theorem imp (yields : g.Yields s m post)
    (weaker : ∀ s' a, g.Sound s' → g.Grows s s' → post s' a → post' s' a) : g.Yields s m post' :=
  ⟨yields.sound, yields.grows, weaker _ _ yields.sound yields.grows yields.result⟩

theorem bind {f : α → StateM σ β} {last : σ → β → Prop} (yields : g.Yields s m post)
    (next : ∀ s' a, g.Sound s' → g.Grows s s' → post s' a → g.Yields s' (f a) last) :
    g.Yields s (m >>= f) last := by
  obtain ⟨sound, grows, result⟩ := next _ _ yields.sound yields.grows yields.result
  exact ⟨sound, g.trans yields.grows grows, result⟩

theorem get_bind {f : σ → StateM σ β} {last : σ → β → Prop} (next : g.Yields s (f s) last) :
    g.Yields s (get >>= f) last :=
  ⟨next.sound, next.grows, next.result⟩

theorem modify_bind {h : σ → σ} {f : Unit → StateM σ β} {last : σ → β → Prop}
    (grows : g.Grows s (h s)) (next : g.Yields (h s) (f ()) last) :
    g.Yields s (modify h >>= f) last :=
  ⟨next.sound, g.trans grows next.grows, next.result⟩

theorem map {f : α → β} {last : σ → β → Prop} (yields : g.Yields s m post)
    (weaker : ∀ s' a, g.Sound s' → g.Grows s s' → post s' a → last s' (f a)) :
    g.Yields s (f <$> m) last :=
  ⟨yields.sound, yields.grows, weaker _ _ yields.sound yields.grows yields.result⟩

theorem foldlM {f : β → α → StateM σ β} {P : σ → β → Prop} {as : List α} {b : β}
    (sound : g.Sound s) (start : P s b)
    (step : ∀ s' b a, a ∈ as → g.Sound s' → g.Grows s s' → P s' b → g.Yields s' (f b a) P) :
    g.Yields s (as.foldlM f b) P := by
  induction as generalizing s b with
  | nil => exact .pure sound start
  | cons a as ih =>
    rw [List.foldlM_cons]
    refine (step s b a List.mem_cons_self sound (g.refl s) start).bind fun s' b' sound grows now => ?_
    exact ih sound now fun s'' b a member sound more holds =>
      step s'' b a (List.mem_cons_of_mem _ member) sound (g.trans grows more) holds

theorem mapM {f : α → StateM σ β} {P : σ → α → β → Prop} {as : List α} (sound : g.Sound s)
    (mono : ∀ {s s' a b}, g.Grows s s' → P s a b → P s' a b)
    (each : ∀ s' a, a ∈ as → g.Sound s' → g.Yields s' (f a) fun s'' b => P s'' a b) :
    g.Yields s (as.mapM f) fun s' bs => ∀ b ∈ bs, ∃ a ∈ as, P s' a b := by
  induction as generalizing s with
  | nil => exact .pure sound (by simp)
  | cons a as ih =>
    rw [List.mapM_cons]
    refine (each s a List.mem_cons_self sound).bind fun s' b sound' _ first => ?_
    refine (ih sound' fun s' a member => each s' a (List.mem_cons_of_mem _ member)).bind
      fun s'' bs sound'' grows others => .pure sound'' fun b' member => ?_
    obtain rfl | member := List.mem_cons.mp member
    · exact ⟨a, List.mem_cons_self, mono grows first⟩
    · obtain ⟨a', listed, holds⟩ := others b' member
      exact ⟨a', List.mem_cons_of_mem _ listed, holds⟩

end Yields

end Growth

/-! ## Items -/

namespace Table

variable {t : Table} {ps : List Numbered}

/-- The symbols that a production has had when it has come to an item. -/
inductive Reads (t : Table) : Nat → List Nat → Prop where
  | opening {s head n} : (head, n) ∈ t.openings.getD s [] → Reads t n [s]
  | step {m n s ss} : Reads t m ss → (t.item m).next = some (s, n) → Reads t n (ss ++ [s])

theorem Reads.ne_nil {n : Nat} {ss : List Nat} (reads : t.Reads n ss) : ss ≠ [] := by
  cases reads <;> simp

theorem item_eq {n : Nat} {i : Item} (found : t.items[n]? = some i) : t.item n = i := by
  rw [item, Array.getD_eq_getD_getElem?, found, Option.getD_some]

namespace Lawful

variable (lawful : t.Lawful ps)
include lawful

theorem production {n : Nat} {ss : List Nat} (reads : t.Reads n ss) :
    n < t.origin ∧ ∃ p ∈ ps, ∃ rest, p.symbols = ss ++ rest ∧ Awaits t.items p n rest := by
  induction reads with
  | opening member =>
    obtain ⟨inside, p, listed, rest, symbols, -, awaits⟩ := lawful.opening member
    exact ⟨inside, p, listed, rest, symbols, awaits⟩
  | step _ next ih =>
    obtain ⟨inside, p, listed, rest, symbols, awaits⟩ := ih
    refine ⟨(lawful.apart next).mp inside, p, listed, ?_⟩
    -- there is a next symbol, so the production is not at its end yet
    cases awaits with
    | done found _ last =>
      rw [item_eq found, last] at next
      cases next
    | more found _ next' awaits =>
      rw [item_eq found, next'] at next
      cases next
      exact ⟨_, by simp [symbols], awaits⟩

/-- Where a production ends, all its symbols have been read. -/
theorem ended {n : Nat} {ss : List Nat} (reads : t.Reads n ss) (last : (t.item n).next = none) :
    ∃ p ∈ ps, p.symbols = ss ∧ p.Has (t.item n) := by
  obtain ⟨-, p, listed, rest, symbols, awaits⟩ := lawful.production reads
  cases awaits with
  | done found has _ => exact ⟨p, listed, by simpa using symbols, by rwa [item_eq found]⟩
  | more found _ next _ =>
    rw [item_eq found, next] at last
    cases last

theorem length_of_ended {n : Nat} {ss : List Nat} (reads : t.Reads n ss)
    (last : (t.item n).next = none) : ss.length = (t.item n).length := by
  obtain ⟨p, -, symbols, has⟩ := lawful.ended reads last
  rw [has.length, ← symbols, Numbered.symbols, List.length_map]

end Lawful

end Table

/-! ## Kernels -/

namespace Kernel

variable {t : Table} {ps : List Table.Numbered}

/-- An entry of a kernel is an item at which some symbols of a production have been read, or it stands
for the whole text, which only the end of the text may follow. -/
def Genuine (t : Table) (e : Nat × Nat) : Prop :=
  (e.1 < t.origin ∧ ∃ ss, t.Reads e.1 ss) ∨
    (t.origin ≤ e.1 ∧ e.2 = 1 <<< Pattern.endOfText.index)

/-- Each item of the second kernel is behind the symbol `s`: at an item of the first kernel, or as
the first symbol of a production. -/
def Leads (t : Table) (k : Kernel) (s : Nat) (k' : Kernel) : Prop :=
  ∀ e' ∈ k', (∃ e ∈ k, (t.item e.1).next = some (s, e'.1)) ∨
    ∃ head, (head, e'.1) ∈ t.openings.getD s []

theorem mem_joinEqual {k : Kernel} {e : Nat × Nat} (member : e ∈ Table.joinEqual k) :
    ∃ e' ∈ k, e'.1 = e.1 := by
  fun_induction Table.joinEqual k with
  | case1 a m b rest ih =>
    obtain ⟨e', listed, same⟩ := ih member
    obtain rfl | listed := List.mem_cons.mp listed
    · exact ⟨(m, a), List.mem_cons_self, same⟩
    · exact ⟨e', by simp [listed], same⟩
  | case2 m a n b rest _ ih =>
    obtain rfl | member := List.mem_cons.mp member
    · exact ⟨(m, a), List.mem_cons_self, rfl⟩
    · obtain ⟨e', listed, same⟩ := ih member
      exact ⟨e', List.mem_cons_of_mem _ listed, same⟩
  | case3 => exact ⟨e, member, rfl⟩

theorem genuine_joinEqual {k : Kernel} (genuine : ∀ e ∈ k, Genuine t e) :
    ∀ e ∈ Table.joinEqual k, Genuine t e := by
  fun_induction Table.joinEqual k with
  | case1 a m b rest ih =>
    refine ih fun e member => ?_
    obtain rfl | member := List.mem_cons.mp member
    · obtain inside | ⟨outside, first⟩ := genuine (m, a) List.mem_cons_self
      · exact .inl inside
      · -- what may follow is joined, and it is the end of the text for both
        obtain ⟨inside, -⟩ | ⟨-, second⟩ := genuine (m, b) (by simp)
        · exact absurd inside (Nat.not_lt.mpr outside)
        · exact .inr ⟨outside, by simp_all⟩
    · exact genuine e (by simp [member])
  | case2 m a n b rest _ ih =>
    intro e member
    obtain rfl | member := List.mem_cons.mp member
    · exact genuine _ List.mem_cons_self
    · exact ih (fun e member => genuine e (List.mem_cons_of_mem _ member)) e member
  | case3 => exact genuine

/-- The entries behind a symbol, before equal ones are joined: a place is moved, and what may follow
stays, or a production is opened. -/
theorem exists_kernelBehind (t : Table) (q : State) (s : Nat) :
    ∃ k, t.kernelBehind q s = Table.joinEqual k ∧ ∀ e' ∈ k,
      (∃ e ∈ q.kernel, (t.item e.1).next = some (s, e'.1) ∧ e'.2 = e.2) ∨
        ∃ head, (head, e'.1) ∈ t.openings.getD s [] := by
  refine ⟨_, rfl, fun e' member => ?_⟩
  obtain moved | opened := List.mem_append.mp (List.mem_mergeSort.mp member)
  · obtain ⟨⟨n, after⟩, before, step⟩ := List.mem_filterMap.mp moved
    refine .inl ⟨(n, after), before, ?_⟩
    cases next : (t.item n).next with
    | none => simp [next] at step
    | some behind =>
      simp only [next] at step
      split at step
      · rename_i here
        cases step
        exact ⟨by rw [← here], rfl⟩
      · cases step
  · obtain ⟨⟨head, n⟩, here, first⟩ := List.mem_filterMap.mp opened
    refine .inr ⟨head, ?_⟩
    simp only at first
    split at first
    · cases first
    · cases first
      exact here

theorem leads_kernelBehind (t : Table) (q : State) (s : Nat) :
    Leads t q.kernel s (t.kernelBehind q s) := by
  obtain ⟨k, same, entries⟩ := exists_kernelBehind t q s
  intro e' member
  rw [same] at member
  obtain ⟨e, listed, place⟩ := mem_joinEqual member
  rw [← place]
  obtain ⟨e₀, before, next, -⟩ | opened := entries e listed
  · exact .inl ⟨e₀, before, next⟩
  · exact .inr opened

theorem genuine_kernelBehind (lawful : t.Lawful ps) {q : State} {s : Nat}
    (genuine : ∀ e ∈ q.kernel, Genuine t e) : ∀ e ∈ t.kernelBehind q s, Genuine t e := by
  obtain ⟨k, same, entries⟩ := exists_kernelBehind t q s
  rw [same]
  refine genuine_joinEqual fun e listed => ?_
  obtain ⟨e₀, before, next, follows⟩ | ⟨head, opened⟩ := entries e listed
  · obtain ⟨inside, ss, reads⟩ | ⟨outside, last⟩ := genuine e₀ before
    · exact .inl ⟨(lawful.apart next).mp inside, _, reads.step next⟩
    · refine .inr ⟨Nat.not_lt.mp fun inside => ?_, follows.trans last⟩
      exact absurd ((lawful.apart next).mpr inside) (Nat.not_lt.mpr outside)
  · exact .inl ⟨(lawful.opening opened).1, _, .opening opened⟩

end Kernel

/-! ## The memo -/

namespace Memo

variable {t : Table} {ps : List Table.Numbered} {memo memo' : Memo}

def kernel? (memo : Memo) (q : Nat) : Option Kernel := memo.states[q]?.map State.kernel

def Grows (memo memo' : Memo) : Prop :=
  ∀ (q : Nat) (k : Kernel), memo.kernel? q = some k → memo'.kernel? q = some k

def Moves (t : Table) (memo : Memo) (q s q' : Nat) : Prop :=
  ∃ k k', memo.kernel? q = some k ∧ memo.kernel? q' = some k' ∧ Kernel.Leads t k s k'

/-- The decision ends productions that are at their end in the state `q`, and reads the terminal `s`
as the automaton does. -/
structure Decided (t : Table) (memo : Memo) (q s : Nat) (d : Decision) : Prop where
  reduce : ∀ n ∈ d.reduce, n < t.origin ∧ (t.item n).next = none ∧
    ∃ k, memo.kernel? q = some k ∧ ∃ e ∈ k, e.1 = n
  shift : ∀ q', d.shift = some q' → memo.Moves t q s q'

structure Sound (t : Table) (memo : Memo) : Prop where
  kernels : ∀ {q : Nat} {k : Kernel}, memo.kernel? q = some k → ∀ e ∈ k, Kernel.Genuine t e
  numbers : ∀ {k : Kernel} {q : Nat}, memo.numbers[k]? = some q → memo.kernel? q = some k
  moves : ∀ {q s q' : Nat}, memo.moves[(q, s)]? = some (some q') → memo.Moves t q s q'
  decisions : ∀ {q s : Nat} {d : Decision}, memo.decisions[(q, s)]? = some d → memo.Decided t q s d

theorem Moves.mono {q s q' : Nat} (moves : memo.Moves t q s q') (grows : memo.Grows memo') :
    memo'.Moves t q s q' := by
  obtain ⟨k, k', here, there, leads⟩ := moves
  exact ⟨k, k', grows q k here, grows q' k' there, leads⟩

theorem Decided.mono {q s : Nat} {d : Decision} (decided : memo.Decided t q s d)
    (grows : memo.Grows memo') : memo'.Decided t q s d where
  reduce n member := by
    obtain ⟨inside, last, k, here, listed⟩ := decided.reduce n member
    exact ⟨inside, last, k, grows q k here, listed⟩
  shift q' found := (decided.shift q' found).mono grows

def growth (t : Table) : Growth Memo where
  Sound := Sound t
  Grows := Grows
  refl _ _ _ known := known
  trans first second q k known := second q k (first q k known)

theorem sound_empty (t : Table) : ({} : Memo).Sound t where
  kernels known := by simp [kernel?] at known
  numbers known := by simp at known
  moves known := by simp at known
  decisions known := by simp at known

/-- What is kept may be added to. -/
theorem Sound.extend (sound : memo.Sound t) (grows : memo.Grows memo')
    (kernels : ∀ {q : Nat} {k : Kernel}, memo'.kernel? q = some k → ∀ e ∈ k, Kernel.Genuine t e)
    (numbers : ∀ {k : Kernel} {q : Nat}, memo'.numbers[k]? = some q →
      memo.numbers[k]? = some q ∨ memo'.kernel? q = some k)
    (moves : ∀ {q s q' : Nat}, memo'.moves[(q, s)]? = some (some q') →
      memo.moves[(q, s)]? = some (some q') ∨ memo'.Moves t q s q')
    (decisions : ∀ {q s : Nat} {d : Decision}, memo'.decisions[(q, s)]? = some d →
      memo.decisions[(q, s)]? = some d ∨ memo'.Decided t q s d) : memo'.Sound t where
  kernels := kernels
  numbers known := (numbers known).elim (fun old => grows _ _ (sound.numbers old)) id
  moves known := (moves known).elim (fun old => (sound.moves old).mono grows) id
  decisions known := (decisions known).elim (fun old => (sound.decisions old).mono grows) id

def withState (memo : Memo) (t : Table) (k : Kernel) : Memo :=
  { memo with
    states := memo.states.push (t.stateOf k)
    numbers := memo.numbers.insert k memo.states.size }

theorem kernel?_withState (k : Kernel) (q : Nat) :
    (memo.withState t k).kernel? q = if q = memo.states.size then some k else memo.kernel? q := by
  simp only [kernel?, withState, Array.getElem?_push]
  split <;> rfl

theorem grows_withState (k : Kernel) : memo.Grows (memo.withState t k) := by
  intro q k' known
  obtain ⟨state, found, -⟩ := Option.map_eq_some_iff.mp known
  have inside : q < memo.states.size := (Array.getElem?_eq_some_iff.mp found).1
  rw [kernel?_withState, if_neg (by omega), known]

theorem Sound.withState (sound : memo.Sound t) {k : Kernel} (genuine : ∀ e ∈ k, Kernel.Genuine t e) :
    (memo.withState t k).Sound t := by
  refine sound.extend (grows_withState k) ?_ ?_ .inl .inl
  · intro q k' known
    rw [kernel?_withState] at known
    split at known
    · cases known
      exact genuine
    · exact sound.kernels known
  · intro k' q known
    rw [Memo.withState, Std.HashMap.getElem?_insert] at known
    split at known
    · rename_i same
      cases known
      cases eq_of_beq same
      exact .inr (by simp [kernel?_withState])
    · exact .inl known

theorem yields_number (sound : memo.Sound t) {k : Kernel} (genuine : ∀ e ∈ k, Kernel.Genuine t e) :
    (growth t).Yields memo (t.number k) fun memo' q => memo'.kernel? q = some k := by
  cases known : memo.numbers[k]? with
  | some q =>
    have run : (t.number k).run memo = (q, memo) := by simp [StateT.run, Table.number, known]
    exact .of_run run sound ((growth t).refl memo) (sound.numbers known)
  | none =>
    have run : (t.number k).run memo = (memo.states.size, memo.withState t k) := by
      simp [StateT.run, Table.number, known, Memo.withState]
    exact .of_run run (sound.withState genuine) (grows_withState k) (by simp [kernel?_withState])

theorem kernel_of_kernel? {q : Nat} {k : Kernel} (known : memo.kernel? q = some k) :
    (memo.states.getD q default).kernel = k := by
  obtain ⟨state, found, same⟩ := Option.map_eq_some_iff.mp known
  rw [Array.getD_eq_getD_getElem?, found, Option.getD_some, same]

theorem yields_start (sound : memo.Sound t) :
    (growth t).Yields memo t.start fun memo' q => ∃ k, memo'.kernel? q = some k := by
  refine (yields_number sound fun e member => ?_).imp fun _ _ _ _ known => ⟨_, known⟩
  cases List.mem_singleton.mp member
  exact .inr ⟨Nat.le_refl _, rfl⟩

theorem Sound.withMove (sound : memo.Sound t) {q s : Nat} {there : Option Nat}
    (moves : ∀ q', there = some q' → memo.Moves t q s q') :
    ({ memo with moves := memo.moves.insert (q, s) there } : Memo).Sound t := by
  refine sound.extend (fun _ _ known => known) sound.kernels .inl ?_ .inl
  intro q₀ s₀ q' known
  rw [Std.HashMap.getElem?_insert] at known
  split at known
  · rename_i same
    cases known
    cases eq_of_beq same
    exact .inr (moves q' rfl)
  · exact .inl known

theorem yields_move (lawful : t.Lawful ps) (sound : memo.Sound t) {q s : Nat} {k : Kernel}
    (here : memo.kernel? q = some k) :
    (growth t).Yields memo (t.move q s) fun memo' there =>
      ∀ q', there = some q' → memo'.Moves t q s q' := by
  refine .get_bind ?_
  cases known : memo.moves[(q, s)]? with
  | some there =>
    refine .pure sound fun q' found => sound.moves ?_
    rw [known, found]
  | none =>
    -- the state is looked up in the memo as it is
    refine .get_bind ?_
    have kept : (memo.states.getD q default).kernel = k := kernel_of_kernel? here
    have keep (memo' : Memo) (there : Option Nat) (sound : memo'.Sound t)
        (moves : ∀ q', there = some q' → memo'.Moves t q s q') :
        (growth t).Yields memo' (do
          modify fun memo => { memo with moves := memo.moves.insert (q, s) there }
          return there) fun memo' there => ∀ q', there = some q' → memo'.Moves t q s q' :=
      .modify_bind (fun _ _ known => known) (.pure (sound.withMove moves) moves)
    cases behind : t.kernelBehind (memo.states.getD q default) s with
    | nil => exact keep memo none sound (by simp)
    | cons e rest =>
      have genuine := Kernel.genuine_kernelBehind lawful (q := memo.states.getD q default) (s := s)
        (kept ▸ sound.kernels here)
      have leads := Kernel.leads_kernelBehind t (memo.states.getD q default) s
      rw [behind] at genuine leads
      rw [kept] at leads
      refine ((yields_number sound genuine).map (f := some)
        fun memo' q₁ _ grows there q' found => ?_).bind fun memo' there sound _ => keep memo' there sound
      cases found
      exact ⟨k, e :: rest, grows q k here, there, leads⟩

end Memo

/-! ## Decisions -/

namespace Table

variable {t : Table} {ps : List Numbered}

theorem mem_add_items {e : Endings} {n m : Nat} (member : m ∈ (e.add t n).items) :
    m ∈ e.items ∨ m = n := by
  simp only [Endings.add] at member
  split at member
  · simp_all
  · split at member
    · simp_all
    · simpa using member
    · exact .inl member

theorem mem_endings_items {kernel : Kernel} {s n : Nat} (member : n ∈ (t.endings kernel s).items) :
    n ∈ t.ending kernel s := by
  refine List.foldlRecOn (motive := fun e : Endings => n ∈ e.items → n ∈ t.ending kernel s)
    (t.ending kernel s) _ (by simp) (fun e before m listed here => ?_) member
  obtain old | rfl := mem_add_items here
  · exact before old
  · exact listed

theorem settle_spec (kernel : Kernel) (s : Nat) (behind : Option Nat) :
    ((t.settle kernel s behind).reduce = [] ∨
      (t.settle kernel s behind).reduce = (t.endings kernel s).items) ∧
    ((t.settle kernel s behind).shift = none ∨ (t.settle kernel s behind).shift = behind) := by
  simp only [settle]
  split
  · simp
  · simp
  · split
    · simp
    · repeat' split
      all_goals simp

theorem mem_ending {kernel : Kernel} {s n : Nat} (member : n ∈ t.ending kernel s) :
    (t.item n).next = none ∧ ∃ e ∈ kernel, e.1 = n ∧ has e.2 s := by
  obtain ⟨⟨m, after⟩, listed, ends⟩ := List.mem_filterMap.mp member
  simp only [Bool.and_eq_true, Option.isNone_iff_eq_none] at ends
  split at ends
  · rename_i both
    cases ends
    exact ⟨both.1, (_, after), listed, rfl, both.2⟩
  · cases ends

/-- A production that ends before a terminal is one of the grammar, unless the whole text has been
read. -/
theorem lt_origin_of_mem_ending {kernel : Kernel} (genuine : ∀ e ∈ kernel, Kernel.Genuine t e)
    {s n : Nat} (member : n ∈ t.ending kernel s)
    (going : ¬ (s = Pattern.endOfText.index ∧ t.isDone kernel)) : n < t.origin := by
  obtain ⟨-, e, listed, rfl, follows⟩ := mem_ending member
  obtain ⟨inside, -⟩ | ⟨outside, last⟩ := genuine e listed
  · exact inside
  · -- the item stands for the whole text, and only the end of the text may follow it
    refine absurd ⟨?_, ?_⟩ going
    · rw [has, last, Nat.one_shiftLeft, Nat.testBit_two_pow] at follows
      exact (of_decide_eq_true follows).symm
    · exact List.any_eq_true.mpr ⟨e, listed, by simpa using outside⟩

end Table

namespace Memo

variable {t : Table} {ps : List Table.Numbered} {memo : Memo}

theorem Sound.withDecision (sound : memo.Sound t) {q s : Nat} {d : Decision}
    (decided : memo.Decided t q s d) :
    ({ memo with decisions := memo.decisions.insert (q, s) d } : Memo).Sound t := by
  refine sound.extend (fun _ _ known => known) sound.kernels .inl .inl ?_
  intro q₀ s₀ d₀ known
  rw [Std.HashMap.getElem?_insert] at known
  split at known
  · rename_i same
    cases known
    cases eq_of_beq same
    exact .inr (decided.mono fun _ _ known => known)
  · exact .inl known

theorem yields_decide (lawful : t.Lawful ps) (sound : memo.Sound t) {q s : Nat} {k : Kernel}
    (here : memo.kernel? q = some k) :
    (growth t).Yields memo (t.decide q s) fun memo' d => memo'.Decided t q s d := by
  refine .get_bind ?_
  cases known : memo.decisions[(q, s)]? with
  | some d => exact .pure sound (sound.decisions known)
  | none =>
    refine .get_bind ?_
    have kept : (memo.states.getD q default).kernel = k := kernel_of_kernel? here
    have keep (memo' : Memo) (d : Decision) (sound : memo'.Sound t) (decided : memo'.Decided t q s d) :
        (growth t).Yields memo' (do
          modify fun memo => { memo with decisions := memo.decisions.insert (q, s) d }
          return d) fun memo' d => memo'.Decided t q s d :=
      .modify_bind (fun _ _ known => known) (.pure (sound.withDecision decided)
        (decided.mono fun _ _ known => known))
    simp only [kept]
    split
    · exact keep memo _ sound ⟨by simp, by simp⟩
    · rename_i going
      refine ((yields_move lawful sound here).map (f := t.settle k s)
        fun memo' behind _ grows moves => ?_).bind fun memo' d sound _ => keep memo' d sound
      obtain ⟨reduce, shift⟩ := Table.settle_spec (t := t) k s behind
      refine ⟨fun n member => ?_, fun q' found => ?_⟩
      · have ends : n ∈ t.ending k s := by
          obtain none | strongest := reduce
          · simp [none] at member
          · exact Table.mem_endings_items (strongest ▸ member)
        obtain ⟨last, e, listed, place, -⟩ := Table.mem_ending ends
        refine ⟨Table.lt_origin_of_mem_ending (sound.kernels here) ends (by simpa using going), last,
          k, grows q k here, e, listed, place⟩
      · obtain none | same := shift
        · simp [none] at found
        · exact moves q' (same ▸ found)

end Memo

end TemplateValues.Syntax
