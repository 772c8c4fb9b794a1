import TemplateValues.Proofs.Parsing.Automaton
import TemplateValues.Syntax.Reading

/-!
# What stands on a stack

On each way down a stack, the states are those that the automaton gets to with the pieces between
them (`Stack.Sound`).  So where a production ends, the pieces below are just what the production asks
for, comments apart (`Stack.Walk.Follows.reads_pieces`), and the piece that is made of them follows
the grammar (`Piece.Made`).
-/

namespace TemplateValues.Syntax

/-! ## Pieces -/

namespace Piece

def symbols (ps : List Piece) : List Nat := (ps.filter fun p => !p.isComment).map symbol

theorem symbols_cons (p : Piece) (ps : List Piece) :
    symbols (p :: ps) = if p.isComment then symbols ps else p.symbol :: symbols ps := by
  cases comment : p.isComment <;> simp [symbols, comment]

theorem symbols_append (ps qs : List Piece) : symbols (ps ++ qs) = symbols ps ++ symbols qs := by
  simp [symbols]

theorem symbols_eq_nil {ps : List Piece} (comments : ∀ p ∈ ps, p.isComment) : symbols ps = [] := by
  simpa [symbols] using comments

/-- A piece that follows the grammar: a comment is the token of a comment, and a production has the
pieces that it asks for, comments apart. -/
inductive Made (ps : List Table.Numbered) : Piece → Prop where
  | leaf {s start after c} :
      (c = true → s = Pattern.comment.index ∨ s = Pattern.htmlComment.index) →
      Made ps (.leaf s start after c)
  | tree {p favour start after pieces} : p ∈ ps → p.symbols = symbols pieces →
      (∀ q ∈ pieces, Made ps q) → Made ps (.tree p.head p.showings favour start after pieces)

end Piece

/-! ## Stacks -/

section

variable (t : Table) (ps : List Table.Numbered) (memo : Memo)

/-- With the piece the automaton gets from the state `q` to the state `q'`; a comment leaves it where
it is. -/
def Piece.Takes (q : Nat) (p : Piece) (q' : Nat) : Prop :=
  if p.isComment then q = q' else memo.Moves t q p.symbol q'

mutual

/-- All states are known, all pieces follow the grammar, and they take the automaton from state to
state. -/
def Stack.Sound : Stack → Prop
  | .mk _ state _ _ _ links => (∃ k, memo.kernel? state = some k) ∧ Links.Sound state links

@[inherit_doc Stack.Sound]
def Links.Sound (state : Nat) : Links → Prop
  | .nil => True
  | .cons below piece rest =>
    Stack.Sound below ∧ piece.Made ps ∧ piece.Takes t memo below.state state ∧ Links.Sound state rest

end

end

variable {t : Table} {ps : List Table.Numbered} {memo memo' : Memo}

theorem Piece.Takes.mono {q q' : Nat} {p : Piece} (takes : p.Takes t memo q q')
    (grows : memo.Grows memo') : p.Takes t memo' q q' := by
  unfold Piece.Takes at takes ⊢
  split
  · rwa [if_pos ‹_›] at takes
  · rw [if_neg ‹_›] at takes
    exact takes.mono grows

/-- Alike pieces take the automaton to the same states. -/
theorem Piece.Takes.of_alike {q q' : Nat} {p p' : Piece} (takes : p.Takes t memo q q')
    (alike : p.alike p') : p'.Takes t memo q q' := by
  simp only [Piece.alike, Bool.and_eq_true, decide_eq_true_eq] at alike
  obtain ⟨⟨⟨⟨symbol, -⟩, -⟩, -⟩, comment⟩ := alike
  rwa [Piece.Takes, ← symbol, ← comment]

mutual

theorem Stack.Sound.mono (grows : memo.Grows memo') :
    ∀ {s : Stack}, s.Sound t ps memo → s.Sound t ps memo'
  | .mk .., ⟨⟨k, known⟩, links⟩ => ⟨⟨k, grows _ k known⟩, Links.Sound.mono grows links⟩

theorem Links.Sound.mono (grows : memo.Grows memo') {q : Nat} :
    ∀ {ls : Links}, ls.Sound t ps memo q → ls.Sound t ps memo' q
  | .nil, _ => trivial
  | .cons .., ⟨below, made, takes, rest⟩ =>
    ⟨below.mono grows, made, takes.mono grows, rest.mono grows⟩

end

namespace Stack

theorem Sound.state {s : Stack} (sound : s.Sound t ps memo) : ∃ k, memo.kernel? s.state = some k := by
  cases s
  exact sound.1

theorem Sound.links {s : Stack} (sound : s.Sound t ps memo) : s.links.Sound t ps memo s.state := by
  cases s
  exact sound.2

theorem Sound.push {s : Stack} (sound : s.Sound t ps memo) {p : Piece} (made : p.Made ps) {q : Nat}
    (known : ∃ k, memo.kernel? q = some k) (takes : p.Takes t memo s.state q) (id : Nat) :
    (s.push id q p).Sound t ps memo :=
  ⟨known, sound, made, takes, trivial⟩

end Stack

namespace Links

theorem Sound.add {q : Nat} {below : Stack} {piece : Piece} (sound : below.Sound t ps memo)
    (made : piece.Made ps) (takes : piece.Takes t memo below.state q) :
    ∀ {ls : Links}, ls.Sound t ps memo q → (ls.add below piece).Sound t ps memo q
  | .nil, _ => ⟨sound, made, takes, trivial⟩
  | .cons .., ⟨first, made', takes', rest⟩ =>
    ⟨first, made', takes', Sound.add sound made takes rest⟩

theorem Sound.of_mem {q : Nat} {s : Stack} {p : Piece} :
    ∀ {ls : Links}, ls.Sound t ps memo q → (s, p) ∈ ls.toList →
      s.Sound t ps memo ∧ p.Made ps ∧ p.Takes t memo s.state q
  | .nil, _, member => by simp [toList] at member
  | .cons .., ⟨below, made, takes, rest⟩, member => by
    obtain same | later := List.mem_cons.mp member
    · cases same
      exact ⟨below, made, takes⟩
    · exact rest.of_mem later

end Links

/-! ## Joining -/

namespace Stack

theorem absorb_sound {join : Stack → Stack} {below : Stack} {piece : Piece} {q : Nat}
    (joins : ∀ s : Stack, s.Sound t ps memo → s.state = below.state →
      (join s).Sound t ps memo ∧ (join s).state = s.state)
    (made : piece.Made ps) (favour : Int) :
    ∀ {ls ls' : Links} {f : Int}, ls.Sound t ps memo q →
      absorb join below piece favour ls = some (ls', f) → ls'.Sound t ps memo q
  | .nil, _, _, _, found => by simp [absorb] at found
  | .cons s p rest, ls', f, ⟨sound, made', takes, others⟩, found => by
    unfold absorb at found
    split at found
    · -- the better one of two alike pieces is kept, on the same stack
      rename_i same
      split at found
      · cases found
        exact ⟨sound, made, takes.of_alike (Bool.and_eq_true_iff.mp same).1, others⟩
      · cases found
        exact ⟨sound, made', takes, others⟩
    · split at found
      · -- the stacks below are joined; they have got to the same state
        rename_i meets
        cases found
        have state : s.state = below.state := by
          simp only [Stack.meets, Bool.and_eq_true, decide_eq_true_eq] at meets
          exact meets.2.1
        obtain ⟨joined, kept⟩ := joins s sound state
        exact ⟨joined, made', by rwa [kept], others⟩
      · obtain ⟨⟨ls, f'⟩, later, same⟩ := Option.map_eq_some_iff.mp found
        cases same
        exact ⟨sound, made', takes, absorb_sound joins made favour others later⟩

mutual

theorem attach_sound {s : Stack} {piece : Piece} (sound : s.Sound t ps memo) (made : piece.Made ps) :
    ∀ {below : Stack}, below.Sound t ps memo → piece.Takes t memo below.state s.state →
      (attach s piece below).Sound t ps memo ∧ (attach s piece below).state = s.state
  | .mk id state here favour depth links, below, takes => by
    unfold attach
    simp only
    split
    · exact ⟨sound, rfl⟩
    · split
      · rename_i ls f found
        refine ⟨⟨sound.state, absorb_sound ?_ made s.favour sound.links found⟩, rfl⟩
        -- what is joined below are the links of `below` itself, so the recursion is on the stack
        intro s' sound' same
        exact attachAll_sound sound' (same ▸ below.2)
      · split
        · exact ⟨⟨sound.state, Links.Sound.add below made takes sound.links⟩, rfl⟩
        · exact ⟨sound, rfl⟩

theorem attachAll_sound {s : Stack} (sound : s.Sound t ps memo) :
    ∀ {ls : Links}, ls.Sound t ps memo s.state →
      (attachAll s ls).Sound t ps memo ∧ (attachAll s ls).state = s.state
  | .nil, _ => ⟨sound, rfl⟩
  | .cons below piece rest, ⟨first, made, takes, others⟩ => by
    unfold attachAll
    obtain ⟨joined, kept⟩ := attach_sound sound made first takes
    obtain ⟨all, same⟩ := attachAll_sound joined (kept.symm ▸ others)
    exact ⟨all, same.trans kept⟩

end

theorem Sound.join {s s' : Stack} (sound : s.Sound t ps memo) (sound' : s'.Sound t ps memo)
    (meets : s.meets s') : (s.join s').Sound t ps memo ∧ (s.join s').state = s.state := by
  simp only [Stack.meets, Bool.and_eq_true, decide_eq_true_eq] at meets
  exact attachAll_sound sound (meets.1 ▸ sound'.links)

/-! ## Ways down -/

/-- A way down from a state with the item `n`.  Either the pieces passed are the last ones that led
from an item of the state below to `n`, or the production of `n` started on the way. -/
structure Walk.Follows (t : Table) (ps : List Table.Numbered) (memo : Memo) (n : Nat) (w : Walk) :
    Prop where
  stack : w.stack.Sound t ps memo
  pieces : ∀ p ∈ w.pieces, p.Made ps
  count : w.count = (Piece.symbols w.pieces).length
  reads : (∃ k e, memo.kernel? w.stack.state = some k ∧ e ∈ k ∧ (t.origin ≤ e.1 → t.origin ≤ n) ∧
      ∀ ss, t.Reads e.1 ss → t.Reads n (ss ++ Piece.symbols w.pieces)) ∨
    ∃ before after, Piece.symbols w.pieces = before ++ after ∧ t.Reads n after

namespace Walk

variable {n : Nat} {w w' : Walk}

theorem follows_start {s : Stack} (sound : s.Sound t ps memo) {k : Kernel} {e : Nat × Nat}
    (known : memo.kernel? s.state = some k) (member : e ∈ k) : Follows t ps memo e.1 ⟨s, [], 0⟩ where
  stack := sound
  pieces := by simp
  count := rfl
  reads := by
    refine .inl ⟨k, e, known, member, fun outside => outside, fun ss reads => ?_⟩
    simpa [Piece.symbols] using reads

theorem Follows.step (lawful : t.Lawful ps) (follows : w.Follows t ps memo n)
    (member : w' ∈ w.steps) : w'.Follows t ps memo n := by
  obtain ⟨⟨s, p⟩, listed, rfl⟩ := List.mem_map.mp member
  obtain ⟨sound, made, takes⟩ := follows.stack.links.of_mem listed
  refine ⟨sound, ?_, ?_, ?_⟩
  · intro q member
    obtain rfl | member := List.mem_cons.mp member
    · exact made
    · exact follows.pieces q member
  · simp only [Piece.symbols_cons, follows.count]
    split <;> simp
  · simp only [Piece.symbols_cons]
    unfold Piece.Takes at takes
    split at takes
    · -- a comment changes neither the state nor the symbols
      rename_i comment
      rw [if_pos comment, takes]
      exact follows.reads
    · rename_i comment
      rw [if_neg comment]
      obtain ⟨k, k', here, there, leads⟩ := takes
      obtain ⟨k₁, e, known, member, apart, reads⟩ | ⟨before, after, same, reads⟩ := follows.reads
      · rw [there] at known
        cases known
        -- either the place was moved over the piece, or the piece is the first one of its production
        obtain ⟨e', member', next⟩ | ⟨head, opened⟩ := leads e member
        · refine .inl ⟨k, e', here, member', fun outside => apart ?_, fun ss reads' => ?_⟩
          · exact Nat.not_lt.mp fun inside =>
              absurd ((lawful.apart next).mpr inside) (Nat.not_lt.mpr outside)
          · simpa using reads _ (reads'.step next)
        · exact .inr ⟨[], _, rfl, reads _ (.opening opened)⟩
      · exact .inr ⟨p.symbol :: before, after, by simp [same], reads⟩

theorem mem_of_mem_turns {α : Type} {gs : List (List α)} {a : α}
    (member : a ∈ gs.filterMap List.head? ++ (gs.map fun g => g.drop 1).flatten) :
    ∃ g ∈ gs, a ∈ g := by
  obtain first | later := List.mem_append.mp member
  · obtain ⟨g, listed, head⟩ := List.mem_filterMap.mp first
    exact ⟨g, listed, List.mem_of_head? head⟩
  · obtain ⟨rest, among, inside⟩ := List.mem_flatten.mp later
    obtain ⟨g, listed, rfl⟩ := List.mem_map.mp among
    exact ⟨g, listed, List.mem_of_mem_drop inside⟩

theorem follows_walk (lawful : t.Lawful ps) {length : Nat} : ∀ {depth : Nat} {ws : List Walk},
    (∀ w ∈ ws, w.Follows t ps memo n) →
      ∀ w ∈ walk length depth ws, w.Follows t ps memo n ∧ w.count = length
  | 0, _, _ => by simp [walk]
  | _ + 1, [], _ => by simp [walk]
  | depth + 1, w₀ :: ws, all => by
    intro w member
    simp only [walk, List.partition_eq_filter_filter] at member
    obtain done | later := List.mem_append.mp member
    · obtain ⟨listed, count⟩ := List.mem_filter.mp done
      exact ⟨all w listed, of_decide_eq_true count⟩
    · refine follows_walk lawful (fun w' member' => ?_) w later
      obtain ⟨steps, listed, step⟩ := mem_of_mem_turns (List.mem_of_mem_take member')
      obtain ⟨above, going, rfl⟩ := List.mem_map.mp listed
      exact (all above (List.mem_filter.mp going).1).step lawful step

/-- At the end of a production, the pieces passed on a way down its length are those of the
production. -/
theorem Follows.reads_pieces (lawful : t.Lawful ps) (sound : memo.Sound t)
    (follows : w.Follows t ps memo n) (inside : n < t.origin) (last : (t.item n).next = none)
    (count : w.count = (t.item n).length) : t.Reads n (Piece.symbols w.pieces) := by
  rw [follows.count] at count
  obtain ⟨k, e, known, member, apart, reads⟩ | ⟨before, after, same, reads⟩ := follows.reads
  · -- then something of the production would have been read below
    exfalso
    obtain ⟨-, ss, reads'⟩ | ⟨outside, -⟩ := sound.kernels known e member
    · have length := lawful.length_of_ended (reads ss reads') last
      rw [List.length_append] at length
      exact reads'.ne_nil (List.eq_nil_of_length_eq_zero (by omega))
    · exact absurd inside (Nat.not_lt.mpr (apart outside))
  · -- the production has as many symbols as pieces were passed, so it started with the lowest one
    have length := lawful.length_of_ended reads last
    rw [same, List.length_append] at count
    have none : before = [] := List.eq_nil_of_length_eq_zero (by omega)
    rwa [same, none, List.nil_append]

end Walk

theorem follows_paths (lawful : t.Lawful ps) {s : Stack} (sound : s.Sound t ps memo) {k : Kernel}
    {e : Nat × Nat} (known : memo.kernel? s.state = some k) (member : e ∈ k) (length : Nat) :
    ∀ w ∈ s.paths length, w.Follows t ps memo e.1 ∧ w.count = length := by
  refine Walk.follows_walk lawful fun w listed => ?_
  cases List.mem_singleton.mp listed
  exact Walk.follows_start sound known member

mutual

/-- The pieces of all ways down follow the grammar. -/
theorem made_readings {above : List Piece} (made : ∀ p ∈ above, p.Made ps) :
    ∀ {s : Stack}, s.Sound t ps memo → ∀ reading ∈ s.readings above, ∀ p ∈ reading, p.Made ps
  | .mk _ _ _ _ _ .nil, _, reading, member => by
    cases List.mem_singleton.mp (by simpa [readings] using member)
    exact made
  | .mk _ _ _ _ _ (.cons s p rest), sound, reading, member =>
    made_readingsOf made sound.2 reading (by simpa [readings] using member)

theorem made_readingsOf {above : List Piece} (made : ∀ p ∈ above, p.Made ps) :
    ∀ {ls : Links} {q : Nat}, ls.Sound t ps memo q →
      ∀ reading ∈ readingsOf above ls, ∀ p ∈ reading, p.Made ps
  | .nil, _, _, reading, member => by simp [readingsOf] at member
  | .cons s p rest, _, ⟨below, made', _, others⟩, reading, member => by
    obtain first | later := List.mem_append.mp (by simpa [readingsOf] using member)
    · exact made_readings (List.forall_mem_cons.mpr ⟨made', made⟩) below reading first
    · exact made_readingsOf made others reading later

end

end Stack

/-! ## Ending productions -/

namespace Reader

theorem splitComments_append (ps : List Piece) : (splitComments ps).1 ++ (splitComments ps).2 = ps := by
  rw [splitComments, ← List.reverse_append, List.takeWhile_append_dropWhile, List.reverse_reverse]

theorem isComment_of_mem_splitComments {ps : List Piece} {p : Piece}
    (member : p ∈ (splitComments ps).2) : p.isComment := by
  rw [splitComments, List.mem_reverse] at member
  exact List.all_eq_true.mp List.all_takeWhile p member

theorem symbols_splitComments (ps : List Piece) :
    Piece.symbols (splitComments ps).1 = Piece.symbols ps := by
  have whole := Piece.symbols_append (splitComments ps).1 (splitComments ps).2
  rw [splitComments_append, Piece.symbols_eq_nil fun p => isComment_of_mem_splitComments,
    List.append_nil] at whole
  exact whole.symm

theorem mem_of_mem_splitComments {ps : List Piece} {p : Piece}
    (member : p ∈ (splitComments ps).1 ∨ p ∈ (splitComments ps).2) : p ∈ ps := by
  rw [← splitComments_append ps]
  exact List.mem_append.mpr member

end Reader

theorem Piece.made_ofItem (lawful : t.Lawful ps) {n : Nat} (last : (t.item n).next = none)
    {pieces : List Piece} (reads : t.Reads n (Piece.symbols pieces)) (made : ∀ p ∈ pieces, p.Made ps)
    (here : Input) : (Piece.ofItem (t.item n) here pieces).Made ps := by
  obtain ⟨p, listed, symbols, has⟩ := lawful.ended reads last
  rw [Piece.ofItem, has.head, has.showings]
  exact .tree listed symbols made

end TemplateValues.Syntax
