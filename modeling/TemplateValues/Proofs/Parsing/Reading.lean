import Mathlib.Data.List.TakeDrop
import TemplateValues.Proofs.Parsing.Stack

/-!
# What a reading is made of

All versions of a reading stay sound, whatever steps are taken, given up or joined, and the reading
of a whole text is made of pieces that follow the grammar (`Reader.yields_start`).  Each function of
a reader has one lemma for its step, and these are put together along the rounds.
-/

namespace TemplateValues.Syntax

variable {t : Table} {ps : List Table.Numbered} {memo memo' : Memo}

/-- The pieces of the file follow the grammar, and they are shown as a production shows them or as
they are. -/
inductive Piece.Whole (ps : List Table.Numbered) : Piece → Prop where
  | mk {head showings favour start after pieces} : (∀ q ∈ pieces, q.Made ps) →
      (showings = [] ∨ ∃ p ∈ ps, p.showings = showings) →
      Whole ps (.tree head showings favour start after pieces)

def Version.AllSound (t : Table) (ps : List Table.Numbered) (memo : Memo) (vs : Array Version) :
    Prop := ∀ v ∈ vs, v.stack.Sound t ps memo

structure Progress.Sound (t : Table) (ps : List Table.Numbered) (memo : Memo) (p : Progress) :
    Prop where
  versions : Version.AllSound t ps memo p.versions
  finished : ∀ file, p.finished = some file → file.Whole ps

theorem Version.AllSound.mono {vs : Array Version} (all : AllSound t ps memo vs)
    (grows : memo.Grows memo') : AllSound t ps memo' vs :=
  fun v member => (all v member).mono grows

theorem Version.AllSound.erase {vs : Array Version} (all : AllSound t ps memo vs) (l : Nat) :
    AllSound t ps memo (vs.eraseIdxIfInBounds l) := by
  intro v member
  rw [← Array.mem_toList_iff, Array.toList_eraseIdxIfInBounds] at member
  exact all v (Array.mem_toList_iff.mp (List.mem_of_mem_eraseIdx member))

theorem Progress.Sound.mono {p : Progress} (sound : p.Sound t ps memo) (grows : memo.Grows memo') :
    p.Sound t ps memo' :=
  ⟨sound.versions.mono grows, sound.finished⟩

namespace Reader

/-! ## Single steps -/

theorem yields_pushed (sound : memo.Sound t) {s : Stack} (stack : s.Sound t ps memo) {p : Piece}
    (made : p.Made ps) {q : Nat} (known : ∃ k, memo.kernel? q = some k)
    (takes : p.Takes t memo s.state q) :
    (Memo.growth t).Yields memo (pushed s q p) fun memo' top =>
      top.Sound t ps memo' ∧ top.state = q := by
  have grows : memo.Grows { memo with made := memo.made + 1 } := fun _ _ known => known
  exact .of_run rfl (sound.extend grows sound.kernels .inl .inl .inl) grows
    ⟨(stack.push made known takes memo.made).mono grows, rfl⟩

theorem mem_of_mem_addWalk {w w' : Stack.Walk} {gs : List (List Stack.Walk)} {g : List Stack.Walk}
    (listed : g ∈ addWalk w gs) (member : w' ∈ g) : w' = w ∨ ∃ g ∈ gs, w' ∈ g := by
  induction gs with
  | nil =>
    cases List.mem_singleton.mp listed
    exact .inl (List.mem_singleton.mp member)
  | cons g₀ gs ih =>
    rw [addWalk] at listed
    split at listed
    · obtain rfl | listed := List.mem_cons.mp listed
      · obtain old | new := List.mem_append.mp member
        · exact .inr ⟨g₀, List.mem_cons_self, old⟩
        · exact .inl (List.mem_singleton.mp new)
      · exact .inr ⟨g, List.mem_cons_of_mem _ listed, member⟩
    · obtain rfl | listed := List.mem_cons.mp listed
      · exact .inr ⟨g, List.mem_cons_self, member⟩
      · obtain new | ⟨g', listed, old⟩ := ih listed
        · exact .inl new
        · exact .inr ⟨g', List.mem_cons_of_mem _ listed, old⟩

theorem mem_of_mem_groups {ws : List Stack.Walk} {g : List Stack.Walk} {w : Stack.Walk}
    (listed : g ∈ ws.foldl (fun gs w => addWalk w gs) []) (member : w ∈ g) : w ∈ ws := by
  refine List.foldlRecOn (motive := fun gs => ∀ g ∈ gs, w ∈ g → w ∈ ws) ws _ (by simp) ?_ g listed
    member
  intro gs before w' among g listed member
  obtain rfl | ⟨g', listed, old⟩ := mem_of_mem_addWalk listed member
  · exact among
  · exact before g' listed old

theorem exists_of_bestPiece {i : Item} {here : Input} {ws : List Stack.Walk} {piece : Piece}
    {comments : List Piece} (best : bestPiece i here ws = some (piece, comments)) :
    ∃ w ∈ ws, piece = .ofItem i here (splitComments w.pieces).1 ∧
      comments = (splitComments w.pieces).2 := by
  cases ws with
  | nil => cases best
  | cons w ws =>
    simp only [bestPiece, Option.some.injEq] at best
    induction ws generalizing w with
    | nil =>
      cases best
      exact ⟨w, List.mem_cons_self, rfl, rfl⟩
    | cons w' ws ih =>
      rw [List.foldl_cons] at best
      split at best
      · obtain ⟨w₀, listed, made⟩ := ih w' best
        exact ⟨w₀, List.mem_cons_of_mem _ listed, made⟩
      · obtain ⟨w₀, listed, made⟩ := ih w best
        obtain rfl | listed := List.mem_cons.mp listed
        · exact ⟨w₀, List.mem_cons_self, made⟩
        · exact ⟨w₀, by simp [listed], made⟩

/-- A new version is joined with another one that it meets, but not with the one it comes from, or it
is added behind all others. -/
theorem addVersion_cases (vs : Array Version) (v : Nat) (s : Stack) :
    addVersion vs v s = vs.push { stack := s } ∨ ∃ j other, j ≠ v ∧ vs[j]? = some other ∧
      other.stack.meets s ∧
      addVersion vs v s = vs.modify j fun other => { other with stack := other.stack.join s } := by
  simp only [addVersion]
  split
  · rename_i j found
    have meets := List.find?_some found
    simp only [ne_eq, Bool.and_eq_true, decide_eq_true_eq] at meets
    obtain ⟨apart, meets⟩ := meets
    split at meets
    · rename_i other here
      exact .inr ⟨j, other, by simpa using apart, here, (Bool.and_eq_true_iff.mp meets).2, rfl⟩
    · cases meets
  · exact .inl rfl

theorem allSound_addVersion {vs : Array Version} (all : Version.AllSound t ps memo vs) (v : Nat)
    {s : Stack} (sound : s.Sound t ps memo) : Version.AllSound t ps memo (addVersion vs v s) := by
  obtain pushed | ⟨j, other, -, here, meets, joined⟩ := addVersion_cases vs v s
  · rw [pushed]
    intro w member
    obtain old | rfl := Array.mem_push.mp member
    · exact all w old
    · exact sound
  · rw [joined]
    intro w member
    obtain ⟨n, found⟩ := Array.getElem?_of_mem member
    rw [Array.getElem?_modify] at found
    split at found
    · rename_i same
      subst same
      rw [here] at found
      cases found
      exact ((all other (Array.mem_of_getElem? here)).join sound meets).1
    · exact all w (Array.mem_of_getElem? found)

theorem getElem?_addVersion {vs : Array Version} {v : Nat} {version : Version}
    (found : vs[v]? = some version) (s : Stack) : (addVersion vs v s)[v]? = some version := by
  obtain pushed | ⟨j, other, apart, -, -, joined⟩ := addVersion_cases vs v s
  · have inside : v < vs.size := (Array.getElem?_eq_some_iff.mp found).1
    rw [pushed, Array.getElem?_push, if_neg (by omega), found]
  · rw [joined, Array.getElem?_modify, if_neg apart, found]

theorem yields_comments (sound : memo.Sound t) {s : Stack} (stack : s.Sound t ps memo)
    {comments : List Piece} (made : ∀ c ∈ comments, c.Made ps) (only : ∀ c ∈ comments, c.isComment) :
    (Memo.growth t).Yields memo (comments.foldlM (fun top c => pushed top s.state c) s)
      fun memo' top => top.Sound t ps memo' := by
  have known := stack.state
  refine (Growth.Yields.foldlM (P := fun memo' top => top.Sound t ps memo' ∧ top.state = s.state)
    sound ⟨stack, rfl⟩ fun memo' top c member sound' grows ⟨top', same⟩ => ?_).imp
    fun _ _ _ _ both => both.1
  obtain ⟨k, known⟩ := known
  refine yields_pushed sound' top' (made c member) ⟨k, grows _ k known⟩ ?_
  rwa [Piece.Takes, if_pos (only c member)]

variable (r : Reader)

theorem yields_reduce (lawful : r.table.Lawful ps) (sound : memo.Sound r.table) {vs : Array Version}
    (all : Version.AllSound r.table ps memo vs) {v n : Nat} {version : Version}
    (found : vs[v]? = some version) (inside : n < r.table.origin)
    (last : (r.table.item n).next = none)
    (place : ∃ k, memo.kernel? version.stack.state = some k ∧ ∃ e ∈ k, e.1 = n) :
    (Memo.growth r.table).Yields memo (r.reduce vs v n) fun memo' vs' =>
      Version.AllSound r.table ps memo' vs' ∧ vs'[v]? = some version := by
  obtain ⟨k, known, e, member, rfl⟩ := place
  have stack := all version (Array.mem_of_getElem? found)
  have ways := Stack.follows_paths lawful stack known member (r.table.item e.1).length
  unfold reduce
  simp only [found]
  refine .foldlM sound ⟨all, found⟩ fun memo' vs' group listed sound' grows ⟨all', found'⟩ => ?_
  have among : ∀ w ∈ group, w ∈ version.stack.paths (r.table.item e.1).length :=
    fun w member => mem_of_mem_groups listed member
  split
  · rename_i w piece comments first best
    split
    · exact .pure sound' ⟨all', found'⟩
    · -- the piece may come from another way than the stack that it is put on: it makes the same symbol
      obtain ⟨follows, -⟩ := ways w (among w (List.mem_of_head? first))
      have below := follows.stack.mono grows
      obtain ⟨k', known'⟩ := below.state
      obtain ⟨w', listed', rfl, rfl⟩ := exists_of_bestPiece best
      obtain ⟨follows', count⟩ := ways w' (among w' listed')
      have made : (Piece.ofItem (r.table.item e.1) version.stack.here
          (splitComments w'.pieces).1).Made ps := by
        refine Piece.made_ofItem lawful last ?_ (fun p member =>
          follows'.pieces p (mem_of_mem_splitComments (.inl member))) _
        rw [symbols_splitComments]
        exact follows'.reads_pieces lawful sound inside last count
      refine (Memo.yields_move lawful sound' known').bind fun memo₁ there sound₁ grows₁ moves => ?_
      cases there with
      | none => exact .pure sound₁ ⟨all'.mono grows₁, found'⟩
      | some state =>
        have takes := moves state rfl
        obtain ⟨-, k₁, -, known₁, -⟩ := moves state rfl
        refine (yields_pushed sound₁ (below.mono grows₁) made ⟨k₁, known₁⟩ takes).bind
          fun memo₂ top sound₂ grows₂ ⟨stack₂, state₂⟩ => ?_
        subst state₂
        refine (yields_comments sound₂ stack₂ (fun c member => follows'.pieces c
          (mem_of_mem_splitComments (.inr member))) fun c => isComment_of_mem_splitComments).bind
          fun memo₃ top sound₃ grows₃ stack₃ => ?_
        refine .pure sound₃ ⟨allSound_addVersion ?_ v stack₃, getElem?_addVersion found' top⟩
        exact all'.mono ((Memo.growth r.table).trans grows₁
          ((Memo.growth r.table).trans grows₂ grows₃))
  · exact .pure sound' ⟨all', found'⟩

theorem yields_reduces (lawful : r.table.Lawful ps) (sound : memo.Sound r.table) {vs : Array Version}
    (all : Version.AllSound r.table ps memo vs) {v : Nat} {version : Version}
    (found : vs[v]? = some version) {s : Nat} {d : Decision}
    (decided : memo.Decided r.table version.stack.state s d) (last : Option Nat) :
    (Memo.growth r.table).Yields memo (d.reduce.foldlM (fun (versions, last) item => do
      let grown ← r.reduce versions v item
      return (grown, if versions.size < grown.size then some versions.size else last)) (vs, last))
      fun memo' state => Version.AllSound r.table ps memo' state.1 := by
  refine (Growth.Yields.foldlM (P := fun memo' (state : Array Version × Option Nat) =>
      Version.AllSound r.table ps memo' state.1 ∧ state.1[v]? = some version) sound ⟨all, found⟩
    fun memo' state item member sound' grows ⟨all, found⟩ => ?_).imp fun _ _ _ _ both => both.1
  obtain ⟨inside, last, place⟩ := (decided.mono grows).reduce item member
  exact (r.yields_reduce lawful sound' all found inside last place).bind
    fun memo'' grown sound'' _ kept => .pure sound'' kept

theorem whole_whole {pieces : List Piece} (made : ∀ p ∈ pieces, p.Made ps) :
    (r.whole pieces).Whole ps := by
  have front : ∀ p ∈ pieces.takeWhile Piece.isComment, p.Made ps := fun p member =>
    made p ((List.takeWhile_prefix _).subset member)
  have back : ∀ p ∈ pieces.dropWhile Piece.isComment, p.Made ps := fun p member =>
    made p ((List.dropWhile_suffix _).subset member)
  simp only [whole, List.span_eq_takeWhile_dropWhile]
  split
  · rename_i file
    rw [file] at back
    obtain ⟨first, comments⟩ := List.forall_mem_cons.mp back
    cases first with
    | tree listed _ inner =>
      refine .mk (fun q member => ?_) (.inr ⟨_, listed, rfl⟩)
      simp only [List.mem_append] at member
      obtain (before | inside) | after := member
      · exact front q before
      · exact inner q inside
      · exact comments q after
  · exact .mk made (.inl rfl)

theorem sound_finish {p : Progress} (sound : p.Sound t ps memo) {s : Stack}
    (stack : s.Sound t ps memo) : (r.finish p s).Sound t ps memo := by
  have made : ∀ reading ∈ s.readings [], ∀ q ∈ reading, q.Made ps :=
    Stack.made_readings (by simp) stack
  refine List.foldlRecOn (s.readings []) _ sound fun p sound reading member => ?_
  have whole := r.whole_whole (made reading member)
  dsimp only
  split
  · exact ⟨sound.versions, fun file found => by cases found; exact whole⟩
  · split
    · exact ⟨sound.versions, fun file found => by cases found; exact whole⟩
    · exact sound

theorem sound_put {p : Progress} (sound : p.Sound t ps memo) (v : Nat) {version : Version}
    (stack : version.stack.Sound t ps memo) : (put p v version).Sound t ps memo := by
  refine ⟨fun w member => ?_, sound.finished⟩
  obtain old | rfl := Array.mem_or_eq_of_mem_setIfInBounds member
  · exact sound.versions w old
  · exact stack

theorem yields_read (lawful : r.table.Lawful ps) (k : Nat) {memo : Memo}
    (sound : memo.Sound r.table) {p : Progress} (progress : p.Sound r.table ps memo) (v : Nat)
    (token : Token) :
    (Memo.growth r.table).Yields memo (r.read k p v token) fun memo' p' =>
      p'.Sound r.table ps memo' := by
  induction k generalizing memo p token with
  | zero => exact .pure sound progress
  | succ k ih =>
    rw [read]
    cases found : p.versions[v]? with
    | none => exact .pure sound progress
    | some version =>
      have stack := progress.versions version (Array.mem_of_getElem? found)
      obtain ⟨kernel, known⟩ := stack.state
      have made : (Piece.leaf token.symbol token.start.offset token.after token.isComment).Made ps :=
        .leaf fun comment => by simpa [Token.isComment] using comment
      simp only
      split
      · rename_i comment
        refine (yields_pushed sound stack made ⟨kernel, known⟩ ?_).bind
          fun memo' top sound' grows top' => ?_
        · rw [Piece.Takes, if_pos (by exact comment)]
        · exact .pure sound' (sound_put (progress.mono grows) v top'.1)
      · rename_i counts
        refine (Memo.yields_decide lawful sound known).bind fun memo₁ d sound₁ grows₁ decided => ?_
        split
        · exact .pure sound₁ (sound_put (r.sound_finish (progress.mono grows₁) (stack.mono grows₁)) v
            (stack.mono grows₁))
        · refine (r.yields_reduces lawful sound₁ (progress.versions.mono grows₁) found decided
            none).bind fun memo₂ state sound₂ grows₂ all => ?_
          obtain ⟨versions, last⟩ := state
          have stack₂ := (stack.mono grows₁).mono grows₂
          have decided₂ := decided.mono grows₂
          have progress₂ : Progress.Sound r.table ps memo₂ { p with versions } :=
            ⟨all, progress.finished⟩
          dsimp only
          split
          · -- the token is read in place of the version, besides the versions that end productions
            rename_i state shift
            have takes := decided₂.shift state shift
            obtain ⟨-, k₂, -, known₂, -⟩ := decided₂.shift state shift
            refine (yields_pushed sound₂ stack₂ made ⟨k₂, known₂⟩ ?_).bind
              fun memo₃ top sound₃ grows₃ top' => ?_
            · rwa [Piece.Takes, if_neg (by exact counts)]
            · exact .pure sound₃ (sound_put (progress₂.mono grows₃) v top'.1)
          · -- a version that ends productions takes the place of this one, and the token is read there
            split
            · exact .pure sound₂ progress₂
            · rename_i next here
              have moved := sound_put progress₂ v (all next (Array.mem_of_getElem? here))
              exact ih sound₂ (p := { p with versions := _ }) ⟨moved.versions.erase _,
                progress.finished⟩ token
          · -- nothing can be done with the token, unless it is a keyword that may be a name
            split
            · exact .pure sound₂ (sound_put progress₂ v stack₂)
            · obtain ⟨k₂, known₂⟩ := stack₂.state
              refine (Memo.yields_decide lawful sound₂ known₂).bind
                fun memo₃ asName sound₃ grows₃ _ => ?_
              split
              · exact ih sound₃ (progress₂.mono grows₃) _
              · exact .pure sound₃ (sound_put (progress₂.mono grows₃) v (stack₂.mono grows₃))

/-! ## Rounds -/

theorem yields_advance (lawful : r.table.Lawful ps) (k : Nat) (sound : memo.Sound r.table)
    {p : Progress} (progress : p.Sound r.table ps memo) (v : Nat) :
    (Memo.growth r.table).Yields memo (r.advance k p v) fun memo' p' =>
      p'.Sound r.table ps memo' := by
  unfold advance
  cases found : p.versions[v]? with
  | none => exact .pure sound progress
  | some version =>
    refine .get_bind ?_
    split
    · exact .pure sound (sound_put progress v (progress.versions version (Array.mem_of_getElem? found)))
    · exact r.yields_read lawful k sound progress v _

theorem yields_follow (lawful : r.table.Lawful ps) (k n : Nat) (sound : memo.Sound r.table)
    {p : Progress} (progress : p.Sound r.table ps memo) (v : Nat) :
    (Memo.growth r.table).Yields memo (r.follow k n p v) fun memo' p' =>
      p'.Sound r.table ps memo' := by
  induction n generalizing memo p with
  | zero => exact .pure sound progress
  | succ n ih =>
    rw [follow]
    split
    · refine (r.yields_advance lawful k sound progress v).bind fun memo' p' sound' _ progress' => ?_
      dsimp only
      split
      · exact .pure sound' ⟨progress'.versions, progress'.finished⟩
      · exact ih sound' progress'
    · exact .pure sound progress

theorem yields_followAll (lawful : r.table.Lawful ps) (k n : Nat) (sound : memo.Sound r.table)
    {p : Progress} (progress : p.Sound r.table ps memo) (v : Nat) :
    (Memo.growth r.table).Yields memo (r.followAll k n p v) fun memo' p' =>
      p'.Sound r.table ps memo' := by
  induction n generalizing memo p v with
  | zero => exact .pure sound progress
  | succ n ih =>
    rw [followAll]
    split
    · exact (r.yields_follow lawful k k sound progress v).bind
        fun memo' p' sound' _ progress' => ih sound' progress' (v + 1)
    · exact .pure sound progress

theorem sound_insert {w : Version} (sound : w.stack.Sound t ps memo) {vs : List Version}
    (all : ∀ v ∈ vs, v.stack.Sound t ps memo) : ∀ v ∈ insert w vs, v.stack.Sound t ps memo := by
  induction vs generalizing w with
  | nil => simpa [insert] using sound
  | cons v vs ih =>
    obtain ⟨first, others⟩ := List.forall_mem_cons.mp all
    rw [insert]
    split
    · exact all
    split
    · exact ih sound others
    split
    · rename_i meets
      exact List.forall_mem_cons.mpr
        ⟨(first.join sound (Bool.and_eq_true_iff.mp meets).2).1, others⟩
    split
    · exact List.forall_mem_cons.mpr ⟨sound, ih first others⟩
    · exact List.forall_mem_cons.mpr ⟨first, ih sound others⟩

theorem allSound_condense {vs : Array Version} (all : Version.AllSound t ps memo vs) :
    Version.AllSound t ps memo (condense vs) := by
  intro v member
  rw [condense, ← Array.foldl_toList] at member
  have listed := List.mem_of_mem_take (List.mem_toArray.mp member)
  refine List.foldlRecOn (motive := fun kept => ∀ v ∈ kept, v.stack.Sound t ps memo) vs.toList _
    (by simp) (fun kept sound w member => ?_) v listed
  split
  · exact sound
  · exact sound_insert (all w (Array.mem_toList_iff.mp member)) sound

theorem yields_rounds (lawful : r.table.Lawful ps) (k n : Nat) (sound : memo.Sound r.table)
    {p : Progress} (progress : p.Sound r.table ps memo) :
    (Memo.growth r.table).Yields memo (r.rounds k n p) fun memo' p' => p'.Sound r.table ps memo' := by
  induction n generalizing memo p with
  | zero => exact .pure sound progress
  | succ n ih =>
    rw [rounds]
    refine (r.yields_followAll lawful k k sound progress 0).bind fun memo' p' sound' _ progress' => ?_
    have condensed : Progress.Sound r.table ps memo' { p' with versions := condense p'.versions } :=
      ⟨allSound_condense progress'.versions, progress'.finished⟩
    dsimp only
    split
    · exact ih sound' condensed
    · exact .pure sound' condensed

/-- Whatever text is read, all versions of the reading stay sound, and if it gets to the end, it is
made of pieces that follow the grammar. -/
theorem yields_start (lawful : r.table.Lawful ps) (sound : memo.Sound r.table) (s : Input) :
    (Memo.growth r.table).Yields memo (r.start s) fun memo' p => p.Sound r.table ps memo' := by
  unfold start
  refine (Memo.yields_start sound).bind fun memo₁ q sound₁ _ known => ?_
  refine .get_bind ?_
  have grows : memo₁.Grows { memo₁ with made := memo₁.made + 1 } := fun _ _ known => known
  refine .modify_bind grows (r.yields_rounds lawful _ _
    (sound₁.extend grows sound₁.kernels .inl .inl .inl) ⟨fun v member => ?_, by simp⟩)
  -- at first there is one version, and nothing stands on it
  cases Array.mem_singleton.mp member
  exact ⟨known, trivial⟩

end Reader

end TemplateValues.Syntax
