import TemplateValues.Proofs.Parsing.Grammar
import TemplateValues.Proofs.Parsing.Reading

/-!
# The shape of syntax trees

Every tree that is read has a shape that the grammar gives: if no rule lets a node of one kind have a
child of another, then there is no such child in the tree of any text, be it well-formed or not
(`bars_parse`).  Whether the rules are so can be checked (`Grammar.bars`).
-/

namespace TemplateValues.Syntax

/-- Nodes of the kinds `outer` have no children of the kinds `inner`. -/
inductive Tree.Bars (outer inner : Kind → Bool) : Tree → Prop where
  | node {kind field start stop children} :
      (outer kind → ∀ c ∈ children, inner c.kind = false) →
      (∀ c ∈ children, Bars outer inner c) → Bars outer inner (.node kind field start stop children)

theorem Tree.Bars.children {outer inner : Kind → Bool} {t : Tree} (bars : t.Bars outer inner) :
    (outer t.kind → ∀ c ∈ t.children, inner c.kind = false) ∧
      ∀ c ∈ t.children, c.Bars outer inner := by
  cases bars with
  | node apart inside => exact ⟨apart, inside⟩

/-! ## Grammars -/

def hides (outer : Kind → Bool) (shown _own : Option Kind) : Bool := shown.all fun k => !outer k

def avoids (inner : Kind → Bool) (shown own : Option Kind) : Bool :=
  (shown.or own).all fun k => !inner k

/-- Do the rules keep the kinds `inner` out of the kinds `outer`?  What leaves no node of its own must
not have them, as it may stand anywhere. -/
def Grammar.bars (outer inner : Kind → Bool) (g : Grammar) : Bool :=
  !inner .comment && !inner .htmlComment && g.rules.all fun (head, rule) =>
    rule.every (hides outer) none &&
      match head with
      | .run _ => false
      | .node k => !outer k || rule.every (avoids inner) none
      | _ => rule.every (avoids inner) none

section

variable {outer inner : Kind → Bool} {g : Grammar} (bars : g.bars outer inner)
include bars

namespace Grammar

theorem inner_comment : inner .comment = false ∧ inner .htmlComment = false := by
  simp only [Grammar.bars, Bool.and_eq_true, Bool.not_eq_true'] at bars
  exact bars.1

theorem every_hides : ∀ r ∈ g.rules, r.2.every (hides outer) none := by
  intro r member
  have holds := List.all_eq_true.mp (Bool.and_eq_true_iff.mp bars).2 r member
  exact (Bool.and_eq_true_iff.mp holds).1

/-- No symbol of a production is shown under a kind of `outer`. -/
theorem hidden {p : Production} (member : p ∈ g.productions) {s : Step} (step : s ∈ p.body.steps) :
    ∀ k, s.shown = some k → outer k = false := by
  have fits : s.shown = none ∨ s.Fits (hides outer) g.spelled.2.bodies := by
    cases origin_of_mem (every_hides bars) member with
    | rule listed fits => exact .inr (fits _ (every_hides bars _ listed) s step)
    | run _ found among =>
      obtain twice | once := List.mem_cons.mp among
      · rw [twice] at step
        simp only [List.mem_cons, List.not_mem_nil, or_false, or_self] at step
        exact .inl (by rw [step])
      · exact .inr ((spelled_spec (every_hides bars)).1.fits found _ once s step)
  intro k shown
  obtain none | fits := fits
  · rw [none] at shown
    cases shown
  · have holds := fits.holds
    simpa [hides, shown] using holds

/-- A production that has a kind of `inner` makes a node that may have it, or it is a repetition. -/
theorem avoided {p : Production} (member : p ∈ g.productions) :
    p.body.Fits (avoids inner) g.spelled.2.bodies ∨ (∃ k, p.head = .node k ∧ outer k = false) ∨
      ∃ n body, p.head = .run n ∧ g.spelled.2.bodies[n]? = some body ∧
        p.body ∈ ⟨[{ symbol := .run n }, { symbol := .run n }], 0⟩ :: body := by
  cases origin_of_mem (every_hides bars) member with
  | rule listed fits =>
    have holds := List.all_eq_true.mp (Bool.and_eq_true_iff.mp bars).2 _ listed
    have kept := (Bool.and_eq_true_iff.mp holds).2
    cases head : p.head with
    | run n => simp [head] at kept
    | terminal | phrase =>
      rw [head] at kept
      exact .inl (fits _ kept)
    | node k =>
      rw [head] at kept
      obtain free | kept := Bool.or_eq_true_iff.mp kept
      · exact .inr (.inl ⟨k, rfl, by simpa using free⟩)
      · exact .inl (fits _ kept)
  | run head found among => exact .inr (.inr ⟨_, _, head, found, among⟩)

end Grammar

end

/-! ## Pieces -/

namespace Piece

section

variable {outer inner : Kind → Bool} {g : Grammar} {t : Table}

/-- The trees of the piece have no kind of `inner` at their top, as long as the step for it has
none. -/
def Avoids (g : Grammar) (t : Table) (inner : Kind → Bool) (p : Piece) : Prop :=
  ∀ (s : Step) (role : Option Field) (others : List Tree), p.symbol = g.number s.symbol →
    s.Fits (avoids inner) g.spelled.2.bodies → (∀ tree ∈ others, inner tree.kind = false) →
    ∀ tree ∈ p.trees t ⟨s.shown, role⟩ others, inner tree.kind = false

def Barred (t : Table) (outer inner : Kind → Bool) (p : Piece) : Prop :=
  ∀ (showing : Showing) (others : List Tree), (∀ k, showing.kind = some k → outer k = false) →
    (∀ tree ∈ others, tree.Bars outer inner) →
    ∀ tree ∈ p.trees t showing others, tree.Bars outer inner

/-- What holds of the trees of a piece in front of others, as long as no piece is shown under a kind of
`outer`. -/
def Gives (t : Table) (outer : Kind → Bool) (P : Tree → Prop) (p : Piece) : Prop :=
  ∀ (showing : Showing) (others : List Tree), (∀ k, showing.kind = some k → outer k = false) →
    (∀ tree ∈ others, P tree) → ∀ tree ∈ p.trees t showing others, P tree

theorem gives_allTrees {P : Tree → Prop} {pieces : List Piece}
    (each : ∀ q ∈ pieces, q.Gives t outer P) {showings : List Showing}
    (hidden : ∀ s ∈ showings, ∀ k, s.kind = some k → outer k = false) (role : Option Field)
    {others : List Tree} (rest : ∀ tree ∈ others, P tree) :
    ∀ tree ∈ allTrees t role showings others pieces, P tree := by
  induction pieces generalizing showings with
  | nil => simpa [allTrees] using rest
  | cons p pieces ih =>
    obtain ⟨here, each⟩ := List.forall_mem_cons.mp each
    rw [allTrees]
    split
    · exact here _ _ (by simp) (ih each hidden)
    · refine here _ _ (fun k shown => ?_) (ih each fun s member => hidden s (List.mem_of_mem_drop member))
      cases showings with
      | nil => simp at shown
      | cons s _ => exact hidden s List.mem_cons_self k shown

theorem symbol_eq_head {p : Production} (member : p ∈ g.productions) {s : Symbol}
    (same : (Table.Numbered.ofProduction g.number p).head = g.number s) : s = p.head := by
  have found := g.symbols_head member
  simp only [Table.Numbered.ofProduction] at same
  rw [same] at found
  exact (Table.eq_of_symbols_numberOf found).symm

theorem symbols_ofProduction (p : Production) :
    (Table.Numbered.ofProduction g.number p).symbols = p.body.steps.map fun s => g.number s.symbol := by
  simp [Table.Numbered.ofProduction, Table.Numbered.symbols]

theorem showings_ofProduction (p : Production) :
    (Table.Numbered.ofProduction g.number p).showings = p.body.steps.map fun s => ⟨s.shown, s.role⟩ := by
  simp [Table.Numbered.ofProduction, Table.Numbered.showings]

theorem hidden_showings (bars : g.bars outer inner) {p : Production} (member : p ∈ g.productions) :
    ∀ s ∈ p.body.steps.map (fun s => (⟨s.shown, s.role⟩ : Showing)),
      ∀ k, s.kind = some k → outer k = false := by
  intro showing shows
  obtain ⟨s, step, rfl⟩ := List.mem_map.mp shows
  exact Grammar.hidden bars member step

/-! ### Kinds -/

theorem own_of_orElse {shown own : Option Kind} {k : Kind} (kind : (shown <|> own) = some k) :
    shown = some k ∨ shown = none ∧ own = some k := by
  cases shown <;> simp_all

theorem own_of_orElse_none {shown own : Option Kind} (kind : (shown <|> own) = none) : own = none := by
  cases shown <;> simp_all

variable (numbers : t.symbols = g.symbols)
include numbers

theorem kind?_head {p : Production} (member : p ∈ g.productions) :
    (t.symbols[(Table.Numbered.ofProduction g.number p).head]?).bind Symbol.kind? =
      p.head.kind? := by
  rw [Table.Numbered.ofProduction, numbers, g.symbols_head member, Option.bind_some]

theorem inner_of_avoids {s : Step} (holds : avoids inner s.shown s.symbol.kind?) {n : Nat}
    (number : n = g.number s.symbol) {k : Kind}
    (kind : (s.shown <|> (t.symbols[n]?).bind Symbol.kind?) = some k) : inner k = false := by
  obtain shown | ⟨none, own⟩ := own_of_orElse kind
  · simpa [avoids, shown] using holds
  · obtain ⟨s', found, own⟩ := Option.bind_eq_some_iff.mp own
    rw [numbers, number] at found
    cases Table.eq_of_symbols_numberOf found
    simpa [avoids, none, own] using holds

/-! ### Trees -/

variable (bars : g.bars outer inner)
include bars

theorem avoids_comment {p : Piece} (made : p.Made g.numbered) (comment : p.isComment)
    {others : List Tree} (rest : ∀ tree ∈ others, inner tree.kind = false) :
    ∀ tree ∈ p.trees t {} others, inner tree.kind = false := by
  obtain ⟨plain, html⟩ := Grammar.inner_comment bars
  cases made with
  | tree => cases comment
  | leaf token =>
    obtain rfl | rfl := token comment
    · simpa [trees, numbers, Grammar.symbols_pattern, Symbol.kind?, Terminal.kind?, Pattern.kind?,
        Tree.kind, plain] using rest
    · simpa [trees, numbers, Grammar.symbols_pattern, Symbol.kind?, Terminal.kind?, Pattern.kind?,
        Tree.kind, html] using rest

theorem avoids_allTrees {pieces : List Piece} (made : ∀ q ∈ pieces, q.Made g.numbered)
    (each : ∀ q ∈ pieces, q.Avoids g t inner) {steps : List Step}
    (symbols : steps.map (fun s => g.number s.symbol) = Piece.symbols pieces)
    (fits : ∀ s ∈ steps, s.Fits (avoids inner) g.spelled.2.bodies) (role : Option Field)
    {others : List Tree} (rest : ∀ tree ∈ others, inner tree.kind = false) :
    ∀ tree ∈ allTrees t role (steps.map fun s => ⟨s.shown, s.role⟩) others pieces,
      inner tree.kind = false := by
  induction pieces generalizing steps with
  | nil => simpa [allTrees] using rest
  | cons p pieces ih =>
    obtain ⟨first, made⟩ := List.forall_mem_cons.mp made
    obtain ⟨here, each⟩ := List.forall_mem_cons.mp each
    rw [symbols_cons] at symbols
    rw [allTrees]
    split
    · rename_i comment
      rw [if_pos comment] at symbols
      exact avoids_comment numbers bars first comment (ih made each symbols fits)
    · rename_i comment
      rw [if_neg comment] at symbols
      obtain ⟨s, steps, rfl, symbol, symbols⟩ := List.map_eq_cons_iff.mp symbols
      obtain ⟨fit, fits⟩ := List.forall_mem_cons.mp fits
      exact here s _ _ symbol.symm fit (ih made each symbols fits)

omit numbers in
/-- A production behind a step has what the step has, if it leaves no node of its own. -/
theorem fits_behind {p : Production} (member : p ∈ g.productions) {s : Step} (head : s.symbol = p.head)
    (none : p.head.kind? = none) (fits : s.Fits (avoids inner) g.spelled.2.bodies) :
    p.body.Fits (avoids inner) g.spelled.2.bodies := by
  obtain avoided | ⟨k, node, -⟩ | ⟨n, body, run, found, among⟩ := Grammar.avoided bars member
  · exact avoided
  · rw [node] at none
    cases none
  · rw [run] at head
    cases fits with
    | symbol single => exact absurd head (single n)
    | run same _ found' inside =>
      -- the step says of the repetition what is said of all that is repeated in it
      rw [head] at same
      cases same
      cases found.symm.trans found'
      obtain twice | once := List.mem_cons.mp among
      · intro s' step
        rw [twice] at step
        simp only [List.mem_cons, List.not_mem_nil, or_false, or_self] at step
        rw [step]
        exact .run rfl rfl found inside
      · exact inside _ once

theorem Made.avoids {p : Piece} (made : p.Made g.numbered) : p.Avoids g t inner := by
  induction made with
  | leaf token =>
    intro s role others symbol fits rest tree among
    rw [trees] at among
    split at among
    · rename_i kind
      obtain rfl | among := List.mem_cons.mp among
      · exact inner_of_avoids numbers fits.holds symbol kind
      · exact rest tree among
    · exact rest tree among
  | tree listed symbols made ih =>
    obtain ⟨p, member, rfl⟩ := List.mem_map.mp listed
    intro s role others symbol fits rest tree among
    rw [symbols_ofProduction] at symbols
    rw [trees, showings_ofProduction] at among
    rw [Piece.symbol] at symbol
    split at among
    · rename_i kind
      obtain rfl | among := List.mem_cons.mp among
      · exact inner_of_avoids numbers fits.holds symbol kind
      · exact rest tree among
    · -- the pieces of the production stand in its place
      rename_i kind
      have none := (kind?_head numbers member).symm.trans (own_of_orElse_none kind)
      have behind := fits_behind bars member (symbol_eq_head member symbol) none fits
      exact avoids_allTrees numbers bars made ih symbols behind role rest tree among

theorem Made.barred {p : Piece} (made : p.Made g.numbered) : p.Barred t outer inner := by
  induction made with
  | leaf token =>
    intro showing others hidden rest tree among
    rw [trees] at among
    split at among
    · obtain rfl | among := List.mem_cons.mp among
      · exact .node (by simp) (by simp)
      · exact rest tree among
    · exact rest tree among
  | tree listed symbols made ih =>
    obtain ⟨p, member, rfl⟩ := List.mem_map.mp listed
    intro showing others hidden rest tree among
    rw [symbols_ofProduction] at symbols
    have shown := hidden_showings bars member
    rw [trees, showings_ofProduction] at among
    split at among
    · rename_i kind
      obtain rfl | among := List.mem_cons.mp among
      · refine .node (fun isOuter => ?_) (gives_allTrees ih shown none (by simp))
        -- so the node is of its own kind, and its production keeps the kinds of `inner` out
        obtain as | ⟨-, own⟩ := own_of_orElse kind
        · exact absurd isOuter (by simp [hidden _ as])
        · rw [kind?_head numbers member] at own
          obtain avoided | ⟨k, node, free⟩ | ⟨n, body, run, -⟩ := Grammar.avoided bars member
          · exact avoids_allTrees numbers bars made (fun q listed => (made q listed).avoids numbers bars)
              symbols avoided none (by simp)
          · rw [node] at own
            cases own
            exact absurd isOuter (by simp [free])
          · rw [run] at own
            cases own
      · exact rest tree among
    · exact gives_allTrees ih shown _ rest tree among

end

end Piece

/-! ## Texts -/

namespace Reader

variable {outer inner : Kind → Bool} {P : Tree → Prop} {g : Grammar} {r : Reader} {memo : Memo}
  (bars : g.bars outer inner) (each : ∀ p : Piece, p.Made g.numbered → p.Gives r.table outer P)

include bars each in
theorem all_inner {file : Piece} (whole : file.Whole g.numbered) :
    ∀ tree ∈ file.inner r.table, P tree := by
  cases whole with
  | mk made shows =>
    refine Piece.gives_allTrees (fun q member => each q (made q member)) ?_ none (by simp)
    obtain rfl | ⟨p, listed, rfl⟩ := shows
    · simp
    · obtain ⟨p, member, rfl⟩ := List.mem_map.mp listed
      rw [Piece.showings_ofProduction]
      exact Piece.hidden_showings bars member

variable (error : ∀ start stop, P (.node .error none start stop []))

include each error in
theorem all_salvage {stack : Stack} (sound : stack.Sound r.table g.numbered memo) :
    ∀ tree ∈ (r.salvage stack).1, P tree := by
  have all : ∀ reading ∈ stack.readings [], ∀ p ∈ reading, p.Made g.numbered :=
    Stack.made_readings (by simp) sound
  have made : ∀ p ∈ (stack.readings []).headD [], p.Made g.numbered := by
    cases first : stack.readings [] with
    | nil => simp
    | cons reading others => exact all reading (by simp [first])
  have gives : ∀ (ok : Piece → Bool), ∀ q ∈ ((stack.readings []).headD []).takeWhile ok,
      q.Gives r.table outer P := fun ok q member =>
    each q (made q ((List.takeWhile_prefix _).subset member))
  simp only [salvage, List.span_eq_takeWhile_dropWhile]
  refine Piece.gives_allTrees (gives _) (by simp) none fun tree member => ?_
  cases List.mem_singleton.mp member
  exact error _ _

include bars each error in
theorem yields_trees (lawful : r.table.Lawful g.numbered) (n : Nat) (sound : memo.Sound r.table)
    (s : Input) : (Memo.growth r.table).Yields memo (r.trees n s) fun _ trees =>
      ∀ tree ∈ trees, P tree := by
  induction n generalizing memo s with
  | zero => exact .pure sound (by simp)
  | succ n ih =>
    rw [trees]
    refine (r.yields_start lawful sound s).bind fun memo' p sound' _ progress => ?_
    split
    · rename_i file finished
      exact .pure sound' (all_inner bars each (progress.finished file finished))
    · exact .pure sound' (by simp)
    · rename_i version _ first
      have stack := progress.versions version (Array.mem_of_getElem? first)
      refine (ih sound' _).bind fun memo'' rest sound'' _ later => .pure sound'' fun tree member => ?_
      obtain kept | lost := List.mem_append.mp member
      · exact all_salvage each error stack tree kept
      · exact later tree lost

end Reader

theorem get_mk {α : Type} (f : Unit → α) : (Thunk.mk f).get = f () := rfl

theorem table_eq (d : Dialect) : d.table.get = .ofGrammar d.grammar := by
  obtain ⟨types, markup⟩ := d
  cases types <;> cases markup <;> exact get_mk fun _ => Table.ofGrammar _

/-- What holds of the trees of every piece, and of errors, holds of all that a text is made of. -/
theorem all_parse {outer inner : Kind → Bool} {P : Tree → Prop} (d : Dialect)
    (bars : d.grammar.bars outer inner)
    (each : ∀ t : Table, t.symbols = d.grammar.symbols → ∀ p : Piece, p.Made d.grammar.numbered →
      p.Gives t outer P)
    (error : ∀ start stop, P (.node .error none start stop [])) (text : String) :
    ∀ tree ∈ (parse d text).children, P tree := by
  let r : Reader := ⟨d, d.table.get⟩
  have numbers : r.table.symbols = d.grammar.symbols := by
    rw [show r.table = .ofGrammar d.grammar from table_eq d, Grammar.symbols_ofGrammar]
  have lawful : r.table.Lawful d.grammar.numbered := by
    rw [show r.table = .ofGrammar d.grammar from table_eq d]
    exact Grammar.lawful_ofGrammar d.grammar
  exact (Reader.yields_trees bars (each r.table numbers) error lawful (text.length + 1)
    (Memo.sound_empty r.table) (.ofText text)).result

/-- If the rules of a dialect keep some kinds out of others, then no text has a tree where one of them
is a child of the other. -/
theorem bars_parse {outer inner : Kind → Bool} (file : outer .program = false) (d : Dialect)
    (bars : d.grammar.bars outer inner) (text : String) : (parse d text).Bars outer inner := by
  have all := all_parse d bars (fun _ numbers _ made => made.barred numbers bars)
    (fun _ _ => .node (by simp) (by simp)) text
  unfold parse at all ⊢
  exact .node (by simp [file]) all

end TemplateValues.Syntax
