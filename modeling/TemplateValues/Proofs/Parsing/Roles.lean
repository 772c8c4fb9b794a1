import TemplateValues.Proofs.Parsing.Shape

/-!
# The children that a rule lists

A rule without phrases and repetitions lists the children of its node one by one, each with its kind
and its role.  A node of that kind has no other children in the tree of any text, comments apart
(`lists_parse`).  Whether a rule lists only children as wanted can be checked (`Grammar.lists`).
-/

namespace TemplateValues.Syntax

/-- Nodes of the kind `outer` only have children of whose kinds and roles `ok` holds. -/
inductive Tree.Lists (outer : Kind) (ok : Kind → Option Field → Bool) : Tree → Prop where
  | node {kind field start stop children} :
      (kind = outer → ∀ c ∈ children, ok c.kind c.field) →
      (∀ c ∈ children, Lists outer ok c) → Lists outer ok (.node kind field start stop children)

theorem Tree.Lists.children {outer : Kind} {ok : Kind → Option Field → Bool} {t : Tree}
    (lists : t.Lists outer ok) :
    (t.kind = outer → ∀ c ∈ t.children, ok c.kind c.field) ∧ ∀ c ∈ t.children, c.Lists outer ok := by
  cases lists with
  | node listed inside => exact ⟨listed, inside⟩

/-! ## Rules -/

mutual

/-- Does `ok` hold of every symbol that stands in a rule: of the kind under which it is shown, of its
role and of its own kind? -/
def Rule.lists (ok : Option Kind → Option Field → Option Kind → Bool) (shown : Option Kind)
    (role : Option Field) : Rule → Bool
  | .empty => true
  | .symbol s => ok shown role s.kind?
  | .seq rs => Rule.listsOf ok shown role rs
  | .choice rs => Rule.listsOf ok shown role rs
  | .many1 _ => ok shown role none
  | .strong _ r => r.lists ok shown role
  | .sided _ r => r.lists ok shown role
  | .favoured _ r => r.lists ok shown role
  | .shown k r => r.lists ok (some k) role
  | .field f r => r.lists ok shown (some f)

@[inherit_doc Rule.lists]
def Rule.listsOf (ok : Option Kind → Option Field → Option Kind → Bool) (shown : Option Kind)
    (role : Option Field) : List Rule → Bool
  | [] => true
  | r :: rs => r.lists ok shown role && Rule.listsOf ok shown role rs

end

variable {ok : Option Kind → Option Field → Option Kind → Bool}

def Alternative.Lists (ok : Option Kind → Option Field → Option Kind → Bool) (a : Alternative) : Prop :=
  ∀ s ∈ a.steps, ok s.shown s.role s.symbol.kind?

namespace Alternative

theorem Lists.append {a b : Alternative} (first : a.Lists ok) (second : b.Lists ok) :
    (a.append b).Lists ok := by
  intro s member
  obtain before | after := List.mem_append.mp member
  · exact first s before
  · exact second s after

theorem Lists.mapLast {a : Alternative} (lists : a.Lists ok) {f : Step → Step}
    (same : ∀ s, (f s).shown = s.shown ∧ (f s).role = s.role ∧ (f s).symbol = s.symbol) :
    (a.mapLast f).Lists ok := by
  unfold Alternative.mapLast
  split
  · rename_i s last
    intro s' member
    obtain before | after := List.mem_append.mp member
    · exact lists s' ((List.dropLast_sublist _).subset before)
    · cases List.mem_singleton.mp after
      obtain ⟨shown, role, symbol⟩ := same s
      rw [shown, role, symbol]
      exact lists s (List.mem_of_getLast? last)
  · exact lists

/-- The last steps may get another strength or another side. -/
theorem lists_mapLast {as : List Alternative} (lists : ∀ a ∈ as, a.Lists ok) (final : Bool)
    {f : Step → Step}
    (same : ∀ s, (f s).shown = s.shown ∧ (f s).role = s.role ∧ (f s).symbol = s.symbol) :
    ∀ a ∈ (if final then as else as.map (·.mapLast f)), a.Lists ok := by
  split
  · exact lists
  · intro a member
    obtain ⟨a, listed, rfl⟩ := List.mem_map.mp member
    exact (lists a listed).mapLast same

end Alternative

theorem Runs.kind?_symbol (body : List Alternative) (runs : Runs) :
    ((Runs.symbol body).run runs).1.kind? = none := by
  simp only [StateT.run, Runs.symbol]
  split <;> rfl

mutual

theorem Rule.lists_alternatives (around : Step) (final : Bool) (runs : Runs) : ∀ r : Rule,
    r.lists ok around.shown around.role →
      ∀ a ∈ ((r.alternatives around final).run runs).1, a.Lists ok
  | .empty, _ => by
    unfold Rule.alternatives
    intro a member s step
    cases List.mem_singleton.mp member
    cases step
  | .symbol s, holds => by
    unfold Rule.alternatives
    intro a member step among
    cases List.mem_singleton.mp member
    cases List.mem_singleton.mp among
    exact holds
  | .seq rs, holds => by
    unfold Rule.alternatives
    exact Rule.lists_sequences around final runs rs holds
  | .choice rs, holds => by
    unfold Rule.alternatives
    exact Rule.lists_choices around final runs rs holds
  | .many1 r, holds => by
    unfold Rule.alternatives
    intro a member step among
    cases List.mem_singleton.mp member
    cases List.mem_singleton.mp among
    exact (congrArg (fun own => ok around.shown around.role own) (Runs.kind?_symbol _ _)).trans holds
  | .strong s r, holds => by
    unfold Rule.alternatives
    exact Alternative.lists_mapLast
      (Rule.lists_alternatives { around with strength := s } final runs r holds) final (by simp)
  | .sided s r, holds => by
    unfold Rule.alternatives
    exact Alternative.lists_mapLast
      (Rule.lists_alternatives { around with side := some s } final runs r holds) final (by simp)
  | .favoured n r, holds => by
    unfold Rule.alternatives
    intro a member
    obtain ⟨a, listed, rfl⟩ := List.mem_map.mp member
    exact Rule.lists_alternatives around final runs r holds a listed
  | .shown k r, holds => by
    unfold Rule.alternatives
    exact Rule.lists_alternatives { around with shown := some k } final runs r holds
  | .field f r, holds => by
    unfold Rule.alternatives
    exact Rule.lists_alternatives { around with role := some f } final runs r holds

theorem Rule.lists_sequences (around : Step) (final : Bool) (runs : Runs) : ∀ rs : List Rule,
    Rule.listsOf ok around.shown around.role rs →
      ∀ a ∈ ((Rule.sequences around final rs).run runs).1, a.Lists ok
  | [], _ => by
    unfold Rule.sequences
    intro a member s step
    cases List.mem_singleton.mp member
    cases step
  | r :: rs, holds => by
    unfold Rule.sequences
    obtain ⟨first, others⟩ := Bool.and_eq_true_iff.mp holds
    intro a member
    obtain ⟨a, listed, rest⟩ := List.mem_flatMap.mp member
    obtain ⟨b, listed', rfl⟩ := List.mem_map.mp rest
    exact (Rule.lists_alternatives around _ runs r first a listed).append
      (Rule.lists_sequences around final _ rs others b listed')

theorem Rule.lists_choices (around : Step) (final : Bool) (runs : Runs) : ∀ rs : List Rule,
    Rule.listsOf ok around.shown around.role rs →
      ∀ a ∈ ((Rule.choices around final rs).run runs).1, a.Lists ok
  | [], _ => by
    unfold Rule.choices
    intro a member
    cases member
  | r :: rs, holds => by
    unfold Rule.choices
    obtain ⟨first, others⟩ := Bool.and_eq_true_iff.mp holds
    intro a member
    obtain here | there := List.mem_append.mp member
    · exact Rule.lists_alternatives around final runs r first a here
    · exact Rule.lists_choices around final _ rs others a there

end

/-! ## Productions -/

/-- A production that makes a node comes from a rule, and lists what the rule lists. -/
theorem Grammar.rule_of_mem {g : Grammar} {p : Production} (member : p ∈ g.productions)
    {k : Kind} (head : p.head.kind? = some k) :
    ∃ rule, (p.head, rule) ∈ g.rules ∧ ∀ ok, rule.lists ok none none → p.body.Lists ok := by
  let growth : Growth Runs := ⟨fun _ => True, fun _ _ => True, fun _ => trivial, fun _ _ => trivial⟩
  have yields : growth.Yields {} (g.rules.mapM spell) fun _ made =>
      ∀ ps ∈ made, ∃ r ∈ g.rules, ∀ p ∈ ps, p.head = r.1 ∧
        ∀ ok, r.2.lists ok none none → p.body.Lists ok := by
    refine .mapM trivial (fun _ holds => holds) fun runs r _ _ => .of_run rfl trivial trivial ?_
    intro p listed
    obtain ⟨head, among⟩ := mem_productionsOf.mp listed
    exact ⟨head, fun ok lists => Rule.lists_alternatives default true runs r.2 lists _ among⟩
  obtain made | repeated := List.mem_append.mp member
  · obtain ⟨ps, listed, among⟩ := List.mem_flatten.mp made
    obtain ⟨⟨head, rule⟩, ofRule, holds⟩ := yields.result ps listed
    obtain ⟨same, lists⟩ := holds p among
    exact ⟨rule, same ▸ ofRule, lists⟩
  · obtain ⟨ps, listed, among⟩ := List.mem_flatten.mp repeated
    obtain ⟨⟨body, n⟩, -, rfl⟩ := List.mem_map.mp listed
    rw [(mem_productionsOf.mp among).1] at head
    cases head

def leaves (ok : Kind → Option Field → Bool) (shown : Option Kind) (role : Option Field)
    (own : Option Kind) : Bool := (shown.or own).any fun k => ok k role

/-- Do the rules of the kind `outer` list only children of whose kinds and roles `ok` holds? -/
def Grammar.lists (outer : Kind) (ok : Kind → Option Field → Bool) (g : Grammar) : Bool :=
  ok .comment none && ok .htmlComment none && g.bars (· == outer) (fun _ => false) &&
    g.rules.all fun r => r.1.kind? != some outer || r.2.lists (leaves ok) none none

/-! ## Pieces -/

namespace Piece

variable {outer : Kind} {ok : Kind → Option Field → Bool} {g : Grammar} {t : Table}
  (numbers : t.symbols = g.symbols) (lists : g.lists outer ok)
include numbers lists

theorem lists_comment {p : Piece} (made : p.Made g.numbered) (comment : p.isComment)
    {others : List Tree} (rest : ∀ tree ∈ others, ok tree.kind tree.field) :
    ∀ tree ∈ p.trees t {} others, ok tree.kind tree.field := by
  simp only [Grammar.lists, Bool.and_eq_true] at lists
  obtain ⟨⟨⟨plain, html⟩, -⟩, -⟩ := lists
  cases made with
  | tree => cases comment
  | leaf token =>
    obtain rfl | rfl := token comment
    · simpa [trees, numbers, Grammar.symbols_pattern, Symbol.kind?, Terminal.kind?, Pattern.kind?,
        Tree.kind, Tree.field, plain] using rest
    · simpa [trees, numbers, Grammar.symbols_pattern, Symbol.kind?, Terminal.kind?, Pattern.kind?,
        Tree.kind, Tree.field, html] using rest

omit lists in
theorem ok_of_leaves {s : Step} (holds : leaves ok s.shown s.role s.symbol.kind?) {n : Nat}
    (number : n = g.number s.symbol) {k : Kind}
    (kind : (s.shown <|> (t.symbols[n]?).bind Symbol.kind?) = some k) : ok k s.role := by
  obtain shown | ⟨none, own⟩ := own_of_orElse kind
  · simpa [leaves, shown] using holds
  · obtain ⟨s', found, own⟩ := Option.bind_eq_some_iff.mp own
    rw [numbers, number] at found
    cases Table.eq_of_symbols_numberOf found
    simpa [leaves, none, own] using holds

omit lists in
/-- A piece whose step leaves a node leaves this node alone. -/
theorem Made.lists_trees {p : Piece} (made : p.Made g.numbered) {s : Step}
    (symbol : p.symbol = g.number s.symbol) (holds : leaves ok s.shown s.role s.symbol.kind?)
    {others : List Tree} (rest : ∀ tree ∈ others, ok tree.kind tree.field) :
    ∀ tree ∈ p.trees t ⟨s.shown, s.role⟩ others, ok tree.kind tree.field := by
  intro tree among
  cases made with
  | leaf token =>
    rw [trees] at among
    split at among
    · rename_i kind
      obtain rfl | among := List.mem_cons.mp among
      · exact ok_of_leaves numbers holds symbol kind
      · exact rest tree among
    · exact rest tree among
  | tree listed symbols made =>
    obtain ⟨p, member, rfl⟩ := List.mem_map.mp listed
    rw [trees] at among
    split at among
    · rename_i kind
      obtain rfl | among := List.mem_cons.mp among
      · exact ok_of_leaves numbers holds symbol kind
      · exact rest tree among
    · rename_i kind
      have own := own_of_orElse_none kind
      rw [kind?_head numbers member, ← symbol_eq_head member symbol] at own
      cases shown : s.shown with
      | some k => simp [shown] at kind
      | none => simp [leaves, shown, own] at holds

theorem lists_allTrees {pieces : List Piece} (made : ∀ q ∈ pieces, q.Made g.numbered)
    {steps : List Step}
    (symbols : steps.map (fun s => g.number s.symbol) = Piece.symbols pieces)
    (listed : ∀ s ∈ steps, leaves ok s.shown s.role s.symbol.kind?) :
    ∀ tree ∈ allTrees t none (steps.map fun s => ⟨s.shown, s.role⟩) [] pieces,
      ok tree.kind tree.field := by
  induction pieces generalizing steps with
  | nil => simp [allTrees]
  | cons p pieces ih =>
    obtain ⟨first, made⟩ := List.forall_mem_cons.mp made
    rw [symbols_cons] at symbols
    rw [allTrees]
    split
    · rename_i comment
      rw [if_pos comment] at symbols
      exact lists_comment numbers lists first comment (ih made symbols listed)
    · rename_i comment
      rw [if_neg comment] at symbols
      obtain ⟨s, steps, rfl, symbol, symbols⟩ := List.map_eq_cons_iff.mp symbols
      obtain ⟨holds, listed⟩ := List.forall_mem_cons.mp listed
      have role : (s.role <|> none) = s.role := by cases s.role <;> rfl
      simp only [List.map_cons, List.headD_cons, List.drop_succ_cons, List.drop_zero, role]
      exact first.lists_trees numbers symbol.symm holds (ih made symbols listed)

theorem Made.listed {p : Piece} (made : p.Made g.numbered) :
    p.Gives t (· == outer) (Tree.Lists outer ok) := by
  have checked := lists
  simp only [Grammar.lists, Bool.and_eq_true] at checked
  obtain ⟨⟨-, bars⟩, rules⟩ := checked
  induction made with
  | leaf token =>
    intro showing others hidden rest tree among
    rw [trees] at among
    split at among
    · obtain rfl | among := List.mem_cons.mp among
      · exact .node (by simp) (by simp)
      · exact rest tree among
    · exact rest tree among
  | tree listed symbols made ih =>
    obtain ⟨p, member, rfl⟩ := List.mem_map.mp listed
    intro showing others hidden rest tree among
    rw [symbols_ofProduction] at symbols
    have shown := hidden_showings bars member
    rw [trees, showings_ofProduction] at among
    split at among
    · rename_i kind
      obtain rfl | among := List.mem_cons.mp among
      · refine .node (fun isOuter => ?_) (gives_allTrees ih shown none (by simp))
        -- so the node is of its own kind, and its production has the steps that its rule lists
        obtain as | ⟨-, own⟩ := own_of_orElse kind
        · exact absurd (hidden _ as) (by simp [isOuter])
        · rw [kind?_head numbers member, isOuter] at own
          obtain ⟨rule, ofRule, lists'⟩ := Grammar.rule_of_mem member own
          have holds := List.all_eq_true.mp rules _ ofRule
          simp only [own, bne_self_eq_false, Bool.false_or] at holds
          exact lists_allTrees numbers lists made symbols (lists' _ holds)
      · exact rest tree among
    · exact gives_allTrees ih shown _ rest tree among

end Piece

/-! ## Texts -/

/-- If the rule of a kind lists only children as wanted, then the nodes of this kind have no others in
the tree of any text. -/
theorem lists_parse {outer : Kind} {ok : Kind → Option Field → Bool} (file : outer ≠ .program)
    (d : Dialect) (lists : d.grammar.lists outer ok) (text : String) :
    (parse d text).Lists outer ok := by
  have checked := lists
  simp only [Grammar.lists, Bool.and_eq_true] at checked
  have all := all_parse d checked.1.2 (fun _ numbers _ made => made.listed numbers lists)
    (fun _ _ => .node (by simp) (by simp)) text
  unfold parse at all ⊢
  exact .node (fun same => absurd same.symm file) all

end TemplateValues.Syntax
