import Mathlib.Data.List.Chain
import Mathlib.Data.List.Forall2
import Mathlib.Tactic.MkIffOfInductiveProp
import TemplateValues.Proofs.Interruption
import TemplateValues.Proofs.Scope
import TemplateValues.Proofs.Slices
import TemplateValues.Template.Scan

/-!
# What a scan finds

The parts of a template string are cut out of the text by running offsets: what stands before a
substitution, the substitution, and so on to the closing backtick.  On a tree whose nodes lie in the text
as they should (`Source.WellFormed`) nothing is lost and nothing is found twice.  Every template string
with a substitution is one site, in the order in which they start, and the parts of a site spell the
template string (`sites_spell_templates`).
-/

namespace TemplateValues

open Syntax Template

/-! ## Well-formed trees -/

namespace Syntax.Node

@[mk_iff]
structure IsBacktick (text : String) (n : Node) : Prop where
  kind : n.kind = .token "`"
  leaf : n.children.isEmpty
  text : Text.slice text n.start n.stop = "`"

/-- The node lies in the text between two characters, with its children in it one after the other.  A
substitution holds an expression, and a template string stands between two backticks. -/
@[mk_iff]
structure WellFormed (text : String) (n : Node) : Prop where
  starts : String.Pos.Raw.IsValid text ⟨n.start⟩
  stops : String.Pos.Raw.IsValid text ⟨n.stop⟩
  forward : n.start ≤ n.stop
  inside : ∀ c ∈ n.children, n.start ≤ c.start ∧ c.stop ≤ n.stop
  ordered : n.children.Pairwise fun a b => a.stop ≤ b.start
  expression : n.kind = .templateSubstitution → n.content.head?.isSome
  backticks : n.kind = .templateString → 2 ≤ n.children.length ∧
    (∃ c ∈ n.children.head?, c.IsBacktick text ∧ c.start = n.start) ∧
    ∃ c ∈ n.children.getLast?, c.IsBacktick text ∧ c.stop = n.stop

instance (text : String) (n : Node) : Decidable (n.IsBacktick text) :=
  decidable_of_iff' _ (isBacktick_iff text n)

instance (text : String) (n : Node) : Decidable (n.WellFormed text) :=
  decidable_of_iff' _ (wellFormed_iff text n)

/-! ### Where nodes stand -/

section Places

variable {text : String} {n m : Node}

theorem IsBacktick.stop_eq (tick : n.IsBacktick text) (own : n.WellFormed text) :
    n.stop = n.start + 1 := by
  have bytes := Text.utf8ByteSize_slice own.starts own.stops own.forward
  rw [tick.text] at bytes
  have one : "`".utf8ByteSize = 1 := rfl
  have forward := own.forward
  omega

/-- The first and the last child of a template string are its backticks, one byte each. -/
theorem between_backticks (wellFormed : ∀ m, n.Under m → m.WellFormed text)
    (template : n.kind = .templateString) :
    ∃ opening middle closing, n.children = opening :: (middle ++ [closing]) ∧
      opening.IsBacktick text ∧ opening.start = n.start ∧ opening.stop = n.start + 1 ∧
      closing.IsBacktick text ∧ closing.start = n.stop - 1 ∧ closing.stop = n.stop ∧
      n.start + 1 ≤ n.stop - 1 := by
  have own := wellFormed n .refl
  obtain ⟨two, ⟨opening, first, opens, start⟩, closing, last, closes, stop⟩ := own.backticks template
  obtain ⟨front, children⟩ := List.getLast?_eq_some_iff.mp last
  cases front with
  | nil =>
    rw [children] at two
    exact absurd two (by simp)
  | cons c middle =>
    rw [children, List.cons_append, List.head?_cons, Option.mem_some] at first
    subst first
    have left := opens.stop_eq (wellFormed c (Under.refl.child (by simp [children])))
    have right := closes.stop_eq (wellFormed closing (Under.refl.child (by simp [children])))
    have order : c.stop ≤ closing.start := by
      have ordered := own.ordered
      rw [children, List.cons_append, List.pairwise_cons] at ordered
      exact ordered.1 closing (by simp)
    refine ⟨c, middle, closing, children, opens, start, ?_, closes, ?_, stop, ?_⟩ <;> omega

theorem Under.within (wellFormed : ∀ m, n.Under m → m.WellFormed text) (under : n.Under m) :
    n.start ≤ m.start ∧ m.stop ≤ n.stop := by
  induction under with
  | refl => exact ⟨Nat.le_refl _, Nat.le_refl _⟩
  | child above child ih =>
    have inside := (wellFormed _ above).inside _ child
    omega

theorem Under.eq_or_below (under : n.Under m) : m = n ∨ n.Below m := by
  induction under with
  | refl => exact .inl rfl
  | child _ child ih =>
    rcases ih with rfl | ⟨k, first, under⟩
    · exact .inr (below_of_mem_children child)
    · exact .inr ⟨k, first, under.child child⟩

/-- A template string that lies under another one starts after it. -/
theorem start_lt_of_below (wellFormed : ∀ m, n.Under m → m.WellFormed text)
    (template : n.kind = .templateString) (template' : m.kind = .templateString) (below : n.Below m) :
    n.start < m.start := by
  obtain ⟨opening, middle, closing, children, opens, -, width, -⟩ :=
    between_backticks wellFormed template
  obtain ⟨c, child, under⟩ := below
  have ordered := (wellFormed n .refl).ordered
  rw [children, List.pairwise_cons] at ordered
  rw [children] at child
  rcases List.mem_cons.mp child with rfl | later
  · -- nothing lies under a backtick
    rcases under.eq_or_below with rfl | ⟨k, inner, -⟩
    · rw [opens.kind] at template'
      cases template'
    · rw [List.isEmpty_iff.mp opens.leaf] at inner
      cases inner
  · have after := ordered.1 c later
    have within := under.within fun k rest =>
      wellFormed k ((Under.refl.child (children ▸ child)).trans rest)
    omega

/-- The template strings of a tree stand in the order in which they start. -/
theorem pairwise_descendants (wellFormed : ∀ m, n.Under m → m.WellFormed text) :
    n.descendants.Pairwise fun a b =>
      a.kind = .templateString → b.kind = .templateString → a.start < b.start := by
  -- a child is a node with another way up, so the induction is on the height and not on the tree
  induction height : n.tree.height using Nat.strongRecOn generalizing n with
  | ind h ih =>
    have child_wellFormed : ∀ c ∈ n.children, ∀ m, c.Under m → m.WellFormed text :=
      fun c child m under => wellFormed m ((Under.refl.child child).trans under)
    rw [descendants_eq, List.pairwise_cons, List.pairwise_flatMap]
    refine ⟨fun m member template template' => ?_, fun c child => ?_, ?_⟩
    · obtain ⟨c, child, under⟩ := List.mem_flatMap.mp member
      exact start_lt_of_below wellFormed template template' ⟨c, child, mem_descendants.mp under⟩
    · exact ih c.tree.height (height ▸ (mem_children child).2) (child_wellFormed c child) rfl
    · -- what lies under a child ends before the next child starts
      have ordered := (wellFormed n .refl).ordered
      refine ordered.imp_of_mem fun {c d} child child' order x member y member' template _ => ?_
      have under := mem_descendants.mp member
      have left := under.within (child_wellFormed c child)
      have right := (mem_descendants.mp member').within (child_wellFormed d child')
      have own : ∀ m, x.Under m → m.WellFormed text :=
        fun m rest => child_wellFormed c child m (under.trans rest)
      obtain ⟨-, -, -, -, -, -, -, -, -, -, width⟩ := between_backticks own template
      omega

end Places

end Syntax.Node

namespace Source

def WellFormed (s : Source) : Prop := ∀ n, s.root.Under n → n.WellFormed s.text

instance (s : Source) : Decidable s.WellFormed :=
  decidable_of_iff (∀ n ∈ s.root.descendants, n.WellFormed s.text)
    (forall_congr' fun _ => imp_congr_left Node.mem_descendants)

/-! ## The parts of a template string -/

/-- The parts spell the text if every variable is replaced by the text of its substitution, in which it is
the expression. -/
inductive Spell (s : Source) : List Part → List Node → String → Prop where
  | nothing : Spell s [] [] ""
  | static {text rest : String} {parts : List Part} {substitutions : List Node} :
      Spell s parts substitutions rest → Spell s (.static text :: parts) substitutions (text ++ rest)
  | hole {e n : Node} {rest : String} {parts : List Part} {substitutions : List Node} :
      e ∈ n.content.head? → Spell s parts substitutions rest →
        Spell s (.hole (Chain.normalize (s.textOf e)) (s.askedAt e) :: parts) (n :: substitutions)
          (s.textOf n ++ rest)

variable (s : Source)

/-- Substitutions that stand one after the other between two places. -/
structure Lined (start stop : Nat) (substitutions : List Node) : Prop where
  starts : String.Pos.Raw.IsValid s.text ⟨start⟩
  stops : String.Pos.Raw.IsValid s.text ⟨stop⟩
  forward : start ≤ stop
  inside : ∀ n ∈ substitutions, start ≤ n.start ∧ n.stop ≤ stop
  ordered : substitutions.Pairwise fun a b => a.stop ≤ b.start
  each : ∀ n ∈ substitutions, n.WellFormed s.text ∧ n.kind = .templateSubstitution

variable {s}

theorem Lined.tail {start stop : Nat} {n : Node} {ns : List Node} (lined : s.Lined start stop (n :: ns)) :
    s.Lined n.stop stop ns := by
  have own := lined.each n List.mem_cons_self
  have ordered := List.pairwise_cons.mp lined.ordered
  refine ⟨own.1.stops, lined.stops, (lined.inside n List.mem_cons_self).2, fun m member => ?_,
    ordered.2, fun m member => lined.each m (List.mem_cons_of_mem _ member)⟩
  exact ⟨ordered.1 m member, (lined.inside m (List.mem_cons_of_mem _ member)).2⟩

/-- The text before a substitution or the closing backtick adds what stands there. -/
theorem Spell.staticPart {start stop : Nat} {rest : String} {parts : List Part}
    {substitutions : List Node} (spell : s.Spell parts substitutions rest) :
    s.Spell (s.staticPart start stop ++ parts) substitutions (Text.slice s.text start stop ++ rest) := by
  unfold Source.staticPart
  split
  · exact .static spell
  · rw [Text.slice_of_le (by omega)]
    simpa using spell

theorem holePart_eq {n : Node} (own : n.WellFormed s.text) (kind : n.kind = .templateSubstitution) :
    ∃ e ∈ n.content.head?, s.holePart n = [.hole (Chain.normalize (s.textOf e)) (s.askedAt e)] := by
  obtain ⟨e, first⟩ := Option.isSome_iff_exists.mp (own.expression kind)
  exact ⟨e, first, by simp only [holePart, first]⟩

theorem spell_partsFrom {start stop : Nat} {ns : List Node} (lined : s.Lined start stop ns) :
    s.Spell (s.partsFrom stop start ns) ns (Text.slice s.text start stop) := by
  induction ns generalizing start with
  | nil =>
    have last : s.Spell (s.staticPart start stop ++ []) [] (Text.slice s.text start stop ++ "") :=
      Spell.nothing.staticPart
    simpa [partsFrom] using last
  | cons n ns ih =>
    obtain ⟨own, kind⟩ := lined.each n List.mem_cons_self
    obtain ⟨before, after⟩ := lined.inside n List.mem_cons_self
    obtain ⟨e, first, hole⟩ := holePart_eq own kind
    -- the parts are found in the order of these three pieces
    have cut : Text.slice s.text start stop =
        Text.slice s.text start n.start ++ (s.textOf n ++ Text.slice s.text n.stop stop) := by
      rw [textOf, Text.slice_append own.starts own.stops lined.stops own.forward after,
        Text.slice_append lined.starts own.starts lined.stops before
          (own.forward.trans after)]
    rw [partsFrom, hole, cut, List.append_assoc]
    exact (Spell.hole first (ih lined.tail)).staticPart

/-- No static part is empty, and no two are next to each other. -/
structure Tidy (parts : List Part) : Prop where
  nonempty : .static "" ∉ parts
  apart : parts.IsChain fun a b => a.isVariable ∨ b.isVariable

theorem Tidy.staticPart {start stop : Nat} {parts : List Part}
    (starts : String.Pos.Raw.IsValid s.text ⟨start⟩) (stops : String.Pos.Raw.IsValid s.text ⟨stop⟩)
    (tidy : Tidy parts) (next : ∀ part ∈ parts.head?, part.isVariable) :
    Tidy (s.staticPart start stop ++ parts) := by
  unfold Source.staticPart
  split
  · rename_i some
    refine ⟨?_, List.isChain_cons.mpr ⟨fun part first => .inr (next part first), tidy.apart⟩⟩
    -- there are bytes between the two places, so the text is not empty
    have bytes := Text.utf8ByteSize_slice starts stops (Nat.le_of_lt some)
    intro member
    rcases List.mem_cons.mp member with empty | member
    · injection empty with empty
      rw [← empty, String.utf8ByteSize_empty] at bytes
      omega
    · exact tidy.nonempty member
  · exact tidy

theorem tidy_partsFrom {start stop : Nat} {ns : List Node} (lined : s.Lined start stop ns) :
    Tidy (s.partsFrom stop start ns) := by
  induction ns generalizing start with
  | nil =>
    have last : Tidy (s.staticPart start stop ++ []) :=
      Tidy.staticPart lined.starts lined.stops ⟨by simp, .nil⟩ (by simp)
    simpa [partsFrom] using last
  | cons n ns ih =>
    obtain ⟨own, kind⟩ := lined.each n List.mem_cons_self
    obtain ⟨e, -, hole⟩ := holePart_eq own kind
    have rest := ih lined.tail
    rw [partsFrom, hole, List.append_assoc]
    refine Tidy.staticPart lined.starts own.starts ⟨?_, ?_⟩ (by simp [Part.isVariable])
    · simpa using rest.nonempty
    · exact List.isChain_cons.mpr ⟨fun _ _ => .inl rfl, rest.apart⟩

theorem any_isVariable_partsFrom {start stop : Nat} {ns : List Node} (lined : s.Lined start stop ns) :
    (s.partsFrom stop start ns).any Part.isVariable = !ns.isEmpty := by
  cases ns with
  | nil =>
    simp only [partsFrom, staticPart]
    split <;> rfl
  | cons n ns =>
    obtain ⟨own, kind⟩ := lined.each n List.mem_cons_self
    obtain ⟨e, -, hole⟩ := holePart_eq own kind
    simp [partsFrom, hole, Part.isVariable]

/-! ## Sites -/

def substitutions (n : Node) : List Node := n.children.filter fun c => c.kind = .templateSubstitution

theorem childrenOfKind_eq (n : Node) : n.childrenOfKind .templateSubstitution = substitutions n := by
  rw [Node.childrenOfKind, Node.namedChildren, List.filter_filter, substitutions]
  refine List.filter_congr fun c _ => ?_
  by_cases kind : c.kind = .templateSubstitution
  · simp [kind, Node.isNamed, Tree.isNamed, show c.tree.kind = _ from kind, Kind.isNamed]
  · simp [kind]

structure SiteOf (s : Source) (n : Node) (site : Site) : Prop where
  start : site.start = s.startOf n
  text : ∃ inner, s.textOf n = "`" ++ inner ++ "`" ∧ s.Spell site.parts (substitutions n) inner
  tidy : Tidy site.parts

section Tree

variable {n : Node} (wellFormed : ∀ m, n.Under m → m.WellFormed s.text)
  (template : n.kind = .templateString)

include wellFormed template

/-- The substitutions of a template string stand between its backticks, which are all that is left of it. -/
theorem lined_substitutions :
    s.Lined (n.start + 1) (n.stop - 1) (substitutions n) ∧
      s.textOf n = "`" ++ Text.slice s.text (n.start + 1) (n.stop - 1) ++ "`" := by
  obtain ⟨opening, middle, closing, children, opens, start, width, closes, start', stop', room⟩ :=
    Node.between_backticks wellFormed template
  have own := wellFormed n .refl
  have left := wellFormed opening (.child .refl (by simp [children]))
  have right := wellFormed closing (.child .refl (by simp [children]))
  have starts : String.Pos.Raw.IsValid s.text ⟨n.start + 1⟩ := width ▸ left.stops
  have stops : String.Pos.Raw.IsValid s.text ⟨n.stop - 1⟩ := start' ▸ right.starts
  refine ⟨⟨starts, stops, room, fun c member => ?_, own.ordered.filter _, fun c member => ?_⟩, ?_⟩
  · -- a substitution is neither of the two backticks
    obtain ⟨child, kind⟩ := List.mem_filter.mp member
    have ordered := own.ordered
    rw [children, List.pairwise_cons, List.pairwise_append] at ordered
    rw [children, List.mem_cons, List.mem_append, List.mem_singleton] at child
    rcases child with rfl | inner | rfl
    · simp [opens.kind] at kind
    · have after := ordered.1 c (List.mem_append_left _ inner)
      have before := ordered.2.2.2 c inner closing List.mem_cons_self
      omega
    · simp [closes.kind] at kind
  · obtain ⟨child, kind⟩ := List.mem_filter.mp member
    exact ⟨wellFormed c (.child .refl child), of_decide_eq_true kind⟩
  · have first := opens.text
    have last := closes.text
    rw [start, width] at first
    rw [start', stop'] at last
    calc s.textOf n
      _ = Text.slice s.text n.start (n.start + 1) ++ Text.slice s.text (n.start + 1) n.stop :=
        (Text.slice_append own.starts starts own.stops (by omega) (by omega)).symm
      _ = Text.slice s.text n.start (n.start + 1) ++ (Text.slice s.text (n.start + 1) (n.stop - 1) ++
          Text.slice s.text (n.stop - 1) n.stop) := by
        rw [Text.slice_append starts stops own.stops room (by omega)]
      _ = "`" ++ Text.slice s.text (n.start + 1) (n.stop - 1) ++ "`" := by
        rw [first, last, String.append_assoc]

theorem site?_eq :
    s.site? n = if (substitutions n).isEmpty then none
      else some ⟨s.templateParts n, s.startOf n, s.anchorOf n⟩ := by
  have lined := (lined_substitutions wellFormed template).1
  rw [site?, templateParts, childrenOfKind_eq, any_isVariable_partsFrom lined]
  cases (substitutions n).isEmpty <;> rfl

theorem siteOf_template : s.SiteOf n ⟨s.templateParts n, s.startOf n, s.anchorOf n⟩ := by
  obtain ⟨lined, text⟩ := lined_substitutions wellFormed template
  have parts : s.templateParts n = s.partsFrom (n.stop - 1) (n.start + 1) (substitutions n) := by
    rw [templateParts, childrenOfKind_eq]
  refine ⟨rfl, ⟨_, text, ?_⟩, ?_⟩
  · exact parts ▸ spell_partsFrom lined
  · exact parts ▸ tidy_partsFrom lined

end Tree

/-- The template strings with a substitution, in document order. -/
def templates (s : Source) : List Node :=
  s.root.descendants.filter fun n => n.kind = .templateString && !(substitutions n).isEmpty

theorem mem_templates {n : Node} :
    n ∈ s.templates ↔ s.root.Under n ∧ n.kind = .templateString ∧
      ∃ c ∈ n.children, c.kind = .templateSubstitution := by
  rw [templates, List.mem_filter, Node.mem_descendants]
  simp [substitutions]

theorem sites_eq (wellFormed : s.WellFormed) :
    s.sites = s.templates.map fun n => ⟨s.templateParts n, s.startOf n, s.anchorOf n⟩ := by
  rw [sites, templates, ← List.filterMap_eq_map, List.filterMap_filter, List.filterMap_filter]
  refine List.filterMap_congr fun n member => ?_
  by_cases template : n.kind = .templateString
  · have under := Node.mem_descendants.mp member
    rw [site?_eq (fun m rest => wellFormed m (under.trans rest)) template]
    cases empty : (substitutions n).isEmpty <;> simp [template]
  · simp [template]

/-- **Scanning loses and invents no text.**  On a well-formed tree the sites are those of the template
strings with a substitution, one for each wherever it stands, and they start one after the other.  The parts
of a site, with the text of a substitution for each variable, are what stands between the backticks. -/
theorem sites_spell_templates (s : Source) (wellFormed : s.WellFormed) :
    ∃ templates : List Node, templates.Nodup ∧
      (∀ n, n ∈ templates ↔ s.root.Under n ∧ n.kind = .templateString ∧
        ∃ c ∈ n.children, c.kind = .templateSubstitution) ∧
      List.Forall₂ s.SiteOf templates s.sites ∧
      s.sites.Pairwise fun a b => a.start.before b.start := by
  have increasing : s.templates.Pairwise fun a b => a.start < b.start := by
    refine ((Node.pairwise_descendants wellFormed).filter _).imp_of_mem fun member member' order => ?_
    exact order (mem_templates.mp member).2.1 (mem_templates.mp member').2.1
  rw [sites_eq wellFormed]
  refine ⟨s.templates, increasing.imp fun order same => ?_, fun n => mem_templates, ?_, ?_⟩
  · exact absurd (same ▸ order) (Nat.lt_irrefl _)
  · rw [List.forall₂_map_right_iff, List.forall₂_same]
    intro n member
    obtain ⟨under, template, -⟩ := mem_templates.mp member
    exact siteOf_template (fun m rest => wellFormed m (under.trans rest)) template
  · rw [List.pairwise_map]
    exact increasing.imp fun order => s.positionAt_before order

end Source

namespace Sample

/-- A template string in a substitution of another one, after a character of two bytes and right before
the next substitution. -/
def nestedTemplates : Source where
  path := ⟨["", "a.ts"]⟩
  language := .typescript
  text := "`é$\x7b`$\x7bp\x7d`\x7d$\x7bq\x7d`;"
  tree := .node .program none 0 18
    [templateStatement 0 17
      [.node .stringFragment none 1 3 [],
        .node .templateSubstitution none 3 12
          [.node (.token "$\x7b") none 3 5 [],
            .node .templateString none 5 11
              [.node (.token "`") none 5 6 [], substitution 6, .node (.token "`") none 10 11 []],
            .node (.token "\x7d") none 11 12 []],
        substitution 12]]

end Sample

theorem nestedTemplates_spelled :
    Sample.nestedTemplates.WellFormed ∧
      Sample.nestedTemplates.sites.map (fun site => (site.start, site.parts)) =
        [(⟨0, 0⟩, [.static "é", .hole "`$\x7bp\x7d`" ⟨0, 5⟩, .hole "q" ⟨0, 14⟩]),
          (⟨0, 5⟩, [.hole "p" ⟨0, 8⟩])] ∧
      ∃ templates : List Node, templates.Nodup ∧
        (∀ n, n ∈ templates ↔ Sample.nestedTemplates.root.Under n ∧ n.kind = .templateString ∧
          ∃ c ∈ n.children, c.kind = .templateSubstitution) ∧
        List.Forall₂ Sample.nestedTemplates.SiteOf templates Sample.nestedTemplates.sites ∧
        Sample.nestedTemplates.sites.Pairwise fun a b => a.start.before b.start := by
  have wellFormed : Sample.nestedTemplates.WellFormed := by decide
  exact ⟨wellFormed, rfl, Source.sites_spell_templates Sample.nestedTemplates wellFormed⟩

end TemplateValues
