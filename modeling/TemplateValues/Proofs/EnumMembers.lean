import Mathlib.Data.List.Nodup
import TemplateValues.Proofs.ExportLookup
import TemplateValues.Proofs.LiteralSets
import TemplateValues.Proofs.Parsing.Roles
import TemplateValues.Proofs.Provenance
import TemplateValues.Proofs.Scanning

/-!
# Members of enumerations

A member is asked for in two ways: by its name in the enumeration, and by a place in the text, which
leads to the innermost declaration around it.  A member that is given a value and one with a plain name
declare themselves, so both ways lead to the same string.  A member that is a bare string declares
nothing, so its place leads to the enumeration and to the strings of all members
(`member_located`).
-/

namespace TemplateValues

open Syntax

/-! ## Members by name -/

namespace Source

variable {s : Source} {n : Node}

def DistinctMembers (s : Source) (n : Node) : Prop := ((s.enumMembers n).map EnumMember.name).Nodup

instance (s : Source) (n : Node) : Decidable (s.DistinctMembers n) :=
  inferInstanceAs (Decidable (List.Nodup _))

/-- The member of a name is found by it. -/
theorem enumValue_of_mem (distinct : s.DistinctMembers n) {m : EnumMember}
    (member : m ∈ s.enumMembers n) : s.enumValue n m.name = .singleton m.value := by
  have found : ((s.enumMembers n).find? fun m' => m'.name = m.name) = some m := by
    cases found : (s.enumMembers n).find? fun m' => m'.name = m.name with
    | none => simpa using List.find?_eq_none.mp found m member
    | some m' =>
      have same : m'.name = m.name := by simpa using List.find?_some found
      rw [List.inj_on_of_nodup_map distinct (List.mem_of_find?_eq_some found) member same]
  rw [enumValue, found]
  rfl

theorem enumValue_of_not_mem {name : String} (absent : name ∉ (s.enumMembers n).map EnumMember.name) :
    s.enumValue n name = .empty := by
  have missing : ((s.enumMembers n).find? fun m => m.name = name) = none := by
    refine List.find?_eq_none.mpr fun m member same => absent ?_
    exact List.mem_map.mpr ⟨m, member, by simpa using same⟩
  rw [enumValue, missing]
  rfl

/-- The enumeration stands for one string only if all its members stand for it. -/
theorem enumValues_eq_singleton_iff {m : EnumMember} (member : m ∈ s.enumMembers n) :
    s.enumValues n = .singleton m.value ↔ ∀ m' ∈ s.enumMembers n, m'.value = m.value := by
  constructor
  · intro same m' member'
    have listed : m'.value ∈ (s.enumValues n).values :=
      LiteralSet.mem_values_ofList.mpr (List.mem_map_of_mem member')
    rw [same] at listed
    exact List.mem_singleton.mp listed
  · intro all
    have only : ∀ v ∈ (s.enumValues n).values, v = m.value := by
      intro v listed
      obtain ⟨m', member', rfl⟩ := List.mem_map.mp (LiteralSet.mem_values_ofList.mp listed)
      exact all m' member'
    have listed : m.value ∈ (s.enumValues n).values :=
      LiteralSet.mem_values_ofList.mpr (List.mem_map_of_mem member)
    have once : (s.enumValues n).values.length ≤ 1 := by
      have nodup := (s.enumValues n).nodup
      rw [List.eq_replicate_of_mem only] at nodup
      exact List.nodup_replicate.mp nodup
    obtain ⟨value, same⟩ := List.length_eq_one_iff.mp
      (Nat.le_antisymm once (List.length_pos_of_mem listed))
    rw [same, List.mem_singleton] at listed
    rw [listed]
    exact LiteralSet.eq_of_values same

end Source

/-! ## Nodes of members -/

namespace Source

variable {s : Source}

def WritesMember (s : Source) (enum n : Node) (m : EnumMember) : Prop :=
  ∃ body, enum.child? .body = some body ∧ n ∈ body.namedChildren ∧ s.enumMember? n = some m

theorem WritesMember.mem {enum n : Node} {m : EnumMember} (writes : s.WritesMember enum n m) :
    m ∈ s.enumMembers enum := by
  obtain ⟨body, held, child, member⟩ := writes
  rw [enumMembers, held]
  exact List.mem_filterMap.mpr ⟨n, child, member⟩

/-- A member is written with its name, and it may be given a value then. -/
theorem enumMember?_eq_some {n : Node} {m : EnumMember} (member : s.enumMember? n = some m) :
    ∃ key, n.key? = some key ∧ s.keyText? key = some m.name ∧
      (n.kind = .enumAssignment ∧ n.child? .name = some key ∧
          m.value? = (n.child? .value).bind s.stringValue? ∨
        (n.kind = .propertyIdentifier ∨ n.kind = .string) ∧ key = n ∧ m.value? = none) := by
  unfold enumMember? at member
  split at member
  case h_1 kind =>
    obtain ⟨name, named, rfl⟩ := Option.map_eq_some_iff.mp member
    obtain ⟨key, found, written⟩ := Option.bind_eq_some_iff.mp named
    exact ⟨key, by simp [Node.key?, kind, found], written, .inl ⟨kind, found, rfl⟩⟩
  case h_2 kind =>
    obtain ⟨name, written, rfl⟩ := Option.map_eq_some_iff.mp member
    exact ⟨n, by simp [Node.key?, kind], written, .inr ⟨.inl kind, rfl, rfl⟩⟩
  case h_3 kind =>
    obtain ⟨name, written, rfl⟩ := Option.map_eq_some_iff.mp member
    exact ⟨n, by simp [Node.key?, kind], written, .inr ⟨.inr kind, rfl, rfl⟩⟩
  case h_4 => cases member

end Source

/-! ## Bodies of enumerations -/

namespace Source

/-- What holds the members of an enumeration is the body of an enumeration. -/
def EnumsHaveBodies (s : Source) : Prop :=
  ∀ n, s.root.Under n → n.kind = .enumDeclaration → ∀ body ∈ n.child? .body, body.kind = .enumBody

instance (s : Source) : Decidable s.EnumsHaveBodies :=
  decidable_of_iff (∀ n ∈ s.root.descendants, n.kind = .enumDeclaration →
      ∀ body ∈ n.child? .body, body.kind = .enumBody)
    (forall_congr' fun _ => imp_congr_left Node.mem_descendants)

end Source

theorem lists_enumBody (d : Dialect) :
    d.grammar.lists .enumDeclaration fun k f => f != some .body || k == .enumBody := by
  obtain ⟨types, markup⟩ := d
  cases types <;> cases markup <;> decide +kernel

theorem Syntax.Node.Under.lists {root n : Node} {outer : Kind} {ok : Kind → Option Field → Bool}
    (under : root.Under n) (lists : root.tree.Lists outer ok) : n.tree.Lists outer ok := by
  induction under with
  | refl => exact lists
  | child _ child ih => exact ih.children.2 _ (mem_childNodes child).1

/-- In a source that is read from its text, members stand in bodies of enumerations. -/
theorem Source.Parsed.enumsHaveBodies {s : Source} (parsed : s.Parsed) : s.EnumsHaveBodies := by
  intro n under kind body held
  have lists : s.root.tree.Lists .enumDeclaration fun k f => f != some .body || k == .enumBody := by
    rw [show s.root.tree = s.tree from rfl, parsed]
    exact lists_parse (by decide) _ (lists_enumBody _) s.text
  have child := List.mem_of_find?_eq_some held
  have role : body.field = some .body := by simpa using List.find?_some held
  have listed := (under.lists lists).children.1 kind _ (mem_childNodes child).1
  rw [show body.tree.field = some .body from role] at listed
  exact eq_of_beq listed

/-! ## Declarations around members -/

namespace Declaration

variable {s : Source} {n p : Node}

theorem enclosing?_of_declares {d : Declaration} (declares : ofNode? n = some d)
    (inside : n.kind ≠ .program) : enclosing? n = some d := by
  rw [enclosing?, Node.withAncestors, List.takeWhile_cons_of_pos (by simpa using inside),
    List.findSome?_cons_of_isSome (by simp [declares]), declares]

/-- What declares nothing belongs to what its parent belongs to. -/
theorem enclosing?_of_parent (nothing : ofNode? n = none) (inside : n.kind ≠ .program)
    (parent : n.parent? = some p) : enclosing? n = enclosing? p := by
  have ancestors : n.withAncestors = n :: p.withAncestors := by
    obtain ⟨tree, above⟩ := n
    cases above with
    | nil => cases parent
    | cons around above =>
      cases parent
      rfl
  rw [enclosing?, ancestors, List.takeWhile_cons_of_pos (by simpa using inside),
    List.findSome?_cons_of_isNone (by simp [nothing]), enclosing?]

/-- The name of a member that is given a value declares nothing by itself. -/
theorem ofNode?_of_keyText? {name : String} (written : s.keyText? n = some name)
    (parent : n.parent? = some p) (kind : p.kind = .enumAssignment) : ofNode? n = none := by
  -- only identifiers could declare something here, and none of the two stands where it would
  unfold Source.keyText? at written
  split at written
  case h_8 => cases written
  all_goals simp [ofNode?, isBound, *]

theorem kind_ne_program_of_keyText? {name : String} (written : s.keyText? n = some name) :
    n.kind ≠ .program := by
  intro kind
  simp [Source.keyText?, kind] at written

end Declaration

/-- The declaration that the place of a member leads to: the member itself, or the enumeration if the
member is a bare string. -/
theorem Source.WritesMember.enclosing? {s : Source} (bodies : s.EnumsHaveBodies) {d : Declaration}
    (holds : s.Holds d) (kind : d.kind = .enumeration) {n : Node} {m : EnumMember}
    (writes : s.WritesMember d.node n m) :
    ∃ key, n.key? = some key ∧ s.keyText? key = some m.name ∧
      Declaration.enclosing? key = some (if n.kind = .string then d else ⟨.property, n, key⟩) := by
  obtain ⟨body, held, child, member⟩ := writes
  have isEnum := Declaration.kind_of_enumeration holds.declares kind
  have isBody := bodies d.node holds.under isEnum body held
  have parent := Node.parent?_of_mem_namedChildren child
  obtain ⟨key, keyed, written, ⟨given, named, -⟩ | ⟨plain | string, rfl, -⟩⟩ := enumMember?_eq_some member
  · -- the name is passed over, and the member around it declares itself
    have around := Node.parent?_of_child? named
    have declares : Declaration.ofNode? n = some ⟨.property, n, key⟩ := by
      simp [Declaration.ofNode?, given, Declaration.naming?, named]
    refine ⟨key, keyed, written, ?_⟩
    rw [Declaration.enclosing?_of_parent (Declaration.ofNode?_of_keyText? written around given)
        (Declaration.kind_ne_program_of_keyText? written) around,
      Declaration.enclosing?_of_declares declares (by simp [given]), if_neg (by simp [given])]
  · -- a plain name declares itself, since it stands in the body of an enumeration
    have declares : Declaration.ofNode? key = some ⟨.property, key, key⟩ := by
      simp [Declaration.ofNode?, plain, parent, isBody]
    refine ⟨key, keyed, written, ?_⟩
    rw [Declaration.enclosing?_of_declares declares (by simp [plain]), if_neg (by simp [plain])]
  · -- a string declares nothing, and neither does the body, so this goes on to the enumeration
    have nothing : Declaration.ofNode? key = none := by simp [Declaration.ofNode?, string]
    have nothing' : Declaration.ofNode? body = none := by simp [Declaration.ofNode?, isBody]
    refine ⟨key, keyed, written, ?_⟩
    rw [Declaration.enclosing?_of_parent nothing (by simp [string]) parent,
      Declaration.enclosing?_of_parent nothing' (by simp [isBody]) (Node.parent?_of_child? held),
      Declaration.enclosing?_of_declares holds.declares (by simp [isEnum]), if_pos string]

/-! ## Answers that ask nothing -/

section Answers

variable {σ : Type} {g : Guard σ} {c : Codebase}

/-- A goal that asks nothing has its answer, if its gate opens. -/
theorem returns_iff_of_done {goal : Goal} {answer : LiteralSet} (known : goal.inquiry c = .done answer)
    {v w : σ} {values : LiteralSet} :
    Returns g c goal v values w ↔
      g.Turns goal.gate v values w ∨
        ∃ u, g.Opens goal.gate v u ∧ values = answer ∧ w = g.close goal.gate u values u := by
  simp only [returns_iff, known, Inquiry.run_done_iff]
  refine or_congr_right ⟨?_, ?_⟩
  · rintro ⟨u, u', opened, ⟨rfl, rfl⟩, rfl⟩
    exact ⟨u', opened, rfl, rfl⟩
  · rintro ⟨u, opened, rfl, rfl⟩
    exact ⟨u, u, opened, ⟨rfl, rfl⟩, rfl⟩

/-- In a new visit a declaration that asks nothing has its values. -/
theorem returns_start_iff {s : Source} {d : Declaration} {answer : LiteralSet}
    (known : (Goal.declaration s d).inquiry c = .done answer) {limit : Nat} (positive : 0 < limit)
    {values : LiteralSet} :
    (∃ w, Returns Guard.visit c (.declaration s d) (.start limit) values w) ↔ values = answer := by
  have opened : Guard.visit.Opens (Goal.declaration s d).gate (.start limit)
      ((Visit.start limit).hold (d.key s)) :=
    .remembered rfl (Visit.enter_of_allowed positive List.not_mem_nil)
  simp only [returns_iff_of_done known]
  constructor
  · rintro ⟨w, turned | ⟨u, -, same, -⟩⟩
    · exact absurd opened turned.not_opens
    · exact same
  · rintro rfl
    exact ⟨_, .inr ⟨_, opened, rfl, rfl⟩⟩

theorem Source.inquiry_enumeration {s : Source} {d : Declaration} (kind : d.kind = .enumeration) :
    (Goal.declaration s d).inquiry c = .done (s.enumValues d.node) := by
  change Values.declaration c Inquiry.one s d = pure (s.enumValues d.node)
  simp only [Values.declaration, kind]

/-- A member that declares itself stands for its string. -/
theorem Source.inquiry_member {s : Source} {n key : Node} {m : EnumMember}
    (member : s.enumMember? n = some m) (keyed : n.key? = some key) (declares : n.kind ≠ .string) :
    (Goal.declaration s ⟨.property, n, key⟩).inquiry c = .done (.singleton m.value) := by
  change Values.declaration c Inquiry.one s ⟨.property, n, key⟩ = pure (.singleton m.value)
  obtain ⟨key, keyed', written, ⟨given, named, value⟩ | ⟨plain | string, rfl, value⟩⟩ :=
    enumMember?_eq_some member
  · cases keyed.symm.trans keyed'
    cases written' : (n.child? .value).bind s.stringValue? <;>
      simp [Values.declaration, Values.property, given, Declaration.initializer?, written', written,
        EnumMember.value, value, LiteralSet.ofOption]
  · cases keyed.symm.trans keyed'
    simp [Values.declaration, Values.property, plain, written, EnumMember.value, value,
      LiteralSet.ofOption]
  · exact absurd string declares

end Answers

/-! ## An enumeration with a bare string -/

namespace Sample

def bareBody : Tree :=
  .node .enumBody (some .body) 7 17
    [.node (.token "\x7b") none 7 8 [], .node .propertyIdentifier (some .name) 9 10 [],
      .node (.token ",") none 10 11 [],
      .node .string (some .name) 12 15
        [.node (.token "'") none 12 13 [], .node .stringFragment none 13 14 [],
          .node (.token "'") none 14 15 []],
      .node (.token "\x7d") none 16 17 []]

def bareEnum : Tree :=
  .node .enumDeclaration none 0 17
    [.node (.token "enum") none 0 4 [], .node .identifier (some .name) 5 6 [], bareBody]

def bareMembers : Source where
  path := ⟨["", "a.ts"]⟩
  language := .typescript
  text := "enum E \x7b A, 'B' \x7d"
  tree := .node .program none 0 17 [bareEnum]

def bareDeclaration : Declaration where
  kind := .enumeration
  node := ⟨bareEnum, [(bareMembers.tree, 0)]⟩
  name := ⟨.node .identifier (some .name) 5 6 [], [(bareEnum, 1), (bareMembers.tree, 0)]⟩

def bareMember (i : Nat) : Node :=
  ⟨bareBody.children.getD i bareBody, [(bareBody, i), (bareEnum, 2), (bareMembers.tree, 0)]⟩

def bareCodebase : Codebase := ⟨⟨[], []⟩, [bareMembers], .relativeOnly, 8⟩

theorem bareDeclaration_mem : bareDeclaration ∈ bareMembers.declarations := List.mem_cons_self

theorem writes_plain : bareMembers.WritesMember bareDeclaration.node (bareMember 1) ⟨"A", none⟩ :=
  ⟨_, rfl, List.mem_cons_self, by decide +kernel⟩

theorem writes_string : bareMembers.WritesMember bareDeclaration.node (bareMember 3) ⟨"B", none⟩ :=
  ⟨_, rfl, List.mem_cons_of_mem _ List.mem_cons_self, by decide +kernel⟩

end Sample

/-! ## The main statement -/

/-- **The place of a member means that member, unless it is a bare string.**  In a source that is read
from its text, members stand in the bodies of enumerations.  Then the name of every member lies in a
declaration.  In a new visit this has the one string of the member, as it is looked up by its name.  But
if the member is written as a string without a value, it is the enumeration with the strings of all
members.  So the string of the member is found there if and only if the member is no bare string, or all
members stand for the same string. -/
theorem member_located (c : Codebase) {s : Source} :
    (s.Parsed → s.EnumsHaveBodies) ∧
    (s.EnumsHaveBodies → ∀ d ∈ s.declarations, d.kind = .enumeration → s.DistinctMembers d.node →
      ∀ n m, s.WritesMember d.node n m → ∀ limit, 0 < limit →
        ∃ key e, n.key? = some key ∧ s.keyText? key = some m.name ∧
          Declaration.enclosing? key = some e ∧
          s.enumValue d.node m.name = .singleton m.value ∧
          (∀ values, (∃ w, Returns Guard.visit c (.declaration s e) (.start limit) values w) ↔
            values = if n.kind = .string then s.enumValues d.node else s.enumValue d.node m.name) ∧
          ((∃ w, Returns Guard.visit c (.declaration s e) (.start limit)
              (s.enumValue d.node m.name) w) ↔
            n.kind ≠ .string ∨ ∀ m' ∈ s.enumMembers d.node, m'.value = m.value)) := by
  refine ⟨Source.Parsed.enumsHaveBodies, ?_⟩
  intro bodies d declared kind distinct n m writes limit positive
  obtain ⟨key, keyed, written, encloses⟩ :=
    writes.enclosing? bodies (Source.holds_of_mem_declarations declared) kind
  have value := Source.enumValue_of_mem distinct writes.mem
  refine ⟨key, _, keyed, written, encloses, value, ?_⟩
  by_cases string : n.kind = .string
  · have whole := Source.inquiry_enumeration (c := c) (s := s) kind
    simp only [string, ↓reduceIte, returns_start_iff whole positive, value, ne_eq, not_true_eq_false,
      false_or, implies_true, true_and]
    rw [eq_comm, Source.enumValues_eq_singleton_iff writes.mem]
  · obtain ⟨body, held, child, member⟩ := writes
    have own := Source.inquiry_member (c := c) member keyed string
    simp only [string, ↓reduceIte, returns_start_iff own positive, value, ne_eq, not_false_eq_true,
      true_or, implies_true, and_self]

/-- In `enum E { A, 'B' }`, the place of `A` leads to its string and that of `'B'` to those of both. -/
theorem bareMembers_located :
    Sample.bareMembers.EnumsHaveBodies ∧
    Sample.bareDeclaration ∈ Sample.bareMembers.declarations ∧
    Sample.bareMembers.DistinctMembers Sample.bareDeclaration.node ∧
    (∃ e, Declaration.enclosing? (Sample.bareMember 1) = some e ∧
      ∃ w, Returns Guard.visit Sample.bareCodebase (.declaration Sample.bareMembers e) (.start 1)
        (.singleton "A") w) ∧
    ∃ e, Declaration.enclosing? (Sample.bareMember 3) = some e ∧
      ¬ ∃ w, Returns Guard.visit Sample.bareCodebase (.declaration Sample.bareMembers e) (.start 1)
        (.singleton "B") w := by
  have bodies : Sample.bareMembers.EnumsHaveBodies := by decide +kernel
  have distinct : Sample.bareMembers.DistinctMembers Sample.bareDeclaration.node := by decide +kernel
  have located := (member_located Sample.bareCodebase).2 bodies _ Sample.bareDeclaration_mem rfl distinct
  refine ⟨bodies, Sample.bareDeclaration_mem, distinct, ?_, ?_⟩
  · obtain ⟨key, e, keyed, -, encloses, value, -, found⟩ :=
      located _ _ Sample.writes_plain 1 (by decide)
    cases keyed
    rw [value] at found
    exact ⟨e, encloses, found.mpr (.inl (by decide))⟩
  · obtain ⟨key, e, keyed, -, encloses, value, -, found⟩ :=
      located _ _ Sample.writes_string 1 (by decide)
    cases keyed
    rw [value] at found
    refine ⟨e, encloses, fun returned => ?_⟩
    have all : ∀ m ∈ Sample.bareMembers.enumMembers Sample.bareDeclaration.node, m.value = "B" :=
      (found.mp returned).resolve_left (by decide)
    exact absurd (all _ Sample.writes_plain.mem) (by decide)

/-- In `enum E { A, 'B' }`, the name of the second member lies in the enumeration only, which has the
strings of both members, while the member has one. -/
theorem bare_string_widened :
    (Sample.bareMember 3).key? = some (Sample.bareMember 3) ∧
    Declaration.enclosing? (Sample.bareMember 3) = some Sample.bareDeclaration ∧
    (∃ w, Returns Guard.visit Sample.bareCodebase
      (.declaration Sample.bareMembers Sample.bareDeclaration) (.start 1) (.ofList ["A", "B"]) w) ∧
    Sample.bareMembers.enumValue Sample.bareDeclaration.node "B" = .singleton "B" :=
  ⟨rfl, rfl, ⟨_, 1, rfl⟩, by decide +kernel⟩

end TemplateValues
