import TemplateValues.Proofs.Rules
import TemplateValues.Proofs.VisitState

/-!
# Where values come from

Every value is written somewhere: as a string, or as the key of a member (`Source.Spells`).  A rule
puts the answers to its questions together and adds what its own node spells out, so if the answers
are spelled out in some sources, then so is what it makes of them (`Goal.Inside.keeps`).  The same
holds of what a visit remembers, and so of all answers (`Returns.genuine`).
-/

namespace TemplateValues

open Syntax

/-! ## What a source spells out -/

namespace Syntax.Node

def IsEnumBody (n : Node) : Prop :=
  n.kind = .enumBody ∨
    ∃ e, n.parent? = some e ∧ e.kind = .enumDeclaration ∧ e.child? .body = some n

def IsEnumMember (n : Node) : Prop :=
  n.kind = .enumAssignment ∨
    ((n.kind = .propertyIdentifier ∨ n.kind = .string) ∧
      ∃ body, n.parent? = some body ∧ body.IsEnumBody)

def IsObjectMember (n : Node) : Prop :=
  (n.kind = .pair ∨ n.kind = .shorthandPropertyIdentifier ∨ n.kind = .methodDefinition) ∧
    ∃ object, n.parent? = some object ∧ object.kind = .object

def key? (n : Node) : Option Node :=
  match n.kind with
  | .pair => n.child? .key
  | .methodDefinition => n.child? .name
  | .enumAssignment => (n.child? .name).or (n.child? .property)
  | _ => some n

theorem parent?_of_mem_namedChildren {n m : Node} (child : m ∈ n.namedChildren) :
    m.parent? = some n :=
  (mem_children (List.mem_filter.mp child).1).1

theorem parent?_of_child? {n m : Node} {f : Field} (child : n.child? f = some m) :
    m.parent? = some n :=
  (mem_children (List.mem_of_find?_eq_some child)).1

end Syntax.Node

namespace Source

/-- The value is written in the source: as a string, as a template or a template type without
substitutions, or as the key of a member of an enumeration or of an object. -/
inductive Spells (s : Source) (value : String) : Prop where
  | string {n : Node} : s.root.Under n → n.kind = .string →
      Text.unquote (s.textOf n) = some value → Spells s value
  | template {n : Node} : s.root.Under n → n.kind = .templateString →
      (∀ m ∈ n.namedChildren, m.kind ≠ .templateSubstitution) →
      Text.unquote (s.textOf n) = some value → Spells s value
  | templateType {n : Node} : s.root.Under n → n.kind = .templateLiteralType →
      n.childOfKind? .templateType = none →
      Text.unquote (s.textOf n) = some value → Spells s value
  | key {n k : Node} : s.root.Under n → n.IsEnumMember ∨ n.IsObjectMember → n.key? = some k →
      s.keyText? k = some value → Spells s value

variable {s : Source}

theorem spells_of_stringValue? {n : Node} (inside : s.root.Under n) {value : String}
    (written : s.stringValue? n = some value) : s.Spells value := by
  unfold stringValue? at written
  split at written
  · exact .string inside ‹_› written
  · split at written
    · cases written
    · rename_i kind plain
      refine .template inside kind (fun m member substitution => plain ?_) written
      exact List.any_eq_true.mpr ⟨m, member, decide_eq_true substitution⟩
  · cases written

theorem spells_of_objectKey? {object n : Node} (inside : s.root.Under object)
    (kind : object.kind = .object) (child : n ∈ object.namedChildren) {value : String}
    (written : s.objectKey? n = some value) : s.Spells value := by
  have under := inside.trans (Node.below_of_mem_namedChildren child).under
  have parent := Node.parent?_of_mem_namedChildren child
  unfold objectKey? at written
  split at written
  case h_1 | h_3 =>
    obtain ⟨k, found, written⟩ := Option.bind_eq_some_iff.mp written
    refine .key under (.inr ⟨by simp [*], object, parent, kind⟩) ?_ written
    simp [Node.key?, *]
  case h_2 =>
    refine .key under (.inr ⟨by simp [*], object, parent, kind⟩) ?_ written
    simp [Node.key?, *]
  case h_4 => cases written

/-- Both the name of a member of an enumeration and the string that it is given are written. -/
theorem spells_of_enumMember? {enum body n : Node} (inside : s.root.Under enum)
    (kind : enum.kind = .enumDeclaration) (held : enum.child? .body = some body)
    (child : n ∈ body.namedChildren) {m : EnumMember} (member : s.enumMember? n = some m) :
    s.Spells m.name ∧ ∀ value, m.value? = some value → s.Spells value := by
  have under : s.root.Under n :=
    (inside.trans (Node.below_of_child? held).under).trans (Node.below_of_mem_namedChildren child).under
  have isBody : body.IsEnumBody := .inr ⟨enum, Node.parent?_of_child? held, kind, held⟩
  have parent := Node.parent?_of_mem_namedChildren child
  unfold enumMember? at member
  split at member
  case h_1 =>
    obtain ⟨name, named, rfl⟩ := Option.map_eq_some_iff.mp member
    obtain ⟨k, found, written⟩ := Option.bind_eq_some_iff.mp named
    constructor
    · refine .key under (.inl (.inl ‹_›)) ?_ written
      simp [Node.key?, *]
    · intro value given
      obtain ⟨v, valued, given⟩ := Option.bind_eq_some_iff.mp given
      exact spells_of_stringValue? (under.trans (Node.below_of_child? valued).under) given
  case h_2 | h_3 =>
    obtain ⟨name, written, rfl⟩ := Option.map_eq_some_iff.mp member
    refine ⟨.key under (.inl (.inr ⟨by simp [*], body, parent, isBody⟩)) ?_ written, by simp⟩
    simp [Node.key?, *]
  case h_4 => cases member

theorem spells_of_mem_enumMembers {enum : Node} (inside : s.root.Under enum)
    (kind : enum.kind = .enumDeclaration) {m : EnumMember} (member : m ∈ s.enumMembers enum) :
    s.Spells m.name ∧ s.Spells m.value := by
  unfold enumMembers at member
  split at member
  · rename_i body held
    obtain ⟨n, child, member⟩ := List.mem_filterMap.mp member
    obtain ⟨name, given⟩ := spells_of_enumMember? inside kind held child member
    refine ⟨name, ?_⟩
    cases value : m.value? with
    | none => simpa [EnumMember.value, value] using name
    | some text => simpa [EnumMember.value, value] using given text value
  · cases member

end Source

namespace Declaration

/-- Only declarations of enumerations declare enumerations. -/
theorem kind_of_enumeration {n : Node} {d : Declaration} (declares : ofNode? n = some d)
    (kind : d.kind = .enumeration) : n.kind = .enumDeclaration := by
  have naming : ∀ {k f}, naming? k n f = some d → k = .enumeration := by
    intro k f named
    obtain ⟨name, -, rfl⟩ := Option.map_eq_some_iff.mp named
    exact kind
  unfold ofNode? at declares
  split at declares
  case h_1 => assumption
  case h_4 | h_5 | h_6 => cases naming (Option.filter_eq_some_iff.mp declares).1
  case h_7 | h_13 =>
    split at declares
    · cases declares
      cases kind
    · cases declares
  case h_8 | h_9 | h_10 | h_11 =>
    obtain named | ⟨-, named⟩ := Option.or_eq_some_iff.mp declares <;> cases naming named
  case h_14 => cases declares
  all_goals cases naming declares

theorem key?_of_enumAssignment {n : Node} {d : Declaration} (declares : ofNode? n = some d)
    (kind : n.kind = .enumAssignment) : n.key? = some d.name := by
  simp only [ofNode?, kind, naming?] at declares
  simp only [Node.key?, kind]
  cases name : n.child? .name with
  | some k =>
    rw [name] at declares
    cases declares
    rfl
  | none =>
    rw [name] at declares
    obtain ⟨k, property, rfl⟩ := Option.map_eq_some_iff.mp declares
    exact property

theorem eq_of_propertyIdentifier {n : Node} {d : Declaration} (declares : ofNode? n = some d)
    (kind : n.kind = .propertyIdentifier) :
    d.name = n ∧ ∃ body, n.parent? = some body ∧ body.IsEnumBody := by
  simp only [ofNode?, kind] at declares
  split at declares
  · rename_i inBody
    cases declares
    obtain ⟨body, parent, isBody⟩ := (Option.any_eq_true _ _).mp inBody
    exact ⟨rfl, body, parent, .inl (of_decide_eq_true isBody)⟩
  · cases declares

end Declaration

/-! ## Sets of values that are written -/

namespace LiteralSet

def Genuine (P : String → Prop) (s : LiteralSet) : Prop := ∀ v ∈ s.values, P v

variable {P Q : String → Prop} {s t : LiteralSet}

theorem genuine_empty : empty.Genuine P := by simp [Genuine, empty]

theorem genuine_ofOption {value? : Option String} (holds : ∀ v, value? = some v → P v) :
    (ofOption value?).Genuine P := by
  cases value? with
  | none => exact genuine_empty
  | some v => simpa [Genuine, ofOption, singleton] using holds

theorem Genuine.insert {v : String} (genuine : s.Genuine P) (holds : P v) :
    (s.insert v).Genuine P := by
  unfold LiteralSet.insert
  split
  · exact genuine
  · intro w member
    obtain old | last := List.mem_append.mp member
    · exact genuine w old
    · rw [List.mem_singleton.mp last]
      exact holds

theorem Genuine.insertAll {values : List String} (genuine : s.Genuine P) (holds : ∀ v ∈ values, P v) :
    (s.insertAll values).Genuine P := by
  induction values generalizing s with
  | nil => exact genuine
  | cons v values ih =>
    exact ih (genuine.insert (holds v List.mem_cons_self)) fun w member =>
      holds w (List.mem_cons_of_mem v member)

theorem genuine_ofList {values : List String} (holds : ∀ v ∈ values, P v) :
    (ofList values).Genuine P :=
  genuine_empty.insertAll holds

theorem Genuine.union (left : s.Genuine P) (right : t.Genuine P) : (s.union t).Genuine P :=
  left.insertAll right

theorem Genuine.mono (genuine : s.Genuine P) (implies : ∀ v, P v → Q v) : s.Genuine Q :=
  fun v member => implies v (genuine v member)

end LiteralSet

def Spelled (sources : List Source) (value : String) : Prop := ∃ s ∈ sources, s.Spells value

namespace Source

variable {sources : List Source} {s : Source} (source : s ∈ sources)
include source

theorem genuine_stringValue? (n? : Option Node) (inside : ∀ n, n? = some n → s.root.Under n) :
    (LiteralSet.ofOption (n?.bind s.stringValue?)).Genuine (Spelled sources) := by
  refine LiteralSet.genuine_ofOption fun v written => ⟨s, source, ?_⟩
  obtain ⟨n, found, written⟩ := Option.bind_eq_some_iff.mp written
  exact spells_of_stringValue? (inside n found) written

theorem genuine_objectKeys {n : Node} (inside : s.root.Under n) (kind : n.kind = .object) :
    (s.objectKeys n).Genuine (Spelled sources) := by
  refine LiteralSet.genuine_ofList fun v member => ⟨s, source, ?_⟩
  obtain ⟨m, child, written⟩ := List.mem_filterMap.mp member
  exact spells_of_objectKey? inside kind child written

variable {d : Declaration} (holds : s.Holds d) (kind : d.kind = .enumeration)
include holds kind

theorem genuine_enumNames : (s.enumNames d.node).Genuine (Spelled sources) := by
  refine LiteralSet.genuine_ofList fun v member => ⟨s, source, ?_⟩
  obtain ⟨m, listed, rfl⟩ := List.mem_map.mp member
  have node := Declaration.kind_of_enumeration holds.declares kind
  exact (spells_of_mem_enumMembers holds.under node listed).1

theorem genuine_enumValues : (s.enumValues d.node).Genuine (Spelled sources) := by
  refine LiteralSet.genuine_ofList fun v member => ⟨s, source, ?_⟩
  obtain ⟨m, listed, rfl⟩ := List.mem_map.mp member
  have node := Declaration.kind_of_enumeration holds.declares kind
  exact (spells_of_mem_enumMembers holds.under node listed).2

theorem genuine_enumValue (name : String) : (s.enumValue d.node name).Genuine (Spelled sources) := by
  refine LiteralSet.genuine_ofOption fun v found => ⟨s, source, ?_⟩
  obtain ⟨m, listed, rfl⟩ := Option.map_eq_some_iff.mp found
  have node := Declaration.kind_of_enumeration holds.declares kind
  exact (spells_of_mem_enumMembers holds.under node (List.mem_of_find?_eq_some listed)).2

end Source

/-! ## Inquiries that make nothing up -/

namespace Inquiry

/-- If `P` holds of all values in the answers, then it does of all values in the end. -/
inductive Keeps (P : String → Prop) : Inquiry LiteralSet → Prop where
  | done {values} : values.Genuine P → Keeps P (.done values)
  | ask {goal next} : (∀ values, values.Genuine P → Keeps P (next values)) → Keeps P (.ask goal next)
  | halt {h} : Keeps P (.halt h)

section Keeps

variable {α : Type} {P : String → Prop}

theorem keeps_pure {values : LiteralSet} (genuine : values.Genuine P) :
    (pure values : Inquiry LiteralSet).Keeps P :=
  .done genuine

theorem keeps_one (goal : Goal) : (one goal).Keeps P := .ask fun _ => .done

theorem keeps_unknown : (Eval.unknown : Inquiry LiteralSet).Keeps P :=
  .done LiteralSet.genuine_empty

theorem keeps_bind {q : Inquiry LiteralSet} {f : LiteralSet → Inquiry LiteralSet} (first : q.Keeps P)
    (rest : ∀ values, values.Genuine P → (f values).Keeps P) : (q >>= f).Keeps P := by
  induction first with
  | done genuine => exact rest _ genuine
  | ask _ ih => exact .ask ih
  | halt => exact .halt

theorem keeps_ite {p : Prop} [Decidable p] {q r : Inquiry LiteralSet} (yes : p → q.Keeps P)
    (no : ¬ p → r.Keeps P) : (if p then q else r).Keeps P := by
  split
  · exact yes ‹_›
  · exact no ‹_›

theorem keeps_collect {f : α → Inquiry LiteralSet} {xs : List α} (each : ∀ x ∈ xs, (f x).Keeps P) :
    (Eval.collect f xs).Keeps P := by
  unfold Eval.collect
  -- the values collected so far are kept along the list
  suffices collected : ∀ start : LiteralSet, start.Genuine P →
      (xs.foldlM (fun values x => return values.union (← f x)) start : Inquiry LiteralSet).Keeps P from
    collected _ LiteralSet.genuine_empty
  induction xs with
  | nil => exact fun start => .done
  | cons x xs ih =>
    intro start genuine
    rw [List.foldlM_cons]
    refine keeps_bind (keeps_bind (each x List.mem_cons_self) fun values more => ?_) ?_
    · exact keeps_pure (genuine.union more)
    · exact ih fun y member => each y (List.mem_cons_of_mem x member)

theorem keeps_orElse {first second : Inquiry LiteralSet} (left : first.Keeps P)
    (right : second.Keeps P) : (Eval.orElse first second).Keeps P :=
  keeps_bind left fun _ genuine => keeps_ite (fun _ => right) fun _ => keeps_pure genuine

theorem keeps_firstKnown {f : α → Inquiry LiteralSet} {xs : List α}
    (each : ∀ x ∈ xs, (f x).Keeps P) : (Eval.firstKnown f xs).Keeps P := by
  induction xs with
  | nil => exact keeps_unknown
  | cons x xs ih =>
    refine keeps_orElse (each x List.mem_cons_self) ?_
    exact ih fun y member => each y (List.mem_cons_of_mem x member)

theorem keeps_asked {f : α → Inquiry LiteralSet} {x? : Option α}
    (each : ∀ x, x? = some x → (f x).Keeps P) : (Eval.asked f x?).Keeps P := by
  cases x? with
  | none => exact keeps_unknown
  | some x => exact each x rfl

variable {c : Codebase} {s : Source}

theorem keeps_meant {name : String} {space : Space}
    {onward : Source → Declaration → Inquiry LiteralSet}
    (each : ∀ t d, c.Provides s t d → (onward t d).Keeps P) :
    (Values.meant c s name space onward).Keeps P := by
  rw [Values.meant_eq]
  split
  · exact each _ _ (Codebase.provides_of_declared? ‹_›)
  · exact keeps_unknown

theorem keeps_named {name : String} {space : Space} {goal : Source → Declaration → Goal} :
    (Values.named c one s name space goal).Keeps P :=
  keeps_meant fun _ _ _ => keeps_one _

theorem keeps_dotted (expression : String) : (Values.dotted c one s expression).Keeps P := by
  unfold Values.dotted
  split
  · refine keeps_ite (fun _ => ?_) fun _ => keeps_unknown
    rw [Values.chained_eq]
    split
    · exact keeps_one _
    · split
      · exact keeps_one _
      · exact keeps_unknown
  · exact keeps_unknown

theorem keeps_elements {array : Node} : (Values.elements one s array).Keeps P :=
  keeps_collect fun _ _ => keeps_one _

theorem keeps_objectValues {object : Node} : (Values.objectValues c one s object).Keeps P := by
  refine keeps_collect fun m _ => ?_
  unfold Values.propertyValues
  split
  · exact keeps_asked fun _ _ => keeps_one _
  · exact keeps_named
  · exact keeps_unknown

end Keeps

/-! ## The rules -/

section Rules

variable {c : Codebase} {sources : List Source} {s : Source} {n : Node} {d : Declaration}

theorem keeps_expression (source : s ∈ sources) (inside : s.root.Under n) :
    (Values.expression c one s n).Keeps (Spelled sources) := by
  have under : s.root.Under (s.unwrap n) := inside.trans (Source.under_unwrap n)
  unfold Values.expression
  dsimp only
  split
  case h_1 | h_2 =>
    refine keeps_pure (Source.genuine_stringValue? source (some (s.unwrap n)) ?_)
    rintro m ⟨⟩
    exact under
  case h_3 => exact keeps_pure (Source.genuine_objectKeys source under ‹_›)
  case h_4 => exact keeps_elements
  case h_5 =>
    refine keeps_orElse (keeps_asked fun _ _ => keeps_one _) (keeps_pure ?_)
    refine Source.genuine_stringValue? source _ fun m found => ?_
    obtain ⟨e, first, rfl⟩ := Option.map_eq_some_iff.mp found
    have below := Node.below_of_mem_content (List.mem_of_head? first)
    exact (under.trans below.under).trans (Source.under_unwrap e)
  case h_6 => exact keeps_named
  case h_7 => exact keeps_dotted _
  case h_8 => exact keeps_collect fun _ _ => keeps_one _
  case h_9 => exact keeps_unknown

theorem keeps_expressionMember {name : String} {rest : List String} :
    (Values.expressionMember c one s n name rest).Keeps (Spelled sources) := by
  unfold Values.expressionMember
  dsimp only
  split
  · split
    · refine keeps_ite (fun _ => keeps_named) fun _ => ?_
      exact keeps_ite (fun _ => keeps_one _) fun _ => keeps_one _
    · exact keeps_unknown
  · exact keeps_named
  · exact keeps_orElse (keeps_asked fun _ _ => keeps_one _) (keeps_asked fun _ _ => keeps_one _)
  · exact keeps_dotted _
  · exact keeps_unknown

theorem keeps_typeMember {name : String} {rest : List String} :
    (Values.typeMember c one s n name rest).Keeps (Spelled sources) := by
  unfold Values.typeMember
  split
  case h_4 | h_5 =>
    exact keeps_asked fun _ _ => keeps_ite (fun _ => keeps_one _) fun _ => keeps_one _
  case h_6 => exact keeps_named
  case h_9 => exact keeps_collect fun _ _ => keeps_one _
  case h_10 => exact keeps_firstKnown fun _ _ => keeps_one _
  case h_11 => exact keeps_unknown
  all_goals exact keeps_asked fun _ _ => keeps_one _

variable (all : c.sources ⊆ sources) (source : s ∈ sources)

include all source in
theorem keeps_idiom {i : Idiom} : (Values.idiom c one s i).Keeps (Spelled sources) := by
  cases i with
  | values x y =>
    refine keeps_ite (fun _ => keeps_meant fun t d provides => ?_) fun _ => keeps_unknown
    refine keeps_ite (fun kind => keeps_pure ?_) fun _ => keeps_one _
    exact Source.genuine_enumValues (provides.within all source).1 provides.holds kind
  | keys x => exact keeps_named
  | elements x =>
    refine keeps_meant fun t d provides => ?_
    split
    · exact keeps_elements
    · exact keeps_unknown

include all source in
theorem keeps_type (inside : s.root.Under n) :
    (Values.type c one s n).Keeps (Spelled sources) := by
  unfold Values.type
  split
  case h_5 => exact keeps_collect fun _ _ => keeps_one _
  case h_6 =>
    refine keeps_pure (Source.genuine_stringValue? source _ fun m found => ?_)
    exact inside.trans (Node.below_of_mem_content (List.mem_of_head? found)).under
  case h_7 =>
    refine keeps_pure (Source.genuine_stringValue? source (some n) ?_)
    rintro m ⟨⟩
    exact inside
  case h_8 =>
    refine keeps_ite (fun _ => keeps_unknown) fun plain => keeps_pure ?_
    refine LiteralSet.genuine_ofOption fun v written => ⟨s, source, ?_⟩
    exact .templateType inside ‹_› (Option.not_isSome_iff_eq_none.mp plain) written
  case h_9 => exact keeps_named
  case h_10 => exact keeps_asked fun _ _ => keeps_named
  case h_11 =>
    split
    · exact keeps_ite (fun _ => keeps_asked fun _ _ => keeps_one _) fun _ => keeps_one _
    · exact keeps_unknown
  case h_12 => exact keeps_asked fun _ _ => keeps_idiom all source
  all_goals exact keeps_asked fun _ _ => keeps_one _

include all source in
theorem keeps_valuesOf : (Values.valuesOf c one s n).Keeps (Spelled sources) := by
  unfold Values.valuesOf
  dsimp only
  split
  · exact keeps_objectValues
  · refine keeps_meant fun t d provides => ?_
    split
    · rename_i kind
      exact keeps_pure (Source.genuine_enumValues (provides.within all source).1 provides.holds kind)
    · split
      · exact keeps_objectValues
      · exact keeps_unknown
    · exact keeps_unknown
  · exact keeps_unknown

include source in
theorem keeps_keysOf (inside : s.root.Under n) :
    (Values.keysOf c one s n).Keeps (Spelled sources) := by
  unfold Values.keysOf
  dsimp only
  split
  · exact keeps_pure (Source.genuine_objectKeys source (inside.trans (Source.under_unwrap n)) ‹_›)
  · exact keeps_named
  · exact keeps_unknown

include all source in
theorem keeps_elementsOf (inside : s.root.Under n) :
    (Values.elementsOf c one s n).Keeps (Spelled sources) := by
  unfold Values.elementsOf
  dsimp only
  split
  · split
    · exact keeps_valuesOf all source
    · rename_i argument _ found
      have below := Source.below_of_mem_callArguments (List.mem_of_head? found)
      exact keeps_keysOf source ((inside.trans (Source.under_unwrap n)).trans below.under)
    · exact keeps_unknown
  · exact keeps_elements
  · exact keeps_named
  · exact keeps_dotted _
  · exact keeps_unknown

include all source in
theorem keeps_iteration (inside : s.root.Under d.node) :
    (Values.iteration c one s d).Keeps (Spelled sources) := by
  have called : ∀ {f}, s.root.Under f →
      (Eval.asked (Values.elementsOf c one s) (Values.collection? s f)).Keeps (Spelled sources) :=
    fun under => keeps_asked fun _ found =>
      keeps_elementsOf all source (under_of_collection? under found)
  unfold Values.iteration
  refine keeps_ite (fun _ => ?_) fun _ => keeps_unknown
  split
  · rename_i p up
    have above : s.root.Under p := inside.parent rfl up
    split
    · unfold Values.loop
      split
      · rename_i right found _
        exact keeps_elementsOf all source (above.trans (Node.below_of_child? found).under)
      · rename_i right found _
        exact keeps_keysOf source (above.trans (Node.below_of_child? found).under)
      · exact keeps_unknown
    · exact called above
    · split
      · rename_i f upper
        exact keeps_ite (fun _ => called (above.parent rfl upper)) fun _ => keeps_unknown
      · exact keeps_unknown
    · exact keeps_unknown
  · exact keeps_unknown

theorem keeps_given : (Values.given one s d).Keeps (Spelled sources) :=
  keeps_orElse (keeps_asked fun _ _ => keeps_one _) (keeps_asked fun _ _ => keeps_one _)

include source in
theorem keeps_property (holds : s.Holds d) : (Values.property one s d).Keeps (Spelled sources) := by
  unfold Values.property
  split
  · rename_i kind
    refine keeps_pure (LiteralSet.genuine_ofOption fun v written => ⟨s, source, ?_⟩)
    obtain given | ⟨-, named⟩ := Option.or_eq_some_iff.mp written
    · obtain ⟨n, initializer, given⟩ := Option.bind_eq_some_iff.mp given
      exact Source.spells_of_stringValue? (Source.under_of_initializer? holds.under initializer) given
    · have key := Declaration.key?_of_enumAssignment holds.declares kind
      exact .key holds.under (.inl (.inl kind)) key named
  · rename_i kind
    refine keeps_pure (LiteralSet.genuine_ofOption fun v written => ⟨s, source, ?_⟩)
    obtain ⟨same, body, parent, isBody⟩ := Declaration.eq_of_propertyIdentifier holds.declares kind
    refine .key holds.under (.inl (.inr ⟨.inl kind, body, parent, isBody⟩)) ?_ written
    simp [Node.key?, kind, same]
  · exact keeps_given

include all source in
theorem keeps_declaration (holds : s.Holds d) :
    (Values.declaration c one s d).Keeps (Spelled sources) := by
  unfold Values.declaration
  split
  · exact keeps_pure (Source.genuine_enumValues source holds ‹_›)
  · exact keeps_given
  · exact keeps_asked fun _ _ => keeps_one _
  · exact keeps_unknown
  · exact keeps_orElse (keeps_asked fun _ _ => keeps_one _) (keeps_iteration all source holds.under)
  · exact keeps_property source holds

include source in
theorem keeps_initializerKeys (holds : s.Holds d) :
    (Values.initializerKeys c one s d).Keeps (Spelled sources) := by
  unfold Values.initializerKeys
  split
  · rename_i n found
    obtain ⟨m, initializer, rfl⟩ := Option.map_eq_some_iff.mp found
    have under : s.root.Under (s.unwrap m) :=
      (Source.under_of_initializer? holds.under initializer).trans (Source.under_unwrap m)
    split
    · exact keeps_pure (Source.genuine_objectKeys source under ‹_›)
    · exact keeps_named
    · exact keeps_unknown
  · exact keeps_unknown

include source in
theorem keeps_declarationMember (holds : s.Holds d) {name : String} {rest : List String} :
    (Values.declarationMember one s d name rest).Keeps (Spelled sources) := by
  unfold Values.declarationMember
  dsimp only
  split
  · refine keeps_ite (fun _ => keeps_pure ?_) fun _ => keeps_unknown
    exact Source.genuine_enumValue source holds ‹_› name
  · exact keeps_asked fun _ _ => keeps_one _
  · exact keeps_orElse (keeps_asked fun _ _ => keeps_one _) (keeps_firstKnown fun _ _ => keeps_one _)
  all_goals exact keeps_orElse (keeps_asked fun _ _ => keeps_one _) (keeps_asked fun _ _ => keeps_one _)

end Rules

end Inquiry

section Answers

variable {c : Codebase} {sources : List Source}

/-- A rule makes up nothing. -/
theorem Goal.Inside.keeps (all : c.sources ⊆ sources) {goal : Goal} (inside : goal.Inside sources) :
    (goal.inquiry c).Keeps (Spelled sources) := by
  match goal, inside with
  | .declaration s d, ⟨source, holds⟩ => exact Inquiry.keeps_declaration all source holds
  | .keys s d, ⟨source, holds⟩ =>
    unfold Goal.inquiry
    dsimp only
    split
    · exact Inquiry.keeps_pure (Source.genuine_enumNames source holds ‹_›)
    · exact Inquiry.keeps_initializerKeys source holds
    · exact Inquiry.keeps_unknown
  | .chain s d [], _ => exact Inquiry.keeps_one _
  | .chain s d (name :: rest), ⟨source, holds⟩ => exact Inquiry.keeps_declarationMember source holds
  | .expression s n, ⟨source, inside⟩ => exact Inquiry.keeps_expression source inside
  | .type s n, ⟨source, inside⟩ => exact Inquiry.keeps_type all source inside
  | .expressionMember s n [], ⟨_, _, more⟩ | .typeMember s n [], ⟨_, _, more⟩ => exact absurd rfl more
  | .expressionMember s n (name :: rest), _ => exact Inquiry.keeps_expressionMember
  | .typeMember s n (name :: rest), _ => exact Inquiry.keeps_typeMember

/-! ## Answers -/

def Visit.Genuine (P : String → Prop) (v : Visit) : Prop := ∀ entry ∈ v.finished, entry.2.Genuine P

theorem Visit.genuine_start (P : String → Prop) (limit : Nat) : (Visit.start limit).Genuine P := by
  simp [Visit.Genuine, Visit.start]

variable {P : String → Prop} {v w u : Visit} {values : LiteralSet}

theorem Visit.Genuine.of_turns {gate : Gate} (genuine : v.Genuine P)
    (turned : Guard.visit.Turns gate v values w) : values.Genuine P ∧ w.Genuine P := by
  obtain ⟨rfl, k, -, known⟩ | ⟨rfl, rfl⟩ := visit_turns turned
  · obtain ⟨before, after, split, -⟩ := List.lookup_eq_some_iff.mp known
    exact ⟨genuine _ (split ▸ List.mem_append_right _ List.mem_cons_self), genuine⟩
  · exact ⟨LiteralSet.genuine_empty, genuine⟩

theorem Visit.Genuine.of_opens {gate : Gate} (genuine : v.Genuine P)
    (opened : Guard.visit.Opens gate v u) : u.Genuine P := by
  obtain ⟨-, rfl⟩ | ⟨k, -, -, -, rfl⟩ := visit_opens opened
  · exact genuine
  · exact genuine

theorem Visit.Genuine.leave (genuine : v.Genuine P) (k : Key) : (v.leave k).Genuine P := by
  simpa only [Visit.Genuine, Visit.leave_finished] using genuine

theorem Visit.Genuine.close {entered : Visit} (genuine : v.Genuine P) (known : values.Genuine P)
    (gate : Gate) : (Guard.visit.close gate entered values v).Genuine P := by
  cases gate with
  | free => exact genuine
  | held k => exact genuine.leave k
  | remembered k =>
    simp only [Guard.close, Guard.visit]
    split
    · intro entry member
      obtain rfl | member := List.mem_cons.mp member
      · exact known
      · exact genuine.leave k entry member
    · exact genuine.leave k

/-- An inquiry that makes up nothing comes to an end with nothing made up, if all answers do. -/
theorem Inquiry.Keeps.of_run {R : Goal → Visit → LiteralSet → Visit → Prop} {I : Goal → Prop}
    (answers : ∀ goal v values w, R goal v values w → I goal → v.Genuine P →
      values.Genuine P ∧ w.Genuine P)
    {q : Inquiry LiteralSet} (run : q.Run R v values w) (only : q.Only I) (keeps : q.Keeps P)
    (start : v.Genuine P) : values.Genuine P ∧ w.Genuine P := by
  induction run with
  | done =>
    cases keeps with
    | done genuine => exact ⟨genuine, start⟩
  | ask answered _ ih =>
    cases keeps with
    | ask next =>
      obtain ⟨genuine, after⟩ := answers _ _ _ _ answered only.1 start
      exact ih (only.2 _) (next _ genuine) after

/-- What is answered is written in the sources, and so is what is remembered. -/
theorem Returns.genuine (all : c.sources ⊆ sources) {goal : Goal}
    (returned : Returns Guard.visit c goal v values w) (inside : goal.Inside sources)
    (start : v.Genuine (Spelled sources)) :
    values.Genuine (Spelled sources) ∧ w.Genuine (Spelled sources) := by
  refine Returns.induct (P := fun goal v values w => goal.Inside sources → v.Genuine (Spelled sources) →
    values.Genuine (Spelled sources) ∧ w.Genuine (Spelled sources)) ?_ ?_ returned inside start
  · exact fun turned _ start => start.of_turns turned
  · intro goal v u values u' opened run inside start
    obtain ⟨genuine, after⟩ := Inquiry.Keeps.of_run (fun _ _ _ _ answered => answered.2) run
      (inside.inquiry_inside all) (inside.keeps all) (start.of_opens opened)
    exact ⟨genuine, after.close genuine _⟩

end Answers

end TemplateValues
