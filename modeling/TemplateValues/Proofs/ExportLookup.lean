import TemplateValues.Proofs.Exports
import TemplateValues.Proofs.Parsing.Shape
import TemplateValues.Proofs.Scope

/-!
# What an exported name can stand for

Following an exported name finds a declaration of the space that is asked for, whatever the trees of the
sources are like.  That it is no property depends on where properties stand.  As long as none stands in an
export statement or in a declaration that may be exported (`Source.PropertiesApart`), an exported name
never stands for one (`Source.ne_property_of_exported?`).  The rules of every dialect see to that.
-/

namespace TemplateValues

open Syntax

/-! ## Sources that were read -/

/-- The tree of the source is that of its text. -/
def Source.Parsed (s : Source) : Prop := s.tree = Syntax.parse s.language.dialect s.text

theorem Source.parsed_of_parse {w : Workspace} {p : Path} {text : String} {s : Source}
    (read : Source.parse w p text = .ok s) : s.Parsed := by
  unfold Source.parse at read
  split at read
  · cases read
    rfl
  · cases read

theorem Source.parsed_of_load {w : Workspace} {p : Path} {s : Source}
    (read : Source.load w p = .ok s) : s.Parsed := by
  unfold Source.load at read
  cases text : (w.read p).mapError (SourceFault.unreadable p) with
  | error fault =>
    rw [text] at read
    cases read
  | ok text' =>
    rw [text] at read
    exact parsed_of_parse read

namespace Codebase

theorem parsed_of_mem_sources {w : Workspace} {lookup : Project.Lookup} {hops : Nat} {s : Source}
    (member : s ∈ (ofWorkspace w lookup hops).sources) : s.Parsed := by
  obtain ⟨file, -, read⟩ := List.mem_filterMap.mp member
  cases loaded : Source.load w ⟨"" :: file.names⟩ with
  | error fault => simp [loaded, Except.toOption] at read
  | ok s' =>
    simp only [loaded, Except.toOption, Option.some.injEq] at read
    exact read ▸ Source.parsed_of_load loaded

/-- What holds of all sources holds of every module that a name leads to. -/
theorem Leads.all {c : Codebase} {P : Source → Prop} {k : Nat} {s t : Source} {name n : String}
    (leads : c.Leads k s name t n) (each : ∀ u ∈ s :: c.sources, P u) : P t := by
  induction leads with
  | refl => exact each _ List.mem_cons_self
  | @step k s t u name n m first _ ih =>
    have inside : t ∈ c.sources := by
      cases first with
      | exportedImport _ _ _ found | reexport _ found => exact mem_sources_of_module? found
    exact ih (List.forall_mem_cons.mpr
      ⟨each _ (List.mem_cons_of_mem _ inside), fun u member => each u (List.mem_cons_of_mem _ member)⟩)

end Codebase

/-! ## Kinds of declarations -/

/-- The statements that export, and the declarations that have others inside. -/
def Syntax.Kind.isExporting : Kind → Bool
  | .exportStatement | .lexicalDeclaration | .variableDeclaration | .ambientDeclaration => true
  | _ => false

def Syntax.Kind.isProperty : Kind → Bool
  | .propertySignature | .publicFieldDefinition | .fieldDefinition | .enumAssignment | .pair => true
  | _ => false

theorem bars_properties (d : Dialect) : d.grammar.bars Kind.isExporting Kind.isProperty := by
  obtain ⟨types, markup⟩ := d
  cases types <;> cases markup <;> decide +kernel

theorem Syntax.Node.Under.bars {root n : Node} {outer inner : Kind → Bool} (under : root.Under n)
    (bars : root.tree.Bars outer inner) : n.tree.Bars outer inner := by
  induction under with
  | refl => exact bars
  | child _ child ih => exact ih.children.2 _ (mem_childNodes child).1

namespace Source

/-- No property stands in an export statement or in a declaration that has others inside. -/
def PropertiesApart (s : Source) : Prop :=
  ∀ n, s.root.Under n → n.kind.isExporting → ∀ c ∈ n.children, c.kind.isProperty = false

instance (s : Source) : Decidable s.PropertiesApart :=
  decidable_of_iff (∀ n ∈ s.root.descendants, n.kind.isExporting →
      ∀ c ∈ n.children, c.kind.isProperty = false)
    (forall_congr' fun _ => imp_congr_left Node.mem_descendants)

theorem Parsed.propertiesApart {s : Source} (parsed : s.Parsed) : s.PropertiesApart := by
  intro n under exporting c child
  have bars : s.root.tree.Bars Kind.isExporting Kind.isProperty := by
    rw [show s.root.tree = s.tree from rfl, parsed]
    exact bars_parse rfl _ (bars_properties _) s.text
  exact (under.bars bars).children.1 exporting _ (mem_childNodes child).1

end Source

namespace Declaration

theorem kind_of_naming? {k : DeclarationKind} {n : Node} {f : Field} {d : Declaration}
    (named : naming? k n f = some d) : d.kind = k := by
  obtain ⟨name, -, rfl⟩ := Option.map_eq_some_iff.mp named
  rfl

theorem isProperty_of_ofNode? {n : Node} {d : Declaration} (declares : ofNode? n = some d)
    (property : d.kind = .property) :
    n.kind.isProperty ∨ ∃ p, n.parent? = some p ∧ p.kind = .enumBody := by
  unfold ofNode? at declares
  split at declares
  case h_1 | h_2 | h_3 =>
    rw [kind_of_naming? declares] at property
    cases property
  case h_4 | h_5 | h_6 =>
    rw [kind_of_naming? (Option.filter_eq_some_iff.mp declares).1] at property
    cases property
  case h_7 =>
    split at declares
    · cases declares
      cases property
    · cases declares
  case h_13 =>
    split at declares
    · rename_i inside
      cases parent : n.parent? with
      | none => simp [parent] at inside
      | some p => exact .inr ⟨p, rfl, by simpa [parent] using inside⟩
    · cases declares
  case h_14 => cases declares
  all_goals exact .inl (by simp [Kind.isProperty, *])

/-- The node is no property, and it does not become one by where it stands. -/
structure Clear (s : Source) (n : Node) : Prop where
  under : s.root.Under n
  own : n.kind.isProperty = false
  parent : ∀ p, n.parent? = some p → p.kind ≠ .enumBody

variable {s : Source}

theorem clear_child (apart : s.PropertiesApart) {n c : Node} (under : s.root.Under n)
    (exporting : n.kind.isExporting) (child : c ∈ n.children) : Clear s c := by
  obtain ⟨parent, -⟩ := Node.mem_children child
  refine ⟨under.child child, apart n under exporting c child, fun p found isBody => ?_⟩
  rw [parent] at found
  cases found
  rw [isBody] at exporting
  cases exporting

theorem Clear.kind_ne {n : Node} (clear : Clear s n) {d : Declaration} (declares : ofNode? n = some d) :
    d.kind ≠ .property := by
  intro property
  obtain own | ⟨p, parent, kind⟩ := isProperty_of_ofNode? declares property
  · rw [clear.own] at own
    cases own
  · exact clear.parent p parent kind

theorem kind_of_mem_introducedUpTo (apart : s.PropertiesApart) {depth : Nat} {n : Node}
    {d : Declaration} (clear : Clear s n) (member : d ∈ introducedUpTo depth n) :
    d.kind ≠ .property := by
  induction depth generalizing n with
  | zero => cases member
  | succ depth ih =>
    have child (exporting : n.kind.isExporting) {c : Node} (named : c ∈ n.namedChildren) : Clear s c :=
      clear_child apart clear.under exporting (List.mem_filter.mp named).1
    rw [introducedUpTo] at member
    split at member
    case h_1 kind | h_2 kind =>
      obtain ⟨c, named, declares⟩ := List.mem_filterMap.mp member
      exact (child (by rw [kind]; rfl) named).kind_ne declares
    case h_3 kind =>
      obtain ⟨c, named, inside⟩ := List.mem_flatMap.mp member
      exact ih (child (by rw [kind]; rfl) named) inside
    case h_4 => exact clear.kind_ne (Option.mem_toList.mp member)

end Declaration

/-! ## Exported names -/

namespace Source

variable {s : Source} {name : String} {space : Space} {d : Declaration}

theorem kind_of_find? (found : s.find? name space = some d) :
    d.kind.isIn space ∧ d.kind ≠ .property := by
  rw [find?_eq] at found
  obtain ⟨n, -, declares⟩ := List.exists_of_findSome?_eq_some found
  have holds := (Option.filter_eq_some_iff.mp declares).2
  simp only [binds, Bool.and_eq_true, decide_eq_true_eq] at holds
  exact ⟨holds.2.1, holds.1⟩

/-- An exported name stands for what an export statement declares, or for a declaration of the file. -/
theorem exported?_cases (found : s.exported? name space = some d) :
    (∃ statement ∈ s.exports, ∃ n, statement.child? .declaration = some n ∧
      d ∈ Declaration.introduced n ∧ s.binds name space d) ∨
    ∃ inside, s.find? inside space = some d := by
  unfold exported? at found
  dsimp only at found
  split at found
  · rename_i declared
    cases found
    obtain ⟨statement, listed, found⟩ := List.exists_of_findSome?_eq_some declared
    obtain ⟨n, child, found⟩ := Option.bind_eq_some_iff.mp found
    exact .inl ⟨statement, listed, n, child, List.mem_of_find?_eq_some found, List.find?_some found⟩
  · split at found
    · exact .inr ⟨_, found⟩
    · obtain ⟨inside, -, found⟩ := Option.bind_eq_some_iff.mp found
      exact .inr ⟨inside, found⟩

theorem isIn_of_exported? (found : s.exported? name space = some d) : d.kind.isIn space := by
  obtain ⟨_, _, _, _, _, bound⟩ | ⟨inside, found⟩ := exported?_cases found
  · exact (Bool.and_eq_true_iff.mp bound).1
  · exact (kind_of_find? found).1

theorem ne_property_of_exported? (apart : s.PropertiesApart)
    (found : s.exported? name space = some d) : d.kind ≠ .property := by
  obtain ⟨statement, listed, n, child, member, -⟩ | ⟨inside, found⟩ := exported?_cases found
  · obtain ⟨named, kind⟩ := List.mem_filter.mp listed
    have top : s.root.Under statement := .child .refl (List.mem_filter.mp named).1
    have exporting : statement.kind.isExporting := by
      rw [of_decide_eq_true kind]
      rfl
    have clear := Declaration.clear_child apart top exporting (List.mem_of_find?_eq_some child)
    exact Declaration.kind_of_mem_introducedUpTo apart clear member
  · exact (kind_of_find? found).2

end Source

namespace Codebase

/-- What is found is declared in a module in reach, under the name that leads there. -/
theorem leads_of_follow {c : Codebase} {s t : Source} {space : Space} {hops : Nat} {name : String}
    {d : Declaration} (found : c.follow space hops s name = some (t, d)) :
    ∃ k ≤ hops, ∃ n, c.Leads k s name t n ∧
      (t.exported? n space = some d ∨ t.find? n space = some d) := by
  obtain ⟨left, n, way, stops⟩ := follow_eq_some_iff.mp found
  obtain ⟨k, count, leads⟩ := way.leads
  refine ⟨k, by omega, n, leads, ?_⟩
  obtain exported | ⟨-, own, -⟩ := stops
  · exact .inl exported
  · exact .inr own

theorem isSome_follow_mono {c : Codebase} {space : Space} {s : Source} {name : String} {hops more : Nat}
    (atMost : hops ≤ more) (found : (c.follow space hops s name).isSome) :
    (c.follow space more s name).isSome :=
  isSome_follow_iff.mpr ((isSome_follow_iff.mp found).mono atMost)

theorem isIn_of_follow {c : Codebase} {s t : Source} {space : Space} {hops : Nat} {name : String}
    {d : Declaration} (found : c.follow space hops s name = some (t, d)) : d.kind.isIn space := by
  obtain ⟨_, _, _, _, exported | own⟩ := leads_of_follow found
  · exact Source.isIn_of_exported? exported
  · exact (Source.kind_of_find? own).1

theorem ne_property_of_follow {c : Codebase} {s t : Source}
    (apart : ∀ u ∈ s :: c.sources, u.PropertiesApart) {space : Space} {hops : Nat} {name : String}
    {d : Declaration} (found : c.follow space hops s name = some (t, d)) : d.kind ≠ .property := by
  obtain ⟨_, _, _, leads, exported | own⟩ := leads_of_follow found
  · exact Source.ne_property_of_exported? (leads.all apart) exported
  · exact (Source.kind_of_find? own).2

/-- Following an exported name succeeds just if so many steps lead to a module that declares the name
there.  Whatever is to be done with what is found, it is done once and with the same declaration, or
not at all.  What is found is declared in a module in reach and counts in the space; it is no property,
as long as the trees of the sources are those of their texts or else keep properties out of exports.
Something is still found when more steps are allowed. -/
theorem export_lookup_iff_reaches (c : Codebase) (s : Source) (name : String) (space : Space)
    (hops : Nat) :
    ((c.follow space hops s name).isSome ↔ ∃ k ≤ hops, ∃ t n, c.Leads k s name t n ∧
      ((t.exported? n space).isSome ∨ (t.find? n space).isSome)) ∧
    (∀ (M : Type → Type) [Monad M] [LawfulMonad M] (α : Type) (onward : Onward M α),
      c.followThen space hops s name onward =
        match c.follow space hops s name with
        | some (t, d) => .ok <$> onward t d
        | none => pure (.error onward)) ∧
    (∀ t d, c.follow space hops s name = some (t, d) →
      (∃ k ≤ hops, ∃ n, c.Leads k s name t n ∧
        (t.exported? n space = some d ∨ t.find? n space = some d)) ∧
      d.kind.isIn space ∧
      ((∀ u ∈ s :: c.sources, u.Parsed ∨ u.PropertiesApart) → d.kind ≠ .property)) ∧
    ∀ more, hops ≤ more → (c.follow space hops s name).isSome →
      (c.follow space more s name).isSome := by
  refine ⟨isSome_follow_iff, ?_, ?_, ?_⟩
  · intro M _ _ α onward
    rw [followThen_eq]
    rfl
  · intro t d found
    refine ⟨leads_of_follow found, isIn_of_follow found, fun trees => ne_property_of_follow ?_ found⟩
    exact fun u member => (trees u member).elim Source.Parsed.propertiesApart id
  · intro more atMost found
    exact isSome_follow_mono atMost found

def forwarding : Source :=
  ⟨⟨["", "main.ts"]⟩, .typescript, "export * from './part';",
    Syntax.parse ⟨true, false⟩ "export * from './part';"⟩

/-- In the modules of `Barrel` properties are kept apart, and `own` forwards `X`.  What a module that was
read forwards from a workspace is no property either. -/
theorem forwarded_lookup_iff_reaches :
    ((Barrel.codebase.follow .value 8 Barrel.own "X").isSome ∧
      ∃ k ≤ 8, ∃ t n, Barrel.codebase.Leads k Barrel.own "X" t n ∧
        ((t.exported? n .value).isSome ∨ (t.find? n .value).isSome)) ∧
    (∀ t d, Barrel.codebase.follow .value 8 Barrel.own "X" = some (t, d) →
      d.kind.isIn .value ∧ d.kind ≠ .property) ∧
    (Barrel.codebase.follow .value 9 Barrel.own "X").isSome ∧
    ∀ t d, (ofWorkspace ⟨[⟨["part.ts"], "export const X = 'x';".toUTF8⟩], []⟩ .nearest 8).follow .value 8
      forwarding "X" = some (t, d) → d.kind ≠ .property := by
  obtain ⟨reaches, -, found, more⟩ := export_lookup_iff_reaches Barrel.codebase Barrel.own "X" .value 8
  have some : (Barrel.codebase.follow .value 8 Barrel.own "X").isSome := by decide +kernel
  have apart : ∀ u ∈ Barrel.own :: Barrel.codebase.sources, u.PropertiesApart := by decide +kernel
  refine ⟨⟨some, reaches.mp some⟩, fun t d here => ?_, more 9 (by decide) some, fun t d here => ?_⟩
  · obtain ⟨-, isIn, property⟩ := found t d here
    exact ⟨isIn, property fun u member => .inr (apart u member)⟩
  · obtain ⟨-, -, found, -⟩ := export_lookup_iff_reaches
      (ofWorkspace ⟨[⟨["part.ts"], "export const X = 'x';".toUTF8⟩], []⟩ .nearest 8) forwarding "X" .value 8
    refine (found t d here).2.2 (List.forall_mem_cons.mpr ⟨.inl rfl, fun u member => .inl ?_⟩)
    exact parsed_of_mem_sources member

end Codebase

end TemplateValues
