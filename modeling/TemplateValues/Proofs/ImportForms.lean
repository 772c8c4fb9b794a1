import TemplateValues.Proofs.Exports
import TemplateValues.Proofs.MemberChains
import TemplateValues.Proofs.Pieces
import TemplateValues.Proofs.Reach
import TemplateValues.Proofs.Spelling

/-!
# An export under two names

An export can be imported by its name, and it can be reached as a member of the whole module.  The two
are looked up by different strategies: a single name as an imported declaration, everything with a dot in
it as a member chain, and there the members of a namespace come last.  All the same they lead to one
declaration (`Codebase.export?`), and from there to the same values (`Resolver.behind`).

Strategies and chains know names by `Chain.isName`, which leaves out some identifiers.  What is imported
under one of these has no values, whatever the whole module gives.
-/

namespace TemplateValues

open Template

/-! ## Chains of names -/

namespace Chain

/-- The segments of a chain are the names that it was put together from. -/
theorem segments_intercalate {names : List String} (some : names ≠ [])
    (undotted : ∀ name ∈ names, '.' ∉ name.toList) : segments (".".intercalate names) = names := by
  have dot : ".".toList = ['.'] := rfl
  rw [segments, Text.map_splitAt_intercalate dot some undotted]

theorem isDotted_intercalate (first second : String) (rest : List String) :
    isDotted (".".intercalate (first :: second :: rest)) := by
  rw [isDotted, String.intercalate_cons_of_ne_nil (List.cons_ne_nil second rest)]
  simp

/-- No character of a name is a dot. -/
theorem dot_notMem_of_isName {name : String} (isName : isName name) : '.' ∉ name.toList := by
  intro dot
  unfold Chain.isName at isName
  split at isName
  · rename_i c cs chars
    obtain ⟨start, parts⟩ := Bool.and_eq_true_iff.mp isName
    rw [chars] at dot
    rcases List.mem_cons.mp dot with rfl | later
    · exact ne_of_isNamePart (isNamePart_of_isNameStart start) (by decide) rfl
    · exact ne_of_isNamePart (List.all_eq_true.mp parts _ later) (by decide) rfl
  · cases isName

theorem isName_of_isDotted {text : String} (dotted : isDotted text) : isName text = false := by
  rw [Bool.eq_false_iff]
  intro name
  exact dot_notMem_of_isName name (List.contains_iff_mem.mp dotted)

end Chain

/-! ## The declaration behind an export -/

namespace Codebase

variable (c : Codebase) (s : Source)

def export? (specifier name : String) (space : Space) : Option (Source × Declaration) :=
  (c.module? s specifier).bind fun t => c.follow space c.hops t name

variable {c s} {name : String} {i : Import} {space : Space}

theorem imported?_of_import? (written : s.import? name = some i) (direct : i.form ≠ .asNamespace) :
    c.imported? s name space = c.export? s i.specifier i.imported space := by
  rw [imported?_eq, importStep?, written, export?]
  simp only [direct, ↓reduceIte]
  cases c.module? s i.specifier <;> rfl

/-- The name of a whole module is not that of an export. -/
theorem imported?_of_asNamespace (written : s.import? name = some i) (whole : i.form = .asNamespace) :
    c.imported? s name space = none := by
  rw [imported?_eq, importStep?, written]
  simp only [whole, ↓reduceIte, Option.bind_none]

theorem namespaceMember?_of_asNamespace (written : s.import? name = some i)
    (whole : i.form = .asNamespace) (member : String) :
    c.namespaceMember? s name member space = c.export? s i.specifier member space := by
  have kept : (some i).filter (fun i => i.form = .asNamespace) = some i :=
    Option.filter_some_pos (by simpa using whole)
  rw [namespaceMember?_eq, namespaceModule?, written, kept, export?, Option.bind_some]

theorem namespaceMember?_of_import? (written : s.import? name = some i) (direct : i.form ≠ .asNamespace)
    (member : String) : c.namespaceMember? s name member space = none := by
  have dropped : (some i).filter (fun i => i.form = .asNamespace) = none :=
    Option.filter_some_neg (by simpa using direct)
  rw [namespaceMember?_eq, namespaceModule?, written, dropped, Option.bind_none, Option.bind_none]

theorem declared?_of_find? (undeclared : s.find? name space = none) :
    c.declared? s name space = c.imported? s name space := by
  rw [declared?_eq, undeclared]

end Codebase

/-! ## Its values -/

/-- Where all the other answers are empty, the first that is not empty is the remaining one. -/
theorem LiteralSet.firstKnown_eq {answers : List (Option LiteralSet)} {answer : Option LiteralSet}
    (member : answer ∈ answers) (others : ∀ x ∈ answers, x = answer ∨ x = some .empty) :
    firstKnown answers = answer := by
  unfold firstKnown
  cases first : answers.find? fun answer => !isUnknown answer with
  | some x =>
    rcases others x (List.mem_of_find?_eq_some first) with rfl | rfl
    · rfl
    · exact absurd (List.find?_some first) Bool.false_ne_true
  | none =>
    have unknown : isUnknown answer := by simpa using List.find?_eq_none.mp first answer member
    cases answer with
    | none => cases unknown
    | some values => exact congrArg some (eq_of_values (List.isEmpty_iff.mp unknown).symm)

namespace Resolver

variable {σ : Type} (r : Resolver σ) (s : Source)

/-- What is found at the end of a chain from a declaration on, if there is one. -/
def behind (place : Option (Source × Declaration)) (path : List String) : Option LiteralSet :=
  place.elim (some .empty) fun place => r.found s (.ask (.chain place.1 place.2 path))

/-- The empty chain ends at the declaration itself, one question further on. -/
theorem found_chain_nil {t : Source} {d : Declaration} (provides : r.codebase.Provides s t d) :
    r.found s (.ask (.chain t d [])) = r.found s (.ask (.declaration t d)) := by
  have inside := provides.within (List.subset_cons_self s _) List.mem_cons_self
  have chain : (Goal.chain t d []).Within (s :: r.codebase.sources) := inside
  have declaration : (Goal.declaration t d).Within (s :: r.codebase.sources) := inside
  have goesOn : ∀ values w, Returns Guard.visit r.codebase (.chain t d [])
      (.start r.limits.maxResolutionDepth) values w ↔ Returns Guard.visit r.codebase (.declaration t d)
      (.start r.limits.maxResolutionDepth) values w := fun values w => returns_iff_of_free rfl rfl
  unfold found
  by_cases answered : ∃ values w, Returns Guard.visit r.codebase (.declaration t d)
      (.start r.limits.maxResolutionDepth) values w
  · obtain ⟨values, w, returned⟩ := answered
    rw [found_of_returns declaration returned, found_of_returns chain ((goesOn values w).mpr returned)]
  · rw [found_of_not_returns declaration answered,
      found_of_not_returns chain (by simpa only [goesOn] using answered)]

/-- A chain starts at the declaration of its first name, or else at a member of a namespace. -/
theorem found_access {expression root member : String} {rest : List String}
    (cut : Chain.segments expression = root :: member :: rest) :
    r.found s (.access s expression) =
      if (root :: member :: rest).all Chain.isName then
        (r.codebase.declared? s root .value).elim
          (r.behind s (r.codebase.namespaceMember? s root member .value) rest)
          fun place => r.found s (.ask (.chain place.1 place.2 (member :: rest)))
      else some .empty := by
  simp only [found, Call.found, Call.answer, Values.dotted, cut]
  by_cases names : (root :: member :: rest).all Chain.isName
  · simp only [names, ↓reduceIte, Values.chained_eq]
    cases r.codebase.declared? s root .value with
    | some place => rfl
    | none =>
      cases provided : r.codebase.namespaceMember? s root member .value with
      | some place => rfl
      | none => rfl
  · simp only [names, Bool.false_eq_true, ↓reduceIte]
    rfl

variable {r s} {p : Position} {o : σ}

theorem resolveVariable_of_isDotted (silent : r.oracle = none) {expression : String}
    (dotted : Chain.isDotted expression) :
    (r.resolveVariable s expression p o).1 = r.found s (.access s expression) := by
  have byDeclaration : r.byDeclaration s expression = some .empty := by
    rw [byDeclaration, Chain.isName_of_isDotted dotted]
    cases s.find? expression .value <;> rfl
  have byImport : r.byImport s expression = some .empty := by
    rw [byImport, Chain.isName_of_isDotted dotted]
    cases r.codebase.imported? s expression .value <;> rfl
  have byOracle : (r.byOracle s p o).1 = some .empty := by rw [byOracle, silent]
  rw [resolveVariable_eq, byDeclaration, byImport, byOracle, byChain, if_pos dotted]
  exact LiteralSet.firstKnown_eq (by simp) (by simp)

theorem resolveVariable_of_undeclared (silent : r.oracle = none) {name : String}
    (undotted : '.' ∉ name.toList) (undeclared : s.find? name .value = none) :
    (r.resolveVariable s name p o).1 = r.byImport s name := by
  have byChain : r.byChain s name = some .empty := by
    rw [byChain, if_neg]
    exact fun dotted => undotted (List.contains_iff_mem.mp dotted)
  have byDeclaration : r.byDeclaration s name = some .empty := by rw [byDeclaration, undeclared]
  have byOracle : (r.byOracle s p o).1 = some .empty := by rw [byOracle, silent]
  rw [resolveVariable_eq, byChain, byDeclaration, byOracle]
  exact LiteralSet.firstKnown_eq (by simp) (by simp)

/-- A name that is imported, with a path after it, stands for the export. -/
theorem resolveVariable_of_import? (silent : r.oracle = none) {name : String} {i : Import}
    (written : s.import? name = some i) (direct : i.form ≠ .asNamespace)
    (undeclared : s.find? name .value = none) (undotted : '.' ∉ name.toList) (path : List String)
    (names : ∀ segment ∈ path, Chain.isName segment) :
    (r.resolveVariable s (".".intercalate (name :: path)) p o).1 =
      if Chain.isName name then
        r.behind s (r.codebase.export? s i.specifier i.imported .value) path
      else some .empty := by
  have means : r.codebase.imported? s name .value =
      r.codebase.export? s i.specifier i.imported .value := Codebase.imported?_of_import? written direct
  cases path with
  | nil =>
    rw [String.intercalate_singleton, resolveVariable_of_undeclared silent undotted undeclared, byImport,
      ← means]
    cases found : r.codebase.imported? s name .value with
    | none => simp [behind]
    | some place =>
      simp only [behind, Option.elim_some]
      rw [found_chain_nil r s (Codebase.provides_of_imported? found)]
  | cons member rest =>
    have undotted' : ∀ segment ∈ name :: member :: rest, '.' ∉ segment.toList := by
      rw [List.forall_mem_cons]
      exact ⟨undotted, fun segment inside => Chain.dot_notMem_of_isName (names segment inside)⟩
    have cut := Chain.segments_intercalate (List.cons_ne_nil _ _) undotted'
    rw [resolveVariable_of_isDotted silent (Chain.isDotted_intercalate ..), found_access r s cut,
      Codebase.declared?_of_find? undeclared, Codebase.namespaceMember?_of_import? written direct, means,
      List.all_cons, List.all_eq_true.mpr names, Bool.and_true]
    cases r.codebase.export? s i.specifier i.imported .value <;> rfl

/-- A member of a whole module, with a path after it, stands for the export of this name. -/
theorem resolveVariable_of_asNamespace (silent : r.oracle = none) {root member : String} {i : Import}
    (written : s.import? root = some i) (whole : i.form = .asNamespace)
    (undeclared : s.find? root .value = none) (undotted : '.' ∉ root.toList)
    (undotted' : '.' ∉ member.toList) (path : List String)
    (names : ∀ segment ∈ path, Chain.isName segment) :
    (r.resolveVariable s (".".intercalate (root :: member :: path)) p o).1 =
      if Chain.isName root ∧ Chain.isName member then
        r.behind s (r.codebase.export? s i.specifier member .value) path
      else some .empty := by
  have undotted : ∀ segment ∈ root :: member :: path, '.' ∉ segment.toList := by
    simp only [List.forall_mem_cons]
    exact ⟨undotted, undotted', fun segment inside => Chain.dot_notMem_of_isName (names segment inside)⟩
  have cut := Chain.segments_intercalate (List.cons_ne_nil _ _) undotted
  rw [resolveVariable_of_isDotted silent (Chain.isDotted_intercalate ..), found_access r s cut,
    Codebase.declared?_of_find? undeclared, Codebase.imported?_of_asNamespace written whole,
    Codebase.namespaceMember?_of_asNamespace written whole]
  simp only [List.all_cons, List.all_eq_true.mpr names, Bool.and_true, Bool.and_eq_true,
    Option.elim_none]

/-- Let a source import an export of a module by itself, under some name, and the whole module under
another, and let it declare neither of the names.  A path from the first name on has the same values as
the path from the member of the whole module on, the empty path included, if the names are all such that
chains are made of.  Both are what is found behind the export.  Under any other name there are no
values. -/
theorem import_forms_interchangeable (r : Resolver σ) (silent : r.oracle = none) {s : Source}
    {name root : String} {i j : Import} (named : s.import? name = some i)
    (direct : i.form ≠ .asNamespace) (starred : s.import? root = some j) (whole : j.form = .asNamespace)
    (same : j.specifier = i.specifier) (undeclared : s.find? name .value = none)
    (undeclared' : s.find? root .value = none)
    (undotted : ∀ text ∈ [name, root, i.imported], '.' ∉ text.toList) (path : List String)
    (names : ∀ segment ∈ path, Chain.isName segment) (p q : Position) (o o' : σ) :
    (Chain.isName name → Chain.isName root → Chain.isName i.imported →
      (r.resolveVariable s (".".intercalate (name :: path)) p o).1 =
        (r.resolveVariable s (".".intercalate (root :: i.imported :: path)) q o').1) ∧
    (r.resolveVariable s (".".intercalate (name :: path)) p o).1 =
      (if Chain.isName name then
        r.behind s (r.codebase.export? s i.specifier i.imported .value) path
      else some .empty) ∧
    (r.resolveVariable s (".".intercalate (root :: i.imported :: path)) q o').1 =
      (if Chain.isName root ∧ Chain.isName i.imported then
        r.behind s (r.codebase.export? s i.specifier i.imported .value) path
      else some .empty) := by
  simp only [List.forall_mem_cons] at undotted
  obtain ⟨undotted, undotted', undotted'', -⟩ := undotted
  have byName : (r.resolveVariable s (".".intercalate (name :: path)) p o).1 = _ :=
    resolveVariable_of_import? silent named direct undeclared undotted path names
  have asMember : (r.resolveVariable s (".".intercalate (root :: i.imported :: path)) q o').1 = _ :=
    resolveVariable_of_asNamespace silent starred whole undeclared' undotted' undotted'' path names
  rw [same] at asMember
  refine ⟨fun first second third => ?_, byName, asMember⟩
  rw [byName, asMember, if_pos first, if_pos ⟨second, third⟩]

end Resolver

/-! ## An identifier that is no name -/

namespace Twice

open Syntax

def renamed (bytes : Nat) : Tree :=
  .node .importStatement none 0 (bytes + 28)
    [.node (.token "import") none 0 6 [],
      .node .importClause none 7 (bytes + 16)
        [.node .namedImports none 7 (bytes + 16)
          [.node (.token "\x7b") none 7 8 [],
            .node .importSpecifier none 9 (bytes + 14)
              [.node .identifier (some .name) 9 10 [], .node (.token "as") none 11 13 [],
                .node .identifier (some .localName) 14 (bytes + 14) []],
            .node (.token "\x7d") none (bytes + 15) (bytes + 16) []]],
      .node (.token "from") none (bytes + 17) (bytes + 21) [], Barrel.literal .source (bytes + 22) 5,
      .node (.token ";") none (bytes + 27) (bytes + 28) []]

def starred (start : Nat) : Tree :=
  .node .importStatement none start (start + 26)
    [.node (.token "import") none start (start + 6) [],
      .node .importClause none (start + 7) (start + 14)
        [.node .namespaceImport none (start + 7) (start + 14)
          [.node (.token "*") none (start + 7) (start + 8) [],
            .node (.token "as") none (start + 9) (start + 11) [],
            .node .identifier none (start + 12) (start + 14) []]],
      .node (.token "from") none (start + 15) (start + 19) [], Barrel.literal .source (start + 20) 5,
      .node (.token ";") none (start + 25) (start + 26) []]

def source (name : String) : Source where
  path := ⟨["", "a.ts"]⟩
  language := .typescript
  text := "import \x7b X as " ++ name ++ " \x7d from './b';\nimport * as ns from './b';"
  tree := .node .program none 0 (name.utf8ByteSize + 55)
    [renamed name.utf8ByteSize, starred (name.utf8ByteSize + 29)]

def resolver : Resolver Unit :=
  ⟨⟨⟨[⟨["b.ts"], Barrel.real.text.toUTF8⟩], []⟩, [Barrel.real], .relativeOnly, 8⟩, {}, none,
    fun _ => false⟩

def values (name expression : String) : Option (List String) :=
  (resolver.resolveVariable (source name) expression ⟨0, 0⟩ ()).1.map LiteralSet.values

def terms (i : Import) : String × String × ImportForm := (i.specifier, i.imported, i.form)

/-- The letter `e` with an accent after it, two characters that are an identifier. -/
def accented : String := "e\u0301"

/-- The file imports `X` under the name and the whole module as `ns`, and it declares neither. -/
structure Fits (name : String) : Prop where
  renamed : ((source name).import? name).map terms = some ("./b", "X", .byName)
  starred : ((source name).import? "ns").map terms = some ("./b", "*", .asNamespace)
  undeclared : (source name).find? name .value = none
  undeclared' : (source name).find? "ns" .value = none

theorem fits_plain : Fits "F" where
  renamed := by decide +kernel
  starred := by decide +kernel
  undeclared := by decide +kernel
  undeclared' := by decide +kernel

theorem fits_accented : Fits accented where
  renamed := by decide +kernel
  starred := by decide +kernel
  undeclared := by decide +kernel
  undeclared' := by decide +kernel

/-- The accent is neither a letter nor a number. -/
theorem isName_accented : Chain.isName accented = false := by
  have letter : Text.isAlphabetic '\u0301' = false := by
    rw [Text.isAlphabetic, if_neg (by decide), Text.inRanges, ← Array.any_toList]
    decide +kernel
  have number : Text.isNumeric '\u0301' = false := by decide +kernel
  have part : Chain.isNamePart '\u0301' = false := by
    simp only [Chain.isNamePart, letter, number]
    decide
  have chars : accented.toList = ['e', '\u0301'] := by decide
  simp [Chain.isName, chars, part]

end Twice

/-- Under the name `F`, the export has its value both ways. -/
theorem renamed_export_alike :
    Twice.Fits "F" ∧ Twice.values "F" "F" = some ["real"] ∧
      Twice.values "F" "F" = Twice.values "F" "ns.X" := by
  have fits := Twice.fits_plain
  refine ⟨fits, by decide +kernel, ?_⟩
  obtain ⟨i, named, said⟩ := Option.map_eq_some_iff.mp fits.renamed
  obtain ⟨j, starred, said'⟩ := Option.map_eq_some_iff.mp fits.starred
  simp only [Twice.terms, Prod.mk.injEq] at said said'
  obtain ⟨specifier, imported, byName⟩ := said
  obtain ⟨specifier', -, whole⟩ := said'
  have direct : i.form ≠ .asNamespace := by rw [byName]; decide
  have undotted : ∀ text ∈ ["F", "ns", i.imported], '.' ∉ text.toList := by rw [imported]; decide
  have alike := (Resolver.import_forms_interchangeable Twice.resolver rfl named direct starred whole
    (specifier'.trans specifier.symm) fits.undeclared fits.undeclared' undotted []
    (List.forall_mem_nil _) ⟨0, 0⟩ ⟨0, 0⟩ () ()).1
  rw [imported] at alike
  have texts : ".".intercalate ["F"] = "F" ∧ ".".intercalate ["ns", "X"] = "ns.X" := by decide
  rw [texts.1, texts.2] at alike
  exact congrArg (Option.map LiteralSet.values) (alike rfl rfl rfl)

/-- Under a name with an accent of its own, the export has no values by itself, but has its value as a
member of the whole module. -/
theorem accented_import_unknown :
    Twice.Fits Twice.accented ∧ Twice.values Twice.accented Twice.accented = some [] ∧
      Twice.values Twice.accented "ns.X" = some ["real"] := by
  have fits := Twice.fits_accented
  refine ⟨fits, ?_, by decide +kernel⟩
  obtain ⟨i, named, said⟩ := Option.map_eq_some_iff.mp fits.renamed
  simp only [Twice.terms, Prod.mk.injEq] at said
  have direct : i.form ≠ .asNamespace := by rw [said.2.2]; decide
  have unknown : (Twice.resolver.resolveVariable (Twice.source Twice.accented) Twice.accented
      ⟨0, 0⟩ ()).1 = _ :=
    Resolver.resolveVariable_of_import? rfl named direct fits.undeclared (by decide) []
      (List.forall_mem_nil _)
  rw [Twice.values, unknown, Twice.isName_accented]
  rfl

end TemplateValues
