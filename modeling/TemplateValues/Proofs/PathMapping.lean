import TemplateValues.Project.Modules
import TemplateValues.Proofs.Json.Records

/-!
# Path mapping

Where the aliases of a configuration lead, said without sorting and searching: which of two patterns is
more specific, what a pattern captures of a module name, and which places the aliases give to a name.

A configuration text lists aliases in any order.  Since no two different patterns are equally specific,
the order of the text is lost (`arrange_eq`).
-/

namespace TemplateValues.Project

/-! ## Stars -/

/-- The text, if it has a star, with the first one replaced by `captured`. -/
inductive Filled (captured : List Char) : List Char → List Char → Prop where
  | plain {cs} : '*' ∉ cs → Filled captured cs cs
  | starred {front back} : '*' ∉ front →
      Filled captured (front ++ '*' :: back) (front ++ (captured ++ back))

/-- The module name has the form of the pattern, and the first star stands for `captured`; a pattern
without star captures nothing. -/
def Captures (pattern specifier captured : String) : Prop :=
  Filled captured.toList pattern.toList specifier.toList ∧ ('*' ∉ pattern.toList → captured = "")

theorem cutAtStar_eq_none_iff {cs : List Char} : cutAtStar cs = none ↔ '*' ∉ cs := by
  induction cs with
  | nil => simp [cutAtStar]
  | cons c cs ih =>
    by_cases star : c = '*'
    · simp [cutAtStar, star]
    · simp [cutAtStar, star, Ne.symm star, ih]

theorem cutAtStar_append {front back : List Char} (starless : '*' ∉ front) :
    cutAtStar (front ++ '*' :: back) = some (front, back) := by
  induction front with
  | nil => simp [cutAtStar]
  | cons c front ih =>
    obtain ⟨star, starless⟩ := not_or.mp (mt List.mem_cons.mpr starless)
    simp [cutAtStar, Ne.symm star, ih starless]

/-- A text has no star, or it splits at the first one. -/
theorem star_cases (cs : List Char) :
    '*' ∉ cs ∨ ∃ front back, '*' ∉ front ∧ cs = front ++ '*' :: back := by
  by_cases star : '*' ∈ cs
  · obtain ⟨front, back, split, starless⟩ := List.eq_append_cons_of_mem star
    exact .inr ⟨front, back, starless, split⟩
  · exact .inl star

theorem dropFront_eq_some_iff {front cs rest : List Char} :
    dropFront front cs = some rest ↔ cs = front ++ rest := by
  induction front generalizing cs with
  | nil => simp [dropFront]
  | cons c front ih =>
    cases cs with
    | nil => simp [dropFront]
    | cons d cs =>
      by_cases same : c = d
      · simp [dropFront, same, ih]
      · simp [dropFront, same, Ne.symm same]

theorem dropBack_eq_some_iff {back cs rest : List Char} :
    dropBack back cs = some rest ↔ cs = rest ++ back := by
  rw [dropBack, Option.map_eq_some_iff]
  constructor
  · rintro ⟨reversed, dropped, rfl⟩
    simpa using congrArg List.reverse (dropFront_eq_some_iff.mp dropped)
  · rintro rfl
    exact ⟨rest.reverse, dropFront_eq_some_iff.mpr (by simp), by simp⟩

theorem filled_starless {captured cs text : List Char} (starless : '*' ∉ cs) :
    Filled captured cs text ↔ text = cs := by
  constructor
  · intro filled
    cases filled with
    | plain => rfl
    | starred => simp at starless
  · rintro rfl
    exact .plain starless

theorem filled_starred {captured front back text : List Char} (starless : '*' ∉ front) :
    Filled captured (front ++ '*' :: back) text ↔ text = front ++ (captured ++ back) := by
  constructor
  · intro filled
    generalize pattern : front ++ '*' :: back = cs at filled
    cases filled with
    | plain none => simp [← pattern] at none
    | @starred front' back' starless' =>
      have cut : cutAtStar (front ++ '*' :: back) = some (front, back) := cutAtStar_append starless
      rw [pattern, cutAtStar_append starless'] at cut
      obtain ⟨rfl, rfl⟩ := Prod.mk.inj (Option.some.inj cut)
      rfl
  · rintro rfl
    exact .starred starless

theorem filled_fill (captured target : List Char) : Filled captured target (fill captured target) := by
  rcases star_cases target with starless | ⟨front, back, starless, rfl⟩
  · simp only [fill, cutAtStar_eq_none_iff.mpr starless]
    exact .plain starless
  · simp only [fill, cutAtStar_append starless, List.append_assoc]
    exact .starred starless

theorem capture_eq_some_iff {pattern specifier captured : List Char} :
    capture pattern specifier = some captured ↔
      Filled captured pattern specifier ∧ ('*' ∉ pattern → captured = []) := by
  rcases star_cases pattern with starless | ⟨front, back, starless, rfl⟩
  · simp only [capture, cutAtStar_eq_none_iff.mpr starless, filled_starless starless]
    by_cases same : pattern = specifier
    · subst same
      simp [starless, eq_comm]
    · simp [same, Ne.symm same]
  · simp only [capture, cutAtStar_append starless, filled_starred starless, Option.bind_eq_some_iff,
      dropFront_eq_some_iff, dropBack_eq_some_iff]
    simp

theorem captured?_eq_some_iff {a : Alias} {specifier captured : String} :
    a.captured? specifier = some captured ↔ Captures a.pattern specifier captured := by
  rw [Alias.captured?, Captures, Option.map_eq_some_iff]
  constructor
  · rintro ⟨cs, found, rfl⟩
    obtain ⟨filled, nothing⟩ := capture_eq_some_iff.mp found
    rw [String.toList_ofList]
    exact ⟨filled, fun starless => by rw [nothing starless]⟩
  · rintro ⟨filled, nothing⟩
    refine ⟨captured.toList, capture_eq_some_iff.mpr ⟨filled, ?_⟩, String.ofList_toList⟩
    intro starless
    rw [nothing starless, String.toList_empty]

/-! ## Specificity -/

namespace Alias

/-- The part of the pattern before the first star, or else the whole pattern. -/
def front (a : Alias) : String := String.ofList (a.pattern.toList.takeWhile (· ≠ '*'))

/-- Patterns without star come first, then longer fronts, then smaller patterns. -/
inductive MoreSpecific (a b : Alias) : Prop where
  | exact : '*' ∉ a.pattern.toList → '*' ∈ b.pattern.toList → MoreSpecific a b
  | longer : ('*' ∈ a.pattern.toList ↔ '*' ∈ b.pattern.toList) →
      b.front.utf8ByteSize < a.front.utf8ByteSize → MoreSpecific a b
  | smaller : ('*' ∈ a.pattern.toList ↔ '*' ∈ b.pattern.toList) →
      a.front.utf8ByteSize = b.front.utf8ByteSize → a.pattern < b.pattern → MoreSpecific a b

theorem isExact_iff {a : Alias} : a.isExact ↔ '*' ∉ a.pattern.toList := by
  rw [isExact, Option.isNone_iff_eq_none, cutAtStar_eq_none_iff]

theorem byteCount_eq (cs : List Char) : Text.byteCount cs = (String.ofList cs).utf8ByteSize := by
  have from' : ∀ n, cs.foldl (fun n c => n + c.utf8Size) n = n + (String.ofList cs).utf8ByteSize := by
    induction cs with
    | nil => simp
    | cons c cs ih =>
      intro n
      rw [List.foldl_cons, ih, String.ofList_cons]
      simp [Nat.add_assoc]
  simpa [Text.byteCount] using from' 0

theorem frontSize_eq (a : Alias) : a.frontSize = a.front.utf8ByteSize := by
  rcases star_cases a.pattern.toList with starless | ⟨before, after, starless, split⟩
  · have whole : a.pattern.toList.takeWhile (· ≠ '*') = a.pattern.toList := by
      rw [List.takeWhile_eq_self_iff]
      intro c mem
      simpa using ne_of_mem_of_not_mem mem starless
    simp only [frontSize, cutAtStar_eq_none_iff.mpr starless, byteCount_eq, front, whole]
  · have cut : a.pattern.toList.takeWhile (· ≠ '*') = before := by
      rw [split, List.takeWhile_append_of_pos fun c mem => by simpa using ne_of_mem_of_not_mem mem starless]
      simp
    simp only [frontSize, front, cut]
    rw [split]
    simp only [cutAtStar_append starless, byteCount_eq]

theorem precedes_iff {a b : Alias} :
    a.precedes b ↔ (a.isExact ∧ ¬ b.isExact) ∨ (a.isExact = b.isExact ∧
      (b.frontSize < a.frontSize ∨ (a.frontSize = b.frontSize ∧ a.pattern ≤ b.pattern))) := by
  rw [precedes]
  grind

theorem precedes_trans (a b c : Alias) (before : a.precedes b) (behind : b.precedes c) : a.precedes c := by
  rw [precedes_iff] at *
  grind [String.le_trans]

theorem precedes_total (a b : Alias) : a.precedes b || b.precedes a := by
  rw [Bool.or_eq_true, precedes_iff, precedes_iff]
  have := String.le_total a.pattern b.pattern
  grind

theorem moreSpecific_of_precedes {a b : Alias} (before : a.precedes b) (apart : a.pattern ≠ b.pattern) :
    a.MoreSpecific b := by
  rw [precedes_iff, frontSize_eq, frontSize_eq] at before
  have stars : a.isExact = b.isExact → ('*' ∈ a.pattern.toList ↔ '*' ∈ b.pattern.toList) := by
    intro same
    rw [← not_iff_not, ← isExact_iff, ← isExact_iff, same]
  rcases before with ⟨exact, starred⟩ | ⟨same, longer | ⟨size, below⟩⟩
  · exact .exact (isExact_iff.mp exact) (by simpa [isExact_iff] using starred)
  · exact .longer (stars same) longer
  · refine .smaller (stars same) size ?_
    by_contra above
    exact apart (String.le_antisymm below above)

theorem MoreSpecific.asymm {a b : Alias} (before : a.MoreSpecific b) : ¬ b.MoreSpecific a := by
  intro behind
  cases before with
  | exact starless star => cases behind <;> simp_all
  | longer stars longer => cases behind <;> grind
  | smaller stars size below =>
    cases behind with
    | exact => simp_all
    | longer => omega
    | smaller _ _ above => exact String.lt_irrefl _ (String.lt_trans below above)

end Alias

/-! ## Arranging aliases -/

def Alias.ofEntry (e : String × List String) : Alias := ⟨e.1, e.2⟩

section Arrange

variable {entries : List (String × List String)} (distinct : (entries.map Prod.fst).Nodup)
include distinct

/-- No entry replaces another. -/
theorem arrange_eq_mergeSort :
    arrange entries = (entries.map Alias.ofEntry).mergeSort Alias.precedes := by
  rw [arrange]
  congr 1
  induction entries with
  | nil => rfl
  | cons e entries ih =>
    obtain ⟨new, distinct⟩ := List.nodup_cons.mp distinct
    rw [List.foldr_cons, ih distinct]
    have absent : ((entries.map Alias.ofEntry).any fun a : Alias => a.pattern = e.1) = false := by
      rw [List.any_eq_false]
      simp only [List.mem_map] at new ⊢
      rintro _ ⟨e', mem, rfl⟩
      exact fun same => new ⟨e', mem, of_decide_eq_true same⟩
    simp [absent, Alias.ofEntry]

theorem arrange_perm : (arrange entries).Perm (entries.map Alias.ofEntry) := by
  rw [arrange_eq_mergeSort distinct]
  exact List.mergeSort_perm _ _

theorem pairwise_arrange : (arrange entries).Pairwise Alias.MoreSpecific := by
  have ordered : (arrange entries).Pairwise fun a b => a.precedes b := by
    rw [arrange_eq_mergeSort distinct]
    exact List.pairwise_mergeSort Alias.precedes_trans Alias.precedes_total _
  have apart : (arrange entries).Pairwise fun a b => a.pattern ≠ b.pattern := by
    have patterns := (arrange_perm distinct).map Alias.pattern
    rw [List.map_map] at patterns
    exact List.pairwise_map.mp (patterns.nodup_iff.mpr distinct)
  exact (ordered.and apart).imp fun both => Alias.moreSpecific_of_precedes both.1 both.2

/-- The order of the entries does not matter: no two aliases can be arranged in both ways. -/
theorem arrange_eq {entries' : List (String × List String)} (perm : entries.Perm entries') :
    arrange entries = arrange entries' := by
  have distinct' : (entries'.map Prod.fst).Nodup := (perm.map Prod.fst).nodup_iff.mp distinct
  have perm' : (arrange entries).Perm (arrange entries') :=
    (arrange_perm distinct).trans ((perm.map _).trans (arrange_perm distinct').symm)
  exact perm'.eq_of_pairwise (fun a b _ _ before behind => absurd behind before.asymm)
    (pairwise_arrange distinct) (pairwise_arrange distinct')

end Arrange

/-! ## Places -/

/-- The places that aliases give to a module name, in their order: all targets of those that match, with
the first star filled in. -/
inductive Places (base : Path) (specifier : String) : List Alias → List Path → Prop where
  | nil : Places base specifier [] []
  | other {a as ps} : (∀ captured, ¬ Captures a.pattern specifier captured) → Places base specifier as ps →
      Places base specifier (a :: as) ps
  | matching {a as ps captured ts} : Captures a.pattern specifier captured →
      List.Forall₂ (fun target t => Filled captured.toList target.toList t.toList) a.targets ts →
      Places base specifier as ps →
      Places base specifier (a :: as) (ts.map (fun t => base.join (.ofText t)) ++ ps)

theorem places_flatMap (base : Path) (specifier : String) (as : List Alias) :
    Places base specifier as
      (as.flatMap fun a => (a.expand specifier).map fun t => base.join (.ofText t)) := by
  induction as with
  | nil => exact .nil
  | cons a as ih =>
    rw [List.flatMap_cons]
    cases found : capture a.pattern.toList specifier.toList with
    | none =>
      have unmatched : a.captured? specifier = none := by rw [Alias.captured?, found, Option.map_none]
      have nothing : a.expand specifier = [] := by simp only [Alias.expand, found]
      rw [nothing]
      refine .other (fun captured matched => ?_) ih
      rw [← captured?_eq_some_iff, unmatched] at matched
      cases matched
    | some cs =>
      have matched : a.captured? specifier = some (String.ofList cs) := by
        rw [Alias.captured?, found, Option.map_some]
      have expanded : a.expand specifier = a.targets.map fun t => String.ofList (fill cs t.toList) := by
        simp only [Alias.expand, found]
      rw [expanded]
      refine .matching (captured?_eq_some_iff.mp matched) ?_ ih
      rw [List.forall₂_map_right_iff, List.forall₂_same]
      intro t _
      rw [String.toList_ofList, String.toList_ofList]
      exact filled_fill cs t.toList

/-! ## Configuration texts -/

open Json in
def IsOptions (v : Value) (o : Options) : Prop :=
  IsPair "baseUrl" (OrNull IsString) none "paths" (OrNull IsEntries) none v o.baseUrl o.paths

open Json in
def IsSettings (v : Value) (s : Settings) : Prop :=
  IsPair "extends" (OrNull IsString) none "compilerOptions" IsOptions {} v s.extended s.options

open Json Reader in
theorem takes_isOptions {v : Value} {o : Options} (value : IsOptions v o) :
    Takes (record Options.fields {}) v o :=
  takes_isPair Options.mk (fun _ c value => (takes_stringOrNull value).map fun url => Options.mk url c)
    (fun b _ value => (takes_entriesOrNull value).map fun paths => Options.mk b paths) (by decide) value

/-- The text holds the settings, with comments and trailing commas where it likes. -/
def Settings.WrittenAs (s : Settings) (text : String) : Prop :=
  ∃ v, Json.DenotesWithComments text v ∧ IsSettings v s

open Json Reader in
theorem Settings.WrittenAs.ofText {s : Settings} {text : String} (written : s.WrittenAs text) :
    Settings.ofText text = .ok s := by
  obtain ⟨v, denotes, value⟩ := written
  refine read_cleaned ?_ denotes
  exact takes_isPair Settings.mk
    (fun _ c value => (takes_stringOrNull value).map fun extended => Settings.mk extended c)
    (fun b _ value => (takes_isOptions value).map fun options => Settings.mk b options) (by decide) value

/-! ## The main statement -/

/-- **Only the set of aliases matters.**  Two texts with the same entries, in any two orders, give the
same configuration: all aliases once, most specific first.  A module name leads to the targets of the
aliases that match, in this order, and last to itself in the base directory. -/
theorem mapping_of_perm (directory : Path) {s s' : Settings} {text text' : String}
    (written : s.WrittenAs text) (written' : s'.WrittenAs text')
    {entries entries' : List (String × List String)} (paths : s.options.paths = some entries)
    (paths' : s'.options.paths = some entries') (url : s.options.baseUrl = s'.options.baseUrl)
    (perm : entries.Perm entries') (distinct : (entries.map Prod.fst).Nodup) :
    ∃ c : Config, Config.ofText directory text = .ok c ∧ Config.ofText directory text' = .ok c ∧
      c.directory = directory ∧
      c.baseUrl = (s.options.baseUrl.map fun url => (directory.join (.ofText url)).normalize) ∧
      c.pathsBase = c.baseUrl.getD directory ∧
      c.aliases.Perm (entries.map Alias.ofEntry) ∧ c.aliases.Pairwise Alias.MoreSpecific ∧
      ∀ specifier, ∃ places, Places c.pathsBase specifier c.aliases places ∧
        c.bases specifier = places ++ (c.baseUrl.map fun u => u.join (.ofText specifier)).toList := by
  have config : ∀ {s : Settings} {text}, s.WrittenAs text →
      Config.ofText directory text = .ok (Config.ofOptions directory s.options none) := by
    intro s text written
    rw [Config.ofText, written.ofText]
    rfl
  have same : Config.ofOptions directory s'.options none = Config.ofOptions directory s.options none := by
    simp only [Config.ofOptions, paths, paths', url, arrange_eq distinct perm]
  have aliases : (Config.ofOptions directory s.options none).aliases = arrange entries := by
    simp only [Config.ofOptions, paths]
  refine ⟨_, config written, (config written').trans (congrArg _ same), ?_, ?_, ?_, ?_, ?_, ?_⟩
  · simp only [Config.ofOptions, paths]
  · simp [Config.ofOptions, paths]
  · simp only [Config.ofOptions, paths]
  · rw [aliases]
    exact arrange_perm distinct
  · rw [aliases]
    exact pairwise_arrange distinct
  · exact fun specifier => ⟨_, places_flatMap _ specifier _, rfl⟩

namespace Sample

open Json

def mappingText (gap p t p' t' : String) : List Char :=
  '{' :: '"' :: ("compilerOptions".toList ++ '"' :: ':' :: '{' :: '"' :: ("paths".toList ++ '"' :: ':' :: '{' ::
    '"' :: (p.toList ++ '"' :: ':' :: '[' :: '"' :: (t.toList ++ '"' :: ']' :: ',' :: (gap.toList ++
    '"' :: (p'.toList ++ '"' :: ':' :: '[' :: '"' :: (t'.toList ++ ['"', ']', '}', '}', '}'])))))))

def mapping (p t p' t' : String) : Settings := ⟨none, none, some [(p, [t]), (p', [t'])]⟩

def isPlain (text : String) : Bool := text.toList.all fun c => c ≠ '"' ∧ c ≠ '\\' ∧ 0x20 ≤ c.toNat

section Spaced

variable {ts : List Token} {rest : List Char} (spaced : Spaced Gap LastGap ts rest)
include spaced

theorem spaced_mark {t : Token} {c : Char} (mark : t.Spells [c]) :
    Spaced Gap LastGap (t :: ts) (c :: rest) :=
  .cons Gap.nil mark spaced

theorem spaced_plain {gap : List Char} (isGap : Gap gap) (text : String) (plain : isPlain text) :
    Spaced Gap LastGap (.string (units text) :: ts) (gap ++ '"' :: (text.toList ++ '"' :: rest)) := by
  have spells : (Token.string (units text)).Spells ('"' :: (text.toList ++ ['"'])) := by
    apply Token.Spells.string
    rw [isPlain] at plain
    rw [units]
    generalize text.toList = cs at plain ⊢
    induction cs with
    | nil => exact .nil
    | cons c cs ih =>
      simp only [List.all_cons, Bool.and_eq_true, decide_eq_true_eq] at plain
      obtain ⟨⟨quote, backslash, printed⟩, rest⟩ := plain
      exact .plain quote backslash printed (ih rest)
  simpa using Spaced.cons isGap spells spaced

theorem spaced_target (target : String) (plain : isPlain target) :
    Spaced Gap LastGap (.colon :: .openArray :: .string (units target) :: .closeArray :: ts)
      (':' :: '[' :: '"' :: (target.toList ++ '"' :: ']' :: rest)) :=
  spaced_mark (spaced_mark (spaced_plain (spaced_mark spaced .closeArray) .nil target plain) .openArray) .colon

end Spaced

theorem mapping_writtenAs {gap p t p' t' : String} (isGap : Gap gap.toList)
    (plain : [p, t, p', t'].all isPlain) : (mapping p t p' t').WrittenAs (.ofList (mappingText gap p t p' t')) := by
  simp only [List.all_cons, List.all_nil, Bool.and_eq_true] at plain
  obtain ⟨plain₁, plain₂, plain₃, plain₄, -⟩ := plain
  have reads : Reads true (.value (.object [(units "compilerOptions", .object [(units "paths",
      .object [(units p, .array [.string (units t)]), (units p', .array [.string (units t')])])])]))
      [.openObject, .string (units "compilerOptions"), .colon, .openObject, .string (units "paths"), .colon,
        .openObject, .string (units p), .colon, .openArray, .string (units t), .closeArray, .comma,
        .string (units p'), .colon, .openArray, .string (units t'), .closeArray, .closeObject, .closeObject,
        .closeObject] :=
    .object (.lastMember (.object (.lastMember (.object (.member (.array (.lastElement .string) .plain)
      (.lastMember (.array (.lastElement .string) .plain))) .plain)) .plain)) .plain
  refine ⟨_, ⟨_, reads, ?_⟩, ?_⟩
  · have last : Spaced Gap LastGap [.closeObject, .closeObject, .closeObject] ['}', '}', '}'] :=
      spaced_mark (spaced_mark (spaced_mark (.nil (.gap .nil)) .closeObject) .closeObject) .closeObject
    have second := spaced_plain (spaced_target last t' plain₄) isGap p' plain₃
    have first := spaced_plain (spaced_target (spaced_mark second .comma) t plain₂) .nil p plain₁
    have options := spaced_plain (spaced_mark (spaced_mark first .openObject) .colon) .nil "paths" (by decide)
    have all := spaced_mark (spaced_plain (spaced_mark (spaced_mark options .openObject) .colon) .nil
      "compilerOptions" (by decide)) .openObject
    have text : (String.ofList (mappingText gap p t p' t')).toList = mappingText gap p t p' t' :=
      String.toList_ofList
    rw [text]
    exact all
  · have other : ∀ {key name : String}, key ≠ name → units key ≠ units name := mt units_inj
    have paths : IsOptions _ (mapping p t p' t').options :=
      .named (by simp) (.other (other (by decide)) .missing) (.given (.some rfl) (by simp))
    exact .named (by simp) (.other (other (by decide)) .missing) (.given paths (by simp))

def starredFirst : String :=
  "\x7b\"compilerOptions\":\x7b\"paths\":\x7b\"a/*\":[\"b/*\"],\"a/c\":[\"d\"]\x7d\x7d\x7d"

def exactFirst : String :=
  "\x7b\"compilerOptions\":\x7b\"paths\":\x7b\"a/c\":[\"d\"],/**/\"a/*\":[\"b/*\"]\x7d\x7d\x7d"

end Sample

/-- Both texts give the same places to the name that both patterns match. -/
theorem exact_pattern_first :
    (Sample.mapping "a/*" "b/*" "a/c" "d").WrittenAs Sample.starredFirst ∧
    (Sample.mapping "a/c" "d" "a/*" "b/*").WrittenAs Sample.exactFirst ∧
    ∃ c, Config.ofText (.ofText "p") Sample.starredFirst = .ok c ∧
      Config.ofText (.ofText "p") Sample.exactFirst = .ok c ∧
      c.aliases = [⟨"a/c", ["d"]⟩, ⟨"a/*", ["b/*"]⟩] ∧
      c.bases "a/c" = [(Path.ofText "p").join (.ofText "d"), (Path.ofText "p").join (.ofText "b/c")] := by
  have gap : Json.Gap "/**/".toList := @Json.Gap.block [] [] (by decide) .nil
  have starred : Sample.starredFirst = .ofList (Sample.mappingText "" "a/*" "b/*" "a/c" "d") := by decide
  have exact' : Sample.exactFirst = .ofList (Sample.mappingText "/**/" "a/c" "d" "a/*" "b/*") := by decide
  have written : (Sample.mapping "a/*" "b/*" "a/c" "d").WrittenAs Sample.starredFirst := by
    rw [starred]
    exact Sample.mapping_writtenAs .nil (by decide)
  have written' : (Sample.mapping "a/c" "d" "a/*" "b/*").WrittenAs Sample.exactFirst := by
    rw [exact']
    exact Sample.mapping_writtenAs gap (by decide)
  obtain ⟨c, given, given', -, url, base, perm, ordered, -⟩ :=
    mapping_of_perm (.ofText "p") written written' rfl rfl rfl (.swap _ _ _) (by decide)
  have aliases : c.aliases = [⟨"a/c", ["d"]⟩, ⟨"a/*", ["b/*"]⟩] :=
    (perm.trans (.swap _ _ _)).eq_of_pairwise (fun a b _ _ before behind => absurd behind before.asymm) ordered
      (by simpa using .exact (by decide) (by decide))
  refine ⟨written, written', c, given, given', aliases, ?_⟩
  rw [Config.bases, aliases, base, url]
  decide

end TemplateValues.Project
