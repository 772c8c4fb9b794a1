import TemplateValues.Codebase

/-!
# Going on with a declaration

The search for a declaration takes along what is to be done with it and hands it from place to place
until one of them goes on.  In any lawful monad this is the same as finding the declaration first and
then going on with it, once (`followThen_eq` and the like).  So the search never depends on what is to
be done, and nothing is done on the ways that lead nowhere.
-/

namespace TemplateValues.Codebase

variable {M : Type → Type} [Monad M] {α β : Type} {c : Codebase} {space : Space}

/-- Goes on with a declaration if there is one, and hands itself back otherwise. -/
def Onward.take (onward : Onward M α) : Option (Source × Declaration) → M (Except (Onward M α) α)
  | some (t, d) => .ok <$> onward t d
  | none => pure (.error onward)

/-- What is found in a source, where `further` is what the steps from there lead to. -/
def nearest (space : Space) (s : Source) (name : String) (further : Option (Source × Declaration)) :
    Option (Source × Declaration) :=
  match s.exported? name space with
  | some d => some (s, d)
  | none => further.or ((s.find? name space).map fun d => (s, d))

theorem toOption_take [LawfulMonad M] (onward : Onward M α) (found : Option (Source × Declaration)) :
    Except.toOption <$> onward.take found =
      match found with
      | some (t, d) => some <$> onward t d
      | none => pure none := by
  cases found with
  | none => simp [Onward.take, Except.toOption]
  | some found => simp [Onward.take, Except.toOption]

theorem toOption_take_pair (found : Option (Source × Declaration)) :
    Except.toOption (Id.run (Onward.take (fun t d => pure (t, d)) found)) = found := by
  cases found <;> rfl

theorem tryEach_eq [LawfulMonad M] {attempt : β → Onward M α → M (Except (Onward M α) α)}
    {find : β → Option (Source × Declaration)}
    (each : ∀ x onward, attempt x onward = onward.take (find x)) (xs : List β)
    (onward : Onward M α) : tryEach attempt xs onward = onward.take (xs.findSome? find) := by
  induction xs with
  | nil => rfl
  | cons x xs ih =>
    rw [tryEach, each, List.findSome?_cons]
    cases find x with
    | none => simpa [Onward.take] using ih
    | some found => simp [Onward.take]

theorem take_nearest [LawfulMonad M] (space : Space) (s : Source) (name : String) (onward : Onward M α)
    (further : Option (Source × Declaration)) :
    (match s.exported? name space with
    | some d => .ok <$> onward s d
    | none => onward.take further >>= elseOwn s name space) =
      onward.take (nearest space s name further) := by
  unfold nearest
  cases s.exported? name space with
  | some d => rfl
  | none =>
    cases further with
    | some found => simp [Onward.take, elseOwn]
    | none => cases found : s.find? name space <;> simp [Onward.take, elseOwn, found]

theorem followThen_zero [LawfulMonad M] (s : Source) (name : String) (onward : Onward M α) :
    c.followThen space 0 s name onward = onward.take (nearest space s name none) := by
  rw [followThen]
  exact take_nearest space s name onward none

theorem followThen_succ [LawfulMonad M] {hops : Nat}
    {find : Source → String → Option (Source × Declaration)}
    (each : ∀ t n (onward : Onward M α), c.followThen space hops t n onward = onward.take (find t n))
    (s : Source) (name : String) (onward : Onward M α) :
    c.followThen space (hops + 1) s name onward =
      onward.take (nearest space s name ((c.steps s name).findSome? fun (t, n) => find t n)) := by
  have steps := tryEach_eq (fun step => each step.1 step.2) (c.steps s name) onward
  have found := take_nearest space s name onward
    ((c.steps s name).findSome? fun (t, n) => find t n)
  rw [← steps] at found
  rw [followThen]
  exact found

/-- Following a name and going on is going on with what following the name finds. -/
theorem followThen_eq [LawfulMonad M] (hops : Nat) (s : Source) (name : String)
    (onward : Onward M α) :
    c.followThen space hops s name onward = onward.take (c.follow space hops s name) := by
  -- what is found does not depend on the monad, so it can be read off the one without effects
  suffices same : ∃ find : Source → String → Option (Source × Declaration),
      ∀ (M : Type → Type) [Monad M] [LawfulMonad M] (α : Type) (s : Source) (name : String)
        (onward : Onward M α), c.followThen space hops s name onward = onward.take (find s name) by
    obtain ⟨find, same⟩ := same
    rw [same M α, follow, same Id, toOption_take_pair]
  induction hops with
  | zero => exact ⟨fun s name => nearest space s name none, fun _ _ _ _ => followThen_zero⟩
  | succ hops ih =>
    obtain ⟨find, each⟩ := ih
    exact ⟨_, fun M _ _ α => followThen_succ (each M α)⟩

theorem follow_zero (s : Source) (name : String) :
    c.follow space 0 s name = nearest space s name none := by
  rw [follow, followThen_zero, toOption_take_pair]

theorem follow_succ (hops : Nat) (s : Source) (name : String) :
    c.follow space (hops + 1) s name =
      nearest space s name ((c.steps s name).findSome? fun (t, n) => c.follow space hops t n) := by
  rw [follow, followThen_succ fun t n => followThen_eq hops t n, toOption_take_pair]

/-! ## Names -/

theorem imported?_eq (s : Source) (name : String) :
    c.imported? s name space = (c.importStep? s name).bind fun (t, n) => c.follow space c.hops t n := by
  unfold imported? importedThen
  cases c.importStep? s name <;> rfl

theorem declared?_eq (s : Source) (name : String) :
    c.declared? s name space =
      match s.find? name space with
      | some d => some (s, d)
      | none => c.imported? s name space := by
  unfold declared? declaredThen
  cases s.find? name space <;> rfl

theorem namespaceMember?_eq (s : Source) (root member : String) :
    c.namespaceMember? s root member space =
      (c.namespaceModule? s root).bind fun t => c.follow space c.hops t member := by
  unfold namespaceMember? namespaceMemberThen
  cases c.namespaceModule? s root <;> rfl

theorem importedThen_eq [LawfulMonad M] (s : Source) (name : String) (onward : Onward M α) :
    c.importedThen s name space onward =
      match c.imported? s name space with
      | some (t, d) => some <$> onward t d
      | none => pure none := by
  rw [imported?_eq, importedThen]
  cases c.importStep? s name with
  | none => rfl
  | some step => simp only [followThen_eq, toOption_take, Option.bind]

theorem declaredThen_eq [LawfulMonad M] (s : Source) (name : String) (onward : Onward M α) :
    c.declaredThen s name space onward =
      match c.declared? s name space with
      | some (t, d) => some <$> onward t d
      | none => pure none := by
  rw [declared?_eq, declaredThen, importedThen_eq]
  cases s.find? name space <;> rfl

theorem namespaceMemberThen_eq [LawfulMonad M] (s : Source) (root member : String)
    (onward : Onward M α) :
    c.namespaceMemberThen s root member space onward =
      match c.namespaceMember? s root member space with
      | some (t, d) => some <$> onward t d
      | none => pure none := by
  rw [namespaceMember?_eq, namespaceMemberThen]
  cases c.namespaceModule? s root with
  | none => rfl
  | some t => simp only [followThen_eq, toOption_take, Option.bind]

end TemplateValues.Codebase
