import TemplateValues.Proofs.Onward
import TemplateValues.Values.Answer

/-!
# Inquiries

A rule asks goals one after the other, and which goal comes next may depend on the answers so far.
An *inquiry* is this behaviour as data.  The rules are written for any monad, so each of them has an
inquiry: the rule itself, run in the monad of inquiries.

The one fact about rules proved here is that running the inquiry of a rule with some way to answer
goals is running the rule with it (`run_expression`, `run_type` and so on).  Everything else about
the evaluation is then proved about inquiries, without opening the rules again.
-/

namespace TemplateValues

/-! ## Rules that go by a name -/

namespace Values

variable {M : Type → Type} [Monad M] [LawfulMonad M] (c : Codebase)

theorem meant_eq (s : Source) (name : String) (space : Space)
    (onward : Source → Declaration → M LiteralSet) :
    meant c s name space onward =
      match c.declared? s name space with
      | some (t, d) => onward t d
      | none => Eval.unknown := by
  rw [meant, Codebase.declaredThen_eq]
  cases c.declared? s name space <;> simp [Eval.unknown]

theorem chained_eq (ask : Goal → M LiteralSet) (s : Source) (root member : String)
    (rest : List String) :
    chained c ask s root member rest =
      match c.declared? s root .value with
      | some (t, d) => ask (.chain t d (member :: rest))
      | none =>
        match c.namespaceMember? s root member .value with
        | some (t, d) => ask (.chain t d rest)
        | none => Eval.unknown := by
  rw [chained, Codebase.declaredThen_eq, Codebase.namespaceMemberThen_eq]
  cases c.declared? s root .value with
  | some found => simp
  | none => cases c.namespaceMember? s root member .value <;> simp [Eval.unknown]

end Values

variable {σ α β : Type}

/-- What is asked, one goal after the other, and what is made of the answers. -/
inductive Inquiry (α : Type) where
  | done (a : α)
  | ask (goal : Goal) (next : LiteralSet → Inquiry α)
  | halt (h : Halt)

namespace Inquiry

protected def bind : Inquiry α → (α → Inquiry β) → Inquiry β
  | .done a, f => f a
  | .ask goal next, f => .ask goal fun values => (next values).bind f
  | .halt h, _ => .halt h

instance : Monad Inquiry where
  pure := .done
  bind := .bind

theorem map_id_eq (q : Inquiry α) : id <$> q = q := by
  induction q with
  | done a => rfl
  | ask goal next ih => exact congrArg (Inquiry.ask goal) (funext ih)
  | halt h => rfl

theorem bind_bind {γ : Type} (q : Inquiry α) (f : α → Inquiry β) (g : β → Inquiry γ) :
    q >>= f >>= g = q >>= fun a => f a >>= g := by
  induction q with
  | done a => rfl
  | ask goal next ih => exact congrArg (Inquiry.ask goal) (funext ih)
  | halt h => rfl

instance : LawfulMonad Inquiry := .mk' Inquiry map_id_eq (fun _ _ => rfl) bind_bind

def one (goal : Goal) : Inquiry LiteralSet := .ask goal .done

def run (ask : Ask σ) : Inquiry α → Eval σ α
  | .done a => pure a
  | .ask goal next => do (next (← ask goal)).run ask
  | .halt h => throw h

/-! ## Running an inquiry -/

variable (ask : Ask σ)

@[simp] theorem run_pure (a : α) : (pure a : Inquiry α).run ask = pure a := rfl

@[simp] theorem run_one (goal : Goal) : (one goal).run ask = ask goal := by
  simp only [one, run, bind_pure]

@[simp] theorem run_bind (q : Inquiry α) (f : α → Inquiry β) :
    (q >>= f).run ask = q.run ask >>= fun a => (f a).run ask := by
  induction q with
  | done a => rw [run, pure_bind]; rfl
  | ask goal next ih =>
    change ((ask goal) >>= fun values => ((next values >>= f) : Inquiry β).run ask) = _
    simp only [ih, run, bind_assoc]
  | halt h => rfl

@[simp] theorem run_ite (p : Prop) [Decidable p] (q r : Inquiry α) :
    (if p then q else r).run ask = if p then q.run ask else r.run ask := by
  split <;> rfl

/-! ## Running what rules are made of -/

@[simp] theorem run_unknown : (Eval.unknown : Inquiry LiteralSet).run ask = Eval.unknown := rfl

@[simp] theorem run_collect (f : α → Inquiry LiteralSet) (xs : List α) :
    (Eval.collect f xs).run ask = Eval.collect (fun x => (f x).run ask) xs := by
  unfold Eval.collect
  generalize LiteralSet.empty = start
  induction xs generalizing start with
  | nil => rfl
  | cons x xs ih => simp only [List.foldlM_cons, run_bind, run_pure, ih]

@[simp] theorem run_firstKnown (f : α → Inquiry LiteralSet) (xs : List α) :
    (Eval.firstKnown f xs).run ask = Eval.firstKnown (fun x => (f x).run ask) xs := by
  induction xs with
  | nil => rfl
  | cons x xs ih => simp only [Eval.firstKnown, run_bind, run_ite, run_pure, ih]

@[simp] theorem run_asked (f : α → Inquiry LiteralSet) (x? : Option α) :
    (Eval.asked f x?).run ask = Eval.asked (fun x => (f x).run ask) x? := by
  cases x? <;> rfl

@[simp] theorem run_orElse (first second : Inquiry LiteralSet) :
    (Eval.orElse first second).run ask = Eval.orElse (first.run ask) (second.run ask) := by
  simp only [Eval.orElse, run_bind, run_ite, run_pure]

/-! ## Running the rules -/

section Rules

open Syntax Values

variable (c : Codebase)

@[simp] theorem run_meant (s : Source) (name : String) (space : Space)
    (onward : Source → Declaration → Inquiry LiteralSet) :
    (meant c s name space onward).run ask =
      meant c s name space fun t d => (onward t d).run ask := by
  rw [meant_eq, meant_eq]
  cases c.declared? s name space <;> rfl

@[simp] theorem run_named (s : Source) (name : String) (space : Space)
    (goal : Source → Declaration → Goal) :
    (named c one s name space goal).run ask = named c ask s name space goal := by
  simp only [named, run_meant, run_one]

@[simp] theorem run_chained (s : Source) (root member : String) (rest : List String) :
    (chained c one s root member rest).run ask = chained c ask s root member rest := by
  rw [chained_eq, chained_eq]
  cases c.declared? s root .value with
  | some found => exact run_one ask _
  | none =>
    cases c.namespaceMember? s root member .value with
    | some found => exact run_one ask _
    | none => rfl

@[simp] theorem run_dotted (s : Source) (expression : String) :
    (dotted c one s expression).run ask = dotted c ask s expression := by
  unfold dotted
  split
  · rw [run_ite, run_chained, run_unknown]
  · rfl

@[simp] theorem run_elements (s : Source) (array : Node) :
    (elements one s array).run ask = elements ask s array := by
  simp only [elements, run_collect, run_one]

@[simp] theorem run_propertyValues (s : Source) (n : Node) :
    (propertyValues c one s n).run ask = propertyValues c ask s n := by
  unfold propertyValues
  split <;> simp only [run_asked, run_one, run_named, run_unknown]

@[simp] theorem run_objectValues (s : Source) (object : Node) :
    (objectValues c one s object).run ask = objectValues c ask s object := by
  simp only [objectValues, run_collect, run_propertyValues]

@[simp] theorem run_assertion (s : Source) (n : Node) :
    (assertion one s n).run ask = assertion ask s n := by
  simp only [assertion, run_orElse, run_asked, run_one, run_pure]

@[simp] theorem run_expression (s : Source) (n : Node) :
    (expression c one s n).run ask = expression c ask s n := by
  unfold expression
  dsimp only
  split <;> simp only [run_pure, run_elements, run_assertion, run_named, run_dotted, run_collect,
    run_one, run_unknown]

@[simp] theorem run_expressionMember (s : Source) (n : Node) (name : String) (rest : List String) :
    (expressionMember c one s n name rest).run ask = expressionMember c ask s n name rest := by
  unfold expressionMember
  dsimp only
  split
  · split
    · simp only [run_ite, run_named, run_one]
    · rfl
  all_goals simp only [run_named, run_orElse, run_asked, run_one, run_dotted, run_unknown]

@[simp] theorem run_idiom (s : Source) (i : Idiom) :
    (idiom c one s i).run ask = idiom c ask s i := by
  cases i with
  | values x y => simp only [idiom, run_ite, run_meant, run_pure, run_one, run_unknown]
  | keys x => simp only [idiom, run_named]
  | elements x =>
    simp only [idiom, run_meant]
    congr 1
    funext t d
    split
    · exact run_elements ask _ _
    · rfl

@[simp] theorem run_type (s : Source) (n : Node) :
    (type c one s n).run ask = type c ask s n := by
  unfold type
  split
  case h_11 =>
    split
    · simp only [run_ite, run_asked, run_one]
    · rfl
  all_goals simp only [run_asked, run_one, run_collect, run_pure, run_ite, run_unknown, run_named,
    run_idiom]

@[simp] theorem run_typeMember (s : Source) (n : Node) (name : String) (rest : List String) :
    (typeMember c one s n name rest).run ask = typeMember c ask s n name rest := by
  unfold typeMember
  split <;> simp only [run_asked, run_one, run_ite, run_named, run_collect, run_firstKnown,
    run_unknown]

@[simp] theorem run_valuesOf (s : Source) (n : Node) :
    (valuesOf c one s n).run ask = valuesOf c ask s n := by
  unfold valuesOf
  dsimp only
  split
  · exact run_objectValues ask c s _
  · rw [run_meant]
    congr 1
    funext t d
    split
    · rfl
    · split
      · exact run_objectValues ask c _ _
      · rfl
    · rfl
  · rfl

@[simp] theorem run_keysOf (s : Source) (n : Node) :
    (keysOf c one s n).run ask = keysOf c ask s n := by
  unfold keysOf
  dsimp only
  split <;> simp only [run_pure, run_named, run_unknown]

@[simp] theorem run_elementsOf (s : Source) (n : Node) :
    (elementsOf c one s n).run ask = elementsOf c ask s n := by
  unfold elementsOf
  dsimp only
  split
  · split <;> simp only [run_valuesOf, run_keysOf, run_unknown]
  all_goals simp only [run_elements, run_named, run_dotted, run_unknown]

@[simp] theorem run_loop (s : Source) (statement : Node) :
    (loop c one s statement).run ask = loop c ask s statement := by
  unfold loop
  split <;> simp only [run_elementsOf, run_keysOf, run_unknown]

@[simp] theorem run_iteration (s : Source) (d : Declaration) :
    (iteration c one s d).run ask = iteration c ask s d := by
  unfold iteration
  rw [run_ite]
  congr 1
  split
  · split
    · exact run_loop ask c s _
    · simp only [run_asked, run_elementsOf]
    · split
      · simp only [run_ite, run_asked, run_elementsOf, run_unknown]
      · rfl
    · rfl
  · rfl

@[simp] theorem run_given (s : Source) (d : Declaration) :
    (given one s d).run ask = given ask s d := by
  simp only [given, ascribed, run_orElse, run_asked, run_one]

@[simp] theorem run_property (s : Source) (d : Declaration) :
    (property one s d).run ask = property ask s d := by
  unfold property
  split <;> simp only [run_pure, run_given]

@[simp] theorem run_declaration (s : Source) (d : Declaration) :
    (declaration c one s d).run ask = declaration c ask s d := by
  unfold declaration
  split <;> simp only [ascribed, run_pure, run_given, run_asked, run_one, run_unknown, run_orElse,
    run_iteration, run_property]

@[simp] theorem run_initializerKeys (s : Source) (d : Declaration) :
    (initializerKeys c one s d).run ask = initializerKeys c ask s d := by
  unfold initializerKeys
  split
  · split <;> simp only [run_pure, run_named, run_unknown]
  · rfl

@[simp] theorem run_declarationMember (s : Source) (d : Declaration) (name : String)
    (rest : List String) :
    (declarationMember one s d name rest).run ask = declarationMember ask s d name rest := by
  unfold declarationMember
  split <;> simp only [run_ite, run_pure, run_unknown, run_asked, run_one, run_orElse,
    run_firstKnown]

end Rules

end Inquiry

end TemplateValues
