import RelationalAlgebra.Error

/-!
# The first failure

A computation in several steps fails with the error of its first step that fails. Which error this
is can be said of the steps one by one, by the optional errors that they leave (`error?_bind`).
-/
namespace RelationalAlgebra

def error? {α : Type} : Except Error α → Option Error
  | .ok _ => none
  | .error e => some e

variable {α β : Type} {x : Except Error α} {e : Error}

theorem error?_eq_some_iff : error? x = some e ↔ x = .error e := by
  cases x <;> simp [error?]

theorem error?_eq_none_iff : error? x = none ↔ ∃ a, x = .ok a := by
  cases x <;> simp [error?]

theorem error?_bind {f : α → Except Error β} {failure : Option Error}
    (h : ∀ a, x = .ok a → error? (f a) = failure) : error? (x >>= f) = (error? x).or failure := by
  cases x with
  | error e => rfl
  | ok a => exact h a rfl

/-! A list that is computed element by element. -/

theorem error?_cons {xs : Except Error (List α)} :
    error? (do let a ← x; return a :: (← xs)) = (error? x).or (error? xs) := by
  cases x <;> cases xs <;> rfl

theorem cons_eq_ok_iff {xs : Except Error (List α)} {as : List α} :
    (do let a ← x; return a :: (← xs)) = .ok as ↔
      ∃ a rest, x = .ok a ∧ xs = .ok rest ∧ as = a :: rest := by
  cases x <;> cases xs <;> simp [bind, Except.bind, pure, Except.pure, eq_comm]

theorem findSome?_cons_eq_or (f : α → Option β) (a : α) (l : List α) :
    (a :: l).findSome? f = (f a).or (l.findSome? f) := by
  rw [List.findSome?_cons]
  cases f a <;> rfl

theorem isSome_error? (x : Except Error α) : (error? x).isSome = !x.isOk := by
  cases x <;> rfl

end RelationalAlgebra
