/-! # Computations that may fail

What is known of a sequence from its result. -/

namespace Library

theorem Except.bind_eq_ok_iff {ε α β : Type} {x : Except ε α} {f : α → Except ε β} {b : β} :
    (x >>= f) = .ok b ↔ ∃ a, x = .ok a ∧ f a = .ok b := by
  cases x <;> simp [bind, Except.bind]

theorem Except.bind_eq_error_iff {ε α β : Type} {x : Except ε α} {f : α → Except ε β} {e : ε} :
    (x >>= f) = .error e ↔ x = .error e ∨ ∃ a, x = .ok a ∧ f a = .error e := by
  cases x <;> simp [bind, Except.bind]

theorem of_bind_ok {ε α β : Type} {x : Except ε α} {f : α → Except ε β} {b : β}
    (h : (x >>= f) = .ok b) : ∃ a, x = .ok a ∧ f a = .ok b :=
  Except.bind_eq_ok_iff.mp h

theorem of_bind_error {ε α β : Type} {x : Except ε α} {f : α → Except ε β} {e : ε}
    (h : (x >>= f) = .error e) : x = .error e ∨ ∃ a, x = .ok a ∧ f a = .error e :=
  Except.bind_eq_error_iff.mp h

/-- Every answer of a computation meets `Q`, and every error of it `E`. -/
def Except.Holds {ε α : Type} (E : ε → Prop) (Q : α → Prop) : Except ε α → Prop
  | .ok a => Q a
  | .error e => E e

variable {ε α β : Type} {E : ε → Prop} {P : α → Prop} {Q : β → Prop} {x : Except ε α}
  {f : α → Except ε β}

theorem Except.Holds.bind (h : Except.Holds E P x)
    (hf : ∀ a, x = .ok a → P a → Except.Holds E Q (f a)) : Except.Holds E Q (x >>= f) := by
  cases x with
  | ok a => exact hf a rfl h
  | error e => exact h

theorem Except.Holds.of_bind (herror : ∀ e, x = .error e → E e)
    (hok : ∀ a, x = .ok a → Except.Holds E Q (f a)) : Except.Holds E Q (x >>= f) := by
  cases x with
  | ok a => exact hok a rfl
  | error e => exact herror e rfl

end Library
