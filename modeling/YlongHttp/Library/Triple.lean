import Mathlib.Tactic

/-! # Computations with a state that may fail

A triple says what holds when such a computation has ended: of its value and the state, or of the
state it has failed in, which is not rolled back. -/

namespace Library

variable {σ ε α β : Type}

/-- From a state in `P`, the computation ends with `Q`, or fails with `E`. -/
def Triple (P : σ → Prop) (m : EStateM ε σ α) (Q : α → σ → Prop)
    (E : ε → σ → Prop) : Prop :=
  ∀ s, P s → match m s with
    | .ok a s' => Q a s'
    | .error e s' => E e s'

namespace Triple

variable {P P' : σ → Prop} {Q Q' : α → σ → Prop} {R : β → σ → Prop} {E E' : ε → σ → Prop}
  {m : EStateM ε σ α} {f : α → EStateM ε σ β}

theorem weaken (h : Triple P m Q E) (hP : ∀ s, P' s → P s) (hQ : ∀ a s, Q a s → Q' a s)
    (hE : ∀ e s, E e s → E' e s) : Triple P' m Q' E' := by
  intro s hs
  have hm := h s (hP s hs)
  split at hm
  · exact hQ _ _ hm
  · exact hE _ _ hm

theorem pure (a : α) (h : ∀ s, P s → Q a s) : Triple P (Pure.pure a : EStateM ε σ α) Q E :=
  fun s hs => h s hs

theorem throw (e : ε) (h : ∀ s, P s → E e s) : Triple P (MonadExcept.throw e : EStateM ε σ α) Q E :=
  fun s hs => h s hs

theorem bind (hm : Triple P m Q E) (hf : ∀ a, Triple (Q a) (f a) R E) : Triple P (m >>= f) R E := by
  intro s hs
  have hfirst := hm s hs
  change match EStateM.bind m f s with | .ok b s' => R b s' | .error e s' => E e s'
  rw [EStateM.bind]
  cases hrun : m s with
  | ok a s' =>
    rw [hrun] at hfirst
    exact hf a s' hfirst
  | error e s' =>
    rw [hrun] at hfirst
    exact hfirst

theorem ite {c : Prop} [Decidable c] {m' : EStateM ε σ α} (h : c → Triple P m Q E)
    (h' : ¬ c → Triple P m' Q E) : Triple P (if c then m else m') Q E := by
  split
  · exact h ‹_›
  · exact h' ‹_›

theorem or (h : Triple P m Q E) (h' : Triple P' m Q' E') :
    Triple (fun s => P s ∨ P' s) m (fun a s => Q a s ∨ Q' a s) fun e s => E e s ∨ E' e s := by
  rintro s (hs | hs)
  · exact (h.weaken (fun _ hP => hP) (fun _ _ => .inl) fun _ _ => .inl) s hs
  · exact (h'.weaken (fun _ hP => hP) (fun _ _ => .inr) fun _ _ => .inr) s hs

theorem and (h : Triple P m Q E) (h' : Triple P' m Q' E') :
    Triple (fun s => P s ∧ P' s) m (fun a s => Q a s ∧ Q' a s) fun e s => E e s ∧ E' e s := by
  rintro s ⟨hs, hs'⟩
  have hm := h s hs
  have hm' := h' s hs'
  split <;> rename_i heq <;> rw [heq] at hm hm' <;> exact ⟨hm, hm'⟩

theorem tryCatch {m' : ε → EStateM ε σ α} (hm : Triple P m Q E)
    (hm' : ∀ e, Triple (E e) (m' e) Q E') : Triple P (MonadExcept.tryCatch m m') Q E' := by
  intro s hs
  have hfirst := hm s hs
  change match EStateM.tryCatch m m' s with | .ok b s' => Q b s' | .error e s' => E' e s'
  rw [EStateM.tryCatch]
  cases hrun : m s with
  | ok a s' =>
    rw [hrun] at hfirst
    exact hfirst
  | error e s' =>
    rw [hrun] at hfirst
    exact hm' e s' hfirst

end Triple

/-- The computation keeps a property of the state, whether it fails or not. -/
def Keeps (P : σ → Prop) (m : EStateM ε σ α) : Prop := Triple P m (fun _ => P) fun _ => P

namespace Keeps

variable {P : σ → Prop} {m : EStateM ε σ α} {f : α → EStateM ε σ β}

theorem pure (a : α) : Keeps P (Pure.pure a : EStateM ε σ α) := Triple.pure a fun _ hs => hs

theorem throw (e : ε) : Keeps P (MonadExcept.throw e : EStateM ε σ α) :=
  Triple.throw e fun _ hs => hs

theorem bind (hm : Keeps P m) (hf : ∀ a, Keeps P (f a)) : Keeps P (m >>= f) := Triple.bind hm hf

theorem ite {c : Prop} [Decidable c] {m' : EStateM ε σ α} (h : Keeps P m) (h' : Keeps P m') :
    Keeps P (if c then m else m') :=
  Triple.ite (fun _ => h) fun _ => h'

theorem tryCatch {m' : ε → EStateM ε σ α} (hm : Keeps P m) (hm' : ∀ e, Keeps P (m' e)) :
    Keeps P (MonadExcept.tryCatch m m') :=
  Triple.tryCatch hm hm'

end Keeps

end Library
