import Mathlib.Data.List.Count
import Mathlib.Data.List.Nodup

/-! # Counting in lists

Resources that are held by the members of a list, counted in more than one way. -/

namespace Library

variable {α β : Type*}

theorem countP_split (p : α → Bool) (xs ys : List α) (x : α) :
    (xs ++ x :: ys).countP p = xs.countP p + ys.countP p + (p x).toNat := by
  rw [List.countP_append, List.countP_cons]
  cases p x <;> simp [Nat.add_assoc]

theorem countP_add_le {p q r : α → Bool} {xs : List α}
    (h : ∀ x ∈ xs, (p x).toNat + (q x).toNat ≤ (r x).toNat) :
    xs.countP p + xs.countP q ≤ xs.countP r := by
  induction xs with
  | nil => simp
  | cons x xs ih =>
    have hx := h x (.head _)
    have hxs := ih fun y hy => h y (.tail x hy)
    simp only [List.countP_cons]
    cases hp : p x <;> cases hq : q x <;> cases hr : r x <;> simp_all <;> omega

theorem countP_le_holders [DecidableEq β] {p : β → Bool} {hold : α → Option β} {ys : List β}
    (hys : ys.Nodup) (xs : List α)
    (h : ∀ y ∈ ys, p y = true → 0 < xs.countP fun x => hold x = some y) :
    ys.countP p ≤ xs.countP fun x => (hold x).any (· ∈ ys) := by
  induction ys generalizing p with
  | nil => simp
  | cons y ys ih =>
    obtain ⟨hy, hys⟩ := List.nodup_cons.mp hys
    have hrest := ih hys fun z hz => h z (.tail y hz)
    have hsplit : (xs.countP fun x => (hold x).any (· ∈ ys)) +
        (xs.countP fun x => hold x = some y) ≤
        xs.countP fun x => (hold x).any (· ∈ y :: ys) := by
      refine countP_add_le fun x _ => ?_
      cases hx : hold x with
      | none => simp
      | some z =>
        by_cases hz : z = y
        · subst hz
          simp [hy]
        · simp [hz]
    rw [List.countP_cons]
    cases hp : p y with
    | false =>
      simp only [Bool.false_eq_true, if_false]
      omega
    | true =>
      have hpos := h y (.head _) hp
      simp only [if_true]
      omega

end Library
