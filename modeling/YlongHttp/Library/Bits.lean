import Mathlib.Data.Nat.Bitwise
import Mathlib.Tactic

/-! # Fixed-width big-endian bit strings

`bitsOf n v` spells the `n` low bits of `v`, most significant first. Concatenating two
bit strings is a multiplication by a power of two and an addition on the numbers they
spell, which is how packed codes are reasoned about. -/

namespace Library

open List Nat

def bitsOf : ℕ → ℕ → List Bool
  | 0, _ => []
  | n + 1, v => v.testBit n :: bitsOf n v

@[simp] theorem bitsOf_zero (v : ℕ) : bitsOf 0 v = [] := rfl

theorem bitsOf_succ (n v : ℕ) : bitsOf (n + 1) v = v.testBit n :: bitsOf n v := rfl

@[simp] theorem bitsOf_length (n v : ℕ) : (bitsOf n v).length = n := by
  induction n with
  | zero => rfl
  | succ n ih => simp [bitsOf_succ, ih]

theorem bitsOf_congr {n v w : ℕ} (h : ∀ i < n, v.testBit i = w.testBit i) :
    bitsOf n v = bitsOf n w := by
  induction n with
  | zero => rfl
  | succ n ih =>
    rw [bitsOf_succ, bitsOf_succ, h n (lt_succ_self n), ih fun i hi => h i (lt_succ_of_lt hi)]

theorem bitsOf_add (a b x y : ℕ) (hy : y < 2 ^ b) :
    bitsOf (a + b) (x * 2 ^ b + y) = bitsOf a x ++ bitsOf b y := by
  have hbit : ∀ j, (x * 2 ^ b + y).testBit j =
      if j < b then y.testBit j else x.testBit (j - b) := by
    intro j
    rw [mul_comm]
    exact testBit_two_pow_mul_add x hy j
  induction a with
  | zero =>
    rw [zero_add, bitsOf_zero, nil_append]
    apply bitsOf_congr
    intro i hi
    rw [hbit i, if_pos hi]
  | succ a ih =>
    rw [add_right_comm, bitsOf_succ, bitsOf_succ, cons_append, ih, hbit (a + b),
      if_neg (by omega), Nat.add_sub_cancel]

theorem bitsOf_mod (n v : ℕ) : bitsOf n (v % 2 ^ n) = bitsOf n v := by
  apply bitsOf_congr
  intro i hi
  simp [testBit_mod_two_pow, hi]

theorem bitsOf_split (a b v : ℕ) : bitsOf (a + b) v = bitsOf a (v / 2 ^ b) ++ bitsOf b v := by
  have h := bitsOf_add a b (v / 2 ^ b) (v % 2 ^ b) (Nat.mod_lt _ (Nat.two_pow_pos _))
  rwa [div_add_mod' v (2 ^ b), bitsOf_mod] at h

theorem bitsOf_take (k n v : ℕ) (hk : k ≤ n) :
    (bitsOf n v).take k = bitsOf k (v / 2 ^ (n - k)) := by
  obtain ⟨m, rfl⟩ := Nat.exists_eq_add_of_le hk
  rw [bitsOf_split, Nat.add_sub_cancel_left, take_left' (bitsOf_length _ _)]

theorem bitsOf_injective {n v w : ℕ} (hv : v < 2 ^ n) (hw : w < 2 ^ n)
    (h : bitsOf n v = bitsOf n w) : v = w := by
  induction n generalizing v w with
  | zero => omega
  | succ n ih =>
    rw [bitsOf_succ, bitsOf_succ] at h
    obtain ⟨htop, hrest⟩ := cons.inj h
    have hlow : v % 2 ^ n = w % 2 ^ n := by
      apply ih (Nat.mod_lt _ (Nat.two_pow_pos _)) (Nat.mod_lt _ (Nat.two_pow_pos _))
      rw [bitsOf_mod, bitsOf_mod, hrest]
    apply Nat.eq_of_testBit_eq
    intro i
    rcases lt_trichotomy i n with hi | rfl | hi
    · have hbit := congrArg (testBit · i) hlow
      simpa [testBit_mod_two_pow, hi] using hbit
    · exact htop
    · rw [Nat.testBit_lt_two_pow (lt_of_lt_of_le hv (Nat.pow_le_pow_right (by omega) hi)),
        Nat.testBit_lt_two_pow (lt_of_lt_of_le hw (Nat.pow_le_pow_right (by omega) hi))]

theorem bitsOf_ones (n : ℕ) : bitsOf n (2 ^ n - 1) = List.replicate n true := by
  have h : ∀ m n, n ≤ m → bitsOf n (2 ^ m - 1) = replicate n true := by
    intro m n
    induction n with
    | zero => intro _; rfl
    | succ n ih =>
      intro hn
      rw [bitsOf_succ, ih (by omega), replicate_succ, testBit_two_pow_sub_one]
      simp [lt_of_succ_le hn]
  exact h n n le_rfl

theorem bitsOf_prefix {k n v w : ℕ} (hv : v < 2 ^ k) (hw : w < 2 ^ n)
    (h : bitsOf k v <+: bitsOf n w) : k ≤ n ∧ w / 2 ^ (n - k) = v := by
  have hk : k ≤ n := by simpa using h.length_le
  refine ⟨hk, ?_⟩
  have heq : bitsOf k v = bitsOf k (w / 2 ^ (n - k)) := by
    rw [← bitsOf_take k n w hk]
    simpa using prefix_iff_eq_take.mp h
  refine (bitsOf_injective hv ?_ heq).symm
  rw [Nat.div_lt_iff_lt_mul (Nat.two_pow_pos _), ← pow_add]
  simpa [hk] using hw

/-! ## Octets -/

@[elab_as_elim]
theorem forall_octet {p : UInt8 → Prop} [DecidablePred p] (h : ∀ n : Fin 256, p (UInt8.ofFin n))
    (b : UInt8) : p b := by
  simpa using h b.toFin

end Library
