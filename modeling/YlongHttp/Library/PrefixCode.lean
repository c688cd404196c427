import Mathlib.Data.List.Infix
import Mathlib.Tactic

/-! # Prefix codes

A code assigns a bit string to every symbol so that no code word begins another. A
concatenation of code words then determines the symbols, also when it is followed by a
tail that no code word begins: this is what makes a decoder of the code unique. -/

namespace Library

open List

variable {σ : Type*}

/-- No code word is a prefix of the word of another symbol. -/
def PrefixFree (code : σ → List Bool) : Prop := ∀ a b, code a <+: code b → a = b

/-- `tail` is cut inside a code word: it is a proper prefix of one. -/
def Inside (code : σ → List Bool) (tail : List Bool) : Prop := ∃ a, tail <+: code a ∧ tail ≠ code a

variable {code : σ → List Bool}

theorem Inside.not_prefix (hfree : PrefixFree code) {tail : List Bool} (h : Inside code tail)
    (a : σ) : ¬ code a <+: tail := by
  obtain ⟨b, hb, hne⟩ := h
  intro ha
  obtain rfl := hfree a b (ha.trans hb)
  exact hne (hb.eq_of_length (le_antisymm hb.length_le ha.length_le))

variable {s t : List Bool} {xs ys : List σ}

theorem PrefixFree.symbols_prefix (hfree : PrefixFree code) (hs : Inside code s)
    (h : xs.flatMap code ++ s = ys.flatMap code ++ t) : ys <+: xs := by
  induction xs generalizing ys with
  | nil =>
    cases ys with
    | nil => exact prefix_rfl
    | cons y ys =>
      refine absurd ?_ (hs.not_prefix hfree y)
      simp only [flatMap_nil, nil_append, flatMap_cons, append_assoc] at h
      exact ⟨_, h.symm⟩
  | cons x xs ih =>
    cases ys with
    | nil => exact List.nil_prefix
    | cons y ys =>
      simp only [flatMap_cons, append_assoc] at h
      have hxy : x = y := by
        have hx : code x <+: code y ++ (ys.flatMap code ++ t) := ⟨_, h⟩
        rcases prefix_or_prefix_of_prefix hx (prefix_append _ _) with hp | hp
        · exact hfree x y hp
        · exact (hfree y x hp).symm
      subst hxy
      exact cons_prefix_cons.mpr ⟨rfl, ih (append_cancel_left h)⟩

theorem PrefixFree.unique (hfree : PrefixFree code) (hs : Inside code s) (ht : Inside code t)
    (h : xs.flatMap code ++ s = ys.flatMap code ++ t) : xs = ys ∧ s = t := by
  have hyx := hfree.symbols_prefix hs h
  have hxy := hfree.symbols_prefix ht h.symm
  obtain rfl := hxy.eq_of_length (le_antisymm hxy.length_le hyx.length_le)
  exact ⟨rfl, append_cancel_left h⟩

end Library
