import Mathlib.Data.Nat.Digits.Lemmas
import YlongHttp.Model.Basic

/-! # Numerals (`str::parse` and `format!` of the standard library) -/

namespace YlongHttp

def isAsciiDigit (b : UInt8) : Bool := '0'.toUInt8 ≤ b && b ≤ '9'.toUInt8

def toAsciiLowercase (b : UInt8) : UInt8 := if 'A'.toUInt8 ≤ b && b ≤ 'Z'.toUInt8 then b + 32 else b

def eqIgnoreAsciiCase (a b : Bytes) : Bool := a.map toAsciiLowercase == b.map toAsciiLowercase

/-- The digits after those that gave `acc`; `none` is a wrong digit or an overflow. -/
def parseDigits (bound : ℕ) : ℕ → Bytes → Option ℕ
  | acc, [] => some acc
  | acc, b :: rest =>
    if isAsciiDigit b ∧ 10 * acc + (b.toNat - 48) < bound then
      parseDigits bound (10 * acc + (b.toNat - 48)) rest
    else none

/-- `parse` to an unsigned type of `bound` values. One plus sign may stand in front. -/
def parseUnsigned (bound : ℕ) : Bytes → Option ℕ
  | [] => none
  | b :: rest =>
    if b = '+'.toUInt8 ∧ rest ≠ [] then parseDigits bound 0 rest
    else parseDigits bound 0 (b :: rest)

/-- `format!("{}", n)`. -/
def decimal (n : ℕ) : Bytes := (Nat.toDigits 10 n).map Char.toUInt8

def rsplitOnce (sep : UInt8) : Bytes → Option (Bytes × Bytes)
  | [] => none
  | b :: rest =>
    match rsplitOnce sep rest with
    | some (front, back) => some (b :: front, back)
    | none => if b = sep then some ([], rest) else none

/-! ## Numbers that are written and read -/

variable {n bound : ℕ}

theorem toUInt8_digitChar (h : n < 10) :
    isAsciiDigit n.digitChar.toUInt8 = true ∧ n.digitChar.toUInt8.toNat = 48 + n := by
  interval_cases n <;> decide

theorem decimal_of_lt (h : n < 10) : decimal n = [n.digitChar.toUInt8] := by
  rw [decimal, Nat.toDigits_of_lt_base h]
  rfl

theorem decimal_append {n d : ℕ} (hn : 0 < n) (hd : d < 10) :
    decimal (10 * n + d) = decimal n ++ [d.digitChar.toUInt8] := by
  rw [decimal, ← Nat.toDigits_append_toDigits (by decide) hn hd, List.map_append,
    Nat.toDigits_of_lt_base hd]
  rfl

theorem decimal_ne_nil (n : ℕ) : decimal n ≠ [] := by simp [decimal]

theorem isAsciiDigit_of_mem_decimal {b : UInt8} (h : b ∈ decimal n) : isAsciiDigit b = true := by
  induction n using Nat.base_induction 10 (by decide) with
  | single m hm =>
    rw [decimal_of_lt hm, List.mem_singleton] at h
    exact h ▸ (toUInt8_digitChar hm).1
  | digit m k hk hm ih =>
    rw [decimal_append hm hk, List.mem_append, List.mem_singleton] at h
    rcases h with h | h
    · exact ih h
    · exact h ▸ (toUInt8_digitChar hk).1

theorem parseDigits_append {bound acc : ℕ} {ds rest : Bytes} :
    parseDigits bound acc (ds ++ rest) =
      (parseDigits bound acc ds).bind fun acc => parseDigits bound acc rest := by
  induction ds generalizing acc with
  | nil => rfl
  | cons d ds ih =>
    rw [List.cons_append, parseDigits, parseDigits]
    split
    · exact ih
    · rfl

theorem parseDigits_decimal (h : n < bound) : parseDigits bound 0 (decimal n) = some n := by
  induction n using Nat.base_induction 10 (by decide) with
  | single m hm =>
    obtain ⟨hdigit, hval⟩ := toUInt8_digitChar hm
    rw [decimal_of_lt hm, parseDigits, hval]
    simp [hdigit, h, parseDigits]
  | digit m k hk hm ih =>
    obtain ⟨hdigit, hval⟩ := toUInt8_digitChar hk
    rw [decimal_append hm hk, parseDigits_append, ih (by omega)]
    simp [parseDigits, hdigit, hval, h]

theorem parseUnsigned_decimal (h : n < bound) : parseUnsigned bound (decimal n) = some n := by
  have hparse := parseDigits_decimal h
  cases hd : decimal n with
  | nil => exact absurd hd (decimal_ne_nil n)
  | cons b rest =>
    have hdigit := isAsciiDigit_of_mem_decimal (hd ▸ (.head _) : b ∈ decimal n)
    have hplus : b ≠ '+'.toUInt8 := by
      rintro rfl
      revert hdigit
      decide
    rw [parseUnsigned, if_neg fun hand => hplus hand.1, ← hd]
    exact hparse

theorem rsplitOnce_none {sep : UInt8} {text : Bytes} (h : sep ∉ text) :
    rsplitOnce sep text = none := by
  induction text with
  | nil => rfl
  | cons b text ih =>
    have hb : b ≠ sep := fun heq => h (heq ▸ (.head _))
    have hrest := ih fun hmem => h (.tail b hmem)
    simp [rsplitOnce, hrest, hb]

theorem rsplitOnce_append {sep : UInt8} {front back : Bytes} (h : sep ∉ back) :
    rsplitOnce sep (front ++ sep :: back) = some (front, back) := by
  induction front with
  | nil => simp [rsplitOnce, rsplitOnce_none h]
  | cons b front ih => simp [rsplitOnce, ih]

end YlongHttp
