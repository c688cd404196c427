import YlongHttp.Model.Qpack.Format
import YlongHttp.Verification.Hpack.Syntax

/-! # Prefix integers of HPACK and QPACK

The two decoders compute the same and differ in the error they return. -/

namespace YlongHttp

open List IntegerDecoder
open Library (DecResult)

/-! ## One octet after another -/

/-- The octets are all that calls of `next_byte` return. -/
def IntegerEncoder.Produces : IntegerEncoder → Bytes → Prop
  | e, [] => e.nextByte = none
  | e, b :: bytes => ∃ e', e.nextByte = some (b, e') ∧ e'.Produces bytes

theorem IntegerEncoder.produces_octets (e : IntegerEncoder) : e.Produces e.octets := by
  generalize hoct : e.octets = bytes
  induction bytes generalizing e with
  | nil =>
    rw [e.octets_eq] at hoct
    cases hnext : e.nextByte with
    | none => exact hnext
    | some next =>
      rw [hnext] at hoct
      cases hoct
  | cons b bytes ih =>
    rw [e.octets_eq] at hoct
    cases hnext : e.nextByte with
    | none =>
      rw [hnext] at hoct
      cases hoct
    | some next =>
      obtain ⟨b', e'⟩ := next
      rw [hnext] at hoct
      obtain ⟨rfl, hrest⟩ := cons.inj hoct
      exact ⟨e', hnext, ih e' hrest⟩

/-! ## Masks -/

/-- The mask of a prefix of `n` bits. -/
def prefixMask (n : ℕ) : UInt8 := UInt8.ofNat (2 ^ n - 1)

section Masks

variable {n : ℕ} (hn : n ≤ 8)

include hn

theorem prefixMask_toNat : (prefixMask n).toNat = 2 ^ n - 1 := by interval_cases n <;> rfl

theorem and_prefixMask (b : UInt8) : (b &&& prefixMask n).toNat = b.toNat % 2 ^ n := by
  rw [UInt8.toNat_and, prefixMask_toNat hn, Nat.and_two_pow_sub_one_eq_mod]

theorem prefixOctet_leading {pre : UInt8} (hpre : pre &&& prefixMask n = 0) :
    PrefixOctet (prefixMask n) pre := by
  have hor : ∀ x : UInt8, x.toNat < 2 ^ n → (pre ||| x) &&& prefixMask n = x := by
    intro x hx
    have hsplit : (pre ||| x) &&& prefixMask n = pre &&& prefixMask n ||| x &&& prefixMask n := by
      rw [← UInt8.toBitVec_inj]
      exact BitVec.and_or_distrib_right
    rw [hsplit, hpre, UInt8.zero_or, ← UInt8.toNat_inj, and_prefixMask hn, Nat.mod_eq_of_lt hx]
  have hmask := prefixMask_toNat hn
  have hpow : 0 < 2 ^ n := Nat.two_pow_pos n
  constructor
  · intro i hi
    refine hor _ ?_
    rw [UInt8.toNat_ofNat']
    exact (Nat.mod_le _ _).trans_lt (by omega)
  · exact hor _ (by omega)

end Masks

/-! ## Decoding -/

section Decoding

variable {ε : Type} (next : IntegerDecoder → UInt8 → Except ε (IntegerDecoder × Option ℕ))

/-- What `next_byte` makes of the octets: none as long as there has to be another one, else the
integer and the octets behind it. -/
def IntegerDecoder.feed : IntegerDecoder → Bytes → Except ε (Option (ℕ × Bytes))
  | _, [] => .ok none
  | int, b :: bytes =>
    match next int b with
    | .error e => .error e
    | .ok (_, some i) => .ok (some (i, bytes))
    | .ok (int, none) => IntegerDecoder.feed int bytes

def decodeInteger (mask : UInt8) : Bytes → Except ε (Option (ℕ × Bytes))
  | [] => .ok none
  | b :: bytes =>
    match IntegerDecoder.firstByte b mask with
    | .ok i => .ok (some (i, bytes))
    | .error int => int.feed next bytes

/-- The integer that the octets begin with, with the variable `M` of section 5.1 at its end: seven
for each octet after the prefix. -/
def Rfc7541.value (n : ℕ) : Bytes → Option (ℕ × ℕ × Bytes)
  | [] => none
  | b :: rest =>
    if b.toNat % 2 ^ n < 2 ^ n - 1 then some (b.toNat % 2 ^ n, 0, rest)
    else Rfc7541.integerLoop (2 ^ n - 1) 0 rest

/-- What a codec of prefix integers has to do, with the limit of ten octets after the prefix. -/
structure PrefixIntegers : Prop where
  roundTrip : ∀ i < usizeBound, ∀ n, 1 ≤ n → n ≤ 8 → ∀ pre, pre &&& prefixMask n = 0 →
    ∃ octets, (IntegerEncoder.new i (prefixMask n) pre).Produces octets ∧
      (∀ rest, decodeInteger next (prefixMask n) (octets ++ rest) = .ok (some (i, rest))) ∧
      ∀ front, front <+: octets → front ≠ octets →
        decodeInteger next (prefixMask n) front = .ok none
  decoded : ∀ n, 1 ≤ n → n ≤ 8 → ∀ octets i m rest, Rfc7541.value n octets = some (i, m, rest) →
    if i < 2 ^ 64 ∧ m ≤ 70 then decodeInteger next (prefixMask n) octets = .ok (some (i, rest))
    else ∃ e, decodeInteger next (prefixMask n) octets = .error e
  /-- An error may come before the last octet, when the limits are exceeded already. -/
  unfinished : ∀ n, 1 ≤ n → n ≤ 8 → ∀ octets, Rfc7541.value n octets = none →
    decodeInteger next (prefixMask n) octets = .ok none ∨
      (∃ e, decodeInteger next (prefixMask n) octets = .error e) ∧
        ∀ more i m rest, Rfc7541.value n (octets ++ more) = some (i, m, rest) →
          ¬ (i < 2 ^ 64 ∧ m ≤ 70)

variable {next}

theorem IntegerDecoder.feed_append (int : IntegerDecoder) (a b : Bytes) :
    int.feed next (a ++ b) =
      match int.feed next a with
      | .error e => .error e
      | .ok (some (i, rest)) => .ok (some (i, rest ++ b))
      | .ok none => int.feed next (a ++ b) := by
  induction a generalizing int with
  | nil => rfl
  | cons byte a ih =>
    rw [cons_append, feed, feed]
    cases next int byte with
    | error e => rfl
    | ok result =>
      obtain ⟨int', value⟩ := result
      cases value with
      | none => exact ih int'
      | some i => rfl

theorem decodeInteger_append (mask : UInt8) (a b : Bytes) :
    decodeInteger next mask (a ++ b) =
      match decodeInteger next mask a with
      | .error e => .error e
      | .ok (some (i, rest)) => .ok (some (i, rest ++ b))
      | .ok none => decodeInteger next mask (a ++ b) := by
  cases a with
  | nil => rfl
  | cons byte a =>
    rw [cons_append, decodeInteger, decodeInteger]
    cases firstByte byte mask with
    | error int => exact int.feed_append a b
    | ok i => rfl

/-! ## The decoders and the reference -/

theorem IntegerDecoder.nextByte_none {int int' : IntegerDecoder} {b : UInt8}
    (h : int.nextByte b = .ok (int', none)) : ¬ b.toNat < 128 := by
  intro hb
  rw [nextByte] at h
  split at h
  · cases h
  · rw [if_pos ((and_high b).mpr hb)] at h
    cases h

theorem Rfc7541.integer_eq (n : ℕ) (octets : Bytes) :
    Rfc7541.integer n octets = (Rfc7541.value n octets).bind fun (i, m, rest) =>
      if i < 2 ^ 64 ∧ m ≤ 70 then some (i, rest) else none := by
  cases octets with
  | nil => rfl
  | cons b rest =>
    rw [Rfc7541.integer, Rfc7541.value]
    split
    · have hb : b.toNat % 2 ^ n < 2 ^ 64 :=
        (Nat.mod_le _ _).trans_lt (b.toNat_lt.trans (by decide))
      exact (if_pos ⟨hb, by omega⟩).symm
    · rfl

variable {f : H2Error → ε} (hnext : ∀ int b, next int b = (int.nextByte b).mapError f)

include hnext

theorem IntegerDecoder.feed_eq (int : IntegerDecoder) (bytes : Bytes) :
    int.feed next bytes =
      match int.run bytes with
      | (.decoded i, rest) => .ok (some (i, rest))
      | (.needMore _, _) => .ok none
      | (.error e, _) => .error (f e) := by
  induction bytes generalizing int with
  | nil => rfl
  | cons b bytes ih =>
    rw [feed, run, hnext]
    cases int.nextByte b with
    | error e => rfl
    | ok result =>
      obtain ⟨int', value⟩ := result
      cases value with
      | none => exact ih int'
      | some i => rfl

theorem IntegerDecoder.feed_none {int : IntegerDecoder} {bytes : Bytes}
    (h : int.feed next bytes = .ok none) (i m : ℕ) : Rfc7541.integerLoop i m bytes = none := by
  induction bytes generalizing int i m with
  | nil => rfl
  | cons b bytes ih =>
    rw [feed, hnext] at h
    cases hbyte : int.nextByte b with
    | error e =>
      rw [hbyte] at h
      cases h
    | ok result =>
      obtain ⟨int', value⟩ := result
      rw [hbyte] at h
      cases value with
      | none =>
        rw [Rfc7541.integerLoop, if_neg (nextByte_none hbyte)]
        exact ih h _ _
      | some i => cases h

theorem decodeInteger_result {n : ℕ} (hn : n ≤ 8) (octets : Bytes) :
    (decodeInteger next (prefixMask n) octets).toOption.join = Rfc7541.integer n octets := by
  cases octets with
  | nil => rfl
  | cons b bytes =>
    rw [← firstByte_result n _ b (prefixMask_toNat hn) (and_prefixMask hn b), decodeInteger]
    cases firstByte b (prefixMask n) with
    | ok i => rfl
    | error int =>
      dsimp only
      rw [int.feed_eq hnext]
      rcases int.run bytes with ⟨_ | _ | _, rest⟩ <;> rfl

theorem decodeInteger_of_value {n : ℕ} (hn : n ≤ 8) {octets rest : Bytes} {i m : ℕ}
    (hval : Rfc7541.value n octets = some (i, m, rest)) :
    (decodeInteger next (prefixMask n) octets).toOption.join =
      if i < 2 ^ 64 ∧ m ≤ 70 then some (i, rest) else none := by
  rw [decodeInteger_result hnext hn, Rfc7541.integer_eq, hval]
  rfl

theorem decodeInteger_none {n : ℕ} {octets : Bytes}
    (h : decodeInteger next (prefixMask n) octets = .ok none)
    (hn : n ≤ 8) : Rfc7541.value n octets = none := by
  cases octets with
  | nil => rfl
  | cons b bytes =>
    rw [decodeInteger] at h
    rw [Rfc7541.value]
    have hand := and_prefixMask hn b
    have hmask := prefixMask_toNat hn
    have hfirst : ∀ int, firstByte b (prefixMask n) = .error int →
        ¬ b.toNat % 2 ^ n < 2 ^ n - 1 := by
      intro int hint
      rw [firstByte] at hint
      split at hint
      · cases hint
      · rename_i hlt
        rwa [UInt8.lt_iff_toNat_lt, hand, hmask] at hlt
    cases hbyte : firstByte b (prefixMask n) with
    | ok i =>
      rw [hbyte] at h
      cases h
    | error int =>
      rw [hbyte] at h
      rw [if_neg (hfirst int hbyte)]
      exact feed_none hnext h _ _

theorem decodeInteger_octets {i n : ℕ} (hi : i < usizeBound) (hn : n ≤ 8) {pre : UInt8}
    (hpre : pre &&& prefixMask n = 0) (rest : Bytes) :
    decodeInteger next (prefixMask n) ((IntegerEncoder.new i (prefixMask n) pre).octets ++ rest) =
      .ok (some (i, rest)) := by
  rcases (prefixOctet_leading hn hpre).octets_cases hi rest with
    ⟨byte, hoct, -, -, hfirst⟩ | ⟨int, tail, hoct, hfirst, hrun⟩
  · rw [hoct, decodeInteger, hfirst]
  · rw [hoct, decodeInteger, hfirst]
    dsimp only
    rw [int.feed_eq hnext, hrun]

theorem prefixIntegers : PrefixIntegers next where
  roundTrip i hi n _ hn pre hpre := by
    have hoct := decodeInteger_octets hnext hi hn hpre
    refine ⟨_, IntegerEncoder.produces_octets _, hoct, fun front hfront hne => ?_⟩
    obtain ⟨back, hback⟩ := hfront
    have hall := hoct []
    rw [append_nil, ← hback, decodeInteger_append] at hall
    cases hdec : decodeInteger next (prefixMask n) front with
    | error e =>
      rw [hdec] at hall
      cases hall
    | ok decoded =>
      cases decoded with
      | none => rfl
      | some decoded =>
        -- Decoded from the front, it would have left the back.
        rw [hdec] at hall
        simp only [Except.ok.injEq, Option.some.injEq, Prod.mk.injEq, append_eq_nil_iff] at hall
        rw [hall.2.2, append_nil] at hback
        exact absurd hback hne
  decoded n _ hn octets i m rest hval := by
    have hres := decodeInteger_of_value hnext hn hval
    cases hdec : decodeInteger next (prefixMask n) octets with
    | error e =>
      rw [hdec] at hres
      split
      · rename_i hlimits
        rw [if_pos hlimits] at hres
        cases hres
      · exact ⟨e, rfl⟩
    | ok decoded =>
      cases decoded with
      | none =>
        rw [decodeInteger_none hnext hdec hn] at hval
        cases hval
      | some decoded =>
        rw [hdec] at hres
        split
        · rename_i hlimits
          rw [if_pos hlimits] at hres
          exact congrArg Except.ok hres
        · rename_i hlimits
          rw [if_neg hlimits] at hres
          cases hres
  unfinished n _ hn octets hval := by
    have hres := decodeInteger_result hnext hn octets
    rw [Rfc7541.integer_eq, hval, Option.bind_none] at hres
    cases hdec : decodeInteger next (prefixMask n) octets with
    | ok decoded =>
      rw [hdec] at hres
      exact .inl (congrArg Except.ok hres)
    | error e =>
      refine .inr ⟨⟨e, rfl⟩, fun more i m rest hmore hlimits => ?_⟩
      have hlong := decodeInteger_of_value hnext hn hmore
      rw [decodeInteger_append, hdec, if_pos hlimits] at hlong
      cases hlong

end Decoding

/-! ## The two codecs -/

/-- Each value is read from the octets it is written as, at the last of them, and every other
sequence of octets as the reference reads it within ten octets after the prefix. -/
theorem integer_codecs :
    PrefixIntegers IntegerDecoder.nextByte ∧ PrefixIntegers Qpack.nextByte := by
  constructor
  · refine prefixIntegers (f := id) fun int b => ?_
    cases int.nextByte b <;> rfl
  · refine prefixIntegers (f := fun _ => Qpack.decompressionFailed) fun int b => ?_
    rw [Qpack.nextByte]
    cases int.nextByte b <;> rfl

/-- An integer may end in octets of zero. The eleventh is an error, though the value is 127. -/
theorem integer_codecs_zeros :
    Rfc7541.value 7 (0x7f :: (replicate 10 0x80 ++ [0])) = some (127, 77, []) ∧
      decodeInteger IntegerDecoder.nextByte 0x7f (0x7f :: (replicate 10 0x80 ++ [0])) =
        .error (.connectionError .compressionError) ∧
      decodeInteger Qpack.nextByte 0x7f (0x7f :: (replicate 10 0x80 ++ [0])) =
        .error Qpack.decompressionFailed := by
  decide +kernel

end YlongHttp
