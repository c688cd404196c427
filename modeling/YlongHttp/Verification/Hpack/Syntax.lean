import YlongHttp.Verification.Hpack.Literals
import YlongHttp.Verification.Hpack.Rfc7541

/-! # The decoder reads the representations of RFC 7541

On every buffer that starts with a complete representation the decoder reads what the
reference reads, and on no other does it read one. -/

namespace YlongHttp

open Option
open Library (DecResult)

/-! ## Integers -/

theorem Rfc7541.integerLoop_le {i m i' m' : ℕ} {bytes rest : Bytes}
    (h : Rfc7541.integerLoop i m bytes = some (i', m', rest)) : i ≤ i' ∧ m + 7 ≤ m' := by
  induction bytes generalizing i m with
  | nil => cases h
  | cons b bytes ih =>
    rw [Rfc7541.integerLoop] at h
    split at h
    · simp only [some.injEq, Prod.mk.injEq] at h
      omega
    · have := ih h
      omega

variable (b : UInt8)

theorem and_low : (b &&& 0x7f).toNat = b.toNat % 128 := by
  rw [UInt8.toNat_and]
  exact Nat.and_two_pow_sub_one_eq_mod b.toNat 7

theorem and_high : b &&& 0x80 = 0 ↔ b.toNat < 128 := by
  have hall : ∀ k < 256, (UInt8.ofNat k &&& 0x80 = 0 ↔ (UInt8.ofNat k).toNat < 128) := by
    decide +kernel
  have hb := hall b.toNat b.toNat_lt
  rwa [UInt8.ofNat_toNat] at hb

variable (int : IntegerDecoder)

theorem IntegerDecoder.nextByte_error (byte : UInt8)
    (h : ¬ (int.shift - 1 < 64 ∧ 2 ^ (int.shift - 1) * (byte &&& 0x7f).toNat + int.index < usizeBound)) :
    ∃ e, int.nextByte byte = .error e := by
  refine ⟨.connectionError .compressionError, ?_⟩
  have hnone : (checkedShl (int.shift - 1)).bind (fun weight =>
      (checkedMul weight (byte &&& 0x7f).toNat).bind fun part =>
        checkedAdd part int.index) = none := by
    simp only [checkedShl, checkedMul, checkedAdd]
    split
    · rename_i hshift
      rw [bind_some]
      split
      · rw [bind_some, if_neg fun hfit => h ⟨hshift, hfit⟩]
      · rfl
    · rfl
  rw [nextByte, hnone]

theorem IntegerDecoder.run_result (k : ℕ) (bytes : Bytes) (hshift : int.shift - 1 = 7 * k)
    (hk : k ≤ 10) :
    DecResult.result (int.run bytes) =
      (Rfc7541.integerLoop int.index (7 * k) bytes).bind fun (i, m, rest) =>
        if i < 2 ^ 64 ∧ m ≤ 70 then some (i, rest) else none := by
  induction bytes generalizing int k with
  | nil => rfl
  | cons b bytes ih =>
    have hlow := and_low b
    have hhigh := and_high b
    have hb := b.toNat_lt
    have hpos := int.shift_pos
    have hbound : usizeBound = 2 ^ 64 := rfl
    by_cases hfit : int.shift - 1 < 64 ∧
        2 ^ (int.shift - 1) * (b &&& 0x7f).toNat + int.index < usizeBound
    · obtain ⟨int', hidx, hshift', hnext⟩ := int.nextByte_eq b hfit.1 hfit.2
      have hsmall := hfit.2
      rw [hlow, hshift, hbound] at hsmall
      rw [hlow, hshift] at hidx
      have hk' : k + 1 ≤ 10 := by omega
      by_cases hlast : b.toNat < 128
      · have hmod : b.toNat % 128 = b.toNat := Nat.mod_eq_of_lt hlast
        have hsum : int.index + b.toNat * 2 ^ (7 * k) = int'.index := by
          rw [hidx, hmod, Nat.mul_comm, Nat.add_comm]
        rw [hmod] at hsmall
        have hlimits : int'.index < 2 ^ 64 ∧ 7 * k + 7 ≤ 70 := by
          rw [hidx, hmod]
          exact ⟨hsmall, by omega⟩
        simp only [run, hnext, hhigh.mpr hlast, if_true, DecResult.result,
          Rfc7541.integerLoop, hlast, hsum, bind_some, hlimits, and_self]
      · have hmod : b.toNat % 128 = b.toNat - 128 := by omega
        have hsum : int.index + (b.toNat - 128) * 2 ^ (7 * k) = int'.index := by
          rw [hidx, hmod, Nat.mul_comm, Nat.add_comm]
        have hne : ¬ b &&& 0x80 = 0 := fun h => hlast (hhigh.mp h)
        have hrec := ih int' (k + 1) (by omega) hk'
        simp only [run, hnext, hne, if_false, hrec, Rfc7541.integerLoop, hlast, hsum]
        rfl
    · obtain ⟨e, he⟩ := int.nextByte_error b hfit
      simp only [run, he, DecResult.result]
      rw [hlow, hshift, hbound] at hfit
      -- The value or the number of octets only grows: the reference refuses it in the end.
      symm
      rw [bind_eq_none_iff]
      rintro ⟨i, m, rest⟩ hloop
      rw [if_neg]
      rintro ⟨hi, hm⟩
      change i < 2 ^ 64 at hi
      change m ≤ 70 at hm
      apply hfit
      rw [Rfc7541.integerLoop] at hloop
      split at hloop
      · rename_i hlast
        simp only [some.injEq, Prod.mk.injEq] at hloop
        rw [Nat.mod_eq_of_lt hlast, Nat.mul_comm (2 ^ (7 * k))]
        omega
      · have := Rfc7541.integerLoop_le hloop
        rw [show b.toNat % 128 = b.toNat - 128 by omega, Nat.mul_comm (2 ^ (7 * k))]
        omega

theorem firstByte_result (n : ℕ) (mask b : UInt8) (hmask : mask.toNat = 2 ^ n - 1)
    (hand : (b &&& mask).toNat = b.toNat % 2 ^ n) (rest : Bytes) :
    (match IntegerDecoder.firstByte b mask with
      | .ok i => some (i, rest)
      | .error int => DecResult.result (int.run rest)) = Rfc7541.integer n (b :: rest) := by
  have hmod : b.toNat % 2 ^ n < 2 ^ n := Nat.mod_lt _ (by positivity)
  by_cases hlt : b.toNat % 2 ^ n < 2 ^ n - 1
  · have hlt' : b &&& mask < mask := UInt8.lt_iff_toNat_lt.mpr (by omega)
    simp [IntegerDecoder.firstByte, Rfc7541.integer, hlt, hlt', hand]
  · have hlt' : ¬ b &&& mask < mask := by
      rw [UInt8.lt_iff_toNat_lt]
      omega
    have heq : (b &&& mask).toNat = 2 ^ n - 1 := by omega
    simp only [IntegerDecoder.firstByte, hlt', if_false, Rfc7541.integer, hlt]
    rw [IntegerDecoder.run_result _ 0 rest rfl (by omega)]
    simp only [heq]

theorem and_mask :
    (b &&& 0x7f).toNat = b.toNat % 2 ^ 7 ∧ (b &&& 0x3f).toNat = b.toNat % 2 ^ 6 ∧
      (b &&& 0x1f).toNat = b.toNat % 2 ^ 5 ∧ (b &&& 0x0f).toNat = b.toNat % 2 ^ 4 := by
  simp only [UInt8.toNat_and]
  exact ⟨Nat.and_two_pow_sub_one_eq_mod b.toNat 7, Nat.and_two_pow_sub_one_eq_mod b.toNat 6,
    Nat.and_two_pow_sub_one_eq_mod b.toNat 5, Nat.and_two_pow_sub_one_eq_mod b.toNat 4⟩

/-- The number of bits that the integer has in the first octet. -/
def PrefixBit.bits : PrefixBit → ℕ
  | .indexed => 7
  | .literalWithIndexing => 6
  | .sizeUpdate => 5
  | .literalNeverIndexed => 4
  | .literalWithoutIndexing => 4

theorem decodeFirstByte_result (rest : Bytes) :
    DecResult.result (decodeFirstByte (b :: rest)) =
      (Rfc7541.integer (PrefixBit.fromU8 b).bits (b :: rest)).map fun (i, rest) =>
        ((PrefixBit.fromU8 b, i), rest) := by
  obtain ⟨h7, h6, h5, h4⟩ := and_mask b
  have hfirst := firstByte_result (PrefixBit.fromU8 b).bits (PrefixBit.fromU8 b).prefixIndexMask b
    (by cases PrefixBit.fromU8 b <;> decide)
    (by cases PrefixBit.fromU8 b <;> assumption) rest
  rw [← hfirst]
  simp only [decodeFirstByte]
  cases IntegerDecoder.firstByte b (PrefixBit.fromU8 b).prefixIndexMask with
  | ok i => rfl
  | error int =>
    simp only [decodeTrailingBytes_eq, Library.result_andThen]
    cases DecResult.result (int.run rest) <;> rfl

/-! ## Strings -/

theorem huffman_eq (octets : Bytes) :
    (HuffmanDecoder.new.decode octets).bind HuffmanDecoder.finish = Rfc7541.huffman octets := by
  have hiff := huffmanDecode_iff octets
  simp only [Rfc7541.huffman]
  split
  · rename_i h
    exact (hiff h.choose).mpr h.choose_spec
  · rename_i h
    rw [eq_none_iff_forall_ne_some]
    intro s hs
    exact h ⟨s, (hiff s).mp hs⟩

theorem decodeStringBytes_result (isHuffman : Bool) (length : ℕ) (rest : Bytes) :
    DecResult.result (decodeStringBytes isHuffman length rest) = if rest.length < length then none
      else
        (if isHuffman then Rfc7541.huffman (rest.take length) else some (rest.take length)).map
          fun s => (s, rest.drop length) := by
  cases isHuffman with
  | false =>
    by_cases hlen : length ≤ rest.length
    · simp [decodeStringBytes, decodeAsciiStringBytes, hlen, DecResult.result]
    · simp [decodeStringBytes, decodeAsciiStringBytes, hlen, DecResult.result, not_le.mp hlen]
  | true =>
    rw [← huffman_eq]
    by_cases hlen : length ≤ rest.length
    · simp only [decodeStringBytes, if_true, decodeHuffmanStringBytes, Nat.add_zero, hlen,
        dif_pos, Nat.sub_zero, not_lt.mpr hlen, if_false]
      cases HuffmanDecoder.new.decode (rest.take length) with
      | none => rfl
      | some d =>
        simp only [bind_some]
        cases d.finish <;> rfl
    · simp only [decodeStringBytes, if_true, decodeHuffmanStringBytes, Nat.add_zero, hlen,
        dif_neg, not_false_eq_true, not_le.mp hlen]
      cases HuffmanDecoder.new.decode rest <;> rfl

variable (bytes : Bytes)

theorem decodeLengthFirstByte_result :
    DecResult.result (decodeLengthFirstByte bytes) = Rfc7541.string bytes := by
  cases bytes with
  | nil => rfl
  | cons b rest =>
    have hfirst := firstByte_result 7 0x7f b (by decide) (and_mask b).1 rest
    have hhuff : decide (b &&& 0x80 = 0x80) = decide (b.toNat ≥ 128) := by
      have hall : ∀ k < 256, decide (UInt8.ofNat k &&& 0x80 = 0x80) =
          decide ((UInt8.ofNat k).toNat ≥ 128) := by
        decide +kernel
      have hb := hall b.toNat b.toNat_lt
      rwa [UInt8.ofNat_toNat] at hb
    simp only [Rfc7541.string]
    rw [← hfirst]
    simp only [decodeLengthFirstByte, hhuff]
    cases IntegerDecoder.firstByte b 0x7f with
    | ok length => simp only [bind_some, decodeStringBytes_result, decide_eq_true_eq]
    | error int =>
      simp only [decodeLengthTrailingBytes_eq, Library.result_andThen,
        decodeStringBytes_result, decide_eq_true_eq]

/-! ## Representations -/

variable (repr : PrefixBit)

theorem decodeValueString_result (name : Name) (bytes : Bytes) :
    DecResult.result (decodeValueString repr name .lengthFirstByte bytes) =
      (Rfc7541.string bytes).map fun (v, rest) => (literalOf repr name v, rest) := by
  rw [decodeValueString_eq, Library.result_andThen]
  change (DecResult.result (decodeLengthFirstByte bytes)).bind _ = _
  rw [decodeLengthFirstByte_result]
  cases Rfc7541.string bytes <;> rfl

theorem decodeLiteral_result (i : ℕ) (bytes : Bytes) (hindexed : repr ≠ .indexed)
    (hupd : repr ≠ .sizeUpdate) :
    DecResult.result (decodeAfterIndex repr i bytes) =
      (Rfc7541.name i bytes).bind fun (nm, rest) =>
        (Rfc7541.string rest).map fun (v, rest) => (literalOf repr nm v, rest) := by
  rcases Nat.eq_zero_or_pos i with rfl | hpos
  · have hname : decodeAfterIndex repr 0 bytes = decodeNameString repr .lengthFirstByte bytes := by
      cases repr <;> first | rfl | contradiction
    rw [hname, decodeNameString_eq, Library.result_andThen]
    change (DecResult.result (decodeLengthFirstByte bytes)).bind _ = _
    simp only [decodeLengthFirstByte_result, decodeValueString_result, Rfc7541.name, if_true]
    cases Rfc7541.string bytes <;> rfl
  · obtain ⟨k, rfl⟩ : ∃ k, i = k + 1 := ⟨i - 1, by omega⟩
    have hval : decodeAfterIndex repr (k + 1) bytes =
        decodeValueString repr (.index (k + 1)) .lengthFirstByte bytes := by
      cases repr <;> first | rfl | contradiction
    rw [hval, decodeValueString_result]
    simp [Rfc7541.name]

theorem PrefixBit.fromU8_cases :
    (b.toNat ≥ 128 ∧ fromU8 b = .indexed) ∨
      (¬ b.toNat ≥ 128 ∧ b.toNat ≥ 64 ∧ fromU8 b = .literalWithIndexing) ∨
      (¬ b.toNat ≥ 128 ∧ ¬ b.toNat ≥ 64 ∧ b.toNat ≥ 32 ∧ fromU8 b = .sizeUpdate) ∨
      (¬ b.toNat ≥ 128 ∧ ¬ b.toNat ≥ 64 ∧ ¬ b.toNat ≥ 32 ∧ b.toNat ≥ 16 ∧
        fromU8 b = .literalNeverIndexed) ∨
      (¬ b.toNat ≥ 128 ∧ ¬ b.toNat ≥ 64 ∧ ¬ b.toNat ≥ 32 ∧ ¬ b.toNat ≥ 16 ∧
        fromU8 b = .literalWithoutIndexing) := by
  have hge : ∀ k : UInt8, b ≥ k ↔ b.toNat ≥ k.toNat := fun k => UInt8.le_iff_toNat_le
  simp only [fromU8, hge, UInt8.reduceToNat]
  split_ifs <;> simp [*]

theorem decode_representation :
    DecResult.result ((ReprDecodeState.index .firstByte).decode bytes) =
      Rfc7541.representation bytes := by
  change DecResult.result (decodeIndex .firstByte bytes) = _
  rw [decodeIndex_eq, Library.result_andThen]
  cases bytes with
  | nil => rfl
  | cons b rest =>
    change (DecResult.result (decodeFirstByte (b :: rest))).bind _ = _
    rw [decodeFirstByte_result]
    have hliteral : ∀ (repr : PrefixBit) (n : ℕ), repr ≠ .indexed → repr ≠ .sizeUpdate →
        (((Rfc7541.integer n (b :: rest)).map fun (i, rest) => ((repr, i), rest)).bind
          fun d => DecResult.result (decodeAfterIndex d.1.1 d.1.2 d.2)) =
          Rfc7541.literal n (literalOf repr) (b :: rest) := by
      intro repr n hindexed hupd
      simp only [Rfc7541.literal]
      cases Rfc7541.integer n (b :: rest) with
      | none => rfl
      | some found => exact decodeLiteral_result repr found.1 found.2 hindexed hupd
    rcases PrefixBit.fromU8_cases b with ⟨h, hrepr⟩ | ⟨h1, h, hrepr⟩ | ⟨h1, h2, h, hrepr⟩ |
      ⟨h1, h2, h3, h, hrepr⟩ | ⟨h1, h2, h3, h4, hrepr⟩
    · rw [hrepr, Rfc7541.representation, if_pos h, PrefixBit.bits]
      cases Rfc7541.integer 7 (b :: rest) with
      | none => rfl
      | some found =>
        obtain ⟨i, tail⟩ := found
        cases i with
        | zero => rfl
        | succ i => simp [decodeAfterIndex, DecResult.result]
    · rw [hrepr, Rfc7541.representation, if_neg h1, if_pos h]
      exact hliteral .literalWithIndexing 6 (by decide) (by decide)
    · rw [hrepr, Rfc7541.representation, if_neg h1, if_neg h2, if_pos h, PrefixBit.bits]
      cases Rfc7541.integer 5 (b :: rest) with
      | none => rfl
      | some found =>
        obtain ⟨i, tail⟩ := found
        simp [decodeAfterIndex, DecResult.result]
    · rw [hrepr, Rfc7541.representation, if_neg h1, if_neg h2, if_neg h3, if_pos h]
      exact hliteral .literalNeverIndexed 4 (by decide) (by decide)
    · rw [hrepr, Rfc7541.representation, if_neg h1, if_neg h2, if_neg h3, if_neg h4]
      exact hliteral .literalWithoutIndexing 4 (by decide) (by decide)

end YlongHttp
