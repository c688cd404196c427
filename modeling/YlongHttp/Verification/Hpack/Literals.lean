import YlongHttp.Verification.Hpack.Encoding
import YlongHttp.Verification.Hpack.Segmentation

/-! # Integers, strings and representations survive the round trip -/

namespace YlongHttp

open List Octets Nat
open Library (DecResult)

/-! ## Integers -/

theorem septet_low (k : ℕ) (hk : k < 128) :
    (UInt8.ofNat k &&& 0x7f).toNat = k ∧ UInt8.ofNat k &&& 0x80 = 0 := by
  have hall : ∀ k < 128, (UInt8.ofNat k &&& 0x7f).toNat = k ∧ UInt8.ofNat k &&& 0x80 = 0 := by
    decide
  exact hall k hk

theorem septet_high (k : ℕ) (hk : k < 128) :
    (UInt8.ofNat (k + 128) &&& 0x7f).toNat = k ∧ UInt8.ofNat (k + 128) &&& 0x80 ≠ 0 := by
  have hall : ∀ k < 128, (UInt8.ofNat (k + 128) &&& 0x7f).toNat = k ∧
      UInt8.ofNat (k + 128) &&& 0x80 ≠ 0 := by
    decide
  exact hall k hk

variable (int : IntegerDecoder)

theorem IntegerDecoder.nextByte_eq (byte : UInt8) (hshift : int.shift - 1 < 64)
    (hfit : 2 ^ (int.shift - 1) * (byte &&& 0x7f).toNat + int.index < usizeBound) :
    ∃ int', int'.index = 2 ^ (int.shift - 1) * (byte &&& 0x7f).toNat + int.index ∧
      int'.shift = int.shift + 7 ∧
      int.nextByte byte = .ok (int', if byte &&& 0x80 = 0 then some int'.index else none) := by
  have hpos := int.shift_pos
  refine ⟨⟨2 ^ (int.shift - 1) * (byte &&& 0x7f).toNat + int.index, int.shift + 7, by omega⟩,
    rfl, rfl, ?_⟩
  have hmul : 2 ^ (int.shift - 1) * (byte &&& 0x7f).toNat < usizeBound := by omega
  simp only [nextByte, checkedShl, hshift, if_true, Option.bind_some, checkedMul, hmul,
    checkedAdd, hfit]

theorem IntegerDecoder.run_continuation (j : ℕ) (rest : Bytes) (hshift : int.shift - 1 < 64)
    (hfit : 2 ^ (int.shift - 1) * j + int.index < usizeBound) :
    int.run (continuation j ++ rest) = (.decoded (2 ^ (int.shift - 1) * j + int.index), rest) := by
  induction j using Nat.strong_induction_on generalizing int with
  | _ j ih =>
    have hpos := int.shift_pos
    rw [continuation]
    split
    · rename_i hj
      obtain ⟨hlow, hlast⟩ := septet_low j hj
      obtain ⟨int', hidx, -, hnext⟩ := int.nextByte_eq (UInt8.ofNat j) hshift (by rwa [hlow])
      rw [hlow] at hidx
      simp [run, hnext, hlast, hidx]
    · rename_i hj
      have hmod : j % 128 < 128 := mod_lt j (by decide)
      have hsplit : 128 * (j / 128) + j % 128 = j := div_add_mod j 128
      have hdiv : 1 ≤ j / 128 := (one_le_div_iff (by decide)).mpr (by omega)
      obtain ⟨hlow, hlast⟩ := septet_high (j % 128) hmod
      have hfirst : 2 ^ (int.shift - 1) * (j % 128) ≤ 2 ^ (int.shift - 1) * j :=
        mul_le_mul_left _ (mod_le j 128)
      obtain ⟨int', hidx, hshift', hnext⟩ :=
        int.nextByte_eq (UInt8.ofNat (j % 128 + 128)) hshift (by rw [hlow]; omega)
      rw [hlow] at hidx
      have hpow : 2 ^ (int'.shift - 1) = 2 ^ (int.shift - 1) * 128 := by
        rw [hshift', show int.shift + 7 - 1 = int.shift - 1 + 7 by omega, Nat.pow_add]
      have hval : 2 ^ (int'.shift - 1) * (j / 128) + int'.index =
          2 ^ (int.shift - 1) * j + int.index := by
        rw [hpow, hidx, mul_assoc, ← add_assoc, ← mul_add, hsplit]
      have hbound : int'.shift - 1 < 64 := by
        have hle : 2 ^ (int'.shift - 1) * 1 ≤ 2 ^ (int'.shift - 1) * (j / 128) :=
          mul_le_mul_left _ hdiv
        have hlt : 2 ^ (int'.shift - 1) < 2 ^ 64 := by
          have : usizeBound = 2 ^ 64 := rfl
          omega
        exact (Nat.pow_lt_pow_iff_right (by decide)).mp hlt
      simp only [cons_append, run, hnext, hlast, if_false]
      rw [ih (j / 128) (div_lt_self (by omega) (by decide)) int' hbound (by omega), hval]

/-- The first octet of an integer: `pre` and the prefix stay apart. -/
structure PrefixOctet (mask pre : UInt8) : Prop where
  small : ∀ i < mask.toNat, (pre ||| UInt8.ofNat i) &&& mask = UInt8.ofNat i
  full : (pre ||| mask) &&& mask = mask

variable {mask pre : UInt8} {i : ℕ}

theorem PrefixOctet.firstByte_small (h : PrefixOctet mask pre) (hi : i < mask.toNat) :
    IntegerDecoder.firstByte (pre ||| UInt8.ofNat i) mask = .ok i := by
  have hmask := mask.toNat_lt
  have hnat : (UInt8.ofNat i).toNat = i := by
    rw [UInt8.toNat_ofNat']
    omega
  have hlt : UInt8.ofNat i < mask := UInt8.lt_iff_toNat_lt.mpr (by omega)
  simp [IntegerDecoder.firstByte, h.small i hi, hlt, hnat]

theorem PrefixOctet.firstByte_full (h : PrefixOctet mask pre) :
    IntegerDecoder.firstByte (pre ||| mask) mask =
      .error { index := mask.toNat, shift := 1, shift_pos := Nat.one_pos } := by
  simp [IntegerDecoder.firstByte, h.full]

theorem PrefixOctet.octets_cases (h : PrefixOctet mask pre) (hi : i < usizeBound) (rest : Bytes) :
    (∃ byte, (IntegerEncoder.new i mask pre).octets ++ rest = byte :: rest ∧
      i < mask.toNat ∧ byte = pre ||| UInt8.ofNat i ∧
      IntegerDecoder.firstByte byte mask = .ok i) ∨
    (∃ int tail, (IntegerEncoder.new i mask pre).octets ++ rest = (pre ||| mask) :: tail ∧
      IntegerDecoder.firstByte (pre ||| mask) mask = .error int ∧
      int.run tail = (.decoded i, rest)) := by
  by_cases hlt : i < mask.toNat
  · refine .inl ⟨pre ||| UInt8.ofNat i, ?_, hlt, rfl, h.firstByte_small hlt⟩
    simp [IntegerEncoder.new, IntegerEncoder.octets, hlt]
  · refine .inr ⟨_, continuation (i - mask.toNat) ++ rest, ?_, h.firstByte_full, ?_⟩
    · simp [IntegerEncoder.new, IntegerEncoder.octets, hlt]
    · have hsum : 2 ^ (1 - 1) * (i - mask.toNat) + mask.toNat = i := by omega
      have hrun := IntegerDecoder.run_continuation
        { index := mask.toNat, shift := 1, shift_pos := one_pos } (i - mask.toNat) rest
        (show 1 - 1 < 64 by decide) (by simp only [hsum]; exact hi)
      simpa only [hsum] using hrun

theorem decodeFirstByte_octets (repr : PrefixBit) (pre : UInt8)
    (h : PrefixOctet repr.prefixIndexMask pre)
    (hsmall : ∀ i < repr.prefixIndexMask.toNat, PrefixBit.fromU8 (pre ||| UInt8.ofNat i) = repr)
    (hfull : PrefixBit.fromU8 (pre ||| repr.prefixIndexMask) = repr) (hi : i < usizeBound)
    (rest : Bytes) :
    decodeFirstByte ((IntegerEncoder.new i repr.prefixIndexMask pre).octets ++ rest) =
      (.decoded (repr, i), rest) := by
  rcases h.octets_cases hi rest with ⟨byte, hoct, hlt, rfl, hfirst⟩ | ⟨int, tail, hoct, hfirst, hrun⟩
  · rw [hoct]
    simp [decodeFirstByte, hsmall i hlt, hfirst]
  · rw [hoct]
    simp [decodeFirstByte, hfull, hfirst, decodeTrailingBytes_eq, Library.andThen, hrun]

theorem decodeFirstByte_indexed (hi : i < usizeBound) (rest : Bytes) :
    decodeFirstByte ((IntegerEncoder.new i 0x7f 0x80).octets ++ rest) =
      (.decoded (.indexed, i), rest) :=
  decodeFirstByte_octets .indexed 0x80 ⟨by decide, by decide⟩ (by decide)
    (by decide) hi rest

theorem decodeFirstByte_indexing (hi : i < usizeBound) (rest : Bytes) :
    decodeFirstByte ((IntegerEncoder.new i 0x3f 0x40).octets ++ rest) =
      (.decoded (.literalWithIndexing, i), rest) :=
  decodeFirstByte_octets .literalWithIndexing 0x40 ⟨by decide, by decide⟩
    (by decide) (by decide) hi rest

/-! ## Strings -/

variable (isHuffman : Bool)

theorem decodeStringBytes_octets (value rest : Bytes) :
    decodeStringBytes isHuffman (new value isHuffman).src.length
      ((new value isHuffman).src ++ rest) = (.decoded value, rest) := by
  cases isHuffman with
  | false => simp [decodeStringBytes, decodeAsciiStringBytes, new]
  | true =>
    have hround := huffmanDecode_huffmanEncode value
    obtain ⟨d, hdec, hfin⟩ := Option.bind_eq_some_iff.mp hround
    simp [decodeStringBytes, decodeHuffmanStringBytes, new, hdec, hfin]

theorem decodeLengthFirstByte_octets (length : ℕ) (hlen : length < usizeBound) (rest : Bytes) :
    decodeLengthFirstByte ((lengthInteger length isHuffman).octets ++ rest) =
      decodeStringBytes isHuffman length rest := by
  have hpre : PrefixOctet 0x7f (preMask isHuffman) := by
    cases isHuffman with
    | false | true => exact ⟨by decide, by decide⟩
  have hsmall : ∀ i < (0x7f : UInt8).toNat,
      decide ((preMask isHuffman ||| UInt8.ofNat i) &&& 0x80 = 0x80) = isHuffman := by
    cases isHuffman with
    | false => decide
    | true => decide
  have hfull : decide ((preMask isHuffman ||| 0x7f) &&& 0x80 = 0x80) = isHuffman := by
    cases isHuffman with
    | false => decide
    | true => decide
  rcases hpre.octets_cases hlen rest with
    ⟨byte, hoct, hlt, rfl, hfirst⟩ | ⟨int, tail, hoct, hfirst, hrun⟩
  · rw [lengthInteger, hoct]
    simp only [decodeLengthFirstByte, hfirst, hsmall length hlt]
  · rw [lengthInteger, hoct]
    simp only [decodeLengthFirstByte, hfirst, hfull, decodeLengthTrailingBytes_eq,
      Library.andThen, hrun]

theorem decodeLengthFirstByte_string (value rest : Bytes)
    (hlen : (new value isHuffman).src.length < usizeBound) :
    decodeLengthFirstByte ((lengthInteger (new value isHuffman).src.length
      isHuffman).octets ++ ((new value isHuffman).src ++ rest)) =
      (.decoded value, rest) := by
  rw [decodeLengthFirstByte_octets isHuffman _ hlen, decodeStringBytes_octets]

theorem octets_length_lt (value : Bytes) (h : value.length < 2 ^ 62) :
    (new value isHuffman).src.length < usizeBound := by
  have hbound : usizeBound = 4 * 2 ^ 62 := by decide
  cases isHuffman with
  | false =>
    simp only [new]
    simp
    omega
  | true =>
    have := huffmanEncode_length_le value
    simp only [new, if_true]
    omega

/-! ## Representations -/

theorem decode_indexed (hpos : 0 < i) (hi : i < usizeBound) (rest : Bytes) :
    (ReprDecodeState.index .firstByte).decode
      ((ReprEncodeState.indexed (.new i 0x7f 0x80)).octets ++ rest) =
      (.decoded (.indexed i), rest) := by
  obtain ⟨k, rfl⟩ : ∃ k, i = k + 1 := ⟨i - 1, by omega⟩
  simp [ReprDecodeState.decode, decodeIndex, IndexInner.decode, ReprEncodeState.octets,
    decodeFirstByte_indexed hi, decodeAfterIndex]

theorem decode_indexing (hpos : 0 < i) (hi : i < usizeBound) (isHuffman : Bool) (value rest : Bytes)
    (hvalue : value.length < 2 ^ 62) :
    (ReprDecodeState.index .firstByte).decode
      ((ReprEncodeState.indexing (.new i 0x3f 0x40 value isHuffman)).octets ++ rest) =
      (.decoded (.literalWithIndexing (.index i) value), rest) := by
  obtain ⟨k, rfl⟩ : ∃ k, i = k + 1 := ⟨i - 1, by omega⟩
  have hstring := decodeLengthFirstByte_string isHuffman value rest
    (octets_length_lt isHuffman value hvalue)
  simp only [ReprDecodeState.decode, decodeIndex, IndexInner.decode, ReprEncodeState.octets,
    IndexAndValue.octets, IndexAndValue.new, Option.elim_some, append_assoc,
    decodeFirstByte_indexing hi, decodeAfterIndex, decodeValueString, LiteralString.decode, octets]
  rw [show (new value isHuffman).idx = 0 from rfl, drop_zero, hstring]
  rfl

theorem decode_indexingWithName (name value rest : Bytes) (hname : name.length < 2 ^ 62)
    (hvalue : value.length < 2 ^ 62) :
    (ReprDecodeState.index .firstByte).decode
      ((ReprEncodeState.indexingWithName (.new 0x3f 0x40 name value isHuffman)).octets ++ rest) =
      (.decoded (.literalWithIndexing (.literal name) value), rest) := by
  have hvalueString := decodeLengthFirstByte_string isHuffman value rest
    (octets_length_lt isHuffman value hvalue)
  have hnameString := fun rest => decodeLengthFirstByte_string isHuffman name rest
    (octets_length_lt isHuffman name hname)
  simp only [ReprDecodeState.decode, decodeIndex, IndexInner.decode, ReprEncodeState.octets,
    NameAndValue.octets, NameAndValue.new, Option.elim_some, append_assoc,
    decodeFirstByte_indexing (show 0 < usizeBound by decide), decodeAfterIndex,
    decodeNameString, decodeValueString, LiteralString.decode, octets]
  rw [show (new value isHuffman).idx = 0 from rfl,
    show (new name isHuffman).idx = 0 from rfl, drop_zero, drop_zero, hnameString]
  simp only [hvalueString]
  rfl

end YlongHttp
