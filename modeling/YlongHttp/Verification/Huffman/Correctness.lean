import YlongHttp.Verification.Huffman.Code

/-! # Correctness of the Huffman coder

`huffmanEncode` spells the codes of its octets and fills the last octet up with ones.
The decoding automaton accepts an octet string exactly when it is such a spelling, with
at most seven ones at the end, and then returns the octets spelled. -/

namespace YlongHttp

open List Option Nat HuffmanDecoder HuffmanEncoder
open Library

variable {nibble state u : ℕ} {d d' : HuffmanDecoder} {byte : UInt8} {src : Bytes}
  {acc : HuffmanEncoder} {bits : List Bool}

def octetBits (src : Bytes) : List Bool := src.flatMap fun byte => bitsOf 8 byte.toNat

def codeBits (src : Bytes) : List Bool := src.flatMap fun byte => huffmanCode byte.toNat

@[simp] theorem octetBits_nil : octetBits [] = [] := rfl

@[simp] theorem octetBits_cons (byte : UInt8) (src : Bytes) :
    octetBits (byte :: src) = bitsOf 8 byte.toNat ++ octetBits src := rfl

@[simp] theorem octetBits_append (a b : Bytes) :
    octetBits (a ++ b) = octetBits a ++ octetBits b := by
  simp [octetBits]

@[simp] theorem codeBits_nil : codeBits [] = [] := rfl

@[simp] theorem codeBits_append (a b : Bytes) : codeBits (a ++ b) = codeBits a ++ codeBits b := by
  simp [codeBits]

/-! ## The octets as symbols -/

def octetSymbol (byte : UInt8) : Fin 257 := ⟨byte.toNat, by have := byte.toNat_lt; omega⟩

theorem octetSymbol_injective : Function.Injective octetSymbol := by
  intro a b h
  have hval : (octetSymbol a).val = (octetSymbol b).val := by rw [h]
  exact UInt8.toNat_inj.mp hval

theorem codeBits_eq_symbols (src : Bytes) :
    codeBits src = (src.map octetSymbol).flatMap symbolCode := by
  simp [codeBits, flatMap_map, octetSymbol, symbolCode]

/-! ## The decoding automaton -/

/-- The state of the decoder is one of the table, and its acceptance test says whether
the path read since the last code may be padding. -/
structure HuffmanDecoder.WellFormed (d : HuffmanDecoder) : Prop where
  state_lt : d.state < 256
  accept_iff : ¬ (d.state ≠ 0 ∧ d.flags &&& 1 = 0) ↔
    ∃ k ≤ 7, statePath d.state = List.replicate k true

theorem HuffmanDecoder.new_wellFormed : new.WellFormed where
  state_lt := by decide
  accept_iff := by
    refine ⟨fun _ => ⟨0, by omega, rfl⟩, fun _ => ?_⟩
    simp [new]

theorem rowMatches_entry (path : ℕ × ℕ × ℕ) (row : List (ℕ × ℕ × ℕ)) (first : ℕ)
    (h : rowMatches path first row = true) (i : ℕ) (hi : first + i < 16) :
    entryMatches path (first + i) (row.getD i (0, 0, 0)) = true := by
  induction row generalizing first i with
  | nil =>
    simp only [rowMatches, beq_eq] at h
    omega
  | cons entry row ih =>
    simp only [rowMatches, Bool.and_eq_true] at h
    cases i with
    | zero => exact h.1
    | succ i =>
      have hnext := ih (first + 1) h.2 i (by omega)
      rw [add_assoc, add_comm 1 i] at hnext
      simpa using hnext

theorem rowsMatch_row (paths : List (ℕ × ℕ × ℕ)) (rows : List (List (ℕ × ℕ × ℕ)))
    (h : rowsMatch paths rows = true) (i : ℕ) (hi : i < paths.length) :
    rowMatches (paths.getD i (0, 0, 0)) 0 (rows.getD i []) = true := by
  induction paths generalizing rows i with
  | nil => simp at hi
  | cons path paths ih =>
    cases rows with
    | nil => simp [rowsMatch] at h
    | cons row rows =>
      simp only [rowsMatch, Bool.and_eq_true] at h
      cases i with
      | zero => exact h.1
      | succ i => simpa using ih rows h.2 i (by simpa using hi)

theorem huffmanDecodeTable_entry (hs : state < 256) (hn : nibble < 16) :
    entryMatches (huffmanPaths.getD state (0, 0, 0)) nibble
      ((huffmanDecodeTable.getD state []).getD nibble (0, 0, 0)) = true := by
  have hrow := rowsMatch_row _ _ huffmanDecodeTable_matches state
    (by rw [huffmanPaths_length]; exact hs)
  have hent := rowMatches_entry _ _ 0 hrow nibble (by omega)
  rwa [zero_add] at hent

theorem statePath_append_nibble (state : ℕ) (hn : nibble < 16) :
    statePath state ++ bitsOf 4 nibble =
      bitsOf ((huffmanPaths.getD state (0, 0, 0)).1 + 4)
        ((huffmanPaths.getD state (0, 0, 0)).2.1 * 16 + nibble) :=
  (bitsOf_add _ 4 _ nibble (by omega)).symm

theorem huffmanPaths_fits (h : state < 256) :
    (huffmanPaths.getD state (0, 0, 0)).2.1 < 2 ^ (huffmanPaths.getD state (0, 0, 0)).1 := by
  have hlen : state < huffmanPaths.length := by
    rw [huffmanPaths_length]
    exact h
  have hcheck := all_eq_true.mp huffmanPaths_inside _ (getElem_mem hlen)
  rw [← getD_eq_getElem _ (0, 0, 0) hlen] at hcheck
  simp only [pathInside, Bool.and_eq_true, blt_eq] at hcheck
  exact hcheck.1.1.2

theorem natBeq_eq_false {a b : ℕ} : Nat.beq a b = false ↔ a ≠ b := by
  rw [← Bool.not_eq_true, beq_eq]

theorem acceptance (state flags : ℕ)
    (hst : state < 256)
    (h : ((Nat.beq (flags &&& 1) 0 == (Nat.blt 7 (huffmanPaths.getD state (0, 0, 0)).1 ||
      !Nat.beq ((huffmanPaths.getD state (0, 0, 0)).2.1 + 1)
        (2 ^ (huffmanPaths.getD state (0, 0, 0)).1))) || Nat.beq state 0) = true) :
    ¬ (state ≠ 0 ∧ flags &&& 1 = 0) ↔ ∃ k ≤ 7, statePath state = List.replicate k true := by
  by_cases hzero : state = 0
  · subst hzero
    exact ⟨fun _ => ⟨0, by omega, rfl⟩, fun _ => by simp⟩
  · have hfits := huffmanPaths_fits hst
    revert h hfits
    rw [statePath]
    generalize huffmanPaths.getD state (0, 0, 0) = path
    intro h hfits
    have hones : (∃ k ≤ 7, bitsOf path.1 path.2.1 = replicate k true) ↔
        path.1 ≤ 7 ∧ path.2.1 + 1 = 2 ^ path.1 := by
      constructor
      · rintro ⟨k, hk, heq⟩
        have hlen : path.1 = k := by simpa using congrArg length heq
        subst hlen
        have hval := bitsOf_injective hfits
          (Nat.sub_lt (Nat.two_pow_pos _) Nat.one_pos) (heq.trans (bitsOf_ones _).symm)
        have hpos := Nat.two_pow_pos path.1
        exact ⟨hk, by omega⟩
      · rintro ⟨hk, hval⟩
        refine ⟨path.1, hk, ?_⟩
        rw [show path.2.1 = 2 ^ path.1 - 1 by omega, bitsOf_ones]
    rw [hones]
    simp only [Bool.or_eq_true, beq_eq, hzero, or_false, beq_iff_eq] at h
    have hiff : flags &&& 1 = 0 ↔ 7 < path.1 ∨ path.2.1 + 1 ≠ 2 ^ path.1 := by
      have h' := Bool.eq_iff_iff.mp h
      simpa only [Bool.or_eq_true, beq_eq, blt_eq, Bool.not_eq_true', natBeq_eq_false]
        using h'
    rw [hiff]
    constructor
    · intro hn
      by_contra hc
      refine hn ⟨hzero, ?_⟩
      by_contra hc'
      rw [not_or, not_not, not_lt] at hc'
      exact hc hc'
    · rintro ⟨hk, hval⟩ ⟨-, hlt | hne⟩
      · omega
      · exact hne hval

theorem HuffmanDecoder.step_none (hd : d.WellFormed) (hn : nibble < 16) (h : d.step nibble = none) :
    ∃ rest, statePath d.state ++ bitsOf 4 nibble = huffmanCode 256 ++ rest := by
  have hent := huffmanDecodeTable_entry hd.state_lt hn
  revert hent h
  rw [statePath_append_nibble d.state hn]
  simp only [step]
  generalize (huffmanDecodeTable.getD d.state []).getD nibble (0, 0, 0) = entry
  generalize huffmanPaths.getD d.state (0, 0, 0) = path
  obtain ⟨state, result, flags⟩ := entry
  intro h hent
  by_cases herr : flags &&& 4 = 4
  · simp only [entryMatches, herr, beq_refl, cond_true, Bool.and_eq_true, ble_eq, beq_eq] at hent
    obtain ⟨hlen, hbits⟩ := hent
    refine ⟨bitsOf (path.1 + 4 - 30) (path.2.1 * 16 + nibble), ?_⟩
    have hsplit := bitsOf_split 30 (path.1 + 4 - 30) (path.2.1 * 16 + nibble)
    rw [show 30 + (path.1 + 4 - 30) = path.1 + 4 by omega, hbits, bitsOf_ones] at hsplit
    rw [hsplit, huffmanCode_eos]
  · simp [herr] at h

theorem HuffmanDecoder.step_some (hd : d.WellFormed) (hn : nibble < 16)
    (h : d.step nibble = some d') :
    d'.WellFormed ∧ ∃ out, d'.vec = d.vec ++ out ∧
      statePath d.state ++ bitsOf 4 nibble = codeBits out ++ statePath d'.state := by
  have hent := huffmanDecodeTable_entry hd.state_lt hn
  revert hent h
  rw [statePath_append_nibble d.state hn]
  simp only [step]
  generalize (huffmanDecodeTable.getD d.state []).getD nibble (0, 0, 0) = entry
  generalize huffmanPaths.getD d.state (0, 0, 0) = path
  obtain ⟨state, result, flags⟩ := entry
  intro h hent
  by_cases herr : flags &&& 4 = 4
  · simp [herr] at h
  · simp only [herr, if_false, some.injEq] at h
    subst h
    have hbeq : beq (flags &&& 4) 4 = false := natBeq_eq_false.mpr herr
    simp only [entryMatches, hbeq, cond_false, Bool.and_eq_true, blt_eq] at hent
    obtain ⟨⟨hst, hflag⟩, hmatch⟩ := hent
    refine ⟨⟨hst, ?_⟩, ?_⟩
    · exact acceptance state flags hst hflag
    · by_cases hdec : flags &&& 2 = 2
      · simp only [hdec, beq_refl, cond_true, Bool.and_eq_true, blt_eq, beq_eq] at hmatch
        obtain ⟨⟨hres, hlen⟩, hbits⟩ := hmatch
        refine ⟨[UInt8.ofNat result], by simp [hdec], ?_⟩
        have hnat : (UInt8.ofNat result).toNat = result := by simp [mod_eq_of_lt hres]
        simp only [codeBits, flatMap_cons, flatMap_nil, append_nil, hnat]
        rw [← hlen, hbits, huffmanCode, statePath]
        exact bitsOf_add _ _ _ _ (huffmanPaths_fits hst)
      · have hbeq' : beq (flags &&& 2) 2 = false := natBeq_eq_false.mpr hdec
        simp only [hbeq', cond_false, Bool.and_eq_true, beq_eq] at hmatch
        refine ⟨[], by simp [hdec], ?_⟩
        rw [codeBits_nil, nil_append, statePath, hmatch.1, hmatch.2]

theorem octet_nibbles (byte : UInt8) :
    bitsOf 8 byte.toNat = bitsOf 4 (byte.toNat >>> 4) ++ bitsOf 4 (byte.toNat &&& 0xf) := by
  rw [shiftRight_eq_div_pow, show (0xf : ℕ) = 2 ^ 4 - 1 by rfl,
    and_two_pow_sub_one_eq_mod, bitsOf_mod]
  exact bitsOf_split 4 4 byte.toNat

theorem octet_left_lt (byte : UInt8) : byte.toNat >>> 4 < 16 := by
  have := byte.toNat_lt
  rw [shiftRight_eq_div_pow]
  omega

theorem octet_right_lt (byte : UInt8) : byte.toNat &&& 0xf < 16 :=
  lt_of_le_of_lt and_le_right (by omega)

theorem HuffmanDecoder.octet_some (hd : d.WellFormed) (h : d.octet byte = some d') :
    d'.WellFormed ∧ ∃ out, d'.vec = d.vec ++ out ∧
      statePath d.state ++ bitsOf 8 byte.toNat = codeBits out ++ statePath d'.state := by
  obtain ⟨mid, hleft, hright⟩ := bind_eq_some_iff.mp h
  obtain ⟨hmid, out, hvec, hbits⟩ := step_some hd (octet_left_lt byte) hleft
  obtain ⟨hd', out', hvec', hbits'⟩ := step_some hmid (octet_right_lt byte) hright
  refine ⟨hd', out ++ out', by rw [hvec', hvec, append_assoc], ?_⟩
  rw [octet_nibbles, ← append_assoc, hbits, append_assoc, hbits', codeBits_append, append_assoc]

theorem HuffmanDecoder.octet_none (hd : d.WellFormed) (h : d.octet byte = none) :
    ∃ out rest, statePath d.state ++ bitsOf 8 byte.toNat =
      codeBits out ++ (huffmanCode 256 ++ rest) := by
  rw [octet_nibbles, ← append_assoc]
  cases hleft : d.step (byte.toNat >>> 4) with
  | none =>
    obtain ⟨rest, hrest⟩ := step_none hd (octet_left_lt byte) hleft
    exact ⟨[], _, by rw [hrest, codeBits_nil, nil_append, append_assoc]⟩
  | some mid =>
    obtain ⟨hmid, out, -, hbits⟩ := step_some hd (octet_left_lt byte) hleft
    simp only [octet, hleft, bind_some] at h
    obtain ⟨rest, hrest⟩ := step_none hmid (octet_right_lt byte) h
    exact ⟨out, rest, by rw [hbits, append_assoc, hrest]⟩

theorem HuffmanDecoder.decode_cons (d : HuffmanDecoder) (byte : UInt8) (src : Bytes) :
    d.decode (byte :: src) = (d.octet byte).bind fun d' => d'.decode src := rfl

theorem HuffmanDecoder.decode_append (d : HuffmanDecoder) (a b : Bytes) :
    d.decode (a ++ b) = (d.decode a).bind fun d' => d'.decode b := by
  simp [decode, foldlM_append]

theorem HuffmanDecoder.decode_some (hd : d.WellFormed) (h : d.decode src = some d') :
    d'.WellFormed ∧ ∃ out, d'.vec = d.vec ++ out ∧
      statePath d.state ++ octetBits src = codeBits out ++ statePath d'.state := by
  induction src generalizing d with
  | nil =>
    obtain rfl : d = d' := some.inj h
    exact ⟨hd, [], by simp, by simp⟩
  | cons byte src ih =>
    rw [decode_cons] at h
    obtain ⟨mid, hbyte, hsrc⟩ := bind_eq_some_iff.mp h
    obtain ⟨hmid, out, hvec, hbits⟩ := octet_some hd hbyte
    obtain ⟨hd', out', hvec', hbits'⟩ := ih hmid hsrc
    refine ⟨hd', out ++ out', by rw [hvec', hvec, append_assoc], ?_⟩
    rw [octetBits_cons, ← append_assoc, hbits, append_assoc, hbits', codeBits_append, append_assoc]

theorem HuffmanDecoder.decode_none (hd : d.WellFormed) (h : d.decode src = none) :
    ∃ out rest, statePath d.state ++ octetBits src = codeBits out ++ (huffmanCode 256 ++ rest) := by
  induction src generalizing d with
  | nil => simp [decode] at h
  | cons byte src ih =>
    rw [octetBits_cons, ← append_assoc]
    cases hbyte : d.octet byte with
    | none =>
      obtain ⟨out, rest, hrest⟩ := octet_none hd hbyte
      exact ⟨out, _, by rw [hrest, append_assoc, append_assoc]⟩
    | some mid =>
      obtain ⟨hmid, out, -, hbits⟩ := octet_some hd hbyte
      simp only [decode_cons, hbyte, bind_some] at h
      obtain ⟨out', rest, hrest⟩ := ih hmid h
      exact ⟨out ++ out', rest, by rw [hbits, append_assoc, hrest, codeBits_append, append_assoc]⟩

theorem huffmanDecode_iff (src out : Bytes) :
    (new.decode src).bind finish = some out ↔
      ∃ k ≤ 7, octetBits src = codeBits out ++ List.replicate k true := by
  constructor
  · intro h
    obtain ⟨d, hdec, hfin⟩ := bind_eq_some_iff.mp h
    obtain ⟨hd, out', hvec, hbits⟩ := decode_some new_wellFormed hdec
    rw [finish] at hfin
    split at hfin
    · cases hfin
    · rename_i haccept
      obtain ⟨k, hk, hpad⟩ := hd.accept_iff.mp haccept
      obtain rfl : out' = out := by simpa [hvec, new] using hfin
      exact ⟨k, hk, by simpa [new, statePath_zero, hpad] using hbits⟩
  · rintro ⟨k, hk, hbits⟩
    have hpad := ones_inside hk
    cases hdec : new.decode src with
    | none =>
      obtain ⟨out', rest, hrest⟩ := decode_none new_wellFormed hdec
      have heq : (out.map octetSymbol).flatMap symbolCode ++ replicate k true =
          (out'.map octetSymbol ++ [(⟨256, by omega⟩ : Fin 257)]).flatMap symbolCode ++ rest := by
        rw [← codeBits_eq_symbols, ← hbits, flatMap_append, ← codeBits_eq_symbols]
        simpa [new, statePath_zero, symbolCode] using hrest
      have hpre := huffmanCode_prefixFree.symbols_prefix hpad heq
      have hmem : (⟨256, by omega⟩ : Fin 257) ∈ out.map octetSymbol := hpre.subset (by simp)
      obtain ⟨byte, -, hbyte⟩ := mem_map.mp hmem
      have hval : byte.toNat = 256 := congrArg Fin.val hbyte
      have := byte.toNat_lt
      omega
    | some d =>
      obtain ⟨hd, out', hvec, hbits'⟩ :=
        decode_some new_wellFormed hdec
      have heq : (out.map octetSymbol).flatMap symbolCode ++ replicate k true =
          (out'.map octetSymbol).flatMap symbolCode ++ statePath d.state := by
        rw [← codeBits_eq_symbols, ← codeBits_eq_symbols, ← hbits]
        simpa [new, statePath_zero] using hbits'
      obtain ⟨hout, hpath⟩ := huffmanCode_prefixFree.unique hpad (statePath_inside hd.state_lt) heq
      obtain rfl := octetSymbol_injective.list_map hout
      have haccept := hd.accept_iff.mpr ⟨k, hk, hpath.symm⟩
      simp only [bind_some, finish, haccept, if_false]
      simp [hvec, new]

/-! ## The encoder -/

theorem octetBits_toBeBytes (v : ℕ) : octetBits (toBeBytes v) = bitsOf 64 v := by
  have hbyte : ∀ w, bitsOf 8 (UInt8.ofNat w).toNat = bitsOf 8 w := by
    intro w
    rw [UInt8.toNat_ofNat']
    exact bitsOf_mod 8 w
  simp only [toBeBytes, range, range.loop, map_cons, map_nil,
    octetBits_cons, octetBits_nil, hbyte, shiftRight_eq_div_pow]
  rw [show (64 : ℕ) = 8 + 56 by rfl, bitsOf_split 8 56, show (56 : ℕ) = 8 + 48 by rfl,
    bitsOf_split 8 48, show (48 : ℕ) = 8 + 40 by rfl, bitsOf_split 8 40,
    show (40 : ℕ) = 8 + 32 by rfl, bitsOf_split 8 32, show (32 : ℕ) = 8 + 24 by rfl,
    bitsOf_split 8 24, show (24 : ℕ) = 8 + 16 by rfl, bitsOf_split 8 16,
    show (16 : ℕ) = 8 + 8 by rfl, bitsOf_split 8 8]
  simp

/-- The octets written and the filled part of the window spell `bits`. -/
structure HuffmanEncoder.Spells (acc : HuffmanEncoder) (bits : List Bool) : Prop where
  unfilled_pos : 0 < acc.unfilled
  unfilled_le : acc.unfilled ≤ 64
  window : ∃ hi < 2 ^ (64 - acc.unfilled), acc.state = hi * 2 ^ acc.unfilled ∧
    octetBits acc.dst ++ bitsOf (64 - acc.unfilled) hi = bits

theorem or_eq_add_of_lt {a b i : ℕ} (hb : b < 2 ^ i) : a * 2 ^ i ||| b = a * 2 ^ i + b := by
  rw [mul_comm]
  exact (two_pow_add_eq_or_of_lt hb a).symm

theorem rotateRight_split {code k : ℕ} (hk : 0 < k) (hk64 : k + u ≤ 64) (hcode : code < 2 ^ (u + k))
    : rotateRight code k &&& (2 ^ u - 1) = code / 2 ^ k ∧
      rotateRight code k &&& (u64Max - (2 ^ u - 1)) = code % 2 ^ k * 2 ^ (64 - k) := by
  have hlow : (code <<< (64 - k)) % 2 ^ 64 = code % 2 ^ k * 2 ^ (64 - k) := by
    rw [shiftLeft_eq, show (2 : ℕ) ^ 64 = 2 ^ k * 2 ^ (64 - k) by
      rw [← pow_add]; congr 1; omega, mul_mod_mul_right]
  have hhigh : code / 2 ^ k < 2 ^ u := by
    rw [Nat.div_lt_iff_lt_mul (Nat.two_pow_pos _), ← pow_add]
    exact hcode
  have hmod : code % 2 ^ k < 2 ^ k := Nat.mod_lt _ (Nat.two_pow_pos _)
  have hrot : rotateRight code k = (code / 2 ^ k) ||| (code % 2 ^ k * 2 ^ (64 - k)) := by
    rw [rotateRight, hlow, shiftRight_eq_div_pow]
  have hmask : u64Max - (2 ^ u - 1) = (2 ^ (64 - u) - 1) * 2 ^ u := by
    have hpow : (2 : ℕ) ^ 64 = 2 ^ (64 - u) * 2 ^ u := by
      rw [← pow_add]
      congr 1
      omega
    rw [u64Max, hpow, Nat.sub_mul, Nat.one_mul]
    have := Nat.two_pow_pos u
    omega
  have hbitHigh : ∀ i, u ≤ i → (code / 2 ^ k).testBit i = false := by
    intro i hi
    exact Nat.testBit_lt_two_pow (lt_of_lt_of_le hhigh (Nat.pow_le_pow_right (by omega) hi))
  have hbitLow : ∀ i, i < 64 - k → (code % 2 ^ k * 2 ^ (64 - k)).testBit i = false := by
    intro i hi
    rw [mul_comm, testBit_two_pow_mul]
    simp [not_le.mpr hi]
  have hbitTop : ∀ i, 64 ≤ i → (code % 2 ^ k * 2 ^ (64 - k)).testBit i = false := by
    intro i hi
    rw [mul_comm, testBit_two_pow_mul]
    have hlt : (code % 2 ^ k).testBit (i - (64 - k)) = false :=
      Nat.testBit_lt_two_pow (lt_of_lt_of_le hmod (Nat.pow_le_pow_right (by omega) (by omega)))
    simp [hlt]
  constructor
  · apply eq_of_testBit_eq
    intro i
    rw [hrot, testBit_and, testBit_or, testBit_two_pow_sub_one]
    by_cases hi : i < u
    · simp [hi, hbitLow i (by omega)]
    · simp [hi, hbitHigh i (by omega)]
  · apply eq_of_testBit_eq
    intro i
    rw [hrot, hmask, testBit_and, testBit_or, mul_comm (2 ^ (64 - u) - 1),
      testBit_two_pow_mul, testBit_two_pow_sub_one]
    by_cases hi : i < u
    · simp [not_le.mpr hi, hbitLow i (by omega)]
    · by_cases hi' : i < 64
      · simp [not_lt.mp hi, hbitHigh i (by omega), show i - u < 64 - u by omega]
      · simp [hbitTop i (by omega), show ¬ i - u < 64 - u by omega]

theorem u64Max_shiftRight (hu : u ≤ 64) : u64Max >>> (64 - u) = 2 ^ u - 1 := by
  rw [u64Max, Nat.shiftRight_eq_div_pow, show (2 : ℕ) ^ 64 = 2 ^ u * 2 ^ (64 - u) by
    rw [← pow_add]; congr 1; omega]
  have hpos := Nat.two_pow_pos (64 - u)
  have hpos' := Nat.two_pow_pos u
  rw [Nat.div_eq_iff hpos]
  obtain ⟨a, ha⟩ : ∃ a, 2 ^ u = a + 1 := ⟨2 ^ u - 1, by omega⟩
  rw [ha, Nat.add_sub_cancel, Nat.add_mul, Nat.one_mul]
  omega

theorem HuffmanEncoder.push_spells (h : acc.Spells bits) (byte : UInt8) :
    (acc.push byte).Spells (bits ++ huffmanCode byte.toNat) := by
  obtain ⟨hpos, hle, hi, hhi, hst, hbits⟩ := h
  obtain ⟨hcode, hmin, hmax⟩ := huffmanCode_fits (octetSymbol byte).isLt
  rw [show (octetSymbol byte).val = byte.toNat by rfl] at hcode hmin hmax
  rw [huffmanCode]
  unfold push
  revert hcode hmin hmax
  generalize huffmanEncodeTable.getD byte.toNat (0, 0) = entry
  obtain ⟨nbits, code⟩ := entry
  intro hcode hmin hmax
  simp only at hcode hmin hmax ⊢
  split
  · -- The code fits in the unfilled part of the window.
    rename_i hlt
    have hshift : code * 2 ^ (acc.unfilled - nbits) < 2 ^ acc.unfilled := by
      calc
        code * 2 ^ (acc.unfilled - nbits) < 2 ^ nbits * 2 ^ (acc.unfilled - nbits) :=
          Nat.mul_lt_mul_of_pos_right hcode (Nat.two_pow_pos _)
        _ = 2 ^ acc.unfilled := by
          rw [← pow_add]
          congr 1
          omega
    have hwide : 2 ^ acc.unfilled ≤ 2 ^ 64 := Nat.pow_le_pow_right (by omega) hle
    refine ⟨by simp only; omega, by simp only; omega, hi * 2 ^ nbits + code, ?_, ?_, ?_⟩
    · simp only
      calc
        hi * 2 ^ nbits + code < hi * 2 ^ nbits + 2 ^ nbits := by omega
        _ = (hi + 1) * 2 ^ nbits := by ring
        _ ≤ 2 ^ (64 - acc.unfilled) * 2 ^ nbits := mul_le_mul_right _ hhi
        _ = 2 ^ (64 - (acc.unfilled - nbits)) := by
          rw [← pow_add]
          congr 1
          omega
    · simp only
      rw [shiftLeft_eq, mod_eq_of_lt (by omega), hst, or_eq_add_of_lt hshift,
        add_mul, mul_assoc, ← pow_add, show nbits + (acc.unfilled - nbits) = acc.unfilled by omega]
    · simp only
      rw [show 64 - (acc.unfilled - nbits) = (64 - acc.unfilled) + nbits by omega,
        bitsOf_add _ _ _ _ hcode, ← append_assoc, hbits]
  · split
    · -- The code fills the window exactly.
      rename_i heq
      refine ⟨by simp, by simp, 0, by simp, by simp, ?_⟩
      simp only
      rw [hst, or_eq_add_of_lt (heq ▸ hcode), octetBits_append, octetBits_toBeBytes,
        show (64 : ℕ) - 64 = 0 by rfl, bitsOf_zero, append_nil, ← hbits, append_assoc]
      congr 1
      have hadd := bitsOf_add (64 - acc.unfilled) acc.unfilled hi code (heq ▸ hcode)
      rw [Nat.sub_add_cancel hle] at hadd
      rw [hadd, heq]
    · rename_i hnlt hne
      have hk : 0 < nbits - acc.unfilled := by omega
      obtain ⟨hhigh, hlow⟩ := rotateRight_split (u := acc.unfilled) hk
        (by omega) (by rwa [Nat.add_sub_cancel' (by omega)])
      have hdiv : code / 2 ^ (nbits - acc.unfilled) < 2 ^ acc.unfilled := by
        rw [Nat.div_lt_iff_lt_mul (Nat.two_pow_pos _), ← pow_add, Nat.add_sub_cancel' (by omega)]
        exact hcode
      refine ⟨by simp only; omega, by simp only; omega,
        code % 2 ^ (nbits - acc.unfilled), ?_, ?_, ?_⟩
      · simp only
        rw [Nat.sub_sub_self (by omega)]
        exact Nat.mod_lt _ (Nat.two_pow_pos _)
      · simp only
        rw [u64Max_shiftRight hle, hlow]
      · simp only
        rw [u64Max_shiftRight hle, hhigh, hst, or_eq_add_of_lt hdiv, octetBits_append,
          octetBits_toBeBytes, ← hbits, append_assoc, append_assoc]
        congr 1
        have hadd := bitsOf_add (64 - acc.unfilled) acc.unfilled hi _ hdiv
        rw [Nat.sub_add_cancel hle] at hadd
        have hsplit := bitsOf_split acc.unfilled (nbits - acc.unfilled) code
        rw [Nat.add_sub_cancel' (by omega)] at hsplit
        rw [hadd, hsplit, Nat.sub_sub_self (by omega), bitsOf_mod, append_assoc]

theorem HuffmanEncoder.foldl_spells (h : acc.Spells bits) (src : Bytes) :
    (src.foldl push acc).Spells (bits ++ codeBits src) := by
  induction src generalizing acc bits with
  | nil => simpa using h
  | cons byte src ih =>
    have hnext := ih (push_spells h byte)
    rwa [append_assoc] at hnext

theorem octetBits_length (src : Bytes) : (octetBits src).length = 8 * src.length := by
  induction src with
  | nil => rfl
  | cons byte src ih =>
    rw [octetBits_cons, length_append, bitsOf_length, ih, length_cons]
    omega

theorem octetBits_take (src : Bytes) (n : ℕ) :
    octetBits (src.take n) = (octetBits src).take (8 * n) := by
  rcases lt_or_ge n src.length with hn | hn
  · have happ : octetBits src = octetBits (src.take n) ++ octetBits (src.drop n) := by
      rw [← octetBits_append, take_append_drop]
    rw [happ, take_left']
    rw [octetBits_length, length_take, min_eq_left hn.le]
  · rw [take_of_length_le hn, take_of_length_le (by rw [octetBits_length]; omega)]

theorem HuffmanEncoder.flush_spells (h : acc.Spells bits) :
    ∃ k ≤ 7, octetBits acc.flush = bits ++ List.replicate k true := by
  obtain ⟨hpos, hle, hi, hhi, hst, hbits⟩ := h
  by_cases hfull : acc.unfilled = 64
  · refine ⟨0, by omega, ?_⟩
    simp only [flush, hfull, ne_eq, not_true, if_false]
    simpa [hfull] using hbits
  · refine ⟨acc.unfilled % 8, by omega, ?_⟩
    have hones : 2 ^ acc.unfilled - 1 < 2 ^ acc.unfilled :=
      Nat.sub_lt (Nat.two_pow_pos _) Nat.one_pos
    simp only [flush, ne_eq, hfull, not_false_iff, if_true]
    rw [u64Max_shiftRight hle, hst, or_eq_add_of_lt hones, octetBits_append,
      octetBits_take, octetBits_toBeBytes, ← hbits, append_assoc]
    congr 1
    have hadd := bitsOf_add (64 - acc.unfilled) acc.unfilled hi _ hones
    rw [Nat.sub_add_cancel hle, bitsOf_ones] at hadd
    have hlen : 8 * (8 - acc.unfilled >>> 3) = (64 - acc.unfilled) + acc.unfilled % 8 := by
      rw [Nat.shiftRight_eq_div_pow]
      omega
    rw [hadd, hlen, take_append, bitsOf_length,
      take_of_length_le (by rw [bitsOf_length]; omega), Nat.add_sub_cancel_left,
      take_replicate, min_eq_left (mod_le _ _)]

theorem octetBits_huffmanEncode (src : Bytes) :
    ∃ k ≤ 7, octetBits (huffmanEncode src) = codeBits src ++ List.replicate k true := by
  have hstart : HuffmanEncoder.Spells { dst := [], state := 0, unfilled := 64 } [] :=
    ⟨by simp, by simp, 0, by simp, by simp, by simp⟩
  simpa [huffmanEncode] using
    flush_spells (foldl_spells hstart src)

theorem huffmanDecode_huffmanEncode (src : Bytes) :
    (new.decode (huffmanEncode src)).bind finish = some src :=
  (huffmanDecode_iff _ _).mpr (octetBits_huffmanEncode src)

theorem huffmanEncode_length_le (src : Bytes) : (huffmanEncode src).length ≤ 4 * src.length := by
  obtain ⟨k, hk, hbits⟩ := octetBits_huffmanEncode src
  have hcode : (codeBits src).length ≤ 30 * src.length := by
    clear hbits
    induction src with
    | nil => simp
    | cons byte src ih =>
      have hbyte := (huffmanCode_fits (octetSymbol byte).isLt).2.2
      rw [show codeBits (byte :: src) = huffmanCode byte.toNat ++ codeBits src by rfl,
        length_append, huffmanCode, bitsOf_length, length_cons]
      rw [show (octetSymbol byte).val = byte.toNat by rfl] at hbyte
      omega
  have hlen := congrArg length hbits
  rw [octetBits_length, length_append, length_replicate] at hlen
  omega

end YlongHttp
