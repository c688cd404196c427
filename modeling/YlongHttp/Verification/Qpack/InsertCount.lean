import YlongHttp.Model.Qpack.Encoder
import YlongHttp.Verification.Hpack.Literals

/-! # The Required Insert Count -/

namespace YlongHttp.Qpack

open Nat QpackDecoder
open Library (DecResult)

/-! ## Counts modulo twice the entries -/

section Wrap

variable {insertCount entries count : ℕ}

/-- The insert counts that can be told apart by their remainder. -/
def InReach (insertCount entries count : ℕ) : Prop :=
  insertCount < count + entries ∧ count ≤ insertCount + entries

def encodedCount (entries count : ℕ) : ℕ := count % (2 * entries) + 1

theorem inReach_mod (h : InReach insertCount entries count) (wrapped : ℕ)
    (hdvd : 2 * entries ∣ wrapped) (hle : wrapped ≤ insertCount + entries)
    (hlt : insertCount + entries < wrapped + 2 * entries) :
    (wrapped ≤ count ∧ count % (2 * entries) = count - wrapped) ∨
      (count < wrapped ∧ count % (2 * entries) = count + 2 * entries - wrapped) := by
  obtain ⟨hlow, hhigh⟩ := h
  obtain ⟨k, rfl⟩ := hdvd
  by_cases hcnt : 2 * entries * k ≤ count
  · refine .inl ⟨hcnt, ?_⟩
    obtain ⟨j, rfl⟩ := Nat.exists_eq_add_of_le hcnt
    rw [Nat.mul_add_mod, Nat.mod_eq_of_lt (by omega)]
    omega
  · refine .inr ⟨by omega, ?_⟩
    have hmod : (count + 2 * entries) % (2 * entries) = count % (2 * entries) :=
      Nat.add_mod_right count (2 * entries)
    obtain ⟨j, hj⟩ := Nat.exists_eq_add_of_le (show 2 * entries * k ≤ count + 2 * entries by omega)
    rw [← hmod, hj, Nat.mul_add_mod, Nat.mod_eq_of_lt (by omega)]
    omega

end Wrap

namespace QpackDecoder

variable {table : DynamicTable} {count ric : ℕ}

theorem maxWrapped_spec (hentries : 0 < table.maxEntries) :
    ∃ wrapped, (table.insertCount + table.maxEntries) / (2 * table.maxEntries) *
        (2 * table.maxEntries) = wrapped ∧ 2 * table.maxEntries ∣ wrapped ∧
      wrapped ≤ table.insertCount + table.maxEntries ∧
      table.insertCount + table.maxEntries < wrapped + 2 * table.maxEntries := by
  have hdiv := div_add_mod' (table.insertCount + table.maxEntries) (2 * table.maxEntries)
  have hrest := mod_lt (table.insertCount + table.maxEntries)
    (show 0 < 2 * table.maxEntries by omega)
  exact ⟨_, rfl, dvd_mul_left _ _, by omega, by omega⟩

theorem requiredInsertCount_encoded (hentries : 0 < table.maxEntries) (hpos : 0 < count)
    (h : InReach table.insertCount table.maxEntries count) :
    requiredInsertCount table (encodedCount table.maxEntries count) = .ok count := by
  have hmod := mod_lt count (show 0 < 2 * table.maxEntries by omega)
  obtain ⟨wrapped, hwrapped, hdvd, hle, hlt⟩ := maxWrapped_spec hentries
  have hcases := inReach_mod h wrapped hdvd hle hlt
  obtain ⟨hlow, hhigh⟩ := h
  rw [requiredInsertCount, encodedCount]
  dsimp only
  rw [hwrapped, if_neg (by omega), if_neg (by omega)]
  rcases hcases with ⟨hbehind, heq⟩ | ⟨hbefore, heq⟩
  · have hcnt : wrapped + (count - wrapped + 1) - 1 = count := by omega
    rw [heq, hcnt, if_neg (by omega), if_neg (by omega)]
  · have hrange : 2 * table.maxEntries ≤ wrapped := le_of_dvd (by omega) hdvd
    have hcnt : wrapped + (count + 2 * table.maxEntries - wrapped + 1) - 1 =
        count + 2 * table.maxEntries := by omega
    rw [heq, hcnt, if_pos (by omega), if_neg (by omega), Nat.add_sub_cancel, if_neg (by omega)]

theorem encodedCount_of_requiredInsertCount (hentries : 0 < table.maxEntries) (hric : ric ≠ 0)
    (h : requiredInsertCount table ric = .ok count) :
    0 < count ∧ InReach table.insertCount table.maxEntries count ∧
      ric = encodedCount table.maxEntries count := by
  obtain ⟨wrapped, hwrapped, ⟨k, rfl⟩, hle, hlt⟩ := maxWrapped_spec hentries
  rw [requiredInsertCount, if_neg hric] at h
  dsimp only at h
  rw [hwrapped] at h
  split at h
  · cases h
  · next hrange =>
      have hmod : (2 * table.maxEntries * k + (ric - 1)) % (2 * table.maxEntries) = ric - 1 := by
        rw [mul_add_mod, mod_eq_of_lt (by omega)]
      have hsum : 2 * table.maxEntries * k + ric - 1 = 2 * table.maxEntries * k + (ric - 1) := by
        omega
      rw [hsum] at h
      rw [InReach, encodedCount]
      split at h
      · next hover =>
          split at h
          · cases h
          · split at h
            · cases h
            · obtain rfl := Except.ok.inj h
              have hback : (2 * table.maxEntries * k + (ric - 1) - 2 * table.maxEntries) %
                  (2 * table.maxEntries) = ric - 1 := by
                rw [← mod_eq_sub_mod (by omega), hmod]
              rw [hback]
              omega
      · split at h
        · cases h
        · obtain rfl := Except.ok.inj h
          rw [hmod]
          omega

theorem requiredInsertCount_refuses (hentries : 0 < table.maxEntries) (hric : ric ≠ 0)
    (hcode : ∀ count, 0 < count → InReach table.insertCount table.maxEntries count →
      ric ≠ encodedCount table.maxEntries count) :
    requiredInsertCount table ric = .error (.error decompressionFailed) := by
  cases h : requiredInsertCount table ric with
  | ok count =>
    obtain ⟨hpos, hreach, heq⟩ := encodedCount_of_requiredInsertCount hentries hric h
    exact absurd heq (hcode count hpos hreach)
  | error e =>
    rw [requiredInsertCount, if_neg hric] at h
    dsimp only at h
    split at h
    · exact h.symm
    · split at h
      · split at h
        · exact h.symm
        · split at h
          · exact h.symm
          · cases h
      · split at h
        · exact h.symm
        · cases h

end QpackDecoder

/-! ## The octets of the prefix -/

section Octets

theorem integerTail_eq (i : ℕ) : integerTail i = continuation i := by
  induction i using Nat.strong_induction_on with
  | _ i ih =>
    rw [integerTail, continuation]
    by_cases hi : i < 128
    · have hand : i &&& 0x7f = i := by
        rw [show (0x7f : ℕ) = 2 ^ 7 - 1 from rfl, and_two_pow_sub_one_eq_mod]
        exact mod_eq_of_lt hi
      rw [dif_neg (by omega), if_pos hi, hand]
    · rw [dif_pos (by omega), if_neg hi, ofNat_or_high, shiftRight_eq_div_pow,
        ih (i / 2 ^ 7) (by omega)]

theorem integerOctets_eq (pre : UInt8) (index : ℕ) (mask : UInt8) :
    integerOctets pre index mask = (IntegerEncoder.new index mask pre).octets := by
  rw [integerOctets, IntegerEncoder.octets, IntegerEncoder.new, integerTail_eq]

theorem prefixTrailingBytes_of_run {int : IntegerDecoder} {buf rest : Bytes} {i : ℕ}
    (hrest : rest ≠ []) (h : int.run buf = (.decoded i, rest)) :
    prefixTrailingBytes int buf = (.decoded i, rest) := by
  induction buf generalizing int with
  | nil => cases h
  | cons byte buf ih =>
    rw [IntegerDecoder.run] at h
    rw [prefixTrailingBytes, nextByte]
    cases hnext : int.nextByte byte with
    | error e =>
      rw [hnext] at h
      cases h
    | ok next =>
      obtain ⟨int', value⟩ := next
      rw [hnext] at h
      cases value with
      | none =>
        have hbuf : buf ≠ [] := by
          rintro rfl
          cases h
        rw [if_neg hbuf]
        exact ih h
      | some value =>
        obtain ⟨hval, rfl⟩ := Prod.mk.inj h
        obtain rfl := DecResult.decoded.inj hval
        rw [if_neg hrest]

theorem prefixOctet_count : PrefixOctet 0xff 0x00 where
  small i _ := by
    rw [UInt8.zero_or]
    exact UInt8.and_neg_one
  full := rfl

theorem prefixOctet_positive : PrefixOctet 0x7f 0x00 := ⟨by decide, by decide⟩

theorem prefixOctet_negative : PrefixOctet 0x7f 0x80 := ⟨by decide, by decide⟩

variable {rest : Bytes}

theorem prefixInteger_octets {mask pre : UInt8} (h : PrefixOctet mask pre) {i : ℕ}
    (hi : i < usizeBound) (hrest : rest ≠ []) :
    ∃ byte tail, integerOctets pre i mask ++ rest = byte :: tail ∧ tail ≠ [] ∧
      (byte = pre ||| mask ∨ ∃ j < mask.toNat, byte = pre ||| UInt8.ofNat j) ∧
      prefixInteger byte mask tail = (.decoded i, rest) := by
  rw [integerOctets_eq]
  rcases h.octets_cases hi rest with ⟨byte, heq, hlt, hbyte, hfirst⟩ | ⟨int, tail, heq, hfirst, hrun⟩
  · exact ⟨byte, rest, heq, hrest, .inr ⟨i, hlt, hbyte⟩, by rw [prefixInteger, hfirst]⟩
  · refine ⟨_, tail, heq, ?_, .inl rfl, ?_⟩
    · rintro rfl
      cases hrun
    · rw [prefixInteger, hfirst]
      exact prefixTrailingBytes_of_run hrest hrun

variable (signal : Bool)

def signOctet : UInt8 := if signal then 0x80 else 0x00

theorem prefixOctet_sign : PrefixOctet 0x7f (signOctet signal) := by
  cases signal with
  | false => exact prefixOctet_positive
  | true => exact prefixOctet_negative

theorem sign_read {byte : UInt8}
    (h : byte = signOctet signal ||| 0x7f ∨ ∃ j < (0x7f : UInt8).toNat, byte = signOctet signal ||| UInt8.ofNat j) :
    decide (byte &&& 0x80 ≠ 0) = signal := by
  have hall : ∀ j < 128, decide ((signOctet signal ||| UInt8.ofNat j) &&& 0x80 ≠ 0) = signal := by
    cases signal <;> decide
  rcases h with rfl | ⟨j, hj, rfl⟩
  · exact hall 0x7f (by decide)
  · exact hall j (lt_trans hj (by decide))

def prefixOctets (ric : ℕ) (signal : Bool) (deltaBase : ℕ) : Bytes :=
  integerOctets 0x00 ric 0xff ++ integerOctets (signOctet signal) deltaBase 0x7f

theorem decodeSectionPrefix_octets {ric deltaBase : ℕ} (hric : ric < usizeBound)
    (hdelta : deltaBase < usizeBound) (hrest : rest ≠ []) :
    decodeSectionPrefix (prefixOctets ric signal deltaBase ++ rest) =
      (.decoded (.fieldSectionPrefix ric signal deltaBase), rest) := by
  obtain ⟨byte', tail', heq', htail', hbyte', hread'⟩ :=
    prefixInteger_octets (prefixOctet_sign signal) hdelta hrest
  obtain ⟨byte, tail, heq, htail, -, hread⟩ := prefixInteger_octets prefixOctet_count hric
    (List.cons_ne_nil byte' tail')
  rw [prefixOctets, List.append_assoc, heq', heq, decodeSectionPrefix, hread]
  dsimp only
  rw [if_neg htail', hread', sign_read signal hbyte']

end Octets

/-! ## Encoder and decoder -/

namespace QpackDecoder

variable (d : QpackDecoder)

/-- What `decode_buffered_repr` does with the count and the base of a section, `rest` being the
field lines. -/
def startLines (message : ReprMessage) (rest : Bytes) (count base : ℕ) :
    Except (Fault QpackError) (ReprMessage × ℕ × FieldDecodeState) :=
  let message := { message with requireInsertCount := count, base }
  if count > d.table.insertCount then
    if d.blocked.keys.length > d.maxBlockedStreams then .error (.error decompressionFailed)
    else .ok ({ message with remaining := some rest }, base, .blocked)
  else .ok (message, base, .decoded)

/-- From these octets `decode_buffered_repr` takes exactly this count and this base. -/
def Reconstructs (octets : Bytes) (count base : ℕ) : Prop :=
  ∀ message start rest, rest ≠ [] →
    ∃ repr, ReprDecodeState.filedSectionPrefix.decode (octets ++ rest) = (.decoded repr, rest) ∧
      d.handle message start rest repr = d.startLines message rest count base

def Refuses (ric : ℕ) : Prop :=
  ∀ message start rest signal deltaBase,
    d.handle message start rest (.fieldSectionPrefix ric signal deltaBase) =
      .error (.error decompressionFailed)

theorem reconstructs {d : QpackDecoder} {ric deltaBase count base : ℕ} {signal : Bool}
    (hric : ric < usizeBound) (hdelta : deltaBase < usizeBound)
    (hcnt : requiredInsertCount d.table ric = .ok count)
    (hbase : sectionBase count signal deltaBase = some base) :
    d.Reconstructs (prefixOctets ric signal deltaBase) count base := by
  intro message start rest hrest
  refine ⟨_, decodeSectionPrefix_octets signal hric hdelta hrest, ?_⟩
  simp only [handle, hcnt, hbase, orPanic, bind, Except.bind, startLines]
  split
  · split <;> rfl
  · rfl

theorem refuses {d : QpackDecoder} {ric : ℕ}
    (h : requiredInsertCount d.table ric = .error (.error decompressionFailed)) : d.Refuses ric := by
  intro message start rest signal deltaBase
  simp only [handle, h, bind, Except.bind]

end QpackDecoder

theorem getPrefix_eq {e : ReprEncoder} (hentries : 0 < e.table.maxEntries) (hdynamic : e.maxDynamic ≠ 0) :
    e.getPrefix = some (prefixOctets (encodedCount e.table.maxEntries (e.maxDynamic + 1))
      (e.base < e.maxDynamic + 1)
      (if e.base < e.maxDynamic + 1 then e.maxDynamic + 1 - e.base - 1
        else e.base - (e.maxDynamic + 1))) := by
  rw [ReprEncoder.getPrefix]
  dsimp only
  rw [if_pos hdynamic, if_neg (by omega)]
  by_cases hbase : e.base < e.maxDynamic + 1
  · rw [if_neg (by omega)]
    simp [prefixOctets, encodedCount, hbase, signOctet]
  · rw [if_pos (by omega)]
    simp [prefixOctets, encodedCount, hbase, signOctet]

/-- For a count in reach, but for that of a section which refers to the first entry only, the
prefix gives back the count and the base; a section without references gets the count and the
base 0. Other codes are errors. -/
theorem insert_count_read_back {e : ReprEncoder} {d : QpackDecoder}
    (hcapacity : e.table.capacity = d.table.capacity) (hentries : 0 < d.table.maxEntries)
    (husize : d.table.capacity < usizeBound ∧ e.base < usizeBound ∧
      d.table.insertCount + d.table.maxEntries < usizeBound) :
    (∀ count, count = e.maxDynamic + 1 → count ≠ 1 →
      InReach d.table.insertCount d.table.maxEntries count →
      ∃ octets, e.getPrefix = some octets ∧ d.Reconstructs octets count e.base) ∧
    (e.maxDynamic = 0 → e.refFields = [] →
      ∃ octets, e.getPrefix = some octets ∧ d.Reconstructs octets 0 0) ∧
    (∀ ric, ric ≠ 0 → (∀ count, 0 < count →
        InReach d.table.insertCount d.table.maxEntries count →
        ric ≠ encodedCount d.table.maxEntries count) → d.Refuses ric) := by
  obtain ⟨hcap, hbound, hsum⟩ := husize
  have hsame : e.table.maxEntries = d.table.maxEntries := by
    rw [DynamicTable.maxEntries, DynamicTable.maxEntries, hcapacity]
  refine ⟨?_, ?_, ?_⟩
  · rintro count rfl hone hreach
    have hmod := mod_lt (e.maxDynamic + 1) (show 0 < 2 * d.table.maxEntries by omega)
    have hfit : 2 * d.table.maxEntries < usizeBound := by
      rw [DynamicTable.maxEntries]
      omega
    refine ⟨_, getPrefix_eq (by omega) (by omega), ?_⟩
    rw [hsame]
    refine reconstructs ?_ ?_
      (requiredInsertCount_encoded hentries (by omega) hreach) ?_
    · rw [encodedCount]
      omega
    · have hhigh : e.maxDynamic + 1 ≤ d.table.insertCount + d.table.maxEntries := hreach.2
      split <;> omega
    · by_cases hbase : e.base < e.maxDynamic + 1
      · simp only [sectionBase, hbase, decide_true, if_true, checkedSub]
        rw [if_pos (by omega)]
        congr 1
        omega
      · simp only [sectionBase, hbase, decide_false, Bool.false_eq_true, if_false,
          checkedAdd]
        rw [if_pos (by omega)]
        congr 1
        omega
  · intro hdynamic _
    refine ⟨prefixOctets 0 false 0, ?_, ?_⟩
    · rw [ReprEncoder.getPrefix]
      simp [hdynamic, prefixOctets, signOctet]
    · exact reconstructs (by decide) (by decide) rfl rfl
  · intro ric hric hcode
    exact refuses (requiredInsertCount_refuses hentries hric hcode)

def thirdEntry : ReprEncoder where
  base := 2
  isHuffman := false
  table := { DynamicTable.withEmpty with capacity := 128 }
  refFields := [2]
  maxDynamic := 2
  fields := []
  inst := []

def threeInsertions : QpackDecoder :=
  { QpackDecoder.new 0 128 with
    table := { DynamicTable.withEmpty with capacity := 128, insertCount := 3 } }

theorem insert_count_three :
    (∃ octets, thirdEntry.getPrefix = some octets ∧ threeInsertions.Reconstructs octets 3 2) ∧
      threeInsertions.Refuses 9 := by
  have hread := insert_count_read_back (e := thirdEntry) (d := threeInsertions) rfl (by decide)
    ⟨by decide, by decide, by decide⟩
  refine ⟨hread.1 3 rfl (by decide) ⟨by decide, by decide⟩, hread.2.2 9 (by decide) ?_⟩
  intro count _ _ hcode
  have hmod := mod_lt count (show 0 < 2 * threeInsertions.table.maxEntries by decide)
  have hentries : threeInsertions.table.maxEntries = 4 := by decide
  rw [encodedCount] at hcode
  rw [hentries] at hmod hcode
  omega

/-- The base of a section without references is not read back. -/
theorem base_without_references :
    ¬∀ (e : ReprEncoder) (d : QpackDecoder), e.table.capacity = d.table.capacity →
      0 < d.table.maxEntries → e.base < usizeBound → e.refFields = [] → e.maxDynamic = 0 →
      ∃ octets, e.getPrefix = some octets ∧ d.Reconstructs octets 0 e.base := by
  intro h
  obtain ⟨octets, hwritten, hreads⟩ := h { thirdEntry with refFields := [], maxDynamic := 0 }
    threeInsertions rfl (by decide) (by decide) rfl rfl
  obtain rfl : [0, 0] = octets := by
    have hzero : ({ thirdEntry with refFields := [], maxDynamic := 0 } : ReprEncoder).getPrefix =
        some [0, 0] := by decide
    exact Option.some.inj (hzero.symm.trans hwritten)
  obtain ⟨repr, hdec, hhandle⟩ := hreads .new 0 [0xd1] (by decide)
  have hrepr : ReprDecodeState.filedSectionPrefix.decode ([0, 0] ++ [0xd1]) =
      (.decoded (.fieldSectionPrefix 0 false 0), [0xd1]) := by decide
  obtain ⟨heq, -⟩ := Prod.mk.inj (hdec.symm.trans hrepr)
  obtain rfl := DecResult.decoded.inj heq
  have hbase := congrArg (fun r => (r.toOption.map fun started => started.2.1)) hhandle
  revert hbase
  decide

end YlongHttp.Qpack
