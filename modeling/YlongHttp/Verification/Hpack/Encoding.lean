import YlongHttp.Model.Hpack.Encoder

/-! # Header blocks may be written into any buffers

What an encoder still owes is a list of octets. Every part of the encoder writes the next
part of it into the buffer it is given and keeps the rest, so that the octets of a block
do not depend on the buffers. -/

namespace YlongHttp

open List Option HpackEncoder Nat
open Library (Delivers writeThen writeOption)

/-! ## Prefix integers -/

def continuation (i : ℕ) : Bytes :=
  if i < 128 then [UInt8.ofNat i] else UInt8.ofNat (i % 128 + 128) :: continuation (i / 128)
termination_by i

def IntegerEncoder.octets (e : IntegerEncoder) : Bytes :=
  match e.state with
  | .first =>
    if e.i < e.mask.toNat then [e.pre ||| UInt8.ofNat e.i]
    else (e.pre ||| e.mask) :: continuation (e.i - e.mask.toNat)
  | .other => continuation e.i
  | .finish => []

theorem ofNat_or_high (i : ℕ) :
    UInt8.ofNat (i &&& 0x7f) ||| 0x80 = UInt8.ofNat (i % 128 + 128) := by
  have hand : i &&& 0x7f = i % 128 := and_two_pow_sub_one_eq_mod i 7
  have hall : ∀ k < 128, UInt8.ofNat k ||| 0x80 = UInt8.ofNat (k + 128) := by decide
  rw [hand]
  exact hall (i % 128) (mod_lt i (by decide))

theorem IntegerEncoder.octets_eq (e : IntegerEncoder) :
    e.octets =
      match e.nextByte with
      | none => []
      | some (byte, e') => byte :: e'.octets := by
  obtain ⟨i, mask, pre, state⟩ := e
  cases state with
  | finish => rfl
  | first =>
    by_cases hi : i < mask.toNat
    · simp [octets, nextByte, hi]
    · simp [octets, nextByte, hi]
  | other =>
    by_cases hi : i < 128
    · have hand : i &&& 0x7f = i := by
        rw [show (0x7f : ℕ) = 2 ^ 7 - 1 from rfl, and_two_pow_sub_one_eq_mod]
        exact mod_eq_of_lt hi
      have hge : ¬ i ≥ 128 := by omega
      simp only [octets, nextByte, hge, if_false, hand]
      rw [continuation, if_pos hi]
    · have hge : i ≥ 128 := by omega
      simp only [octets, nextByte, hge, if_true, ofNat_or_high]
      rw [continuation, if_neg hi, shiftRight_eq_div_pow]

theorem IntegerEncoder.nextByte_none {e : IntegerEncoder} :
    e.nextByte = none ↔ e.state = .finish := by
  obtain ⟨i, mask, pre, state⟩ := e
  cases state <;> simp only [nextByte] <;> split <;> simp

theorem IntegerEncoder.encode_delivers (e : IntegerEncoder) :
    Delivers octets e.encode e.octets := by
  intro n
  induction n generalizing e with
  | zero =>
    rw [e.octets_eq]
    cases hnext : e.nextByte with
    | none =>
      have hfin := nextByte_none.mp hnext
      simp [encode, hfin]
    | some next =>
      have hfin : e.state ≠ .finish := by
        intro h
        rw [nextByte_none.mpr h] at hnext
        cases hnext
      refine ⟨fun h => absurd h (by simp), fun _ => ⟨e, by simp [encode, hfin], ?_⟩⟩
      rw [e.octets_eq, hnext]
      rfl
  | succ n ih =>
    rw [e.octets_eq]
    cases hnext : e.nextByte with
    | none => simp [encode, hnext]
    | some next =>
      obtain ⟨byte, e'⟩ := next
      obtain ⟨hall, hcut⟩ := ih e'
      simp only [encode, hnext, length_cons]
      refine ⟨?_, ?_⟩
      · intro h
        rw [hall (by omega)]
      · intro h
        obtain ⟨s, hs, howed⟩ := hcut (by omega)
        exact ⟨s, by rw [hs, take_succ_cons], by rw [howed, drop_succ_cons]⟩

/-! ## Representations -/

def Octets.octets (o : Octets) : Bytes := o.src.drop o.idx

theorem Octets.encode_delivers (o : Octets) : Delivers octets o.encode o.octets := by
  intro n
  refine ⟨?_, ?_⟩
  · intro h
    have h' : (o.src.drop o.idx).length ≤ n := h
    simp only [encode, octets, h', if_true]
  · intro h
    have h' : ¬ (o.src.drop o.idx).length ≤ n := by
      simp only [octets] at h
      omega
    exact ⟨{ o with idx := o.idx + n }, by simp only [encode, h', if_false]; rfl, by
      simp [octets, drop_drop]⟩

def IndexAndValue.octets (v : IndexAndValue) : Bytes :=
  v.index.elim [] IntegerEncoder.octets ++
    (v.valueLength.elim [] IntegerEncoder.octets ++ v.valueOctets.elim [] Octets.octets)

theorem IndexAndValue.encode_delivers (v : IndexAndValue) :
    Delivers octets v.encode v.octets := by
  have hint := Delivers.writeOption IntegerEncoder.encode_delivers
  have hoct := Delivers.writeOption Octets.encode_delivers
  refine (hint v.index).writeThen ((hint v.valueLength).writeThen ((hoct v.valueOctets).map ?_)
    ?_) ?_
  · intro o
    simp [octets]
  · intro length
    simp [octets]
  · intro index
    simp [octets]

def NameAndValue.octets (v : NameAndValue) : Bytes :=
  v.index.elim [] IntegerEncoder.octets ++
    (v.nameLength.elim [] IntegerEncoder.octets ++ (v.nameOctets.elim [] Octets.octets ++
      (v.valueLength.elim [] IntegerEncoder.octets ++ v.valueOctets.elim [] Octets.octets)))

theorem NameAndValue.encode_delivers (v : NameAndValue) :
    Delivers octets v.encode v.octets := by
  have hint := Delivers.writeOption IntegerEncoder.encode_delivers
  have hoct := Delivers.writeOption Octets.encode_delivers
  refine (hint v.index).writeThen ((hint v.nameLength).writeThen ((hoct v.nameOctets).writeThen
    ((hint v.valueLength).writeThen ((hoct v.valueOctets).map ?_) ?_) ?_) ?_) ?_
  · intro o
    simp [octets]
  · intro length
    simp [octets]
  · intro o
    simp [octets]
  · intro length
    simp [octets]
  · intro index
    simp [octets]

def ReprEncodeState.octets : ReprEncodeState → Bytes
  | .indexed index => index.octets
  | .indexing inner => inner.octets
  | .indexingWithName inner => inner.octets

theorem ReprEncodeState.encode_delivers (s : ReprEncodeState) :
    Delivers octets s.encode s.octets := by
  cases s with
  | indexed index => exact (index.encode_delivers).map fun _ => rfl
  | indexing inner | indexingWithName inner => exact (inner.encode_delivers).map fun _ => rfl

/-! ## The fields of a block -/

def pseudoField (h : Header) (value : Option Bytes) : List Field :=
  value.toList.map fun v => (h, v)

def mapFields (map : List (HeaderName × HeaderValue)) : List Field :=
  map.map fun entry => (.other entry.1.name, entry.2.toString)

namespace PartsIter

variable (it : PartsIter)

/-- The fields the iterator still yields. -/
def fields : List Field :=
  let others := mapFields it.map
  let fromAuthority := pseudoField .authority it.pseudo.authority ++ others
  let fromPath := pseudoField .path it.pseudo.path ++ fromAuthority
  let fromScheme := pseudoField .scheme it.pseudo.scheme ++ fromPath
  let fromStatus := pseudoField .status it.pseudo.status ++ fromScheme
  match it.nextType with
  | .method => pseudoField .method it.pseudo.method ++ fromStatus
  | .status => fromStatus
  | .scheme => fromScheme
  | .path => fromPath
  | .authority => fromAuthority
  | .other => others

def Yields (fields : List Field) (next : Option (Field × PartsIter)) : Prop :=
  match fields with
  | [] => next = none
  | f :: rest => ∃ it', next = some (f, it') ∧ it'.fields = rest ∧ it'.map.length ≤ it.map.length

theorem nextOther_yields : it.Yields (mapFields it.map) it.nextOther := by
  obtain ⟨pseudo, map, nextType⟩ := it
  cases map with
  | nil => rfl
  | cons entry map =>
    exact ⟨{ pseudo, map, nextType := .other }, rfl, rfl, by simp⟩

theorem nextAuthority_yields :
    it.Yields (pseudoField .authority it.pseudo.authority ++ mapFields it.map)
      it.nextAuthority := by
  cases h : it.pseudo.authority with
  | none => simpa [pseudoField, nextAuthority, h] using it.nextOther_yields
  | some v =>
    refine ⟨{ it with pseudo := { it.pseudo with authority := none }, nextType := .authority }, ?_, ?_, le_rfl⟩
    · simp [nextAuthority, h]
    · simp [fields, pseudoField]

theorem nextPath_yields :
    it.Yields (pseudoField .path it.pseudo.path ++
      (pseudoField .authority it.pseudo.authority ++ mapFields it.map)) it.nextPath := by
  cases h : it.pseudo.path with
  | none => simpa [pseudoField, nextPath, h] using it.nextAuthority_yields
  | some v =>
    refine ⟨{ it with pseudo := { it.pseudo with path := none }, nextType := .path }, ?_, ?_, le_rfl⟩
    · simp [nextPath, h]
    · simp [fields, pseudoField]

theorem nextScheme_yields :
    it.Yields (pseudoField .scheme it.pseudo.scheme ++ (pseudoField .path it.pseudo.path ++
      (pseudoField .authority it.pseudo.authority ++ mapFields it.map))) it.nextScheme := by
  cases h : it.pseudo.scheme with
  | none => simpa [pseudoField, nextScheme, h] using it.nextPath_yields
  | some v =>
    refine ⟨{ it with pseudo := { it.pseudo with scheme := none }, nextType := .scheme }, ?_, ?_, le_rfl⟩
    · simp [nextScheme, h]
    · simp [fields, pseudoField]

theorem nextStatus_yields :
    it.Yields (pseudoField .status it.pseudo.status ++ (pseudoField .scheme it.pseudo.scheme ++
      (pseudoField .path it.pseudo.path ++ (pseudoField .authority it.pseudo.authority ++
        mapFields it.map)))) it.nextStatus := by
  cases h : it.pseudo.status with
  | none => simpa [pseudoField, nextStatus, h] using it.nextScheme_yields
  | some v =>
    refine ⟨{ it with pseudo := { it.pseudo with status := none }, nextType := .status }, ?_, ?_, le_rfl⟩
    · simp [nextStatus, h]
    · simp [fields, pseudoField]

theorem next_yields : it.Yields it.fields it.next := by
  cases h : it.nextType with
  | status => simpa [fields, next, h] using it.nextStatus_yields
  | scheme => simpa [fields, next, h] using it.nextScheme_yields
  | path => simpa [fields, next, h] using it.nextPath_yields
  | authority => simpa [fields, next, h] using it.nextAuthority_yields
  | other => simpa [fields, next, h] using it.nextOther_yields
  | method =>
    simp only [fields, next, h]
    cases hm : it.pseudo.method with
    | none => simpa [pseudoField, nextMethod, hm] using it.nextStatus_yields
    | some v =>
      refine ⟨{ it with pseudo := { it.pseudo with method := none }, nextType := .method }, ?_, ?_, le_rfl⟩
      · simp [nextMethod, hm]
      · simp [fields, pseudoField]

theorem pseudoField_length_le (h : Header) (value : Option Bytes) :
    (pseudoField h value).length ≤ 1 := by
  cases value <;> simp [pseudoField]

theorem fields_length_le : it.fields.length ≤ it.map.length + 5 := by
  have hm := pseudoField_length_le .method it.pseudo.method
  have hst := pseudoField_length_le .status it.pseudo.status
  have hsc := pseudoField_length_le .scheme it.pseudo.scheme
  have hp := pseudoField_length_le .path it.pseudo.path
  have ha := pseudoField_length_le .authority it.pseudo.authority
  have hmap : (mapFields it.map).length = it.map.length := length_map _
  cases h : it.nextType <;> simp only [fields, h, length_append] <;> omega

end PartsIter

def Parts.fields (parts : Parts) : List Field := (PartsIter.new parts).fields

/-! ## Blocks -/

def encodeFields (useHuffman : Bool) (table : DynamicTable) : List Field → Bytes × DynamicTable
  | [] => ([], table)
  | (h, v) :: rest =>
    let first := encodeField table useHuffman h v
    let later := encodeFields useHuffman first.2 rest
    (first.1.octets ++ later.1, later.2)

variable (useHuffman : Bool)

def ReprEncoder.pending (e : ReprEncoder) : Bytes × DynamicTable :=
  let fields := encodeFields useHuffman e.table (e.iter.elim [] PartsIter.fields)
  (e.state.elim [] ReprEncodeState.octets ++ fields.1, fields.2)

/-- A call with a buffer of `n` octets delivers `owed`: it either finishes or fills the
buffer and keeps the rest in its state. -/
def ReprEncoder.Writes (owed : Bytes × DynamicTable) (n : ℕ) (r : Bytes × ReprEncoder) : Prop :=
  (owed.1.length ≤ n → r = (owed.1, { table := owed.2, iter := none, state := none })) ∧
  (n < owed.1.length → r.1 = owed.1.take n ∧ r.2.state.isSome ∧
    r.2.pending useHuffman = (owed.1.drop n, owed.2))

theorem ReprEncoder.Writes.cons {useHuffman : Bool} {table : DynamicTable}
    {iter : Option PartsIter} {s : ReprEncodeState} {n : ℕ} {later : ℕ → Bytes × ReprEncoder}
    {r : Bytes × ReprEncoder}
    (hlater : ∀ n', Writes useHuffman
      (encodeFields useHuffman table (iter.elim [] PartsIter.fields)) n' (later n'))
    (hcut : ∀ out s', s.encode n = (out, some s') → r = (out, { table, iter, state := some s' }))
    (hall : ∀ out, s.encode n = (out, none) →
      r = (out ++ (later (n - out.length)).1, (later (n - out.length)).2)) :
    Writes useHuffman (pending useHuffman { table, iter, state := some s }) n r := by
  obtain ⟨sall, scut⟩ := s.encode_delivers n
  simp only [Writes, pending, elim_some, length_append]
  -- The buffer may end inside this representation or inside a later one.
  rcases lt_or_ge n s.octets.length with hlt | hge
  · obtain ⟨s', hs', howed⟩ := scut hlt
    rw [hcut _ _ hs']
    refine ⟨fun hle => by omega, fun _ => ⟨?_, rfl, ?_⟩⟩
    · simp only [take_append_of_le_length hlt.le]
    · simp only [elim_some, howed, drop_append_of_le_length hlt.le]
  · rw [hall _ (sall hge)]
    obtain ⟨lall, lcut⟩ := hlater (n - s.octets.length)
    refine ⟨?_, ?_⟩
    · intro hle
      rw [lall (by omega)]
    · intro hlt
      obtain ⟨hout, hsome, hpend⟩ := lcut (by omega)
      refine ⟨?_, hsome, ?_⟩
      · simp only [hout, take_append, take_of_length_le hge]
      · simp only [pending] at hpend
        rw [hpend, drop_append, drop_of_length_le hge, nil_append]

theorem ReprEncoder.encodeLoop_writes (useHuffman : Bool) (fuel : ℕ) (table : DynamicTable)
    (it : PartsIter) (n : ℕ) (hfuel : it.fields.length < fuel) :
    Writes useHuffman (encodeFields useHuffman table it.fields) n
      (encodeLoop useHuffman fuel table it n) := by
  induction fuel generalizing table it n with
  | zero => omega
  | succ fuel ih =>
    have hyields := it.next_yields
    cases hfields : it.fields with
    | nil =>
      rw [hfields] at hyields
      have hnext : it.next = none := hyields
      refine ⟨?_, ?_⟩
      · intro _
        simp [encodeLoop, hnext, encodeFields]
      · intro h
        simp [encodeFields] at h
    | cons f rest =>
      rw [hfields] at hyields
      obtain ⟨it', hnext, hrest, -⟩ := hyields
      obtain ⟨h, v⟩ := f
      have hlen : it'.fields.length < fuel := by
        rw [hrest]
        simp only [hfields, length_cons] at hfuel
        omega
      have hlater := fun n' => ih (encodeField table useHuffman h v).2 it' n' hlen
      have hpending : encodeFields useHuffman table ((h, v) :: rest) =
          pending useHuffman
            { table := (encodeField table useHuffman h v).2, iter := some it'
              state := some (encodeField table useHuffman h v).1 } := by
        simp [encodeFields, pending, hrest]
      rw [hpending]
      refine Writes.cons hlater ?_ ?_
      · intro out s' hs
        simp [encodeLoop, hnext, hs]
      · intro out hs
        simp [encodeLoop, hnext, hs]

theorem ReprEncoder.encode_writes (useHuffman : Bool) (e : ReprEncoder) (n : ℕ) (hn : 0 < n) :
    Writes useHuffman (e.pending useHuffman) n (e.encode n useHuffman) := by
  have hne : n ≠ 0 := by omega
  obtain ⟨table, iter, state⟩ := e
  -- The fields behind the saved representation.
  have hfields : ∀ n', Writes useHuffman
      (encodeFields useHuffman table (iter.elim [] PartsIter.fields)) n'
      (encodeIter useHuffman table iter n') := by
    intro n'
    cases iter with
    | none => exact ⟨fun _ => rfl, fun h => by simp [encodeFields] at h⟩
    | some it =>
      have hlen := it.fields_length_le
      exact encodeLoop_writes useHuffman _ table it n' (by omega)
  cases state with
  | none =>
    simp only [encode, hne, if_false, pending, elim_none, nil_append]
    exact hfields n
  | some s =>
    refine Writes.cons hfields ?_ ?_
    · intro out s' hs
      simp [encode, hne, hs]
    · intro out hs
      simp only [encode, hne, if_false, hs]

/-! ## Calls of the encoder -/

variable (e : HpackEncoder)

def HpackEncoder.pending : Bytes × DynamicTable :=
  ReprEncoder.pending e.useHuffman { table := e.table, iter := e.iter, state := e.state }

theorem HpackEncoder.encode_spec (e : HpackEncoder) (n : ℕ) (hn : 0 < n) :
    (e.encode n).1 = e.pending.1.take n ∧
      (e.encode n).2.pending = (e.pending.1.drop n, e.pending.2) ∧
      (e.encode n).2.useHuffman = e.useHuffman ∧
      ((e.encode n).2.isFinished = true ↔ e.pending.1.length ≤ n) := by
  obtain ⟨hall, hcut⟩ := ReprEncoder.encode_writes e.useHuffman
    { table := e.table, iter := e.iter, state := e.state } n hn
  rcases lt_or_ge n e.pending.1.length with hlt | hge
  · obtain ⟨hout, hsome, hpend⟩ := hcut hlt
    have hlen : (e.pending.1.take n).length = n := by
      rw [length_take]
      omega
    have hfull : ((ReprEncoder.encode { table := e.table, iter := e.iter, state := e.state } n
        e.useHuffman).1).length = n := by
      rw [hout]
      exact hlen
    simp only [encode, hfull, if_true]
    refine ⟨hout, hpend, trivial, ?_⟩
    simp only [isFinished, Bool.and_eq_true, isNone_iff_eq_none]
    refine ⟨?_, fun h => by omega⟩
    rintro ⟨-, hnone⟩
    rw [hnone] at hsome
    cases hsome
  · have hr := hall hge
    have hdone : e.encode n =
        (e.pending.1, { e with table := e.pending.2, iter := none, state := none }) := by
      simp only [encode, hr]
      split <;> rfl
    rw [hdone]
    refine ⟨(take_of_length_le hge).symm, ?_, rfl, ?_⟩
    · rw [drop_of_length_le hge]
      rfl
    · exact ⟨fun _ => hge, fun _ => rfl⟩

/-! ## Blocks in any buffers -/

variable (table : DynamicTable)

theorem HpackEncoder.emits :
    Library.Emits (fun e : HpackEncoder => e.pending.2 = table) (fun e => e.pending.1)
      encode where
  out e n _ hn := (e.encode_spec n hn).1
  rest e n _ hn := congrArg Prod.fst (e.encode_spec n hn).2.1
  inv e n he hn := (congrArg Prod.snd (e.encode_spec n hn).2.1).trans he

theorem HpackEncoder.pending_finished {e : HpackEncoder} (h : e.isFinished = true) :
    e.pending = ([], e.table) := by
  rw [isFinished, Bool.and_eq_true, isNone_iff_eq_none, isNone_iff_eq_none] at h
  rw [pending, h.1, h.2]
  rfl

def HpackEncoder.starting (useHuffman : Bool) (parts : Parts) : HpackEncoder :=
  setParts { table, iter := none, state := none, useHuffman } parts

/-- Calls up to the first that finishes the block, what they write and the table in the end. -/
def HpackEncoder.Finishes (caps : ℕ → ℕ) (out : Bytes) (table : DynamicTable) : Prop :=
  ∃ k last, Library.writeAll encode e ((List.range k).map caps) = (out, last) ∧
    last.isFinished = true ∧ last.table = table ∧
    ∀ j < k, (Library.writeAll encode e ((List.range j).map caps)).2.isFinished = false

theorem HpackEncoder.pending_finishes (caps : ℕ → ℕ) (hcaps : ∀ i, 0 < caps i) :
    e.Finishes caps e.pending.1 e.pending.2 := by
  have hpos : ∀ j, ∀ n ∈ (range j).map caps, 0 < n := by
    intro j n hn
    obtain ⟨i, -, rfl⟩ := mem_map.mp hn
    exact hcaps i
  have hsum : ∀ j, j ≤ ((range j).map caps).sum := by
    intro j
    induction j with
    | zero => exact zero_le _
    | succ j ih =>
      rw [range_succ, map_append, sum_append_nat, map_singleton, sum_singleton]
      exact Nat.add_le_add ih (hcaps j)
  have hrun := fun j => (emits e.pending.2).writeAll e rfl _ (hpos j)
  -- One call for each octet, and one more, are enough.
  have hends : ∃ k, (Library.writeAll encode e
      ((range k).map caps)).2.isFinished = true := by
    refine ⟨e.pending.1.length + 1, ?_⟩
    rw [range_succ, map_append, Library.writeAll_append]
    obtain ⟨-, hrest, -⟩ := hrun e.pending.1.length
    refine (encode_spec _ _ (hcaps _)).2.2.2.mpr ?_
    rw [hrest, drop_of_length_le (hsum _)]
    exact zero_le _
  classical
  obtain ⟨hout, hrest, htable⟩ := hrun (Nat.find hends)
  have hfinished := Nat.find_spec hends
  rw [pending_finished hfinished] at hrest htable
  have hall : e.pending.1.length ≤ ((range (Nat.find hends)).map caps).sum :=
    drop_eq_nil_iff.mp hrest.symm
  rw [take_of_length_le hall] at hout
  refine ⟨Nat.find hends, _, Prod.ext hout rfl, hfinished, htable, fun j hj => ?_⟩
  exact eq_false_of_ne_true (Nat.find_min hends hj)

/-- Calls until a block is finished write what one call with enough room writes, and lead to the
same table. -/
theorem HpackEncoder.encode_any_buffers (table : DynamicTable) (useHuffman : Bool) (parts : Parts)
    (caps : ℕ → ℕ) (hcaps : ∀ i, 0 < caps i) :
    ∃ room out last, (starting table useHuffman parts).Finishes caps out last ∧
      ∀ n, room ≤ n → ((starting table useHuffman parts).encode n).1 = out ∧
        ((starting table useHuffman parts).encode n).2.table = last ∧
        ((starting table useHuffman parts).encode n).2.isFinished = true := by
  refine ⟨(starting table useHuffman parts).pending.1.length + 1, _, _,
    (starting table useHuffman parts).pending_finishes caps hcaps, fun n hn => ?_⟩
  obtain ⟨hone, hnext, -, hdone⟩ := (starting table useHuffman parts).encode_spec n (by omega)
  have hfinished := hdone.mpr (by omega)
  rw [pending_finished hfinished] at hnext
  refine ⟨?_, congrArg Prod.snd hnext, hfinished⟩
  rw [hone, take_of_length_le (by omega)]

/-- A block in buffers of one octet. -/
theorem HpackEncoder.encode_octet_by_octet :
    let e := starting (.withMaxSize 64) true
      { Parts.new with pseudo := { PseudoHeaders.new with path := some (str "/index") } }
    ∃ room out last, e.Finishes (fun _ => 1) out last ∧
      ∀ n, room ≤ n → (e.encode n).1 = out ∧ (e.encode n).2.table = last ∧
        (e.encode n).2.isFinished = true :=
  encode_any_buffers _ _ _ _ fun _ => one_pos

end YlongHttp
