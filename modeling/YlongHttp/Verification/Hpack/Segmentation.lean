import YlongHttp.Model.Hpack.Decoder
import YlongHttp.Verification.Huffman.Correctness

/-! # Header blocks may be cut anywhere

Each state machine of the representation decoder resumes: stopping at the end of a buffer
and going on from the saved state gives what the longer buffer would have given. So
`HpackDecoder::decode` may be called with the fragments of a block one after another. What it
decodes has cost it octets, and its errors are those of the compression. -/

namespace YlongHttp

open List HpackDecoder Library IntegerDecoder ResumesAt LiteralString
open Library (DecResult Resumes ResumesAt Resumable Takes)

/-! ## Integers -/

def IntegerDecoder.run : IntegerDecoder → Bytes → DecResult ℕ IntegerDecoder H2Error × Bytes
  | int, [] => (.needMore int, [])
  | int, byte :: buf =>
    match int.nextByte byte with
    | .ok (int, none) => IntegerDecoder.run int buf
    | .ok (_, some i) => (.decoded i, buf)
    | .error e => (.error e, [])

theorem integerDecoder_resumable : Resumable run := by
  intro int a
  induction a generalizing int with
  | nil => exact nil (s := int) rfl rfl
  | cons byte a ih =>
    cases hnext : int.nextByte byte with
    | error e =>
      refine cons (g := fun _ => (.error e, [])) ?_ (resumes_error e a)
      intro ys
      simp [run, hnext]
    | ok next =>
      obtain ⟨int', value⟩ := next
      cases value with
      | none =>
        refine cons (g := int'.run) ?_ (ih int')
        intro ys
        simp [run, hnext]
      | some i =>
        refine cons (g := fun buf => (.decoded i, buf)) ?_
          (resumes_decoded i a)
        intro ys
        simp [run, hnext]

theorem integerDecoder_takes (int : IntegerDecoder) : Takes 1 int.run := by
  intro a d r h
  induction a generalizing int with
  | nil => cases h
  | cons byte a ih =>
    simp only [run] at h
    simp only [length_cons]
    split at h
    · have := ih _ h
      omega
    · obtain ⟨-, rfl⟩ := Prod.mk.inj h
      omega
    · cases h

def HpackError (e : H2Error) : Prop := e = compressionError ∨ e = .connectionError .connectError

theorem integerDecoder_fails (int : IntegerDecoder) : Fails HpackError int.run := by
  intro a e r h
  induction a generalizing int with
  | nil => cases h
  | cons byte a ih =>
    simp only [run] at h
    split at h
    · exact ih _ h
    · cases h
    · rename_i e' hnext
      obtain ⟨he, -⟩ := Prod.mk.inj h
      obtain rfl := DecResult.error.inj he
      simp only [nextByte] at hnext
      split at hnext
      · cases hnext
        exact .inl rfl
      · cases hnext

theorem integerDecoder_parses (int : IntegerDecoder) : Parses run 1 HpackError int.run :=
  ⟨integerDecoder_resumable int, integerDecoder_takes int, integerDecoder_fails int⟩

/-! ## Indices -/

variable (repr : PrefixBit)

theorem decodeTrailingBytes_eq (index : IntegerDecoder) :
    decodeTrailingBytes repr index =
      andThen (.trailingBytes repr) (fun i buf => (.decoded (repr, i), buf))
        index.run := by
  funext buf
  induction buf generalizing index with
  | nil => rfl
  | cons byte buf ih =>
    simp only [decodeTrailingBytes, andThen, run]
    cases index.nextByte byte with
    | error e => rfl
    | ok next =>
      obtain ⟨index', value⟩ := next
      cases value with
      | none => exact ih index'
      | some i => rfl

theorem decodeTrailingBytes_parses (index : IntegerDecoder) :
    Parses IndexInner.decode 1 HpackError (decodeTrailingBytes repr index) := by
  rw [decodeTrailingBytes_eq]
  exact (integerDecoder_parses index).andThen (fun i => .decoded (repr, i))
    fun index' => decodeTrailingBytes_eq repr index'

theorem indexInner_parses (s : IndexInner) : Parses IndexInner.decode 1 HpackError s.decode := by
  cases s with
  | trailingBytes repr index => exact decodeTrailingBytes_parses repr index
  | firstByte =>
    refine .head (s := .firstByte) rfl rfl fun byte => ?_
    cases hfirst : firstByte byte (PrefixBit.fromU8 byte).prefixIndexMask with
    | ok i =>
      refine ⟨fun buf => (.decoded (PrefixBit.fromU8 byte, i), buf), fun buf => ?_, .decoded _⟩
      simp [IndexInner.decode, decodeFirstByte, hfirst]
    | error int =>
      refine ⟨decodeTrailingBytes (PrefixBit.fromU8 byte) int, fun buf => ?_,
        (decodeTrailingBytes_parses _ int).mono (Nat.zero_le 1)⟩
      simp [IndexInner.decode, decodeFirstByte, hfirst]

/-! ## Strings -/

variable (octets : Bytes)

theorem decodeAsciiStringBytes_resumes (length : ℕ) :
    Resumes LiteralString.decode (decodeAsciiStringBytes octets length) := by
  intro a
  by_cases hlen : length ≤ a.length + octets.length
  · have hpos : length - octets.length ≤ a.length := by omega
    refine ⟨?_, ?_, ?_⟩
    · intro s r h
      simp [decodeAsciiStringBytes, hlen] at h
    · intro d r h b
      have hlen' : length ≤ a.length + b.length + octets.length := by omega
      simp only [decodeAsciiStringBytes, hlen, dif_pos, Prod.mk.injEq, DecResult.decoded.injEq] at h
      obtain ⟨rfl, rfl⟩ := h
      simp [decodeAsciiStringBytes, hlen', take_append_of_le_length hpos,
        drop_append_of_le_length hpos]
    · intro e r h
      simp [decodeAsciiStringBytes, hlen] at h
  · refine ⟨?_, ?_, ?_⟩
    · intro s r h
      simp only [decodeAsciiStringBytes, hlen, dif_neg, not_false_eq_true, Prod.mk.injEq,
        DecResult.needMore.injEq] at h
      obtain ⟨rfl, rfl⟩ := h
      refine ⟨rfl, ?_⟩
      intro b
      simp only [LiteralString.decode, decodeAsciiStringBytes, length_append]
      have hsum : length ≤ a.length + b.length + octets.length ↔
          length ≤ b.length + (octets.length + a.length) := by omega
      by_cases hb : length ≤ a.length + b.length + octets.length
      · have hdrop : length - octets.length - a.length = length - (octets.length + a.length) := by
          omega
        rw [dif_pos hb, dif_pos (hsum.mp hb)]
        rw [take_append, drop_append, take_of_length_le (by omega),
          drop_of_length_le (by omega), hdrop]
        simp
      · rw [dif_neg hb, dif_neg (fun h => hb (hsum.mpr h))]
        simp
    · intro d r h
      simp [decodeAsciiStringBytes, hlen] at h
    · intro e r h
      simp [decodeAsciiStringBytes, hlen] at h

theorem decodeHuffmanStringBytes_resumes (huffman : HuffmanDecoder) (read length : ℕ) :
    Resumes LiteralString.decode (decodeHuffmanStringBytes huffman read length) := by
  intro a
  by_cases hlen : length ≤ a.length + read
  · -- The string ends inside `a`: what follows is not looked at.
    have hpos : length - read ≤ a.length := by omega
    have hlen' : ∀ b : Bytes, length ≤ a.length + b.length + read := by
      intro b
      omega
    simp only [ResumesAt, decodeHuffmanStringBytes, length_append, hlen, hlen', dif_pos,
      take_append_of_le_length hpos, drop_append_of_le_length hpos]
    cases huffman.decode (a.take (length - read)) with
    | none => simp
    | some h =>
      simp only
      cases h.finish <;> simp
  · cases hdec : huffman.decode a with
    | none =>
      refine ⟨?_, ?_, ?_⟩
      · intro s r h
        simp [decodeHuffmanStringBytes, hlen, hdec] at h
      · intro d r h
        simp [decodeHuffmanStringBytes, hlen, hdec] at h
      · intro e r h b
        obtain ⟨rfl, -⟩ : compressionError = e ∧ [] = r := by
          simpa [decodeHuffmanStringBytes, hlen, hdec] using h
        have hbad : ∀ c, huffman.decode (a ++ c) = none := by
          intro c
          rw [HuffmanDecoder.decode_append, hdec, Option.bind_none]
        simp only [decodeHuffmanStringBytes]
        rw [take_append, take_of_length_le (by omega), hbad, hbad]
        split <;> rfl
    | some h' =>
      refine ⟨?_, ?_, ?_⟩
      · intro s r h
        obtain ⟨rfl, rfl⟩ : huffmanStringBytes h' (read + a.length) length
            (by omega) = s ∧ [] = r := by
          simpa [decodeHuffmanStringBytes, hlen, hdec] using h
        refine ⟨rfl, ?_⟩
        intro b
        have hcat : ∀ c, huffman.decode (a ++ c) = h'.decode c := by
          intro c
          rw [HuffmanDecoder.decode_append, hdec, Option.bind_some]
        have hsum : length ≤ a.length + b.length + read ↔
            length ≤ b.length + (read + a.length) := by omega
        have hdrop : length - read - a.length = length - (read + a.length) := by omega
        simp only [LiteralString.decode, decodeHuffmanStringBytes, length_append]
        by_cases hb : length ≤ a.length + b.length + read
        · rw [dif_pos hb, dif_pos (hsum.mp hb), take_append, drop_append,
            take_of_length_le (by omega), drop_of_length_le (by omega), hdrop, hcat, nil_append]
        · rw [dif_neg hb, dif_neg (fun h => hb (hsum.mpr h)), hcat]
          simp only [← Nat.add_assoc]
      · intro d r h
        simp [decodeHuffmanStringBytes, hlen, hdec] at h
      · intro e r h
        simp [decodeHuffmanStringBytes, hlen, hdec] at h

theorem decodeAsciiStringBytes_parses (length : ℕ) :
    Parses LiteralString.decode (length - octets.length) HpackError
      (decodeAsciiStringBytes octets length) where
  resumes := decodeAsciiStringBytes_resumes octets length
  takes a d r h := by
    simp only [decodeAsciiStringBytes] at h
    split at h
    · obtain ⟨-, rfl⟩ := Prod.mk.inj h
      rw [length_drop]
      omega
    · cases h
  fails a e r h := by
    simp only [decodeAsciiStringBytes] at h
    split at h <;> cases h

theorem decodeHuffmanStringBytes_parses (huffman : HuffmanDecoder) (read length : ℕ) :
    Parses LiteralString.decode (length - read) HpackError
      (decodeHuffmanStringBytes huffman read length) where
  resumes := decodeHuffmanStringBytes_resumes huffman read length
  takes a d r h := by
    simp only [decodeHuffmanStringBytes] at h
    split at h
    · split at h
      · cases h
      · split at h
        · obtain ⟨-, rfl⟩ := Prod.mk.inj h
          rw [length_drop]
          omega
        · cases h
    · split at h <;> cases h
  fails a e r h := by
    simp only [decodeHuffmanStringBytes] at h
    split at h
    · split at h
      · cases h
        exact .inl rfl
      · split at h
        · cases h
        · cases h
          exact .inl rfl
    · split at h
      · cases h
        exact .inl rfl
      · cases h

variable (isHuffman : Bool)

theorem decodeStringBytes_parses (length : ℕ) :
    Parses LiteralString.decode 0 HpackError (decodeStringBytes isHuffman length) := by
  cases isHuffman with
  | false => exact (decodeAsciiStringBytes_parses [] length).mono (Nat.zero_le _)
  | true => exact (decodeHuffmanStringBytes_parses .new 0 length).mono (Nat.zero_le _)

theorem decodeLengthTrailingBytes_eq (length : IntegerDecoder) :
    decodeLengthTrailingBytes isHuffman length =
      andThen (.lengthTrailingBytes isHuffman) (decodeStringBytes isHuffman)
        length.run := by
  funext buf
  induction buf generalizing length with
  | nil => rfl
  | cons byte buf ih =>
    simp only [decodeLengthTrailingBytes, andThen, run]
    cases length.nextByte byte with
    | error e => rfl
    | ok next =>
      obtain ⟨length', value⟩ := next
      cases value with
      | none => exact ih length'
      | some i => rfl

theorem decodeLengthTrailingBytes_parses (length : IntegerDecoder) :
    Parses LiteralString.decode 1 HpackError (decodeLengthTrailingBytes isHuffman length) := by
  rw [decodeLengthTrailingBytes_eq]
  exact (integerDecoder_parses length).andThen (decodeStringBytes_parses isHuffman)
    fun length' => decodeLengthTrailingBytes_eq isHuffman length'

theorem literalString_parses (s : LiteralString) :
    Parses LiteralString.decode 1 HpackError s.decode := by
  cases s with
  | lengthTrailingBytes isHuffman length => exact decodeLengthTrailingBytes_parses isHuffman length
  | asciiStringBytes octets length lt =>
    exact (decodeAsciiStringBytes_parses octets length).mono (by omega)
  | huffmanStringBytes huffman read length lt =>
    exact (decodeHuffmanStringBytes_parses huffman read length).mono (by omega)
  | lengthFirstByte =>
    refine .head (s := .lengthFirstByte) rfl rfl fun byte => ?_
    cases hfirst : firstByte byte 0x7f with
    | ok length =>
      refine ⟨decodeStringBytes (byte &&& 0x80 = 0x80) length, fun buf => ?_,
        decodeStringBytes_parses _ length⟩
      simp [LiteralString.decode, decodeLengthFirstByte, hfirst]
    | error int =>
      refine ⟨decodeLengthTrailingBytes (byte &&& 0x80 = 0x80) int, fun buf => ?_,
        (decodeLengthTrailingBytes_parses _ int).mono (Nat.zero_le 1)⟩
      simp [LiteralString.decode, decodeLengthFirstByte, hfirst]

/-! ## Representations -/

theorem decodeValueString_eq (name : Name) (inner : LiteralString) :
    decodeValueString repr name inner =
      andThen (.valueString repr name)
        (fun value buf => (.decoded (literalOf repr name value), buf)) inner.decode := by
  funext buf
  simp only [decodeValueString, andThen]
  rcases inner.decode buf with ⟨_ | _ | _, rest⟩ <;> rfl

theorem decodeNameString_eq (inner : LiteralString) :
    decodeNameString repr inner =
      andThen (.nameString repr)
        (fun octets => decodeValueString repr (.literal octets) .lengthFirstByte)
        inner.decode := by
  funext buf
  simp only [decodeNameString, andThen]
  rcases inner.decode buf with ⟨_ | _ | _, rest⟩ <;> rfl

theorem decodeIndex_eq (inner : IndexInner) :
    decodeIndex inner =
      andThen .index (fun found => decodeAfterIndex found.1 found.2) inner.decode := by
  funext buf
  simp only [decodeIndex, andThen]
  rcases inner.decode buf with ⟨_ | _ | _, rest⟩ <;> rfl

theorem decodeValueString_parses (name : Name) (inner : LiteralString) :
    Parses ReprDecodeState.decode 1 HpackError (decodeValueString repr name inner) := by
  rw [decodeValueString_eq]
  exact (literalString_parses inner).andThen (fun value => .decoded (literalOf repr name value))
    fun inner' => decodeValueString_eq repr name inner'

theorem decodeNameString_parses (inner : LiteralString) :
    Parses ReprDecodeState.decode 2 HpackError (decodeNameString repr inner) := by
  rw [decodeNameString_eq]
  exact (literalString_parses inner).andThen
    (fun octets => decodeValueString_parses repr (.literal octets) .lengthFirstByte)
    fun inner' => decodeNameString_eq repr inner'

theorem decodeAfterIndex_parses (index : ℕ) :
    Parses ReprDecodeState.decode 0 HpackError (decodeAfterIndex repr index) := by
  rcases Nat.eq_zero_or_pos index with rfl | hpos
  · cases repr with
    | indexed => exact .error (.inl rfl)
    | sizeUpdate => exact .decoded (Representation.sizeUpdate 0)
    | literalWithIndexing | literalWithoutIndexing | literalNeverIndexed =>
      exact (decodeNameString_parses _ _).mono (Nat.zero_le 2)
  · obtain ⟨i, rfl⟩ : ∃ i, index = i + 1 := ⟨index - 1, by omega⟩
    cases repr with
    | indexed => exact .decoded (Representation.indexed (i + 1))
    | sizeUpdate => exact .decoded (Representation.sizeUpdate (i + 1))
    | literalWithIndexing | literalWithoutIndexing | literalNeverIndexed =>
      exact (decodeValueString_parses _ _ _).mono (Nat.zero_le 1)

theorem reprDecodeState_parses (s : ReprDecodeState) :
    Parses ReprDecodeState.decode 1 HpackError s.decode := by
  cases s with
  | valueString repr name inner => exact decodeValueString_parses repr name inner
  | nameString repr inner => exact (decodeNameString_parses repr inner).mono (Nat.le_succ 1)
  | index inner =>
    show Parses _ 1 _ (decodeIndex inner)
    rw [decodeIndex_eq]
    exact (indexInner_parses inner).andThen (fun found => decodeAfterIndex_parses found.1 found.2)
      fun inner' => decodeIndex_eq inner'

theorem reprDecodeState_consumes : Consumes ReprDecodeState.decode :=
  fun s => (reprDecodeState_parses s).takes

/-! ## Blocks -/

def HpackDecoder.idle (headerListSize : ℕ) (table : DynamicTable) : HpackDecoder :=
  { headerListSize, table, lines := { parts := .new, headerSize := 0 }, holder := none }

/-- The decoder between two buffers, as the loop of `decode` sees it. -/
def HpackDecoder.updater (self : HpackDecoder) : Updater :=
  { headerListSize := self.headerListSize, table := self.table, lines := self.lines }

variable (fuel : ℕ)

/-- The loop of `decode` with a given fuel. -/
def HpackDecoder.drive (updater : Updater) (state : Option ReprDecodeState) (buf : Bytes) :
    Updater × Option ReprDecodeState × Except (Fault H2Error) Unit :=
  Library.drive ReprDecodeState.decode (.index .firstByte) Fault.error Updater.update fuel
    updater state buf

theorem HpackDecoder.decodeLoop_eq_drive (updater : Updater) (state : Option ReprDecodeState)
    (buf : Bytes) (hfuel : buf.length < fuel) :
    (decodeLoop fuel updater { buf, state }).1 =
        (HpackDecoder.drive fuel updater state buf).1 ∧
      (decodeLoop fuel updater { buf, state }).2.2 =
        (HpackDecoder.drive fuel updater state buf).2.2 ∧
      ((HpackDecoder.drive fuel updater state buf).2.2 = .ok () →
        (decodeLoop fuel updater { buf, state }).2.1.state =
          (HpackDecoder.drive fuel updater state buf).2.1) := by
  induction fuel generalizing updater state buf with
  | zero => omega
  | succ fuel ih =>
    by_cases hbuf : buf = []
    · subst hbuf
      simp [decodeLoop, HpackDecoder.drive, Library.drive, ReprDecoder.decode]
    · simp only [decodeLoop, HpackDecoder.drive, Library.drive, ReprDecoder.decode, hbuf, if_false]
      cases hr : ReprDecodeState.decode (state.getD (.index .firstByte)) buf with
      | mk result rest =>
        cases result with
        | needMore s => simp
        | error e => simp
        | decoded repr =>
          have hlt := reprDecodeState_consumes _ _ _ _ hr
          simp only
          cases updater.update repr with
          | mk updater' res =>
            cases res with
            | error e => simp
            | ok u => exact ih updater' none rest (by omega)

variable (d : HpackDecoder)

theorem HpackDecoder.decode_eq_drive (buf : Bytes) (fuel : ℕ) (hfuel : buf.length ≤ fuel) :
    d.decode buf =
      match HpackDecoder.drive fuel d.updater d.holder buf with
      | (updater, state, .ok ()) =>
        ({ d with table := updater.table, lines := updater.lines, holder := state }, .ok ())
      | (updater, _, .error e) =>
        ({ d with table := updater.table, lines := updater.lines, holder := none }, .error e) := by
  obtain ⟨hup, hres, hst⟩ := decodeLoop_eq_drive (buf.length + 1) d.updater
    d.holder buf (by omega)
  have hdrive : drive fuel d.updater d.holder buf =
      drive (buf.length + 1) d.updater d.holder buf :=
    drive_fuel reprDecodeState_consumes fuel (buf.length + 1) _ _ _ hfuel (by omega)
  rw [hdrive]
  simp only [decode]
  rcases hloop : decodeLoop (buf.length + 1) d.updater
    { buf, state := d.holder } with ⟨updater, decoder, res⟩
  rcases hd : drive (buf.length + 1) d.updater d.holder buf with
    ⟨updater', state', res'⟩
  erw [hloop]
  rw [hloop, hd] at hup hres hst
  simp only at hup hres hst
  subst hup hres
  cases res with
  | error e => rfl
  | ok u =>
    obtain rfl := hst rfl
    rfl

theorem HpackDecoder.drive_append (updater : Updater) (state : Option ReprDecodeState) (a b : Bytes)
    (hfuel : (a ++ b).length ≤ fuel) :
    HpackDecoder.drive fuel updater state (a ++ b) =
      match HpackDecoder.drive fuel updater state a with
      | (updater', state', .ok ()) => HpackDecoder.drive fuel updater' state' b
      | (updater', state', .error e) => (updater', state', .error e) := by
  simp only [HpackDecoder.drive]
  rw [Library.drive_append (fun s => (reprDecodeState_parses s).resumes) reprDecodeState_consumes fuel updater state
    a b hfuel]
  rcases Library.drive ReprDecodeState.decode (.index .firstByte) Fault.error Updater.update fuel
    updater state a with ⟨updater', state', _ | _⟩ <;> rfl

theorem Updater.addLine_headerListSize (u : Updater) (table : DynamicTable) (h : Header)
    (v : Bytes) : (u.addLine table h v).1.headerListSize = u.headerListSize := by
  simp only [Updater.addLine]
  split
  · rfl
  · split <;> rfl

theorem Updater.update_headerListSize (u : Updater) (repr : Representation) :
    (u.update repr).1.headerListSize = u.headerListSize := by
  cases repr <;>
    simp only [Updater.update, Updater.updateIndexed, Updater.updateLiteralWithIndexing,
      Updater.updateLiteralWithoutIndexing] <;>
    split <;> first | rfl | exact u.addLine_headerListSize _ _ _

theorem HpackDecoder.drive_headerListSize (updater : Updater) (state : Option ReprDecodeState)
    (buf : Bytes) :
    (HpackDecoder.drive fuel updater state buf).1.headerListSize = updater.headerListSize := by
  refine drive_invariant
    (fun u => u.headerListSize = updater.headerListSize) ?_ fuel updater state buf rfl
  intro u repr hu
  rw [u.update_headerListSize, hu]

theorem HpackDecoder.decode_append (a b : Bytes) :
    d.decode (a ++ b) =
      match d.decode a with
      | (d', .ok ()) => d'.decode b
      | (d', .error e) => (d', .error e) := by
  have hlen : (a ++ b).length = a.length + b.length := length_append
  rw [d.decode_eq_drive (a ++ b) (a.length + b.length) hlen.le,
    d.decode_eq_drive a (a.length + b.length) (by omega), drive_append _ _ _ a b hlen.le]
  have hsize := drive_headerListSize (a.length + b.length) d.updater d.holder a
  rcases hd : drive (a.length + b.length) d.updater d.holder a with
    ⟨updater, state, res⟩
  rw [hd] at hsize
  cases res with
  | error e => rfl
  | ok u =>
    simp only
    rw [decode_eq_drive _ b (a.length + b.length) (by omega)]
    have hupdater : (mk d.headerListSize updater.table updater.lines
        state).updater = updater := by
      change { headerListSize := d.headerListSize, table := updater.table
               lines := updater.lines : Updater } = updater
      rw [show d.headerListSize = updater.headerListSize from hsize.symm]
    rw [hupdater]

/-! ## Whole blocks -/

theorem HpackDecoder.decode_nil : d.decode [] = (d, .ok ()) := by
  simp [decode, decodeLoop, ReprDecoder.decode]

/-- The calls of `HpackDecoder::decode` for the segments of a block, up to the first that fails. -/
def HpackDecoder.decodeSegments :
    HpackDecoder → List Bytes → HpackDecoder × Except (Fault H2Error) Unit
  | d, [] => (d, .ok ())
  | d, segment :: segments =>
    match d.decode segment with
    | (d', .ok ()) => d'.decodeSegments segments
    | (d', .error e) => (d', .error e)

/-- A block received in segments, `HpackDecoder::finish` called at its end. -/
def HpackDecoder.decodeBlock (segments : List Bytes) :
    HpackDecoder × Except (Fault H2Error) Parts :=
  match d.decodeSegments segments with
  | (d', .ok ()) => (d'.finish.1, d'.finish.2.mapError Fault.error)
  | (d', .error e) => (d', .error e)

theorem HpackDecoder.decodeSegments_eq (segments : List Bytes) :
    d.decodeSegments segments = d.decode segments.flatten := by
  induction segments generalizing d with
  | nil => rw [decodeSegments, flatten_nil, d.decode_nil]
  | cons segment segments ih =>
    rw [decodeSegments, flatten_cons, d.decode_append]
    split
    · rename_i d' hdecode
      exact ih d'
    · rfl

/-- Cutting a block into segments, empty ones included, changes neither what is decoded, nor
the table, nor the error: the decoder left and the result are those of a single call. -/
theorem hpack_block_segmentation (d : HpackDecoder) (segments : List Bytes) :
    d.decodeBlock segments = d.decodeBlock [segments.flatten] := by
  have hone : d.decodeSegments [segments.flatten] = d.decodeSegments segments := by
    rw [d.decodeSegments_eq, d.decodeSegments_eq, flatten_singleton]
  rw [decodeBlock, decodeBlock, hone]

end YlongHttp
