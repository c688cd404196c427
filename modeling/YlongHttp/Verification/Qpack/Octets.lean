import YlongHttp.Model.Qpack.Decoder
import YlongHttp.Verification.Hpack.Segmentation

/-! # The octets of QPACK instructions and field lines

Integers and strings are read as in HPACK, with another error. A decoded instruction or
representation takes at least one octet, so that the loops over a buffer come to its end. -/

namespace YlongHttp.Qpack

open List
open Library (DecResult Takes Consumes Parses Fails)

/-- The result of an HPACK decoder, its error as the QPACK one. -/
def failed {δ σ : Type} : DecResult δ σ H2Error × Bytes → DecResult δ σ QpackError × Bytes :=
  Library.mapError fun _ => decompressionFailed

/-! ### Indices -/

section Index

variable {π : Type} (fromU8 : UInt8 → π) (mask : π → UInt8) (midbit : UInt8 → π → MidBit)

theorem decodeTrailingBytes_eq (kind : π) (midBit : MidBit) (index : IntegerDecoder) :
    decodeTrailingBytes kind midBit index =
      Library.andThen (.trailingBytes kind midBit) (fun i buf => (.decoded (kind, midBit, i), buf))
        fun buf => failed (index.run buf) := by
  funext buf
  induction buf generalizing index with
  | nil => rfl
  | cons byte buf ih =>
    simp only [decodeTrailingBytes, Library.andThen, IntegerDecoder.run, nextByte]
    cases index.nextByte byte with
    | error e => rfl
    | ok next =>
      obtain ⟨index', value⟩ := next
      cases value with
      | none => exact ih index'
      | some i => rfl

theorem decodeTrailingBytes_parses (kind : π) (midBit : MidBit) (index : IntegerDecoder) :
    Parses (IndexInner.decode fromU8 mask midbit) 1 (· = decompressionFailed)
      (decodeTrailingBytes kind midBit index) := by
  rw [decodeTrailingBytes_eq]
  refine Parses.andThen (n := 0) ((integerDecoder_parses index).mapError fun _ _ => rfl) ?_ ?_
  · exact fun i => .decoded (kind, midBit, i)
  · exact fun index' => decodeTrailingBytes_eq kind midBit index'

theorem indexInner_parses (s : IndexInner π) :
    Parses (IndexInner.decode fromU8 mask midbit) 1 (· = decompressionFailed)
      (s.decode fromU8 mask midbit) := by
  cases s with
  | trailingBytes kind midBit index => exact decodeTrailingBytes_parses _ _ _ kind midBit index
  | firstByte =>
    refine .head (s := .firstByte) rfl rfl fun byte => ?_
    cases hfirst : IntegerDecoder.firstByte byte (mask (fromU8 byte)) with
    | ok i =>
      refine ⟨fun buf => (.decoded (fromU8 byte, midbit byte (fromU8 byte), i), buf),
        fun buf => ?_, .decoded _⟩
      simp [IndexInner.decode, decodeFirstByte, hfirst]
    | error int =>
      refine ⟨decodeTrailingBytes (fromU8 byte) (midbit byte (fromU8 byte)) int, fun buf => ?_,
        (decodeTrailingBytes_parses _ _ _ _ _ int).mono (Nat.zero_le 1)⟩
      simp [IndexInner.decode, decodeFirstByte, hfirst]

theorem indexInner_takes (s : IndexInner π) : Takes 1 (s.decode fromU8 mask midbit) :=
  (indexInner_parses fromU8 mask midbit s).takes

end Index

/-! ### Strings -/

theorem decodeAsciiStringBytes_eq (octets : Bytes) (length : ℕ) (buf : Bytes) :
    decodeAsciiStringBytes octets length buf =
      failed (YlongHttp.decodeAsciiStringBytes octets length buf) := by
  rw [decodeAsciiStringBytes, YlongHttp.decodeAsciiStringBytes]
  split <;> rfl

theorem decodeHuffmanStringBytes_eq (huffman : HuffmanDecoder) (read length : ℕ) (buf : Bytes) :
    decodeHuffmanStringBytes huffman read length buf =
      failed (YlongHttp.decodeHuffmanStringBytes huffman read length buf) := by
  simp only [decodeHuffmanStringBytes, YlongHttp.decodeHuffmanStringBytes]
  split
  · cases huffman.decode (buf.take (length - read)) with
    | none => rfl
    | some huffman' =>
      simp only
      cases huffman'.finish <;> rfl
  · cases huffman.decode buf <;> rfl

variable (isHuffman : Bool)

theorem decodeStringBytes_eq (length : ℕ) :
    decodeStringBytes isHuffman length =
      fun buf => failed (YlongHttp.decodeStringBytes isHuffman length buf) := by
  funext buf
  cases isHuffman with
  | false => exact decodeAsciiStringBytes_eq [] length buf
  | true => exact decodeHuffmanStringBytes_eq .new 0 length buf

theorem decodeStringBytes_takes (length : ℕ) : Takes 0 (decodeStringBytes isHuffman length) := by
  rw [decodeStringBytes_eq]
  exact (YlongHttp.decodeStringBytes_parses isHuffman length).takes.mapError _

theorem decodeLengthTrailingBytes_takes (length : IntegerDecoder) :
    Takes 1 (decodeLengthTrailingBytes isHuffman length) := by
  intro a d r h
  induction a generalizing length with
  | nil => cases h
  | cons byte a ih =>
    simp only [decodeLengthTrailingBytes] at h
    simp only [length_cons]
    split at h
    · cases h
    · split at h
      · have := ih _ h
        omega
      · have := decodeStringBytes_takes _ _ a d r h
        omega
      · cases h

theorem decodeLiteral_takes (s : LiteralString) : Takes 1 (decodeLiteral s) := by
  intro a d r h
  cases s with
  | lengthTrailingBytes isHuffman length =>
    exact decodeLengthTrailingBytes_takes isHuffman length a d r h
  | asciiStringBytes octets length lt =>
    rw [decodeLiteral, decodeAsciiStringBytes_eq] at h
    have := (decodeAsciiStringBytes_parses octets length).takes.mapError _ a d r h
    omega
  | huffmanStringBytes huffman read length lt =>
    rw [decodeLiteral, decodeHuffmanStringBytes_eq] at h
    have := (decodeHuffmanStringBytes_parses huffman read length).takes.mapError _ a d r h
    omega
  | lengthFirstByte =>
    cases a with
    | nil => cases h
    | cons byte a =>
      simp only [decodeLiteral, decodeLengthFirstByte] at h
      simp only [length_cons]
      split at h
      · have := decodeStringBytes_takes _ _ a d r h
        omega
      · have := decodeLengthTrailingBytes_takes _ _ a d r h
        omega

/-! ### Instructions -/

variable (inst : EncoderInstPrefixBit)

theorem decodeInstValueString_takes (midBit : MidBit) (name : Name) (inner : LiteralString) :
    Takes 1 (decodeInstValueString inst midBit name inner) := by
  intro a d r h
  rw [decodeInstValueString.eq_def] at h
  split at h
  · rename_i hval
    obtain ⟨-, rfl⟩ := Prod.mk.inj h
    exact decodeLiteral_takes inner _ _ _ hval
  · rename_i hval
    obtain ⟨-, rfl⟩ := Prod.mk.inj h
    exact decodeLiteral_takes inner _ _ _ hval
  · cases h

variable {f : Bytes → DecResult Bytes LiteralString QpackError × Bytes} {n : ℕ}

theorem decodeAfterInstName_takes (hf : Takes n f) (inst : EncoderInstPrefixBit) (midBit : MidBit) :
    Takes (n + 1) fun buf => decodeAfterInstName inst midBit (f buf) := by
  intro a d r h
  simp only [decodeAfterInstName] at h
  split at h
  · rename_i octets buf hname
    have hfirst := hf _ _ _ hname
    have hsec := decodeInstValueString_takes _ _ _ _ _ _ _ h
    omega
  · cases h
  · cases h

theorem decodeAfterInstIndex_takes (midBit : MidBit) (index : ℕ) :
    Takes 0 (decodeAfterInstIndex inst midBit index) := by
  intro a d r h
  cases inst with
  | setCap =>
    obtain ⟨-, rfl⟩ := Prod.mk.inj h
    exact le_rfl
  | insertWithIndex =>
    have := decodeInstValueString_takes _ _ _ _ _ _ _ h
    omega
  | insertWithLiteral =>
    have := decodeAfterInstName_takes (decodeStringBytes_takes _ _) _ _ _ _ _ h
    omega
  | duplicate =>
    obtain ⟨-, rfl⟩ := Prod.mk.inj h
    exact le_rfl

theorem instDecodeState_consumes : Consumes InstDecodeState.decode := by
  intro s a d r h
  cases s with
  | encInstIndex inner =>
    simp only [InstDecodeState.decode, decodeEncInstIndex] at h
    split at h
    · rename_i hidx
      have hfirst := indexInner_takes _ _ _ _ _ _ _ hidx
      have hsec := decodeAfterInstIndex_takes _ _ _ _ _ _ h
      omega
    · cases h
    · cases h
  | instValueString inst midBit name inner => exact decodeInstValueString_takes _ _ _ _ _ _ _ h
  | instNameAndValue inst midBit inner =>
    have := decodeAfterInstName_takes (decodeLiteral_takes inner) _ _ _ _ _ h
    omega

theorem decodeDecInst_takes : Takes 1 decodeDecInst := by
  intro a d r h
  simp only [decodeDecInst] at h
  split at h
  · rename_i hidx
    obtain ⟨-, rfl⟩ := Prod.mk.inj h
    exact indexInner_takes _ _ _ _ _ _ _ hidx
  · cases h
  · cases h

/-! ### Field lines -/

theorem prefixTrailingBytes_takes (index : IntegerDecoder) :
    Takes 1 (prefixTrailingBytes index) := by
  intro a d r h
  induction a generalizing index with
  | nil => cases h
  | cons byte a ih =>
    simp only [prefixTrailingBytes] at h
    simp only [length_cons]
    split at h
    · cases h
    · split at h
      · have := ih _ h
        omega
      · obtain ⟨-, rfl⟩ := Prod.mk.inj h
        omega
      · cases h

theorem prefixInteger_takes (byte mask : UInt8) : Takes 0 (prefixInteger byte mask) := by
  intro a d r h
  rw [prefixInteger] at h
  split at h
  · obtain ⟨-, rfl⟩ := Prod.mk.inj h
    exact le_rfl
  · have := prefixTrailingBytes_takes _ _ _ _ h
    omega

theorem decodeSectionPrefix_takes : Takes 2 decodeSectionPrefix := by
  intro a d r h
  cases a with
  | nil => cases h
  | cons byte a =>
    simp only [decodeSectionPrefix] at h
    split at h
    · cases h
    · cases h
    · cases h
    · rename_i ric byte' buf hric
      have hfirst := prefixInteger_takes _ _ _ _ _ hric
      split at h
      · cases h
      · split at h
        · cases h
        · cases h
        · rename_i hbase
          have hsec := prefixInteger_takes _ _ _ _ _ hbase
          obtain ⟨-, rfl⟩ := Prod.mk.inj h
          simp only [length_cons] at hfirst ⊢
          omega

variable (repr : ReprPrefixBit)

theorem decodeReprValueString_takes (midBit : MidBit) (name : Name) (inner : LiteralString) :
    Takes 1 (decodeReprValueString repr midBit name inner) := by
  intro a d r h
  have hval := decodeLiteral_takes inner a
  rw [decodeReprValueString.eq_def] at h
  split at h
  all_goals first
    | cases h; done
    | (rename_i hdecd
       obtain ⟨-, rfl⟩ := Prod.mk.inj h
       exact hval _ _ hdecd)

theorem decodeAfterReprName_takes (hf : Takes n f) (repr : ReprPrefixBit) (midBit : MidBit) :
    Takes (n + 1) fun buf => decodeAfterReprName repr midBit (f buf) := by
  intro a d r h
  simp only [decodeAfterReprName] at h
  split at h
  · rename_i octets buf hname
    have hfirst := hf _ _ _ hname
    have hsec := decodeReprValueString_takes _ _ _ _ _ _ _ h
    omega
  · cases h
  · cases h

theorem decodeAfterReprIndex_takes (midBit : MidBit) (index : ℕ) :
    Takes 0 (decodeAfterReprIndex repr midBit index) := by
  intro a d r h
  cases repr with
  | indexed | indexedWithPostIndex =>
    obtain ⟨-, rfl⟩ := Prod.mk.inj h
    exact le_rfl
  | literalWithIndexing | literalWithPostIndexing =>
    have := decodeReprValueString_takes _ _ _ _ _ _ _ h
    omega
  | literalWithLiteralName =>
    have := decodeAfterReprName_takes (decodeStringBytes_takes _ _) _ _ _ _ _ h
    omega

theorem reprDecodeState_consumes : Consumes ReprDecodeState.decode := by
  intro s a d r h
  cases s with
  | filedSectionPrefix =>
    have := decodeSectionPrefix_takes _ _ _ h
    omega
  | reprIndex inner =>
    simp only [ReprDecodeState.decode, decodeReprIndex] at h
    split at h
    · rename_i hidx
      have hfirst := indexInner_takes _ _ _ _ _ _ _ hidx
      have hsec := decodeAfterReprIndex_takes _ _ _ _ _ _ h
      omega
    · cases h
    · cases h
  | reprValueString repr midBit name inner => exact decodeReprValueString_takes _ _ _ _ _ _ _ h
  | reprNameAndValue repr midBit inner =>
    have := decodeAfterReprName_takes (decodeLiteral_takes inner) _ _ _ _ _ h
    omega

end YlongHttp.Qpack
