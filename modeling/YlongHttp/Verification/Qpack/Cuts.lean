import YlongHttp.Library.ResumableExcept
import YlongHttp.Verification.Qpack.Octets

/-! # Where the encoder stream of QPACK may be cut

The states that are saved between two calls go on as if the octets had come at once. The value
of an insertion is not among them: where the octets end inside it, the instruction is refused. -/

namespace YlongHttp.Qpack

open Library (DecResult Takes Consumes Fails Resumes ResumesAt Resumable ResumesExcept)

variable {inner s : LiteralString} {length : ℕ} {a buf d r : Bytes} {isHuffman : Bool}
  {f : Bytes → DecResult Bytes LiteralString QpackError × Bytes}

/-! ## Names -/

/-- The length of the string has been read. -/
def LiteralString.InOctets : LiteralString → Prop
  | .asciiStringBytes _ _ _ | .huffmanStringBytes _ _ _ _ => True
  | .lengthFirstByte | .lengthTrailingBytes _ _ => False

theorem decodeLiteral_inOctets (h : LiteralString.InOctets inner) :
    decodeLiteral inner = fun buf => failed (inner.decode buf) := by
  funext buf
  cases inner with
  | lengthFirstByte => cases h
  | lengthTrailingBytes => cases h
  | asciiStringBytes octets length lt => exact decodeAsciiStringBytes_eq octets length buf
  | huffmanStringBytes huffman read length lt =>
    exact decodeHuffmanStringBytes_eq huffman read length buf

theorem decodeAsciiStringBytes_inOctets {octets : Bytes}
    (h : decodeAsciiStringBytes octets length buf = (.needMore s, r)) :
    LiteralString.InOctets s := by
  rw [decodeAsciiStringBytes] at h
  split at h
  · cases h
  · cases h
    trivial

theorem decodeHuffmanStringBytes_inOctets {huffman : HuffmanDecoder} {read : ℕ}
    (h : decodeHuffmanStringBytes huffman read length buf = (.needMore s, r)) :
    LiteralString.InOctets s := by
  simp only [decodeHuffmanStringBytes] at h
  split at h
  · split at h
    · cases h
    · split at h <;> cases h
  · split at h
    · cases h
    · cases h
      trivial

theorem resumesExcept_failed {f : Bytes → DecResult Bytes LiteralString H2Error × Bytes}
    {g : Bytes → DecResult Bytes LiteralString QpackError × Bytes}
    (hg : g = fun buf => failed (f buf)) (hf : Resumes LiteralString.decode f)
    (hgood : ∀ a s r, g a = (.needMore s, r) → LiteralString.InOctets s) :
    ResumesExcept LiteralString.InOctets (fun _ => False) decodeLiteral g := by
  intro a
  have hmap := hf.mapError (fun _ => decompressionFailed) a
  rw [show (fun buf => Library.mapError (fun _ => decompressionFailed) (f buf)) = g from hg.symm]
    at hmap
  obtain ⟨hmore, hdone, herr⟩ := hmap
  refine ⟨fun s r h => ?_, hdone, fun e r h b => .inl (herr e r h b)⟩
  obtain ⟨hr, happ⟩ := hmore s r h
  have hinner := hgood a s r h
  refine ⟨hr, hinner, fun b => ?_⟩
  rw [happ b, decodeLiteral_inOctets hinner]
  rfl

theorem decodeLiteral_resumes (h : LiteralString.InOctets inner) :
    ResumesExcept LiteralString.InOctets (fun _ => False) decodeLiteral (decodeLiteral inner) := by
  refine resumesExcept_failed (decodeLiteral_inOctets h) (literalString_parses inner).resumes
    fun a s r hmore => ?_
  cases inner with
  | lengthFirstByte => cases h
  | lengthTrailingBytes => cases h
  | asciiStringBytes octets length lt => exact decodeAsciiStringBytes_inOctets hmore
  | huffmanStringBytes huffman read length lt => exact decodeHuffmanStringBytes_inOctets hmore

theorem decodeStringBytes_resumes (isHuffman : Bool) (length : ℕ) :
    ResumesExcept LiteralString.InOctets (fun _ => False) decodeLiteral
      (decodeStringBytes isHuffman length) := by
  refine resumesExcept_failed (decodeStringBytes_eq isHuffman length)
    (YlongHttp.decodeStringBytes_parses isHuffman length).resumes fun a s r hmore => ?_
  cases isHuffman with
  | false => exact decodeAsciiStringBytes_inOctets hmore
  | true => exact decodeHuffmanStringBytes_inOctets hmore

/-! ## Values -/

variable (b : Bytes)

theorem decodeStringBytes_decoded (h : decodeStringBytes isHuffman length a = (.decoded d, r)) :
    decodeStringBytes isHuffman length (a ++ b) = (.decoded d, r ++ b) :=
  (decodeStringBytes_resumes isHuffman length a).2.1 d r h b

theorem decodeLengthTrailingBytes_decoded {length : IntegerDecoder}
    (h : decodeLengthTrailingBytes isHuffman length a = (.decoded d, r)) :
    decodeLengthTrailingBytes isHuffman length (a ++ b) = (.decoded d, r ++ b) := by
  induction a generalizing length with
  | nil => cases h
  | cons byte a ih =>
    rw [decodeLengthTrailingBytes] at h
    rw [List.cons_append, decodeLengthTrailingBytes]
    split at h
    · cases h
    · rename_i ha
      rw [if_neg (by simp [ha])]
      rcases hnext : nextByte length byte with e | ⟨length', _ | i⟩
      · simp [hnext] at h
      · simp only [hnext] at h ⊢
        exact ih h
      · simp only [hnext] at h ⊢
        exact decodeStringBytes_decoded b h

theorem decodeLiteral_decoded (h : decodeLiteral inner a = (.decoded d, r)) :
    decodeLiteral inner (a ++ b) = (.decoded d, r ++ b) := by
  cases inner with
  | lengthTrailingBytes isHuffman length => exact decodeLengthTrailingBytes_decoded b h
  | asciiStringBytes octets length lt =>
    exact (decodeLiteral_resumes (show LiteralString.InOctets (.asciiStringBytes octets length lt)
      from trivial) a).2.1 d r h b
  | huffmanStringBytes huffman read length lt =>
    exact (decodeLiteral_resumes (show LiteralString.InOctets
      (.huffmanStringBytes huffman read length lt) from trivial) a).2.1 d r h b
  | lengthFirstByte =>
    cases a with
    | nil => cases h
    | cons byte a =>
      simp only [decodeLiteral, decodeLengthFirstByte, List.cons_append] at h ⊢
      cases hfirst : IntegerDecoder.firstByte byte 0x7f with
      | ok length =>
        simp only [hfirst] at h ⊢
        exact decodeStringBytes_decoded b h
      | error int =>
        simp only [hfirst] at h ⊢
        exact decodeLengthTrailingBytes_decoded b h

/-! ## The encoder stream -/

/-- The instructions that carry a value of their own. -/
def EncoderInstruction.isInsertion : EncoderInstruction → Bool
  | .insertWithIndex _ _ _ | .insertWithLiteral _ _ _ => true
  | .setCap _ | .duplicate _ => false

/-- The states that a call may leave: an index or the octets of a name are still to come. -/
def InstDecodeState.Between : InstDecodeState → Prop
  | .encInstIndex _ => True
  | .instNameAndValue _ _ inner => LiteralString.InOctets inner
  | .instValueString _ _ _ _ => False

variable (inst : EncoderInstPrefixBit)

theorem decodeInstValueString_cases (midBit : MidBit) (name : Name) (inner : LiteralString)
    (buf : Bytes) :
    (∃ d r value, decodeInstValueString inst midBit name inner buf = (.decoded d, r) ∧
        d.isInsertion = true ∧ decodeLiteral inner buf = (.decoded value, r)) ∨
      decodeInstValueString inst midBit name inner buf = (.error decompressionFailed, []) := by
  rw [decodeInstValueString.eq_def]
  split
  · rename_i hval
    exact .inl ⟨_, _, _, rfl, rfl, hval⟩
  · rename_i hval
    exact .inl ⟨_, _, _, rfl, rfl, hval⟩
  · exact .inr rfl

theorem decodeInstValueString_resumes (midBit : MidBit) (name : Name) (inner : LiteralString) :
    ResumesExcept InstDecodeState.Between (fun d => d.isInsertion = true) InstDecodeState.decode
      (decodeInstValueString inst midBit name inner) := by
  intro a
  rcases decodeInstValueString_cases inst midBit name inner a with
    ⟨d, r, value, ha, -, hval⟩ | ha
  · refine ⟨?_, ?_, ?_⟩
    · intro s r' h
      rw [ha] at h
      cases h
    · intro d' r' h b
      have happ := decodeLiteral_decoded b hval
      rw [ha] at h
      cases h
      rw [decodeInstValueString.eq_def] at ha ⊢
      rw [hval] at ha
      rw [happ]
      cases inst <;> simp_all
    · intro e r' h
      rw [ha] at h
      cases h
  · refine ⟨?_, ?_, ?_⟩
    · intro s r' h
      rw [ha] at h
      cases h
    · intro d' r' h
      rw [ha] at h
      cases h
    · intro e r' h b
      rw [ha] at h
      cases h
      rcases decodeInstValueString_cases inst midBit name inner (a ++ b) with
        ⟨d, r, value, hab, hinsertion, -⟩ | hab
      · exact .inr ⟨d, r, hab, hinsertion⟩
      · exact .inl (by rw [hab])

abbrev InstResumes (f : Bytes → DecResult EncoderInstruction InstDecodeState QpackError × Bytes) :
    Prop :=
  ResumesExcept InstDecodeState.Between (fun d => d.isInsertion = true) InstDecodeState.decode f

theorem decodeAfterInstName_eq (midBit : MidBit)
    (f : Bytes → DecResult Bytes LiteralString QpackError × Bytes) :
    (fun buf => decodeAfterInstName inst midBit (f buf)) =
      Library.andThen (.instNameAndValue inst midBit)
        (fun octets => decodeInstValueString inst midBit (.literal octets) .lengthFirstByte) f := by
  funext buf
  simp only [decodeAfterInstName, Library.andThen]
  rcases f buf with ⟨_ | _ | _, rest⟩ <;> rfl

theorem decodeAfterInstName_resumes (midBit : MidBit)
    (hf : ResumesExcept LiteralString.InOctets (fun _ => False) decodeLiteral f) :
    InstResumes fun buf => decodeAfterInstName inst midBit (f buf) := by
  rw [decodeAfterInstName_eq]
  refine hf.andThen (fun octets => decodeInstValueString_resumes inst midBit _ _) fun inner hinner =>
    ⟨hinner, ?_⟩
  exact decodeAfterInstName_eq inst midBit (decodeLiteral inner)

theorem decodeAfterInstIndex_resumes (midBit : MidBit) (index : ℕ) :
    InstResumes (decodeAfterInstIndex inst midBit index) := by
  have hdecd : ∀ d, InstResumes fun buf => (.decoded d, buf) := fun d a =>
    ⟨(fun _ _ h => nomatch h), fun d' r h b => by cases h; rfl, (fun _ _ h => nomatch h)⟩
  cases inst with
  | setCap => exact hdecd (.setCap index)
  | duplicate => exact hdecd (.duplicate index)
  | insertWithIndex => exact decodeInstValueString_resumes _ _ _ _
  | insertWithLiteral => exact decodeAfterInstName_resumes _ _ (decodeStringBytes_resumes _ index)

theorem decodeEncInstIndex_eq (inner : IndexInner EncoderInstPrefixBit) :
    decodeEncInstIndex inner =
      Library.andThen .encInstIndex (fun found => decodeAfterInstIndex found.1 found.2.1 found.2.2)
        (inner.decode EncoderInstPrefixBit.fromU8 EncoderInstPrefixBit.prefixIndexMask
          EncoderInstPrefixBit.prefixMidbitValue) := by
  funext buf
  simp only [decodeEncInstIndex, Library.andThen]
  rcases inner.decode EncoderInstPrefixBit.fromU8 EncoderInstPrefixBit.prefixIndexMask
    EncoderInstPrefixBit.prefixMidbitValue buf with ⟨_ | _ | _, rest⟩ <;> rfl

theorem instDecodeState_resumes (s : InstDecodeState) (h : s.Between) : InstResumes s.decode := by
  cases s with
  | instValueString inst midBit name inner => cases h
  | instNameAndValue inst midBit inner =>
    exact decodeAfterInstName_resumes inst midBit (decodeLiteral_resumes h)
  | encInstIndex inner =>
    change InstResumes (decodeEncInstIndex inner)
    rw [decodeEncInstIndex_eq]
    refine ResumesExcept.andThen (indexInner_parses _ _ _ inner).resumes.except
      (fun found => decodeAfterInstIndex_resumes _ _ _) fun inner' _ => ⟨trivial, ?_⟩
    exact decodeEncInstIndex_eq inner'

theorem instDecodeState_insertion (s : InstDecodeState) (h : s.Between) (a : Bytes)
    (d : EncoderInstruction) (r : Bytes) (hd : s.decode a = (.decoded d, r))
    (hinsertion : d.isInsertion = true) : r.length + 2 ≤ a.length := by
  cases s with
  | instValueString inst midBit name inner => cases h
  | instNameAndValue inst midBit inner =>
    exact decodeAfterInstName_takes (decodeLiteral_takes inner) inst midBit a d r hd
  | encInstIndex inner =>
    simp only [InstDecodeState.decode, decodeEncInstIndex] at hd
    split at hd
    · rename_i inst midBit index buf hidx
      have hfirst := indexInner_takes _ _ _ _ _ _ _ hidx
      have hsec : r.length + 1 ≤ buf.length := by
        cases inst with
        | setCap | duplicate =>
          cases hd
          cases hinsertion
        | insertWithIndex => exact decodeInstValueString_takes _ _ _ _ _ _ _ hd
        | insertWithLiteral =>
          have := decodeAfterInstName_takes (decodeStringBytes_takes _ _) _ _ _ _ _ hd
          omega
      omega
    · cases hd
    · cases hd

/-! ### Errors -/

theorem failed_fails {δ σ : Type} (f : Bytes → DecResult δ σ H2Error × Bytes) :
    Fails (· = decompressionFailed) fun buf => failed (f buf) :=
  Fails.mapError (fun _ _ => rfl) (fun _ _ _ _ => trivial : Fails (fun _ => True) f)

theorem decodeInstValueString_fails (midBit : MidBit) (name : Name) (inner : LiteralString) :
    Fails (· = decompressionFailed) (decodeInstValueString inst midBit name inner) := by
  intro a e r h
  rcases decodeInstValueString_cases inst midBit name inner a with ⟨d, r', value, ha, -⟩ | ha
  · rw [ha] at h
    cases h
  · rw [ha] at h
    cases h
    rfl

theorem decodeAfterInstName_fails (midBit : MidBit) (hf : Fails (· = decompressionFailed) f) :
    Fails (· = decompressionFailed) fun buf => decodeAfterInstName inst midBit (f buf) := by
  rw [decodeAfterInstName_eq]
  exact hf.andThen fun octets => decodeInstValueString_fails _ _ _ _

theorem instDecodeState_fails (s : InstDecodeState) (h : s.Between) :
    Fails (· = decompressionFailed) s.decode := by
  cases s with
  | instValueString inst midBit name inner => cases h
  | instNameAndValue inst midBit inner =>
    refine decodeAfterInstName_fails inst midBit ?_
    rw [decodeLiteral_inOctets h]
    exact failed_fails _
  | encInstIndex inner =>
    change Fails _ (decodeEncInstIndex inner)
    rw [decodeEncInstIndex_eq]
    refine (indexInner_parses _ _ _ inner).fails.andThen fun found => ?_
    obtain ⟨inst, midBit, index⟩ := found
    cases inst with
    | setCap | duplicate => exact fun _ _ _ h => nomatch h
    | insertWithIndex => exact decodeInstValueString_fails _ _ _ _
    | insertWithLiteral =>
      refine decodeAfterInstName_fails _ _ ?_
      rw [show decodeNameBytes midBit index = _ from decodeStringBytes_eq _ index]
      exact failed_fails _

end YlongHttp.Qpack
