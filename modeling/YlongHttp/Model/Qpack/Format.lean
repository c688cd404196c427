import YlongHttp.Model.Hpack.Representation
import YlongHttp.Model.Qpack.Table

/-! # Decoding of QPACK instructions and representations (`h3/qpack/format/decoder.rs`)

As in HPACK, each state machine consumes the buffer it is given and, when the buffer ends
too early, answers with the state to go on from. The source counts the octets it has read;
here the rest of the buffer is returned. -/

namespace YlongHttp.Qpack

open Library (DecResult)

inductive ErrorCode where
  | decompressionFailed
  | encoderStreamError
  | decoderStreamError
  | h3SettingsError
deriving DecidableEq

inductive QpackError where
  | connectionError (code : ErrorCode)
  | streamBlocked
deriving DecidableEq

def decompressionFailed : QpackError := .connectionError .decompressionFailed

/-- `IntegerDecoder::next_byte`: the computation of HPACK, with another error. -/
def nextByte (index : IntegerDecoder) (byte : UInt8) :
    Except QpackError (IntegerDecoder × Option ℕ) :=
  match index.nextByte byte with
  | .ok next => .ok next
  | .error _ => .error decompressionFailed

/-- The bits `N`, `T` and `H` of the first octet, where the prefix has them. -/
structure MidBit where
  n : Option Bool
  t : Option Bool
  h : Option Bool
deriving DecidableEq

/-! ## Prefixes -/

inductive EncoderInstPrefixBit where
  | setCap
  | insertWithIndex
  | insertWithLiteral
  | duplicate
deriving DecidableEq

variable (byte : UInt8)

def EncoderInstPrefixBit.fromU8 : EncoderInstPrefixBit :=
  if byte ≥ 0x80 then .insertWithIndex
  else if byte ≥ 0x40 then .insertWithLiteral
  else if byte ≥ 0x20 then .setCap
  else .duplicate

def EncoderInstPrefixBit.prefixIndexMask : EncoderInstPrefixBit → UInt8
  | .insertWithIndex => 0x3f
  | .insertWithLiteral => 0x1f
  | .setCap => 0x1f
  | .duplicate => 0x1f

def EncoderInstPrefixBit.prefixMidbitValue : EncoderInstPrefixBit → MidBit
  | .insertWithIndex => { n := none, t := some (byte &&& 0x40 ≠ 0), h := none }
  | .insertWithLiteral => { n := none, t := none, h := some (byte &&& 0x20 ≠ 0) }
  | .setCap => { n := none, t := none, h := none }
  | .duplicate => { n := none, t := none, h := none }

inductive ReprPrefixBit where
  | indexed
  | indexedWithPostIndex
  | literalWithIndexing
  | literalWithPostIndexing
  | literalWithLiteralName
deriving DecidableEq

def ReprPrefixBit.fromU8 : ReprPrefixBit :=
  if byte ≥ 0x80 then .indexed
  else if byte ≥ 0x40 then .literalWithIndexing
  else if byte ≥ 0x20 then .literalWithLiteralName
  else if byte ≥ 0x10 then .indexedWithPostIndex
  else .literalWithPostIndexing

def ReprPrefixBit.prefixIndexMask : ReprPrefixBit → UInt8
  | .indexed => 0x3f
  | .literalWithIndexing => 0x0f
  | .literalWithLiteralName => 0x07
  | .indexedWithPostIndex => 0x0f
  | .literalWithPostIndexing => 0x07

def ReprPrefixBit.prefixMidbitValue : ReprPrefixBit → MidBit
  | .indexed => { n := none, t := some (byte &&& 0x40 ≠ 0), h := none }
  | .literalWithIndexing =>
    { n := some (byte &&& 0x20 ≠ 0), t := some (byte &&& 0x10 ≠ 0), h := none }
  | .literalWithLiteralName =>
    { n := some (byte &&& 0x10 ≠ 0), t := none, h := some (byte &&& 0x08 ≠ 0) }
  | .indexedWithPostIndex => { n := none, t := none, h := none }
  | .literalWithPostIndexing => { n := some (byte &&& 0x08 ≠ 0), t := none, h := none }

/-! ## The index of an instruction or a representation -/

section Index

/-- `InstIndexInner` and `ReprIndexInner`, which a macro of the source generates: `π` is the
type of the prefixes. -/
inductive IndexInner (π : Type) where
  | firstByte
  | trailingBytes (kind : π) (midBit : MidBit) (index : IntegerDecoder)
deriving DecidableEq

variable {π : Type} (fromU8 : UInt8 → π) (mask : π → UInt8) (midbit : UInt8 → π → MidBit)

/-- `InstTrailingBytes::decode`, `ReprTrailingBytes::decode`. -/
def decodeTrailingBytes (kind : π) (midBit : MidBit) :
    IntegerDecoder → Bytes → DecResult (π × MidBit × ℕ) (IndexInner π) QpackError × Bytes
  | index, [] => (.needMore (.trailingBytes kind midBit index), [])
  | index, byte :: buf =>
    match nextByte index byte with
    | .ok (index, none) => decodeTrailingBytes kind midBit index buf
    | .ok (_, some i) => (.decoded (kind, midBit, i), buf)
    | .error e => (.error e, [])

/-- `InstFirstByte::decode`, `ReprFirstByte::decode`. -/
def decodeFirstByte : Bytes → DecResult (π × MidBit × ℕ) (IndexInner π) QpackError × Bytes
  | [] => (.needMore .firstByte, [])
  | byte :: buf =>
    let kind := fromU8 byte
    let midBit := midbit byte kind
    match IntegerDecoder.firstByte byte (mask kind) with
    | .ok i => (.decoded (kind, midBit, i), buf)
    | .error int => decodeTrailingBytes kind midBit int buf

def IndexInner.decode : IndexInner π → Bytes →
    DecResult (π × MidBit × ℕ) (IndexInner π) QpackError × Bytes
  | .firstByte, buf => decodeFirstByte fromU8 mask midbit buf
  | .trailingBytes kind midBit index, buf => decodeTrailingBytes kind midBit index buf

end Index

/-! ## String literals -/

theorem octets_short {octets buf : Bytes} {length : ℕ} (h : ¬length ≤ buf.length + octets.length) :
    (octets ++ buf).length < length := by
  rw [List.length_append]
  omega

theorem read_short {read length : ℕ} {buf : Bytes} (h : ¬length ≤ buf.length + read) :
    read + buf.length < length := by
  omega

/-- `AsciiStringBytes::decode`. -/
def decodeAsciiStringBytes (octets : Bytes) (length : ℕ) (buf : Bytes) :
    DecResult Bytes LiteralString QpackError × Bytes :=
  if h : length ≤ buf.length + octets.length then
    let pos := length - octets.length
    (.decoded (octets ++ buf.take pos), buf.drop pos)
  else
    (.needMore (.asciiStringBytes (octets ++ buf) length (octets_short h)), [])

/-- `HuffmanStringBytes::decode`. -/
def decodeHuffmanStringBytes (huffman : HuffmanDecoder) (read length : ℕ) (buf : Bytes) :
    DecResult Bytes LiteralString QpackError × Bytes :=
  if h : length ≤ buf.length + read then
    let pos := length - read
    match huffman.decode (buf.take pos) with
    | none => (.error decompressionFailed, [])
    | some huffman =>
      match huffman.finish with
      | some vec => (.decoded vec, buf.drop pos)
      | none => (.error decompressionFailed, [])
  else
    match huffman.decode buf with
    | none => (.error decompressionFailed, [])
    | some huffman =>
      (.needMore (.huffmanStringBytes huffman (read + buf.length) length (read_short h)), [])

/-- The string octets, once their length is known. -/
def decodeStringBytes (isHuffman : Bool) (length : ℕ) (buf : Bytes) :
    DecResult Bytes LiteralString QpackError × Bytes :=
  if isHuffman then decodeHuffmanStringBytes .new 0 length buf
  else decodeAsciiStringBytes [] length buf

/-- `LengthTrailingBytes::decode`. It reads an octet only if another one follows, and
forgets the last one otherwise. -/
def decodeLengthTrailingBytes (isHuffman : Bool) :
    IntegerDecoder → Bytes → DecResult Bytes LiteralString QpackError × Bytes
  | length, [] => (.needMore (.lengthTrailingBytes isHuffman length), [])
  | length, byte :: buf =>
    if buf = [] then (.needMore (.lengthTrailingBytes isHuffman length), [])
    else
      match nextByte length byte with
      | .ok (length, none) => decodeLengthTrailingBytes isHuffman length buf
      | .ok (_, some length) => decodeStringBytes isHuffman length buf
      | .error e => (.error e, [])

/-- `LengthFirstByte::decode`. -/
def decodeLengthFirstByte : Bytes → DecResult Bytes LiteralString QpackError × Bytes
  | [] => (.needMore .lengthFirstByte, [])
  | byte :: buf =>
    let isHuffman : Bool := byte &&& 0x80 = 0x80
    match IntegerDecoder.firstByte byte 0x7f with
    | .ok length => decodeStringBytes isHuffman length buf
    | .error int => decodeLengthTrailingBytes isHuffman int buf

/-- `LiteralString::decode`. -/
def decodeLiteral : LiteralString → Bytes → DecResult Bytes LiteralString QpackError × Bytes
  | .lengthFirstByte, buf => decodeLengthFirstByte buf
  | .lengthTrailingBytes isHuffman length, buf => decodeLengthTrailingBytes isHuffman length buf
  | .asciiStringBytes octets length _, buf => decodeAsciiStringBytes octets length buf
  | .huffmanStringBytes huffman read length _, buf =>
    decodeHuffmanStringBytes huffman read length buf

/-! ## Encoder instructions -/

inductive EncoderInstruction where
  | setCap (capacity : ℕ)
  | insertWithIndex (midBit : MidBit) (name : Name) (value : Bytes)
  | insertWithLiteral (midBit : MidBit) (name : Name) (value : Bytes)
  | duplicate (index : ℕ)
deriving DecidableEq

/-- `InstDecodeState`. A name that is being read has its length already; no string is left
to begin in `EncInstIndex`, for `InstValueString` never asks for more. -/
inductive InstDecodeState where
  | encInstIndex (inner : IndexInner EncoderInstPrefixBit)
  | instValueString (inst : EncoderInstPrefixBit) (midBit : MidBit) (name : Name)
      (inner : LiteralString)
  | instNameAndValue (inst : EncoderInstPrefixBit) (midBit : MidBit) (inner : LiteralString)
deriving DecidableEq

variable (inst : EncoderInstPrefixBit)

/-- `InstValueString::decode`. A string that is not complete is an error. -/
def decodeInstValueString (midBit : MidBit) (name : Name) (inner : LiteralString) (buf : Bytes) :
    DecResult EncoderInstruction InstDecodeState QpackError × Bytes :=
  match inst, decodeLiteral inner buf with
  | .insertWithIndex, (.decoded value, buf) => (.decoded (.insertWithIndex midBit name value), buf)
  | .insertWithLiteral, (.decoded value, buf) =>
    (.decoded (.insertWithLiteral midBit name value), buf)
  | _, _ => (.error decompressionFailed, [])

/-- The name of `InstNameAndValue::new` and `ReprNameAndValue::new`, before its octets. -/
def decodeNameBytes (midBit : MidBit) (length : ℕ) (buf : Bytes) :
    DecResult Bytes LiteralString QpackError × Bytes :=
  decodeStringBytes (midBit.h = some true) length buf

/-- What follows the name of an insertion. -/
def decodeAfterInstName (midBit : MidBit) (name : DecResult Bytes LiteralString QpackError × Bytes) :
    DecResult EncoderInstruction InstDecodeState QpackError × Bytes :=
  match name with
  | (.decoded octets, buf) =>
    decodeInstValueString inst midBit (.literal octets) .lengthFirstByte buf
  | (.needMore inner, buf) => (.needMore (.instNameAndValue inst midBit inner), buf)
  | (.error e, buf) => (.error e, buf)

/-- What follows the index of an instruction. -/
def decodeAfterInstIndex (midBit : MidBit) (index : ℕ) (buf : Bytes) :
    DecResult EncoderInstruction InstDecodeState QpackError × Bytes :=
  match inst with
  | .setCap => (.decoded (.setCap index), buf)
  | .insertWithIndex =>
    decodeInstValueString .insertWithIndex midBit (.index index) .lengthFirstByte buf
  | .insertWithLiteral =>
    decodeAfterInstName .insertWithLiteral midBit (decodeNameBytes midBit index buf)
  | .duplicate => (.decoded (.duplicate index), buf)

/-- `EncInstIndex::decode`. -/
def decodeEncInstIndex (inner : IndexInner EncoderInstPrefixBit) (buf : Bytes) :
    DecResult EncoderInstruction InstDecodeState QpackError × Bytes :=
  match inner.decode EncoderInstPrefixBit.fromU8 EncoderInstPrefixBit.prefixIndexMask
      EncoderInstPrefixBit.prefixMidbitValue buf with
  | (.decoded (inst, midBit, index), buf) => decodeAfterInstIndex inst midBit index buf
  | (.needMore inner, buf) => (.needMore (.encInstIndex inner), buf)
  | (.error e, buf) => (.error e, buf)

def InstDecodeState.decode :
    InstDecodeState → Bytes → DecResult EncoderInstruction InstDecodeState QpackError × Bytes
  | .encInstIndex inner, buf => decodeEncInstIndex inner buf
  | .instValueString inst midBit name inner, buf => decodeInstValueString inst midBit name inner buf
  | .instNameAndValue inst midBit inner, buf =>
    decodeAfterInstName inst midBit (decodeLiteral inner buf)

/-! ## Field sections -/

inductive Representation where
  | fieldSectionPrefix (requireInsertCount : ℕ) (signal : Bool) (deltaBase : ℕ)
  | indexed (midBit : MidBit) (index : ℕ)
  | indexedWithPostIndex (index : ℕ)
  | literalWithIndexing (midBit : MidBit) (name : Name) (value : Bytes)
  | literalWithPostIndexing (midBit : MidBit) (name : Name) (value : Bytes)
  | literalWithLiteralName (midBit : MidBit) (name : Name) (value : Bytes)
deriving DecidableEq

inductive ReprDecodeState where
  | filedSectionPrefix
  | reprIndex (inner : IndexInner ReprPrefixBit)
  | reprValueString (repr : ReprPrefixBit) (midBit : MidBit) (name : Name)
      (inner : LiteralString)
  | reprNameAndValue (repr : ReprPrefixBit) (midBit : MidBit) (inner : LiteralString)
deriving DecidableEq

/-- The trailing octets of an integer of the prefix: each is read only if another one
follows. -/
def prefixTrailingBytes : IntegerDecoder → Bytes → DecResult ℕ Unit QpackError × Bytes
  | _, [] => (.needMore (), [])
  | index, byte :: buf =>
    if buf = [] then (.needMore (), [])
    else
      match nextByte index byte with
      | .ok (index, none) => prefixTrailingBytes index buf
      | .ok (_, some i) => (.decoded i, buf)
      | .error e => (.error e, [])

/-- An integer of the prefix, its first octet read already. -/
def prefixInteger (byte mask : UInt8) (buf : Bytes) : DecResult ℕ Unit QpackError × Bytes :=
  match IntegerDecoder.firstByte byte mask with
  | .ok i => (.decoded i, buf)
  | .error int => prefixTrailingBytes int buf

/-- `FSPTwoIntergers::decode`. Nothing that was read is kept when the buffer is too short,
and the buffer is too short unless an octet follows the prefix. -/
def decodeSectionPrefix : Bytes → DecResult Representation ReprDecodeState QpackError × Bytes
  | [] => (.needMore .filedSectionPrefix, [])
  | byte :: buf =>
    match prefixInteger byte 0xff buf with
    | (.needMore _, _) => (.needMore .filedSectionPrefix, [])
    | (.error e, _) => (.error e, [])
    | (.decoded _, []) => (.needMore .filedSectionPrefix, [])
    | (.decoded ric, byte :: buf) =>
      if buf = [] then (.needMore .filedSectionPrefix, [])
      else
        match prefixInteger byte 0x7f buf with
        | (.needMore _, _) => (.needMore .filedSectionPrefix, [])
        | (.error e, _) => (.error e, [])
        | (.decoded deltaBase, buf) =>
          (.decoded (.fieldSectionPrefix ric (byte &&& 0x80 ≠ 0) deltaBase), buf)

variable (repr : ReprPrefixBit)

/-- `ReprValueString::decode`. -/
def decodeReprValueString (midBit : MidBit) (name : Name) (inner : LiteralString) (buf : Bytes) :
    DecResult Representation ReprDecodeState QpackError × Bytes :=
  match repr, decodeLiteral inner buf with
  | .literalWithIndexing, (.decoded value, buf) =>
    (.decoded (.literalWithIndexing midBit name value), buf)
  | .literalWithPostIndexing, (.decoded value, buf) =>
    (.decoded (.literalWithPostIndexing midBit name value), buf)
  | .literalWithLiteralName, (.decoded value, buf) =>
    (.decoded (.literalWithLiteralName midBit name value), buf)
  | repr, (.needMore inner, buf) => (.needMore (.reprValueString repr midBit name inner), buf)
  | _, _ => (.error decompressionFailed, [])

/-- What follows the name of a field line. -/
def decodeAfterReprName (midBit : MidBit) (name : DecResult Bytes LiteralString QpackError × Bytes) :
    DecResult Representation ReprDecodeState QpackError × Bytes :=
  match name with
  | (.decoded octets, buf) =>
    decodeReprValueString repr midBit (.literal octets) .lengthFirstByte buf
  | (.needMore inner, buf) => (.needMore (.reprNameAndValue repr midBit inner), buf)
  | (.error e, buf) => (.error e, buf)

/-- What follows the index of a field line. -/
def decodeAfterReprIndex (midBit : MidBit) (index : ℕ) (buf : Bytes) :
    DecResult Representation ReprDecodeState QpackError × Bytes :=
  match repr with
  | .indexed => (.decoded (.indexed midBit index), buf)
  | .indexedWithPostIndex => (.decoded (.indexedWithPostIndex index), buf)
  | .literalWithIndexing =>
    decodeReprValueString .literalWithIndexing midBit (.index index) .lengthFirstByte buf
  | .literalWithPostIndexing =>
    decodeReprValueString .literalWithPostIndexing midBit (.index index) .lengthFirstByte buf
  | .literalWithLiteralName =>
    decodeAfterReprName .literalWithLiteralName midBit (decodeNameBytes midBit index buf)

/-- `ReprIndex::decode`. -/
def decodeReprIndex (inner : IndexInner ReprPrefixBit) (buf : Bytes) :
    DecResult Representation ReprDecodeState QpackError × Bytes :=
  match inner.decode ReprPrefixBit.fromU8 ReprPrefixBit.prefixIndexMask
      ReprPrefixBit.prefixMidbitValue buf with
  | (.decoded (repr, midBit, index), buf) => decodeAfterReprIndex repr midBit index buf
  | (.needMore inner, buf) => (.needMore (.reprIndex inner), buf)
  | (.error e, buf) => (.error e, buf)

def ReprDecodeState.decode :
    ReprDecodeState → Bytes → DecResult Representation ReprDecodeState QpackError × Bytes
  | .filedSectionPrefix, buf => decodeSectionPrefix buf
  | .reprIndex inner, buf => decodeReprIndex inner buf
  | .reprValueString repr midBit name inner, buf => decodeReprValueString repr midBit name inner buf
  | .reprNameAndValue repr midBit inner, buf =>
    decodeAfterReprName repr midBit (decodeLiteral inner buf)

/-! ## Decoder instructions -/

inductive DecoderInstruction where
  | ack (streamId : ℕ)
  | streamCancel (streamId : ℕ)
  | insertCountIncrement (increment : ℕ)
deriving DecidableEq

inductive DecoderInstPrefixBit where
  | ack
  | streamCancel
  | insertCountIncrement

/-- `from_u8`; the tests of the source leave no octet to its `unreachable!`. -/
def DecoderInstPrefixBit.fromU8 : DecoderInstPrefixBit :=
  if byte &&& 0x80 = 0x80 then .ack
  else if byte &&& 0xC0 = 0x40 then .streamCancel
  else .insertCountIncrement

def DecoderInstPrefixBit.prefixIndexMask : DecoderInstPrefixBit → UInt8
  | .ack => 0x7f
  | .streamCancel => 0x3f
  | .insertCountIncrement => 0x3f

def DecoderInstPrefixBit.instruction (index : ℕ) : DecoderInstPrefixBit → DecoderInstruction
  | .ack => .ack index
  | .streamCancel => .streamCancel index
  | .insertCountIncrement => .insertCountIncrement index

/-- `DecInstIndex::decode` on its initial state, the only one there is: an instruction that
is not complete is an error. -/
def decodeDecInst (buf : Bytes) : DecResult DecoderInstruction Empty QpackError × Bytes :=
  match (IndexInner.firstByte).decode DecoderInstPrefixBit.fromU8
      DecoderInstPrefixBit.prefixIndexMask (fun _ _ => { n := none, t := none, h := none }) buf with
  | (.decoded (inst, _, index), buf) => (.decoded (inst.instruction index), buf)
  | (.needMore _, _) => (.error (.connectionError .decoderStreamError), [])
  | (.error e, _) => (.error e, [])

end YlongHttp.Qpack
