import YlongHttp.Library.Resumable
import YlongHttp.Model.Hpack.Integer
import YlongHttp.Model.Huffman.Codec

/-! # Decoding of representations (`h2/hpack/representation/decoder.rs`)

The decoder is a stack of small state machines. Each consumes the buffer it is given
and, when the buffer ends too early, answers with the state to go on from. Nothing reads
the buffer after an error, so that an error leaves none of it. -/

namespace YlongHttp

open Library (DecResult)

inductive PrefixBit where
  | indexed
  | literalWithIndexing
  | sizeUpdate
  | literalNeverIndexed
  | literalWithoutIndexing
deriving DecidableEq

def PrefixBit.fromU8 (byte : UInt8) : PrefixBit :=
  if byte ≥ 0x80 then .indexed
  else if byte ≥ 0x40 then .literalWithIndexing
  else if byte ≥ 0x20 then .sizeUpdate
  else if byte ≥ 0x10 then .literalNeverIndexed
  else .literalWithoutIndexing

def PrefixBit.prefixIndexMask : PrefixBit → UInt8
  | .indexed => 0x7f
  | .literalWithIndexing => 0x3f
  | .sizeUpdate => 0x1f
  | .literalNeverIndexed => 0x0f
  | .literalWithoutIndexing => 0x0f

inductive Name where
  | index (i : ℕ)
  | literal (octets : Bytes)
deriving DecidableEq

inductive Representation where
  | indexed (index : ℕ)
  | literalWithIndexing (name : Name) (value : Bytes)
  | literalWithoutIndexing (name : Name) (value : Bytes)
  | literalNeverIndexed (name : Name) (value : Bytes)
  | sizeUpdate (maxSize : ℕ)
deriving DecidableEq

/-! ## The index of a representation -/

inductive IndexInner where
  | firstByte
  | trailingBytes (repr : PrefixBit) (index : IntegerDecoder)
deriving DecidableEq

/-- `TrailingBytes::decode`. -/
def decodeTrailingBytes (repr : PrefixBit) :
    IntegerDecoder → Bytes → DecResult (PrefixBit × ℕ) IndexInner H2Error × Bytes
  | index, [] => (.needMore (.trailingBytes repr index), [])
  | index, byte :: buf =>
    match index.nextByte byte with
    | .ok (index, none) => decodeTrailingBytes repr index buf
    | .ok (_, some i) => (.decoded (repr, i), buf)
    | .error e => (.error e, [])

/-- `FirstByte::decode`. -/
def decodeFirstByte : Bytes → DecResult (PrefixBit × ℕ) IndexInner H2Error × Bytes
  | [] => (.needMore .firstByte, [])
  | byte :: buf =>
    let repr := PrefixBit.fromU8 byte
    match IntegerDecoder.firstByte byte repr.prefixIndexMask with
    | .ok i => (.decoded (repr, i), buf)
    | .error int => decodeTrailingBytes repr int buf

def IndexInner.decode : IndexInner → Bytes → DecResult (PrefixBit × ℕ) IndexInner H2Error × Bytes
  | .firstByte, buf => decodeFirstByte buf
  | .trailingBytes repr index, buf => decodeTrailingBytes repr index buf

/-! ## String literals -/

/-- A string whose octets are being read lacks at least one of them. -/
inductive LiteralString where
  | lengthFirstByte
  | lengthTrailingBytes (isHuffman : Bool) (length : IntegerDecoder)
  | asciiStringBytes (octets : Bytes) (length : ℕ) (lt : octets.length < length)
  | huffmanStringBytes (huffman : HuffmanDecoder) (read length : ℕ) (lt : read < length)
deriving DecidableEq

def compressionError : H2Error := .connectionError .compressionError

/-- `AsciiStringBytes::decode`. -/
def decodeAsciiStringBytes (octets : Bytes) (length : ℕ) (buf : Bytes) :
    DecResult Bytes LiteralString H2Error × Bytes :=
  if h : length ≤ buf.length + octets.length then
    let pos := length - octets.length
    (.decoded (octets ++ buf.take pos), buf.drop pos)
  else
    (.needMore (.asciiStringBytes (octets ++ buf) length
      (by rw [List.length_append]; omega)), [])

/-- `HuffmanStringBytes::decode`. -/
def decodeHuffmanStringBytes (huffman : HuffmanDecoder) (read length : ℕ) (buf : Bytes) :
    DecResult Bytes LiteralString H2Error × Bytes :=
  if h : length ≤ buf.length + read then
    let pos := length - read
    match huffman.decode (buf.take pos) with
    | none => (.error compressionError, [])
    | some huffman =>
      match huffman.finish with
      | some vec => (.decoded vec, buf.drop pos)
      | none => (.error compressionError, [])
  else
    match huffman.decode buf with
    | none => (.error compressionError, [])
    | some huffman =>
      (.needMore (.huffmanStringBytes huffman (read + buf.length) length (by omega)), [])

/-- The string octets, once their length is known. -/
def decodeStringBytes (isHuffman : Bool) (length : ℕ) (buf : Bytes) :
    DecResult Bytes LiteralString H2Error × Bytes :=
  if isHuffman then decodeHuffmanStringBytes .new 0 length buf
  else decodeAsciiStringBytes [] length buf

/-- `LengthTrailingBytes::decode`. -/
def decodeLengthTrailingBytes (isHuffman : Bool) :
    IntegerDecoder → Bytes → DecResult Bytes LiteralString H2Error × Bytes
  | length, [] => (.needMore (.lengthTrailingBytes isHuffman length), [])
  | length, byte :: buf =>
    match length.nextByte byte with
    | .ok (length, none) => decodeLengthTrailingBytes isHuffman length buf
    | .ok (_, some length) => decodeStringBytes isHuffman length buf
    | .error e => (.error e, [])

/-- `LengthFirstByte::decode`. -/
def decodeLengthFirstByte : Bytes → DecResult Bytes LiteralString H2Error × Bytes
  | [] => (.needMore .lengthFirstByte, [])
  | byte :: buf =>
    let isHuffman : Bool := byte &&& 0x80 = 0x80
    match IntegerDecoder.firstByte byte 0x7f with
    | .ok length => decodeStringBytes isHuffman length buf
    | .error int => decodeLengthTrailingBytes isHuffman int buf

def LiteralString.decode : LiteralString → Bytes → DecResult Bytes LiteralString H2Error × Bytes
  | .lengthFirstByte, buf => decodeLengthFirstByte buf
  | .lengthTrailingBytes isHuffman length, buf => decodeLengthTrailingBytes isHuffman length buf
  | .asciiStringBytes octets length _, buf => decodeAsciiStringBytes octets length buf
  | .huffmanStringBytes huffman read length _, buf =>
    decodeHuffmanStringBytes huffman read length buf

/-! ## Representations -/

inductive ReprDecodeState where
  | index (inner : IndexInner)
  | nameString (repr : PrefixBit) (inner : LiteralString)
  | valueString (repr : PrefixBit) (name : Name) (inner : LiteralString)
deriving DecidableEq

variable (repr : PrefixBit)

/-- The representation a decoded value string completes. -/
def literalOf (name : Name) (value : Bytes) : Representation :=
  match repr with
  | .literalWithIndexing => .literalWithIndexing name value
  | .literalWithoutIndexing => .literalWithoutIndexing name value
  | _ => .literalNeverIndexed name value

/-- `ValueString::decode`. -/
def decodeValueString (name : Name) (inner : LiteralString) (buf : Bytes) :
    DecResult Representation ReprDecodeState H2Error × Bytes :=
  match inner.decode buf with
  | (.decoded value, buf) => (.decoded (literalOf repr name value), buf)
  | (.needMore inner, buf) => (.needMore (.valueString repr name inner), buf)
  | (.error e, buf) => (.error e, buf)

/-- `NameString::decode`. -/
def decodeNameString (inner : LiteralString) (buf : Bytes) :
    DecResult Representation ReprDecodeState H2Error × Bytes :=
  match inner.decode buf with
  | (.decoded octets, buf) => decodeValueString repr (.literal octets) .lengthFirstByte buf
  | (.needMore inner, buf) => (.needMore (.nameString repr inner), buf)
  | (.error e, buf) => (.error e, buf)

/-- What follows the index of a representation. -/
def decodeAfterIndex (index : ℕ) (buf : Bytes) :
    DecResult Representation ReprDecodeState H2Error × Bytes :=
  match repr, index with
  | .indexed, 0 => (.error compressionError, [])
  | .indexed, index => (.decoded (.indexed index), buf)
  | .sizeUpdate, maxSize => (.decoded (.sizeUpdate maxSize), buf)
  | repr, 0 => decodeNameString repr .lengthFirstByte buf
  | repr, index => decodeValueString repr (.index index) .lengthFirstByte buf

/-- `Index::decode`. -/
def decodeIndex (inner : IndexInner) (buf : Bytes) :
    DecResult Representation ReprDecodeState H2Error × Bytes :=
  match inner.decode buf with
  | (.decoded (repr, index), buf) => decodeAfterIndex repr index buf
  | (.needMore inner, buf) => (.needMore (.index inner), buf)
  | (.error e, buf) => (.error e, buf)

def ReprDecodeState.decode :
    ReprDecodeState → Bytes → DecResult Representation ReprDecodeState H2Error × Bytes
  | .index inner, buf => decodeIndex inner buf
  | .nameString repr inner, buf => decodeNameString repr inner buf
  | .valueString repr name inner, buf => decodeValueString repr name inner buf

structure ReprDecoder where
  buf : Bytes
  state : Option ReprDecodeState

/-- `ReprDecoder::decode`, with the decoder after it. -/
def ReprDecoder.decode (self : ReprDecoder) :
    ReprDecoder × Except H2Error (Option Representation) :=
  if self.buf = [] then (self, .ok none)
  else
    match (self.state.getD (.index .firstByte)).decode self.buf with
    | (.needMore state, buf) => ({ buf, state := some state }, .ok none)
    | (.decoded repr, buf) => ({ buf, state := none }, .ok (some repr))
    | (.error e, buf) => ({ buf, state := none }, .error e)

end YlongHttp
