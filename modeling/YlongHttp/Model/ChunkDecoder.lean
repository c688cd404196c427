import YlongHttp.Model.ChunkBody

/-! # The decoder of chunked bodies (`body/chunk.rs`) -/

namespace YlongHttp.Chunked

open Client (ChunkState)

inductive HttpError where
  | invalidInput
deriving DecidableEq

inductive Stage where
  | size | extension | sizeEnd | data | dataEnd | trailerCrlf | trailerData | trailerEndCrlf

/-- A piece of a chunk, or of a trailer. Its extension is always an empty one. -/
structure Chunk where
  id : ℕ
  state : ChunkState
  size : ℕ
  data : Bytes
  trailer : Option Bytes

def Chunk.isComplete (self : Chunk) : Bool := self.state = .finish

structure ChunkBodyDecoder where
  chunkNum : ℕ
  totalSize : ℕ
  restSize : ℕ
  hexCount : ℕ
  trailer : Bytes
  crMeet : Bool
  chunkFlag : Bool
  numFlag : Bool
  isLastChunk : Bool
  isChunkTrailer : Bool
  isTrailer : Bool
  isTrailerCrlf : Bool
  stage : Stage

def cr : UInt8 := '\r'.toUInt8
def lf : UInt8 := '\n'.toUInt8
def zero : UInt8 := '0'.toUInt8

abbrev Decoded := Except HttpError (ChunkBodyDecoder × Chunk × Bytes)

def invalid {α : Type} : Except HttpError α := .error .invalidInput

def sizedChunk (data : Bytes) (trailer : Option Bytes) (size : ℕ) (state : ChunkState) : Chunk :=
  { id := 0, state, size, data, trailer }

/-- The value of a digit of `decode_size`. -/
def hexDigit (b : UInt8) : Option ℕ :=
  if '1'.toUInt8 ≤ b ∧ b ≤ '9'.toUInt8 then some (b - '0'.toUInt8).toNat
  else if 'a'.toUInt8 ≤ b ∧ b ≤ 'f'.toUInt8 then some ((b - 'a'.toUInt8).toNat + 10)
  else if 'A'.toUInt8 ≤ b ∧ b ≤ 'F'.toUInt8 then some ((b - 'A'.toUInt8).toNat + 10)
  else none

/-- `hex_to_decimal`, with the checks of an `i64`. -/
def hexToDecimal (count num : ℕ) : Except HttpError ℕ :=
  if count * 16 + num < 2 ^ 63 then .ok (count * 16 + num) else invalid

namespace ChunkBodyDecoder

def new : ChunkBodyDecoder where
  chunkNum := 0
  totalSize := 0
  restSize := 0
  hexCount := 0
  trailer := []
  crMeet := false
  chunkFlag := false
  numFlag := false
  isLastChunk := false
  isChunkTrailer := false
  isTrailer := false
  isTrailerCrlf := false
  stage := .size

variable (self : ChunkBodyDecoder)

def containsTrailer (containTrailer : Bool) : ChunkBodyDecoder :=
  { self with isTrailer := containTrailer }

def mergeTrailer (state : ChunkState) (text : Bytes) : ChunkBodyDecoder :=
  let trailer := self.trailer ++ text
  if (state = .finish ∨ state = .dataCrlf) ∧ trailer ≠ [] then
    { self with trailer := trailer ++ [cr, lf] }
  else { self with trailer }

def decodeCr : Except HttpError ChunkBodyDecoder :=
  if self.crMeet then invalid else .ok { self with crMeet := true }

def decodeLf : Except HttpError ChunkBodyDecoder :=
  if self.crMeet then .ok { self with crMeet := false } else invalid

/-- The loop of the functions that skip a line break: `open_` is the answer at the end of the
buffer, `found` the one behind the LF. -/
def skipBreak (found : ChunkBodyDecoder → Bytes → Decoded) (ended : ChunkBodyDecoder → Decoded) :
    ChunkBodyDecoder → Bytes → Decoded
  | self, [] => ended self
  | self, b :: rest =>
    if b = cr then
      match self.decodeCr with
      | .error e => .error e
      | .ok self => skipBreak found ended self rest
    else if b = lf then
      match self.decodeLf with
      | .error e => .error e
      | .ok self => found self rest
    else invalid

def skipTrailerLastCrlf (data buf : Bytes) : Decoded :=
  skipBreak
    (fun self rest =>
      if self.isLastChunk then
        .ok ({ self with stage := .trailerEndCrlf }, sizedChunk [] (some []) 0 .finish, rest)
      else
        .ok ({ self with crMeet := false, isTrailerCrlf := true, stage := .trailerData },
          sizedChunk [] (some data) 0 .dataCrlf, rest))
    (fun self => .ok (self, sizedChunk [] (some data) 0 .dataCrlf, []))
    { self with stage := .trailerEndCrlf } buf

/-- The loop of `decode_trailer_data`, with the octets before `buf`. -/
def trailerLine (self : ChunkBodyDecoder) (front : Bytes) : Bytes → Decoded
  | [] => .ok ({ self with isTrailerCrlf := false }, sizedChunk [] (some front) 0 .data, [])
  | b :: rest =>
    if b = cr then
      match self.decodeCr with
      | .error e => .error e
      | .ok self => self.skipTrailerLastCrlf front rest
    else if b = lf then
      match self.decodeLf with
      | .error e => .error e
      | .ok self => self.skipTrailerLastCrlf front (b :: rest)
    else trailerLine self (front ++ [b]) rest

def decodeTrailerData (buf : Bytes) : Decoded :=
  let self := { self with stage := .trailerData }
  match buf with
  | [] => .ok (self, sizedChunk [] (some []) 0 .data, [])
  | b :: rest =>
    trailerLine (if b = cr ∧ self.isTrailerCrlf then { self with isLastChunk := true } else self) []
      (b :: rest)

def skipTrailerCrlf (buf : Bytes) : Decoded :=
  skipBreak (fun self rest => decodeTrailerData { self with isTrailerCrlf := true } rest)
    (fun self => .ok (self, sizedChunk [] (some []) self.totalSize .metaCrlf, []))
    { self with stage := .trailerCrlf } buf

def skipLastCrlf (data buf : Bytes) : Decoded :=
  skipBreak
    (fun self rest =>
      .ok ({ self with stage := .size, totalSize := 0 },
        sizedChunk data none self.totalSize .finish, rest))
    (fun self => .ok (self, sizedChunk data none self.totalSize .dataCrlf, []))
    { self with stage := .dataEnd } buf

def decodeData (buf : Bytes) : Decoded :=
  let self := { self with stage := .data }
  if buf = [] then .ok (self, sizedChunk [] none self.totalSize .data, [])
  else if self.restSize ≤ buf.length then
    skipLastCrlf { self with restSize := 0, crMeet := false } (buf.take self.restSize)
      (buf.drop self.restSize)
  else
    .ok ({ self with restSize := self.restSize - buf.length },
      sizedChunk buf none self.totalSize .data, [])

def skipCrlf (buf : Bytes) : Decoded :=
  skipBreak (fun self rest => self.decodeData rest)
    (fun self => .ok (self, sizedChunk [] none self.totalSize .metaCrlf, []))
    { self with stage := .sizeEnd } buf

/-- The loop of `skip_trailer_ext` and `skip_chunk_ext`, which go on with `next`. -/
def skipExt (next : ChunkBodyDecoder → Bytes → Decoded) (trailer : Option Bytes)
    (self : ChunkBodyDecoder) : Bytes → Decoded
  | [] => .ok (self, sizedChunk [] trailer self.totalSize .metaExt, [])
  | b :: rest =>
    if b = cr then
      match self.decodeCr with
      | .error e => .error e
      | .ok self => next self rest
    else if b = lf then
      match self.decodeLf with
      | .error e => .error e
      | .ok self => next self (b :: rest)
    else skipExt next trailer self rest

def skipTrailerExt (buf : Bytes) : Decoded :=
  skipExt skipTrailerCrlf (some []) self buf

def skipChunkExt (buf : Bytes) : Decoded := skipExt skipCrlf none self buf

def skipExtension (buf : Bytes) : Decoded :=
  let self := { self with stage := .extension }
  if self.isChunkTrailer then self.skipTrailerExt buf else self.skipChunkExt buf

def decodeSpecialChar (buf : Bytes) : Decoded :=
  if self.isChunkTrailer then skipTrailerCrlf { self with numFlag := false } buf
  else
    let self := { self with totalSize := self.hexCount, hexCount := 0, numFlag := false }
    if self.totalSize = 0 then skipExtension { self with isLastChunk := true } buf
    else skipExtension { self with restSize := self.totalSize } buf

/-- The loop of `decode_size`. -/
def sizeLoop (self : ChunkBodyDecoder) : Bytes → Decoded
  | [] => .ok (self, sizedChunk [] none self.totalSize .metaSize, [])
  | b :: rest =>
    if b = zero then
      let special := rest.head? = some ';'.toUInt8 ∨ rest.head? = some ' '.toUInt8 ∨
        rest.head? = some cr
      if special ∧ self.isTrailer ∧ ¬self.chunkFlag ∧ ¬self.numFlag then
        skipExtension { self with isChunkTrailer := true, numFlag := false } (b :: rest)
      else
        match hexToDecimal self.hexCount 0 with
        | .error e => .error e
        | .ok hexCount => sizeLoop { self with hexCount } rest
    else
      match hexDigit b with
      | some num =>
        match hexToDecimal self.hexCount num with
        | .error e => .error e
        | .ok hexCount => sizeLoop { self with hexCount, chunkFlag := true, numFlag := true } rest
      | none =>
        if b = ' '.toUInt8 ∨ b = '\t'.toUInt8 ∨ b = ';'.toUInt8 ∨ b = cr ∨ b = lf then
          self.decodeSpecialChar (b :: rest)
        else invalid

def decodeSize (buf : Bytes) : Decoded :=
  let self := { self with stage := .size }
  if buf = [] then .ok (self, sizedChunk [] none self.totalSize .metaSize, [])
  else sizeLoop { self with chunkFlag := false } buf

/-- A round of the loop of `decode`. -/
def round (remains : Bytes) : Decoded :=
  match self.stage with
  | .size => self.decodeSize remains
  | .extension => self.skipExtension remains
  | .sizeEnd => self.skipCrlf remains
  | .data => self.decodeData remains
  | .dataEnd => self.skipLastCrlf [] remains
  | .trailerCrlf => self.skipTrailerCrlf remains
  | .trailerData => self.decodeTrailerData remains
  | .trailerEndCrlf => self.skipTrailerLastCrlf [] remains

/-- `match_decode_result`: whether the loop ends. -/
def matchDecodeResult (chunk : Chunk) (remains : Bytes) : ChunkBodyDecoder × Bool :=
  match chunk.isComplete, self.isLastChunk with
  | false, _ =>
    if self.isChunkTrailer ∧ (chunk.state = .data ∨ chunk.state = .dataCrlf) then
      ({ self with chunkNum := self.chunkNum + 1 }, remains.isEmpty)
    else (self, true)
  | true, true => ({ self with isLastChunk := false, chunkNum := 0 }, true)
  | true, false => ({ self with chunkNum := self.chunkNum + 1 }, remains.isEmpty)

/-- The loop of `decode`. The fuel is for its rounds. -/
def decodeLoop : ℕ → ChunkBodyDecoder → Bytes →
    Option (Except HttpError (ChunkBodyDecoder × List Chunk × Bytes))
  | 0, _, _ => none
  | fuel + 1, self, remains =>
    match self.round remains with
    | .error e => some (.error e)
    | .ok (self, chunk, rest) =>
      let chunk := { chunk with id := self.chunkNum }
      let self :=
        match chunk.trailer with
        | some text => self.mergeTrailer chunk.state text
        | none => self
      match self.matchDecodeResult chunk rest with
      | (self, true) => some (.ok (self, [chunk], rest))
      | (self, false) =>
        (decodeLoop fuel self rest).map fun
          | .error e => .error e
          | .ok (self, chunks, rest) => .ok (self, chunk :: chunks, rest)

def decode (self : ChunkBodyDecoder) (buf : Bytes) :
    Option (Except HttpError (ChunkBodyDecoder × List Chunk × Bytes)) :=
  self.decodeLoop (buf.length + 1) buf

end ChunkBodyDecoder

end YlongHttp.Chunked
