import YlongHttp.Library.WriteLoop
import YlongHttp.Model.Numeral

/-! # Bodies read from an asynchronous reader (`body/text.rs`, `body/chunk.rs`) -/

namespace YlongHttp.Client

/-- What the reads of a reader yield. A read gets as much of the next part as it has room for, and
nothing at an empty part or in the end. -/
abbrev Reader := List Bytes

def Reader.read : Reader → ℕ → Bytes × Reader
  | [], _ => ([], [])
  | part :: rest, room =>
    (part.take room, if part.length ≤ room then rest else part.drop room :: rest)

def chunkSize : ℕ := 1024

/-- `TEMP_BUF_SIZE`, the size of the buffer that is filled and then written to the connection. -/
def tempBufSize : ℕ := 16 * 1024

def crlf : Bytes := str "\r\n"

/-- `format!("{:x}", n)`. -/
def hex (n : ℕ) : Bytes := (Nat.toDigits 16 n).map Char.toUInt8

inductive ChunkState where
  | metaSize | metaExt | metaCrlf | data | dataCrlf | finish
deriving DecidableEq

inductive DataState where
  /-- `Partial` in the source. -/
  | encoding
  | complete
  | finish
deriving DecidableEq

/-- `ChunkBody<FromAsyncReader<T>>` without trailers. -/
structure ChunkBody where
  reader : Reader
  /-- `chunk_buf` up to `chunk_last`. -/
  chunk : Bytes
  dataState : DataState
  chunkState : ChunkState
  chunkIdx : ℕ
  readFlag : Bool
  /-- The `src_idx` of `hex`. That of `hex_last` is always 0. -/
  hexIdx : ℕ
  metaCrlfIdx : ℕ
  dataCrlfIdx : ℕ
  finishCrlfIdx : ℕ
  trailerIdx : ℕ

variable (self : ChunkBody)

namespace ChunkBody

def fromAsyncReader (reader : Reader) : ChunkBody where
  reader
  chunk := []
  dataState := .encoding
  chunkState := .metaSize
  chunkIdx := 0
  readFlag := false
  hexIdx := 0
  metaCrlfIdx := 0
  dataCrlfIdx := 0
  finishCrlfIdx := 0
  trailerIdx := 0

/-- `WriteData::write`: what is written of `src` from `idx` on, and whether that is all. -/
def writeData (src : Bytes) (idx room : ℕ) : Bytes × Bool :=
  ((src.drop idx).take room, src.length - idx ≤ room)

def metaSizeEncode (room : ℕ) : Bytes × ChunkBody :=
  if self.chunk.length = chunkSize then
    match writeData (hex chunkSize) self.hexIdx room with
    | (out, true) => (out, { self with chunkState := .metaCrlf, hexIdx := 0 })
    | (out, false) => (out, { self with hexIdx := self.hexIdx + out.length })
  else
    match writeData (hex self.chunk.length) 0 room with
    | (out, true) => (out, { self with chunkState := .metaCrlf })
    -- `hex_last` is made anew by the next call.
    | (out, false) => (out, self)

def metaCrlfEncode (room : ℕ) : Bytes × ChunkBody :=
  match writeData crlf self.metaCrlfIdx room with
  | (out, true) => (out, { self with chunkState := .data, metaCrlfIdx := 0 })
  | (out, false) => (out, { self with metaCrlfIdx := self.metaCrlfIdx + out.length })

def dataCrlfEncode (room : ℕ) : Bytes × ChunkBody :=
  match writeData crlf self.dataCrlfIdx room with
  | (out, true) => (out, { self with chunkState := .metaSize, dataCrlfIdx := 0 })
  | (out, false) => (out, { self with dataCrlfIdx := self.dataCrlfIdx + out.length })

def finishEncode (room : ℕ) : Bytes × ChunkBody :=
  match writeData crlf self.finishCrlfIdx room with
  | (out, true) => (out, { self with
      dataState := .complete
      metaCrlfIdx := 0
      finishCrlfIdx := self.finishCrlfIdx + out.length })
  | (out, false) => (out, { self with finishCrlfIdx := self.finishCrlfIdx + out.length })

/-- `data_encode`, and `tail_encode` for a chunk that is not full. -/
def dataEncode (room : ℕ) : Bytes × ChunkBody :=
  match writeData self.chunk self.chunkIdx room with
  | (out, true) => (out, { self with
      chunkState := if self.chunk.length = chunkSize then .dataCrlf else .finish
      readFlag := false
      chunkIdx := self.chunkIdx + out.length })
  | (out, false) => (out, { self with chunkIdx := self.chunkIdx + out.length })

def encode (self : ChunkBody) (room : ℕ) : Bytes × ChunkBody :=
  match self.chunkState with
  | .metaSize => self.metaSizeEncode room
  | .metaExt => ([], self)
  | .metaCrlf => self.metaCrlfEncode room
  | .data => self.dataEncode room
  | .dataCrlf => self.dataCrlfEncode room
  | .finish => self.finishEncode room

/-- The read of `poll_partial`. -/
def load : ChunkBody :=
  if self.readFlag then self
  else
    let (chunk, reader) := self.reader.read chunkSize
    { self with reader, chunk, readFlag := true, chunkIdx := 0 }

def trailerEncode (room : ℕ) : Bytes × ChunkBody :=
  match writeData (str "0\r\n\r\n") self.trailerIdx room with
  | (out, true) => (out, { self with
      dataState := .finish
      trailerIdx := self.trailerIdx + out.length })
  | (out, false) => (out, { self with trailerIdx := self.trailerIdx + out.length })

/-- One round of the loop of `poll_data`, with some room in the buffer. -/
def step (self : ChunkBody) (room : ℕ) : Bytes × ChunkBody :=
  match self.dataState with
  | .encoding => self.load.encode room
  | .complete => self.trailerEncode room
  | .finish => ([], self)

/-- The same for `Library.fill`, with `none` for the end. It is also a round of `data` of a
`ChunkBody<FromReader<T>>`. -/
def dataStep (_ : ℕ) (self : ChunkBody) (room : ℕ) : Option (Option (Bytes × ChunkBody)) :=
  if self.dataState = .finish then some none else some (some (self.step room))

/-- The loops of `poll_data` and `encode_body`, as one: what is written from a state on, with so
much in the buffer. A read that is pending ends a call of `poll_data`, and the next call goes on
in the same buffer. -/
def written : ℕ → ChunkBody → ℕ → Option Bytes
  | 0, _, _ => none
  | fuel + 1, self, filled =>
    if self.dataState = .finish then some []
    else
      let (out, next) := self.step (tempBufSize - filled)
      (written fuel next ((filled + out.length) % tempBufSize)).map (out ++ ·)

end ChunkBody

/-! ## Bodies of bytes -/

/-- `ChunkBody<FromBytes>` without trailers. Its encoder has no reader, and takes its chunk from
the bytes. -/
structure BytesBody where
  source : Bytes
  chunkCount : ℕ
  chunkLast : ℕ
  encoder : ChunkBody

/-- The `cnt` of the `StatusVar` of `encode`, where there is one. -/
def ChunkBody.statusCount (room : ℕ) : Option ℕ :=
  match self.chunkState with
  | .data =>
    if (writeData self.chunk self.chunkIdx room).2 then
      some (if self.chunk.length = chunkSize then 1 else 0)
    else none
  | .finish => if (writeData crlf self.finishCrlfIdx room).2 then some 0 else none
  | _ => none

namespace BytesBody

def fromBytes (bytes : Bytes) : BytesBody where
  source := bytes
  chunkCount := 0
  chunkLast := 0
  encoder := .fromAsyncReader []

/-- The choice of the chunk in `bytes_encode`. The count is 1 only behind a full chunk. -/
def load (self : BytesBody) : BytesBody :=
  let self :=
    if self.encoder.readFlag then self
    else { self with
      chunkLast := min (self.source.length - self.chunkCount * chunkSize) chunkSize
      encoder := { self.encoder with readFlag := true, chunkIdx := 0 } }
  { self with encoder := { self.encoder with
      chunk := (self.source.drop (self.chunkCount * chunkSize)).take self.chunkLast } }

def chunkEncode (self : BytesBody) (room : ℕ) : Bytes × BytesBody :=
  let (out, encoder) := self.encoder.encode room
  (out, { self with encoder, chunkCount := (self.encoder.statusCount room).getD self.chunkCount })

def bytesEncode (self : BytesBody) (room : ℕ) : Bytes × BytesBody := self.load.chunkEncode room

def trailerEncode (self : BytesBody) (room : ℕ) : Bytes × BytesBody :=
  let (out, encoder) := self.encoder.trailerEncode room
  (out, { self with encoder })

/-- One round of the loop of `data`, which is `Library.fill`; `none` is the end. -/
def step (_ : ℕ) (self : BytesBody) (room : ℕ) : Option (Option (Bytes × BytesBody)) :=
  match self.encoder.dataState with
  | .encoding => some (some (self.bytesEncode room))
  | .complete => some (some (self.trailerEncode room))
  | .finish => some none

end BytesBody

/-- `encode_body` of a `TextBody`. -/
def textWritten : ℕ → Reader → ℕ → Option Bytes
  | 0, _, _ => none
  | fuel + 1, reader, filled =>
    let (out, rest) := reader.read (tempBufSize - filled)
    if out = [] then some []
    else (textWritten fuel rest ((filled + out.length) % tempBufSize)).map (out ++ ·)

end YlongHttp.Client
