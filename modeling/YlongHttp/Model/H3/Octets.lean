import YlongHttp.Model.Qpack.Format

/-! # Errors and variable-length integers of HTTP/3 (`h3/error.rs`, `h3/octets.rs`)

The frames are modelled over lists: a reader that fails leaves its index where it was, so a read
answers with the rest of the octets, and a write returns the octets for the room there is. The
readers and writers with an index are at the end. -/

namespace YlongHttp.H3

open Qpack (QpackError)

inductive H3ErrorCode where
  | h3DatagramError
  | h3NoError
  | h3GeneralProtocolError
  | h3InternalError
  | h3StreamCreationError
  | h3ClosedCriticalStream
  | h3FrameUnexpected
  | h3FrameError
  | h3ExcessiveLoad
  | h3IdError
  | h3SettingsError
  | h3MissingSettings
  | h3RequestRejected
  | h3RequestCancelled
  | h3RequestIncomplete
  | h3MessageError
  | h3ConnectError
  | h3VersionFallback
  | qpackDecompressionFailed
  | qpackEncoderStreamError
  | qpackDecoderStreamError
deriving DecidableEq

inductive EncodeError where
  | noCurrentFrame
  | wrongTypeFrame
  | repeatSetFrame
  | unknownFrameType
  | tooManySettings
  | qpackError (e : QpackError)
deriving DecidableEq

inductive DecodeError where
  | unexpectedFrame (ty : ℕ)
  | qpackError (e : QpackError)
  | frameSizeError (len : ℕ)
  | unsupportedSetting (key : ℕ)
deriving DecidableEq

inductive CommonError where
  | bufferTooShort
  | fieldMissing
  | calculateOverflow
  | internalError
deriving DecidableEq

inductive H3Error where
  | encode (e : EncodeError)
  | decode (e : DecodeError)
  | serialize (e : CommonError)
  | connection (code : H3ErrorCode)
  | stream (id : ℕ) (code : H3ErrorCode)
deriving DecidableEq

/-! ## Variable-length integers -/

/-- `to_be_bytes`, of the `len` low octets. -/
def toBeBytes (value : ℕ) : ℕ → Bytes
  | 0 => []
  | len + 1 => UInt8.ofNat (value / 256 ^ len) :: toBeBytes value len

theorem length_toBeBytes (value len : ℕ) : (toBeBytes value len).length = len := by
  induction len with
  | zero => rfl
  | succ len ih => simp [toBeBytes, ih]

def fromBeBytes (octets : Bytes) : ℕ := octets.foldl (fun n b => 256 * n + b.toNat) 0

/-- `varint_len`; `none` is `unreachable!`. -/
def varintLen (v : ℕ) : Option ℕ :=
  if v ≤ 63 then some 1
  else if v ≤ 16383 then some 2
  else if v ≤ 1073741823 then some 4
  else if v ≤ 4611686018427387903 then some 8
  else none

def parseVarintLen (byte : UInt8) : ℕ := 1 <<< (byte >>> 6).toNat

/-- What `write_bytes!` puts into the first octet. -/
def lenMark : ℕ → UInt8
  | 2 => 0x40
  | 4 => 0x80
  | 8 => 0xc0
  | _ => 0

/-- `write_bytes!`. -/
def writeBytes (value len : ℕ) : Bytes :=
  match toBeBytes value len with
  | [] => []
  | b :: bytes => (b ||| lenMark len) :: bytes

theorem length_writeBytes (v len : ℕ) : (writeBytes v len).length = len := by
  have hlen := length_toBeBytes v len
  rw [writeBytes]
  split
  · rename_i heq
    rw [heq] at hlen
    exact hlen
  · rename_i heq
    rw [heq] at hlen
    exact hlen

/-- `encode_var_integer`, into a buffer of `room` octets. -/
def encodeVarInteger (src room : ℕ) : Except (Fault H3Error) Bytes :=
  match varintLen src with
  | none => .error .panic
  | some len =>
    if room < len then .error (.error (.serialize .bufferTooShort)) else .ok (writeBytes src len)

/-- The bits of a number of `len` octets that are not the mark of its length. -/
def valueMask : ℕ → ℕ
  | 2 => 0x3fff
  | 4 => 0x3fffffff
  | 8 => 0x3fffffffffffffff
  | _ => 0xff

/-- `ReadableBytes::get_varint`, with the octets that are left; `none` is
`BufferTooShort`. -/
def getVarint (buf : Bytes) : Option (ℕ × Bytes) :=
  match buf with
  | [] => none
  | first :: _ =>
    let len := parseVarintLen first
    if len > buf.length then none
    else some (fromBeBytes (buf.take len) &&& valueMask len, buf.drop len)

/-! ## Readers and writers of a buffer -/

def bufferTooShort : Fault H3Error := .error (.serialize .bufferTooShort)

/-- The octets and the index of the next one to read. -/
structure ReadableBytes where
  buf : Bytes
  idx : ℕ
  idx_le : idx ≤ buf.length

namespace ReadableBytes

variable (self : ReadableBytes)

def cap : ℕ := self.buf.length - self.idx

def remaining : Bytes := self.buf.drop self.idx

/-- `peek_bytes!`. -/
def peek (len : ℕ) : Except (Fault H3Error) ℕ :=
  if self.remaining.length < len then .error bufferTooShort
  else .ok (fromBeBytes (self.remaining.take len))

/-- `poll_bytes!`. -/
def poll (len : ℕ) : Except (Fault H3Error) ℕ × ReadableBytes :=
  if h : self.remaining.length < len then (.error bufferTooShort, self)
  else
    (.ok (fromBeBytes (self.remaining.take len)),
      { self with
        idx := self.idx + len
        idx_le := by
          have hidx := self.idx_le
          rw [remaining, List.length_drop] at h
          omega })

def pollU8 := self.poll 1
def pollU16 := self.poll 2
def pollU32 := self.poll 4
def pollU64 := self.poll 8

def getVarint : Except (Fault H3Error) ℕ × ReadableBytes :=
  match self.peek 1 with
  | .error e => (.error e, self)
  | .ok first =>
    let len := parseVarintLen (UInt8.ofNat first)
    if len > self.cap then (.error bufferTooShort, self)
    else
      match len with
      | 1 => self.pollU8
      | 2 => self.pollU16.map (Except.map (· &&& 0x3fff)) id
      | 4 => self.pollU32.map (Except.map (· &&& 0x3fffffff)) id
      | 8 => self.pollU64.map (Except.map (· &&& 0x3fffffffffffffff)) id
      | _ => (.error .panic, self)

end ReadableBytes

/-- The octets and the index of the next one to write. -/
structure WritableBytes where
  bytes : Bytes
  idx : ℕ
  idx_le : idx ≤ bytes.length

namespace WritableBytes

def remaining (self : WritableBytes) : ℕ := self.bytes.length - self.idx

/-- `write_bytes!`. -/
def writeBytes (self : WritableBytes) (value len : ℕ) : Except (Fault H3Error) ℕ × WritableBytes :=
  if self.remaining < len then (.error bufferTooShort, self)
  else
    (.ok len,
      { bytes := self.bytes.take self.idx ++ H3.writeBytes value len ++
          self.bytes.drop (self.idx + len)
        idx := self.idx + len
        idx_le := by
          have hidx := self.idx_le
          rw [List.length_append, List.length_append, List.length_take, length_writeBytes]
          omega })

def writeU8 (self : WritableBytes) (value : ℕ) := self.writeBytes value 1
def writeU16 (self : WritableBytes) (value : ℕ) := self.writeBytes value 2
def writeU32 (self : WritableBytes) (value : ℕ) := self.writeBytes value 4
def writeU64 (self : WritableBytes) (value : ℕ) := self.writeBytes value 8

def writeVarintWithLen (self : WritableBytes) (value len : ℕ) :
    Except (Fault H3Error) ℕ × WritableBytes :=
  if self.remaining < len then (.error bufferTooShort, self)
  else
    match len with
    | 1 => self.writeU8 value
    | 2 => self.writeU16 value
    | 4 => self.writeU32 value
    | 8 => self.writeU64 value
    | _ => (.error .panic, self)

def writeVarint (self : WritableBytes) (value : ℕ) : Except (Fault H3Error) ℕ × WritableBytes :=
  match varintLen value with
  | none => (.error .panic, self)
  | some len => self.writeVarintWithLen value len

end WritableBytes

end YlongHttp.H3
