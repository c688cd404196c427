import YlongHttp.Model.H2.Frame
import YlongHttp.Model.Hpack.Encoder

/-! # Encoding of frames (`h2/encoder.rs`)

A method gets the contents of the buffer it writes to, since some of them write to other
places than they should and leave octets of the buffer as they were. It returns the encoder,
the contents of the buffer and the number of octets it reports. -/

namespace YlongHttp

inductive FrameEncoderErr where
  | encodingData
  | unexpectedPayloadType
  | noCurrentFrame
  | internalError
  | headersNotEnd

inductive FrameEncoderState where
  | idle
  | encodingHeadersFrame
  | encodingHeadersPayload
  | encodingHeadersPadding
  | encodingContinuationFrames
  | headersComplete
  | encodingDataHeader
  | encodingDataPayload
  | encodingDataPadding
  | encodingSettingsFrame
  | encodingSettingsPayload
  | encodingGoawayFrame
  | encodingGoawayPayload
  | encodingWindowUpdateFrame
  | encodingWindowUpdatePayload
  | encodingPriorityFrame
  | encodingPriorityPayload
  | encodingRstStreamFrame
  | encodingRstStreamPayload
  | encodingPingFrame
  | encodingPingPayload
  | dataComplete
deriving DecidableEq

/-- `header_payload_buffer` is what the HPACK encoder last wrote into it; the older octets
behind that are never read. -/
structure FrameEncoder where
  currentFrame : Option Frame
  maxFrameSize : ℕ
  hpackEncoder : HpackEncoder
  state : FrameEncoderState
  encodedBytes : ℕ
  dataOffset : ℕ
  remainingHeaderPayload : ℕ
  remainingPayloadBytes : ℕ
  isEndHeaders : Bool
  headerPayloadBuffer : Bytes
  headerPayloadIndex : ℕ

/-- The buffer after a call and the number of octets written. -/
abbrev Encoded := Except (Fault FrameEncoderErr) (Bytes × ℕ)

/-- `FrameType`, for the payload of a frame. -/
def Payload.frameType : Payload → UInt8
  | .data _ => 0x0
  | .headers _ => 0x1
  | .priority _ => 0x2
  | .rstStream _ => 0x3
  | .settings _ => 0x4
  | .pushPromise _ => 0x5
  | .ping _ => 0x6
  | .goaway _ => 0x7
  | .windowUpdate _ => 0x8

def continuationFrameType : UInt8 := 0x9

def Goaway.encodedLen (self : Goaway) : ℕ := 8 + self.debugData.length

/-- `(value >> shift) as u8`. -/
def octetAt (value shift : ℕ) : UInt8 := UInt8.ofNat (value >>> shift)

/-- A loop that assigns to an element of the buffer in each of `len` rounds, from round `i`
on. -/
def assign (item : ℕ → Except (Fault FrameEncoderErr) (ℕ × UInt8)) :
    ℕ → ℕ → Bytes → Except (Fault FrameEncoderErr) Bytes
  | 0, _, buf => .ok buf
  | len + 1, i, buf =>
    match item i with
    | .error e => .error e
    | .ok (index, octet) =>
      if index < buf.length then assign item len (i + 1) (buf.set index octet)
      else .error .panic

/-- `for (buf_index, item) in buf.iter_mut().enumerate().take(len)`. -/
def iterate (octet : ℕ → Except (Fault FrameEncoderErr) UInt8) (len : ℕ) (buf : Bytes) :
    Except (Fault FrameEncoderErr) Bytes :=
  assign (fun i => (octet i).map fun b => (i, b)) len 0 buf

variable (payloadLen : ℕ)

/-- The octet of a frame header at an index. -/
def frameHeaderOctet (frameType flags : UInt8) (streamId : StreamId) (index : ℕ) :
    Except (Fault FrameEncoderErr) UInt8 :=
  if index ≤ 2 then .ok (octetAt payloadLen (16 - 8 * index))
  else if index = 3 then .ok frameType
  else if index = 4 then .ok flags
  else if index ≤ 8 then .ok (octetAt streamId.toNat (24 - 8 * (index - 5)))
  else .error (.error .internalError)

variable (self encoder : FrameEncoder)

namespace FrameEncoder

def defaultMaxFrameSize : ℕ := 16384

def new (maxFrameSize : ℕ) (useHuffman : Bool) : FrameEncoder where
  currentFrame := none
  maxFrameSize := maxFrameSize
  hpackEncoder := .new 4096 useHuffman
  state := .idle
  encodedBytes := 0
  dataOffset := 0
  remainingHeaderPayload := 0
  remainingPayloadBytes := 0
  isEndHeaders := false
  headerPayloadBuffer := []
  headerPayloadIndex := 0

/-- `read_rest_payload`, also the end of `set_frame` for a HEADERS frame. -/
def readRestPayload : FrameEncoder :=
  let r := self.hpackEncoder.encode defaultMaxFrameSize
  { self with
    headerPayloadIndex := 0
    hpackEncoder := r.2
    headerPayloadBuffer := r.1
    remainingHeaderPayload := r.1.length }

def setFrame (frame : Frame) : FrameEncoder × Except FrameEncoderErr Unit :=
  let self :=
    { self with
      isEndHeaders := frame.flags.isEndHeaders, currentFrame := some frame, encodedBytes := 0 }
  match frame.payload with
  | .headers parts =>
    if !self.isEndHeaders then (self, .error .headersNotEnd)
    else
      let self := { self with hpackEncoder := self.hpackEncoder.setParts parts }
      ({ self.readRestPayload with state := .encodingHeadersFrame }, .ok ())
  | .priority _ => ({ self with state := .encodingPriorityFrame }, .ok ())
  | .rstStream _ => ({ self with state := .encodingRstStreamFrame }, .ok ())
  | .ping _ => ({ self with state := .encodingPingFrame }, .ok ())
  | .data data =>
    ({ self with
      dataOffset := 0, remainingPayloadBytes := data.length, state := .encodingDataHeader }, .ok ())
  | .settings _ => ({ self with state := .encodingSettingsFrame }, .ok ())
  | .goaway _ => ({ self with state := .encodingGoawayFrame }, .ok ())
  | .windowUpdate _ => ({ self with state := .encodingWindowUpdateFrame }, .ok ())
  | .pushPromise _ => (self, .ok ())

def updateMaxFrameSize (size : ℕ) : FrameEncoder :=
  { self with maxFrameSize := size }

def updateHeaderTableSize (size : ℕ) : FrameEncoder :=
  { self with hpackEncoder := self.hpackEncoder.updateMaxDynamicTableSize size }

def finishCurrentFrame : FrameEncoder :=
  { self with
    headerPayloadIndex := 0, currentFrame := none, isEndHeaders := false
    remainingHeaderPayload := 0, encodedBytes := 0 }

/-- `try_retrieve_current_frame`, with the continuation on success. -/
def withFrame (next : Frame → FrameEncoder × Encoded) : FrameEncoder × Encoded :=
  match self.currentFrame with
  | some frame => next frame
  | none => (self, .error (.error .noCurrentFrame))

/-- `bytes_to_write` of the methods that encode a frame header. -/
def headerBytesToWrite (buf : Bytes) : ℕ :=
  min (if self.encodedBytes ≥ 9 then 0 else 9 - self.encodedBytes) buf.length

/-- The end of the methods that encode a frame header: the state changes when the header is
complete. -/
def finishHeader (buf : Bytes) (bytesToWrite : ℕ) (next : FrameEncoder → FrameEncoder) :
    FrameEncoder × Encoded :=
  let self := { self with encodedBytes := self.encodedBytes + bytesToWrite }
  (if self.encodedBytes = 9 then next self else self, .ok (buf, bytesToWrite))

/-! ## HEADERS and CONTINUATION -/

def headersHeaderStatus : FrameEncoder :=
  if self.headerPayloadIndex < self.remainingHeaderPayload then
    { self with state := .encodingHeadersPayload }
  else if self.hpackEncoder.isFinished then
    { self.finishCurrentFrame with state := .headersComplete }
  else { self.readRestPayload with state := .encodingContinuationFrames }

def iterateHeadersHeader (frame : Frame) (buf : Bytes) (len : ℕ) :
    Except (Fault FrameEncoderErr) Bytes :=
  iterate (fun i => frameHeaderOctet self.remainingHeaderPayload 0x1
    (if self.hpackEncoder.isFinished then frame.flags.bits else frame.flags.bits &&& 0xFB)
    frame.id (self.encodedBytes + i)) len buf

/-- `write_payload`, with the continuation on what it leaves in the buffer and the number of
octets written. -/
def writePayload (buf : Bytes) (payloadLen : ℕ)
    (next : FrameEncoder → Bytes → ℕ → FrameEncoder × Encoded) : FrameEncoder × Encoded :=
  if payloadLen < self.headerPayloadIndex then (self, .error .panic)
  else
    let bytesToWrite := min buf.length (payloadLen - self.headerPayloadIndex)
    next { self with headerPayloadIndex := self.headerPayloadIndex + bytesToWrite }
      ((self.headerPayloadBuffer.drop self.headerPayloadIndex).take bytesToWrite ++
        buf.drop bytesToWrite) bytesToWrite

def encodeHeadersFrame (buf : Bytes) : FrameEncoder × Encoded :=
  self.withFrame fun frame =>
  match frame.payload with
  | .headers _ =>
    let bytesToWrite := self.headerBytesToWrite buf
    match self.iterateHeadersHeader frame buf bytesToWrite with
    | .error e => (self, .error e)
    | .ok buf =>
      let self := { self with encodedBytes := self.encodedBytes + bytesToWrite }
      if self.encodedBytes ≥ 9 then
        self.writePayload (buf.drop bytesToWrite) self.remainingHeaderPayload fun self rest n =>
          ({ self with encodedBytes := self.encodedBytes + n }.headersHeaderStatus,
            .ok (buf.take bytesToWrite ++ rest, bytesToWrite + n))
      else (self, .ok (buf, bytesToWrite))
  | _ => (self, .error (.error .unexpectedPayloadType))

def encodeHeadersPayload (buf : Bytes) : FrameEncoder × Encoded :=
  self.withFrame fun frame =>
  match frame.payload with
  | .headers _ =>
    if buf = [] then (self, .ok (buf, 0))
    else
      self.writePayload buf self.remainingHeaderPayload fun self buf n =>
        ({ self with encodedBytes := self.encodedBytes + n }.headersHeaderStatus, .ok (buf, n))
  | _ => (self, .error (.error .unexpectedPayloadType))

/-- The flags of a CONTINUATION frame. -/
def continuationFlags : UInt8 :=
  if self.remainingHeaderPayload ≤ self.maxFrameSize ∧ self.hpackEncoder.isFinished ∧
      self.isEndHeaders then endHeadersMask
  else 0

/-- Nothing is written into a buffer with no room for a frame header. -/
def encodeContinuationFrames (buf : Bytes) : FrameEncoder × Encoded :=
  self.withFrame fun frame =>
  match frame.payload with
  | .headers _ =>
    if buf.length < 9 then (self, .ok (buf, 0))
    else
      let continuationFrameLen := min self.remainingHeaderPayload self.maxFrameSize
      let header :=
        [octetAt continuationFrameLen 16, octetAt continuationFrameLen 8,
          octetAt continuationFrameLen 0, continuationFrameType, self.continuationFlags,
          octetAt frame.id.toNat 24, octetAt frame.id.toNat 16, octetAt frame.id.toNat 8,
          octetAt frame.id.toNat 0]
      self.writePayload (buf.drop 9) continuationFrameLen fun self rest n =>
        ({ self with encodedBytes := self.encodedBytes + n }.headersHeaderStatus,
          .ok (header ++ rest, 9 + n))
  | _ => (self, .error (.error .unexpectedPayloadType))

/-! ## DATA -/

def iterateDataHeader (frame : Frame) (buf : Bytes) (payloadLen len : ℕ) :
    Except (Fault FrameEncoderErr) Bytes :=
  iterate (fun i => frameHeaderOctet payloadLen frame.payload.frameType
    (if self.remainingPayloadBytes ≤ self.maxFrameSize then frame.flags.bits
      else frame.flags.bits &&& 0xFE)
    frame.id (self.encodedBytes + i)) len buf

def encodeDataHeader (buf : Bytes) : FrameEncoder × Encoded :=
  self.withFrame fun frame =>
  match frame.payload with
  | .data _ =>
    let bytesToWrite := self.headerBytesToWrite buf
    match self.iterateDataHeader frame buf (min self.remainingPayloadBytes self.maxFrameSize)
        bytesToWrite with
    | .error e => (self, .error e)
    | .ok buf =>
      self.finishHeader buf bytesToWrite fun self =>
        { self with encodedBytes := 0, state := .encodingDataPayload }
  | _ => (self, .error (.error .unexpectedPayloadType))

/-- `encode_slice` is the start of it. After a full frame `data_offset` starts again. -/
def encodeDataPayload (buf : Bytes) : FrameEncoder × Encoded :=
  self.withFrame fun frame =>
  match frame.payload with
  | .data payload =>
    if self.maxFrameSize < self.dataOffset then (self, .error .panic)
    else
      let allowToWrite := min (self.maxFrameSize - self.dataOffset) self.remainingPayloadBytes
      let bytesToWrite := min allowToWrite buf.length
      if payload.length < self.dataOffset + bytesToWrite then (self, .error .panic)
      else
        let written := (payload.drop self.dataOffset).take bytesToWrite
        let self :=
          { self with
            dataOffset := self.dataOffset + bytesToWrite
            remainingPayloadBytes := self.remainingPayloadBytes - bytesToWrite }
        let self :=
          if self.remainingPayloadBytes = 0 then { self with dataOffset := 0, state := .dataComplete }
          else if self.dataOffset = self.maxFrameSize then
            { self with dataOffset := 0, state := .encodingDataHeader }
          else { self with state := .encodingDataPayload }
        (self, .ok (written ++ buf.drop bytesToWrite, bytesToWrite))
  | _ => (self, .error (.error .unexpectedPayloadType))

def encodePadding (buf : Bytes) : FrameEncoder × Encoded :=
  self.withFrame fun frame =>
  if frame.flags.isPadded then
    match frame.payload with
    | .data data =>
      if data.length < self.encodedBytes then (self, .error .panic)
      else
        let bytesToWrite := min (data.length - self.encodedBytes) buf.length
        let self := { self with encodedBytes := self.encodedBytes + bytesToWrite }
        (if self.encodedBytes = data.length then { self with state := .dataComplete } else self,
          .ok (List.replicate bytesToWrite 0 ++ buf.drop bytesToWrite, bytesToWrite))
    | _ => (self, .error (.error .unexpectedPayloadType))
  else (self, .ok (buf, 0))

/-! ## Frames whose header is written by its own indices -/

/-- The methods that encode the header of GOAWAY, WINDOW_UPDATE and PRIORITY. -/
def encodeFrameHeader (frame : Frame) (payloadLen : ℕ) (buf : Bytes)
    (next : FrameEncoder → FrameEncoder) : FrameEncoder × Encoded :=
  let bytesToWrite := self.headerBytesToWrite buf
  match iterate (fun i => frameHeaderOctet payloadLen frame.payload.frameType frame.flags.bits
      frame.id (self.encodedBytes + i)) bytesToWrite buf with
  | .error e => (self, .error e)
  | .ok buf => self.finishHeader buf bytesToWrite next

def encodeGoawayFrame (buf : Bytes) : FrameEncoder × Encoded :=
  self.withFrame fun frame =>
  match frame.payload with
  | .goaway goaway =>
    self.encodeFrameHeader frame goaway.encodedLen buf fun self =>
      { self with state := .encodingGoawayPayload }
  | _ => (self, .error (.error .unexpectedPayloadType))

/-- `encoded_bytes` starts again with the payload. -/
def encodeWindowUpdateFrame (buf : Bytes) : FrameEncoder × Encoded :=
  self.withFrame fun frame =>
  match frame.payload with
  | .windowUpdate _ =>
    self.encodeFrameHeader frame 4 buf fun self =>
      { self with state := .encodingWindowUpdatePayload, encodedBytes := 0 }
  | _ => (self, .error (.error .unexpectedPayloadType))

def encodePriorityFrame (buf : Bytes) : FrameEncoder × Encoded :=
  self.withFrame fun frame =>
  match frame.payload with
  | .priority _ =>
    self.encodeFrameHeader frame 5 buf fun self => { self with state := .encodingPriorityPayload }
  | _ => (self, .error (.error .unexpectedPayloadType))

/-! ## Frames whose header is written by the indices of the buffer -/

/-- The octet of a SETTINGS or PING header and its place in the buffer. The octets 3 and 4 go
to the elements 3 and 4 of the buffer, wherever the header started. -/
def connectionHeaderItem (frameType flags : UInt8) (encodedBytes bufIndex : ℕ) :
    Except (Fault FrameEncoderErr) (ℕ × UInt8) :=
  let headerByteIndex := encodedBytes + bufIndex
  if headerByteIndex ≤ 2 then .ok (bufIndex, octetAt payloadLen (16 - 8 * bufIndex))
  else if headerByteIndex = 3 then .ok (3, frameType)
  else if headerByteIndex = 4 then .ok (4, flags)
  else if headerByteIndex ≤ 8 then .ok (bufIndex, 0)
  else .error (.error .internalError)

/-- The methods that encode the header of SETTINGS and PING. -/
def encodeConnectionHeader (frame : Frame) (payloadLen : ℕ) (buf : Bytes)
    (next : FrameEncoder → FrameEncoder) : FrameEncoder × Encoded :=
  let bytesToWrite := self.headerBytesToWrite buf
  match assign (connectionHeaderItem payloadLen frame.payload.frameType frame.flags.bits
      self.encodedBytes) bytesToWrite 0 buf with
  | .error e => (self, .error e)
  | .ok buf => self.finishHeader buf bytesToWrite next

def encodeSettingsFrame (buf : Bytes) : FrameEncoder × Encoded :=
  self.withFrame fun frame =>
  match frame.payload with
  | .settings settings =>
    self.encodeConnectionHeader frame (settings.length * 6) buf fun self =>
      { self with state := .encodingSettingsPayload }
  | _ => (self, .error (.error .unexpectedPayloadType))

def encodePingFrame (buf : Bytes) : FrameEncoder × Encoded :=
  self.withFrame fun frame =>
  match frame.payload with
  | .ping _ =>
    self.encodeConnectionHeader frame 8 buf fun self => { self with state := .encodingPingPayload }
  | _ => (self, .error (.error .unexpectedPayloadType))

/-- The stream is taken from the index in the buffer, which is below 5 when the header did
not start with the buffer. -/
def rstStreamHeaderOctet (frame : Frame) (encodedBytes bufIndex : ℕ) :
    Except (Fault FrameEncoderErr) UInt8 :=
  let headerByteIndex := encodedBytes + bufIndex
  if headerByteIndex ≤ 2 then .ok (octetAt 4 (16 - 8 * bufIndex))
  else if headerByteIndex = 3 then .ok 0x3
  else if headerByteIndex = 4 then .ok frame.flags.bits
  else if headerByteIndex ≤ 8 then
    if bufIndex < 5 then .error .panic
    else .ok (octetAt frame.id.toNat (24 - 8 * (bufIndex - 5)))
  else .error (.error .internalError)

def encodeRstStreamFrame (buf : Bytes) : FrameEncoder × Encoded :=
  self.withFrame fun frame =>
  if self.encodedBytes ≥ 9 then (self, .ok (buf, 0))
  else
    let bytesToWrite := min (9 - self.encodedBytes) buf.length
    match iterate (rstStreamHeaderOctet frame self.encodedBytes) bytesToWrite buf with
    | .error e => (self, .error e)
    | .ok buf =>
      self.finishHeader buf bytesToWrite fun self =>
        { self with state := .encodingRstStreamPayload }

/-! ## Payloads -/

/-- The end of the methods that encode a payload of `payloadSize` octets after the header. -/
def finishPayload (buf : Bytes) (bytesToWrite total : ℕ) : FrameEncoder × Encoded :=
  let self := { self with encodedBytes := self.encodedBytes + bytesToWrite }
  (if self.encodedBytes = total then { self with state := .dataComplete } else self,
    .ok (buf, bytesToWrite))

/-- The methods that encode the payload of GOAWAY, SETTINGS and PING. -/
def encodePayloadOctets (payloadSize : ℕ) (octet : ℕ → Except (Fault FrameEncoderErr) UInt8)
    (buf : Bytes) : FrameEncoder × Encoded :=
  let bytesToWrite := min (payloadSize - (self.encodedBytes - 9)) buf.length
  match iterate octet bytesToWrite buf with
  | .error e => (self, .error e)
  | .ok buf => self.finishPayload buf bytesToWrite (9 + payloadSize)

def goawayOctet (goaway : Goaway) (payloadByteIndex : ℕ) : Except (Fault FrameEncoderErr) UInt8 :=
  if payloadByteIndex ≤ 3 then
    .ok (octetAt goaway.lastStreamId.toNat (24 - 8 * payloadByteIndex))
  else if payloadByteIndex ≤ 7 then
    .ok (octetAt goaway.errorCode.toNat (24 - 8 * (payloadByteIndex - 4)))
  else
    match goaway.debugData[payloadByteIndex - 8]? with
    | some octet => .ok octet
    | none => .error (.error .internalError)

def encodeGoawayPayload (buf : Bytes) : FrameEncoder × Encoded :=
  self.withFrame fun frame =>
  match frame.payload with
  | .goaway goaway =>
    self.encodePayloadOctets goaway.encodedLen (fun i =>
      if self.encodedBytes < 9 then .error .panic
      else goawayOctet goaway (self.encodedBytes - 9 + i)) buf
  | _ => (self, .error (.error .unexpectedPayloadType))

def settingValue : Setting → ℕ × UInt32
  | .headerTableSize v => (0x1, v)
  | .enablePush v => (0x2, if v then 1 else 0)
  | .maxConcurrentStreams v => (0x3, v)
  | .initialWindowSize v => (0x4, v)
  | .maxFrameSize v => (0x5, v)
  | .maxHeaderListSize v => (0x6, v)

def settingsOctet (settings : List Setting) (payloadByteIndex : ℕ) :
    Except (Fault FrameEncoderErr) UInt8 :=
  let settingByteIndex := payloadByteIndex % 6
  match settings[payloadByteIndex / 6]? with
  | some setting =>
    let (id, value) := settingValue setting
    if settingByteIndex ≤ 1 then .ok (octetAt id (8 * (1 - settingByteIndex)))
    else .ok (octetAt value.toNat (8 * (3 - (settingByteIndex - 2))))
  | none => .error (.error .internalError)

def encodeSettingsPayload (buf : Bytes) : FrameEncoder × Encoded :=
  self.withFrame fun frame =>
  match frame.payload with
  | .settings settings =>
    self.encodePayloadOctets (settings.length * 6) (fun i =>
      if self.encodedBytes < 9 then .error .panic
      else settingsOctet settings (self.encodedBytes - 9 + i)) buf
  | _ => (self, .error (.error .unexpectedPayloadType))

def encodePingPayload (buf : Bytes) : FrameEncoder × Encoded :=
  self.withFrame fun frame =>
  match frame.payload with
  | .ping ping =>
    self.encodePayloadOctets 8 (fun i =>
      match ping.data[self.encodedBytes - 9 + i]? with
      | some octet => .ok octet
      | none => .error .panic) buf
  | _ => (self, .error (.error .unexpectedPayloadType))

/-- `encoded_bytes` counts from the start of the payload here, but the index of the octet is
computed as if it counted from the start of the frame. -/
def encodeWindowUpdatePayload (buf : Bytes) : FrameEncoder × Encoded :=
  self.withFrame fun frame =>
  match frame.payload with
  | .windowUpdate increment =>
    let bytesToWrite := min (4 - (self.encodedBytes - 9)) buf.length
    match iterate (fun i =>
        if 3 < self.encodedBytes - 9 + i then .error .panic
        else .ok (octetAt increment.toNat (24 - 8 * (self.encodedBytes - 9 + i)))) bytesToWrite
        buf with
    | .error e => (self, .error e)
    | .ok buf => self.finishPayload buf bytesToWrite 4
  | _ => (self, .error (.error .unexpectedPayloadType))

def priorityOctet (priority : Priority) (payloadByteIndex : ℕ) :
    Except (Fault FrameEncoderErr) UInt8 :=
  if payloadByteIndex = 0 then
    .ok ((if priority.exclusive then 0x80 else 0) |||
      (octetAt priority.streamDependency.toNat 24 &&& 0x7F))
  else if payloadByteIndex ≤ 3 then
    .ok (octetAt priority.streamDependency.toNat (16 - 8 * (payloadByteIndex - 1)))
  else if payloadByteIndex = 4 then .ok priority.weight
  else .error (.error .internalError)

def encodePriorityPayload (buf : Bytes) : FrameEncoder × Encoded :=
  self.withFrame fun frame =>
  match frame.payload with
  | .priority priority =>
    if self.encodedBytes < 9 ∨ 5 < self.encodedBytes - 9 then (self, .error .panic)
    else
      let bytesToWrite := min (5 - (self.encodedBytes - 9)) buf.length
      match iterate (fun i => priorityOctet priority (self.encodedBytes - 9 + i)) bytesToWrite
          buf with
      | .error e => (self, .error e)
      | .ok buf => self.finishPayload buf bytesToWrite (9 + 5)
  | _ => (self, .error (.error .unexpectedPayloadType))

def encodeRstStreamPayload (buf : Bytes) : FrameEncoder × Encoded :=
  self.withFrame fun frame =>
  match frame.payload with
  | .rstStream errorCode =>
    if self.encodedBytes < 9 then (self, .ok (buf, 0))
    else
      let encodedPayloadBytes := self.encodedBytes - 9
      if encodedPayloadBytes ≥ 4 then (self, .ok (buf, 0))
      else
        let bytesToWrite := min (4 - encodedPayloadBytes) buf.length
        match iterate (fun i =>
            .ok (octetAt errorCode.toNat (24 - 8 * (encodedPayloadBytes + i)))) bytesToWrite
            buf with
        | .error e => (self, .error e)
        | .ok buf => self.finishPayload buf bytesToWrite (9 + 4)
  | _ => (self, .error (.error .unexpectedPayloadType))

/-! ## The encoder -/

/-- The method that goes on with the frame, if it is not complete. -/
def encodePart : Option (Bytes → FrameEncoder × Encoded) :=
  match self.state with
  | .idle => none
  | .headersComplete => none
  | .dataComplete => none
  | .encodingHeadersFrame => some self.encodeHeadersFrame
  | .encodingHeadersPayload => some self.encodeHeadersPayload
  | .encodingHeadersPadding => some self.encodePadding
  | .encodingContinuationFrames => some self.encodeContinuationFrames
  | .encodingDataHeader => some self.encodeDataHeader
  | .encodingDataPayload => some self.encodeDataPayload
  | .encodingDataPadding => some self.encodePadding
  | .encodingSettingsFrame => some self.encodeSettingsFrame
  | .encodingGoawayFrame => some self.encodeGoawayFrame
  | .encodingWindowUpdateFrame => some self.encodeWindowUpdateFrame
  | .encodingSettingsPayload => some self.encodeSettingsPayload
  | .encodingGoawayPayload => some self.encodeGoawayPayload
  | .encodingWindowUpdatePayload => some self.encodeWindowUpdatePayload
  | .encodingPriorityFrame => some self.encodePriorityFrame
  | .encodingPriorityPayload => some self.encodePriorityPayload
  | .encodingRstStreamFrame => some self.encodeRstStreamFrame
  | .encodingRstStreamPayload => some self.encodeRstStreamPayload
  | .encodingPingFrame => some self.encodePingFrame
  | .encodingPingPayload => some self.encodePingPayload

/-- The loop of `encode`, with the written part of the buffer and the rest of it. A round
writes an octet or completes the frame, or it is the last one, so that the fuel, two more than
twice the octets of the buffer, is never used up. -/
def encodeLoop : ℕ → FrameEncoder → Bytes → Bytes → FrameEncoder × Encoded
  | 0, self, written, rest => (self, .ok (written ++ rest, written.length))
  | fuel + 1, self, written, rest =>
    if rest = [] then (self, .ok (written, written.length))
    else
      match self.encodePart with
      | none => (self, .ok (written ++ rest, written.length))
      | some part =>
        match part rest with
        | (next, .error e) => (next, .error e)
        | (next, .ok (buf, bytes)) =>
          if next.state = self.state then
            (next, .ok (written ++ buf, written.length + bytes))
          else encodeLoop fuel next (written ++ buf.take bytes) (buf.drop bytes)

def encode (self : FrameEncoder) (buf : Bytes) : FrameEncoder × Encoded :=
  encodeLoop (2 * buf.length + 2) self [] buf

end FrameEncoder

/-! ## SETTINGS frames that are sent (`util/h2/input.rs`) -/

inductive SettingState where
  | not
  | loc (settings : List Setting)
  | ack

/-- What one setting of an acknowledged SETTINGS frame changes in the encoder. -/
def applySetting : Setting → FrameEncoder
  | .headerTableSize size => encoder.updateHeaderTableSize size.toNat
  | .maxFrameSize size => encoder.updateMaxFrameSize size.toNat
  | _ => encoder

/-- `SendData::update_settings`. The payload of an acknowledgement is that of the frame that
is acknowledged. -/
def updateSettings (frame : Frame) : FrameEncoder × SettingState :=
  match frame.payload with
  | .settings settings =>
    if frame.flags.isAck then (settings.foldl applySetting encoder, .ack)
    else (encoder, .loc settings)
  | _ => (encoder, .not)

end YlongHttp
