import YlongHttp.Model.H2.Frame
import YlongHttp.Model.Hpack.Decoder

/-! # Decoding of frames (`h2/decoder.rs`)

A method returns the decoder as it leaves it and its result: the client goes on with a
decoder that returned an error. -/

namespace YlongHttp

def frameHeaderLength : ℕ := 9

def defaultMaxFrameSize : UInt32 := (2 : UInt32) <<< 13

def maxAllowedMaxFrameSize : UInt32 := ((2 : UInt32) <<< 23) - 1

def defaultHeaderTableSize : ℕ := 4096

def defaultMaxHeaderListSize : ℕ := 16 <<< 20

def maxInitialWindowSize : ℕ := (1 <<< 31) - 1

inductive FrameKind where
  | complete (frame : Frame)
  | partialFrame
deriving DecidableEq

inductive Stage where
  | header
  | payload

structure FrameHeader where
  streamId : StreamId
  flags : UInt8
  frameType : UInt8
  payloadLength : ℕ

namespace FrameHeader

def new : FrameHeader := { streamId := 0, flags := 0, frameType := 0, payloadLength := 0 }

def isEndStream (self : FrameHeader) : Bool := endStreamMask &&& self.flags = endStreamMask

def isPadded (self : FrameHeader) : Bool := paddedMask &&& self.flags = paddedMask

def isEndHeaders (self : FrameHeader) : Bool := endHeadersMask &&& self.flags = endHeadersMask

def isHeadersPriority (self : FrameHeader) : Bool :=
  headersPriorityMask &&& self.flags = headersPriorityMask

def isAck (self : FrameHeader) : Bool := ackMask &&& self.flags = ackMask

end FrameHeader

/-- The header block that is open, if `isEndHeaders` is false. -/
structure Continuations where
  flags : UInt8
  isEndStream : Bool
  streamId : StreamId
  isEndHeaders : Bool
  promisedStreamId : StreamId

/-- Also what `reset` leaves. -/
def Continuations.new : Continuations :=
  { flags := 0, isEndStream := false, streamId := 0, isEndHeaders := true, promisedStreamId := 0 }

structure FrameDecoder where
  buffer : Bytes
  offset : ℕ
  maxFrameSize : UInt32
  stage : Stage
  header : FrameHeader
  hpack : HpackDecoder
  continuations : Continuations

def protocolError : H2Error := .connectionError .protocolError

def frameSizeError : H2Error := .connectionError .frameSizeError

def isConnectionFrame (id : StreamId) : Bool := id = 0

/-- `get_stream_id`, on the four octets it reads. -/
def getStreamId (t0 t1 t2 t3 : UInt8) : StreamId :=
  ((t0 &&& 0x7f).toUInt32 <<< 24) ||| (t1.toUInt32 <<< 16) ||| (t2.toUInt32 <<< 8) |||
    t3.toUInt32

/-- `get_code_value`, on the four octets it reads. -/
def getCodeValue (t0 t1 t2 t3 : UInt8) : UInt32 :=
  (t0.toUInt32 <<< 24) ||| (t1.toUInt32 <<< 16) ||| (t2.toUInt32 <<< 8) ||| t3.toUInt32

def getSetting (id : UInt16) (value : UInt32) : Except H2Error (Option Setting) :=
  match id with
  | 1 => .ok (some (.headerTableSize value))
  | 2 =>
    match value with
    | 0 => .ok (some (.enablePush false))
    | 1 => .ok (some (.enablePush true))
    | _ => .error protocolError
  | 3 => .ok (some (.maxConcurrentStreams value))
  | 4 =>
    if value.toNat > maxInitialWindowSize then .error (.connectionError .flowControlError)
    else .ok (some (.initialWindowSize value))
  | 5 =>
    if defaultMaxFrameSize ≤ value ∧ value ≤ maxAllowedMaxFrameSize then
      .ok (some (.maxFrameSize value))
    else .error protocolError
  | 6 => .ok (some (.maxHeaderListSize value))
  | _ => .ok none

/-- The loop over the `chunks(6)` of a SETTINGS payload. -/
def splitSettings : Bytes → Except (Fault H2Error) (List Setting)
  | [] => .ok []
  | t0 :: t1 :: t2 :: t3 :: t4 :: t5 :: rest =>
    match getSetting ((t0.toUInt16 <<< 8) ||| t1.toUInt16) (getCodeValue t2 t3 t4 t5) with
    | .error e => .error (.error e)
    | .ok setting =>
      match splitSettings rest with
      | .error e => .error e
      | .ok settings => .ok (setting.toList ++ settings)
  | _ => .error .panic

namespace FrameDecoder

def new : FrameDecoder where
  buffer := []
  offset := 0
  maxFrameSize := defaultMaxFrameSize
  stage := .header
  header := .new
  hpack := .withMaxSize defaultHeaderTableSize defaultMaxHeaderListSize
  continuations := .new

variable (self : FrameDecoder)

def setMaxFrameSize (size : UInt32) : FrameDecoder × Except H2Error Unit :=
  if defaultMaxFrameSize ≤ size ∧ size ≤ maxAllowedMaxFrameSize then
    ({ self with maxFrameSize := size }, .ok ())
  else (self, .error protocolError)

def setMaxHeaderListSize (size : ℕ) : FrameDecoder :=
  { self with hpack := { self.hpack with headerListSize := size } }

/-- The start of the payload decoders: what came earlier of the payload, if anything did, is
put before `buf`, and the rest of the decoder works on both. -/
def withPayload (buf : Bytes)
    (next : FrameDecoder → Bytes → FrameDecoder × Except (Fault H2Error) FrameKind) :
    FrameDecoder × Except (Fault H2Error) FrameKind :=
  if self.offset ≠ 0 then
    next { self with buffer := self.buffer ++ buf, offset := self.offset + buf.length }
      (self.buffer ++ buf)
  else next self buf

/-- A complete frame with the stream and the flags of the header. -/
def completeFrame (payload : Payload) : FrameKind :=
  .complete { id := self.header.streamId, flags := ⟨self.header.flags⟩, payload }

def decodePingPayload (buf : Bytes) : FrameDecoder × Except (Fault H2Error) FrameKind :=
  if !isConnectionFrame self.header.streamId then (self, .error (.error protocolError))
  else
    self.withPayload buf fun self buf =>
    if h : self.header.payloadLength ≠ 8 ∨ buf.length ≠ 8 then
      (self, .error (.error frameSizeError))
    else (self, .ok (self.completeFrame (.ping ⟨buf, by tauto⟩)))

/-- The length of the slice is checked before the buffer is merged. -/
def decodePriorityPayload (buf : Bytes) : FrameDecoder × Except (Fault H2Error) FrameKind :=
  if isConnectionFrame self.header.streamId then (self, .error (.error protocolError))
  else if self.header.payloadLength ≠ 5 ∨ buf.length ≠ 5 then
    (self, .error (.error (.streamError self.header.streamId .frameSizeError)))
  else
    self.withPayload buf fun self buf =>
    match buf with
    | b0 :: b1 :: b2 :: b3 :: b4 :: _ =>
      (self, .ok (self.completeFrame (.priority
        { exclusive := b0 &&& 0x80 = 0x80
          streamDependency := getStreamId b0 b1 b2 b3
          weight := b4 })))
    | _ => (self, .error .panic)

def decodeGoawayPayload (buf : Bytes) : FrameDecoder × Except (Fault H2Error) FrameKind :=
  if !isConnectionFrame self.header.streamId then (self, .error (.error protocolError))
  else
    self.withPayload buf fun self buf =>
    if self.header.payloadLength < 8 ∨ buf.length < 8 then
      (self, .error (.error frameSizeError))
    else
      match buf with
      | b0 :: b1 :: b2 :: b3 :: b4 :: b5 :: b6 :: b7 :: debugData =>
        (self, .ok (self.completeFrame (.goaway
          { errorCode := getCodeValue b4 b5 b6 b7
            lastStreamId := getStreamId b0 b1 b2 b3
            debugData })))
      | _ => (self, .error .panic)

def decodeWindowUpdatePayload (buf : Bytes) : FrameDecoder × Except (Fault H2Error) FrameKind :=
  self.withPayload buf fun self buf =>
  if self.header.payloadLength ≠ 4 ∨ buf.length ≠ 4 then (self, .error (.error frameSizeError))
  else
    match buf with
    | b0 :: b1 :: b2 :: b3 :: _ =>
      let incrementSize := getStreamId b0 b1 b2 b3
      if incrementSize = 0 then
        (self, .error (.error (.streamError self.header.streamId .protocolError)))
      else (self, .ok (self.completeFrame (.windowUpdate incrementSize)))
    | _ => (self, .error .panic)

def decodeResetPayload (buf : Bytes) : FrameDecoder × Except (Fault H2Error) FrameKind :=
  if isConnectionFrame self.header.streamId then (self, .error (.error protocolError))
  else
    self.withPayload buf fun self buf =>
    if self.header.payloadLength ≠ 4 ∨ buf.length ≠ 4 then (self, .error (.error frameSizeError))
    else
      match buf with
      | b0 :: b1 :: b2 :: b3 :: _ =>
        (self, .ok (self.completeFrame (.rstStream (getCodeValue b0 b1 b2 b3))))
      | _ => (self, .error .panic)

def decodeSettingsPayload (buf : Bytes) : FrameDecoder × Except (Fault H2Error) FrameKind :=
  if !isConnectionFrame self.header.streamId then (self, .error (.error protocolError))
  else
    self.withPayload buf fun self buf =>
    if self.header.payloadLength % 6 ≠ 0 then (self, .error (.error frameSizeError))
    else if self.header.isAck then
      if self.header.payloadLength ≠ 0 ∨ buf ≠ [] then (self, .error (.error frameSizeError))
      else (self, .ok (self.completeFrame (.settings [])))
    else
      match splitSettings buf with
      | .error e => (self, .error e)
      | .ok settings => (self, .ok (self.completeFrame (.settings settings)))

def decodeDataPayload (buf : Bytes) : FrameDecoder × Except (Fault H2Error) FrameKind :=
  if isConnectionFrame self.header.streamId then (self, .error (.error protocolError))
  else
    self.withPayload buf fun self buf =>
    if self.header.payloadLength = 0 then (self, .ok (self.completeFrame (.data [])))
    else if self.header.isPadded then
      match buf with
      | [] => (self, .error .panic)
      | b0 :: _ =>
        let paddedLength := b0.toNat
        if self.header.payloadLength ≤ paddedLength then (self, .error (.error protocolError))
        else
          let dataEndIndex := self.header.payloadLength - paddedLength
          if buf.length < dataEndIndex then (self, .error .panic)
          else (self, .ok (self.completeFrame (.data ((buf.take dataEndIndex).drop 1))))
    else if buf.length < self.header.payloadLength then (self, .error .panic)
    else (self, .ok (self.completeFrame (.data (buf.take self.header.payloadLength))))

/-- `hpack_decode` and `hpack_finish`, with the continuation on success. -/
def hpackDecode (buf : Bytes)
    (next : FrameDecoder → FrameDecoder × Except (Fault H2Error) FrameKind) :
    FrameDecoder × Except (Fault H2Error) FrameKind :=
  match self.hpack.decode buf with
  | (hpack, .error e) => ({ self with hpack }, .error e)
  | (hpack, .ok ()) => next { self with hpack }

def hpackFinish (next : FrameDecoder → Parts → FrameDecoder × Except (Fault H2Error) FrameKind) :
    FrameDecoder × Except (Fault H2Error) FrameKind :=
  match self.hpack.finish with
  | (hpack, .error e) => ({ self with hpack }, .error (.error e))
  | (hpack, .ok headers) => next { self with hpack } headers

def decodeContinuationPayload (buf : Bytes) : FrameDecoder × Except (Fault H2Error) FrameKind :=
  if isConnectionFrame self.header.streamId then (self, .error (.error protocolError))
  else
    self.withPayload buf fun self buf =>
    if self.header.isEndHeaders then
      self.hpackDecode buf fun self => self.hpackFinish fun self headers =>
        let payload :=
          if self.continuations.promisedStreamId ≠ 0 then
            Payload.pushPromise
              { promisedStreamId := self.continuations.promisedStreamId, parts := headers }
          else .headers headers
        ({ self with continuations := .new },
          .ok (.complete
            { id := self.continuations.streamId, flags := ⟨self.continuations.flags⟩, payload }))
    else self.hpackDecode buf fun self => (self, .ok .partialFrame)

/-- The start and the end of the fragment in a HEADERS or PUSH_PROMISE payload, from `start`
on and with the padding taken off. -/
def withFragment (buf : Bytes) (start : ℕ)
    (next : ℕ → ℕ → FrameDecoder × Except (Fault H2Error) FrameKind) :
    FrameDecoder × Except (Fault H2Error) FrameKind :=
  if self.header.isPadded then
    match buf with
    | [] => (self, .error .panic)
    | b0 :: _ =>
      let paddedLength := b0.toNat
      if self.header.payloadLength ≤ paddedLength then (self, .error (.error protocolError))
      else next (start + 1) (self.header.payloadLength - paddedLength)
  else next start self.header.payloadLength

def decodeHeadersPayload (buf : Bytes) : FrameDecoder × Except (Fault H2Error) FrameKind :=
  if isConnectionFrame self.header.streamId then (self, .error (.error protocolError))
  else
    self.withPayload buf fun self buf =>
    self.withFragment buf 0 fun start fragmentEndIndex =>
      let fragmentStartIndex := if self.header.isHeadersPriority then start + 5 else start
      if fragmentStartIndex > fragmentEndIndex then (self, .error (.error protocolError))
      else if buf.length < fragmentEndIndex then (self, .error .panic)
      else
        let fragment := (buf.take fragmentEndIndex).drop fragmentStartIndex
        if self.header.isEndHeaders then
          self.hpackDecode fragment fun self => self.hpackFinish fun self headers =>
            (self, .ok (self.completeFrame (.headers headers)))
        else
          let continuations :=
            { self.continuations with
              flags := self.header.flags
              isEndStream := self.header.isEndStream
              isEndHeaders := false
              streamId := self.header.streamId }
          { self with continuations }.hpackDecode fragment fun self => (self, .ok .partialFrame)

def pushPromiseFraming (promisedStreamId : StreamId) :
    FrameDecoder × Except (Fault H2Error) FrameKind :=
  if self.header.isEndHeaders then
    self.hpackFinish fun self headers =>
      (self, .ok (self.completeFrame (.pushPromise { promisedStreamId, parts := headers })))
  else
    ({ self with
      continuations :=
        { self.continuations with
          flags := self.header.flags
          isEndHeaders := false
          streamId := self.header.streamId
          promisedStreamId } }, .ok .partialFrame)

/-- `hpack_decode` gets the whole payload, not only its fragment. -/
def decodePushPromisePayload (buf : Bytes) : FrameDecoder × Except (Fault H2Error) FrameKind :=
  if isConnectionFrame self.header.streamId then (self, .error (.error protocolError))
  else
    self.withPayload buf fun self buf =>
    self.withFragment buf 4 fun fragmentStartIndex fragmentEndIndex =>
      if fragmentStartIndex > fragmentEndIndex then (self, .error (.error protocolError))
      else
        self.hpackDecode buf fun self =>
          match (if self.header.isPadded then buf.drop 1 else buf) with
          | b0 :: b1 :: b2 :: b3 :: _ =>
            let promisedStreamId := getStreamId b0 b1 b2 b3
            if isConnectionFrame promisedStreamId then (self, .error (.error protocolError))
            else self.pushPromiseFraming promisedStreamId
          | _ => (self, .error .panic)

/-- The decoder of a payload, by the type of the frame. -/
def decodePayload (buf : Bytes) : FrameDecoder × Except (Fault H2Error) FrameKind :=
  match self.header.frameType with
  | 0 => self.decodeDataPayload buf
  | 1 => self.decodeHeadersPayload buf
  | 2 => self.decodePriorityPayload buf
  | 3 => self.decodeResetPayload buf
  | 4 => self.decodeSettingsPayload buf
  | 5 => self.decodePushPromisePayload buf
  | 6 => self.decodePingPayload buf
  | 7 => self.decodeGoawayPayload buf
  | 8 => self.decodeWindowUpdatePayload buf
  | 9 => self.decodeContinuationPayload buf
  | _ => (self, .error (.error protocolError))

def decodeFramePayload (buf : Bytes) :
    FrameDecoder × Except (Fault H2Error) (Option (Bytes × FrameKind)) :=
  if !self.continuations.isEndHeaders &&
      (self.header.streamId ≠ self.continuations.streamId || self.header.frameType ≠ 9) then
    (self, .error (.error protocolError))
  else if self.header.payloadLength < self.offset then (self, .error .panic)
  else
    let frameEndIndex := self.header.payloadLength - self.offset
    if buf.length < frameEndIndex then
      ({ self with offset := self.offset + buf.length, buffer := self.buffer ++ buf }, .ok none)
    else
      match self.decodePayload (buf.take frameEndIndex) with
      | (self, .error e) => (self, .error e)
      | (self, .ok frame) =>
        let self := { self with header := .new }
        let self := if self.offset ≠ 0 then { self with offset := 0, buffer := [] } else self
        (self, .ok (some (buf.drop frameEndIndex, frame)))

def decodeFrameHeader (buf : Bytes) : FrameDecoder × Except (Fault H2Error) (Option Bytes) :=
  if frameHeaderLength < self.offset then (self, .error .panic)
  else
    let payloadPos := frameHeaderLength - self.offset
    if buf.length < payloadPos then
      ({ self with offset := self.offset + buf.length, buffer := self.buffer ++ buf }, .ok none)
    else
      let (self, headerBuffer) :=
        if self.offset = 0 then (self, buf)
        else
          let buffer := self.buffer ++ buf.take payloadPos
          ({ self with buffer }, buffer)
      match headerBuffer with
      | b0 :: b1 :: b2 :: b3 :: b4 :: b5 :: b6 :: b7 :: b8 :: _ =>
        let payloadLength := (b0.toNat <<< 16) + (b1.toNat <<< 8) + b2.toNat
        if payloadLength > self.maxFrameSize.toNat then (self, .error (.error frameSizeError))
        else
          let self := if self.offset ≠ 0 then { self with offset := 0, buffer := [] } else self
          ({ self with
            header :=
              { streamId := getStreamId b5 b6 b7 b8, flags := b4, frameType := b3
                payloadLength } }, .ok (some (buf.drop payloadPos)))
      | _ => (self, .error .panic)

/-- The loop of `decode`. A header takes an octet at least, so that the fuel, two more than
twice the octets, is never used up. -/
def decodeLoop : ℕ → FrameDecoder → Bytes → List FrameKind →
    FrameDecoder × Except (Fault H2Error) (List FrameKind)
  | 0, self, _, frames => (self, .ok frames)
  | fuel + 1, self, buffer, frames =>
    match self.stage with
    | .header =>
      match self.decodeFrameHeader buffer with
      | (self, .error e) => (self, .error e)
      | (self, .ok (some remain)) => decodeLoop fuel { self with stage := .payload } remain frames
      | (self, .ok none) => (self, .ok frames)
    | .payload =>
      match self.decodeFramePayload buffer with
      | (self, .error e) => (self, .error e)
      | (self, .ok (some (remain, frame))) =>
        decodeLoop fuel { self with stage := .header } remain (frames ++ [frame])
      | (self, .ok none) => (self, .ok frames)

def decode (self : FrameDecoder) (buf : Bytes) :
    FrameDecoder × Except (Fault H2Error) (List FrameKind) :=
  decodeLoop (2 * buf.length + 2) self buf []

end FrameDecoder

end YlongHttp
