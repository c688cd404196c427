import YlongHttp.Library.Assoc
import YlongHttp.Model.H3.Frame
import YlongHttp.Model.Qpack.Decoder

/-! # The HTTP/3 frame decoder (`h3/decoder.rs`)

The source keeps a buffer and an offset into it; here the buffer holds the octets from the
offset on. -/

namespace YlongHttp.H3

open Library
open Qpack (QpackDecoder QpackError)

inductive DecodeState where
  | streamType
  | pushId
  | frameType
  | payloadLen
  | headersPayload
  | dataPayload
  | settingsPayload
  | variablePayload
  | pushPromisePayload
  | unknownPayload
  | qpackDecoderInst
  | qpackEncoderInst
  | dropUnknown
deriving DecidableEq

inductive StreamType where
  | init
  | request
  | control
  | push
  | qpackEncoder
  | qpackDecoder
  | unknown
deriving DecidableEq

structure DecodedH3Stream where
  ty : StreamType
  state : DecodeState
  buffer : Bytes
  pushId : Option ℕ
  frameType : Option ℕ
  pushFrameId : Option ℕ
  payloadLen : Option ℕ
  streamSet : Bool

inductive DecodePartRes where
  | returnOuter
  | continue

/-- A part of the decoding: the frames it adds, and whether it goes on. -/
abbrev Part := Except (Fault H3Error) (DecodedH3Stream × List FrameKind × DecodePartRes)

def decodeType (integer : ℕ) : StreamType :=
  match integer with
  | 0x0 => .control
  | 0x1 => .push
  | 0x2 => .qpackEncoder
  | 0x3 => .qpackDecoder
  | _ => .unknown

/-- `map_err(DecodeError::QpackError)`. -/
def qpackFault : Fault QpackError → Fault H3Error
  | .error e => .error (.decode (.qpackError e))
  | .panic => .panic

def decodeFault {α : Type} (e : DecodeError) : Except (Fault H3Error) α :=
  .error (.error (.decode e))

namespace DecodedH3Stream

def new (id : ℕ) : DecodedH3Stream where
  ty := if isBidirectional id then .request else .init
  state := if isBidirectional id then .frameType else .streamType
  buffer := []
  pushId := none
  frameType := none
  pushFrameId := none
  payloadLen := none
  streamSet := false

/-- `init_state_by_type`; the types that cannot occur are left as they are. -/
def initState : StreamType → DecodeState
  | .control => .frameType
  | .push => .pushId
  | .qpackEncoder => .qpackEncoderInst
  | .qpackDecoder => .qpackDecoderInst
  | _ => .dropUnknown

variable (self : DecodedH3Stream)

def remainPayloadLen : ℕ := self.payloadLen.getD 0

def subtractPayloadLen (off : ℕ) : Except (Fault H3Error) DecodedH3Stream :=
  match self.payloadLen with
  | none => .error (.error (.serialize .fieldMissing))
  | some curr =>
    if curr < off then .error (.error (.serialize .calculateOverflow))
    else .ok { self with payloadLen := some (curr - off) }

/-- The end of a frame: `clear_frame`, and back to the type of the next one. -/
def endFrame : DecodedH3Stream :=
  { self with frameType := none, payloadLen := none, state := .frameType }

/-- What a part does after a frame that is complete. -/
def afterFrame (frames : List FrameKind) : Part :=
  .ok (self.endFrame, frames, if self.buffer = [] then .returnOuter else .continue)

def decodeStreamType : Part :=
  match getVarint self.buffer with
  | some (integer, buffer) =>
    let ty := decodeType integer
    .ok ({ self with buffer, ty, state := initState ty }, [], .continue)
  | none => .ok (self, [], .returnOuter)

def decodePushId : Part :=
  match getVarint self.buffer with
  | some (integer, buffer) =>
    .ok ({ self with buffer, pushId := some integer, state := .frameType }, [], .continue)
  | none => .ok (self, [], .returnOuter)

/-- Whether a frame of this type may not come on the stream. -/
def unexpected (integer : ℕ) : Bool :=
  if integer = dataFrameType ∨ integer = headersFrameType then
    !(self.ty = .request || self.ty = .push)
  else if integer = pushPromiseFrameType then self.ty ≠ .request
  else if integer = settingsFrameType then self.ty ≠ .control || self.streamSet
  else if integer = cancelPushFrameType then self.ty ≠ .control
  else integer = maxPushIdFrameType

def decodeFrameType : Part :=
  match getVarint self.buffer with
  | some (integer, buffer) =>
    if self.unexpected integer then decodeFault (.unexpectedFrame integer)
    else
      .ok ({ self with
        buffer
        streamSet := self.streamSet || integer = settingsFrameType
        frameType := some integer
        state := .payloadLen }, [], .continue)
  | none => .ok (self, [.incomplete], .returnOuter)

/-- The state in which the payload of a frame is decoded. -/
def payloadState (ty : ℕ) : DecodeState :=
  if ty = dataFrameType then .dataPayload
  else if ty = headersFrameType then .headersPayload
  else if ty = settingsFrameType then .settingsPayload
  else if ty = pushPromiseFrameType then .pushPromisePayload
  else if ty = goawayFrameType ∨ ty = maxPushIdFrameType ∨ ty = cancelPushFrameType then
    .variablePayload
  else .unknownPayload

def decodePayloadLen : Part :=
  match getVarint self.buffer with
  | some (integer, buffer) =>
    match self.frameType with
    | none => .error .panic
    | some ty =>
      .ok ({ self with buffer, payloadLen := some integer, state := payloadState ty }, [], .continue)
  | none => .ok (self, [.incomplete], .returnOuter)

def decodeDataPayload : Part :=
  let payloadLen := self.remainPayloadLen
  let frame data := FrameKind.complete { ty := dataFrameType, payload := .data data }
  if self.buffer.length < payloadLen then do
    let stream ← self.subtractPayloadLen self.buffer.length
    return ({ stream with buffer := [] }, [frame self.buffer, .incomplete], .returnOuter)
  else
    { self with buffer := self.buffer.drop payloadLen }.afterFrame
      [frame (self.buffer.take payloadLen)]

/-- The frame of a decoded header block, in `get_qpack_decoded_header`. -/
def headerFrame (parts : Parts) (ins : Bytes) : Except (Fault H3Error) Frame :=
  let ins := if ins = [] then none else some ins
  if self.frameType = some headersFrameType then
    .ok { ty := headersFrameType, payload := .headers parts ins }
  else if self.frameType = some pushPromiseFrameType then
    match self.pushFrameId with
    | none => .error (.error (.serialize .fieldMissing))
    | some pushId => .ok { ty := pushPromiseFrameType, payload := .pushPromise pushId parts ins }
  else .error .panic

def decodeHeadersPayload (qpackDecoder : QpackDecoder) (id : ℕ) : QpackDecoder × Part :=
  let payloadLen := self.remainPayloadLen
  if self.buffer.length < payloadLen then
    match qpackDecoder.decodeRepr self.buffer id with
    | (qpackDecoder, .error e) => (qpackDecoder, .error (qpackFault e))
    | (qpackDecoder, .ok state) =>
      (qpackDecoder, do
        let stream ← self.subtractPayloadLen self.buffer.length
        return ({ stream with buffer := [] },
          [match state with | .blocked => FrameKind.blocked | .decoded => FrameKind.incomplete], .returnOuter))
  else
    match qpackDecoder.decodeRepr (self.buffer.take payloadLen) id with
    | (qpackDecoder, .error e) => (qpackDecoder, .error (qpackFault e))
    | (qpackDecoder, .ok .blocked) =>
      (qpackDecoder, do
        let stream ← self.subtractPayloadLen payloadLen
        return ({ stream with buffer := self.buffer.drop payloadLen }, [.blocked], .returnOuter))
    | (qpackDecoder, .ok .decoded) =>
      match qpackDecoder.finish id with
      | (qpackDecoder, .error e) => (qpackDecoder, .error (qpackFault e))
      | (qpackDecoder, .ok (parts, ins)) =>
        (qpackDecoder, do
          let frame ← self.headerFrame parts ins
          { self with buffer := self.buffer.drop payloadLen }.afterFrame [.complete frame])

/-- The frame that is one number. -/
def idFrame (ty id : ℕ) : Option Frame :=
  if ty = goawayFrameType then some { ty, payload := .goaway id }
  else if ty = maxPushIdFrameType then some { ty, payload := .maxPushId id }
  else if ty = cancelPushFrameType then some { ty, payload := .cancelPush id }
  else none

/-- `decode_variable_payload`. The declared length is not looked at. -/
def decodeVariablePayload : Part :=
  match getVarint self.buffer with
  | some (id, buffer) =>
    match self.frameType with
    | none => .error .panic
    | some ty =>
      match idFrame ty id with
      | none => decodeFault (.unexpectedFrame ty)
      | some frame => { self with buffer }.afterFrame [.complete frame]
  | none => .ok (self, [.incomplete], .returnOuter)

/-- One setting, in `decode_settings_payload`, with the additional ones so far. -/
def putSetting (settings : Settings) (addition : List (ℕ × ℕ)) (key value : ℕ) :
    Except (Fault H3Error) (Settings × List (ℕ × ℕ)) :=
  if key = settingQpackMaxTableCapacity then
    .ok ({ settings with qpackMaxTableCapacity := some value }, addition)
  else if key = settingEnableConnectProtocol then
    .ok ({ settings with connectProtocolEnabled := some value }, addition)
  else if key = settingH3Datagram then .ok ({ settings with h3Datagram := some value }, addition)
  else if key = settingMaxFieldSectionSize then
    .ok ({ settings with maxFieldSectionSize := some value }, addition)
  else if key = settingQpackBlockedStreams then
    .ok ({ settings with qpackBlockedStreams := some value }, addition)
  else if key = 0x0 ∨ key = 0x2 ∨ key = 0x3 ∨ key = 0x4 ∨ key = 0x5 then
    decodeFault (.unsupportedSetting key)
  else .ok (settings, addition ++ [(key, value)])

/-- The loop of `decode_settings_payload`, while fewer than `payloadLen` octets were read, and
what is left of the buffer. A setting may reach past the payload. -/
def decodeSettings (payloadLen total : ℕ) : ℕ → Settings → List (ℕ × ℕ) → Bytes →
    Except (Fault H3Error) (Settings × List (ℕ × ℕ) × Bytes)
  | 0, settings, addition, buf => .ok (settings, addition, buf)
  | fuel + 1, settings, addition, buf =>
    if total - buf.length < payloadLen then
      match getVarint buf with
      | none => decodeFault (.frameSizeError payloadLen)
      | some (key, buf) =>
        match getVarint buf with
        | none => decodeFault (.frameSizeError payloadLen)
        | some (value, buf) => do
          let (settings, addition) ← putSetting settings addition key value
          decodeSettings payloadLen total fuel settings addition buf
    else .ok (settings, addition, buf)

/-- `decode_settings_payload`. Where octets follow the frame, the offset is not moved past its
payload. -/
def decodeSettingsPayload : Part :=
  let payloadLen := self.remainPayloadLen
  if self.buffer.length < payloadLen then .ok (self, [.incomplete], .returnOuter)
  else do
    let (settings, addition, rest) ←
      decodeSettings payloadLen self.buffer.length self.buffer.length .default [] self.buffer
    let settings := if addition = [] then settings else { settings with additional := some addition }
    let frame := FrameKind.complete { ty := settingsFrameType, payload := .settings settings }
    if rest = [] then return ({ self.endFrame with buffer := [] }, [frame], .returnOuter)
    else return (self.endFrame, [frame], .continue)

/-- `decode_push_payload`. The offset is not moved past the push id. -/
def decodePushPayload : Part :=
  match getVarint self.buffer with
  | some (id, rest) => do
    let stream ← { self with pushFrameId := some id }.subtractPayloadLen
      (self.buffer.length - rest.length)
    return ({ stream with state := .headersPayload }, [], .continue)
  | none => .ok (self, [.incomplete], .returnOuter)

def decodeUnknownPayload : Part :=
  let payloadLen := self.remainPayloadLen
  if self.buffer.length < payloadLen then do
    let stream ← { self with buffer := [] }.subtractPayloadLen self.buffer.length
    return (stream, [.incomplete], .returnOuter)
  else { self with buffer := self.buffer.drop payloadLen }.afterFrame []

def returnByType (frames : List FrameKind) : Except (Fault H3Error) StreamMessage :=
  match self.ty with
  | .request => .ok (.request frames)
  | .push =>
    match self.pushId with
    | none => .error (.error (.serialize .fieldMissing))
    | some pushId => .ok (.push pushId frames)
  | .control => .ok (.control frames)
  | _ =>
    match self.frameType with
    | none => .error .panic
    | some ty => decodeFault (.unexpectedFrame ty)

/-- The part of `decode` for the state of the stream, where it is one of a frame. -/
def decodePart (qpackDecoder : QpackDecoder) (id : ℕ) : QpackDecoder × Part :=
  match self.state with
  | .streamType => (qpackDecoder, self.decodeStreamType)
  | .pushId => (qpackDecoder, self.decodePushId)
  | .frameType => (qpackDecoder, self.decodeFrameType)
  | .payloadLen => (qpackDecoder, self.decodePayloadLen)
  | .headersPayload => self.decodeHeadersPayload qpackDecoder id
  | .dataPayload => (qpackDecoder, self.decodeDataPayload)
  | .settingsPayload => (qpackDecoder, self.decodeSettingsPayload)
  | .variablePayload => (qpackDecoder, self.decodeVariablePayload)
  | .pushPromisePayload => (qpackDecoder, self.decodePushPayload)
  | .unknownPayload => (qpackDecoder, self.decodeUnknownPayload)
  | .qpackDecoderInst | .qpackEncoderInst | .dropUnknown => (qpackDecoder, .error .panic)

/-- The end of a call: the stream that is kept, if any, and the message. -/
abbrev Outcome := QpackDecoder × Option DecodedH3Stream × Except (Fault H3Error) StreamMessage

/-- The message of a part that returns. -/
def outcome (qpackDecoder : QpackDecoder) (state : DecodeState) (frames : List FrameKind) :
    Outcome :=
  if state = .streamType ∨ state = .pushId then (qpackDecoder, some self, .ok .waitingMore)
  else
    match self.returnByType frames with
    | .error e => (qpackDecoder, none, .error e)
    | .ok message => (qpackDecoder, some self, .ok message)

/-- The loop of `decode`. -/
def decodeLoop (id : ℕ) : ℕ → DecodedH3Stream → QpackDecoder → List FrameKind → Outcome
  | 0, _, qpackDecoder, _ => (qpackDecoder, none, .error .panic)
  | fuel + 1, self, qpackDecoder, frames =>
    match self.state with
    | .qpackDecoderInst =>
      (qpackDecoder, some { self with buffer := [] }, .ok (.qpackDecoder self.buffer))
    | .qpackEncoderInst =>
      match qpackDecoder.decodeIns self.buffer with
      | (qpackDecoder, .error e) => (qpackDecoder, none, .error (qpackFault e))
      | (qpackDecoder, .ok unblocked) =>
        (qpackDecoder, some { self with buffer := [] }, .ok (.qpackEncoder unblocked))
    | .dropUnknown => (qpackDecoder, none, .ok .unknown)
    | state =>
      match self.decodePart qpackDecoder id with
      | (qpackDecoder, .error e) => (qpackDecoder, none, .error e)
      | (qpackDecoder, .ok (self, more, .returnOuter)) =>
        self.outcome qpackDecoder state (frames ++ more)
      | (qpackDecoder, .ok (self, more, .continue)) =>
        decodeLoop id fuel self qpackDecoder (frames ++ more)

end DecodedH3Stream

structure FrameDecoder where
  qpackDecoder : QpackDecoder
  streams : AList fun _ : ℕ => DecodedH3Stream

namespace FrameDecoder

def new (maxBlockedStreams maxTableCapacity : ℕ) : FrameDecoder where
  qpackDecoder := .new maxBlockedStreams maxTableCapacity
  streams := ∅

def localAllowedMaxFieldSectionSize (self : FrameDecoder) (size : ℕ) : FrameDecoder :=
  { self with qpackDecoder := self.qpackDecoder.setMaxFieldSectionSize size }

/-- `decode`. Each turn of the loop that goes on has read an octet or follows one that has, and
at most two such turns follow one. -/
def decode (self : FrameDecoder) (id : ℕ) (src : Bytes) :
    FrameDecoder × Except (Fault H3Error) StreamMessage :=
  let stream := (self.streams.lookup id).getD (.new id)
  let stream := { stream with buffer := stream.buffer ++ src }
  let (qpackDecoder, stream, result) :=
    stream.decodeLoop id (3 * stream.buffer.length + 4) self.qpackDecoder []
  ({ qpackDecoder
     streams := match stream with
       | none => self.streams.erase id
       | some stream => (self.streams.erase id).insert id stream }, result)

def finishStream (self : FrameDecoder) (id : ℕ) : FrameDecoder × Except (Fault H3Error) Unit :=
  if isBidirectional id then
    match self.qpackDecoder.finishStream id with
    | (qpackDecoder, .error e) => ({ self with qpackDecoder }, .error (qpackFault e))
    | (qpackDecoder, .ok ()) =>
      ({ self with qpackDecoder, streams := self.streams.erase id }, .ok ())
  else ({ self with streams := self.streams.erase id }, .ok ())

end FrameDecoder

end YlongHttp.H3
