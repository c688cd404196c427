import YlongHttp.Library.Assoc
import YlongHttp.Model.H3.Frame
import YlongHttp.Model.Qpack.Encoder

/-! # The HTTP/3 frame encoder (`h3/encoder.rs`)

A function that fills a buffer returns what it has written, and the size it reports where that
is not the length of what it has written. -/

namespace YlongHttp.H3

open Library
open Qpack (QpackEncoder)

inductive FrameEncoderState where
  | idle
  | frameComplete
  | encodingHeadersFrame
  | encodingHeadersPayload
  | encodingDataFrame
  | encodingDataPayload
  | encodingCancelPushFrame
  | encodingSettingsFrame
  | encodingSettingsPayload
  | encodingGoawayFrame
  | encodingMaxPushIdFrame
deriving DecidableEq

/-- `EncHeaders`: a field section and its instructions, and how much of each was written. -/
structure EncHeaders where
  fields : Bytes
  inst : Bytes
  reprOffset : ℕ
  instOffset : ℕ

namespace EncHeaders

def new (fields inst : Bytes) : EncHeaders := { fields, inst, reprOffset := 0, instOffset := 0 }

def remainingRepr (self : EncHeaders) : ℕ := self.fields.length - self.reprOffset

def remainingInst (self : EncHeaders) : ℕ := self.inst.length - self.instOffset

end EncHeaders

structure EncodedH3Stream where
  streamId : ℕ
  headersMessage : Option EncHeaders
  currentFrame : Option Frame
  state : FrameEncoderState
  payloadOffset : ℕ

/-- The settings in the order in which they are written. -/
def Settings.pairs (settings : Settings) : List (ℕ × ℕ) :=
  (settings.maxFieldSectionSize.map fun v => (settingMaxFieldSectionSize, v)).toList ++
  (settings.connectProtocolEnabled.map fun v => (settingEnableConnectProtocol, v)).toList ++
  (settings.qpackMaxTableCapacity.map fun v => (settingQpackMaxTableCapacity, v)).toList ++
  (settings.qpackBlockedStreams.map fun v => (settingQpackBlockedStreams, v)).toList ++
  (settings.h3Datagram.map fun v => (settingH3Datagram, v)).toList

/-- The sum of `varint_len` over keys and values; `none` is a panic. -/
def pairsLen : List (ℕ × ℕ) → Option ℕ
  | [] => some 0
  | (key, value) :: pairs => do
    let keyLen ← varintLen key
    let valueLen ← varintLen value
    let rest ← pairsLen pairs
    return keyLen + valueLen + rest

/-- The keys and values, one after another. -/
def encodePairs : List (ℕ × ℕ) → ℕ → Except (Fault H3Error) Bytes
  | [], _ => .ok []
  | (key, value) :: pairs, room => do
    let key ← encodeVarInteger key room
    let value ← encodeVarInteger value (room - key.length)
    let rest ← encodePairs pairs (room - key.length - value.length)
    return key ++ value ++ rest

namespace EncodedH3Stream

def new (streamId : ℕ) : EncodedH3Stream where
  streamId
  headersMessage := none
  currentFrame := none
  state := .idle
  payloadOffset := 0

def fault {α : Type} (e : EncodeError) : Except (Fault H3Error) α := .error (.error (.encode e))

variable (self : EncodedH3Stream)

def encodeFrameType (room : ℕ) : Except (Fault H3Error) Bytes :=
  match self.currentFrame with
  | none => fault .noCurrentFrame
  | some frame => encodeVarInteger frame.ty room

def encodeDataLen (room : ℕ) : Except (Fault H3Error) Bytes :=
  match self.currentFrame with
  | none => fault .noCurrentFrame
  | some frame =>
    match frame.payload with
    | .data data => encodeVarInteger data.length room
    | _ => fault .wrongTypeFrame

def encodeDataPayload (room : ℕ) : EncodedH3Stream × Except (Fault H3Error) Bytes :=
  match self.currentFrame with
  | none => (self, fault .noCurrentFrame)
  | some frame =>
    match frame.payload with
    | .data data =>
      if room ≥ data.length - self.payloadOffset then
        ({ self with payloadOffset := 0, state := .frameComplete },
          .ok (data.drop self.payloadOffset))
      else
        ({ self with payloadOffset := self.payloadOffset + room },
          .ok ((data.drop self.payloadOffset).take room))
    | _ => (self, fault .wrongTypeFrame)

def encodeSettingsLen (room : ℕ) : Except (Fault H3Error) Bytes :=
  match self.currentFrame with
  | none => fault .noCurrentFrame
  | some frame =>
    match frame.payload with
    | .settings settings =>
      match pairsLen settings.pairs with
      | none => .error .panic
      | some written =>
        match settings.additional with
        | none => encodeVarInteger written room
        | some additional =>
          if additional.length > 50 then fault .tooManySettings
          else
            match pairsLen additional with
            | none => .error .panic
            | some more => encodeVarInteger (written + more) room
    | _ => fault .wrongTypeFrame

def encodeSettingsPayload (room : ℕ) : EncodedH3Stream × Except (Fault H3Error) Bytes :=
  match self.currentFrame with
  | none => (self, fault .noCurrentFrame)
  | some frame =>
    match frame.payload with
    | .settings settings =>
      ({ self with state := .frameComplete },
        encodePairs (settings.pairs ++ settings.additional.getD []) room)
    | _ => (self, fault .wrongTypeFrame)

/-- A frame whose payload is one number: what is written, and the size that is reported, which
leaves out that of the length. -/
def encodeId (id room : ℕ) : EncodedH3Stream × Except (Fault H3Error) (Bytes × ℕ) :=
  match varintLen id with
  | none => (self, .error .panic)
  | some len =>
    match encodeVarInteger len room with
    | .error e => (self, .error e)
    | .ok size =>
      ({ self with state := .frameComplete },
        (encodeVarInteger id (room - size.length)).map fun id => (size ++ id, id.length))

def encodeCancelPush (room : ℕ) : EncodedH3Stream × Except (Fault H3Error) (Bytes × ℕ) :=
  match self.currentFrame with
  | none => (self, fault .noCurrentFrame)
  | some frame =>
    match frame.payload with
    | .cancelPush pushId => self.encodeId pushId room
    | _ => (self, fault .wrongTypeFrame)

def encodeGoaway (room : ℕ) : EncodedH3Stream × Except (Fault H3Error) (Bytes × ℕ) :=
  match self.currentFrame with
  | none => (self, fault .noCurrentFrame)
  | some frame =>
    match frame.payload with
    | .goaway id => self.encodeId id room
    | _ => (self, fault .wrongTypeFrame)

def encodeMaxPushId (room : ℕ) : EncodedH3Stream × Except (Fault H3Error) (Bytes × ℕ) :=
  match self.currentFrame with
  | none => (self, fault .noCurrentFrame)
  | some frame =>
    match frame.payload with
    | .maxPushId pushId => self.encodeId pushId room
    | _ => (self, fault .wrongTypeFrame)

def encodeHeadersReprAndInst (room instRoom : ℕ) : EncodedH3Stream × Bytes × Bytes :=
  match self.headersMessage with
  | none => (self, [], [])
  | some message =>
    let repr := (message.fields.drop message.reprOffset).take room
    let inst := (message.inst.drop message.instOffset).take instRoom
    let message := { message with
      reprOffset := message.reprOffset + repr.length
      instOffset := message.instOffset + inst.length }
    if message.remainingRepr = 0 ∧ message.remainingInst = 0 then
      ({ self with state := .frameComplete, headersMessage := none }, repr, inst)
    else ({ self with headersMessage := some message }, repr, inst)

def encodeHeadersWithQpack (qpackEncoder : QpackEncoder) (room instRoom : ℕ) :
    (EncodedH3Stream × QpackEncoder) × Except (Fault H3Error) (Bytes × Bytes) :=
  match self.headersMessage with
  | some _ =>
    let (self, repr, inst) := self.encodeHeadersReprAndInst room instRoom
    ((self, qpackEncoder), .ok (repr, inst))
  | none =>
    match qpackEncoder.encode self.streamId with
    | none => ((self, qpackEncoder), .error .panic)
    | some (qpackEncoder, fields, inst) =>
      let self := { self with headersMessage := some (.new fields inst) }
      match encodeVarInteger fields.length room with
      | .error e => ((self, qpackEncoder), .error e)
      | .ok size =>
        let (self, repr, inst) := self.encodeHeadersReprAndInst (room - size.length) instRoom
        ((self, qpackEncoder), .ok (size ++ repr, inst))

def encodeHeadersPayload (qpackEncoder : QpackEncoder) (room instRoom : ℕ) :
    (EncodedH3Stream × QpackEncoder) × Except (Fault H3Error) (Bytes × Bytes) :=
  match self.currentFrame with
  | none => ((self, qpackEncoder), fault .noCurrentFrame)
  | some frame =>
    match frame.payload with
    | .headers _ _ => self.encodeHeadersWithQpack qpackEncoder room instRoom
    | _ => ((self, qpackEncoder), fault .wrongTypeFrame)

/-- The octets of the reported size. -/
def reported (written : Bytes) (piece : Bytes × ℕ) : Bytes :=
  (written ++ piece.1).take (written.length + piece.2)

/-- The loop of `encode`, with what was written so far. -/
def encodeLoop (room instRoom : ℕ) : ℕ → EncodedH3Stream → QpackEncoder → Bytes →
    (EncodedH3Stream × QpackEncoder) × Except (Fault H3Error) (Bytes × Bytes)
  | 0, self, qpackEncoder, written => ((self, qpackEncoder), .ok (written, []))
  | fuel + 1, self, qpackEncoder, written =>
    if room ≤ written.length then ((self, qpackEncoder), .ok (written, []))
    else
      let rest := room - written.length
      match self.state with
      | .idle | .frameComplete => ((self, qpackEncoder), .ok (written, []))
      | .encodingHeadersFrame =>
        match self.encodeFrameType room with
        | .error e => ((self, qpackEncoder), .error e)
        | .ok ty =>
          encodeLoop room instRoom fuel { self with state := .encodingHeadersPayload } qpackEncoder
            (written ++ ty)
      | .encodingHeadersPayload =>
        match self.encodeHeadersPayload qpackEncoder rest instRoom with
        | (self, .error e) => (self, .error e)
        | (self, .ok (payload, inst)) => (self, .ok (written ++ payload, inst))
      | .encodingDataFrame =>
        match self.encodeFrameType room with
        | .error e => ((self, qpackEncoder), .error e)
        | .ok ty =>
          match self.encodeDataLen (rest - ty.length) with
          | .error e => ((self, qpackEncoder), .error e)
          | .ok len =>
            encodeLoop room instRoom fuel { self with state := .encodingDataPayload } qpackEncoder
              (written ++ ty ++ len)
      | .encodingDataPayload =>
        let (self, payload) := self.encodeDataPayload rest
        ((self, qpackEncoder), payload.map fun payload => (written ++ payload, []))
      | .encodingSettingsFrame =>
        match self.encodeFrameType room with
        | .error e => ((self, qpackEncoder), .error e)
        | .ok ty =>
          match self.encodeSettingsLen (rest - ty.length) with
          | .error e => ((self, qpackEncoder), .error e)
          | .ok len =>
            encodeLoop room instRoom fuel { self with state := .encodingSettingsPayload }
              qpackEncoder (written ++ ty ++ len)
      | .encodingSettingsPayload =>
        let (self, payload) := self.encodeSettingsPayload rest
        ((self, qpackEncoder), payload.map fun payload => (written ++ payload, []))
      | .encodingCancelPushFrame =>
        match self.encodeFrameType room with
        | .error e => ((self, qpackEncoder), .error e)
        | .ok ty =>
          let (self, piece) := self.encodeCancelPush (rest - ty.length)
          ((self, qpackEncoder), piece.map fun piece => (reported (written ++ ty) piece, []))
      | .encodingGoawayFrame =>
        match self.encodeFrameType room with
        | .error e => ((self, qpackEncoder), .error e)
        | .ok ty =>
          let (self, piece) := self.encodeGoaway (rest - ty.length)
          ((self, qpackEncoder), piece.map fun piece => (reported (written ++ ty) piece, []))
      | .encodingMaxPushIdFrame =>
        match self.encodeFrameType room with
        | .error e => ((self, qpackEncoder), .error e)
        | .ok ty =>
          let (self, piece) := self.encodeMaxPushId (rest - ty.length)
          ((self, qpackEncoder), piece.map fun piece => (reported (written ++ ty) piece, []))

end EncodedH3Stream

structure FrameEncoder where
  qpackEncoder : QpackEncoder
  streams : AList fun _ : ℕ => EncodedH3Stream

namespace FrameEncoder

def default : FrameEncoder := { qpackEncoder := .default, streams := ∅ }

def setMaxTableCapacity (self : FrameEncoder) (maxCap : ℕ) : FrameEncoder × Except H3Error Unit :=
  match self.qpackEncoder.setMaxTableCapacity maxCap with
  | none => (self, .error (.encode (.qpackError (.connectionError .h3SettingsError))))
  | some qpackEncoder => ({ self with qpackEncoder }, .ok ())

def setMaxBlockedStreamSize (self : FrameEncoder) (maxBlocked : ℕ) : FrameEncoder :=
  { self with qpackEncoder := self.qpackEncoder.setMaxBlockedStreamSize maxBlocked }

def setFrame (self : FrameEncoder) (streamId : ℕ) (frame : Frame) :
    FrameEncoder × Except H3Error Unit :=
  let stream := (self.streams.lookup streamId).getD (.new streamId)
  let put (stream : EncodedH3Stream) : FrameEncoder :=
    { self with streams := self.streams.insert streamId stream }
  if stream.state ≠ .idle ∧ stream.state ≠ .frameComplete then
    (put stream, .error (.encode .repeatSetFrame))
  else
    let stream := { stream with currentFrame := some frame }
    if frame.ty = headersFrameType then
      match frame.payload with
      | .headers parts _ =>
        ({ put { stream with state := .encodingHeadersFrame } with
            qpackEncoder := self.qpackEncoder.setParts parts }, .ok ())
      | _ => (put stream, .ok ())
    else if frame.ty = dataFrameType then
      (put { stream with state := .encodingDataFrame }, .ok ())
    else if frame.ty = cancelPushFrameType then
      (put { stream with state := .encodingCancelPushFrame }, .ok ())
    else if frame.ty = settingsFrameType then
      (put { stream with state := .encodingSettingsFrame }, .ok ())
    else if frame.ty = goawayFrameType then
      (put { stream with state := .encodingGoawayFrame }, .ok ())
    else if frame.ty = maxPushIdFrameType then
      (put { stream with state := .encodingMaxPushIdFrame }, .ok ())
    else (put stream, .error (.encode .unknownFrameType))

/-- `encode`: the octets of the frame and of the instructions, as many as it reports. -/
def encode (self : FrameEncoder) (streamId room instRoom : ℕ) :
    FrameEncoder × Except (Fault H3Error) (Bytes × Bytes) :=
  if room < 1024 then (self, .error (.error (.serialize .bufferTooShort)))
  else
    match self.streams.lookup streamId with
    | none => (self, .error (.error (.serialize .internalError)))
    | some stream =>
      let ((stream, qpackEncoder), result) :=
        stream.encodeLoop room instRoom room self.qpackEncoder []
      ({ qpackEncoder, streams := modify streamId (fun _ => stream) self.streams }, result)

def finishStream (self : FrameEncoder) (id : ℕ) : FrameEncoder × Except H3Error Unit :=
  if isBidirectional id ∧ (self.qpackEncoder.trackedStream.lookup id).isSome then
    (self, .error (.encode (.qpackError (.connectionError .encoderStreamError))))
  else ({ self with streams := self.streams.erase id }, .ok ())

def decodeRemoteInst (order : List ℕ → List ℕ) (self : FrameEncoder) (buf : Bytes) :
    FrameEncoder × Except (Fault H3Error) Unit :=
  let (qpackEncoder, result) := self.qpackEncoder.decodeIns order buf
  ({ self with qpackEncoder }, result.mapError fun
    | .error e => .error (.decode (.qpackError e))
    | .panic => .panic)

end FrameEncoder

end YlongHttp.H3
