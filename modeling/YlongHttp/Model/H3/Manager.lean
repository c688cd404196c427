import YlongHttp.Model.H3.Encoder
import YlongHttp.Model.H3.Streams

/-! # The sending side of the HTTP/3 stream manager (`util/h3/stream_manager.rs`)

The QUIC library is not part of the repository: what it answers is an argument, and what it was
handed is kept in the state. -/

namespace YlongHttp.H3

open Library

def decodeBufSize : ℕ := 1024

def defaultMaxFrameSize : ℕ := 16 * 1024

/-- What the QUIC library answers to its `n`-th call. -/
structure Quic where
  writable : ℕ → Except QuicError Bool
  capacity : ℕ → Except QuicError ℕ
  send : ℕ → Except QuicError Unit

/-- A call of `stream_send` that was accepted, and the stream that it was made for. -/
structure Sent where
  request : ℕ
  id : ℕ
  octets : Bytes
  fin : Bool
deriving DecidableEq

/-- What the QPACK encoder made of the field lines that it held. -/
structure Produced where
  lines : Option (List (Qpack.NameField × Bytes))
  fields : Bytes
  inst : Bytes

/-- What the next call of `encode` gets from the QPACK encoder. -/
def FrameEncoder.produces (self : FrameEncoder) (id : ℕ) : Option Produced :=
  match self.streams.lookup id with
  | none => none
  | some stream =>
    if stream.state = .encodingHeadersFrame ∧ stream.headersMessage = none then
      (self.qpackEncoder.encode stream.streamId).map fun (_, fields, inst) =>
        { lines := self.qpackEncoder.fieldIter, fields, inst }
    else none

/-- The streams and the encoder, and what has happened to them: what was sent, how often the QUIC
library was called, what was produced for a stream, the encoder where `poll_send_frame` went on
with a frame, and the room for each read of a body. -/
structure StreamManager where
  streams : Streams
  encoder : FrameEncoder
  sent : List Sent
  asked : ℕ
  produced : List (ℕ × Produced)
  resumed : List (ℕ × FrameEncoder)
  reads : List (ℕ × ℕ × Option BodyDataRef)

/-- What the stream manager computes; a panic is an error that nothing catches. -/
abbrev ManagerM := EStateM (Fault DispatchErrorKind) StreamManager

variable (quic : Quic)

namespace StreamManager

def new : StreamManager where
  streams := .new
  encoder := .default
  sent := []
  asked := 0
  produced := []
  resumed := []
  reads := []

/-! ## Calls of the parts -/

def onStreams {α : Type} (f : Streams → Streams × Except DispatchErrorKind α) : ManagerM α :=
  fun self =>
    match f self.streams with
    | (streams, .ok a) => .ok a { self with streams }
    | (streams, .error e) => .error (.error e) { self with streams }

def onEncoder {α : Type} (f : FrameEncoder → FrameEncoder × Except (Fault H3Error) α) : ManagerM α :=
  fun self =>
    match f self.encoder with
    | (encoder, .ok a) => .ok a { self with encoder }
    | (encoder, .error (.error e)) => .error (.error (.h3 e)) { self with encoder }
    | (encoder, .error .panic) => .error .panic { self with encoder }

variable (id : ℕ)

def setFrame (frame : Frame) : ManagerM Unit :=
  onEncoder fun encoder =>
    match encoder.setFrame id frame with
    | (encoder, result) => (encoder, result.mapError .error)

/-- `encode`, with the two buffers of the stream manager. -/
def encodeFrame : ManagerM (Bytes × Bytes) := do
  modify fun self => { self with
    produced := self.produced ++ ((self.encoder.produces id).map fun r => (id, r)).toList }
  onEncoder (·.encode id decodeBufSize decodeBufSize)

/-- A call of the QUIC library, with what it answers. -/
def ask {α : Type} (answer : ℕ → α) : ManagerM α :=
  fun self => .ok (answer self.asked) { self with asked := self.asked + 1 }

/-- `?` after a call of the QUIC library. -/
def orQuic {α : Type} : Except QuicError α → ManagerM α
  | .ok a => pure a
  | .error e => throw (.error (.quic e))

/-- `stream_writable`, whose error is returned. -/
def streamWritable : ManagerM Bool := do
  orQuic (← ask quic.writable)

def streamSend (request id : ℕ) (octets : Bytes) (fin : Bool) : ManagerM Unit := do
  orQuic (← ask quic.send)
  modify fun self => { self with sent := self.sent ++ [{ request, id, octets, fin }] }

/-- Octets are sent where there are any. -/
def sendSome (request id : ℕ) (octets : Bytes) : ManagerM Unit :=
  if octets = [] then pure () else streamSend quic request id octets false

/-- `encoding`. -/
def isEncoding : ManagerM Bool := onStreams fun streams => (streams, streams.encoding id)

/-- `qpack_encode_stream_id`, which takes an id where there is none yet. -/
def qpackEncodeStreamId : ManagerM ℕ :=
  onStreams fun streams =>
    match streams.qpackEncodeStreamId with
    | some id => (streams, .ok id)
    | none =>
      match streams.getNextUniStreamId with
      | (streams, none) => (streams, .error (connectionError .h3InternalError))
      | (streams, some id) => ({ streams with qpackEncodeStreamId := some id }, .ok id)

/-! ## Sending -/

/-- The loop of `poll_send_header`, of at most so many turns. -/
def sendHeaderLoop (quic : Quic) (qpackId id : ℕ) : ℕ → ManagerM Unit
  | 0 => throw .panic
  | fuel + 1 => do
    if ← streamWritable quic then
      if ← streamWritable quic then
        let (octets, inst) ← encodeFrame id
        sendSome quic id qpackId inst
        sendSome quic id id octets
        if inst = [] ∧ octets = [] then onStreams (·.setEncoding id false)
        else sendHeaderLoop quic qpackId id fuel
      else pure ()
    else pure ()

/-- A stream that the QUIC library does not know yet is opened by an empty send. -/
def openStream (id : ℕ) : ManagerM Unit := do
  match ← ask quic.writable with
  | .error (.invalidStreamState _) => streamSend quic id id [] false
  | _ => pure ()

def pollSendHeader (fuel id : ℕ) (frame : Frame) : ManagerM Unit := do
  onStreams (·.setEncoding id true)
  setFrame id frame
  let qpackId ← qpackEncodeStreamId
  openStream quic id
  sendHeaderLoop quic qpackId id fuel

/-- The loop of `poll_send_frame`. The instructions that the encoder writes are not sent. -/
def sendFrameLoop (quic : Quic) (id : ℕ) : ℕ → ManagerM Unit
  | 0 => throw .panic
  | fuel + 1 => do
    if ← streamWritable quic then
      let (octets, _) ← encodeFrame id
      if octets = [] then onStreams (·.setEncoding id false)
      else do
        streamSend quic id id octets false
        sendFrameLoop quic id fuel
    else pure ()

def pollSendFrame (fuel id : ℕ) : Option Frame → ManagerM Unit
  | none => do
    modify fun self => { self with resumed := self.resumed ++ [(id, self.encoder)] }
    sendFrameLoop quic id fuel
  | some frame => do
    onStreams (·.setEncoding id true)
    setFrame id frame
    sendFrameLoop quic id fuel

/-- Whether the peer has not stopped the stream; other errors are returned. -/
def unlessStopped (m : ManagerM Unit) : ManagerM Bool :=
  tryCatch (do m; return true) fun
    | .error (.quic (.streamStopped _)) => return false
    | e => throw e

def pollReadBody (id : ℕ) : ManagerM DataReadState := do
  match ← ask quic.capacity with
  | .error _ => throw (.error (.h3 (.stream id .h3InternalError)))
  | .ok capacity => do
    let len := min capacity defaultMaxFrameSize
    modify fun self => { self with
      reads := self.reads ++ [(id, len, (self.streams.stream? id).map (·.data))] }
    onStreams (·.pollSizedData id len)

/-- The stream goes to the end of the queue. -/
def sendLater : ManagerM Unit :=
  onStreams fun streams => (streams.pushBackPendingSend id, .ok ())

/-- The loop of `input_stream_frame`. -/
def readLoop (quic : Quic) (fuel id : ℕ) : ℕ → ManagerM Unit
  | 0 => throw .panic
  | turns + 1 => do
    match ← pollReadBody quic id with
    | .closed | .pending => pure ()
    | .ready data =>
      if ← unlessStopped (pollSendFrame quic fuel id (some data)) then
        if ← isEncoding id then sendLater id else readLoop quic fuel id turns
      else pure ()
    | .finish => streamSend quic id id [] true

/-- The frame that is still encoded goes first; whether the body is read then. -/
def resumeFrame (fuel id : ℕ) : ManagerM Bool := do
  if ← isEncoding id then
    if ← unlessStopped (pollSendFrame quic fuel id none) then
      if ← isEncoding id then do
        sendLater id
        return false
      else return true
    else return false
  else return true

/-- A header that was taken is sent. -/
def sendHeader (fuel id : ℕ) : Option Frame → ManagerM Unit
  | some header => pollSendHeader quic fuel id header
  | none => pure ()

def inputStreamFrame (fuel id : ℕ) : ManagerM Unit := do
  sendHeader quic fuel id (← onStreams (·.getHeader id))
  if ← resumeFrame quic fuel id then readLoop quic fuel id fuel else pure ()

/-- The loop of `poll_input_request`. -/
def inputLoop (quic : Quic) (fuel : ℕ) : ℕ → ManagerM Unit
  | 0 => pure ()
  | turns + 1 => do
    match ← onStreams fun streams => (streams.nextStream.1, .ok streams.nextStream.2) with
    | some id => do
      inputStreamFrame quic fuel id
      inputLoop quic fuel turns
    | none => pure ()

def pollInputRequest (fuel : ℕ) : ManagerM Unit := do
  onStreams fun streams => (streams.tryConsumePendingConcurrency, .ok ())
  inputLoop quic fuel (← get).streams.pendingSend.length

end StreamManager

/-! ## The start of a connection -/

namespace StreamManager

def controlStreamId : ManagerM ℕ :=
  onStreams fun streams =>
    match streams.controlStreamId with
    | some id => (streams, .ok id)
    | none =>
      match streams.getNextUniStreamId with
      | (streams, none) => (streams, .error (connectionError .h3InternalError))
      | (streams, some id) => ({ streams with controlStreamId := some id }, .ok id)

def qpackDecodeStreamId : ManagerM ℕ :=
  onStreams fun streams =>
    match streams.qpackDecodeStreamId with
    | some id => (streams, .ok id)
    | none =>
      match streams.getNextUniStreamId with
      | (streams, none) => (streams, .error (connectionError .h3InternalError))
      | (streams, some id) => ({ streams with qpackDecodeStreamId := some id }, .ok id)

/-- The loop of `send_settings`. -/
def sendSettingsLoop (quic : Quic) (id : ℕ) : ℕ → ManagerM Unit
  | 0 => throw .panic
  | fuel + 1 => do
    let (octets, _) ← encodeFrame id
    if octets = [] then pure ()
    else do
      streamSend quic id id octets false
      sendSettingsLoop quic id fuel

/-- `init`, with the settings of the configuration. -/
def init (fuel : ℕ) (settings : Settings) : ManagerM Unit := do
  let controlId ← controlStreamId
  streamSend quic controlId controlId [0x0] false
  setFrame controlId { ty := settingsFrameType, payload := .settings settings }
  sendSettingsLoop quic controlId fuel
  let encodeId ← qpackEncodeStreamId
  streamSend quic encodeId encodeId [0x2] false
  let decodeId ← qpackDecodeStreamId
  streamSend quic decodeId decodeId [0x3] false

end StreamManager

/-! ## Runs of the stream manager -/

/-- The calls that the stream manager makes outside of `poll_input_request`. A GOAWAY is not an
error that it comes to. -/
def Call.outer : Call → Bool
  | .admission | .next | .sendLater _ | .takeHeader _ | .setEncoding _ _ | .readBody _ _ => false
  | .error _ e _ => match e with | .h3 _ => true | _ => false
  | .shutdown e _ => e ≠ .goawayReceived
  | _ => true

inductive Action where
  | input (quic : Quic) (fuel : ℕ)
  | call (c : Call) (outer : c.outer = true)
  | setMaxTableCapacity (maxCap : ℕ)
  | setMaxBlockedStreamSize (maxBlocked : ℕ)
  | decodeRemoteInst (order : List ℕ → List ℕ) (inst : Bytes)
  | finishEncoding (id : ℕ)

namespace StreamManager

/-- The state after an action; `none` is a panic. An error that is returned is dealt with by
further actions. -/
def step (self : StreamManager) : Action → Option StreamManager
  | .input quic fuel =>
    match pollInputRequest quic fuel self with
    | .error .panic _ => none
    | .error (.error _) self | .ok _ self => some self
  | .call c _ => (self.streams.call c).map fun streams => { self with streams }
  | .setMaxTableCapacity maxCap =>
    some { self with encoder := (self.encoder.setMaxTableCapacity maxCap).1 }
  | .setMaxBlockedStreamSize maxBlocked =>
    some { self with encoder := self.encoder.setMaxBlockedStreamSize maxBlocked }
  | .decodeRemoteInst order inst =>
    match self.encoder.decodeRemoteInst order inst with
    | (_, .error .panic) => none
    | (encoder, _) => some { self with encoder }
  | .finishEncoding id => some { self with encoder := (self.encoder.finishStream id).1 }

def steps : StreamManager → List Action → Option StreamManager
  | self, [] => some self
  | self, a :: as => (self.step a).bind (steps · as)

end StreamManager

end YlongHttp.H3
