import YlongHttp.Model.H3.Decoder
import YlongHttp.Model.H3.Encoder
import YlongHttp.Model.H3.Streams

/-! # The receiving side of the HTTP/3 stream manager (`util/h3/stream_manager.rs`)

What is received on the streams that the server opens: its control stream and its QPACK streams.
Octets of request streams, and the request streams that are resumed, are not part of it. -/

namespace YlongHttp.H3

/-- The parts of `StreamManager` that such octets go through. -/
structure Receiver where
  streams : Streams
  encoder : FrameEncoder
  decoder : FrameDecoder
  peerSettings : Option Settings

namespace Receiver

variable (self : Receiver)

def recvSettingFrame (settings : Settings) : Receiver × Except DispatchErrorKind Unit :=
  if self.peerSettings.isSome then (self, .error (connectionError .h3FrameUnexpected))
  else
    let self := { self with peerSettings := some settings }
    let limited : FrameEncoder × Except H3Error Unit :=
      match settings.qpackMaxTableCapacity with
      | none => (self.encoder, .ok ())
      | some value => self.encoder.setMaxTableCapacity value
    match limited with
    | (encoder, .error e) => ({ self with encoder }, .error (.h3 e))
    | (encoder, .ok ()) =>
      match settings.qpackBlockedStreams with
      | none => ({ self with encoder }, .ok ())
      | some value => ({ self with encoder := encoder.setMaxBlockedStreamSize value }, .ok ())

def recvGoawayFrame (goawayId : ℕ) (channel : ℕ → SendResult) :
    Receiver × Except DispatchErrorKind Unit :=
  let (streams, result) := self.streams.goaway goawayId channel
  ({ self with streams }, result)

/-- What `recv_control_stream` does with a frame, and whether the next one is still the first. -/
def recvControlFrame (channel : ℕ → SendResult) (isFirstFrame : Bool) (frame : Frame)
    (self : Receiver) :
    Receiver × Except DispatchErrorKind Bool :=
  match frame.payload with
  | .settings settings =>
    let (self, result) := self.recvSettingFrame settings
    (self, result.map fun () => false)
  | .goaway goawayId =>
    let (self, result) := self.recvGoawayFrame goawayId channel
    (self, result.map fun () => isFirstFrame)
  | .cancelPush _ => (self, .error (connectionError .h3IdError))
  | _ => (self, .error (connectionError .h3FrameUnexpected))

/-- The loop of `recv_control_stream`. -/
def recvControlFrames (channel : ℕ → SendResult) :
    Bool → List FrameKind → Receiver → Receiver × Except DispatchErrorKind Unit
  | _, [], self => (self, .ok ())
  | isFirstFrame, .complete frame :: frames, self =>
    match self.recvControlFrame channel isFirstFrame frame with
    | (self, .error e) => (self, .error e)
    | (self, .ok true) => (self, .error (connectionError .h3MissingSettings))
    | (self, .ok false) => recvControlFrames channel false frames self
  | isFirstFrame, _ :: frames, self => recvControlFrames channel isFirstFrame frames self

def recvControlStream (id : ℕ) (frames : List FrameKind) (channel : ℕ → SendResult) :
    Receiver × Except DispatchErrorKind Unit :=
  match self.streams.peerControlStreamId with
  | some streamId =>
    if streamId ≠ id then (self, .error (connectionError .h3StreamCreationError))
    else recvControlFrames channel false frames self
  | none =>
    match self.streams.setPeerControlStreamId id with
    | (streams, .error e) => ({ self with streams }, .error e)
    | (streams, .ok ()) => recvControlFrames channel true frames { self with streams }

def recvQpackEncodeStream (id : ℕ) (unblocked : List ℕ) :
    Receiver × Except DispatchErrorKind Unit :=
  match self.streams.setPeerQpackEncodeStreamId id with
  | (streams, .error e) => ({ self with streams }, .error e)
  | (streams, .ok ()) =>
    ({ self with streams := unblocked.foldl Streams.resumeStreamRecv streams }, .ok ())

def recvQpackDecodeStream (order : List ℕ → List ℕ) (self : Receiver) (id : ℕ) (inst : Bytes) :
    Receiver × Except (Fault DispatchErrorKind) Unit :=
  match self.streams.setPeerQpackDecodeStreamId id with
  | (streams, .error e) => ({ self with streams }, .error (.error e))
  | (streams, .ok ()) =>
    match self.encoder.decodeRemoteInst order inst with
    | (encoder, .ok ()) => ({ self with streams, encoder }, .ok ())
    | (encoder, .error (.error e)) => ({ self with streams, encoder }, .error (.error (.h3 e)))
    | (encoder, .error .panic) => ({ self with streams, encoder }, .error .panic)

/-- `process_recv_data`, for a stream that the server opened; `order` and `channel` are what hash
sets and channels answer. -/
def processRecvData (order : List ℕ → List ℕ) (channel : ℕ → SendResult) (self : Receiver)
    (id : ℕ) (octets : Bytes) : Receiver × Except (Fault DispatchErrorKind) Unit :=
  let (decoder, result) := self.decoder.decode id octets
  let self := { self with decoder }
  match result with
  | .ok (.control frames) =>
    let (self, result) := self.recvControlStream id frames channel
    (self, result.mapError .error)
  | .ok (.push _ _) => (self, .error (.error (connectionError .h3IdError)))
  | .ok (.qpackDecoder inst) => recvQpackDecodeStream order self id inst
  | .ok (.qpackEncoder unblocked) =>
    let (self, result) := self.recvQpackEncodeStream id unblocked
    (self, result.mapError .error)
  | .ok .waitingMore | .ok .unknown | .ok (.request _) => (self, .ok ())
  | .error (.error e) =>
    let (streams, result) := self.streams.sendError id (.h3 e) (channel id)
    ({ self with streams }, result.mapError .error)
  | .error .panic => (self, .error .panic)

/-- The octets of a stream in segments, one call for each; the first error closes the connection. -/
def receive (order : List ℕ → List ℕ) (channel : ℕ → SendResult) (id : ℕ) :
    List Bytes → Receiver → Receiver × Except (Fault DispatchErrorKind) Unit
  | [], self => (self, .ok ())
  | octets :: segments, self =>
    match processRecvData order channel self id octets with
    | (self, .error e) => (self, .error e)
    | (self, .ok ()) => receive order channel id segments self

end Receiver

end YlongHttp.H3
