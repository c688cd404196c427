import YlongHttp.Model.Client.Manager
import YlongHttp.Model.H2.Decoder

/-! # The receiving side of the client (`util/h2/output.rs`)

`RecvData`, and what it gets out of the decoder. -/

namespace YlongHttp

/-- The length of the buffer of `poll_read_frame`. -/
def readBufferSize : ℕ := 1024

/-- What `poll_read_frame` gets out of the decoder, one read after another. An error is
passed on and the next read is decoded; a panic ends the task. -/
def recvData : FrameDecoder → List Bytes → List (Except (Fault H2Error) FrameKind)
  | _, [] => []
  | decoder, read :: reads =>
    match decoder.decode read with
    | (decoder, .ok frames) => frames.map .ok ++ recvData decoder reads
    | (decoder, .error (.error e)) => .error (.error e) :: recvData decoder reads
    | (_, .error .panic) => [.error .panic]

/-! ## The loop of the task -/

/-- A message to the manager. -/
inductive OutputMessage where
  | output (frame : Frame)
  | outputExit (kind : DispatchErrorKind)

inductive DecodeState where
  | read
  | send
  | exit (e : DispatchErrorKind)

structure RecvData where
  decoder : FrameDecoder
  state : DecodeState
  nextState : DecodeState
  currMessage : Option OutputMessage
  pendingIter : Option (List FrameKind)
  /-- What was put in the channel of the manager, the last of it first. -/
  messages : List OutputMessage

/-- What the connection answers to one read. -/
inductive SocketRead where
  | octets (octets : Bytes)
  | pending
  | failed

/-- What the task meets in one turn of its loop: the answer of the connection, that of the
channel to a message when it has taken so many before, and the settings of the client. -/
structure RecvEnvironment where
  socket : SocketRead
  channel : ℕ → SendResult
  settings : SettingsState

namespace RecvData

def new (decoder : FrameDecoder) : RecvData :=
  { decoder, state := .read, nextState := .read, currMessage := none, pendingIter := none,
    messages := [] }

variable (self : RecvData)

def transmitMessage (env : RecvEnvironment) (message : OutputMessage) :
    RecvData × Poll (Except DispatchErrorKind Unit) :=
  match env.channel self.messages.length with
  | .sent => ({ self with messages := message :: self.messages }, .ready (.ok ()))
  | .closed => (self, .ready (.error .channelClosed))
  | .full => ({ self with state := .send, currMessage := some message }, .pending)

def transmitError (env : RecvEnvironment) (exitErr : DispatchErrorKind) :
    RecvData × Poll (Except DispatchErrorKind Unit) :=
  match self.transmitMessage env (.outputExit exitErr) with
  | (self, .ready _) => (self, .ready (.error exitErr))
  | (self, .pending) => ({ self with nextState := .exit exitErr }, .pending)

/-- The loop of `update_decoder_settings`. -/
def applySettings : List Setting → FrameDecoder → FrameDecoder × Except H2Error Unit
  | [], decoder => (decoder, .ok ())
  | .maxHeaderListSize size :: settings, decoder =>
    applySettings settings (decoder.setMaxHeaderListSize size.toNat)
  | .maxFrameSize size :: settings, decoder =>
    match decoder.setMaxFrameSize size with
    | (decoder, .error e) => (decoder, .error e)
    | (decoder, .ok ()) => applySettings settings decoder
  | _ :: settings, decoder => applySettings settings decoder

def updateDecoderSettings (settings : SettingsState) : RecvData × Except H2Error Unit :=
  match settings with
  | .acknowledging settings =>
    let (decoder, result) := applySettings settings self.decoder
    ({ self with decoder }, result)
  | .synced => (self, .error (.connectionError .connectError))

def updateSettings (settings : SettingsState) (frame : Frame) : RecvData × Except H2Error Unit :=
  match frame.payload with
  | .settings _ => if frame.flags.isAck then self.updateDecoderSettings settings else (self, .ok ())
  | _ => (self, .ok ())

/-- The message for a frame. -/
def message (settings : SettingsState) (frame : Frame) : RecvData × OutputMessage :=
  match self.updateSettings settings frame with
  | (self, .error e) => (self, .outputExit (.h2 e))
  | (self, .ok ()) => (self, .output frame)

def pollIteratorFrames (env : RecvEnvironment) :
    List FrameKind → RecvData → RecvData × Poll (Except DispatchErrorKind Unit)
  | [], self => (self, .ready (.ok ()))
  | .partialFrame :: iter, self => pollIteratorFrames env iter self
  | .complete frame :: iter, self =>
    let (self, message) := self.message env.settings frame
    match self.transmitMessage env message with
    | (self, .ready (.ok ())) => pollIteratorFrames env iter self
    | (self, .ready (.error e)) => (self, .ready (.error e))
    | (self, .pending) => ({ self with pendingIter := some iter }, .pending)

/-- The rest of `poll_blocked_task`, for the frames that are left of a read. -/
def pollPendingIter (env : RecvEnvironment) : RecvData × Poll (Except DispatchErrorKind Unit) :=
  match self.pendingIter with
  | some iter => pollIteratorFrames env iter { self with pendingIter := none }
  | none => (self, .ready (.ok ()))

def pollBlockedTask (env : RecvEnvironment) : RecvData × Poll (Except DispatchErrorKind Unit) :=
  match self.currMessage with
  | none => self.pollPendingIter env
  | some message =>
    match env.channel self.messages.length with
    | .sent =>
      { self with currMessage := none, messages := message :: self.messages }.pollPendingIter env
    | .closed => ({ self with currMessage := none }, .ready (.error .channelClosed))
    | .full => (self, .pending)

/-- What `poll_read_frame` does with the octets of a read. The decoder may panic. -/
def readOctets (env : RecvEnvironment) (octets : Bytes) :
    Option (RecvData × Poll (Except DispatchErrorKind Unit)) :=
  if octets = [] then
    let (self, _) := self.transmitMessage env (.outputExit .disconnect)
    some ({ self with state := .send }, .pending)
  else
    match self.decoder.decode octets with
    | (decoder, .ok frames) =>
      match pollIteratorFrames env frames { self with decoder } with
      | (self, .pending) => some ({ self with nextState := .read }, .ready (.ok ()))
      | answer => some answer
    | (decoder, .error (.error e)) =>
      match { self with decoder }.transmitMessage env (.outputExit (.h2 e)) with
      | (self, .ready (.error _)) => some (self, .ready (.error .channelClosed))
      | (self, .ready (.ok ())) => some (self, .ready (.ok ()))
      | (self, .pending) => some ({ self with nextState := .read }, .pending)
    | (_, .error .panic) => none

/-- One turn of the loop of `poll_read_frame`. -/
def turn (self : RecvData) (env : RecvEnvironment) :
    Option (RecvData × Poll (Except DispatchErrorKind Unit)) :=
  match self.state with
  | .read =>
    match env.socket with
    | .failed => some (self.transmitError env .io)
    | .pending => some (self, .pending)
    | .octets octets => self.readOctets env octets
  | .send =>
    match self.pollBlockedTask env with
    | (self, .ready (.ok ())) =>
      some ({ self with state := self.nextState, nextState := .read }, .ready (.ok ()))
    | answer => some answer
  | .exit e => some (self, .ready (.error e))

end RecvData

end YlongHttp
