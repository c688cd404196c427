import YlongHttp.Model.H3.Streams

/-! # The body of a response as a reader (`async_impl/conn/http2.rs`, `conn/http3.rs`)

The two files have a `TextIo` each; they differ in the messages of the channel. What the channel
answers when it is polled is a list: where it ends, no message has arrived. -/

namespace YlongHttp

inductive IoErrorKind where
  | timedOut
  | connectionAborted
  | other
deriving DecidableEq

/-- `Poll<std::io::Result<()>>`. -/
abbrev IoPoll := Poll (Except IoErrorKind Unit)

structure ReadBuf where
  capacity : ℕ
  filled : Bytes

namespace ReadBuf

def new (capacity : ℕ) : ReadBuf := { capacity, filled := [] }

def remaining (self : ReadBuf) : ℕ := self.capacity - self.filled.length

def appendSlice (self : ReadBuf) (buf : Bytes) : ReadBuf :=
  { self with filled := self.filled ++ buf }

end ReadBuf

/-- What the speed controller says in one call of `poll_read`. The limits it keeps are
outside. -/
structure SpeedController where
  pollRecvPendingTimeout : Bool
  pollMaxRecvDelayTime : Poll Unit
  minRecvSpeedLimit : ℕ → Except Unit Unit

/-- Without limits (`RateLimit::default`). -/
def SpeedController.none : SpeedController where
  pollRecvPendingTimeout := false
  pollMaxRecvDelayTime := .ready ()
  minRecvSpeedLimit _ := .ok ()

structure TextIo (φ : Type) where
  offset : ℕ
  remain : Option φ
  isClosed : Bool

variable {φ μ : Type}

/-- What a branch of the reading loop leaves: an answer, or none where the loop goes on. -/
structure Branch (φ : Type) where
  result : Option IoPoll
  io : TextIo φ
  buf : ReadBuf

/-- The functions in which the two readers differ. -/
structure BodyReader (φ μ : Type) where
  readRemainingData : TextIo φ → ReadBuf → Branch φ
  matchChannelMessage : TextIo φ → ReadBuf → Poll μ → Branch φ
  closedKind : IoErrorKind

/-- What a call of `poll_read` leaves. -/
structure Polled (φ μ : Type) where
  result : IoPoll
  io : TextIo φ
  buf : ReadBuf
  answers : List (Poll (Option μ))

namespace TextIo

def new : TextIo φ := { offset := 0, remain := none, isClosed := false }

def ready : Option IoPoll := some (.ready (.ok ()))

/-- The branch of a DATA frame, where `data` is what is left of it. -/
def readData (endRead : TextIo φ → ℕ → Option IoPoll × TextIo φ) (self : TextIo φ) (frame : φ)
    (data : Bytes) (buf : ReadBuf) : Branch φ :=
  let unfilledLen := buf.remaining
  let fillLen := min data.length unfilledLen
  let filled := buf.appendSlice (data.take fillLen)
  if unfilledLen < data.length then
    { result := ready, io := { self with offset := self.offset + fillLen, remain := some frame }
      buf := filled }
  else
    let (result, io) := endRead self data.length
    { result, io, buf := filled }

/-- What follows a branch that answers. -/
def finish (speed : SpeedController) (buf : ReadBuf) (result : IoPoll) : IoPoll :=
  match result with
  | .ready (.ok ()) =>
    match speed.minRecvSpeedLimit buf.filled.length with
    | .error () => .ready (.error .other)
    | .ok () => .ready (.ok ())
  | result => result

variable (reader : BodyReader φ μ)

/-- The part of a round of the loop before the channel is polled. -/
def readRemaining (speed : SpeedController) (answers : List (Poll (Option μ))) (self : TextIo φ)
    (buf : ReadBuf) (next : TextIo φ → ReadBuf → Polled φ μ) : Polled φ μ :=
  if buf.remaining = 0 then { result := .ready (.ok ()), io := self, buf, answers }
  else
    match reader.readRemainingData self buf with
    | { result := some result, io, buf } => { result := finish speed buf result, io, buf, answers }
    | { result := none, io, buf } => next io buf

/-- The part of a round after an answer of the channel. -/
def readMessage (speed : SpeedController) (answers : List (Poll (Option μ))) (self : TextIo φ)
    (buf : ReadBuf) (pollResult : Poll μ) (next : TextIo φ → ReadBuf → Polled φ μ) : Polled φ μ :=
  match reader.matchChannelMessage self buf pollResult with
  | { result := some result, io, buf } => { result := finish speed buf result, io, buf, answers }
  | { result := none, io, buf } => next io buf

/-- The loop of `poll_read`. Where the list of answers ends, the channel is empty. -/
def readLoop (reader : BodyReader φ μ) (speed : SpeedController) :
    List (Poll (Option μ)) → TextIo φ → ReadBuf → Polled φ μ
  | [], self, buf =>
    readRemaining reader speed [] self buf fun io buf =>
      readMessage reader speed [] io buf .pending fun io buf =>
        { result := .pending, io, buf, answers := [] }
  | .ready none :: answers, self, buf =>
    readRemaining reader speed (.ready none :: answers) self buf fun io buf =>
      { result := .ready (.error reader.closedKind), io, buf, answers }
  | .ready (some message) :: answers, self, buf =>
    readRemaining reader speed (.ready (some message) :: answers) self buf fun io buf =>
      readMessage reader speed answers io buf (.ready message) (readLoop reader speed answers)
  | .pending :: answers, self, buf =>
    readRemaining reader speed (.pending :: answers) self buf fun io buf =>
      readMessage reader speed answers io buf .pending (readLoop reader speed answers)

def pollRead (speed : SpeedController) (self : TextIo φ) (buf : ReadBuf)
    (answers : List (Poll (Option μ))) : Polled φ μ :=
  if buf.remaining = 0 || self.isClosed then
    { result := .ready (.ok ()), io := self, buf, answers }
  else if speed.pollRecvPendingTimeout then
    { result := .ready (.error .timedOut), io := self, buf, answers }
  else if speed.pollMaxRecvDelayTime = .pending then
    { result := .pending, io := self, buf, answers }
  else readLoop reader speed answers self buf

def isStreamClosable (self : TextIo φ) : Bool := self.isClosed

end TextIo

/-! ## HTTP/2 -/

namespace Http2

def endRead (endStream : Bool) (self : TextIo Frame) (dataLen : ℕ) : Option IoPoll × TextIo Frame :=
  let self := { self with offset := 0, remain := none }
  if endStream then (TextIo.ready, { self with isClosed := true })
  else if dataLen = 0 then (none, self)
  else (TextIo.ready, self)

def matchChannelMessage (self : TextIo Frame) (buf : ReadBuf) (pollResult : Poll Frame) :
    Branch Frame :=
  match pollResult with
  | .ready frame =>
    match frame.payload with
    | .headers _ =>
      { result := TextIo.ready, io := { self with remain := some frame, offset := 0 }, buf }
    | .data data => self.readData (endRead frame.flags.isEndStream) frame data buf
    | .rstStream errorCode =>
      if errorCode = 0 then { result := TextIo.ready, io := { self with isClosed := true }, buf }
      else { result := some (.ready (.error .other)), io := self, buf }
    | _ => { result := some (.ready (.error .other)), io := self, buf }
  | .pending => { result := some .pending, io := self, buf }

def readRemainingData (self : TextIo Frame) (buf : ReadBuf) : Branch Frame :=
  match self.remain with
  | some frame =>
    match frame.payload with
    | .headers _ => { result := TextIo.ready, io := self, buf }
    | .data data =>
      self.readData (endRead frame.flags.isEndStream) frame (data.drop self.offset) buf
    | _ => { result := some (.ready (.error .other)), io := self, buf }
  | none => { result := none, io := self, buf }

def reader : BodyReader Frame Frame where
  readRemainingData := readRemainingData
  matchChannelMessage := matchChannelMessage
  closedKind := .other

end Http2

/-! ## HTTP/3 -/

namespace Http3

variable (self : TextIo H3.Frame)

def endRead (dataLen : ℕ) : Option IoPoll × TextIo H3.Frame :=
  let self := { self with offset := 0, remain := none }
  if dataLen = 0 then (none, self) else (TextIo.ready, self)

def matchChannelMessage (buf : ReadBuf) (pollResult : Poll H3.RespMessage) : Branch H3.Frame :=
  match pollResult with
  | .ready (.output frame) =>
    match frame.payload with
    | .headers _ _ =>
      { result := TextIo.ready, io := { self with remain := some frame, offset := 0 }, buf }
    | .data data => self.readData endRead frame data buf
    | _ => { result := some (.ready (.error .other)), io := self, buf }
  | .ready (.outputExit e) =>
    if e = H3.connectionError .h3NoError ∨ e = .streamFinished then
      { result := TextIo.ready, io := { self with isClosed := true }, buf }
    else { result := some (.ready (.error .other)), io := self, buf }
  | .pending => { result := some .pending, io := self, buf }

def readRemainingData (buf : ReadBuf) : Branch H3.Frame :=
  match self.remain with
  | some frame =>
    match frame.payload with
    | .headers _ _ => { result := TextIo.ready, io := self, buf }
    | .data data => self.readData endRead frame (data.drop self.offset) buf
    | _ => { result := some (.ready (.error .other)), io := self, buf }
  | none => { result := none, io := self, buf }

def reader : BodyReader H3.Frame H3.RespMessage where
  readRemainingData := readRemainingData
  matchChannelMessage := matchChannelMessage
  closedKind := .connectionAborted

end Http3

end YlongHttp
