import YlongHttp.Model.Client.Streams

/-! # The task that manages a connection (`util/h2/manager.rs`, `util/dispatcher.rs`)

`ConnManager` with its `StreamController`. What the manager receives and sends to the writing
task is recorded in `log`; the flags that tell other tasks that the connection is closing are
left out. -/

namespace YlongHttp

/-! ## What the manager is given -/

/-- The kind of an I/O error is passed on and never looked at. -/
inductive DispatchErrorKind where
  | h2 (e : H2Error)
  | io
  | channelClosed
  | disconnect
deriving DecidableEq

inductive Poll (α : Type) where
  | ready (a : α)
  | pending
deriving DecidableEq

/-- The answer of the bounded channel to a task that waits for a response. -/
inductive SendResult where
  | sent
  | closed
  | full
deriving DecidableEq

/-- A message to the task that waits for a response. -/
inductive RespMessage where
  | output (frame : Frame)
  | outputExit (kind : DispatchErrorKind)

/-- A request as `build_headers_payload` makes it. -/
structure RequestWrapper where
  flag : FrameFlags
  payload : Payload
  data : BodyDataRef
  isHeaders : ∃ parts, payload = .headers parts

/-- What the manager meets while it handles one event: whether the writing task still
receives, what the channels of the responses answer, and in which order the hash tables are
visited. -/
structure Environment where
  inputOpen : Bool
  channel : StreamId → SendResult
  hash : HashOrder

inductive SettingsState where
  | acknowledging (settings : List Setting)
  | synced

inductive ManagerState where
  | send
  | receive
  | exit (e : DispatchErrorKind)
deriving DecidableEq

/-- What happens on a connection. -/
inductive Entry where
  | opened (id : StreamId)
  | received (frame : Frame)
  | sent (frame : Frame)
deriving DecidableEq

structure ConnManager where
  state : ManagerState
  nextState : ManagerState
  settings : SettingsState
  streams : Streams
  senders : List StreamId
  currMessage : AList fun _ : StreamId => RespMessage
  goAwayErrorCode : Option UInt32
  goingAway : Option Goaway
  /-- What has happened so far, the last of it first. -/
  log : List Entry
  /-- What was put in the channels of the responses, the last of it first. -/
  responses : List (StreamId × RespMessage)

def ErrorCode.intoCode : ErrorCode → UInt32
  | .noError => 0x00
  | .protocolError => 0x01
  | .intervalError => 0x02
  | .flowControlError => 0x03
  | .settingsTimeout => 0x04
  | .streamClosed => 0x05
  | .frameSizeError => 0x06
  | .refusedStream => 0x07
  | .cancel => 0x08
  | .compressionError => 0x09
  | .connectError => 0x0a
  | .enhanceYourCalm => 0x0b
  | .inadequateSecurity => 0x0c
  | .http11Required => 0x0d

def ErrorCode.tryFrom (value : UInt32) : Except H2Error ErrorCode :=
  match value with
  | 0x00 => .ok .noError
  | 0x01 => .ok .protocolError
  | 0x02 => .ok .intervalError
  | 0x03 => .ok .flowControlError
  | 0x04 => .ok .settingsTimeout
  | 0x05 => .ok .streamClosed
  | 0x06 => .ok .frameSizeError
  | 0x07 => .ok .refusedStream
  | 0x08 => .ok .cancel
  | 0x09 => .ok .compressionError
  | 0x0a => .ok .connectError
  | 0x0b => .ok .enhanceYourCalm
  | 0x0c => .ok .inadequateSecurity
  | 0x0d => .ok .http11Required
  | _ => .error (.connectionError .protocolError)

/-! ## Channels -/

namespace ConnManager

variable (self : ConnManager)

/-- `input_tx.send`. -/
def sendInput (env : Environment) (frame : Frame) : ConnManager × Except DispatchErrorKind Unit :=
  if env.inputOpen then ({ self with log := .sent frame :: self.log }, .ok ())
  else (self, .error .channelClosed)

def sendMessageToStream (env : Environment) (id : StreamId) (message : RespMessage) :
    ConnManager × Poll (Except H2Error Unit) :=
  if id ∈ self.senders then
    match env.channel id with
    | .sent => ({ self with responses := (id, message) :: self.responses }, .ready (.ok ()))
    | .closed =>
      ({ self with senders := self.senders.erase id }, .ready (.error (.streamError id .noError)))
    | .full => ({ self with currMessage := self.currMessage.insert id message }, .pending)
  else (self, .ready (.error (.streamError id .noError)))

/-- The messages of a closing connection, one for each of the streams `ids`: whether one of
them is blocked. -/
def sendMessages (env : Environment) (message : RespMessage) :
    List StreamId → ConnManager → ConnManager × Bool
  | [], self => (self, false)
  | id :: ids, self =>
    let (self, answer) := self.sendMessageToStream env id message
    let (self, blocked) := sendMessages env message ids self
    (self, blocked || answer = .pending)

def rstStream (id : StreamId) (code : ErrorCode) : Frame :=
  { id, flags := { bits := 0 }, payload := .rstStream code.intoCode }

/-- A blocked message of `poll_blocked_message` whose stream is found to be gone. -/
def dropBlocked (env : Environment) (key : StreamId) : Except Panic ConnManager := do
  let self := { self with senders := self.senders.erase key }
  match self.streams.streamState key with
  | none => return self
  | some state =>
    if state.isClosed then
      return self
    let (streams, ended) ← self.streams.sendLocalReset key
    let self := { self with streams }
    -- The error of a closed channel is ignored here.
    if ended = .ok then
      return (self.sendInput env (rstStream key .noError)).1
    return self

/-- The loop of `poll_blocked_message`. -/
def pollBlocked (env : Environment) :
    List StreamId → ConnManager → Except Panic (ConnManager × Bool)
  | [], self => .ok (self, false)
  | key :: keys, self =>
    match self.currMessage.lookup key with
    | none => pollBlocked env keys self
    | some message =>
      match env.channel key with
      | .sent =>
        pollBlocked env keys { self with
          currMessage := self.currMessage.erase key
          responses := (key, message) :: self.responses }
      | .closed => do
        let self ← { self with currMessage := self.currMessage.erase key }.dropBlocked env key
        pollBlocked env keys self
      | .full => do
        let (self, _) ← pollBlocked env keys self
        return (self, true)

def pollBlockedFrames (self : ConnManager) (env : Environment) :
    Except Panic (ConnManager × Poll (Except DispatchErrorKind Unit)) := do
  let (self, blocked) ← pollBlocked env (env.hash.order self.currMessage.keys) self
  if blocked then
    return (self, .pending)
  return ({ self with state := self.nextState, nextState := .receive }, .ready (.ok ()))

/-! ## Errors -/

def exitWithError (env : Environment) (e : DispatchErrorKind) : ConnManager × Bool :=
  let (streams, ids) := self.streams.clearStreamsStates.getAllUnclosedStreams
  sendMessages env (.outputExit e) (env.hash.order ids) { self with streams }

/-- The end of a connection: at once, or after its blocked messages. -/
def exitWith (env : Environment) (e : DispatchErrorKind) :
    ConnManager × Poll (Except DispatchErrorKind Unit) :=
  match self.exitWithError env e with
  | (self, true) => ({ self with state := .send, nextState := .exit e }, .pending)
  | (self, false) => (self, .ready (.error e))

def manageStreamError (env : Environment) (id : StreamId) (code : ErrorCode) :
    Except Panic (ConnManager × Poll (Except DispatchErrorKind Unit)) := do
  let (streams, ended) ← self.streams.sendLocalReset id
  let self := { self with streams }
  match ended with
  | .ok =>
    match self.sendInput env (rstStream id code) with
    | (self, .error e) => return (self, .ready (.error e))
    | (self, .ok ()) =>
      match self.sendMessageToStream env id (.outputExit (.h2 (.streamError id code))) with
      | (self, .ready _) => return (self, .ready (.ok ()))
      | (self, .pending) => return ({ self with state := .send, nextState := .receive }, .pending)
  | .ignore => return (self, .ready (.ok ()))
  | .err e => return (self, .ready (.error (.h2 e)))

def goawayFrame (goaway : Goaway) : Frame :=
  { id := 0, flags := { bits := 0 }, payload := .goaway goaway }

def manageConnError (env : Environment) (code : ErrorCode) :
    ConnManager × Poll (Except DispatchErrorKind Unit) :=
  let goaway : Goaway :=
    { errorCode := code.intoCode, lastStreamId := self.streams.latestRemoteId, debugData := [] }
  let sentBefore :=
    match self.goingAway with
    | none => false
    | some before =>
      before.errorCode = goaway.errorCode && before.lastStreamId = goaway.lastStreamId
  if sentBefore then (self, .ready (.ok ()))
  else
    match { self with goingAway := some goaway }.sendInput env (goawayFrame goaway) with
    | (self, .error e) => (self, .ready (.error e))
    | (self, .ok ()) => self.exitWith env (.h2 (.connectionError code))

def manageRespError (env : Environment) (kind : DispatchErrorKind) :
    Except Panic (ConnManager × Poll (Except DispatchErrorKind Unit)) :=
  match kind with
  | .h2 (.streamError id code) => self.manageStreamError env id code
  | .h2 (.connectionError code) => .ok (self.manageConnError env code)
  | other => .ok (self.exitWith env other)

/-! ## Frames from the server -/

def recvSettings (env : Environment) :
    List Setting → Streams → Except Panic (Streams × Except H2Error Unit)
  | [], streams => .ok (streams, .ok ())
  | .maxConcurrentStreams num :: settings, streams =>
    recvSettings env settings (streams.applyMaxConcurrentStreams num)
  | .initialWindowSize size :: settings, streams =>
    match streams.applySendInitialWindowSize env.hash size with
    | .error panic => .error panic
    | .ok (streams, .error e) => .ok (streams, .error e)
    | .ok (streams, .ok ()) => recvSettings env settings streams
  | _ :: settings, streams => recvSettings env settings streams

def recvAcknowledged : List Setting → Streams → Except Panic Streams
  | [], streams => .ok streams
  | .initialWindowSize size :: settings, streams => do
    recvAcknowledged settings (← streams.applyRecvInitialWindowSize size)
  | _ :: settings, streams => recvAcknowledged settings streams

/-- The settings of the client that the server acknowledges. -/
def acknowledge : Except Panic Streams :=
  match self.settings with
  | .acknowledging acknowledged => recvAcknowledged acknowledged self.streams
  | .synced => .ok self.streams

def recvSettingsFrame (env : Environment) (frame : Frame) (settings : List Setting) :
    Except Panic (ConnManager × Except DispatchErrorKind Unit) :=
  if frame.flags.isAck then do
    let streams ← self.acknowledge
    return ({ self with streams, settings := .synced }, .ok ())
  else do
    let (streams, applied) ← recvSettings env settings self.streams
    let self := { self with streams }
    match applied with
    | .error e => return (self, .error (.h2 e))
    | .ok () =>
      return self.sendInput env { id := frame.id, flags := { bits := 1 }, payload := frame.payload }

def recvPingFrame (env : Environment) (frame : Frame) (ping : Ping) :
    ConnManager × Except DispatchErrorKind Unit :=
  if frame.flags.isAck then (self, .ok ())
  else self.sendInput env { id := 0, flags := { bits := 1 }, payload := .ping ping }

def getUnsentStreams (lastStreamId : StreamId) :
    Except Panic (ConnManager × Except H2Error (List StreamId)) :=
  if self.streams.maxSendId < lastStreamId then
    .ok (self, .error (.connectionError .protocolError))
  else do
    let streams := { self.streams with maxSendId := lastStreamId }
    let (streams, ids) ← streams.getUnsetStreams lastStreamId
    return ({ self with streams }, .ok ids)

def recvGoAwayFrame (env : Environment) (goaway : Goaway) :
    Except Panic (ConnManager × Poll (Except H2Error Unit)) := do
  match ← self.getUnsentStreams goaway.lastStreamId with
  | (self, .error e) => return (self, .ready (.error e))
  | (self, .ok ids) =>
    match ErrorCode.tryFrom goaway.errorCode with
    | .error e => return (self, .ready (.error e))
    | .ok code =>
      let message := .outputExit (.h2 (.connectionError code))
      let (self, blocked) := sendMessages env message (env.hash.order ids) self
      let self := { self with goAwayErrorCode := some goaway.errorCode }
      return (self, if blocked then .pending else .ready (.ok ()))

def recvResetFrame (env : Environment) (frame : Frame) :
    Except Panic (ConnManager × Poll (Except H2Error Unit)) := do
  let (streams, ended) ← self.streams.recvRemoteReset frame.id
  let self := { self with streams }
  match ended with
  | .ok => return self.sendMessageToStream env frame.id (.output frame)
  | .err e => return (self, .ready (.error e))
  | .ignore => return (self, .ready (.ok ()))

/-- What follows `recv_headers` and `recv_data`. -/
def deliver (self : ConnManager) (env : Environment) (frame : Frame) (state : FrameRecvState) :
    ConnManager × Poll (Except H2Error Unit) :=
  match state with
  | .ok => self.sendMessageToStream env frame.id (.output frame)
  | .err e => (self, .ready (.error e))
  | .ignore => (self, .ready (.ok ()))

def recvHeaderFrame (env : Environment) (frame : Frame) :
    Except Panic (ConnManager × Poll (Except H2Error Unit)) := do
  let (streams, state) ← self.streams.recvHeaders frame.id frame.flags.isEndStream
  return { self with streams }.deliver env frame state

/-- The sending of the frame that a receive window asks for. -/
def sendUpdate (env : Environment) (update : Except H2Error (Option Frame)) :
    ConnManager × Except DispatchErrorKind Unit :=
  match update with
  | .error e => (self, .error (.h2 e))
  | .ok none => (self, .ok ())
  | .ok (some frame) => self.sendInput env frame

def updateWindow (env : Environment) (id : StreamId) (len : UInt32) :
    Except Panic (ConnManager × Except DispatchErrorKind Unit) := do
  let (streams, update) ← self.streams.releaseConnRecvWindow len
  match { self with streams }.sendUpdate env update with
  | (self, .error e) => return (self, .error e)
  | (self, .ok ()) =>
    let (streams, update) ← self.streams.releaseStreamRecvWindow id len
    return { self with streams }.sendUpdate env update

def liftPoll (answer : Poll (Except H2Error Unit)) : Poll (Except DispatchErrorKind Unit) :=
  match answer with
  | .ready r => .ready (r.mapError .h2)
  | .pending => .pending

def recvDataFrame (env : Environment) (frame : Frame) (data : Bytes) :
    Except Panic (ConnManager × Poll (Except DispatchErrorKind Unit)) := do
  match ← self.updateWindow env frame.id (UInt32.ofNat data.length) with
  | (self, .error e) => return (self, .ready (.error e))
  | (self, .ok ()) =>
    let (streams, state) ← self.streams.recvData frame.id frame.flags.isEndStream
    let (self, answer) := { self with streams }.deliver env frame state
    return (self, liftPoll answer)

def recvWindowFrame (id : StreamId) (increment : UInt32) :
    ConnManager × Except DispatchErrorKind Unit :=
  if id = 0 then
    match self.streams.increaseConnSendWindow increment with
    | (streams, .error e) => ({ self with streams }, .error (.h2 e))
    | (streams, .ok ()) => ({ self with streams := streams.reassignConnSendWindow }, .ok ())
  else
    let (streams, result) := self.streams.reassignStreamSendWindow id increment
    ({ self with streams }, result.mapError .h2)

def pollRecvFrame (env : Environment) (frame : Frame) :
    Except Panic (ConnManager × Poll (Except DispatchErrorKind Unit)) :=
  match frame.payload with
  | .settings settings => do
    let (self, result) ← self.recvSettingsFrame env frame settings
    return (self, .ready result)
  | .ping ping =>
    let (self, result) := self.recvPingFrame env frame ping
    .ok (self, .ready result)
  | .pushPromise _ => .ok (self, .ready (.error (.h2 (.connectionError .protocolError))))
  | .goaway goaway => do
    let (self, answer) ← self.recvGoAwayFrame env goaway
    return (self, liftPoll answer)
  | .rstStream _ => do
    let (self, answer) ← self.recvResetFrame env frame
    return (self, liftPoll answer)
  | .headers _ => do
    let (self, answer) ← self.recvHeaderFrame env frame
    return (self, liftPoll answer)
  | .data data => self.recvDataFrame env frame data
  | .windowUpdate increment =>
    let (self, result) := self.recvWindowFrame frame.id increment
    .ok (self, .ready result)
  | .priority _ => .ok (self, .ready (.ok ()))

def pollRecvMessage (env : Environment) (frame : Frame) :
    Except Panic (ConnManager × Poll (Except DispatchErrorKind Unit)) := do
  match ← self.pollRecvFrame env frame with
  | (self, .ready (.error kind)) => self.manageRespError env kind
  | (self, .pending) => return ({ self with state := .send, nextState := .receive }, .pending)
  | (self, .ready (.ok ())) => return (self, .ready (.ok ()))

/-! ## Requests -/

/-- The queue a new stream is put into. -/
def enqueue (streams : Streams) (id : StreamId) : Streams :=
  if streams.reachMaxConcurrency || !streams.isPendingConcurrencyEmpty then
    streams.pushPendingConcurrency id
  else streams.increaseCurrentConcurrency.pushBackPendingSend id

/-- One request of `poll_recv_request`, under the id generated for it. -/
def acceptRequest (streams : Streams) (id : StreamId) (request : RequestWrapper) : ConnManager :=
  let headers : Frame := { id, flags := request.flag, payload := request.payload }
  { self with
    senders := self.senders.insert id
    streams := (enqueue streams id).insert id headers request.data
    log := .opened id :: self.log }

/-- `poll_recv_request`: the requests that are in the channel, and whether it is then found to
be closed. The loop stops when there are no more ids. -/
def pollRecvRequest (closed : Bool) :
    List RequestWrapper → ConnManager → ConnManager × Except DispatchErrorKind Unit
  | [], self => (self, if closed then .error .channelClosed else .ok ())
  | request :: requests, self =>
    match self.streams.generateId with
    | (_, .error _) => (self, .ok ())
    | (streams, .ok id) => pollRecvRequest closed requests (self.acceptRequest streams id request)

/-- The move of the stream whose frame is sent. -/
def sendFrame (streams : Streams) (frame : Frame) : Except Panic (Streams × FrameRecvState) :=
  match frame.payload with
  | .headers _ => streams.sendHeadersFrame frame.id frame.flags.isEndStream
  | .data _ => streams.sendDataFrame frame.id frame.flags.isEndStream
  | _ => .ok (streams, .ok)

def pollSendFrame (env : Environment) (frame : Frame) :
    Except Panic (ConnManager × Except DispatchErrorKind Unit) := do
  let (streams, state) ← sendFrame self.streams frame
  let self := { self with streams }
  match state with
  | .err e => return (self, .error (.h2 e))
  | _ => return self.sendInput env frame

def dealPollBodyError (env : Environment) (e : H2Error) :
    Except Panic (ConnManager × Except DispatchErrorKind Unit) :=
  match e with
  | .streamError id code => do
    match ← self.manageStreamError env id code with
    | (self, .ready result) => return (self, result)
    | (self, .pending) => return (self, .ok ())
  | .connectionError e => .ok (self, .error (.h2 (.connectionError e)))

/-- The loop of `input_stream_frame` over the body of a stream. Each frame that does not end it
takes an octet off the connection window, so that one more than this window is fuel enough. -/
def inputBody (env : Environment) (id : StreamId) :
    ℕ → ConnManager → Except Panic (ConnManager × Except DispatchErrorKind Unit)
  | 0, self => .ok (self, .ok ())
  | fuel + 1, self => do
    let (streams, read) ← self.streams.pollReadBody id
    let self := { self with streams }
    match read with
    | .ok .closed => return (self, .ok ())
    | .ok .pending => return (self, .ok ())
    | .ok (.ready frame) =>
      match ← self.pollSendFrame env frame with
      | (self, .error e) => return (self, .error e)
      | (self, .ok ()) => inputBody env id fuel self
    | .ok (.finish frame) => self.pollSendFrame env frame
    | .error e => self.dealPollBodyError env e

def inputStreamFrame (env : Environment) (id : StreamId) :
    Except Panic (ConnManager × Except DispatchErrorKind Unit) := do
  let readBody (self : ConnManager) :=
    inputBody env id (self.streams.flowControl.sendSizeAvailable + 1) self
  match self.streams.headers id with
  | (streams, .error e) => return ({ self with streams }, .error (.h2 e))
  | (streams, .ok none) => readBody { self with streams }
  | (streams, .ok (some header)) =>
    match ← { self with streams }.pollSendFrame env header with
    | (self, .error e) => return (self, .error e)
    | (self, .ok ()) =>
      -- Prevents sending empty data frames.
      if header.flags.isEndStream then
        return (self, .ok ())
      readBody self

/-- The loop of `poll_input_request`, for the streams that were in the queue at its start. -/
def inputStreams (env : Environment) :
    ℕ → ConnManager → Except Panic (ConnManager × Except DispatchErrorKind Unit)
  | 0, self => .ok (self, .ok ())
  | size + 1, self =>
    match self.streams.nextPendingStream with
    | (_, none) => .ok (self, .ok ())
    | (streams, some id) => do
      match ← { self with streams }.inputStreamFrame env id with
      | (self, .error e) => return (self, .error e)
      | (self, .ok ()) => inputStreams env size self

def pollInputRequest (env : Environment) :
    Except Panic (ConnManager × Except DispatchErrorKind Unit) :=
  let streams := self.streams.tryConsumePendingConcurrency
  inputStreams env streams.pendingStreamNum { self with streams }

/-! ## The loop of the task -/

def sendPeerGoaway (env : Environment) (goaway : Goaway) :
    ConnManager × Except DispatchErrorKind Unit :=
  let sentBefore :=
    match self.goingAway with
    | none => false
    | some before =>
      before.errorCode = goaway.errorCode && before.lastStreamId = self.streams.latestRemoteId
  if sentBefore then (self, .ok ())
  else { self with goingAway := some goaway }.sendInput env (goawayFrame goaway)

def pollDealWithGoAway (env : Environment) (errorCode : UInt32) :
    ConnManager × Except DispatchErrorKind Unit :=
  if self.streams.isClosed then
    let goaway : Goaway :=
      { errorCode, lastStreamId := self.streams.latestRemoteId, debugData := [] }
    match self.sendPeerGoaway env goaway with
    | (self, .error e) => (self, .error e)
    | (self, .ok ()) =>
      match ErrorCode.tryFrom errorCode with
      | .error e => (self, .error (.h2 e))
      | .ok code => (self, .error (.h2 (.connectionError code)))
  else (self, .ok ())

def managePendingState (env : Environment) (requests : List RequestWrapper) (closed : Bool) :
    Except Panic (ConnManager × Poll (Except DispatchErrorKind Unit)) :=
  let answer : ConnManager × Except DispatchErrorKind Unit →
      ConnManager × Poll (Except DispatchErrorKind Unit)
    | (self, .error e) => (self, .ready (.error e))
    | (self, .ok ()) => (self, .pending)
  match self.goAwayErrorCode with
  | some code => .ok (answer (self.pollDealWithGoAway env code))
  | none =>
    match pollRecvRequest closed requests self with
    | (self, .error e) => .ok (self, .ready (.error e))
    | (self, .ok ()) => (self.pollInputRequest env).map answer

/-- A frame as `FrameDecoder` produces it: the increment of a WINDOW_UPDATE has 31 bits, an
initial window size is at most 2^31-1, and the length of a payload has 24 bits. -/
structure ReceivedFrame where
  frame : Frame
  increment_le : ∀ n, frame.payload = .windowUpdate n → n ≤ maxFlowControlWindow
  initialSize_le : ∀ settings, frame.payload = .settings settings →
    ∀ n, .initialWindowSize n ∈ settings → n ≤ maxFlowControlWindow
  data_lt : ∀ data, frame.payload = .data data → data.length < 2 ^ 24

/-- What can happen to the manager: a message of the reading task, the channel of these
messages closed or empty (the manager then looks at the requests), the waiting messages of
responses tried again, or the writing task having taken up a SETTINGS frame of the client. -/
inductive Event where
  | output (received : ReceivedFrame)
  | outputExit (kind : DispatchErrorKind)
  | respClosed
  | respPending (requests : List RequestWrapper) (closed : Bool)
  | retry
  | settingsWritten (settings : List Setting)

/-- The SETTINGS frame of the client, as `create_initial_settings` sends it. -/
def localSettings (settings : List Setting) : Frame :=
  { id := 0, flags := { bits := 0 }, payload := .settings settings }

/-- One turn of the loop of `ConnManager::poll`. An event that the manager does not look at in
its state changes nothing. -/
def step (self : ConnManager) (env : Environment) (event : Event) :
    Except Panic (ConnManager × Poll (Except DispatchErrorKind Unit)) :=
  match self.state, event with
  | _, .settingsWritten settings =>
    if .sent (localSettings settings) ∈ self.log then
      .ok ({ self with settings := .acknowledging settings }, .pending)
    else .ok (self, .pending)
  | .exit e, _ => .ok (self, .ready (.error e))
  | .send, .retry => self.pollBlockedFrames env
  | .receive, .output received =>
    { self with log := .received received.frame :: self.log }.pollRecvMessage env received.frame
  | .receive, .outputExit kind =>
    if self.goAwayErrorCode.isSome then .ok (self, .ready (.ok ()))
    else self.manageRespError env kind
  | .receive, .respClosed => .ok (self.exitWith env .channelClosed)
  | .receive, .respPending requests closed => self.managePendingState env requests closed
  | _, _ => .ok (self, .pending)

/-! ## Start -/

def defaultWindowSize : UInt32 := 65535

/-- The part of `H2Config` that a connection starts from. The bounds on the windows are
asserted by the setters of `ClientBuilder`. -/
structure H2Config where
  maxFrameSize : UInt32
  maxHeaderListSize : UInt32
  headerTableSize : UInt32
  enablePush : Bool
  connWindowSize : UInt32
  streamWindowSize : UInt32
  conn_le : connWindowSize ≤ maxFlowControlWindow
  stream_le : streamWindowSize ≤ maxFlowControlWindow

def createInitialSettings (config : H2Config) : List Setting :=
  [.maxHeaderListSize config.maxHeaderListSize, .maxFrameSize config.maxFrameSize,
    .headerTableSize config.headerTableSize, .enablePush config.enablePush,
    .initialWindowSize config.streamWindowSize]

/-- `Http2Dispatcher::new`, as far as the manager is concerned. -/
def start (config : H2Config) : Except Panic ConnManager := do
  let flow ← (FlowControl.new defaultWindowSize defaultWindowSize).setupRecvWindow
    config.connWindowSize
  let streams := Streams.new config.streamWindowSize defaultWindowSize flow
  let settings := localSettings (createInitialSettings config)
  let (streams, update) ← streams.releaseConnRecvWindow 0
  let log :=
    match update with
    | .ok (some frame) => [.sent frame, .sent settings]
    | _ => [.sent settings]
  return {
    state := .receive, nextState := .receive, settings := .synced, streams
    senders := [], currMessage := ∅, goAwayErrorCode := none, goingAway := none, log
    responses := [] }

end ConnManager

end YlongHttp
