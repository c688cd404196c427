import YlongHttp.Library.Assoc
import YlongHttp.Model.Client.Window

/-! # The streams of a connection (`util/h2/streams.rs`, `util/data_ref.rs`)

The streams left by a call come with what it returns. -/

namespace YlongHttp

open Library

/-! ## Request bodies -/

/-- What one read of a request body answers. The reader may be slowed down by the speed
controller, which then answers in its place. -/
inductive BodyRead where
  | octets (octets : Bytes)
  | pending
  | failed

/-- `BodyDataRef`: the answers the body has yet to give, and then its end. -/
structure BodyDataRef where
  body : Option (List BodyRead)

/-- The answer of `BodyDataRef::poll_read`, with the octets put into the buffer. -/
inductive PollRead where
  | ready (octets : Bytes)
  | failed
  | pending

namespace BodyDataRef

def clear (_self : BodyDataRef) : BodyDataRef := { body := none }

/-- `poll_read`, into a buffer of `len` octets. -/
def pollRead (self : BodyDataRef) (len : ℕ) : BodyDataRef × PollRead :=
  match self.body with
  | none => (self, .ready [])
  | some [] => (self, .ready [])
  | some (.pending :: reads) => ({ body := some reads }, .pending)
  | some (.failed :: reads) => ({ body := some reads }, .failed)
  | some (.octets octets :: reads) =>
    if octets.length ≤ len then ({ body := some reads }, .ready octets)
    else ({ body := some (.octets (octets.drop len) :: reads) }, .ready (octets.take len))

end BodyDataRef

/-! ## States of a stream -/

inductive FrameRecvState where
  | ok
  | ignore
  | err (e : H2Error)
deriving DecidableEq

inductive DataReadState where
  | closed
  | pending
  | ready (frame : Frame)
  | finish (frame : Frame)

inductive StreamEndState where
  | ok
  | ignore
  | err (e : H2Error)
deriving DecidableEq

inductive CloseReason where
  | localRst
  | remoteRst
  | remoteGoAway
  | localGoAway
  | endStream
deriving DecidableEq

inductive ActiveState where
  | waitHeaders
  | waitData
deriving DecidableEq

inductive H2StreamState where
  | idle
  | open (send recv : ActiveState)
  | reservedRemote
  | localHalfClosed (recv : ActiveState)
  | remoteHalfClosed (send : ActiveState)
  | closed (reason : CloseReason)
deriving DecidableEq

def H2StreamState.isClosed : H2StreamState → Bool
  | .closed _ => true
  | _ => false

structure Stream where
  recvWindow : RecvWindow
  sendWindow : SendWindow
  state : H2StreamState
  header : Option Frame
  data : BodyDataRef

namespace Stream

def new (recvWindow : RecvWindow) (sendWindow : SendWindow) (headers : Frame)
    (data : BodyDataRef) : Stream :=
  { recvWindow, sendWindow, state := .idle, header := some headers, data }

def isInitOrActiveFlowControl (self : Stream) : Bool :=
  match self.state with
  | .idle | .open _ .waitData | .localHalfClosed .waitData => true
  | _ => false

/-- What closing a stream before its end does to it. -/
def close (self : Stream) (reason : CloseReason) : Stream :=
  { self with state := .closed reason, header := none, data := self.data.clear }

end Stream

/-! ## Streams -/

def initialMaxSendStreamId : StreamId := (0xffffffff : UInt32) >>> 1

def initialMaxRecvStreamId : StreamId := (0xffffffff : UInt32) >>> 1

def defaultMaxStreamId : StreamId := (0xffffffff : UInt32) >>> 1

def initialLatestRemoteId : StreamId := 0

def defaultMaxConcurrentStreams : UInt32 := 100

/-- `Streams`. The hash set is a list without repetition; `window_updating_streams`, which
nothing fills, is left out. -/
structure Streams where
  maxSendId : StreamId
  maxRecvId : StreamId
  latestRemoteId : StreamId
  streamRecvWindowSize : UInt32
  streamSendWindowSize : UInt32
  maxConcurrentStreams : UInt32
  currentConcurrentStreams : ℕ
  flowControl : FlowControl
  pendingConcurrency : List StreamId
  pendingStreamWindow : List StreamId
  pendingConnWindow : List StreamId
  pendingSend : List StreamId
  streamMap : AList fun _ : StreamId => Stream
  nextStreamId : StreamId

/-- The order in which a hash table gives its keys. -/
structure HashOrder where
  order : List StreamId → List StreamId
  perm : ∀ ids, (order ids).Perm ids

namespace Streams

def new (recvWindowSize sendWindowSize : UInt32) (flowControl : FlowControl) : Streams where
  maxSendId := initialMaxSendStreamId
  maxRecvId := initialMaxRecvStreamId
  latestRemoteId := initialLatestRemoteId
  maxConcurrentStreams := defaultMaxConcurrentStreams
  currentConcurrentStreams := 0
  streamRecvWindowSize := recvWindowSize
  streamSendWindowSize := sendWindowSize
  flowControl
  pendingConcurrency := []
  pendingStreamWindow := []
  pendingConnWindow := []
  pendingSend := []
  streamMap := ∅
  nextStreamId := 1

def setStream (self : Streams) (id : StreamId) (stream : Stream) : Streams :=
  { self with streamMap := modify id (fun _ => stream) self.streamMap }

variable (self : Streams)

def decreaseCurrentConcurrency : Except Panic Streams :=
  if self.currentConcurrentStreams = 0 then .error .concurrency
  else .ok { self with currentConcurrentStreams := self.currentConcurrentStreams - 1 }

def increaseCurrentConcurrency : Streams :=
  { self with currentConcurrentStreams := self.currentConcurrentStreams + 1 }

def reachMaxConcurrency : Bool :=
  self.currentConcurrentStreams ≥ self.maxConcurrentStreams.toNat

def applyMaxConcurrentStreams (num : UInt32) : Streams :=
  { self with maxConcurrentStreams := num }

/-- A loop over the streams that changes each of them, up to the first that fails. -/
def changeStreams {ε : Type} (change : Stream → Except ε Stream) :
    List StreamId → Streams → Streams × Except ε Unit
  | [], self => (self, .ok ())
  | id :: ids, self =>
    match self.streamMap.lookup id with
    | none => changeStreams change ids self
    | some stream =>
      match change stream with
      | .error e => (self, .error e)
      | .ok stream => changeStreams change ids (self.setStream id stream)

/-- Such a loop, where all that can fail is a panic. -/
def changeAll (change : Stream → Except Panic Stream) (ids : List StreamId) (self : Streams) :
    Except Panic Streams :=
  match changeStreams change ids self with
  | (self, .ok ()) => .ok self
  | (_, .error panic) => .error panic

def increaseSendWindows (excess : UInt32) :
    List StreamId → Streams → Streams × Except H2Error Unit :=
  changeStreams fun stream => do
    return { stream with sendWindow := ← stream.sendWindow.increaseSize excess }

def reduceSendWindows (excess : UInt32) : List StreamId → Streams → Except Panic Streams :=
  changeAll fun stream => do
    return { stream with sendWindow := ← stream.sendWindow.reduceSize excess }

def applySendInitialWindowSize (hash : HashOrder) (size : UInt32) :
    Except Panic (Streams × Except H2Error Unit) :=
  let current := self.streamSendWindowSize
  let self := { self with streamSendWindowSize := size }
  let ids := hash.order self.streamMap.keys
  if current < size then
    match increaseSendWindows (size - current) ids self with
    | (self, .error e) => .ok (self, .error e)
    | (self, .ok ()) =>
      .ok ({ self with
        pendingSend := self.pendingSend ++ hash.order self.pendingStreamWindow
        pendingStreamWindow := [] }, .ok ())
  else if current > size then do
    return (← reduceSendWindows (current - size) ids self, .ok ())
  else
    .ok (self, .ok ())

/-- The receive windows are moved to the new initial size. -/
def moveRecvWindows (move : RecvWindow → Except Panic RecvWindow) :
    List StreamId → Streams → Except Panic Streams :=
  changeAll fun stream => do return { stream with recvWindow := ← move stream.recvWindow }

def applyRecvInitialWindowSize (size : UInt32) : Except Panic Streams :=
  let current := self.streamRecvWindowSize
  let self := { self with streamRecvWindowSize := size }
  if current < size then
    moveRecvWindows (fun w => do
      (← w.increaseNotification (size - current)).increaseActual (size - current))
      self.streamMap.keys self
  else if current > size then
    moveRecvWindows (fun w => w.reduceNotification (current - size)) self.streamMap.keys self
  else
    .ok self

/-- `release_stream_recv_window`, with the frame it sends. -/
def releaseStreamRecvWindow (id : StreamId) (size : UInt32) :
    Except Panic (Streams × Except H2Error (Option Frame)) :=
  match self.streamMap.lookup id with
  | none => .ok (self, .ok none)
  | some stream =>
    if stream.recvWindow.notificationAvailable < size then
      .ok (self, .error (.streamError id .flowControlError))
    else do
      let recvWindow ← stream.recvWindow.recvData size
      let self := self.setStream id { stream with recvWindow }
      match ← recvWindow.unreleasedSize with
      | none => return (self, .ok none)
      | some _ =>
        if ¬ stream.isInitOrActiveFlowControl then
          return (self, .ok none)
        let (recvWindow, update) ← recvWindow.checkWindowUpdate id
        return (self.setStream id { stream with recvWindow }, .ok update)

/-- `release_conn_recv_window`, with the frame it sends. -/
def releaseConnRecvWindow (size : UInt32) :
    Except Panic (Streams × Except H2Error (Option Frame)) :=
  if self.flowControl.recvNotificationSizeAvailable < size then
    .ok (self, .error (.connectionError .flowControlError))
  else do
    let flowControl ← self.flowControl.recvData size
    let (flowControl, update) ← flowControl.checkConnRecvWindowUpdate
    return ({ self with flowControl }, .ok update)

def isClosed : Bool := self.streamMap.entries.all fun e => e.2.state.isClosed

def streamState (id : StreamId) : Option H2StreamState :=
  (self.streamMap.lookup id).map Stream.state

def insert (id : StreamId) (headers : Frame) (data : BodyDataRef) : Streams :=
  let sendWindow := SendWindow.new (asI32 self.streamSendWindowSize)
  let recvWindow := RecvWindow.new (asI32 self.streamRecvWindowSize)
  { self with streamMap := self.streamMap.insert id (.new recvWindow sendWindow headers data) }

def pushBackPendingSend (id : StreamId) : Streams :=
  { self with pendingSend := self.pendingSend ++ [id] }

def pushPendingConcurrency (id : StreamId) : Streams :=
  { self with pendingConcurrency := self.pendingConcurrency ++ [id] }

def isPendingConcurrencyEmpty : Bool := self.pendingConcurrency.isEmpty

def nextPendingStream : Streams × Option StreamId :=
  match self.pendingSend with
  | [] => (self, none)
  | id :: ids => ({ self with pendingSend := ids }, some id)

def pendingStreamNum : ℕ := self.pendingSend.length

/-- The loop of `try_consume_pending_concurrency`, over the queue. -/
def consumePendingConcurrency : List StreamId → Streams → Streams
  | [], self => self
  | id :: ids, self =>
    if self.reachMaxConcurrency then self
    else
      consumePendingConcurrency ids
        ({ self with pendingConcurrency := ids }.increaseCurrentConcurrency.pushBackPendingSend id)

def tryConsumePendingConcurrency : Streams :=
  consumePendingConcurrency self.pendingConcurrency self

def increaseConnSendWindow (size : UInt32) : Streams × Except H2Error Unit :=
  match self.flowControl.increaseSendSize size with
  | .error e => (self, .error e)
  | .ok flowControl => ({ self with flowControl }, .ok ())

def reassignConnSendWindow : Streams :=
  { self with pendingSend := self.pendingSend ++ self.pendingConnWindow, pendingConnWindow := [] }

def reassignStreamSendWindow (id : StreamId) (size : UInt32) : Streams × Except H2Error Unit :=
  let requeue (self : Streams) : Streams :=
    if id ∈ self.pendingStreamWindow then
      { self with pendingStreamWindow := self.pendingStreamWindow.erase id }.pushBackPendingSend id
    else self
  match self.streamMap.lookup id with
  | none => (requeue self, .ok ())
  | some stream =>
    match stream.sendWindow.increaseSize size with
    | .error e => (self, .error e)
    | .ok sendWindow => (requeue (self.setStream id { stream with sendWindow }), .ok ())

def headers (self : Streams) (id : StreamId) : Streams × Except H2Error (Option Frame) :=
  match self.streamMap.lookup id with
  | none => (self, .error (.connectionError .intervalError))
  | some stream =>
    if stream.state.isClosed then (self, .ok none)
    else (self.setStream id { stream with header := none }, .ok stream.header)

def dataFrameSize : ℕ := 16 * 1024

def pollSizedData (id : StreamId) (len : ℕ) :
    Except Panic (Streams × Except H2Error DataReadState) :=
  match self.streamMap.lookup id with
  | none => .ok (self, .error (.connectionError .intervalError))
  | some stream =>
    match stream.data.pollRead len with
    | (data, .ready octets) =>
      if octets.length > 0 then do
        let size := UInt32.ofNat octets.length
        let sendWindow ← stream.sendWindow.sendData size
        let flowControl ← self.flowControl.sendData size
        return ({ self.setStream id { stream with data, sendWindow } with flowControl },
          .ok (.ready { id, flags := { bits := 0 }, payload := .data octets }))
      else
        .ok (self.setStream id { stream with data },
          .ok (.finish { id, flags := { bits := 1 }, payload := .data [] }))
    | (data, .failed) =>
      .ok (self.setStream id { stream with data }, .error (.streamError id .intervalError))
    | (data, .pending) =>
      .ok ((self.setStream id { stream with data }).pushBackPendingSend id, .ok .pending)

def pollReadBody (id : StreamId) : Except Panic (Streams × Except H2Error DataReadState) :=
  match self.streamMap.lookup id with
  | none => .ok (self, .error (.connectionError .intervalError))
  | some stream =>
    if stream.state.isClosed then .ok (self, .ok .closed)
    else
      let streamSendVacant := stream.sendWindow.sizeAvailable.toNat
      if streamSendVacant = 0 then
        .ok ({ self with pendingStreamWindow := self.pendingStreamWindow.insert id }, .ok .pending)
      else
        let connSendVacant := self.flowControl.sendSizeAvailable
        if connSendVacant = 0 then
          .ok ({ self with pendingConnWindow := self.pendingConnWindow ++ [id] }, .ok .pending)
        else
          let available := min streamSendVacant connSendVacant
          self.pollSizedData id (min available dataFrameSize)

/-- What `get_unset_streams` does to one stream above the last of the GOAWAY. -/
def unsetStream (id : StreamId) (stream : Stream) : Except Panic Streams :=
  match stream.state with
  | .closed _ => .ok self
  | .idle => .ok (self.setStream id (stream.close .remoteGoAway))
  | _ => (self.setStream id (stream.close .remoteGoAway)).decreaseCurrentConcurrency

/-- The loop of `get_unset_streams` over the streams. -/
def unsetStreams (lastStreamId : StreamId) :
    List StreamId → Streams → Except Panic (Streams × List StreamId)
  | [], self => .ok (self, [])
  | id :: ids, self =>
    match self.streamMap.lookup id with
    | none => unsetStreams lastStreamId ids self
    | some stream =>
      if id > lastStreamId then do
        let self ← self.unsetStream id stream
        let (self, unset) ← unsetStreams lastStreamId ids self
        return (self, id :: unset)
      else unsetStreams lastStreamId ids self

def getUnsetStreams (lastStreamId : StreamId) : Except Panic (Streams × List StreamId) :=
  unsetStreams lastStreamId self.streamMap.keys self

def getAllUnclosedStreams : Streams × List StreamId :=
  let close (stream : Stream) : Stream :=
    if stream.state.isClosed then stream else stream.close .localGoAway
  let unclosed := self.streamMap.entries.filter fun e => !e.2.state.isClosed
  ({ self with streamMap := mapVal (fun _ => close) self.streamMap }, unclosed.map (·.1))

def clearStreamsStates : Streams :=
  { self with
    pendingStreamWindow := []
    pendingSend := []
    pendingConnWindow := []
    pendingConcurrency := [] }

def sendLocalReset (id : StreamId) : Except Panic (Streams × StreamEndState) :=
  match self.streamMap.lookup id with
  | none => .ok (self, .err (.connectionError .protocolError))
  | some stream =>
    match stream.state with
    | .closed .endStream =>
      .ok (self.setStream id { stream with state := .closed .localRst }, .ignore)
    | .closed _ => .ok (self, .ignore)
    | _ => do
      let self := self.setStream id (stream.close .localRst)
      return (← self.decreaseCurrentConcurrency, .ok)

def sendHeadersFrame (id : StreamId) (eos : Bool) : Except Panic (Streams × FrameRecvState) :=
  match self.streamMap.lookup id with
  | none => .ok (self, .err (.connectionError .protocolError))
  | some stream =>
    let become (state : H2StreamState) : Streams := self.setStream id { stream with state }
    match stream.state with
    | .idle =>
      if eos then .ok (become (.localHalfClosed .waitHeaders), .ok)
      else .ok (become (.open .waitData .waitHeaders), .ok)
    | .open .waitHeaders recv =>
      if eos then .ok (become (.localHalfClosed recv), .ok)
      else .ok (become (.open .waitData recv), .ok)
    | .remoteHalfClosed .waitHeaders =>
      if eos then do
        return (← (become (.closed .endStream)).decreaseCurrentConcurrency, .ok)
      else .ok (become (.remoteHalfClosed .waitData), .ok)
    | _ => .ok (self, .err (.connectionError .protocolError))

def sendDataFrame (id : StreamId) (eos : Bool) : Except Panic (Streams × FrameRecvState) :=
  match self.streamMap.lookup id with
  | none => .ok (self, .err (.connectionError .protocolError))
  | some stream =>
    let become (state : H2StreamState) : Streams := self.setStream id { stream with state }
    match stream.state with
    | .open .waitData recv =>
      if eos then .ok (become (.localHalfClosed recv), .ok) else .ok (self, .ok)
    | .remoteHalfClosed .waitData =>
      if eos then do
        return (← (become (.closed .endStream)).decreaseCurrentConcurrency, .ok)
      else .ok (self, .ok)
    | _ => .ok (self, .err (.connectionError .protocolError))

def recvRemoteReset (id : StreamId) : Except Panic (Streams × StreamEndState) :=
  if id > self.maxRecvId then .ok (self, .ignore)
  else
    match self.streamMap.lookup id with
    | none => .ok (self, .err (.connectionError .protocolError))
    | some stream =>
      if stream.state.isClosed then .ok (self, .ignore)
      else do
        let self := self.setStream id (stream.close .remoteRst)
        return (← self.decreaseCurrentConcurrency, .ok)

def recvHeaders (id : StreamId) (eos : Bool) : Except Panic (Streams × FrameRecvState) :=
  if id > self.maxRecvId then .ok (self, .ignore)
  else
    match self.streamMap.lookup id with
    | none => .ok (self, .err (.connectionError .protocolError))
    | some stream =>
      let become (state : H2StreamState) : Streams := self.setStream id { stream with state }
      match stream.state with
      | .idle =>
        if eos then .ok (become (.remoteHalfClosed .waitHeaders), .ok)
        else .ok (become (.open .waitHeaders .waitData), .ok)
      | .open send .waitHeaders =>
        if eos then .ok (become (.remoteHalfClosed send), .ok)
        else .ok (become (.open send .waitData), .ok)
      | .reservedRemote | .localHalfClosed .waitHeaders =>
        if eos then do
          return (← (become (.closed .endStream)).decreaseCurrentConcurrency, .ok)
        else .ok (become (.localHalfClosed .waitData), .ok)
      | .closed .localGoAway | .closed .localRst => .ok (self, .ignore)
      | _ => .ok (self, .err (.connectionError .protocolError))

def recvData (id : StreamId) (eos : Bool) : Except Panic (Streams × FrameRecvState) :=
  if id > self.maxRecvId then .ok (self, .ignore)
  else
    match self.streamMap.lookup id with
    | none => .ok (self, .err (.connectionError .protocolError))
    | some stream =>
      let become (state : H2StreamState) : Streams := self.setStream id { stream with state }
      match stream.state with
      | .open send .waitData =>
        if eos then .ok (become (.remoteHalfClosed send), .ok) else .ok (self, .ok)
      | .localHalfClosed .waitData =>
        if eos then do
          return (← (become (.closed .endStream)).decreaseCurrentConcurrency, .ok)
        else .ok (self, .ok)
      | .closed .localGoAway | .closed .localRst => .ok (self, .ignore)
      | _ => .ok (self, .err (.connectionError .protocolError))

/-- `generate_id`. The only error is a connection error with the code returned here. -/
def generateId : Streams × Except H2Error StreamId :=
  let id := self.nextStreamId
  if self.nextStreamId < defaultMaxStreamId then
    ({ self with nextStreamId := self.nextStreamId + 2 }, .ok id)
  else (self, .error (.connectionError .protocolError))

end Streams

end YlongHttp
