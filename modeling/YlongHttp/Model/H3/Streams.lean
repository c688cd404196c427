import YlongHttp.Model.Client.Manager
import YlongHttp.Model.H3.Frame

/-! # The streams of an HTTP/3 connection (`util/h3/streams.rs`)

A `HashSet` is a list without repetition. What the channel of a stream answers to a message is
an argument of the functions that send to it. -/

namespace YlongHttp.H3

open Library

/-- The errors of the QUIC library that the stream manager tells apart. -/
inductive QuicError where
  | done
  | invalidStreamState (id : ℕ)
  | streamStopped (err : ℕ)
  | streamReset (err : ℕ)
  | other
deriving DecidableEq

inductive DispatchErrorKind where
  | h3 (e : H3Error)
  | quic (e : QuicError)
  | channelClosed
  | streamFinished
  | goawayReceived
  | disconnect
deriving DecidableEq

inductive RespMessage where
  | output (frame : Frame)
  | outputExit (e : DispatchErrorKind)
deriving DecidableEq

/-- `DispatchErrorKind::H3(H3Error::Connection(code))`. -/
def connectionError (code : H3ErrorCode) : DispatchErrorKind := .h3 (.connection code)

def http3FirstBidiStreamId : ℕ := 0

def http3FirstUniStreamId : ℕ := 2

def http3MaxStreamId : ℕ := 2 ^ 62 - 1

def defaultMaxConcurrentStreams : ℕ := 100

inductive H3StreamState where
  | sending
  | headersReceived
  | bodyReceived
  | trailerReceived
  | shutdown
deriving DecidableEq

inductive QUICStreamType where
  | clientInitialBidirectional
  | serverInitialBidirectional
  | clientInitialUnidirectional
  | serverInitialUnidirectional
deriving DecidableEq

/-- `QUICStreamType::from`. -/
def QUICStreamType.ofId (id : ℕ) : QUICStreamType :=
  match id % 4 with
  | 0 => .clientInitialBidirectional
  | 1 => .serverInitialBidirectional
  | 2 => .clientInitialUnidirectional
  | _ => .serverInitialUnidirectional

inductive DataReadState where
  | closed
  | pending
  | ready (frame : Frame)
  | finish

/-! ## One stream -/

structure BidirectionalStream where
  state : H3StreamState
  /-- What was put into the channel, in this order. -/
  frameTx : List RespMessage
  header : Option Frame
  data : BodyDataRef
  pendingMessage : List RespMessage
  encoding : Bool
  /-- The message of the future that waits for room in the channel. -/
  currMessage : Option RespMessage

namespace BidirectionalStream

def new (header : Frame) (data : BodyDataRef) : BidirectionalStream where
  state := .sending
  frameTx := []
  header := some header
  data
  pendingMessage := []
  encoding := false
  currMessage := none

/-- `transmit_message`. A future that waits already is dropped for the new one. -/
def transmitMessage (stream : BidirectionalStream) (message : RespMessage) :
    SendResult → BidirectionalStream
  | .sent => { stream with frameTx := stream.frameTx ++ [message] }
  | .closed => stream
  | .full => { stream with currMessage := some message }

/-- The state after a frame, in `send_frame`; `none` is `H3FrameUnexpected`. -/
def nextState (state : H3StreamState) (frame : Frame) : Option H3StreamState :=
  match state, frame.payload with
  | .sending, .headers _ _ => some .headersReceived
  | .sending, _ => none
  | .headersReceived, .headers _ _ => none
  | .headersReceived, _ => some .bodyReceived
  | .bodyReceived, .headers _ _ => some .trailerReceived
  | .bodyReceived, _ => some .bodyReceived
  | .trailerReceived, _ => none
  | .shutdown, _ => some .shutdown

/-- What a GOAWAY and a connection error do to a stream. -/
def shutdown (stream : BidirectionalStream) (error : DispatchErrorKind) (answer : SendResult) :
    BidirectionalStream :=
  { stream with state := .shutdown, header := none, pendingMessage := [],
                data := stream.data.clear }.transmitMessage (.outputExit error) answer

/-- The loop of `poll_blocked_message` over the messages that wait, the `n`-th answer of the
channel being the next one. The stream stays in the set if a message has to wait again. -/
def sendPending (channel : ℕ → SendResult) :
    List RespMessage → ℕ → BidirectionalStream → BidirectionalStream × Bool
  | [], _, stream => ({ stream with pendingMessage := [] }, false)
  | message :: pending, n, stream =>
    let stream := stream.transmitMessage message (channel n)
    match channel n with
    | .sent => sendPending channel pending (n + 1) stream
    | .full => ({ stream with pendingMessage := pending }, true)
    | .closed => ({ stream with pendingMessage := pending, state := .shutdown }, false)

/-- What `poll_blocked_message` does with one stream. -/
def pollBlocked (channel : ℕ → SendResult) (stream : BidirectionalStream) :
    BidirectionalStream × Bool :=
  match stream.currMessage with
  | none => sendPending channel stream.pendingMessage 0 stream
  | some message =>
    match channel 0 with
    | .sent =>
      sendPending channel stream.pendingMessage 1
        { stream with currMessage := none, frameTx := stream.frameTx ++ [message] }
    | .closed =>
      sendPending channel stream.pendingMessage 1
        { stream with currMessage := none, state := .shutdown }
    | .full => (stream, true)

end BidirectionalStream

/-! ## All streams -/

structure Streams where
  bidirectionalStream : AList fun _ : ℕ => BidirectionalStream
  controlStreamId : Option ℕ
  peerControlStreamId : Option ℕ
  qpackEncodeStreamId : Option ℕ
  qpackDecodeStreamId : Option ℕ
  peerQpackEncodeStreamId : Option ℕ
  peerQpackDecodeStreamId : Option ℕ
  goawayId : Option ℕ
  peerGoawayId : Option ℕ
  pendingSend : List ℕ
  pendingRecv : List ℕ
  resumeRecv : List ℕ
  pendingConcurrency : List ℕ
  pendingChannel : List ℕ
  workingStreamNum : ℕ
  maxStreamConcurrency : ℕ
  nextUniStreamId : ℕ
  nextBidiStreamId : ℕ

/-- The order in which a hash set gives its elements. -/
structure SetOrder where
  order : List ℕ → List ℕ
  perm : ∀ ids, (order ids).Perm ids

variable (self : Streams)

namespace Streams

def new : Streams where
  bidirectionalStream := ∅
  controlStreamId := none
  peerControlStreamId := none
  qpackEncodeStreamId := none
  qpackDecodeStreamId := none
  peerQpackEncodeStreamId := none
  peerQpackDecodeStreamId := none
  goawayId := none
  peerGoawayId := none
  pendingSend := []
  pendingRecv := []
  resumeRecv := []
  pendingConcurrency := []
  pendingChannel := []
  workingStreamNum := 0
  maxStreamConcurrency := defaultMaxConcurrentStreams
  nextUniStreamId := http3FirstUniStreamId
  nextBidiStreamId := http3FirstBidiStreamId

def stream? (id : ℕ) : Option BidirectionalStream :=
  self.bidirectionalStream.lookup id

def setStream (self : Streams) (id : ℕ) (stream : BidirectionalStream) : Streams :=
  { self with bidirectionalStream := modify id (fun _ => stream) self.bidirectionalStream }

/-- `decrease_current_concurrency`; `none` is the overflow of the subtraction. -/
def decreaseCurrentConcurrency : Option Streams :=
  if self.workingStreamNum = 0 then none
  else some { self with workingStreamNum := self.workingStreamNum - 1 }

def increaseCurrentConcurrency : Streams :=
  { self with workingStreamNum := self.workingStreamNum + 1 }

def reachMaxConcurrency : Bool := self.workingStreamNum ≥ self.maxStreamConcurrency

def pushBackPendingSend (id : ℕ) : Streams :=
  { self with pendingSend := self.pendingSend ++ [id] }

def nextStream : Streams × Option ℕ :=
  ({ self with pendingSend := self.pendingSend.tail }, self.pendingSend.head?)

def pushBackPendingConcurrency (id : ℕ) : Streams :=
  { self with pendingConcurrency := self.pendingConcurrency ++ [id] }

def streamPendChannel (id : ℕ) : Streams :=
  { self with pendingChannel := self.pendingChannel.insert id }

def isStreamChannelPending (id : ℕ) : Bool := id ∈ self.pendingChannel

def isStreamRecvPending (id : ℕ) : Bool := id ∈ self.pendingRecv

def frameAcceptable (id : ℕ) : Bool :=
  !self.isStreamRecvPending id && !self.isStreamChannelPending id

def pendStreamRecv (id : ℕ) : Streams :=
  { self with pendingRecv := self.pendingRecv.insert id }

def resumeStreamRecv (id : ℕ) : Streams :=
  { self with pendingRecv := self.pendingRecv.erase id, resumeRecv := self.resumeRecv ++ [id] }

def getResumeStreamId : Streams × Option ℕ :=
  ({ self with resumeRecv := self.resumeRecv.tail }, self.resumeRecv.head?)

def getNextBidiStreamId : Streams × Option ℕ :=
  ({ self with nextBidiStreamId := (self.nextBidiStreamId + 4) % 2 ^ 64 },
    if self.nextBidiStreamId > http3MaxStreamId then none else some self.nextBidiStreamId)

def getNextUniStreamId : Streams × Option ℕ :=
  ({ self with nextUniStreamId := (self.nextUniStreamId + 4) % 2 ^ 64 },
    if self.nextUniStreamId > http3MaxStreamId then none else some self.nextUniStreamId)

def newUnidirectionalStream (header : Frame) (data : BodyDataRef) :
    Streams × Except DispatchErrorKind Unit :=
  match self.getNextBidiStreamId with
  | (self, none) => (self, .error (connectionError .h3GeneralProtocolError))
  | (self, some id) =>
    let self := { self with
      bidirectionalStream := self.bidirectionalStream.insert id (.new header data) }
    if self.reachMaxConcurrency then (self.pushBackPendingConcurrency id, .ok ())
    else ((self.pushBackPendingSend id).increaseCurrentConcurrency, .ok ())

/-- The loop of `try_consume_pending_concurrency`. -/
def consumePendingConcurrency : List ℕ → Streams → Streams
  | [], self => { self with pendingConcurrency := [] }
  | id :: ids, self =>
    if self.reachMaxConcurrency then { self with pendingConcurrency := id :: ids }
    else consumePendingConcurrency ids (self.pushBackPendingSend id).increaseCurrentConcurrency

def tryConsumePendingConcurrency : Streams :=
  consumePendingConcurrency self.pendingConcurrency self

/-- The stream waits for its channel if that is full. -/
def pendIfFull (id : ℕ) : SendResult → Streams
  | .full => self.streamPendChannel id
  | _ => self

/-- What the answer of the channel makes of a message. -/
def sendResult : SendResult → Except DispatchErrorKind Unit
  | .closed => .error .channelClosed
  | _ => .ok ()

def sendFrame (id : ℕ) (frame : Frame) (answer : SendResult) :
    Streams × Except DispatchErrorKind Unit :=
  match self.stream? id with
  | none => (self, .error .channelClosed)
  | some stream =>
    match BidirectionalStream.nextState stream.state frame with
    | none => (self, .error (connectionError .h3FrameUnexpected))
    | some state =>
      if stream.state = .shutdown then (self, .ok ())
      else if stream.currMessage.isSome then
        (self.setStream id { stream with
          state, pendingMessage := stream.pendingMessage ++ [.output frame] }, .ok ())
      else
        ((self.setStream id
          ({ stream with state }.transmitMessage (.output frame) answer)).pendIfFull id answer,
          sendResult answer)

def sendError (id : ℕ) (error : DispatchErrorKind) (answer : SendResult) :
    Streams × Except DispatchErrorKind Unit :=
  match self.stream? id with
  | none => (self, .error .channelClosed)
  | some stream =>
    ((self.setStream id
      ({ stream with pendingMessage := [] }.transmitMessage (.outputExit error) answer)).pendIfFull
        id answer, sendResult answer)

def getHeader (id : ℕ) : Streams × Except DispatchErrorKind (Option Frame) :=
  match self.stream? id with
  | none => (self, .error (connectionError .h3InternalError))
  | some stream => (self.setStream id { stream with header := none }, .ok stream.header)

def encoding (id : ℕ) : Except DispatchErrorKind Bool :=
  match self.stream? id with
  | none => .error (connectionError .h3InternalError)
  | some stream => .ok stream.encoding

def setEncoding (id : ℕ) (encoding : Bool) : Streams × Except DispatchErrorKind Unit :=
  match self.stream? id with
  | none => (self, .error (connectionError .h3InternalError))
  | some stream => (self.setStream id { stream with encoding }, .ok ())

/-- `poll_sized_data`, into a buffer of `len` octets. -/
def pollSizedData (id len : ℕ) : Streams × Except DispatchErrorKind DataReadState :=
  match self.stream? id with
  | none => (self, .error (connectionError .h3InternalError))
  | some stream =>
    if stream.state = .shutdown then (self, .ok .closed)
    else
      match stream.data.pollRead len with
      | (data, .ready octets) =>
        (self.setStream id { stream with data },
          .ok (if octets = [] then .finish else .ready { ty := dataFrameType, payload := .data octets }))
      | (data, .failed) =>
        (self.setStream id { stream with data }, .error (connectionError .h3InternalError))
      | (data, .pending) =>
        ((self.setStream id { stream with data }).pushBackPendingSend id, .ok .pending)

/-- `shutdown_stream`; `none` is the overflow of `working_stream_num`. -/
def shutdownStream (id : ℕ) (err : H3ErrorCode) (answer : SendResult) : Option Streams :=
  match self.stream? id with
  | none => some self
  | some stream =>
    ((self.setStream id
      (stream.transmitMessage (.outputExit (.h3 (.stream id err))) answer)).pendIfFull
        id answer).decreaseCurrentConcurrency

/-- The streams of `affected` are shut down. -/
def shutdownAll (affected : ℕ → Bool) (error : DispatchErrorKind) (channel : ℕ → SendResult) :
    Streams :=
  { self with
    bidirectionalStream := mapVal
      (fun id stream => if affected id then stream.shutdown error (channel id) else stream)
      self.bidirectionalStream
    pendingChannel := (self.bidirectionalStream.keys.filter fun id =>
      affected id && channel id = .full).foldl (fun set id => set.insert id) self.pendingChannel }

def goaway (goawayId : ℕ) (channel : ℕ → SendResult) : Streams × Except DispatchErrorKind Unit :=
  if self.peerGoawayId.any fun oldGoawayId => goawayId > oldGoawayId then
    (self, .error (connectionError .h3IdError))
  else if QUICStreamType.ofId goawayId ≠ .clientInitialBidirectional then
    (self, .error (connectionError .h3IdError))
  else
    ({ self with goawayId := some goawayId }.shutdownAll (fun id => id > goawayId)
      .goawayReceived channel, .ok ())

def shutdown (self : Streams) (err : DispatchErrorKind) (channel : ℕ → SendResult) : Streams :=
  self.shutdownAll (fun _ => true) err channel

def finishStream (id : ℕ) (answer : SendResult) : Streams × Except (Fault DispatchErrorKind) Unit :=
  if QUICStreamType.ofId id ≠ .clientInitialBidirectional then
    if some id = self.peerControlStreamId ∨ some id = self.peerQpackEncodeStreamId ∨
        some id = self.peerQpackDecodeStreamId then
      (self, .error (.error (connectionError .h3ClosedCriticalStream)))
    else (self, .ok ())
  else
    match self.decreaseCurrentConcurrency with
    | none => (self, .error .panic)
    | some self =>
      match self.stream? id with
      | none => (self, .error (.error (connectionError .h3InternalError)))
      | some stream =>
        let stream := { stream with state := .shutdown }
        if stream.currMessage.isNone then
          ((self.setStream id
            (stream.transmitMessage (.outputExit .streamFinished) answer)).pendIfFull id answer,
            (sendResult answer).mapError .error)
        else
          (self.setStream id { stream with
            pendingMessage := stream.pendingMessage ++ [.outputExit .streamFinished] }, .ok ())

/-- The loop of `poll_blocked_message`, with the streams that still wait. -/
def pollBlockedStreams (channel : ℕ → ℕ → SendResult) :
    List ℕ → List ℕ → Streams → Streams × Except DispatchErrorKind (List ℕ)
  | [], newSet, self => (self, .ok newSet)
  | id :: ids, newSet, self =>
    match self.stream? id with
    | none => (self, .error (connectionError .h3InternalError))
    | some stream =>
      let (stream, waits) := stream.pollBlocked (channel id)
      pollBlockedStreams channel ids (if waits then newSet.insert id else newSet)
        (self.setStream id stream)

/-- `poll_blocked_message`, the `n`-th answer of the channel of a stream being `channel id n`. -/
def pollBlockedMessage (hash : SetOrder) (channel : ℕ → ℕ → SendResult) :
    Streams × Except DispatchErrorKind Unit :=
  match pollBlockedStreams channel (hash.order self.pendingChannel) [] self with
  | (self, .ok newSet) => ({ self with pendingChannel := newSet }, .ok ())
  | (self, .error e) => (self, .error e)

def setPeerControlStreamId (id : ℕ) : Streams × Except DispatchErrorKind Unit :=
  match self.peerControlStreamId with
  | some oldId =>
    (self, if oldId ≠ id then .error (connectionError .h3StreamCreationError) else .ok ())
  | none => ({ self with peerControlStreamId := some id }, .ok ())

def setPeerQpackEncodeStreamId (id : ℕ) : Streams × Except DispatchErrorKind Unit :=
  match self.peerQpackEncodeStreamId with
  | some oldId =>
    (self, if oldId ≠ id then .error (connectionError .h3StreamCreationError) else .ok ())
  | none => ({ self with peerQpackEncodeStreamId := some id }, .ok ())

def setPeerQpackDecodeStreamId (id : ℕ) : Streams × Except DispatchErrorKind Unit :=
  match self.peerQpackDecodeStreamId with
  | some oldId =>
    (self, if oldId ≠ id then .error (connectionError .h3StreamCreationError) else .ok ())
  | none => ({ self with peerQpackDecodeStreamId := some id }, .ok ())

end Streams

/-! ## The calls of the stream manager -/

/-- What the stream manager does to the streams. -/
inductive Call where
  | request (header : Frame) (data : BodyDataRef)
  | admission
  | next
  | sendLater (id : ℕ)
  | takeHeader (id : ℕ)
  | setEncoding (id : ℕ) (encoding : Bool)
  | readBody (id len : ℕ)
  | frame (id : ℕ) (frame : Frame) (answer : SendResult)
  | error (id : ℕ) (error : DispatchErrorKind) (answer : SendResult)
  | fin (id : ℕ) (answer : SendResult)
  | streamError (id : ℕ) (err : H3ErrorCode) (answer : SendResult)
  | goaway (goawayId : ℕ) (channel : ℕ → SendResult)
  | shutdown (err : DispatchErrorKind) (channel : ℕ → SendResult)
  | deliver (hash : SetOrder) (channel : ℕ → ℕ → SendResult)
  | pendRecv (id : ℕ)
  | resumeRecv (id : ℕ)
  | nextResume
  | peerControl (id : ℕ)
  | peerQpackEncode (id : ℕ)
  | peerQpackDecode (id : ℕ)

namespace Streams

/-- The streams after a call; `none` is a panic. An error that the call returns is dealt with
by further calls. -/
def call : Call → Option Streams
  | .request header data => some (self.newUnidirectionalStream header data).1
  | .admission => some self.tryConsumePendingConcurrency
  | .next => some self.nextStream.1
  | .sendLater id => some (self.pushBackPendingSend id)
  | .takeHeader id => some (self.getHeader id).1
  | .setEncoding id encoding => some (self.setEncoding id encoding).1
  | .readBody id len => some (self.pollSizedData id len).1
  | .frame id frame answer => some (self.sendFrame id frame answer).1
  | .error id error answer => some (self.sendError id error answer).1
  | .fin id answer =>
    match self.finishStream id answer with
    | (_, .error .panic) => none
    | (self, _) => some self
  | .streamError id err answer => self.shutdownStream id err answer
  | .goaway goawayId channel => some (self.goaway goawayId channel).1
  | .shutdown err channel => some (self.shutdown err channel)
  | .deliver hash channel => some (self.pollBlockedMessage hash channel).1
  | .pendRecv id => some (self.pendStreamRecv id)
  | .resumeRecv id => some (self.resumeStreamRecv id)
  | .nextResume => some self.getResumeStreamId.1
  | .peerControl id => some (self.setPeerControlStreamId id).1
  | .peerQpackEncode id => some (self.setPeerQpackEncodeStreamId id).1
  | .peerQpackDecode id => some (self.setPeerQpackDecodeStreamId id).1

def calls : Streams → List Call → Option Streams
  | self, [] => some self
  | self, c :: cs => (self.call c).bind (calls · cs)

end Streams

end YlongHttp.H3
