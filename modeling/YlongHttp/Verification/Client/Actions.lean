import YlongHttp.Model.Client.Manager
import YlongHttp.Verification.Client.Calls

/-! # A connection, one action at a time

Every turn of the loop of `ConnManager::poll` is a sequence of a few kinds of actions on the
streams. What holds in every run is proved of these actions; that the turns are made of them
is proved once. -/

namespace YlongHttp

open Library ConnManager

/-- What the manager is doing: waiting for an event, putting in the frames of a stream it has
taken from the queue, or nothing more. -/
inductive Phase where
  | idle
  | input (id : StreamId)
  | over

structure Conn where
  streams : Streams
  phase : Phase
  log : List Entry
  /-- Whether the server is going away. -/
  away : Bool

/-- Who resets a stream. -/
inductive Reset where
  | byServer
  | byClient

/-- What the manager may do: which streams are reset, with which streams the server can go away
after which last one, and which SETTINGS of the client can be acknowledged. -/
structure Rules where
  resets : Reset → StreamId → Prop
  goAway : StreamId → Streams → Prop
  settings : List Setting → Prop

variable (frame : Frame)

def Frame.isPlain : Bool :=
  match frame.payload with
  | .headers _ | .data _ | .rstStream _ => false
  | _ => true

def Frame.isAnswer : Bool :=
  match frame.payload with
  | .settings _ | .ping _ => frame.flags.isAck
  | _ => false

theorem Frame.isPlain_of_isAnswer {frame : Frame} (h : frame.isAnswer = true) :
    frame.isPlain = true := by
  rw [isAnswer] at h
  rw [isPlain]
  cases hpay : frame.payload <;> simp_all

def Frame.isDeferred : Bool :=
  match frame.payload with
  | .rstStream _ | .windowUpdate _ => false
  | .settings _ => frame.flags.isAck
  | .data _ => false
  | _ => true

def Entry.isPlain : Entry → Bool
  | .opened _ => false
  | .received _ => true
  | .sent frame => frame.isPlain

def sentUpdate (update : Option Frame) : List Entry := (update.map Entry.sent).toList

namespace Streams

variable (s : Streams)

def accepted (request : RequestWrapper) : Streams :=
  (enqueue { s with nextStreamId := s.nextStreamId + 2 } s.nextStreamId).insert s.nextStreamId
    { id := s.nextStreamId, flags := request.flag, payload := request.payload } request.data

def fresh (request : RequestWrapper) : Stream :=
  .new (.new (asI32 s.streamRecvWindowSize)) (.new (asI32 s.streamSendWindowSize))
    { id := s.nextStreamId, flags := request.flag, payload := request.payload } request.data

theorem accepted_cases (request : RequestWrapper) :
    ((s.reachMaxConcurrency = true ∨ s.pendingConcurrency ≠ []) ∧
      s.accepted request = { s with
        nextStreamId := s.nextStreamId + 2
        pendingConcurrency := s.pendingConcurrency ++ [s.nextStreamId]
        streamMap := s.streamMap.insert s.nextStreamId (s.fresh request) }) ∨
    (s.reachMaxConcurrency = false ∧ s.pendingConcurrency = [] ∧
      s.accepted request = { s with
        nextStreamId := s.nextStreamId + 2
        currentConcurrentStreams := s.currentConcurrentStreams + 1
        pendingSend := s.pendingSend ++ [s.nextStreamId]
        streamMap := s.streamMap.insert s.nextStreamId (s.fresh request) }) := by
  rw [accepted, enqueue]
  split
  · rename_i h
    refine .inl ⟨?_, rfl⟩
    simpa [reachMaxConcurrency, isPendingConcurrencyEmpty] using h
  · rename_i h
    refine .inr ⟨?_, ?_, rfl⟩
    · simp only [Bool.or_eq_true, not_or] at h
      simpa [reachMaxConcurrency] using h.1
    · simp only [Bool.or_eq_true, not_or] at h
      simpa [isPendingConcurrencyEmpty] using h.2

def ended (id : StreamId) (stream : Stream) (reason : CloseReason) : Streams :=
  { s.setStream id (stream.close reason) with
    currentConcurrentStreams := s.currentConcurrentStreams - 1 }

def charged (id : StreamId) (stream : Stream) (data : BodyDataRef)
    (sendWindow connWindow : SendWindow) : Streams :=
  { s.setStream id { stream with data, sendWindow } with
    flowControl := { s.flowControl with sendWindow := connWindow } }

def Charges (id : StreamId) : Prop :=
  ∀ stream, s.streamMap.lookup id = some stream → stream.state.isClosed = false →
    id ≤ s.maxRecvId → stream.isInitOrActiveFlowControl = true

end Streams

inductive Action (R : Rules) : Conn → Conn → Prop where
  | opened {s log} (request : RequestWrapper) : s.nextStreamId < defaultMaxStreamId →
      Action R ⟨s, .idle, log, false⟩ ⟨s.accepted request, .idle, .opened s.nextStreamId :: log, false⟩
  | admitted {s log id ids} : s.pendingConcurrency = id :: ids → s.reachMaxConcurrency = false →
      Action R ⟨s, .idle, log, false⟩
        ⟨{ s with pendingConcurrency := ids }.increaseCurrentConcurrency.pushBackPendingSend id,
          .idle, log, false⟩
  | taken {s log id ids} : s.pendingSend = id :: ids →
      Action R ⟨s, .idle, log, false⟩ ⟨{ s with pendingSend := ids }, .input id, log, false⟩
  | headers {s log away id stream header state} : s.streamMap.lookup id = some stream →
      stream.header = some header →
      (StreamFrame.sendHeaders header.flags.isEndStream).move stream.state = some state →
      (state.isClosed = true → 0 < s.currentConcurrentStreams) →
      Action R ⟨s, .input id, log, away⟩
        ⟨s.moved id { stream with header := none } state,
          if header.flags.isEndStream then .idle else .input id, .sent header :: log, away⟩
  | data {s log away id stream len data octets sendWindow connWindow} :
      s.streamMap.lookup id = some stream →
      (StreamFrame.sendData false).move stream.state = some stream.state →
      stream.data.pollRead len = (data, .ready octets) → octets ≠ [] →
      octets.length ≤ len → len ≤ Streams.dataFrameSize →
      (octets.length : ℤ) ≤ stream.sendWindow.size.val →
      (octets.length : ℤ) ≤ s.flowControl.sendWindow.size.val →
      sendWindow.size.val = stream.sendWindow.size.val - (octets.length : ℤ) →
      connWindow.size.val = s.flowControl.sendWindow.size.val - (octets.length : ℤ) →
      Action R ⟨s, .input id, log, away⟩
        ⟨s.charged id stream data sendWindow connWindow, .input id,
          .sent { id, flags := { bits := 0 }, payload := .data octets } :: log, away⟩
  | finished {s log away id stream data state} {len : ℕ} : s.streamMap.lookup id = some stream →
      0 < len → (len : ℤ) ≤ stream.sendWindow.size.val →
      (len : ℤ) ≤ s.flowControl.sendWindow.size.val →
      stream.data.pollRead len = (data, .ready []) →
      (StreamFrame.sendData true).move stream.state = some state →
      (state.isClosed = true → 0 < s.currentConcurrentStreams) →
      Action R ⟨s, .input id, log, away⟩
        ⟨s.moved id { stream with data } state, .idle,
          .sent { id, flags := { bits := 1 }, payload := .data [] } :: log, away⟩
  | skipped {s log away id stream} : s.streamMap.lookup id = some stream →
      stream.state.isClosed = true → Action R ⟨s, .input id, log, away⟩ ⟨s, .idle, log, away⟩
  | parkedStream {s log away id stream} : s.streamMap.lookup id = some stream →
      stream.header = none → stream.sendWindow.size.val ≤ 0 →
      Action R ⟨s, .input id, log, away⟩
        ⟨{ s with pendingStreamWindow := s.pendingStreamWindow.insert id }, .idle, log, away⟩
  | parkedConn {s log away id stream} : s.streamMap.lookup id = some stream →
      stream.header = none → s.flowControl.sendWindow.size.val ≤ 0 →
      Action R ⟨s, .input id, log, away⟩
        ⟨{ s with pendingConnWindow := s.pendingConnWindow ++ [id] }, .idle, log, away⟩
  | waited {s log away id stream len data} : s.streamMap.lookup id = some stream →
      stream.header = none → stream.data.pollRead len = (data, .pending) →
      Action R ⟨s, .input id, log, away⟩
        ⟨(s.setStream id { stream with data }).pushBackPendingSend id, .idle, log, away⟩
  | failed {s log away id stream len data code} : s.streamMap.lookup id = some stream →
      stream.header = none → stream.state.isClosed = false → stream.data.pollRead len = (data, .failed) →
      0 < s.currentConcurrentStreams →
      Action R ⟨s, .input id, log, away⟩
        ⟨s.ended id { stream with data } .localRst, .idle, .sent (rstStream id code) :: log, away⟩
  | frameReceived {s log away id stream state} (e : StreamFrame) : e.isReceived = true →
      s.streamMap.lookup id = some stream → e.move stream.state = some state →
      (state.isClosed = true → 0 < s.currentConcurrentStreams) →
      Action R ⟨s, .idle, log, away⟩ ⟨s.moved id stream state, .idle, log, away⟩
  | remoteReset {s log away stream} {frame : Frame} {code} : R.resets .byServer frame.id →
      frame.payload = .rstStream code →
      s.streamMap.lookup frame.id = some stream → stream.state.isClosed = false →
      0 < s.currentConcurrentStreams →
      Action R ⟨s, .idle, log, away⟩
        ⟨s.ended frame.id stream .remoteRst, .idle, .received frame :: log, away⟩
  | resetIgnored {s log away} {frame : Frame} {code} : frame.payload = .rstStream code →
      (s.maxRecvId < frame.id ∨
        ∃ stream, s.streamMap.lookup frame.id = some stream ∧ stream.state.isClosed = true) →
      Action R ⟨s, .idle, log, away⟩ ⟨s, .idle, .received frame :: log, away⟩
  | localReset {s log away id stream code} (told : Bool) : R.resets .byClient id →
      s.streamMap.lookup id = some stream →
      stream.state.isClosed = false → 0 < s.currentConcurrentStreams →
      Action R ⟨s, .idle, log, away⟩
        ⟨s.ended id stream .localRst, .idle,
          if told then .sent (rstStream id code) :: log else log, away⟩
  | localResetLate {s log away id stream} : s.streamMap.lookup id = some stream →
      stream.state = .closed .endStream →
      Action R ⟨s, .idle, log, away⟩
        ⟨s.setStream id { stream with state := .closed .localRst }, .idle, log, away⟩
  | settings {s s' log away env settings} {frame : Frame} : frame.payload = .settings settings →
      frame.flags.isAck = false →
      (∀ n, .initialWindowSize n ∈ settings → n ≤ maxFlowControlWindow) →
      recvSettings env settings s = .ok (s', .ok ()) →
      Action R ⟨s, .idle, log, away⟩ ⟨s', .idle, .received frame :: log, away⟩
  | connUpdate {s log away increment flowControl} {frame : Frame} :
      frame.payload = .windowUpdate increment → frame.id = 0 →
      increment ≤ maxFlowControlWindow →
      s.flowControl.increaseSendSize increment = .ok flowControl →
      Action R ⟨s, .idle, log, away⟩
        ⟨{ s with flowControl }.reassignConnSendWindow, .idle, .received frame :: log, away⟩
  | streamUpdate {s s' log away increment} {frame : Frame} :
      frame.payload = .windowUpdate increment → frame.id ≠ 0 →
      increment ≤ maxFlowControlWindow →
      s.reassignStreamSendWindow frame.id increment = (s', .ok ()) →
      Action R ⟨s, .idle, log, away⟩ ⟨s', .idle, .received frame :: log, away⟩
  | dataAccepted {s s₁ s' log away octets connUpdate streamUpdate} {frame : Frame} :
      frame.payload = .data octets → octets.length < 2 ^ 24 → s.Charges frame.id →
      s.releaseConnRecvWindow (UInt32.ofNat octets.length) = .ok (s₁, .ok connUpdate) →
      s₁.releaseStreamRecvWindow frame.id (UInt32.ofNat octets.length) =
        .ok (s', .ok streamUpdate) →
      Action R ⟨s, .idle, log, away⟩
        ⟨s', .idle, sentUpdate streamUpdate ++ (sentUpdate connUpdate ++ .received frame :: log),
          away⟩
  | dataRefused {s s₁ log away octets connUpdate e} {frame : Frame} :
      frame.payload = .data octets → octets.length < 2 ^ 24 →
      s.releaseConnRecvWindow (UInt32.ofNat octets.length) = .ok (s₁, .ok connUpdate) →
      s₁.releaseStreamRecvWindow frame.id (UInt32.ofNat octets.length) = .ok (s₁, .error e) →
      Action R ⟨s, .idle, log, away⟩
        ⟨s₁, .idle, sentUpdate connUpdate ++ .received frame :: log, away⟩
  | acknowledged {s s' log away settings} : R.settings settings →
      recvAcknowledged settings s = .ok s' → Action R ⟨s, .idle, log, away⟩ ⟨s', .idle, log, away⟩
  | wentAway {s s' log away last ids} : R.goAway last s →
      { s with maxSendId := last }.getUnsetStreams last = .ok (s', ids) →
      Action R ⟨s, .idle, log, away⟩ ⟨s', .idle, log, true⟩
  | received {s log away} {frame : Frame} : frame.isDeferred = true →
      Action R ⟨s, .idle, log, away⟩ ⟨s, .idle, .received frame :: log, away⟩
  | sent {s log away} {frame : Frame} : frame.isAnswer = true →
      Action R ⟨s, .idle, log, away⟩ ⟨s, .idle, .sent frame :: log, away⟩
  | stopped {s phase log away} {entries : List Entry} : (∀ entry ∈ entries, entry.isPlain = true) →
      Action R ⟨s, phase, log, away⟩ ⟨s, .over, entries ++ log, away⟩

abbrev Path (R : Rules) : Conn → Conn → Prop := Relation.ReflTransGen (Action R)

end YlongHttp
