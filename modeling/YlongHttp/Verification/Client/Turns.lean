import YlongHttp.Verification.Client.Effects

/-! # The turns of the manager are made of actions -/

namespace YlongHttp

open List Streams
open Library

/-- A connection at a call that panics. -/
inductive Trap (R : Rules) : Conn → Panic → Prop where
  | settings {s log away env settings panic} :
      (∀ n, .initialWindowSize n ∈ settings → n ≤ maxFlowControlWindow) →
      ConnManager.recvSettings env settings s = .error panic → Trap R ⟨s, .idle, log, away⟩ panic
  | acknowledged {s log away settings panic} : R.settings settings →
      ConnManager.recvAcknowledged settings s = .error panic → Trap R ⟨s, .idle, log, away⟩ panic
  | connData {s log away panic} {octets : Bytes} : octets.length < 2 ^ 24 →
      s.releaseConnRecvWindow (UInt32.ofNat octets.length) = .error panic →
      Trap R ⟨s, .idle, log, away⟩ panic
  | streamData {s s₁ log away id update panic} {octets : Bytes} : octets.length < 2 ^ 24 →
      s.releaseConnRecvWindow (UInt32.ofNat octets.length) = .ok (s₁, .ok update) →
      s₁.releaseStreamRecvWindow id (UInt32.ofNat octets.length) = .error panic →
      Trap R ⟨s, .idle, log, away⟩ panic
  | received {s log away id stream state} (e : StreamFrame) : e.isReceived = true →
      s.streamMap.lookup id = some stream → e.move stream.state = some state →
      state.isClosed = true → s.currentConcurrentStreams = 0 →
      Trap R ⟨s, .idle, log, away⟩ .concurrency
  | sent {s log away id stream state} (e : StreamFrame) : e.isReceived = false →
      s.streamMap.lookup id = some stream → e.move stream.state = some state →
      state.isClosed = true → s.currentConcurrentStreams = 0 →
      Trap R ⟨s, .input id, log, away⟩ .concurrency
  | reset {s log away id stream} (kind : Reset) : R.resets kind id →
      s.streamMap.lookup id = some stream → stream.state.isClosed = false →
      s.currentConcurrentStreams = 0 → Trap R ⟨s, .idle, log, away⟩ .concurrency
  | failed {s log away id stream} : s.streamMap.lookup id = some stream →
      stream.state.isClosed = false → s.currentConcurrentStreams = 0 →
      Trap R ⟨s, .input id, log, away⟩ .concurrency
  | wentAway {s log away last panic} : R.goAway last s →
      { s with maxSendId := last }.getUnsetStreams last = .error panic →
      Trap R ⟨s, .idle, log, away⟩ panic

namespace ConnManager

variable {c : Conn} {m m' : ConnManager} {r : Poll (Except H2Error Unit)} {frame : Frame}
  {size : UInt32} {e : H2Error} {s s' : Streams} {env : Environment} {settings : List Setting}
  {state : FrameRecvState} {id : StreamId} {update : Except H2Error (Option Frame)} {octets : Bytes}

/-! ## Where a handler can lead -/

def conn (m : ConnManager) : Conn where
  streams := m.streams
  phase := .idle
  log := m.log
  away := m.goAwayErrorCode.isSome

variable {R : Rules}

/-- The manager has met no connection error. -/
structure Healthy (m : ConnManager) : Prop where
  goingAway : m.goingAway = none
  state : m.state = .receive ∨ (m.state = .send ∧ m.nextState = .receive)

structure Alive (R : Rules) (m : ConnManager) : Prop where
  goingAway : m.goingAway = none
  state : m.state = .receive ∨ (m.state = .send ∧ m.nextState = .receive)
  settings : ∀ settings, m.settings = .acknowledging settings → R.settings settings

/-- The manager has met a connection error, and has at most messages of its end to send. -/
structure Dead (m : ConnManager) : Prop where
  closed : ∀ id stream, m.streams.streamMap.lookup id = some stream → stream.state.isClosed = true
  state : ∃ e, m.state = .exit e ∨ (m.state = .send ∧ m.nextState = .exit e)

/-- The connection goes on. -/
structure Continues (R : Rules) (c : Conn) (m : ConnManager) : Prop where
  alive : m.Alive R
  path : Path R c m.conn

/-- The connection has met an error: what is left to be recorded are plain entries. -/
structure Halts (R : Rules) (c : Conn) (m : ConnManager) : Prop where
  goingAway : m.goingAway = none
  path : ∃ c' entries, Path R c c' ∧ (∀ entry ∈ entries, Entry.isPlain entry = true) ∧
    m.log = entries ++ c'.log

def Stops (R : Rules) (c : Conn) (m : ConnManager) : Prop :=
  ∃ c', Path R c c' ∧ c'.phase = .over ∧ c'.log = m.log

/-- What the answer of a handler of a frame says. -/
def Leads (R : Rules) (c : Conn) (m : ConnManager) : Poll (Except DispatchErrorKind Unit) → Prop
  | .ready (.error (.h2 (.streamError id _))) => Continues R c m ∧ ∀ stream,
      m.streams.streamMap.lookup id = some stream → stream.state.isClosed = false →
      R.resets .byClient id
  | .ready (.error _) => Halts R c m
  | _ => Continues R c m

def Settles (R : Rules) (c : Conn) (m : ConnManager) : Poll (Except DispatchErrorKind Unit) → Prop
  | .ready (.error _) => Stops R c m
  | _ => Continues R c m ∨ (m.Dead ∧ Stops R c m)

def Fails (R : Rules) (c : Conn) (panic : Panic) : Prop := ∃ c', Path R c c' ∧ Trap R c' panic

/-- A call answers as `Q` allows, or it panics where a path from `c` leads. -/
abbrev Comes {ρ : Type} (R : Rules) (c : Conn) (Q : ConnManager → ρ → Prop) :
    Except Panic (ConnManager × ρ) → Prop :=
  Except.Holds (Fails R c) fun p => Q p.1 p.2

theorem Halts.stops (h : Halts R c m) (entries : List Entry)
    (hplain : ∀ entry ∈ entries, Entry.isPlain entry = true) (hlog : m'.log = entries ++ m.log) :
    Stops R c m' := by
  obtain ⟨c', before, hpath, hbefore, hm⟩ := h.path
  refine ⟨⟨c'.streams, .over, (entries ++ before) ++ c'.log, c'.away⟩, hpath.tail (.stopped ?_), rfl, ?_⟩
  · intro entry hent
    rcases mem_append.mp hent with h | h
    · exact hplain entry h
    · exact hbefore entry h
  · rw [hlog, hm, append_assoc]

theorem Continues.halts (h : Continues R c m) (hgoing : m'.goingAway = none) (entries : List Entry)
    (hplain : ∀ entry ∈ entries, Entry.isPlain entry = true) (hlog : m'.log = entries ++ m.log) :
    Halts R c m' :=
  ⟨hgoing, m.conn, entries, h.path, hplain, hlog⟩

/-! ## Channels -/

/-- Nothing but the messages to the responses has changed. -/
structure Quiet (m m' : ConnManager) : Prop where
  streams : m'.streams = m.streams
  log : m'.log = m.log
  state : m'.state = m.state
  nextState : m'.nextState = m.nextState
  goingAway : m'.goingAway = m.goingAway
  settings : m'.settings = m.settings
  goAwayErrorCode : m'.goAwayErrorCode = m.goAwayErrorCode

theorem Quiet.conn (h : Quiet m m') : m'.conn = m.conn := by
  rw [ConnManager.conn, ConnManager.conn, h.streams, h.log, h.goAwayErrorCode]

theorem Quiet.alive (h : Quiet m m') (halive : m.Alive R) : m'.Alive R :=
  ⟨by rw [h.goingAway, halive.goingAway], by rw [h.state, h.nextState]; exact halive.state,
    by rw [h.settings]; exact halive.settings⟩

theorem Continues.quiet {c : Conn} {m m' : ConnManager} (h : Continues R c m) (hquiet : Quiet m m') :
    Continues R c m' :=
  ⟨hquiet.alive h.alive, by rw [hquiet.conn]; exact h.path⟩

theorem sendMessageToStream_quiet (m : ConnManager) (env : Environment) (id : StreamId)
    (message : RespMessage) : Quiet m (m.sendMessageToStream env id message).1 := by
  rw [sendMessageToStream]
  split
  · split <;> exact ⟨rfl, rfl, rfl, rfl, rfl, rfl, rfl⟩
  · exact ⟨rfl, rfl, rfl, rfl, rfl, rfl, rfl⟩

theorem sendMessages_quiet (env : Environment) (message : RespMessage) (ids : List StreamId)
    (m : ConnManager) : Quiet m (sendMessages env message ids m).1 := by
  induction ids generalizing m with
  | nil => exact ⟨rfl, rfl, rfl, rfl, rfl, rfl, rfl⟩
  | cons id ids ih =>
    have h := sendMessageToStream_quiet m env id message
    have h' := ih (m.sendMessageToStream env id message).1
    exact ⟨h'.streams.trans h.streams, h'.log.trans h.log, h'.state.trans h.state,
      h'.nextState.trans h.nextState, h'.goingAway.trans h.goingAway,
      h'.settings.trans h.settings, h'.goAwayErrorCode.trans h.goAwayErrorCode⟩

def Unheard (m : ConnManager) (env : Environment) (id : StreamId) : Prop :=
  id ∉ m.senders ∨ env.channel id = .closed

theorem sendMessageToStream_leads (h : Continues R c m) (env : Environment) (id : StreamId)
    (message : RespMessage)
    (hR : m.Unheard env id → ∀ stream, m.streams.streamMap.lookup id = some stream →
      stream.state.isClosed = false → R.resets .byClient id) :
    Leads R c (m.sendMessageToStream env id message).1
      (liftPoll (m.sendMessageToStream env id message).2) := by
  have hcont := h.quiet (sendMessageToStream_quiet m env id message)
  revert hcont
  rw [sendMessageToStream]
  split
  · split
    · exact fun h => h
    · rename_i hclosed
      exact fun h => ⟨h, hR (.inr hclosed)⟩
    · exact fun h => h
  · rename_i hsender
    exact fun h => ⟨h, hR (.inl hsender)⟩

theorem isAck_one : ({ bits := 1 } : FrameFlags).isAck = true := by decide

theorem sendInput_leads (h : Continues R c m) (env : Environment) (hanswer : frame.isAnswer = true)
    : Leads R c (m.sendInput env frame).1 (.ready (m.sendInput env frame).2) := by
  rw [sendInput]
  split
  · exact ⟨⟨h.alive.goingAway, h.alive.state, h.alive.settings⟩, h.path.tail (.sent hanswer)⟩
  · exact h.halts h.alive.goingAway [] (by simp) rfl

/-! ## Frames from the server -/

theorem increaseSize_error {w : SendWindow} (h : w.increaseSize size = .error e) :
    e = .connectionError .flowControlError := by
  simp only [SendWindow.increaseSize] at h
  split at h
  · split at h <;> cases h
    rfl
  · cases h
    rfl

theorem applySendInitialWindowSize_error {hash : HashOrder}
    (h : s.applySendInitialWindowSize hash size = .ok (s', .error e)) :
    e = .connectionError .flowControlError := by
  simp only [applySendInitialWindowSize] at h
  split at h
  · split at h
    · rename_i hinc
      cases h
      obtain ⟨stream, hchange⟩ := changeStreams_error hinc
      rcases of_bind_error hchange with hsize | ⟨_, _, hsize⟩
      · exact increaseSize_error hsize
      · cases hsize
    · cases h
  · split at h
    · obtain ⟨s₁, -, h⟩ := of_bind_ok h
      cases h
    · cases h

theorem recvSettings_error (h : recvSettings env settings s = .ok (s', .error e)) :
    e = .connectionError .flowControlError := by
  induction settings generalizing s with
  | nil => simp [recvSettings] at h
  | cons setting settings ih =>
    cases setting with
    | maxConcurrentStreams num => exact ih h
    | initialWindowSize size =>
      simp only [recvSettings] at h
      split at h
      · cases h
      · rename_i happly
        cases h
        exact applySendInitialWindowSize_error happly
      · exact ih h
    | headerTableSize | enablePush | maxFrameSize | maxHeaderListSize => exact ih h

theorem recvSettingsFrame_leads (halive : m.Alive R) (hpay : frame.payload = .settings settings)
    (hbound : ∀ n, .initialWindowSize n ∈ settings → n ≤ maxFlowControlWindow) :
    Comes R m.conn (fun m' r => Leads R m.conn m' (.ready r))
      ({ m with log := .received frame :: m.log }.recvSettingsFrame env frame settings) := by
  rw [recvSettingsFrame]
  split
  · rename_i hack
    have hstart : Path R m.conn
        ⟨m.streams, .idle, .received frame :: m.log, m.goAwayErrorCode.isSome⟩ :=
      .single (.received (by simp [Frame.isDeferred, hpay, hack]))
    refine .of_bind (fun panic hpanic => ?_) fun streams hstreams =>
      ⟨⟨halive.goingAway, halive.state, (fun _ h => nomatch h)⟩, ?_⟩
    · rw [acknowledge] at hpanic
      split at hpanic
      · rename_i settings' hset
        exact ⟨m.conn, .refl, .acknowledged (halive.settings settings' hset) hpanic⟩
      · cases hpanic
    · rw [acknowledge] at hstreams
      split at hstreams
      · rename_i settings' hset
        exact hstart.tail (.acknowledged (halive.settings settings' hset) hstreams)
      · cases hstreams
        exact hstart
  · rename_i hack
    have hack : frame.flags.isAck = false := by simpa using hack
    refine .of_bind (fun panic hpanic => ⟨m.conn, .refl, .settings hbound hpanic⟩) ?_
    rintro ⟨streams, e | u⟩ hset
    · rw [recvSettings_error hset]
      exact ⟨halive.goingAway, m.conn, [.received frame], .refl, by simp [Entry.isPlain], rfl⟩
    · have hcont : Continues R m.conn
          { m with streams, log := .received frame :: m.log } :=
        ⟨⟨halive.goingAway, halive.state, halive.settings⟩, .single (.settings hpay hack hbound hset)⟩
      refine sendInput_leads hcont env ?_
      rw [Frame.isAnswer, hpay]
      exact isAck_one

theorem recvPingFrame_leads (h : Continues R c m) (env : Environment) (frame : Frame) (ping : Ping)
    : Leads R c (m.recvPingFrame env frame ping).1 (.ready (m.recvPingFrame env frame ping).2) := by
  rw [recvPingFrame]
  split
  · exact h
  · exact sendInput_leads h env isAck_one

theorem ErrorCode.tryFrom_error {value : UInt32} (h : ErrorCode.tryFrom value = .error e) :
    e = .connectionError .protocolError := by
  unfold ErrorCode.tryFrom at h
  split at h <;> cases h
  rfl

theorem recvGoAwayFrame_leads {goaway : Goaway} (hm : Continues R c m)
    (hR : R.goAway goaway.lastStreamId m.streams) :
    Comes R c (fun m' r => Leads R c m' (liftPoll r)) (m.recvGoAwayFrame env goaway) := by
  rw [recvGoAwayFrame]
  by_cases hlast : m.streams.maxSendId < goaway.lastStreamId
  · rw [getUnsentStreams, if_pos hlast]
    exact hm.halts hm.alive.goingAway [] (by simp) rfl
  · rw [getUnsentStreams, if_neg hlast, bind_assoc]
    refine .of_bind (fun panic hunset => ⟨m.conn, hm.path, .wentAway hR hunset⟩) ?_
    rintro ⟨streams, ids⟩ hunset
    have hpath : Path R c ⟨streams, .idle, m.log, true⟩ := hm.path.tail (.wentAway hR hunset)
    dsimp only [pure_bind]
    split
    · rename_i hcode
      rw [ErrorCode.tryFrom_error hcode]
      exact ⟨hm.alive.goingAway, _, [], hpath, by simp, rfl⟩
    · rename_i code _
      have hquiet := sendMessages_quiet env (.outputExit (.h2 (.connectionError code)))
        (env.hash.order ids) { m with streams }
      have hm₁ : Continues R c { (sendMessages env (.outputExit (.h2 (.connectionError code)))
          (env.hash.order ids) { m with streams }).1 with
          goAwayErrorCode := some goaway.errorCode } := by
        refine ⟨⟨hquiet.goingAway.trans hm.alive.goingAway, ?_, ?_⟩, ?_⟩
        · dsimp only
          rw [hquiet.state, hquiet.nextState]
          exact hm.alive.state
        · dsimp only
          rw [hquiet.settings]
          exact hm.alive.settings
        · rw [ConnManager.conn]
          dsimp only
          rw [hquiet.streams, hquiet.log]
          exact hpath
      change Leads R c _ (liftPoll (if _ then _ else _))
      split <;> exact hm₁

theorem recvResetFrame_leads {code : UInt32} (halive : m.Alive R)
    (hpay : frame.payload = .rstStream code)
    (hR : ∀ stream, m.streams.streamMap.lookup frame.id = some stream →
      stream.state.isClosed = false → R.resets .byServer frame.id) :
    Comes R m.conn (fun m' r => Leads R m.conn m' (liftPoll r))
      ({ m with log := .received frame :: m.log }.recvResetFrame env frame) := by
  rw [recvResetFrame]
  simp only [recvRemoteReset]
  split
  · rename_i hmax
    exact ⟨⟨halive.goingAway, halive.state, halive.settings⟩, .single (.resetIgnored hpay (.inl hmax))⟩
  · split
    · exact ⟨halive.goingAway, m.conn, [.received frame], .refl, by simp [Entry.isPlain], rfl⟩
    · rename_i stream hget
      split
      · rename_i hclosed
        exact ⟨⟨halive.goingAway, halive.state, halive.settings⟩,
          .single (.resetIgnored hpay (.inr ⟨stream, hget, hclosed⟩))⟩
      · rename_i hopen
        have hopen : stream.state.isClosed = false := by simpa using hopen
        rw [decreaseCurrentConcurrency]
        split
        · rename_i hzero
          exact ⟨m.conn, .refl, .reset .byServer (hR stream hget hopen) hget hopen hzero⟩
        · rename_i hcnt
          have hcont : Continues R m.conn { m with
              streams := m.streams.ended frame.id stream .remoteRst
              log := .received frame :: m.log } :=
            ⟨⟨halive.goingAway, halive.state, halive.settings⟩,
              .single (.remoteReset (hR stream hget hopen) hpay hget hopen
                (Nat.pos_of_ne_zero hcnt))⟩
          refine sendMessageToStream_leads hcont env frame.id _ fun _ stream' hget' hopen' => ?_
          obtain rfl := eq_of_lookup_setStream hget hget'
          cases hopen'

theorem deliver_leads (env : Environment) (e : StreamFrame) (hm : Continues R c m)
    (hrecv : e.isReceived = true)
    (hR : ∀ stream, m.streams.streamMap.lookup frame.id = some stream →
      stream.state.isClosed = false → m.Unheard env frame.id → R.resets .byClient frame.id) :
    Except.Holds (Fails R c) (fun a => Leads R c ({ m with streams := a.1 }.deliver env frame a.2).1
      (liftPoll ({ m with streams := a.1 }.deliver env frame a.2).2)) (e.call frame.id m.streams) := by
  generalize hcall : e.call frame.id m.streams = answer
  cases hcall ▸ e.call_cases frame.id m.streams with
  | @moved stream state hget hmove hcnt =>
    have hcont : Continues R c { m with streams := m.streams.moved frame.id stream state } :=
      ⟨⟨hm.alive.goingAway, hm.alive.state, hm.alive.settings⟩,
        hm.path.tail (.frameReceived e hrecv hget hmove hcnt)⟩
    exact sendMessageToStream_leads hcont env frame.id _ fun h _ _ _ =>
      hR stream hget (StreamFrame.not_isClosed_of_move hmove) h
  | ignored => exact hm
  | refused => exact hm.halts hm.alive.goingAway [] (by simp) rfl
  | trapped hget hmove hclosed hzero =>
    exact ⟨m.conn, hm.path, .received e hrecv hget hmove hclosed hzero⟩

theorem recvHeaderFrame_leads (hm : Continues R c m)
    (hR : ∀ stream, m.streams.streamMap.lookup frame.id = some stream →
      stream.state.isClosed = false → m.Unheard env frame.id → R.resets .byClient frame.id) :
    Comes R c (fun m' r => Leads R c m' (liftPoll r)) (m.recvHeaderFrame env frame) := by
  rw [recvHeaderFrame]
  exact .bind (deliver_leads env (.recvHeaders frame.flags.isEndStream) hm rfl hR) fun _ _ h => h

theorem checkWindowUpdate_plain {w w' : RecvWindow}
    (h : w.checkWindowUpdate id = .ok (w', some frame)) : frame.isPlain = true := by
  rw [RecvWindow.checkWindowUpdate] at h
  obtain ⟨size, -, h⟩ := of_bind_ok h
  cases size with
  | none => cases h
  | some size =>
    obtain ⟨w₁, -, h⟩ := of_bind_ok h
    cases h
    rfl

theorem receives_plain {w w' : RecvWindow} (h : w.Receives id size w' (some frame)) :
    frame.isPlain = true := by
  cases h with
  | checked _ hcheck => exact checkWindowUpdate_plain hcheck

theorem releaseConnRecvWindow_plain {update : Option Frame}
    (h : s.releaseConnRecvWindow size = .ok (s', .ok update)) :
    ∀ frame, update = some frame → frame.isPlain = true := by
  rintro frame rfl
  cases h ▸ releaseConnRecvWindow_cases s size with
  | released _ hrecv => exact receives_plain hrecv

theorem releaseStreamRecvWindow_plain {update : Option Frame}
    (h : s.releaseStreamRecvWindow id size = .ok (s', .ok update)) :
    ∀ frame, update = some frame → frame.isPlain = true := by
  rintro frame rfl
  cases h ▸ releaseStreamRecvWindow_cases s id size with
  | released _ _ hrecv => exact receives_plain hrecv

theorem sendUpdate_cases {update : Option Frame} {r : Except DispatchErrorKind Unit}
    (h : m.sendUpdate env (.ok update) = (m', r)) :
    (r = .ok () ∧ m' = { m with log := sentUpdate update ++ m.log }) ∨
      (r = .error .channelClosed ∧ m' = m) := by
  cases update with
  | none =>
    cases h
    exact .inl ⟨rfl, rfl⟩
  | some frame =>
    rw [sendUpdate, sendInput] at h
    split at h
    · cases h
      exact .inl ⟨rfl, rfl⟩
    · cases h
      exact .inr ⟨rfl, rfl⟩

theorem forall_sentUpdate {P : Entry → Prop} {update : Option Frame}
    (h : ∀ frame, update = some frame → P (.sent frame)) : ∀ entry ∈ sentUpdate update, P entry := by
  intro entry hent
  rw [sentUpdate, Option.mem_toList, Option.map_eq_some_iff] at hent
  obtain ⟨frame, rfl, rfl⟩ := hent
  exact h frame rfl

theorem sentUpdate_plain {update : Option Frame}
    (h : ∀ frame, update = some frame → frame.isPlain = true) :
    ∀ entry ∈ sentUpdate update, entry.isPlain = true :=
  forall_sentUpdate h

def Overrun (stream : Stream) (octets : Bytes) : Prop :=
  stream.recvWindow.notificationAvailable < UInt32.ofNat octets.length

theorem releaseStreamRecvWindow_error (h : s.releaseStreamRecvWindow id size = .ok (s', .error e)) :
    s' = s ∧ e = .streamError id .flowControlError ∧ ∃ stream,
      s.streamMap.lookup id = some stream ∧ stream.recvWindow.notificationAvailable < size := by
  cases h ▸ releaseStreamRecvWindow_cases s id size with
  | @refused stream hget hlt => exact ⟨rfl, rfl, stream, hget, hlt⟩

theorem releaseConnRecvWindow_error (h : s.releaseConnRecvWindow size = .ok (s', .error e)) :
    e = .connectionError .flowControlError := by
  cases h ▸ releaseConnRecvWindow_cases s size
  rfl

def Charged (R : Rules) (m m' : ConnManager) (id : StreamId) : Except DispatchErrorKind Unit → Prop
  | .ok () => (m.streams.Charges id → Continues R m.conn m') ∧ Halts R m.conn m'
  | .error e => Leads R m.conn m' (.ready (.error e))

theorem updateWindow_leads (halive : m.Alive R) (hpay : frame.payload = .data octets)
    (hlen : octets.length < 2 ^ 24)
    (hR : ∀ stream, m.streams.streamMap.lookup frame.id = some stream →
      stream.state.isClosed = false → Overrun stream octets → R.resets .byClient frame.id) :
    Comes R m.conn (fun m' r => Charged R m m' frame.id r ∧ m'.senders = m.senders ∧
        RecvOnly m.streams m'.streams)
      ({ m with log := .received frame :: m.log }.updateWindow env frame.id
        (UInt32.ofNat octets.length)) := by
  have hhalts : ∀ {m' : ConnManager} (entries : List Entry), m'.goingAway = none →
      (∀ entry ∈ entries, entry.isPlain = true) →
      m'.log = entries ++ .received frame :: m.log → Halts R m.conn m' := by
    intro m' entries hgoing hplain hlog
    refine ⟨hgoing, m.conn, entries ++ [.received frame], .refl, ?_, by rw [hlog]; simp [conn]⟩
    intro entry hent
    rcases mem_append.mp hent with hent | hent
    · exact hplain entry hent
    · rw [mem_singleton.mp hent]
      rfl
  rw [updateWindow]
  refine .of_bind (fun panic hpanic => ⟨m.conn, .refl, .connData hlen hpanic⟩) ?_
  rintro ⟨s₁, e | update⟩ hconn
  · rw [releaseConnRecvWindow_error hconn]
    exact ⟨hhalts [] halive.goingAway (by simp) rfl, rfl, releaseConnRecvWindow_recvOnly hconn⟩
  · have hreleased := releaseConnRecvWindow_plain hconn
    have honly := releaseConnRecvWindow_recvOnly hconn
    dsimp only
    rcases hsend : ({ m with streams := s₁, log := .received frame :: m.log } :
      ConnManager).sendUpdate env (.ok update) with ⟨m₁, r₁⟩
    obtain ⟨rfl, rfl⟩ | ⟨rfl, rfl⟩ := sendUpdate_cases hsend
    · refine .of_bind (fun panic hpanic => ⟨m.conn, .refl, .streamData hlen hconn hpanic⟩) ?_
      rintro ⟨s', e | update'⟩ hstr
      · obtain ⟨rfl, rfl, stream, hget, hsize⟩ := releaseStreamRecvWindow_error hstr
        refine ⟨⟨⟨⟨halive.goingAway, halive.state, halive.settings⟩,
          .single (.dataRefused hpay hlen hconn hstr)⟩, ?_⟩, rfl, honly⟩
        intro stream' hget' hopen
        cases hget.symm.trans hget'
        rw [releaseConnRecvWindow_streamMap hconn] at hget
        exact hR stream hget hopen hsize
      · have hreleased' := releaseStreamRecvWindow_plain hstr
        change _ ∧ _
        rcases hsend' : ({ m with
          streams := s', log := sentUpdate update ++ .received frame :: m.log } :
          ConnManager).sendUpdate env (.ok update') with ⟨m₂, r₂⟩
        obtain ⟨rfl, rfl⟩ | ⟨rfl, rfl⟩ := sendUpdate_cases hsend'
        · refine ⟨⟨fun hcharges => ⟨⟨halive.goingAway, halive.state, halive.settings⟩,
            .single (.dataAccepted hpay hlen hcharges hconn hstr)⟩, ?_⟩, rfl,
            honly.trans (releaseStreamRecvWindow_recvOnly hstr)⟩
          refine hhalts (sentUpdate update' ++ sentUpdate update) halive.goingAway
            (fun entry hent => ?_) (by simp)
          rcases mem_append.mp hent with hent | hent
          · exact sentUpdate_plain hreleased' entry hent
          · exact sentUpdate_plain hreleased entry hent
        · exact ⟨hhalts _ halive.goingAway (sentUpdate_plain hreleased) rfl, rfl,
            honly.trans (releaseStreamRecvWindow_recvOnly hstr)⟩
    · exact ⟨hhalts [] halive.goingAway (by simp) rfl, rfl, honly⟩

theorem recvData_of_not_charges {s₁ : Streams} {eos : Bool} (honly : RecvOnly s s₁)
    (hcharges : ¬ s.Charges id) :
    s₁.recvData id eos = .ok (s₁, .err (.connectionError .protocolError)) := by
  simp only [Streams.Charges, not_forall] at hcharges
  obtain ⟨stream, hget, hopen, hle, hactive⟩ := hcharges
  obtain ⟨stream₁, hget₁, w, rfl⟩ := honly.each.before hget
  have hmax : s₁.maxRecvId = s.maxRecvId := by rw [honly.rest]
  rw [Streams.recvData, hmax, if_neg (UInt32.not_lt.mpr hle)]
  simp only [hget₁]
  rcases hst : stream.state with _ | ⟨_, _ | _⟩ | _ | ⟨_ | _⟩ | _ | _ <;>
    simp_all [Stream.isInitOrActiveFlowControl, H2StreamState.isClosed]

theorem recvDataFrame_leads (halive : m.Alive R) (hpay : frame.payload = .data octets)
    (hlen : octets.length < 2 ^ 24)
    (hR : ∀ stream, m.streams.streamMap.lookup frame.id = some stream →
      stream.state.isClosed = false → Overrun stream octets ∨ m.Unheard env frame.id →
      R.resets .byClient frame.id) :
    Comes R m.conn (Leads R m.conn)
      ({ m with log := .received frame :: m.log }.recvDataFrame env frame octets) := by
  rw [recvDataFrame]
  refine .bind (updateWindow_leads halive hpay hlen
    fun stream hget hopen h => hR stream hget hopen (.inl h)) ?_
  rintro ⟨m₁, e | u⟩ - ⟨hcharged, hsenders, honly⟩
  · exact hcharged
  · obtain ⟨hcont, hhalts⟩ := hcharged
    dsimp only at hcont hhalts hsenders honly ⊢
    by_cases hcharges : m.streams.Charges frame.id
    case neg =>
      rw [recvData_of_not_charges honly hcharges]
      exact ⟨hhalts.goingAway, hhalts.path⟩
    refine .bind (deliver_leads env (.recvData frame.flags.isEndStream) (hcont hcharges) rfl
      ?_) fun _ _ h => h
    intro stream hget hopen hunheard
    obtain ⟨stream₀, hget₀, w, rfl⟩ := honly.each.after hget
    rw [Unheard, hsenders] at hunheard
    exact hR stream₀ hget₀ hopen (.inr hunheard)

theorem recvWindowFrame_leads {increment : UInt32} (halive : m.Alive R)
    (hpay : frame.payload = .windowUpdate increment) (hbound : increment ≤ maxFlowControlWindow)
    : let m₁ : ConnManager := { m with log := .received frame :: m.log }
    Leads R m.conn (m₁.recvWindowFrame frame.id increment).1
      (.ready (m₁.recvWindowFrame frame.id increment).2) := by
  have hhalts : ∀ streams, Halts R m.conn { m with streams, log := .received frame :: m.log } :=
    fun streams =>
      ⟨halive.goingAway, m.conn, [.received frame], .refl, by simp [Entry.isPlain], rfl⟩
  have hcont : ∀ streams, Action R m.conn ⟨streams, .idle, .received frame :: m.log, m.goAwayErrorCode.isSome⟩ →
      Continues R m.conn { m with streams, log := .received frame :: m.log } :=
    fun streams haction => ⟨⟨halive.goingAway, halive.state, halive.settings⟩, .single haction⟩
  dsimp only
  rw [recvWindowFrame]
  split
  · rename_i hid
    dsimp only [increaseConnSendWindow]
    cases hinc : m.streams.flowControl.increaseSendSize increment with
    | error e =>
      have he : e = .connectionError .flowControlError := by
        rw [FlowControl.increaseSendSize] at hinc
        split at hinc
        · rename_i hsize
          cases hinc
          exact increaseSize_error hsize
        · cases hinc
      subst he
      exact hhalts m.streams
    | ok flowControl => exact hcont _ (.connUpdate hpay hid hbound hinc)
  · rename_i hid
    rcases hreassign : m.streams.reassignStreamSendWindow frame.id increment with ⟨streams, r⟩
    cases r with
    | error e =>
      have he : e = .connectionError .flowControlError := by
        simp only [reassignStreamSendWindow] at hreassign
        split at hreassign
        · cases hreassign
        · split at hreassign
          · rename_i hsize
            cases hreassign
            exact increaseSize_error hsize
          · cases hreassign
      subst he
      exact hhalts streams
    | ok u => exact hcont streams (.streamUpdate hpay hid hbound hreassign)

/-- The resets that a frame of the server can lead to are allowed. -/
structure PermitsFrame (R : Rules) (m : ConnManager) (env : Environment) (frame : Frame) : Prop where
  reset : ∀ code, frame.payload = .rstStream code → ∀ stream,
    m.streams.streamMap.lookup frame.id = some stream → stream.state.isClosed = false →
    R.resets .byServer frame.id
  goAway : ∀ goaway, frame.payload = .goaway goaway → R.goAway goaway.lastStreamId m.streams
  headers : ∀ parts, frame.payload = .headers parts → ∀ stream,
    m.streams.streamMap.lookup frame.id = some stream → stream.state.isClosed = false →
    m.Unheard env frame.id → R.resets .byClient frame.id
  data : ∀ octets, frame.payload = .data octets → ∀ stream,
    m.streams.streamMap.lookup frame.id = some stream → stream.state.isClosed = false →
    Overrun stream octets ∨ m.Unheard env frame.id → R.resets .byClient frame.id

theorem pollRecvFrame_leads (received : ReceivedFrame) (halive : m.Alive R)
    (hperm : PermitsFrame R m env received.frame) :
    Comes R m.conn (Leads R m.conn)
      ({ m with log := .received received.frame :: m.log }.pollRecvFrame env received.frame) := by
  obtain ⟨frame, hincrement, hinitial, hdata⟩ := received
  have hstart : frame.isDeferred = true →
      Continues R m.conn { m with log := .received frame :: m.log } := fun hdeferred =>
    ⟨⟨halive.goingAway, halive.state, halive.settings⟩, .single (.received hdeferred)⟩
  rw [pollRecvFrame]
  cases hpay : frame.payload with
  | settings settings =>
    exact .bind (recvSettingsFrame_leads halive hpay (hinitial settings hpay)) fun _ _ h => h
  | ping ping =>
    exact recvPingFrame_leads (hstart (by simp [Frame.isDeferred, hpay])) env frame ping
  | pushPromise promise =>
    exact (hstart (by simp [Frame.isDeferred, hpay])).halts halive.goingAway [] (by simp) rfl
  | goaway goaway =>
    exact .bind (recvGoAwayFrame_leads (hstart (by simp [Frame.isDeferred, hpay]))
      (hperm.goAway goaway hpay)) fun _ _ h => h
  | rstStream code =>
    exact .bind (recvResetFrame_leads halive hpay (hperm.reset code hpay)) fun _ _ h => h
  | headers parts =>
    exact .bind (recvHeaderFrame_leads (hstart (by simp [Frame.isDeferred, hpay]))
      (hperm.headers parts hpay)) fun _ _ h => h
  | data data => exact recvDataFrame_leads halive hpay (hdata data hpay) (hperm.data data hpay)
  | windowUpdate increment => exact recvWindowFrame_leads halive hpay (hincrement increment hpay)
  | priority priority => exact hstart (by simp [Frame.isDeferred, hpay])

end ConnManager

end YlongHttp
