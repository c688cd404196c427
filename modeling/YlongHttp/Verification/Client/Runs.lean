import YlongHttp.Verification.Client.Turns

/-! # Runs of the manager -/

namespace YlongHttp

open Library

variable {c c' : Conn}

/-! ## Stored HEADERS -/

def Streams.Stored (s : Streams) : Prop :=
  ∀ id stream header, s.streamMap.lookup id = some stream → stream.header = some header →
    header.id = id ∧ ∃ parts, header.payload = .headers parts

def Streams.KeepsOpen (s s' : Streams) : Prop :=
  ∀ id stream, s'.streamMap.lookup id = some stream → stream.state.isClosed = false →
    s.streamMap.lookup id = some stream

theorem Streams.KeepsOpen.refl (s : Streams) : s.KeepsOpen s := fun _ _ h _ => h

variable {id : StreamId} {s : Streams} {stream : Stream}

theorem Streams.KeepsOpen.ended {reason : CloseReason}
    (hget : s.streamMap.lookup id = some stream) :
    s.KeepsOpen (s.ended id stream reason) := by
  intro j stream' hget' hopen
  change (s.setStream id _).streamMap.lookup j = _ at hget'
  by_cases hj : j = id
  · subst hj
    obtain rfl := Streams.eq_of_lookup_setStream hget hget'
    cases hopen
  · rwa [Streams.lookup_setStream_of_ne _ _ _ hj] at hget'

variable {R : Rules}

namespace ConnManager

variable {s : Streams} {m' : ConnManager} {env : Environment}

/-! ## Errors -/

variable {id key : StreamId} {s' : Streams} {m : ConnManager} {stream : Stream}
  {keys : List StreamId}

/-- What `send_local_reset` comes to. -/
inductive LocalReset (s : Streams) (id : StreamId) :
    Except Panic (Streams × StreamEndState) → Prop
  | unknown : s.streamMap.lookup id = none →
      LocalReset s id (.ok (s, .err (.connectionError .protocolError)))
  | closed {stream : Stream} : s.streamMap.lookup id = some stream →
      stream.state.isClosed = true → LocalReset s id (.ok (s, .ignore))
  | late {stream : Stream} : s.streamMap.lookup id = some stream →
      stream.state = .closed .endStream →
      LocalReset s id (.ok (s.setStream id { stream with state := .closed .localRst }, .ignore))
  | ended {stream : Stream} : s.streamMap.lookup id = some stream →
      stream.state.isClosed = false → 0 < s.currentConcurrentStreams →
      LocalReset s id (.ok (s.ended id stream .localRst, .ok))
  | trapped {stream : Stream} : s.streamMap.lookup id = some stream →
      stream.state.isClosed = false → s.currentConcurrentStreams = 0 →
      LocalReset s id (.error .concurrency)

theorem sendLocalReset_cases (s : Streams) (id : StreamId) :
    LocalReset s id (s.sendLocalReset id) := by
  simp only [Streams.sendLocalReset]
  split
  · exact .unknown ‹_›
  · rename_i stream hget
    split
    · exact .late hget ‹_›
    · rename_i hst
      exact .closed hget (by rw [hst]; rfl)
    · rename_i hne hopen
      have hclosed : stream.state.isClosed = false := by
        cases hst : stream.state <;> simp_all [H2StreamState.isClosed]
      rw [Streams.decreaseCurrentConcurrency]
      split
      · exact .trapped hget hclosed ‹_›
      · exact .ended hget hclosed (Nat.pos_of_ne_zero ‹_›)

theorem Continues.stops (h : Continues R c m) (hlog : m'.log = m.log) :
    Stops R c m' :=
  ⟨⟨m.streams, .over, m.log, m.goAwayErrorCode.isSome⟩,
    h.path.tail (@Action.stopped _ _ _ _ _ [] (by simp)), rfl, hlog.symm⟩

theorem manageStreamError_settles {code : ErrorCode} (hm : Continues R c m)
    (hR : ∀ stream, m.streams.streamMap.lookup id = some stream → stream.state.isClosed = false →
      R.resets .byClient id) : Comes R c (Settles R c) (m.manageStreamError env id code) := by
  rw [manageStreamError]
  generalize hreset : m.streams.sendLocalReset id = answer
  cases hreset ▸ sendLocalReset_cases m.streams id with
  | unknown => exact hm.stops rfl
  | closed => exact .inl hm
  | late hget hst =>
    exact .inl ⟨⟨hm.alive.goingAway, hm.alive.state, hm.alive.settings⟩,
      hm.path.tail (.localResetLate hget hst)⟩
  | trapped hget hopen hzero =>
    exact ⟨m.conn, hm.path, .reset .byClient (hR _ hget hopen) hget hopen hzero⟩
  | @ended stream hget hopen hcnt =>
    cases hinput : env.inputOpen with
    | false =>
      simp only [sendInput, hinput]
      exact hm.stops rfl
    | true =>
      simp only [sendInput, hinput, if_true, bind, Except.bind]
      have hm₁ : Continues R c { m with
          streams := m.streams.ended id stream .localRst
          log := .sent (rstStream id code) :: m.log } :=
        ⟨⟨hm.alive.goingAway, hm.alive.state, hm.alive.settings⟩,
          hm.path.tail (.localReset true (hR stream hget hopen) hget hopen hcnt)⟩
      have hquiet := hm₁.quiet (sendMessageToStream_quiet _ env id
        (.outputExit (.h2 (.streamError id code))))
      split <;> rename_i hmsg <;> rw [hmsg] at hquiet
      · exact .inl hquiet
      · exact .inl ⟨⟨hquiet.alive.goingAway, .inr ⟨rfl, rfl⟩, hquiet.alive.settings⟩, hquiet.path⟩

theorem getAllUnclosedStreams_closed
    (h : s.getAllUnclosedStreams.1.streamMap.lookup id = some stream) :
    stream.state.isClosed = true := by
  simp only [Streams.getAllUnclosedStreams, lookup_mapVal] at h
  obtain ⟨stream₀, -, rfl⟩ := Option.map_eq_some_iff.mp h
  split
  · assumption
  · rfl

theorem exitWith_settles (env : Environment) (e : DispatchErrorKind)
    (hm : ∀ m' : ConnManager, m'.log = m.log → Stops R c m') :
    Settles R c (m.exitWith env e).1 (m.exitWith env e).2 := by
  have hquiet := sendMessages_quiet env (.outputExit e)
    (env.hash.order m.streams.clearStreamsStates.getAllUnclosedStreams.2)
    { m with streams := m.streams.clearStreamsStates.getAllUnclosedStreams.1 }
  rw [exitWith, exitWithError]
  rcases hsend : sendMessages env (.outputExit e)
    (env.hash.order m.streams.clearStreamsStates.getAllUnclosedStreams.2)
    { m with streams := m.streams.clearStreamsStates.getAllUnclosedStreams.1 } with ⟨m₁, blocked⟩
  rw [hsend] at hquiet
  dsimp only
  rw [hsend]
  have hstops : ∀ m' : ConnManager, m'.log = m₁.log → Stops R c m' := fun m' hlog =>
    hm m' (hlog.trans hquiet.log)
  cases blocked with
  | false => exact hstops m₁ rfl
  | true =>
    refine .inr ⟨⟨fun id stream hget => ?_, e, .inr ⟨rfl, rfl⟩⟩, hstops _ rfl⟩
    rw [hquiet.streams] at hget
    exact getAllUnclosedStreams_closed hget

theorem exitWith_same (m : ConnManager) (env : Environment) (e : DispatchErrorKind) :
    (m.exitWith env e).1.goingAway = m.goingAway ∧ (m.exitWith env e).1.log = m.log := by
  have hquiet := sendMessages_quiet env (.outputExit e)
    (env.hash.order m.streams.clearStreamsStates.getAllUnclosedStreams.2)
    { m with streams := m.streams.clearStreamsStates.getAllUnclosedStreams.1 }
  rw [exitWith, exitWithError]
  dsimp only
  split <;> rename_i hsend <;> rw [hsend] at hquiet <;> exact ⟨hquiet.goingAway, hquiet.log⟩

theorem manageConnError_eq (env : Environment) (code : ErrorCode) (hgoing : m.goingAway = none) :
    let goaway : Goaway := ⟨code.intoCode, m.streams.latestRemoteId, []⟩
    m.manageConnError env code =
      if env.inputOpen then
        { m with goingAway := some goaway, log := .sent (goawayFrame goaway) :: m.log }.exitWith env
          (.h2 (.connectionError code))
      else ({ m with goingAway := some goaway }, .ready (.error .channelClosed)) := by
  simp only [manageConnError, sendInput, hgoing]
  cases env.inputOpen <;> rfl

theorem manageConnError_goingAway (env : Environment) (code : ErrorCode)
    (hgoing : m.goingAway = none) :
    (m.manageConnError env code).1.goingAway =
      some ⟨code.intoCode, m.streams.latestRemoteId, []⟩ := by
  rw [manageConnError_eq env code hgoing]
  split
  · exact (exitWith_same _ env _).1
  · rfl

theorem manageConnError_settles (env : Environment) (code : ErrorCode) (hm : Halts R c m) :
    Settles R c (m.manageConnError env code).1 (m.manageConnError env code).2 := by
  simp only [manageConnError, hm.goingAway, Bool.false_eq_true, if_false, sendInput]
  split
  · rename_i hsend
    split at hsend <;> cases hsend
    exact hm.stops [] (by simp) rfl
  · rename_i m₁ hsend
    split at hsend <;> cases hsend
    refine exitWith_settles env _ fun m' hlog => ?_
    exact hm.stops [.sent (goawayFrame _)] (by simp [Entry.isPlain, Frame.isPlain, goawayFrame])
      hlog

theorem manageRespError_settles {kind : DispatchErrorKind}
    (hm : Leads R c m (.ready (.error kind))) :
    Comes R c (Settles R c) (m.manageRespError env kind) := by
  have hexit : ∀ e, Halts R c m → Comes R c (Settles R c) (.ok (m.exitWith env e)) :=
    fun e hhalts => exitWith_settles env e fun m' hlog => hhalts.stops [] (by simp) hlog
  match kind, hm with
  | .h2 (.streamError id code), hm => exact manageStreamError_settles hm.1 hm.2
  | .h2 (.connectionError code), hm => exact manageConnError_settles env code hm
  | .io, hm | .channelClosed, hm | .disconnect, hm => exact hexit _ hm

theorem pollRecvMessage_settles (received : ReceivedFrame) (halive : m.Alive R)
    (hperm : PermitsFrame R m env received.frame) :
    Comes R m.conn (Settles R m.conn)
      ({ m with log := .received received.frame :: m.log }.pollRecvMessage env received.frame) := by
  rw [pollRecvMessage]
  refine .bind (pollRecvFrame_leads received halive hperm) ?_
  rintro ⟨m₁, (kind | _) | _⟩ - hleads
  · exact manageRespError_settles hleads
  · exact .inl hleads
  · exact .inl ⟨⟨hleads.alive.goingAway, .inr ⟨rfl, rfl⟩, hleads.alive.settings⟩, hleads.path⟩

/-! ## Blocked messages -/

theorem dropBlocked_continues (hm : Continues R c m)
    (hR : ∀ stream, m.streams.streamMap.lookup key = some stream → stream.state.isClosed = false →
      R.resets .byClient key) :
    Except.Holds (Fails R c) (fun m' => Continues R c m' ∧ m'.state = m.state ∧
      m'.nextState = m.nextState ∧ m.streams.KeepsOpen m'.streams) (m.dropBlocked env key) := by
  have hm₀ : Continues R c { m with senders := m.senders.erase key } :=
    ⟨⟨hm.alive.goingAway, hm.alive.state, hm.alive.settings⟩, hm.path⟩
  simp only [dropBlocked]
  split
  · exact ⟨hm₀, rfl, rfl, .refl _⟩
  · rename_i state hst
    split
    · exact ⟨hm₀, rfl, rfl, .refl _⟩
    · rename_i hclosed
      generalize hreset : m.streams.sendLocalReset key = answer
      cases hreset ▸ sendLocalReset_cases m.streams key with
      | unknown | closed => exact ⟨hm₀, rfl, rfl, .refl _⟩
      | late hget hend =>
        rw [Streams.streamState, hget, Option.map_some, hend] at hst
        cases hst
        exact absurd rfl hclosed
      | trapped hget hopen hzero =>
        exact ⟨m.conn, hm.path, .reset .byClient (hR _ hget hopen) hget hopen hzero⟩
      | ended hget hopen hcnt =>
        cases hinput : env.inputOpen with
        | true =>
          simp only [sendInput, hinput, if_true]
          exact ⟨⟨⟨hm.alive.goingAway, hm.alive.state, hm.alive.settings⟩,
            hm.path.tail (.localReset true (hR _ hget hopen) hget hopen hcnt)⟩, rfl, rfl,
            .ended hget⟩
        | false =>
          simp only [sendInput, hinput]
          exact ⟨⟨⟨hm.alive.goingAway, hm.alive.state, hm.alive.settings⟩,
            hm.path.tail (@Action.localReset _ _ _ _ _ _ .noError false (hR _ hget hopen)
              hget hopen hcnt)⟩, rfl, rfl, .ended hget⟩

/-- The program permits the reset of every open stream of `keys` whose caller is gone. -/
def ResetsGone (R : Rules) (env : Environment) (keys : List StreamId) (s : Streams) : Prop :=
  ∀ key ∈ keys, env.channel key = .closed → ∀ stream, s.streamMap.lookup key = some stream →
    stream.state.isClosed = false → R.resets .byClient key

theorem ResetsGone.tail (hR : ResetsGone R env (key :: keys) s) (hkeeps : s.KeepsOpen s') :
    ResetsGone R env keys s' :=
  fun key' hkey hclosed stream hget hopen =>
    hR key' (.tail key hkey) hclosed stream (hkeeps key' stream hget hopen) hopen

theorem Continues.delivered {c : Conn} {m : ConnManager} (hm : Continues R c m)
    (currMessage : AList fun _ : StreamId => RespMessage)
    (responses : List (StreamId × RespMessage)) :
    Continues R c { m with currMessage, responses } :=
  ⟨⟨hm.alive.goingAway, hm.alive.state, hm.alive.settings⟩, hm.path⟩

theorem pollBlocked_continues (hm : Continues R c m) (hR : ResetsGone R env keys m.streams) :
    Comes R c (fun m' _ => Continues R c m' ∧ m'.state = m.state ∧ m'.nextState = m.nextState)
      (pollBlocked env keys m) := by
  induction keys generalizing m with
  | nil => exact ⟨hm, rfl, rfl⟩
  | cons key keys ih =>
    rw [pollBlocked]
    split
    · exact ih hm (hR.tail (.refl _))
    · rename_i message _
      split
      · exact ih (hm.delivered (m.currMessage.erase key) ((key, message) :: m.responses))
          (hR.tail (.refl _))
      · rename_i hclosed
        refine .bind (dropBlocked_continues
          (hm.delivered (m.currMessage.erase key) m.responses) (hR key (.head _) hclosed)) ?_
        rintro m₁ - ⟨hm₁, hst, hnext, hkeeps⟩
        have hrest := ih hm₁ (hR.tail hkeeps)
        rwa [hst, hnext] at hrest
      · exact .bind (ih hm (hR.tail (.refl _))) fun _ _ h => h

theorem pollBlockedFrames_settles (halive : m.Alive R) (hsend : m.state = .send)
    (hR : ∀ key ∈ m.currMessage, env.channel key = .closed → ∀ stream,
      m.streams.streamMap.lookup key = some stream → stream.state.isClosed = false →
      R.resets .byClient key) : Comes R m.conn (Settles R m.conn) (m.pollBlockedFrames env) := by
  have hnext : m.nextState = .receive := by
    rcases halive.state with hreceive | ⟨-, hnext⟩
    · rw [hsend] at hreceive
      cases hreceive
    · exact hnext
  rw [pollBlockedFrames]
  refine .bind (pollBlocked_continues ⟨halive, .refl⟩
    (fun key hkey => hR key ((env.hash.perm _).mem_iff.mp hkey))) ?_
  rintro ⟨m₁, _ | _⟩ - ⟨hm₁, hst₁, hnext₁⟩
  · exact .inl ⟨⟨hm₁.alive.goingAway, .inl (hnext₁.trans hnext), hm₁.alive.settings⟩, hm₁.path⟩
  · exact .inl hm₁

/-! ## Requests -/

/-- The connection goes on, and the server is not going away. -/
structure Serves (R : Rules) (c : Conn) (m : ConnManager) : Prop extends Continues R c m where
  serving : m.goAwayErrorCode = none

theorem Serves.path_serving (h : Serves R c m) :
    Path R c ⟨m.streams, .idle, m.log, false⟩ := by
  have hpath := h.path
  rwa [conn, h.serving] at hpath

theorem Serves.of_path (halive : m.Alive R) (hserving : m.goAwayErrorCode = none)
    (hpath : Path R c ⟨m.streams, .idle, m.log, false⟩) :
    Serves R c m := by
  refine ⟨⟨halive, ?_⟩, hserving⟩
  rw [conn, hserving]
  exact hpath

theorem Serves.quiet {c : Conn} {m m' : ConnManager} (h : Serves R c m) (hquiet : Quiet m m') :
    Serves R c m' :=
  ⟨h.toContinues.quiet hquiet, hquiet.goAwayErrorCode.trans h.serving⟩

theorem pollRecvRequest_serves (closed : Bool) (requests : List RequestWrapper)
    (hm : Serves R c m) :
    Serves R c (pollRecvRequest closed requests m).1 := by
  induction requests generalizing m with
  | nil => exact hm
  | cons request requests ih =>
    rw [pollRecvRequest, Streams.generateId]
    by_cases hid : m.streams.nextStreamId < defaultMaxStreamId
    · rw [if_pos hid]
      exact ih (.of_path ⟨hm.alive.goingAway, hm.alive.state, hm.alive.settings⟩ hm.serving
        (hm.path_serving.tail (.opened request hid)))
    · rw [if_neg hid]
      exact hm

/-- The manager works at the frames of `id`. -/
structure Works (R : Rules) (c : Conn) (m : ConnManager) (id : StreamId) : Prop where
  alive : m.Alive R
  serving : m.goAwayErrorCode = none
  path : Path R c ⟨m.streams, .input id, m.log, false⟩

def Puts (R : Rules) (c : Conn) (m : ConnManager) : Except DispatchErrorKind Unit → Prop
  | .ok () => Serves R c m
  | .error _ => Stops R c m

theorem Works.stops (h : Works R c m id) (hlog : m'.log = m.log) : Stops R c m' :=
  ⟨⟨m.streams, .over, m.log, false⟩, h.path.tail (@Action.stopped _ _ _ _ _ [] (by simp)), rfl,
    hlog.symm⟩

theorem dealPollBodyError_puts {len : ℕ} {data : BodyDataRef} (hm : Works R c m id)
    (hget : m.streams.streamMap.lookup id = some stream)
    (hhdr : stream.header = none) (hopen : stream.state.isClosed = false)
    (hread : stream.data.pollRead len = (data, .failed)) :
    Comes R c (Puts R c) ({ m with
      streams := m.streams.setStream id { stream with data } }.dealPollBodyError env
        (.streamError id .intervalError)) := by
  have hset : (m.streams.setStream id { stream with data }).streamMap.lookup id =
      some { stream with data } := by
    simp [hget]
  simp only [dealPollBodyError, manageStreamError]
  generalize hreset : (m.streams.setStream id { stream with data }).sendLocalReset id = answer
  cases hreset ▸ sendLocalReset_cases (m.streams.setStream id { stream with data }) id with
  | unknown hnone =>
    rw [hset] at hnone
    cases hnone
  | closed hget' hclosed =>
    cases hset.symm.trans hget'
    rw [hopen] at hclosed
    cases hclosed
  | late hget' hend =>
    cases hset.symm.trans hget'
    rw [show stream.state = .closed .endStream from hend] at hopen
    cases hopen
  | trapped hget' _ hzero => exact ⟨_, hm.path, .failed hget hopen hzero⟩
  | ended hget' _ hcnt =>
    cases hset.symm.trans hget'
    have hended : (m.streams.setStream id { stream with data }).ended id { stream with data }
        .localRst = m.streams.ended id { stream with data } .localRst := by
      rw [Streams.ended, Streams.setStream_setStream]
      rfl
    cases hinput : env.inputOpen with
    | false =>
      simp only [hended, sendInput, hinput]
      exact hm.stops rfl
    | true =>
      simp only [hended, sendInput, hinput, if_true, bind, Except.bind]
      have hm₂ : Serves R c { m with
          streams := m.streams.ended id { stream with data } .localRst
          log := .sent (rstStream id .intervalError) :: m.log } :=
        .of_path ⟨hm.alive.goingAway, hm.alive.state, hm.alive.settings⟩ hm.serving
          (hm.path.tail (.failed hget hhdr hopen hread hcnt))
      have hquiet := hm₂.quiet (sendMessageToStream_quiet _ env id
        (.outputExit (.h2 (.streamError id .intervalError))))
      rcases hmsg : ConnManager.sendMessageToStream _ env id
        (.outputExit (.h2 (.streamError id .intervalError))) with ⟨m₂, _ | _⟩ <;>
        rw [hmsg] at hquiet
      · exact hquiet
      · exact ⟨⟨⟨hquiet.alive.goingAway, .inr ⟨rfl, rfl⟩, hquiet.alive.settings⟩, hquiet.path⟩,
          hquiet.serving⟩

/-- What `poll_send_frame` comes to with a frame of the kind `e`. -/
inductive SendsFrame (m : ConnManager) (frame : Frame) (e : StreamFrame) :
    Except Panic (ConnManager × Except DispatchErrorKind Unit) → Prop
  | refused {m' : ConnManager} {kind : DispatchErrorKind} : m'.log = m.log →
      SendsFrame m frame e (.ok (m', .error kind))
  | sent {stream : Stream} {state : H2StreamState} :
      m.streams.streamMap.lookup frame.id = some stream → e.move stream.state = some state →
      (state.isClosed = true → 0 < m.streams.currentConcurrentStreams) →
      SendsFrame m frame e (.ok ({ m with
        streams := m.streams.moved frame.id stream state
        log := .sent frame :: m.log }, .ok ()))
  | trapped {stream : Stream} {state : H2StreamState} :
      m.streams.streamMap.lookup frame.id = some stream → e.move stream.state = some state →
      state.isClosed = true → m.streams.currentConcurrentStreams = 0 →
      SendsFrame m frame e (.error .concurrency)

theorem pollSendFrame_cases {frame : Frame} {e : StreamFrame}
    {answer : Except Panic (ConnManager × Except DispatchErrorKind Unit)}
    (hsent : e.isReceived = false) (hcall : sendFrame m.streams frame = e.call frame.id m.streams)
    (h : m.pollSendFrame env frame = answer) : SendsFrame m frame e answer := by
  rw [← h, pollSendFrame, hcall]
  generalize hanswer : e.call frame.id m.streams = answer
  cases hanswer ▸ e.call_cases frame.id m.streams with
  | ignored hreceived =>
    rw [hsent] at hreceived
    cases hreceived
  | refused => exact .refused rfl
  | moved hget hmove hcnt =>
    simp only [sendInput]
    cases env.inputOpen
    · exact .refused rfl
    · exact .sent hget hmove hcnt
  | trapped hget hmove hclosed hzero => exact .trapped hget hmove hclosed hzero

theorem isEndStream_zero : ({ bits := 0 } : FrameFlags).isEndStream = false := by decide

theorem isEndStream_one : ({ bits := 1 } : FrameFlags).isEndStream = true := by decide

theorem sendFrame_data (s : Streams) (id : StreamId) (flags : FrameFlags) (octets : Bytes) :
    sendFrame s { id, flags, payload := .data octets } =
      (StreamFrame.sendData flags.isEndStream).call id s :=
  rfl

theorem inputBody_puts {fuel : ℕ} (hm : Works R c m id)
    (hhdr : ∀ stream, m.streams.streamMap.lookup id = some stream →
      stream.state.isClosed = false → stream.header = none)
    (hfuel : m.streams.flowControl.sendSizeAvailable < fuel) :
    Comes R c (Puts R c) (inputBody env id fuel m) := by
  induction fuel generalizing m with
  | zero => omega
  | succ fuel ih =>
    rw [inputBody]
    obtain ⟨s₁, read, hread, hreading⟩ := pollReadBody_reading m.streams id
    rw [hread]
    cases hreading with
    | unknown hget => exact hm.stops rfl
    | closed hget hclosed =>
      exact .of_path ⟨hm.alive.goingAway, hm.alive.state, hm.alive.settings⟩ hm.serving
        (hm.path.tail (.skipped hget hclosed))
    | parkedStream hget hopen hsize =>
      exact .of_path ⟨hm.alive.goingAway, hm.alive.state, hm.alive.settings⟩ hm.serving
        (hm.path.tail (.parkedStream hget (hhdr _ hget hopen) hsize))
    | parkedConn hget hopen hsize =>
      exact .of_path ⟨hm.alive.goingAway, hm.alive.state, hm.alive.settings⟩ hm.serving
        (hm.path.tail (.parkedConn hget (hhdr _ hget hopen) hsize))
    | @octets stream len data octets sendWindow connWindow hget hopen hpoll hne hlen hlimit
        hstr hconn hwin hconnWindow =>
      have hset : (m.streams.charged id stream data sendWindow connWindow).streamMap.lookup id =
          some { stream with data, sendWindow } := by
        change (m.streams.setStream id _).streamMap.lookup id = _
        simp [hget]
      change Comes R c (Puts R c) (pollSendFrame _ env _ >>= _)
      generalize hsend : pollSendFrame _ env _ = answer
      cases pollSendFrame_cases rfl (by rw [sendFrame_data, isEndStream_zero]) hsend with
      | refused hlog => exact hm.stops hlog
      | trapped hget' hmove hclosed =>
        cases hset.symm.trans hget'
        obtain rfl := StreamFrame.move_sendData_false hmove
        rw [show stream.state.isClosed = false from hopen] at hclosed
        cases hclosed
      | sent hget' hmove =>
        cases hset.symm.trans hget'
        obtain rfl := StreamFrame.move_sendData_false hmove
        have hmoved := Streams.moved_eq_self _ id hset hopen
        dsimp only at hmoved ⊢
        rw [hmoved]
        have hm₁ : Works R c { m with
            streams := m.streams.charged id stream data sendWindow connWindow
            log := .sent { id, flags := { bits := 0 }, payload := .data octets } :: m.log } id :=
          ⟨⟨hm.alive.goingAway, hm.alive.state, hm.alive.settings⟩, hm.serving,
            hm.path.tail (.data hget hmove hpoll hne hlen hlimit hstr hconn hwin hconnWindow)⟩
        refine ih hm₁ (fun stream' hget' _ => ?_) ?_
        · cases hset.symm.trans hget'
          exact hhdr stream hget hopen
        -- The connection window is smaller by what has been sent.
        have hpos : 0 < octets.length := List.length_pos_of_ne_nil hne
        rw [FlowControl.sendSizeAvailable, SendWindow.sizeAvailable_toNat] at hfuel ⊢
        change connWindow.size.val.toNat < fuel
        omega
    | @finish stream data len hget hopen hpos hstr hconn hpoll =>
      have hset : (m.streams.setStream id { stream with data }).streamMap.lookup id =
          some { stream with data } := by
        simp [hget]
      change Comes R c (Puts R c) (pollSendFrame _ env _)
      generalize hsend : pollSendFrame _ env _ = answer
      cases pollSendFrame_cases rfl (by rw [sendFrame_data, isEndStream_one]) hsend with
      | refused hlog => exact hm.stops hlog
      | trapped hget' hmove hclosed hzero =>
        cases hset.symm.trans hget'
        exact ⟨_, hm.path, .sent (.sendData true) rfl hget hmove hclosed hzero⟩
      | sent hget' hmove hcnt =>
        cases hset.symm.trans hget'
        refine .of_path ⟨hm.alive.goingAway, hm.alive.state, hm.alive.settings⟩ hm.serving ?_
        dsimp only
        rw [Streams.moved_setStream]
        exact hm.path.tail (.finished hget hpos hstr hconn hpoll hmove hcnt)
    | failed hget hopen hpoll => exact dealPollBodyError_puts hm hget (hhdr _ hget hopen) hopen hpoll
    | waiting hget hopen hpoll =>
      exact .of_path ⟨hm.alive.goingAway, hm.alive.state, hm.alive.settings⟩ hm.serving
        (hm.path.tail (.waited hget (hhdr _ hget hopen) hpoll))

theorem inputStreamFrame_puts (hm : Works R c m id) (hstored : m.streams.Stored) :
    Comes R c (Puts R c) (m.inputStreamFrame env id) := by
  rw [inputStreamFrame]
  simp only [Streams.headers]
  cases hget : m.streams.streamMap.lookup id with
  | none => exact hm.stops rfl
  | some stream =>
    by_cases hclosed : stream.state.isClosed = true
    · simp only [hclosed, if_true]
      refine inputBody_puts (m := { m with streams := m.streams }) hm (fun stream' hget' hopen => ?_)
        (by omega)
      cases hget.symm.trans hget'
      rw [hclosed] at hopen
      cases hopen
    · simp only [hclosed]
      cases hhdr : stream.header with
      | none =>
        have hset : m.streams.setStream id { stream with header := none } = m.streams := by
          refine m.streams.setStream_eq_self id ?_
          rw [hget, ← hhdr]
        simp only [hset]
        refine inputBody_puts (m := { m with streams := m.streams }) hm (fun stream' hget' _ => ?_)
          (by omega)
        cases hget.symm.trans hget'
        exact hhdr
      | some header =>
        obtain ⟨hid, parts, hpay⟩ := hstored id stream header hget hhdr
        have hset : (m.streams.setStream id { stream with header := none }).streamMap.lookup id =
            some { stream with header := none } := by
          simp [hget]
        have hcall : ∀ s, sendFrame s header =
            (StreamFrame.sendHeaders header.flags.isEndStream).call header.id s := by
          intro s
          rw [sendFrame, hpay]
          rfl
        change Comes R c (Puts R c) (pollSendFrame _ env _ >>= _)
        generalize hsend : pollSendFrame _ env _ = answer
        cases pollSendFrame_cases rfl (hcall _) hsend with
        | refused hlog => exact hm.stops hlog
        | trapped hget' hmove hend hzero =>
          dsimp only at hget'
          rw [hid] at hget'
          cases hset.symm.trans hget'
          exact ⟨_, hm.path, .sent _ rfl hget hmove hend hzero⟩
        | sent hget' hmove hcnt =>
          dsimp only at hget' hcnt
          rw [hid] at hget'
          cases hset.symm.trans hget'
          have hpath := hm.path.tail (.headers hget hhdr hmove hcnt)
          simp only [hid, Streams.moved_setStream, bind, Except.bind]
          split <;> rename_i heos
          · rw [if_pos heos] at hpath
            exact .of_path ⟨hm.alive.goingAway, hm.alive.state, hm.alive.settings⟩ hm.serving hpath
          · rw [if_neg heos] at hpath
            have hm₁ : Works R c { m with
                streams := m.streams.moved id { stream with header := none } _
                log := .sent header :: m.log } id :=
              ⟨⟨hm.alive.goingAway, hm.alive.state, hm.alive.settings⟩, hm.serving, hpath⟩
            refine inputBody_puts hm₁ (fun stream' hget' _ => ?_) (Nat.lt_succ_self _)
            obtain rfl := Streams.eq_of_lookup_setStream hget hget'
            rfl

theorem consumePendingConcurrency_path {log : List Entry} {ids : List StreamId}
    (h : s.pendingConcurrency = ids) :
    Path R ⟨s, .idle, log, false⟩ ⟨Streams.consumePendingConcurrency ids s, .idle, log, false⟩ := by
  induction ids generalizing s with
  | nil => exact .refl
  | cons id ids ih =>
    rw [Streams.consumePendingConcurrency]
    split
    · exact .refl
    · rename_i hreach
      exact .head (.admitted h (by simpa using hreach)) (ih rfl)

end ConnManager

/-! ## Stored HEADERS stay those of their stream -/

def Streams.KeepsHeaders (s s' : Streams) : Prop :=
  s.Each (fun _ a b => b.header = a.header ∨ b.header = none) s'

theorem Streams.KeepsHeaders.setStream {s : Streams} {id : StreamId} {stream stream' : Stream}
    (hget : s.streamMap.lookup id = some stream)
    (hhdr : stream'.header = stream.header ∨ stream'.header = none) :
    s.KeepsHeaders (s.setStream id stream') := by
  refine (Streams.Each.setStream hget).mono fun j a b hab => ?_
  split at hab
  · obtain ⟨rfl, rfl⟩ := hab
    exact hhdr
  · exact .inl (by rw [hab])

theorem Streams.KeepsHeaders.stored {s' : Streams} (h : s.KeepsHeaders s') (hstored : s.Stored) :
    s'.Stored := by
  intro id stream header hget hhdr
  obtain ⟨stream₀, hget₀, hkeeps⟩ := h.after hget
  rcases hkeeps with hsame | hnone
  · exact hstored id stream₀ header hget₀ (by rw [← hsame, hhdr])
  · rw [hnone] at hhdr
    cases hhdr

theorem Streams.streamMap_accepted (s : Streams) (request : RequestWrapper) :
    (s.accepted request).streamMap = s.streamMap.insert s.nextStreamId (s.fresh request) := by
  rcases s.accepted_cases request with ⟨-, h⟩ | ⟨-, -, h⟩ <;> rw [h]

theorem Streams.lookup_accepted {request : RequestWrapper}
    (h : (s.accepted request).streamMap.lookup id = some stream) :
    id = s.nextStreamId ∧ stream = s.fresh request ∨
      id ≠ s.nextStreamId ∧ s.streamMap.lookup id = some stream := by
  rw [s.streamMap_accepted] at h
  by_cases heq : id = s.nextStreamId
  · rw [heq, AList.lookup_insert] at h
    exact .inl ⟨heq, (Option.some.inj h).symm⟩
  · exact .inr ⟨heq, (AList.lookup_insert_ne heq).symm.trans h⟩

theorem Streams.Stored.accepted (hstored : s.Stored) (request : RequestWrapper) :
    (s.accepted request).Stored := by
  intro id stream header hget hhdr
  rcases Streams.lookup_accepted hget with ⟨rfl, rfl⟩ | ⟨hid, hget⟩
  · cases hhdr
    exact ⟨rfl, request.isHeaders⟩
  · exact hstored id stream header hget hhdr

def Streams.Bounded (s : Streams) : Prop := s.streamSendWindowSize ≤ maxFlowControlWindow

theorem Action.bounded (h : Action R c c') (hbdd : c.streams.Bounded) : c'.streams.Bounded := by
  cases h with
  | @opened s log request _ =>
    rcases s.accepted_cases request with ⟨-, h⟩ | ⟨-, -, h⟩
    · rw [Streams.Bounded, h]
      exact hbdd
    · rw [Streams.Bounded, h]
      exact hbdd
  | settings _ _ hbound hsettings => exact (recvSettings_resized hbound hbdd hsettings).2.1
  | streamUpdate _ _ hbound hreassign =>
    rw [Streams.Bounded, (reassignStreamSendWindow_enlarged hbound hreassign).rest]
    exact hbdd
  | dataAccepted _ _ _ hconn hstr =>
    rw [Streams.Bounded, ((releaseConnRecvWindow_recvOnly hconn).trans
      (releaseStreamRecvWindow_recvOnly hstr)).rest]
    exact hbdd
  | dataRefused _ _ hconn =>
    rw [Streams.Bounded, (releaseConnRecvWindow_recvOnly hconn).rest]
    exact hbdd
  | acknowledged _ hack =>
    rw [Streams.Bounded, (recvAcknowledged_recvOnly hack).rest]
    exact hbdd
  | wentAway _ hunset =>
    rw [Streams.Bounded, (getUnsetStreams_unset hunset).rest]
    exact hbdd
  | _ => exact hbdd

theorem Action.stored (h : Action R c c') (hbdd : c.streams.Bounded)
    (hstored : c.streams.Stored) : c'.streams.Stored := by
  cases h with
  | opened request hid => exact hstored.accepted request
  | headers hget hhdr hmove hcnt =>
    exact Streams.KeepsHeaders.stored (.setStream hget (.inr rfl)) hstored
  | data hget | finished hget | waited hget =>
    exact Streams.KeepsHeaders.stored (.setStream hget (.inl rfl)) hstored
  | failed hget => exact Streams.KeepsHeaders.stored (.setStream hget (.inr rfl)) hstored
  | frameReceived e _ hget =>
    exact Streams.KeepsHeaders.stored (.setStream hget (.inl rfl)) hstored
  | remoteReset _ _ hget | localReset _ _ hget =>
    exact Streams.KeepsHeaders.stored (.setStream hget (.inr rfl)) hstored
  | localResetLate hget => exact Streams.KeepsHeaders.stored (.setStream hget (.inl rfl)) hstored
  | settings _ _ hbound hsettings =>
    refine Streams.KeepsHeaders.stored ?_ hstored
    refine (recvSettings_resized hbound hbdd hsettings).1.each.mono ?_
    rintro id a b ⟨w, rfl, -⟩
    exact .inl rfl
  | streamUpdate _ _ hbound hreassign =>
    refine Streams.KeepsHeaders.stored ?_ hstored
    refine (reassignStreamSendWindow_enlarged hbound hreassign).each.mono fun j a b hab => ?_
    split at hab
    · obtain ⟨w, rfl, -⟩ := hab
      exact .inl rfl
    · exact .inl (by rw [hab])
  | dataAccepted _ _ _ hconn hstr =>
    refine Streams.KeepsHeaders.stored ?_ hstored
    refine ((releaseConnRecvWindow_recvOnly hconn).trans
      (releaseStreamRecvWindow_recvOnly hstr)).each.mono ?_
    rintro id a b ⟨w, rfl⟩
    exact .inl rfl
  | dataRefused _ _ hconn =>
    refine Streams.KeepsHeaders.stored ?_ hstored
    refine (releaseConnRecvWindow_recvOnly hconn).each.mono ?_
    rintro id a b ⟨w, rfl⟩
    exact .inl rfl
  | acknowledged _ hack =>
    refine Streams.KeepsHeaders.stored ?_ hstored
    refine (recvAcknowledged_recvOnly hack).each.mono ?_
    rintro id a b ⟨w, rfl⟩
    exact .inl rfl
  | wentAway _ hunset =>
    refine Streams.KeepsHeaders.stored ?_ hstored
    refine (getUnsetStreams_unset hunset).each.mono fun id a b hab => ?_
    split at hab
    · exact .inr (by rw [hab]; rfl)
    · exact .inl (by rw [hab])
  | admitted | taken | skipped | parkedStream | parkedConn | resetIgnored
  | connUpdate | received | sent | stopped => exact hstored

theorem Path.stored (h : Path R c c') (hbdd : c.streams.Bounded) (hstored : c.streams.Stored) :
    c'.streams.Bounded ∧ c'.streams.Stored := by
  induction h with
  | refl => exact ⟨hbdd, hstored⟩
  | tail _ haction ih => exact ⟨haction.bounded ih.1, haction.stored ih.1 ih.2⟩

namespace ConnManager

theorem inputStreams_puts {m : ConnManager} {env : Environment} {size : ℕ} (hm : Serves R c m)
    (hbdd : c.streams.Bounded) (hstored : c.streams.Stored) :
    Comes R c (Puts R c) (inputStreams env size m) := by
  induction size generalizing m with
  | zero => exact hm
  | succ size ih =>
    simp only [inputStreams, Streams.nextPendingStream]
    cases hpend : m.streams.pendingSend with
    | nil => exact hm
    | cons id ids =>
      have hworks : Works R c { m with
          streams := { m.streams with pendingSend := ids } } id :=
        ⟨⟨hm.alive.goingAway, hm.alive.state, hm.alive.settings⟩, hm.serving,
          hm.path_serving.tail (.taken hpend)⟩
      refine .bind (inputStreamFrame_puts hworks (Path.stored hworks.path hbdd hstored).2) ?_
      rintro ⟨m₁, e | u⟩ - hputs
      · exact hputs
      · exact ih hputs

theorem pollDealWithGoAway_cases {m m' : ConnManager} {env : Environment} {code : UInt32}
    {r : Except DispatchErrorKind Unit} (hm : Continues R c m)
    (h : m.pollDealWithGoAway env code = (m', r)) :
    (r = .ok () ∧ m' = m) ∨ ((∃ e, r = .error e) ∧ Stops R c m') := by
  have hstops : ∀ m' : ConnManager, (m'.log = m.log ∨ ∃ goaway,
      m'.log = .sent (goawayFrame goaway) :: m.log) → Stops R c m' := by
    rintro m' (hlog | ⟨goaway, hlog⟩)
    · exact hm.stops hlog
    · have hhalts : Halts R c m := hm.halts hm.alive.goingAway [] (by simp) rfl
      exact hhalts.stops [.sent (goawayFrame goaway)]
        (by simp [Entry.isPlain, Frame.isPlain, goawayFrame]) hlog
  simp only [pollDealWithGoAway, sendPeerGoaway, hm.alive.goingAway, Bool.false_eq_true,
    if_false] at h
  split at h
  · split at h
    · rename_i hsend
      rw [sendInput] at hsend
      split at hsend <;> cases hsend
      cases h
      exact .inr ⟨⟨_, rfl⟩, hstops _ (.inl rfl)⟩
    · rename_i hsend
      rw [sendInput] at hsend
      split at hsend <;> cases hsend
      split at h
      · cases h
        exact .inr ⟨⟨_, rfl⟩, hstops _ (.inr ⟨_, rfl⟩)⟩
      · cases h
        exact .inr ⟨⟨_, rfl⟩, hstops _ (.inr ⟨_, rfl⟩)⟩
  · cases h
    exact .inl ⟨rfl, rfl⟩

theorem managePendingState_settles {m : ConnManager} {env : Environment}
    {requests : List RequestWrapper} {closed : Bool} (halive : m.Alive R)
    (hbdd : m.streams.Bounded) (hstored : m.streams.Stored) :
    Comes R m.conn (Settles R m.conn) (m.managePendingState env requests closed) := by
  have hm : Continues R m.conn m := ⟨halive, .refl⟩
  rw [managePendingState]
  cases hcode : m.goAwayErrorCode with
  | some code =>
    dsimp only
    rcases hdeal : m.pollDealWithGoAway env code with ⟨m₁, r₁⟩
    obtain ⟨rfl, rfl⟩ | ⟨⟨e, rfl⟩, hstops⟩ := pollDealWithGoAway_cases hm hdeal
    · exact .inl hm
    · exact hstops
  | none =>
    dsimp only
    have hm₁ := pollRecvRequest_serves closed requests ⟨hm, hcode⟩
    rcases hrecv : pollRecvRequest closed requests m with ⟨m₁, e | u⟩ <;> rw [hrecv] at hm₁
    · exact hm₁.stops rfl
    · have hm₂ : Serves R m.conn
          { m₁ with streams := m₁.streams.tryConsumePendingConcurrency } :=
        .of_path ⟨hm₁.alive.goingAway, hm₁.alive.state, hm₁.alive.settings⟩ hm₁.serving
          (hm₁.path_serving.trans (consumePendingConcurrency_path rfl))
      have hputs : Comes R m.conn (Puts R m.conn) (m₁.pollInputRequest env) :=
        inputStreams_puts hm₂ hbdd hstored
      revert hputs
      change _ → Comes R m.conn _ (Except.map _ (m₁.pollInputRequest env))
      rcases m₁.pollInputRequest env with panic | ⟨m₂, e | u⟩
      · exact fun hfails => hfails
      · exact fun hstops => hstops
      · exact fun hserves => .inl hserves.toContinues

/-! ## Turns -/

/-- What a turn makes of an event: nothing, or what the state of the manager calls for. -/
inductive Looks (m : ConnManager) (env : Environment) :
    Event → Except Panic (ConnManager × Poll (Except DispatchErrorKind Unit)) → Prop
  | idle {event : Event} {r : Poll (Except DispatchErrorKind Unit)}
      (unread : ∀ received, event = .output received → m.state ≠ .receive)
      (unready : ∀ e, r = .ready (.error e) → m.state = .exit e) : Looks m env event (.ok (m, r))
  | written {settings : List Setting} (sent : .sent (localSettings settings) ∈ m.log) :
      Looks m env (.settingsWritten settings)
        (.ok ({ m with settings := .acknowledging settings }, .pending))
  | frame {received : ReceivedFrame}
      {answer : Except Panic (ConnManager × Poll (Except DispatchErrorKind Unit))}
      (state : m.state = .receive)
      (h : { m with log := .received received.frame :: m.log }.pollRecvMessage env
        received.frame = answer) : Looks m env (.output received) answer
  | failed {kind : DispatchErrorKind}
      {answer : Except Panic (ConnManager × Poll (Except DispatchErrorKind Unit))}
      (state : m.state = .receive) (h : m.manageRespError env kind = answer) :
      Looks m env (.outputExit kind) answer
  | closed {answer : Except Panic (ConnManager × Poll (Except DispatchErrorKind Unit))}
      (state : m.state = .receive) (h : .ok (m.exitWith env .channelClosed) = answer) :
      Looks m env .respClosed answer
  | requests {requests : List RequestWrapper} {closed : Bool}
      {answer : Except Panic (ConnManager × Poll (Except DispatchErrorKind Unit))}
      (state : m.state = .receive) (h : m.managePendingState env requests closed = answer) :
      Looks m env (.respPending requests closed) answer
  | retried {answer : Except Panic (ConnManager × Poll (Except DispatchErrorKind Unit))}
      (state : m.state = .send) (h : m.pollBlockedFrames env = answer) : Looks m env .retry answer

theorem step_looks (m : ConnManager) (env : Environment) (event : Event) :
    Looks m env event (m.step env event) := by
  cases event with
  | settingsWritten settings =>
    simp only [step]
    split
    · exact .written ‹_›
    · exact .idle nofun nofun
  | output received =>
    cases hst : m.state with
    | receive => exact .frame hst (by simp only [step, hst])
    | send | exit e =>
      simp only [step, hst]
      exact .idle (fun _ _ h => by cases hst.symm.trans h) (by rintro _ ⟨⟩ <;> exact hst)
  | outputExit kind =>
    cases hst : m.state with
    | receive =>
      simp only [step, hst]
      split
      · exact .idle nofun nofun
      · exact .failed hst rfl
    | send | exit e =>
      simp only [step, hst]
      exact .idle nofun (by rintro _ ⟨⟩ <;> exact hst)
  | respClosed =>
    cases hst : m.state with
    | receive => exact .closed hst (by simp only [step, hst])
    | send | exit e =>
      simp only [step, hst]
      exact .idle nofun (by rintro _ ⟨⟩ <;> exact hst)
  | respPending requests closed =>
    cases hst : m.state with
    | receive => exact .requests hst (by simp only [step, hst])
    | send | exit e =>
      simp only [step, hst]
      exact .idle nofun (by rintro _ ⟨⟩ <;> exact hst)
  | retry =>
    cases hst : m.state with
    | send => exact .retried hst (by simp only [step, hst])
    | receive | exit e =>
      simp only [step, hst]
      exact .idle nofun (by rintro _ ⟨⟩ <;> exact hst)

theorem pollBlocked_dead {m : ConnManager} (env : Environment) (keys : List StreamId)
    (hm : m.Dead) : ∃ m' blocked, pollBlocked env keys m = .ok (m', blocked) ∧ m'.Dead ∧
      m'.log = m.log ∧ m'.nextState = m.nextState := by
  induction keys generalizing m with
  | nil => exact ⟨m, false, rfl, hm, rfl, rfl⟩
  | cons key keys ih =>
    rw [pollBlocked]
    cases m.currMessage.lookup key with
    | none => exact ih hm
    | some message =>
      cases env.channel key with
      | sent => exact @ih { m with
          currMessage := m.currMessage.erase key
          responses := (key, message) :: m.responses } ⟨hm.closed, hm.state⟩
      | closed =>
        have hdrop : { m with currMessage := m.currMessage.erase key }.dropBlocked env key = .ok
            { m with currMessage := m.currMessage.erase key, senders := m.senders.erase key } := by
          simp only [dropBlocked, Streams.streamState]
          cases hget : m.streams.streamMap.lookup key with
          | none => simp only [Option.map_none]; rfl
          | some stream => simp only [Option.map_some, hm.closed key stream hget, if_true]; rfl
        simp only [hdrop]
        exact @ih { m with
          currMessage := m.currMessage.erase key
          senders := m.senders.erase key } ⟨hm.closed, hm.state⟩
      | full =>
        obtain ⟨m', blocked, hpoll, hm'⟩ := ih hm
        exact ⟨m', true, by simp only [hpoll]; rfl, hm'⟩

/-- A connection that is over stays so, whatever comes. -/
theorem step_dead_ok {m : ConnManager} (hm : m.Dead) (env : Environment) (event : Event) :
    ∃ m' r, m.step env event = .ok (m', r) ∧ m'.Dead ∧ m'.log = m.log := by
  obtain ⟨e, hst⟩ := hm.state
  have hreceive : m.state ≠ .receive := by
    rintro hreceive
    rcases hst with hst | ⟨hst, -⟩ <;> cases hreceive.symm.trans hst
  generalize hstep : m.step env event = answer
  have hlooks := hstep ▸ step_looks m env event
  cases hlooks with
  | idle => exact ⟨m, _, rfl, hm, rfl⟩
  | written => exact ⟨_, _, rfl, ⟨hm.closed, hm.state⟩, rfl⟩
  | frame hst | failed hst | closed hst | requests hst => exact absurd hst hreceive
  | retried hsend h =>
    obtain ⟨m₁, blocked, hblocked, hm₁, hlog, hnext⟩ :=
      pollBlocked_dead env (env.hash.order m.currMessage.keys) hm
    rw [pollBlockedFrames, hblocked] at h
    cases blocked with
    | true => exact ⟨m₁, _, h.symm, hm₁, hlog⟩
    | false =>
      refine ⟨_, _, h.symm, ⟨hm₁.closed, e, .inl (hnext.trans ?_)⟩, hlog⟩
      rcases hst with hst | ⟨-, hexit⟩
      · cases hsend.symm.trans hst
      · exact hexit

theorem step_dead {m m' : ConnManager} {env : Environment} {event : Event}
    {r : Poll (Except DispatchErrorKind Unit)} (hm : m.Dead)
    (h : m.step env event = .ok (m', r)) : m'.Dead ∧ m'.log = m.log := by
  obtain ⟨m₁, r₁, hstep, hdead⟩ := step_dead_ok hm env event
  cases h.symm.trans hstep
  exact hdead

/-- What an event can lead to is allowed. -/
def Permits (R : Rules) (m : ConnManager) (env : Environment) : Event → Prop
  | .output received => PermitsFrame R m env received.frame
  | .outputExit (.h2 (.streamError id _)) => ∀ stream,
    m.streams.streamMap.lookup id = some stream → stream.state.isClosed = false →
    R.resets .byClient id
  | .retry => ∀ key ∈ m.currMessage, env.channel key = .closed → ∀ stream,
    m.streams.streamMap.lookup key = some stream → stream.state.isClosed = false →
    R.resets .byClient key
  | .settingsWritten settings => .sent (localSettings settings) ∈ m.log → R.settings settings
  | _ => True

theorem step_settles {m : ConnManager} {env : Environment} {event : Event} (halive : m.Alive R)
    (hperm : Permits R m env event) (hbdd : m.streams.Bounded) (hstored : m.streams.Stored) :
    Comes R m.conn (Settles R m.conn) (m.step env event) := by
  have hm : Continues R m.conn m := ⟨halive, .refl⟩
  have hhalts : Halts R m.conn m := hm.halts halive.goingAway [] (by simp) rfl
  generalize hstep : m.step env event = answer
  cases hstep ▸ step_looks m env event with
  | @idle _ r _ hunready =>
    rcases r with (e | _) | _
    · rcases halive.state with hst | ⟨hst, -⟩ <;> cases (hunready e rfl).symm.trans hst
    · exact .inl hm
    · exact .inl hm
  | written hlog =>
    refine .inl ⟨⟨halive.goingAway, halive.state, fun settings' h => ?_⟩, .refl⟩
    cases h
    exact hperm hlog
  | @frame received _ _ hmsg => exact hmsg ▸ pollRecvMessage_settles received halive hperm
  | @failed kind _ _ hmanage =>
    refine hmanage ▸ manageRespError_settles ?_
    match kind, hperm with
    | .h2 (.streamError _ _), hperm => exact ⟨hm, hperm⟩
    | .h2 (.connectionError _), _ | .io, _ | .channelClosed, _ | .disconnect, _ => exact hhalts
  | closed _ hexit =>
    exact hexit ▸ exitWith_settles env .channelClosed fun m' hlog => hhalts.stops [] (by simp) hlog
  | requests _ hmanage => exact hmanage ▸ managePendingState_settles halive hbdd hstored
  | retried hst hpoll => exact hpoll ▸ pollBlockedFrames_settles halive hst hperm

/-! ## Runs -/

/-- The states of the manager between the turns of its loop. -/
inductive Reached (config : H2Config) : ConnManager → Prop where
  | start {m} : start config = .ok m → Reached config m
  | step {m m' env event r} : Reached config m → m.step env event = .ok (m', r) →
      (∀ e, r ≠ .ready (.error e)) → Reached config m'

/-- What happens on a connection in a run of its manager, its last turn included. -/
inductive Recorded (config : H2Config) : List Entry → Prop where
  | reached {m} : Reached config m → Recorded config m.log
  | last {m m' env event r} : Reached config m → m.step env event = .ok (m', r) →
      Recorded config m'.log

theorem start_streams {config : H2Config} {m : ConnManager}
    (h : start config = .ok m) :
    (∀ R, m.Alive R) ∧ m.goAwayErrorCode = none ∧
      ∃ flow, m.streams = Streams.new config.streamWindowSize defaultWindowSize flow ∧
        flow.sendWindow = .new (asI32 defaultWindowSize) := by
  rw [start] at h
  obtain ⟨flow, hflow, h⟩ := of_bind_ok h
  obtain ⟨⟨streams, update⟩, hrelease, h⟩ := of_bind_ok h
  cases h
  have hsend : flow.sendWindow = .new (asI32 defaultWindowSize) := by
    simp only [FlowControl.setupRecvWindow] at hflow
    split at hflow
    · obtain ⟨w, -, hflow⟩ := of_bind_ok hflow
      cases hflow
      rfl
    · obtain ⟨w, -, hflow⟩ := of_bind_ok hflow
      cases hflow
      rfl
  refine ⟨fun R => ⟨rfl, .inl rfl, (fun _ h => nomatch h)⟩, rfl, streams.flowControl, ?_, ?_⟩
  · rw [Streams.releaseConnRecvWindow] at hrelease
    split at hrelease
    · cases hrelease
      rfl
    · obtain ⟨flow₁, -, hrelease⟩ := of_bind_ok hrelease
      obtain ⟨⟨flow₂, frame⟩, -, hrelease⟩ := of_bind_ok hrelease
      cases hrelease
      rfl
  · rw [(releaseConnRecvWindow_recvOnly hrelease).rest]
    exact hsend

theorem start_log {config : H2Config} {m : ConnManager}
    (h : start config = .ok m) :
    ∃ update, m.log = sentUpdate update ++ [.sent (localSettings (createInitialSettings config))] ∧
      ∀ frame, update = some frame → frame.isPlain = true := by
  rw [start] at h
  obtain ⟨flow, -, h⟩ := of_bind_ok h
  obtain ⟨⟨streams, update⟩, hrelease, h⟩ := of_bind_ok h
  cases h
  match update, hrelease with
  | .ok (some frame), hrelease =>
    refine ⟨some frame, rfl, fun frame' hframe => ?_⟩
    exact releaseConnRecvWindow_plain hrelease frame' hframe
  | .ok none, _ | .error e, _ => exact ⟨none, rfl, (fun _ h => nomatch h)⟩

theorem start_stored {config : H2Config} {m : ConnManager}
    (h : start config = .ok m) : m.streams.Bounded ∧ m.streams.Stored := by
  obtain ⟨-, -, flow, hstreams, -⟩ := start_streams h
  rw [hstreams]
  refine ⟨?_, fun id stream header hget => ?_⟩
  · change defaultWindowSize ≤ maxFlowControlWindow
    decide
  · cases hget

/-! ## Invariants -/

def Holds (R : Rules) (P : Conn → Prop) (m : ConnManager) : Prop :=
  (m.Alive R ∧ P m.conn) ∨ (m.Dead ∧ ∃ c, P c ∧ c.log = m.log)

theorem Path.preserves {P : Conn → Prop} (hP : ∀ c c', Action R c c' → P c → P c') (h : Path R c c')
    (hc : P c) : P c' := by
  induction h with
  | refl => exact hc
  | tail _ haction ih => exact hP _ _ haction ih

theorem Dead.not_healthy {m : ConnManager} (h : m.Dead) : ¬ m.Healthy := by
  rintro ⟨-, hst⟩
  obtain ⟨e, hexit | ⟨hsend, hexit⟩⟩ := h.state
  · rcases hst with hreceive | ⟨hsend, -⟩
    · rw [hexit] at hreceive
      cases hreceive
    · rw [hexit] at hsend
      cases hsend
  · rcases hst with hreceive | ⟨-, hnext⟩
    · rw [hsend] at hreceive
      cases hreceive
    · rw [hexit] at hnext
      cases hnext

theorem Holds.of_healthy {P : Conn → Prop} {m : ConnManager} (h : Holds R P m)
    (hhealthy : m.Healthy) : P m.conn := by
  rcases h with ⟨-, hP⟩ | ⟨hdead, -⟩
  · exact hP
  · exact absurd hhealthy hdead.not_healthy

theorem Holds.recorded {P : Conn → Prop} {m : ConnManager} (h : Holds R P m) :
    ∃ c, P c ∧ c.log = m.log := by
  rcases h with ⟨-, hP⟩ | ⟨-, h⟩
  · exact ⟨m.conn, hP, rfl⟩
  · exact h

theorem Holds.step {P : Conn → Prop} {m m' : ConnManager} {env : Environment} {event : Event}
    {r : Poll (Except DispatchErrorKind Unit)} (hP : ∀ c c', Action R c c' → P c → P c')
    (hstored : ∀ c, P c → c.streams.Bounded ∧ c.streams.Stored) (h : Holds R P m)
    (hperm : m.Alive R → Permits R m env event) (hstep : m.step env event = .ok (m', r)) :
    (∃ c, P c ∧ c.log = m'.log) ∧ ((∀ e, r ≠ .ready (.error e)) → Holds R P m') := by
  have hstops : ∀ {c}, P c → Stops R c m' → ∃ c, P c ∧ c.log = m'.log := by
    rintro c hc ⟨c', hpath, -, hlog⟩
    exact ⟨c', Path.preserves hP hpath hc, hlog⟩
  rcases h with ⟨halive, hm⟩ | ⟨hdead, c, hc, hlog⟩
  · obtain ⟨hbdd, hstored⟩ := hstored _ hm
    have hsettles : Settles R m.conn m' r := by
      have hcomes := step_settles halive (hperm halive) hbdd hstored
      rwa [hstep] at hcomes
    have hgoes : Continues R m.conn m' ∨ (m'.Dead ∧ Stops R m.conn m') →
        (∃ c, P c ∧ c.log = m'.log) ∧ Holds R P m' := by
      rintro (hm' | ⟨hdead, hstop⟩)
      · have hP' := Path.preserves hP hm'.path hm
        exact ⟨⟨m'.conn, hP', rfl⟩, .inl ⟨hm'.alive, hP'⟩⟩
      · exact ⟨hstops hm hstop, .inr ⟨hdead, hstops hm hstop⟩⟩
    match r, hsettles with
    | .ready (.error e), hsettles => exact ⟨hstops hm hsettles, fun hr => absurd rfl (hr e)⟩
    | .ready (.ok ()), hsettles | .pending, hsettles =>
      exact ⟨(hgoes hsettles).1, fun _ => (hgoes hsettles).2⟩
  · obtain ⟨hdead', hlog'⟩ := step_dead hdead hstep
    have hrecorded : ∃ c, P c ∧ c.log = m'.log := ⟨c, hc, hlog.trans hlog'.symm⟩
    exact ⟨hrecorded, fun _ => .inr ⟨hdead', hrecorded⟩⟩

def anything : Rules where
  resets _ _ := True
  goAway _ _ := True
  settings _ := True

theorem permits_of_settings {P : List Setting → Prop} {m : ConnManager}
    (hsettings : ∀ settings, .sent (localSettings settings) ∈ m.log → P settings)
    (env : Environment) (event : Event) :
    Permits { anything with settings := P } m env event := by
  cases event with
  | output received =>
    exact ⟨fun _ _ _ _ _ => trivial, fun _ _ => trivial, fun _ _ _ _ _ _ => trivial,
      fun _ _ _ _ _ _ => trivial⟩
  | outputExit kind =>
    match kind with
    | .h2 (.streamError _ _) => exact fun _ _ _ => trivial
    | .h2 (.connectionError _) | .io | .channelClosed | .disconnect => trivial
  | retry => exact fun _ _ _ _ _ _ => trivial
  | settingsWritten settings => exact hsettings settings
  | respClosed => trivial
  | respPending => trivial

theorem permits_anything (m : ConnManager) (env : Environment) (event : Event) :
    Permits anything m env event :=
  permits_of_settings (fun _ _ => trivial) env event

section Invariant

variable {config : H2Config} {P : Conn → Prop}

theorem Reached.holds (hstart : ∀ m, ConnManager.start config = .ok m → P m.conn)
    (hP : ∀ c c', Action anything c c' → P c → P c')
    (hstored : ∀ c, P c → c.streams.Bounded ∧ c.streams.Stored) {m : ConnManager}
    (h : Reached config m) : Holds anything P m := by
  induction h with
  | start h => exact .inl ⟨(start_streams h).1 _, hstart _ h⟩
  | step _ hstep hr ih =>
    exact (Holds.step hP hstored ih (fun _ => permits_anything _ _ _) hstep).2 hr

end Invariant

/-! ## Runs that keep to rules -/

/-- The states of a manager in the runs whose turns keep to the rules of the state they start
from. -/
inductive Kept (rules : ConnManager → Rules) (config : H2Config) : ConnManager → Prop where
  | start {m} : start config = .ok m → Kept rules config m
  | step {m m' env event r} : Kept rules config m →
      (m.Healthy → Permits (rules m) m env event) → m.step env event = .ok (m', r) →
      (∀ e, r ≠ .ready (.error e)) → Kept rules config m'

/-- What is recorded in such runs, their last turn included. -/
inductive KeptLog (rules : ConnManager → Rules) (config : H2Config) : List Entry → Prop where
  | reached {m} : Kept rules config m → KeptLog rules config m.log
  | last {m m' env event r} : Kept rules config m →
      (m.Healthy → Permits (rules m) m env event) → m.step env event = .ok (m', r) →
      KeptLog rules config m'.log

theorem Alive.healthy {m : ConnManager} (h : m.Alive R) : m.Healthy := ⟨h.goingAway, h.state⟩

section Kept

variable {rules : ConnManager → Rules} {config : H2Config} {P : Conn → Prop}
  {Q : Rules → Conn → Prop}

theorem Holds.turn (hsettings : ∀ m settings, (rules m).settings settings)
    (hP : ∀ R c c', Action R c c' → P c ∧ Q R c → P c' ∧ Q R c')
    (hQ : ∀ m, Q (rules m) m.conn)
    (hstored : ∀ c, P c → c.streams.Bounded ∧ c.streams.Stored) {m m' : ConnManager}
    {env : Environment} {event : Event} {r : Poll (Except DispatchErrorKind Unit)}
    (h : Holds anything P m) (hperm : m.Healthy → Permits (rules m) m env event)
    (hstep : m.step env event = .ok (m', r)) :
    (∃ c, P c ∧ c.log = m'.log) ∧ ((∀ e, r ≠ .ready (.error e)) → Holds anything P m') := by
  rcases h with ⟨halive, hm⟩ | ⟨hdead, hrecorded⟩
  · have hholds : Holds (rules m) (fun c => P c ∧ Q (rules m) c) m :=
      .inl ⟨⟨halive.goingAway, halive.state, fun _ _ => hsettings _ _⟩, hm, hQ m⟩
    obtain ⟨⟨c, hc, hlog⟩, hnext⟩ := hholds.step (hP (rules m)) (fun c hc => hstored c hc.1)
      (fun _ => hperm halive.healthy) hstep
    refine ⟨⟨c, hc.1, hlog⟩, fun hr => ?_⟩
    rcases hnext hr with ⟨halive', hm'⟩ | ⟨hdead', c', hc', hlog'⟩
    · exact .inl ⟨⟨halive'.goingAway, halive'.state, fun _ _ => trivial⟩, hm'.1⟩
    · exact .inr ⟨hdead', c', hc'.1, hlog'⟩
  · obtain ⟨hdead', hlog'⟩ := step_dead hdead hstep
    have hrecorded' : ∃ c, P c ∧ c.log = m'.log := by rwa [hlog']
    exact ⟨hrecorded', fun _ => .inr ⟨hdead', hrecorded'⟩⟩

theorem Kept.holds (hsettings : ∀ m settings, (rules m).settings settings)
    (hP : ∀ R c c', Action R c c' → P c ∧ Q R c → P c' ∧ Q R c')
    (hQ : ∀ m, Q (rules m) m.conn)
    (hstored : ∀ c, P c → c.streams.Bounded ∧ c.streams.Stored)
    (hstart : ∀ m, ConnManager.start config = .ok m → P m.conn) {m : ConnManager}
    (h : Kept rules config m) : Holds anything P m := by
  induction h with
  | start h => exact .inl ⟨(start_streams h).1 _, hstart _ h⟩
  | step _ hperm hstep hr ih => exact (ih.turn hsettings hP hQ hstored hperm hstep).2 hr

theorem KeptLog.holds (hsettings : ∀ m settings, (rules m).settings settings)
    (hP : ∀ R c c', Action R c c' → P c ∧ Q R c → P c' ∧ Q R c')
    (hQ : ∀ m, Q (rules m) m.conn)
    (hstored : ∀ c, P c → c.streams.Bounded ∧ c.streams.Stored)
    (hstart : ∀ m, ConnManager.start config = .ok m → P m.conn) {log : List Entry}
    (h : KeptLog rules config log) : ∃ c, P c ∧ c.log = log := by
  cases h with
  | reached hkept => exact (hkept.holds hsettings hP hQ hstored hstart).recorded
  | last hkept hperm hstep =>
    exact ((hkept.holds hsettings hP hQ hstored hstart).turn hsettings hP hQ hstored hperm
      hstep).1

end Kept

/-! ## A connection to try things on -/

def plainConfig : H2Config where
  maxFrameSize := 16384
  maxHeaderListSize := 16384
  headerTableSize := 4096
  enablePush := false
  connWindowSize := 65535
  streamWindowSize := 65535
  conn_le := by decide
  stream_le := by decide

def plainEnvironment : Environment where
  inputOpen := true
  channel _ := .sent
  hash := { order := fun ids => ids, perm := List.Perm.refl }

def plainRequest (body : List BodyRead) : RequestWrapper where
  flag := { bits := 4 }
  payload := .headers .new
  data := { body := some body }
  isHeaders := ⟨.new, rfl⟩

/-- SETTINGS of a server that allows only so many streams. -/
def limitStreams (num : UInt32) : Event :=
  .output {
    frame := { id := 0, flags := { bits := 0 }, payload := .settings [.maxConcurrentStreams num] }
    increment_le := fun _ h => nomatch h
    initialSize_le := by
      rintro settings h n hn
      cases h
      simp at hn
    data_lt := fun _ h => nomatch h }

def resetStream (id : StreamId) : Event :=
  .output {
    frame := rstStream id .cancel
    increment_le := fun _ h => nomatch h
    initialSize_le := fun _ h => nomatch h
    data_lt := fun _ h => nomatch h }

def responseHeaders : ReceivedFrame where
  frame := { id := 1, flags := { bits := 4 }, payload := .headers .new }
  increment_le := fun _ h => nomatch h
  initialSize_le := fun _ h => nomatch h
  data_lt := fun _ h => nomatch h

def threeOctets (bits : UInt8) : ReceivedFrame where
  frame := { id := 1, flags := { bits }, payload := .data [1, 2, 3] }
  increment_le := fun _ h => nomatch h
  initialSize_le := fun _ h => nomatch h
  data_lt := by
    intro octets h
    cases h
    decide

variable {m m' : ConnManager}

theorem Reached.pending (h : Reached plainConfig m) (event : Event)
    (hstep : m.step plainEnvironment event = .ok (m', .pending)) : Reached plainConfig m' :=
  h.step hstep nofun

theorem Reached.ready (h : Reached plainConfig m) (event : Event)
    (hstep : m.step plainEnvironment event = .ok (m', .ready (.ok ()))) : Reached plainConfig m' :=
  h.step hstep nofun

end ConnManager

end YlongHttp
