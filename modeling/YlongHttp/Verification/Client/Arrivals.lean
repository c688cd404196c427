import YlongHttp.Verification.Client.Turnover

/-! # What arrives in a turn of the manager

A turn records the frame that it is given, and no other frame of the server. -/

namespace YlongHttp

open Library Except

namespace ConnManager

variable {id : StreamId} {frame : Frame} {result : Except DispatchErrorKind Unit}

theorem Adds.of_same {m₁ m m' : ConnManager} (h : Adds m₁ m') (hlog : m₁.log = m.log) :
    Adds m m' := by
  rwa [Adds, hlog] at h

theorem Quiet.adds {m m' : ConnManager} (h : Quiet m m') : Adds m m' := .of_log h.log

variable {m m' : ConnManager} {env : Environment} {r : Poll (Except DispatchErrorKind Unit)}

theorem Adds.of_fst {α : Type} {x : ConnManager × α} {a : α} (h : x = (m', a)) (hx : Adds m x.1) :
    Adds m m' := by
  rwa [h] at hx

/-! ## Blocked messages and errors -/

theorem dropBlocked_adds {key : StreamId} (h : m.dropBlocked env key = .ok m') : Adds m m' := by
  simp only [dropBlocked] at h
  split at h
  · cases h
    exact .of_log rfl
  · split at h
    · cases h
      exact .of_log rfl
    · obtain ⟨⟨streams, ended⟩, -, h⟩ := of_bind_ok h
      dsimp only at h
      split at h
      · cases h
        exact (sendInput_still { m with streams, senders := m.senders.erase key } env _).adds
      · cases h
        exact .of_log rfl

theorem pollBlocked_adds {keys : List StreamId} {blocked : Bool}
    (h : pollBlocked env keys m = .ok (m', blocked)) : Adds m m' := by
  induction keys generalizing m blocked with
  | nil =>
    cases h
    exact .of_log rfl
  | cons key keys ih =>
    rw [pollBlocked] at h
    split at h
    · exact ih h
    · split at h
      · exact (ih h).of_same rfl
      · obtain ⟨m₁, hdrop, h⟩ := of_bind_ok h
        exact ((dropBlocked_adds hdrop).trans (ih h)).of_same rfl
      · obtain ⟨⟨m₁, blocked₁⟩, hpoll, h⟩ := of_bind_ok h
        cases h
        exact ih hpoll

theorem pollBlockedFrames_adds (h : m.pollBlockedFrames env = .ok (m', r)) : Adds m m' := by
  rw [pollBlockedFrames] at h
  obtain ⟨⟨m₁, blocked⟩, hpoll, h⟩ := of_bind_ok h
  have hadds := pollBlocked_adds hpoll
  dsimp only at h
  split at h
  · cases h
    exact hadds
  · cases h
    exact hadds.trans (.of_log rfl)

theorem exitWith_adds (m : ConnManager) (env : Environment) (e : DispatchErrorKind) :
    Adds m (m.exitWith env e).1 := by
  have hquiet := sendMessages_quiet env (.outputExit e)
    (env.hash.order m.streams.clearStreamsStates.getAllUnclosedStreams.2)
    { m with streams := m.streams.clearStreamsStates.getAllUnclosedStreams.1 }
  have hadds : Adds m (m.exitWithError env e).1 := .of_log hquiet.log
  rw [exitWith]
  split
  · rename_i hexit
    rw [hexit] at hadds
    exact hadds.trans (.of_log rfl)
  · rename_i hexit
    rwa [hexit] at hadds

theorem manageStreamError_adds {code : ErrorCode}
    (h : m.manageStreamError env id code = .ok (m', r)) : Adds m m' := by
  simp only [manageStreamError] at h
  obtain ⟨⟨streams, ended⟩, -, h⟩ := of_bind_ok h
  cases ended with
  | ok =>
    dsimp only at h
    have hsent := (sendInput_still { m with streams } env (rstStream id code)).adds
    split at h
    · rename_i hsend
      cases h
      exact .of_fst hsend hsent
    · rename_i m₁ hsend
      have hsent : Adds m m₁ := .of_fst hsend hsent
      have hquiet := (sendMessageToStream_quiet m₁ env id
        (.outputExit (.h2 (.streamError id code)))).adds
      split at h
      · rename_i hmsg
        cases h
        exact hsent.trans (.of_fst hmsg hquiet)
      · rename_i hmsg
        cases h
        exact (hsent.trans (.of_fst hmsg hquiet)).trans (.of_log rfl)
  | ignore | err e =>
    cases h
    exact .of_log rfl

theorem manageConnError_adds (m : ConnManager) (env : Environment) (code : ErrorCode) :
    Adds m (m.manageConnError env code).1 := by
  unfold manageConnError
  extract_lets goaway sentBefore
  split
  · exact .of_log rfl
  · split
    · rename_i hsend
      exact .of_fst hsend (sendInput_still { m with goingAway := some _ } env _).adds
    · rename_i hsend
      exact Adds.trans (.of_fst hsend (sendInput_still { m with goingAway := some _ } env _).adds)
        (exitWith_adds _ env _)

theorem manageRespError_adds {kind : DispatchErrorKind}
    (h : m.manageRespError env kind = .ok (m', r)) : Adds m m' := by
  match kind, h with
  | .h2 (.streamError _ _), h => exact manageStreamError_adds h
  | .h2 (.connectionError code), h =>
    exact .of_fst (ok.inj h) (manageConnError_adds m env code)
  | .io, h => exact .of_fst (ok.inj h) (exitWith_adds m env .io)
  | .channelClosed, h => exact .of_fst (ok.inj h) (exitWith_adds m env .channelClosed)
  | .disconnect, h => exact .of_fst (ok.inj h) (exitWith_adds m env .disconnect)

/-! ## Frames from the server -/

theorem recvGoAwayFrame_adds {goaway : Goaway} {result : Poll (Except H2Error Unit)}
    (h : m.recvGoAwayFrame env goaway = .ok (m', result)) : Adds m m' := by
  rw [recvGoAwayFrame] at h
  obtain ⟨⟨m₁, unset⟩, hunset, h⟩ := of_bind_ok h
  have hlog : Adds m m₁ := by
    rw [getUnsentStreams] at hunset
    split at hunset
    · cases hunset
      exact .of_log rfl
    · obtain ⟨⟨streams, ids⟩, -, hunset⟩ := of_bind_ok hunset
      cases hunset
      exact .of_log rfl
  cases unset with
  | error e =>
    cases h
    exact hlog
  | ok ids =>
    dsimp only at h
    split at h
    · cases h
      exact hlog
    · cases h
      exact hlog.trans (sendMessages_quiet env _ (env.hash.order ids) m₁).adds

theorem recvResetFrame_adds {result : Poll (Except H2Error Unit)}
    (h : m.recvResetFrame env frame = .ok (m', result)) : Adds m m' := by
  rw [recvResetFrame] at h
  obtain ⟨⟨streams, ended⟩, -, h⟩ := of_bind_ok h
  cases ended with
  | ok => exact .of_fst (ok.inj h) (sendMessageToStream_quiet { m with streams } env _ _).adds
  | ignore | err e =>
    cases h
    exact .of_log rfl

theorem deliver_adds (m : ConnManager) (env : Environment) (frame : Frame)
    (state : FrameRecvState) : Adds m (m.deliver env frame state).1 := by
  cases state with
  | ok => exact (sendMessageToStream_quiet m env frame.id _).adds
  | ignore => exact .of_log rfl
  | err e => exact .of_log rfl

theorem recvHeaderFrame_adds {result : Poll (Except H2Error Unit)}
    (h : m.recvHeaderFrame env frame = .ok (m', result)) : Adds m m' := by
  rw [recvHeaderFrame] at h
  obtain ⟨⟨streams, state⟩, -, h⟩ := of_bind_ok h
  exact .of_fst (ok.inj h) (deliver_adds { m with streams } env frame state)

theorem recvDataFrame_adds {data : Bytes} (h : m.recvDataFrame env frame data = .ok (m', r)) :
    Adds m m' := by
  rw [recvDataFrame] at h
  obtain ⟨⟨m₁, result⟩, hupd, h⟩ := of_bind_ok h
  have hadds := (updateWindow_still hupd).adds
  cases result with
  | error e =>
    cases h
    exact hadds
  | ok u =>
    obtain ⟨⟨streams, state⟩, -, h⟩ := of_bind_ok h
    cases h
    exact hadds.trans (deliver_adds { m₁ with streams } env frame state)

theorem pollRecvFrame_adds (h : m.pollRecvFrame env frame = .ok (m', r)) : Adds m m' := by
  rw [pollRecvFrame] at h
  split at h
  · obtain ⟨⟨m₁, result⟩, hrecv, h⟩ := of_bind_ok h
    cases h
    exact (recvSettingsFrame_still hrecv).adds
  · cases h
    exact (recvPingFrame_still frame _).adds
  · cases h
    exact .of_log rfl
  · obtain ⟨⟨m₁, result⟩, hrecv, h⟩ := of_bind_ok h
    cases h
    exact recvGoAwayFrame_adds hrecv
  · obtain ⟨⟨m₁, result⟩, hrecv, h⟩ := of_bind_ok h
    cases h
    exact recvResetFrame_adds hrecv
  · obtain ⟨⟨m₁, result⟩, hrecv, h⟩ := of_bind_ok h
    cases h
    exact recvHeaderFrame_adds hrecv
  · exact recvDataFrame_adds h
  · cases h
    exact (recvWindowFrame_still frame.id _).adds
  · cases h
    exact .of_log rfl

theorem pollRecvMessage_adds (h : m.pollRecvMessage env frame = .ok (m', r)) : Adds m m' := by
  rw [pollRecvMessage] at h
  obtain ⟨⟨m₁, result⟩, hrecv, h⟩ := of_bind_ok h
  have hadds := pollRecvFrame_adds hrecv
  rcases result with ⟨kind | _⟩ | _
  · exact hadds.trans (manageRespError_adds h)
  · cases h
    exact hadds
  · cases h
    exact hadds

/-! ## Turns -/

theorem adds_rule (m : ConnManager) : RequestRule (Adds m) where
  still h hstill := h.trans hstill.adds
  accepted _ h _ := h.trans ⟨[.opened _], rfl, rfl⟩
  failed h hmanage := h.trans (manageStreamError_adds hmanage)

/-- The frame that the event hands to a manager that waits for one. -/
def takes (m : ConnManager) (event : Event) : List Frame :=
  match m.state, event with
  | .receive, .output received => [received.frame]
  | _, _ => []

/-- A step notes the arrival of the frame that it takes, and of no other. -/
theorem step_arrivals {event : Event} (h : m.step env event = .ok (m', r)) :
    ∃ new, m'.log = new ++ m.log ∧ arrivals new = m.takes event := by
  have hadds : Adds m m' → m.takes event = [] →
      ∃ new, m'.log = new ++ m.log ∧ arrivals new = m.takes event := by
    rintro ⟨new, hlog, hnew⟩ htakes
    exact ⟨new, hlog, hnew.trans htakes.symm⟩
  have hlooks := h ▸ step_looks m env event
  cases hlooks with
  | idle hunread =>
    refine hadds (.of_log rfl) ?_
    cases event with
    | output received =>
      cases hst : m.state with
      | receive => exact absurd hst (hunread received rfl)
      | send | exit e => simp only [takes, hst]
    | _ => cases hst : m.state <;> simp only [takes, hst]
  | written => exact hadds (.of_log rfl) (by cases hst : m.state <;> simp only [takes, hst])
  | @frame received _ hst hrecv =>
    obtain ⟨new, hlog, hnew⟩ := pollRecvMessage_adds hrecv
    refine ⟨new ++ [.received received.frame], by rw [hlog, List.append_assoc]; rfl, ?_⟩
    rw [arrivals, List.filterMap_append]
    simp only [takes, hst]
    exact (congrArg (· ++ [received.frame]) hnew :)
  | failed hst hmanage => exact hadds (manageRespError_adds hmanage) (by simp only [takes, hst])
  | closed hst hexit =>
    exact hadds (.of_fst (ok.inj hexit) (exitWith_adds m env .channelClosed))
      (by simp only [takes, hst])
  | requests hst hmanage =>
    exact hadds ((adds_rule m).managePendingState (.of_log rfl) hmanage) (by simp only [takes, hst])
  | retried hst hpoll => exact hadds (pollBlockedFrames_adds hpoll) (by simp only [takes, hst])

end ConnManager

end YlongHttp
