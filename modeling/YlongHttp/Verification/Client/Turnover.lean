import YlongHttp.Verification.Client.Delivery

/-! # Turns of the manager that keep the order of responses -/

namespace YlongHttp

open List Streams
open Library

namespace ConnManager

variable {m m' : ConnManager} {frames : List Frame} {env : Environment} {id : StreamId}
variable {frame : Frame} {r : Poll (Except DispatchErrorKind Unit)}

/-! ## HEADERS, DATA and GOAWAY -/

theorem deliver_handled (h : m.Orderly frames) (hfree : m.Free) {streams : Streams} {frame : Frame}
    {state : FrameRecvState} (hkeeps : m.streams.Keeps streams)
    (hopen : state = .ok →
      (m.streams.streamMap.lookup frame.id).isSome ∧ ¬ m.streams.ClosedAt frame.id) :
    (({ m with streams } : ConnManager).deliver env frame state).1.Handled
      (frames ++ if state = .ok then [frame] else [])
      (({ m with streams } : ConnManager).deliver env frame state).2 := by
  cases state with
  | ok => exact output_handled h hfree hkeeps (hopen rfl) rfl
  | ignore | err e => simpa [deliver] using (still_streams hkeeps).handled h hfree

theorem recvHeaderFrame_handled (h : m.Orderly frames) (hfree : m.Free) {parts : Parts}
    (hpay : frame.payload = .headers parts) {r : Poll (Except H2Error Unit)}
    (hrecv : m.recvHeaderFrame env frame = .ok (m', r)) :
    m'.Handled (frames ++ m.acceptedFrame env frame) r := by
  rw [recvHeaderFrame] at hrecv
  obtain ⟨⟨streams, state⟩, hst, hrecv⟩ := of_bind_ok hrecv
  obtain ⟨hkeeps, hopen⟩ := call_keeps (e := .recvHeaders frame.flags.isEndStream) hst
  have hhandled := @deliver_handled m frames env h hfree streams frame state hkeeps hopen
  rw [acceptedFrame, accepts, hpay]
  simp only [hst]
  rw [Except.ok.inj hrecv] at hhandled
  cases state <;> simpa using hhandled

theorem recvDataFrame_handled (h : m.Orderly frames) (hfree : m.Free) {octets : Bytes}
    (hpay : frame.payload = .data octets)
    (hrecv : m.recvDataFrame env frame octets = .ok (m', r)) :
    m'.Handled (frames ++ m.acceptedFrame env frame) r := by
  rw [recvDataFrame] at hrecv
  obtain ⟨⟨m₁, updated⟩, hupd, hrecv⟩ := of_bind_ok hrecv
  have hstill := updateWindow_still hupd
  rw [acceptedFrame, accepts, hpay]
  simp only [hupd]
  dsimp only at hrecv
  cases updated with
  | error e =>
    cases hrecv
    simpa using hstill.handled h hfree
  | ok =>
    obtain ⟨⟨streams, state⟩, hst, hrecv⟩ := of_bind_ok hrecv
    obtain ⟨hkeeps, hopen⟩ := call_keeps (e := .recvData frame.flags.isEndStream) hst
    have hhandled := (@deliver_handled m₁ frames env (h.passes hstill.passes) (hfree.still hstill)
      streams frame state hkeeps hopen).lift
    have heq := Prod.mk.inj (Except.ok.inj hrecv)
    rw [heq.1, heq.2] at hhandled
    simp only [hst]
    cases state <;> simpa using hhandled

theorem recvGoAwayFrame_handled (h : m.Orderly frames) (hfree : m.Free) {goaway : Goaway}
    (hpay : frame.payload = .goaway goaway) (htells : m.TellsOnce frame)
    {r : Poll (Except H2Error Unit)} (hrecv : m.recvGoAwayFrame env goaway = .ok (m', r)) :
    m'.Handled frames r := by
  rw [recvGoAwayFrame] at hrecv
  obtain ⟨⟨m₁, unsent⟩, hunsent, hrecv⟩ := of_bind_ok hrecv
  rw [getUnsentStreams] at hunsent
  split at hunsent
  · cases hunsent
    cases hrecv
    exact (Still.refl m).handled h hfree
  · rename_i hlast
    obtain ⟨⟨streams, ids⟩, hunset, hunsent⟩ := of_bind_ok hunsent
    cases hunsent
    obtain ⟨hkeeps, hsub, hids⟩ := unsetStreams_keeps hunset
    have hlower : m.streams.Keeps { m.streams with maxSendId := goaway.lastStreamId } :=
      .of_map rfl rfl
    have hstill : m.Still { m with streams } := still_streams (hlower.trans hkeeps)
    dsimp only at hrecv
    split at hrecv
    · cases hrecv
      exact hstill.handled h hfree
    · rename_i code hcode
      have hperm := env.hash.perm ids
      have huntold : ∀ id ∈ env.hash.order ids, id ∈ m.senders →
          ∀ message ∈ ({ m with streams } : ConnManager).handed id, message.isExit = false := by
        intro id hmem hsender message hmsg
        have hin := hperm.mem_iff.mp hmem
        rw [hstill.handed, handed, hfree id, Option.toList_none, append_nil] at hmsg
        exact htells goaway code hpay (UInt32.not_lt.mp hlast) hcode id (hsub.subset hin)
          (hids id hin).1 hsender message hmsg
      obtain ⟨hord, hcurr⟩ := @sendMessages_orderly _ frames env
        (.h2 (.connectionError code)) (env.hash.order ids)
        (hperm.nodup_iff.mpr (hsub.nodup m.streams.streamMap.keys_nodup)) (h.passes hstill.passes)
        (fun id hmem => (hids id (hperm.mem_iff.mp hmem)).2) (fun id _ => hfree id) huntold
      cases hrecv
      refine ⟨⟨hord.nodup, hord.next, hord.unused, fun id => ?_⟩, fun hr id => ?_⟩
      · obtain ⟨exits, horder, hclosed⟩ := hord.inOrder id
        exact ⟨exits, ⟨horder.length, horder.heard, horder.unheard⟩, hclosed⟩
      · have hblocked : (sendMessages env (.outputExit (.h2 (.connectionError code)))
            (env.hash.order ids) { m with streams }).2 = false := by
          by_contra hblocked
          rw [Bool.not_eq_false] at hblocked
          exact hr (by rw [hblocked]; rfl)
        change AList.lookup id (sendMessages env (.outputExit (.h2 (.connectionError code)))
          (env.hash.order ids) { m with streams }).1.currMessage = none
        rw [hcurr hblocked]
        exact hfree id

theorem acceptedFrame_eq_nil (h : m.accepts env frame = false) :
    m.acceptedFrame env frame = [] := by
  rw [acceptedFrame, h]
  rfl

theorem pollRecvFrame_handled (h : m.Orderly frames) (hfree : m.Free) (htells : m.TellsOnce frame)
    (hrecv : m.pollRecvFrame env frame = .ok (m', r)) :
    m'.Handled (frames ++ m.acceptedFrame env frame) r := by
  have hnone : m.accepts env frame = false → m'.Handled frames r →
      m'.Handled (frames ++ m.acceptedFrame env frame) r := by
    intro hacc hhandled
    rwa [acceptedFrame_eq_nil hacc, append_nil]
  simp only [pollRecvFrame] at hrecv
  cases hpay : frame.payload with
  | settings settings =>
    simp only [hpay] at hrecv
    obtain ⟨⟨m₁, result⟩, hsettings, hrecv⟩ := of_bind_ok hrecv
    cases hrecv
    exact hnone (by simp [accepts, hpay])
      ((recvSettingsFrame_still hsettings).handled h hfree)
  | ping ping =>
    simp only [hpay] at hrecv
    have hstill := @recvPingFrame_still m env frame ping
    cases hrecv
    exact hnone (by simp [accepts, hpay]) (hstill.handled h hfree)
  | pushPromise promise =>
    simp only [hpay] at hrecv
    cases hrecv
    exact hnone (by simp [accepts, hpay]) ((Still.refl m).handled h hfree)
  | goaway goaway =>
    simp only [hpay] at hrecv
    obtain ⟨⟨m₁, answer⟩, hgoaway, hrecv⟩ := of_bind_ok hrecv
    cases hrecv
    exact hnone (by simp [accepts, hpay])
      (recvGoAwayFrame_handled h hfree hpay htells hgoaway).lift
  | rstStream code =>
    simp only [hpay] at hrecv
    obtain ⟨⟨m₁, answer⟩, hreset, hrecv⟩ := of_bind_ok hrecv
    cases hrecv
    exact (recvResetFrame_handled h hfree hpay hreset).lift
  | headers parts =>
    simp only [hpay] at hrecv
    obtain ⟨⟨m₁, answer⟩, hheaders, hrecv⟩ := of_bind_ok hrecv
    cases hrecv
    exact (recvHeaderFrame_handled h hfree hpay hheaders).lift
  | data octets =>
    simp only [hpay] at hrecv
    exact recvDataFrame_handled h hfree hpay hrecv
  | windowUpdate increment =>
    simp only [hpay] at hrecv
    have hstill := m.recvWindowFrame_still frame.id increment
    cases hrecv
    exact hnone (by simp [accepts, hpay]) (hstill.handled h hfree)
  | priority priority =>
    simp only [hpay] at hrecv
    cases hrecv
    exact hnone (by simp [accepts, hpay]) ((Still.refl m).handled h hfree)

theorem pollRecvMessage_leaves (h : m.Orderly frames) (hfree : m.Free) (htells : m.TellsOnce frame)
    (hrecv : m.pollRecvMessage env frame = .ok (m', r)) :
    m'.Leaves (frames ++ m.acceptedFrame env frame) r := by
  rw [pollRecvMessage] at hrecv
  obtain ⟨⟨m₁, answer⟩, hframe, hrecv⟩ := of_bind_ok hrecv
  obtain ⟨hord, hfree₁⟩ := pollRecvFrame_handled h hfree htells hframe
  cases answer with
  | pending =>
    cases hrecv
    exact ⟨hord.turn _ _, fun _ hst => absurd rfl hst⟩
  | ready result =>
    have hfree₂ := hfree₁ (fun h => by cases h)
    cases result with
    | error kind => exact manageRespError_leaves hord hfree₂ hrecv
    | ok =>
      cases hrecv
      exact ⟨hord, fun _ _ => hfree₂⟩

/-! ## Requests -/

/-- The responses are in order, and only closed streams wait for room in a channel. -/
def Serving (m : ConnManager) (frames : List Frame) : Prop := m.Orderly frames ∧ m.Waiting

theorem Serving.still (h : m.Serving frames) (hstill : m.Still m') : m'.Serving frames :=
  ⟨h.1.passes hstill.passes, h.2.still hstill⟩

theorem acceptRequest_serving {streams : Streams} (h : m.Serving frames)
    (hid : m.streams.generateId = (streams, .ok id)) (request : RequestWrapper) :
    (m.acceptRequest streams id request).Serving frames := by
  obtain ⟨hord, hwaiting⟩ := h
  rw [generateId] at hid
  split at hid
  · rename_i hbound
    cases hid
    have hnew := hord.next _ (UInt32.le_refl m.streams.nextStreamId)
    obtain ⟨hsender, hchan, houtputs⟩ := hord.unused _ hnew
    have hnext : ∀ id, m.streams.nextStreamId + 2 ≤ id →
        m.streams.nextStreamId ≤ id ∧ id ≠ m.streams.nextStreamId := by
      intro id hid
      simp only [UInt32.lt_iff_toNat_lt, UInt32.le_iff_toNat_le, UInt32.toNat_add, ne_eq,
        UInt32.toNat_inj.symm] at hid hbound ⊢
      have hmax : defaultMaxStreamId.toNat = 2 ^ 31 - 1 := rfl
      have htwo : (2 : UInt32).toNat = 2 := rfl
      omega
    have hmap : ∀ queued id', (queued = { m.streams with nextStreamId := m.streams.nextStreamId + 2 }) →
        (enqueue queued m.streams.nextStreamId).streamMap.lookup id' =
          m.streams.streamMap.lookup id' ∧
        (enqueue queued m.streams.nextStreamId).nextStreamId = m.streams.nextStreamId + 2 := by
      rintro _ id' rfl
      rw [enqueue]
      split <;> exact ⟨rfl, rfl⟩
    have hothers : ∀ id' ≠ m.streams.nextStreamId,
        (m.acceptRequest { m.streams with nextStreamId := m.streams.nextStreamId + 2 }
          m.streams.nextStreamId request).streams.streamMap.lookup id' =
          m.streams.streamMap.lookup id' := by
      intro id' hne
      exact (AList.lookup_insert_ne hne).trans (hmap _ id' rfl).1
    have hclosed : ∀ id', m.streams.ClosedAt id' →
        (m.acceptRequest { m.streams with nextStreamId := m.streams.nextStreamId + 2 }
          m.streams.nextStreamId request).streams.ClosedAt id' := by
      rintro id' ⟨stream, hget, hclosed⟩
      have hne : id' ≠ m.streams.nextStreamId := by
        rintro rfl
        rw [hnew] at hget
        cases hget
      exact ⟨stream, (hothers id' hne).trans hget, hclosed⟩
    refine ⟨⟨?_, fun id' hid' => ?_, fun id' hid' => ?_, fun id' => ?_⟩, fun id' hid' => ?_⟩
    · exact hord.nodup.insert
    · have hid'' : m.streams.nextStreamId + 2 ≤ id' := by
        have hsame := (hmap _ id' rfl).2
        rw [← hsame]
        exact hid'
      obtain ⟨hle, hne⟩ := hnext id' hid''
      rw [hothers id' hne]
      exact hord.next id' hle
    · have hne : id' ≠ m.streams.nextStreamId := by
        rintro rfl
        rw [acceptRequest] at hid'
        simp only [Streams.insert, AList.lookup_insert] at hid'
        cases hid'
      rw [hothers id' hne] at hid'
      obtain ⟨hold, hchan', houtputs'⟩ := hord.unused id' hid'
      refine ⟨fun hmem => ?_, hchan', houtputs'⟩
      rcases mem_insert_iff.mp hmem with rfl | hmem
      · exact hne rfl
      · exact hold hmem
    · obtain ⟨exits, horder, hexits⟩ := hord.inOrder id'
      by_cases hne : id' = m.streams.nextStreamId
      · subst hne
        refine ⟨[], ⟨by simp, fun _ => ?_, fun hmem => ?_⟩, fun h => absurd rfl h⟩
        · change m.inChannel _ ++ (m.currMessage.lookup _).toList = _
          rw [hchan, (horder.unheard hsender).1, houtputs]
          rfl
        · exact absurd mem_insert_self hmem
      · have hiff : id' ∈ m.senders.insert m.streams.nextStreamId ↔ id' ∈ m.senders := by
          rw [mem_insert_iff]
          exact or_iff_right hne
        exact ⟨exits, ⟨horder.length, fun hmem => horder.heard (hiff.mp hmem),
          fun hmem => horder.unheard fun hin => hmem (hiff.mpr hin)⟩,
          fun h => hclosed id' (hexits h)⟩
    · obtain ⟨hclosed', hst⟩ := hwaiting id' hid'
      exact ⟨hclosed id' hclosed', hst⟩
  · cases hid

/-- What is kept where nothing is said to a stream, where a request is accepted, and where the error
of a stream is dealt with. -/
structure RequestRule (P : ConnManager → Prop) : Prop where
  still : ∀ {m m'}, P m → m.Still m' → P m'
  accepted : ∀ {m streams id} request, P m → m.streams.generateId = (streams, .ok id) →
    P (m.acceptRequest streams id request)
  failed : ∀ {m m' env id code r}, P m → m.manageStreamError env id code = .ok (m', r) → P m'

theorem serving_rule : RequestRule (·.Serving frames) where
  still := Serving.still
  accepted request h hid := acceptRequest_serving h hid request
  failed h hmanage := manageStreamError_orderly h.1 h.2 hmanage

namespace RequestRule

variable {P : ConnManager → Prop} (rule : RequestRule P)
include rule

theorem pollRecvRequest {requests : List RequestWrapper} (closed : Bool) (h : P m) :
    P (pollRecvRequest closed requests m).1 := by
  induction requests generalizing m with
  | nil => exact h
  | cons request requests ih =>
    rw [ConnManager.pollRecvRequest]
    split
    · exact h
    · rename_i hid
      exact ih (rule.accepted request h hid)

theorem dealPollBodyError {e : H2Error} {r : Except DispatchErrorKind Unit} (h : P m)
    (hdeal : m.dealPollBodyError env e = .ok (m', r)) : P m' := by
  cases e with
  | streamError id code =>
    rw [ConnManager.dealPollBodyError] at hdeal
    obtain ⟨⟨m₁, answer⟩, hmanage, hdeal⟩ := of_bind_ok hdeal
    have hkept := rule.failed h hmanage
    cases answer <;> cases hdeal <;> exact hkept
  | connectionError code =>
    cases hdeal
    exact h

theorem inputBody {fuel : ℕ} {r : Except DispatchErrorKind Unit} (h : P m)
    (hinput : inputBody env id fuel m = .ok (m', r)) : P m' := by
  induction fuel generalizing m with
  | zero =>
    cases hinput
    exact h
  | succ fuel ih =>
    rw [ConnManager.inputBody] at hinput
    obtain ⟨⟨streams, read⟩, hread, hinput⟩ := of_bind_ok hinput
    have hkept := rule.still h (still_streams (pollReadBody_keeps hread))
    dsimp only at hinput
    split at hinput
    · cases hinput
      exact hkept
    · cases hinput
      exact hkept
    · obtain ⟨⟨m₁, sent⟩, hsend, hinput⟩ := of_bind_ok hinput
      have hkept₁ := rule.still hkept (pollSendFrame_still hsend)
      cases sent with
      | error e =>
        cases hinput
        exact hkept₁
      | ok => exact ih hkept₁ hinput
    · exact rule.still hkept (pollSendFrame_still hinput)
    · exact rule.dealPollBodyError hkept hinput

theorem inputStreamFrame {r : Except DispatchErrorKind Unit} (h : P m)
    (hinput : m.inputStreamFrame env id = .ok (m', r)) : P m' := by
  have hkept := rule.still h (still_streams (m.streams.headers_keeps id))
  simp only [ConnManager.inputStreamFrame] at hinput
  split at hinput
  · rename_i heq
    rw [heq] at hkept
    cases hinput
    exact hkept
  · rename_i heq
    rw [heq] at hkept
    exact rule.inputBody hkept hinput
  · rename_i heq
    rw [heq] at hkept
    obtain ⟨⟨m₁, sent⟩, hsend, hinput⟩ := of_bind_ok hinput
    have hkept₁ := rule.still hkept (pollSendFrame_still hsend)
    cases sent with
    | error e =>
      cases hinput
      exact hkept₁
    | ok =>
      dsimp only at hinput
      split at hinput
      · cases hinput
        exact hkept₁
      · exact rule.inputBody hkept₁ hinput

theorem inputStreams {size : ℕ} {r : Except DispatchErrorKind Unit} (h : P m)
    (hinput : inputStreams env size m = .ok (m', r)) : P m' := by
  induction size generalizing m with
  | zero =>
    cases hinput
    exact h
  | succ size ih =>
    rw [ConnManager.inputStreams] at hinput
    split at hinput
    · cases hinput
      exact h
    · rename_i streams id hnext
      have hkeeps : m.streams.Keeps streams := by
        rw [nextPendingStream] at hnext
        split at hnext <;> cases hnext
        exact .of_map rfl rfl
      obtain ⟨⟨m₁, result⟩, hframe, hinput⟩ := of_bind_ok hinput
      have hkept := rule.inputStreamFrame (rule.still h (still_streams hkeeps)) hframe
      cases result with
      | error e =>
        cases hinput
        exact hkept
      | ok => exact ih hkept hinput

theorem managePendingState {requests : List RequestWrapper} {closed : Bool} (h : P m)
    (hmanage : m.managePendingState env requests closed = .ok (m', r)) : P m' := by
  rw [ConnManager.managePendingState] at hmanage
  split at hmanage
  · rename_i code hcode
    have hkept := rule.still h (pollDealWithGoAway_still m env code)
    cases hdeal : m.pollDealWithGoAway env code with
    | mk m₁ result =>
      rw [hdeal] at hkept hmanage
      cases result <;> cases hmanage <;> exact hkept
  · have hkept := @pollRecvRequest m P rule requests closed h
    cases hrequests : ConnManager.pollRecvRequest closed requests m with
    | mk m₁ result =>
      rw [hrequests] at hkept hmanage
      cases result with
      | error e =>
        cases hmanage
        exact hkept
      | ok =>
        dsimp only at hmanage
        cases hinput : m₁.pollInputRequest env with
        | error panic =>
          rw [hinput] at hmanage
          cases hmanage
        | ok answer =>
          obtain ⟨m₂, result₂⟩ := answer
          have hkept₂ := rule.inputStreams
            (rule.still hkept (still_streams (consumePendingConcurrency_keeps _ m₁.streams))) hinput
          rw [hinput] at hmanage
          cases result₂ <;> cases hmanage <;> exact hkept₂

end RequestRule

/-! ## Turns -/

theorem pollBlocked_state {keys : List StreamId} {blocked : Bool}
    (h : pollBlocked env keys m = .ok (m', blocked)) : m'.state = m.state := by
  induction keys generalizing m blocked with
  | nil =>
    cases h
    rfl
  | cons key keys ih =>
    rw [pollBlocked] at h
    split at h
    · exact ih h
    · split at h
      · rw [ih h]
      · obtain ⟨m₁, hdrop, h⟩ := of_bind_ok h
        rw [ih h]
        simp only [dropBlocked] at hdrop
        split at hdrop
        · cases hdrop
          rfl
        · split at hdrop
          · cases hdrop
            rfl
          · obtain ⟨⟨streams, ended⟩, -, hdrop⟩ := of_bind_ok hdrop
            dsimp only at hdrop
            split at hdrop
            · rw [← Except.ok.inj hdrop]
              exact (sendInput_still _ env _).state
            · cases hdrop
              rfl
      · obtain ⟨⟨m₁, blocked₁⟩, hpoll, h⟩ := of_bind_ok h
        cases h
        exact ih hpoll

theorem pollBlockedFrames_leaves (h : m.Orderly frames) (hst : m.state = .send)
    (hpoll : m.pollBlockedFrames env = .ok (m', r)) : m'.Leaves frames r := by
  rw [pollBlockedFrames] at hpoll
  obtain ⟨⟨m₁, blocked⟩, hblocked, hpoll⟩ := of_bind_ok hpoll
  obtain ⟨hpasses, hleft⟩ := pollBlocked_passes h.nodup hblocked
  have hord := h.passes hpasses
  cases blocked with
  | true =>
    cases hpoll
    exact ⟨hord, fun _ hne => absurd ((pollBlocked_state hblocked).trans hst) hne⟩
  | false =>
    cases hpoll
    refine ⟨hord.turn _ _, fun _ _ id => ?_⟩
    change m₁.currMessage.lookup id = none
    by_contra hid
    obtain ⟨hbefore, hmem⟩ := hleft rfl id hid
    refine hmem ((env.hash.perm m.currMessage.keys).mem_iff.mpr ?_)
    by_contra hnot
    exact hbefore (AList.lookup_eq_none.mpr hnot)

/-- The frame of the event, if the manager passes it on. -/
def acceptedIn (m : ConnManager) (env : Environment) : Event → List Frame
  | .output received =>
    if m.state = .receive then
      { m with log := .received received.frame :: m.log }.acceptedFrame env received.frame
    else []
  | _ => []

/-- `TellsOnce` for the frame of the event. -/
def TellsOnceIn (m : ConnManager) : Event → Prop
  | .output received => m.state = .receive → m.TellsOnce received.frame
  | _ => True

theorem step_leaves {event : Event} (h : m.Orderly frames) (hrest : m.Rest)
    (htells : m.TellsOnceIn event) (hstep : m.step env event = .ok (m', r)) :
    m'.Leaves (frames ++ m.acceptedIn env event) r := by
  have hfree : m.state = .receive → m.Free := fun hst => hrest (by rw [hst]; nofun)
  have hlooks := hstep ▸ step_looks m env event
  cases hlooks with
  | idle hunread =>
    have hnone : m.acceptedIn env event = [] := by
      cases event with
      | output received => exact if_neg (hunread received rfl)
      | _ => rfl
    rw [hnone, append_nil]
    exact ⟨h, fun _ => hrest⟩
  | written =>
    have hset : ∀ settings, m.Still { m with settings } :=
      fun _ => ⟨.refl _, rfl, rfl, rfl, rfl, .of_log rfl⟩
    simp only [acceptedIn, append_nil]
    exact ⟨h.passes (hset _).passes, fun _ hst => (hrest hst).still (hset _)⟩
  | @frame received _ hst hrecv =>
    have hlogged : ({ m with log := .received received.frame :: m.log } :
        ConnManager).Orderly frames :=
      ⟨h.nodup, h.next, h.unused, fun id => by
        obtain ⟨exits, horder, hclosed⟩ := h.inOrder id
        exact ⟨exits, ⟨horder.length, horder.heard, horder.unheard⟩, hclosed⟩⟩
    rw [acceptedIn, if_pos hst]
    exact pollRecvMessage_leaves hlogged (hfree hst) (htells hst) hrecv
  | failed hst hmanage =>
    simp only [acceptedIn, append_nil]
    exact manageRespError_leaves h (hfree hst) hmanage
  | closed hst hexit =>
    have hleaves := exitWith_leaves h (hfree hst) env .channelClosed
    rwa [Except.ok.inj hexit, ← append_nil frames] at hleaves
  | requests hst hmanage =>
    obtain ⟨hord, hwaiting⟩ := serving_rule.managePendingState
      ⟨h, (hfree hst).waiting⟩ hmanage
    simp only [acceptedIn, append_nil]
    exact ⟨hord, fun _ => hwaiting.rest⟩
  | retried hst hpoll =>
    simp only [acceptedIn, append_nil]
    exact pollBlockedFrames_leaves h hst hpoll

end ConnManager

end YlongHttp
