import YlongHttp.Verification.Client.Ids

/-! # The queues of the streams that have something to send -/

namespace YlongHttp

open List Conn Streams List.Subset ConnManager Phase
open Library

variable {R : Rules}
variable {e : StreamFrame} {state state' : H2StreamState} {s s' : Streams} {id : StreamId}
  {n : UInt32} {c c' : Conn} {log : List Entry}

def H2StreamState.isSending : H2StreamState → Bool
  | .localHalfClosed _ | .closed _ => false
  | _ => true

theorem StreamFrame.isSending_of_move (h : e.move state = some state')
    (hsending : state'.isSending = true) : state.isSending = true := by
  cases state with
  | idle | «open» | reservedRemote | remoteHalfClosed => rfl
  | localHalfClosed recv =>
    cases e <;> cases recv <;> simp only [move, Option.some.injEq, reduceCtorEq] at h <;>
      subst h <;> split at hsending <;> cases hsending
  | closed reason => cases e <;> cases h

theorem StreamFrame.not_isSending_of_end
    (h : (sendHeaders true).move state = some state' ∨ (sendData true).move state = some state') :
    state'.isSending = false := by
  rcases h with h | h
  · rcases state with _ | ⟨_ | _, _⟩ | _ | _ | ⟨_ | _⟩ | _ <;> cases h <;> rfl
  · rcases state with _ | ⟨_ | _, _⟩ | _ | _ | ⟨_ | _⟩ | _ <;> cases h <;> rfl

theorem H2StreamState.not_isSending_of_isClosed (h : state.isClosed = true) :
    state.isSending = false := by
  cases state <;> first | rfl | cases h

/-! ## Every stream waits once -/

def Phase.taken : Phase → List StreamId
  | .input id => [id]
  | _ => []

def Conn.queue (c : Conn) : List StreamId :=
  c.streams.pendingConcurrency ++ c.streams.pendingSend ++ c.streams.pendingStreamWindow ++
    c.streams.pendingConnWindow ++ c.phase.taken

structure Conn.Queued (c : Conn) : Prop where
  nodup : c.queue.Nodup
  known : ∀ id ∈ c.queue, ∃ stream, c.streams.streamMap.lookup id = some stream
  sending : ∀ id stream, c.streams.streamMap.lookup id = some stream →
    stream.state.isSending = true → id ∈ c.queue

def Streams.NoneStarts (s s' : Streams) : Prop :=
  s.Each (fun _ a b => b.state.isSending = true → a.state.isSending = true) s'

theorem Streams.NoneStarts.of_eq (h : s'.streamMap = s.streamMap) : s.NoneStarts s' :=
  .of_lookup_eq (fun _ => by rw [h]) fun _ _ => id

theorem Streams.NoneStarts.setStream {s : Streams} {id : StreamId} {stream stream' : Stream}
    (hget : s.streamMap.lookup id = some stream)
    (hst : stream'.state.isSending = true → stream.state.isSending = true) :
    s.NoneStarts (s.setStream id stream') := by
  refine (Each.setStream hget).mono fun j a b hab => ?_
  split at hab
  · obtain ⟨rfl, rfl⟩ := hab
    exact hst
  · rw [hab]
    exact fun h => h

theorem Streams.NoneStarts.moved {s : Streams} {id : StreamId} {stream stream' : Stream}
    {e : StreamFrame} {state : H2StreamState} (hget : s.streamMap.lookup id = some stream)
    (hmove : e.move stream.state = some state) : s.NoneStarts (s.moved id stream' state) :=
  @NoneStarts.setStream _ _ _ { stream' with state } hget
    (StreamFrame.isSending_of_move hmove)

theorem Streams.NoneStarts.ended {stream stream' : Stream} {reason : CloseReason}
    (hget : s.streamMap.lookup id = some stream) : s.NoneStarts (s.ended id stream' reason) :=
  @NoneStarts.setStream _ _ _ (stream'.close reason) hget (fun h => nomatch h)

theorem Resized.noneStarts (h : Resized s s') : s.NoneStarts s' := by
  refine h.each.mono ?_
  rintro id a b ⟨w, rfl, -⟩
  exact fun h => h

theorem Enlarged.noneStarts (h : Enlarged id n s s') : s.NoneStarts s' := by
  refine h.each.mono fun j a b hab => ?_
  split at hab
  · obtain ⟨w, rfl, -⟩ := hab
    exact fun h => h
  · rw [hab]
    exact fun h => h

theorem RecvOnly.noneStarts (h : RecvOnly s s') : s.NoneStarts s' := by
  refine h.each.mono ?_
  rintro id a b ⟨w, rfl⟩
  exact fun h => h

theorem Unset.noneStarts {last : StreamId} (h : Unset last s s') : s.NoneStarts s' := by
  refine h.each.mono fun j a b hab => ?_
  split at hab
  · rw [hab]
    exact (fun h => nomatch h)
  · rw [hab]
    exact fun h => h

theorem Conn.Queued.of_perm (h : c.Queued) (hperm : c'.queue.Perm c.queue)
    (hstarts : c.streams.NoneStarts c'.streams) : c'.Queued := by
  refine ⟨hperm.nodup_iff.mpr h.nodup, fun id hid => ?_, fun id stream hget hsending => ?_⟩
  · obtain ⟨stream, hget⟩ := h.known id (hperm.mem_iff.mp hid)
    obtain ⟨stream', hget', -⟩ := hstarts.before hget
    exact ⟨stream', hget'⟩
  · obtain ⟨stream₀, hget₀, hst⟩ := hstarts.after hget
    exact hperm.mem_iff.mpr (h.sending id stream₀ hget₀ (hst hsending))

theorem Conn.Queued.leave {c c' : Conn} {id : StreamId} (h : c.Queued)
    (hperm : c.queue.Perm (id :: c'.queue)) (hstarts : c.streams.NoneStarts c'.streams)
    (hend : ∀ stream, c'.streams.streamMap.lookup id = some stream →
      stream.state.isSending = false) : c'.Queued := by
  have hnodup := hperm.nodup_iff.mp h.nodup
  refine ⟨(nodup_cons.mp hnodup).2, fun j hj => ?_, fun j stream hget hsending => ?_⟩
  · obtain ⟨stream, hget⟩ := h.known j (hperm.mem_iff.mpr (.tail id hj))
    obtain ⟨stream', hget', -⟩ := hstarts.before hget
    exact ⟨stream', hget'⟩
  · obtain ⟨stream₀, hget₀, hst⟩ := hstarts.after hget
    have hmem := hperm.mem_iff.mp (h.sending j stream₀ hget₀ (hst hsending))
    rcases mem_cons.mp hmem with rfl | hmem
    · rw [hend stream hget] at hsending
      cases hsending
    · exact hmem

theorem Conn.Queued.opened {s : Streams} {log : List Entry} {away : Bool}
    (h : Queued ⟨s, .idle, log, away⟩) (hnum : s.Numbered) (request : RequestWrapper)
    (log' : List Entry) : Queued ⟨s.accepted request, .idle, log', away⟩ := by
  have hfresh : s.nextStreamId ∉ queue ⟨s, .idle, log, away⟩ := by
    intro hmem
    obtain ⟨stream, hget⟩ := h.known _ hmem
    rw [hnum.lookup_next] at hget
    cases hget
  have hperm : (queue ⟨s.accepted request, .idle, log', away⟩).Perm
      (s.nextStreamId :: queue ⟨s, .idle, log, away⟩) := by
    rcases s.accepted_cases request with ⟨-, heq⟩ | ⟨-, -, heq⟩
    · rw [heq]
      simp only [queue, append_assoc, singleton_append]
      exact perm_middle
    · rw [heq]
      simp only [queue, append_assoc, singleton_append]
      exact (perm_middle.append_left _).trans perm_middle
  refine ⟨hperm.nodup_iff.mpr (nodup_cons.mpr ⟨hfresh, h.nodup⟩), fun id hid => ?_,
    fun id stream hget hsending => ?_⟩
  · change ∃ stream, (s.accepted request).streamMap.lookup id = some stream
    rw [s.streamMap_accepted]
    by_cases heq : id = s.nextStreamId
    · subst heq
      exact ⟨_, AList.lookup_insert _⟩
    · rw [AList.lookup_insert_ne heq]
      exact h.known id ((mem_cons.mp (hperm.mem_iff.mp hid)).resolve_left heq)
  · refine hperm.mem_iff.mpr ?_
    change (s.accepted request).streamMap.lookup id = some stream at hget
    rcases lookup_accepted hget with ⟨heq, -⟩ | ⟨-, hget⟩
    · rw [heq]
      exact (.head _)
    · exact mem_cons_of_mem _ (h.sending id stream hget hsending)

theorem Action.queued (h : Action R c c') (hsound : c.Sound) (hc : c.Queued)
    (hphase : c'.phase ≠ .over) : c'.Queued := by
  have hsame : ∀ {s s' : Streams} {phase log log' away away'}, Conn.Queued ⟨s, phase, log, away⟩ →
      s'.pendingConcurrency = s.pendingConcurrency → s'.pendingSend = s.pendingSend →
      s'.pendingStreamWindow = s.pendingStreamWindow →
      s'.pendingConnWindow = s.pendingConnWindow → s.NoneStarts s' →
      Conn.Queued ⟨s', phase, log', away'⟩ := by
    intro s s' phase log log' away away' hs h₁ h₂ h₃ h₄ hstarts
    refine hs.of_perm ?_ hstarts
    simp only [queue, h₁, h₂, h₃, h₄]
    exact List.Perm.refl _
  cases h with
  | opened request hid => exact hc.opened hsound.numbered request _
  | admitted hpend =>
    refine hc.of_perm (perm_iff_count.mpr fun a => ?_) (.of_eq rfl)
    simp only [queue, pushBackPendingSend, increaseCurrentConcurrency,
      hpend, count_append, count_cons, count_nil]
    omega
  | taken hpend =>
    refine hc.of_perm (perm_iff_count.mpr fun a => ?_) (.of_eq rfl)
    simp only [queue, Phase.taken, hpend, count_append, count_cons, count_nil]
    omega
  | @headers s log away id stream header state hget _ hmove _ =>
    have hstarts : s.NoneStarts (s.moved id { stream with header := none } state) :=
      .moved hget hmove
    cases hend : header.flags.isEndStream with
    | false => exact hsame hc rfl rfl rfl rfl hstarts
    | true =>
      rw [hend] at hmove
      refine @Queued.leave _ _ id hc ?_ hstarts fun stream' hget' => ?_
      · simp only [queue, Phase.taken, if_true, append_nil]
        exact perm_append_singleton id _
      · obtain rfl := eq_of_lookup_setStream hget hget'
        exact StreamFrame.not_isSending_of_end (.inl hmove)
  | data hget => exact hsame hc rfl rfl rfl rfl (.setStream hget fun h => h)
  | @finished s log away id stream data state len hget _ _ _ _ hmove _ =>
    refine @Queued.leave _ _ id hc ?_ (.moved hget hmove) fun stream' hget' => ?_
    · simp only [queue, Phase.taken, append_nil]
      exact perm_append_singleton id _
    · obtain rfl := eq_of_lookup_setStream hget hget'
      exact StreamFrame.not_isSending_of_end (.inr hmove)
  | @skipped s log away id stream hget hclosed =>
    refine @Queued.leave _ _ id hc ?_ (.of_eq rfl) fun stream' hget' => ?_
    · simp only [queue, Phase.taken, append_nil]
      exact perm_append_singleton id _
    · rw [hget] at hget'
      cases hget'
      exact H2StreamState.not_isSending_of_isClosed hclosed
  | @parkedStream s log away id stream hget _ _ =>
    have hnot : id ∉ s.pendingStreamWindow := by
      intro hmem
      have hnodup := hc.nodup
      simp only [queue, Phase.taken] at hnodup
      exact (nodup_append.mp hnodup).2.2 id (by simp [hmem]) id (by simp) rfl
    refine hc.of_perm (perm_iff_count.mpr fun a => ?_) (.of_eq rfl)
    simp only [queue, Phase.taken, insert_of_not_mem hnot, count_append, count_cons, count_nil]
    omega
  | parkedConn =>
    refine hc.of_perm (perm_iff_count.mpr fun a => ?_) (.of_eq rfl)
    simp only [queue, Phase.taken, count_append, count_cons, count_nil]
    omega
  | @waited s log away id stream len data hget _ _ =>
    have hset : s.NoneStarts (s.setStream id { stream with data }) := .setStream hget fun h => h
    refine hc.of_perm (perm_iff_count.mpr fun a => ?_) hset
    simp only [queue, Phase.taken, pushBackPendingSend, setStream,
      count_append, count_cons, count_nil]
    omega
  | @failed s log away id stream len data code hget _ _ _ _ =>
    refine @Queued.leave _ _ id hc ?_ (.ended hget) fun stream' hget' => ?_
    · simp only [queue, Phase.taken, append_nil]
      exact perm_append_singleton id _
    · obtain rfl := eq_of_lookup_setStream hget hget'
      rfl
  | frameReceived e _ hget hmove => exact hsame hc rfl rfl rfl rfl (.moved hget hmove)
  | remoteReset _ _ hget | localReset _ _ hget =>
    exact hsame hc rfl rfl rfl rfl (.ended hget)
  | localResetLate hget => exact hsame hc rfl rfl rfl rfl (.setStream hget (fun h => by cases h))
  | @settings s s' log away env settings frame _ _ hbound hsettings =>
    have hresized := (recvSettings_resized hbound hsound.bounded hsettings).1
    have hrest := hresized.rest
    refine hc.of_perm (perm_iff_count.mpr fun a => ?_) hresized.noneStarts
    rcases hresized.queues with ⟨hnil, ids, hids, hsend⟩ | ⟨hwin, hsend, -⟩
    · have hcnt : ids.count a = s.pendingStreamWindow.count a := hids.count_eq a
      simp only [queue, hnil, hsend, count_append, count_nil]
      rw [hrest]
      dsimp only
      omega
    · simp only [queue, hwin, hsend, count_append]
      rw [hrest]
  | connUpdate =>
    refine hc.of_perm (perm_iff_count.mpr fun a => ?_) (.of_eq rfl)
    simp only [queue, reassignConnSendWindow, count_append, count_nil]
    omega
  | @streamUpdate s s' log away n frame _ _ hbound hreassign =>
    have henlarged := reassignStreamSendWindow_enlarged hbound hreassign
    have hrest := henlarged.rest
    refine hc.of_perm (perm_iff_count.mpr fun a => ?_) henlarged.noneStarts
    rcases henlarged.queues with ⟨hmem, hwin, hsend⟩ | ⟨-, hwin, hsend⟩
    · have hcnt := (perm_cons_erase hmem).count_eq a
      simp only [queue, hwin, hsend, count_append]
      rw [hcnt, hrest]
      simp only [count_cons, count_nil]
      omega
    · simp only [queue, hwin, hsend, count_append]
      rw [hrest]
  | dataAccepted _ _ _ hconn hstr =>
    have honly := (releaseConnRecvWindow_recvOnly hconn).trans
      (releaseStreamRecvWindow_recvOnly hstr)
    exact hsame hc (by rw [honly.rest]) (by rw [honly.rest]) (by rw [honly.rest])
      (by rw [honly.rest]) honly.noneStarts
  | dataRefused _ _ hconn =>
    have honly := releaseConnRecvWindow_recvOnly hconn
    exact hsame hc (by rw [honly.rest]) (by rw [honly.rest]) (by rw [honly.rest])
      (by rw [honly.rest]) honly.noneStarts
  | acknowledged _ hack =>
    have honly := recvAcknowledged_recvOnly hack
    exact hsame hc (by rw [honly.rest]) (by rw [honly.rest]) (by rw [honly.rest])
      (by rw [honly.rest]) honly.noneStarts
  | wentAway _ hunset =>
    have hunset := getUnsetStreams_unset hunset
    exact hsame hc (by rw [hunset.rest]) (by rw [hunset.rest]) (by rw [hunset.rest])
      (by rw [hunset.rest]) hunset.noneStarts
  | resetIgnored | received | sent => exact hsame hc rfl rfl rfl rfl (.of_eq rfl)
  | stopped => exact absurd rfl hphase

/-! ## What the streams wait for -/

/-- Streams wait for a window only while it is used up. -/
structure Streams.Exhausted (s : Streams) : Prop where
  stream : ∀ id ∈ s.pendingStreamWindow, ∀ stream, s.streamMap.lookup id = some stream →
    stream.sendWindow.size.val ≤ 0
  conn : s.pendingConnWindow ≠ [] → s.flowControl.sendWindow.size.val ≤ 0

theorem Streams.Exhausted.of_le (h : s.Exhausted)
    (hstr : ∀ id ∈ s'.pendingStreamWindow, id ∈ s.pendingStreamWindow ∧
      ∀ stream, s'.streamMap.lookup id = some stream → ∃ stream₀,
        s.streamMap.lookup id = some stream₀ ∧
        stream.sendWindow.size.val ≤ stream₀.sendWindow.size.val)
    (hconn : s'.pendingConnWindow ≠ [] → s.pendingConnWindow ≠ [] ∧
      s'.flowControl.sendWindow.size.val ≤ s.flowControl.sendWindow.size.val) : s'.Exhausted := by
  refine ⟨fun id hid stream hget => ?_, fun hne => ?_⟩
  · obtain ⟨hmem, hwin⟩ := hstr id hid
    obtain ⟨stream₀, hget₀, hle⟩ := hwin stream hget
    exact hle.trans (h.stream id hmem stream₀ hget₀)
  · obtain ⟨hne, hle⟩ := hconn hne
    exact hle.trans (h.conn hne)

theorem Streams.Exhausted.of_each (h : s.Exhausted)
    (hwin : s'.pendingStreamWindow = s.pendingStreamWindow)
    (hconn : s'.pendingConnWindow = s.pendingConnWindow)
    (hflow : s'.flowControl.sendWindow = s.flowControl.sendWindow)
    (heach : s.Each (fun _ a b => b.sendWindow.size.val ≤ a.sendWindow.size.val) s') :
    s'.Exhausted := by
  refine h.of_le (fun id hid => ⟨by rwa [← hwin], fun stream hget => ?_⟩)
    fun hne => ⟨by rwa [← hconn], by rw [hflow]⟩
  exact heach.after hget

theorem Streams.Exhausted.same (h : s.Exhausted)
    (hwin : s'.pendingStreamWindow = s.pendingStreamWindow)
    (hconn : s'.pendingConnWindow = s.pendingConnWindow) (hsame : SameWindows s s') :
    s'.Exhausted :=
  h.of_each hwin hconn hsame.conn (hsame.each.mono fun _ _ _ hab => by rw [hab])

theorem RecvOnly.exhausted (h : RecvOnly s s') (hs : s.Exhausted) : s'.Exhausted :=
  hs.same (by rw [h.rest]) (by rw [h.rest]) h.sameWindows

theorem Streams.Exhausted.accepted (h : s.Exhausted)
    (hfresh : s.nextStreamId ∉ s.pendingStreamWindow) (request : RequestWrapper) :
    (s.accepted request).Exhausted := by
  have hrest : (s.accepted request).pendingStreamWindow = s.pendingStreamWindow ∧
      (s.accepted request).pendingConnWindow = s.pendingConnWindow ∧
      (s.accepted request).flowControl = s.flowControl := by
    rcases s.accepted_cases request with ⟨-, h⟩ | ⟨-, -, h⟩ <;> rw [h] <;> exact ⟨rfl, rfl, rfl⟩
  refine h.of_le (fun id hid => ?_) fun hne => ⟨by rwa [← hrest.2.1], by rw [hrest.2.2]⟩
  rw [hrest.1] at hid
  refine ⟨hid, fun stream hget => ?_⟩
  have hne : id ≠ s.nextStreamId := fun heq => hfresh (heq ▸ hid)
  rw [s.streamMap_accepted, AList.lookup_insert_ne hne] at hget
  exact ⟨stream, hget, le_rfl⟩

theorem Enlarged.exhausted (h : Enlarged id n s s') (hnodup : s.pendingStreamWindow.Nodup)
    (hs : s.Exhausted) : s'.Exhausted := by
  have hne : ∀ j ∈ s'.pendingStreamWindow, j ∈ s.pendingStreamWindow ∧ j ≠ id := by
    intro j hj
    rcases h.queues with ⟨-, hwin, -⟩ | ⟨hnot, hwin, -⟩
    · rw [hwin, hnodup.mem_erase_iff] at hj
      exact ⟨hj.2, hj.1⟩
    · rw [hwin] at hj
      exact ⟨hj, fun heq => hnot (heq ▸ hj)⟩
  refine hs.of_le (fun j hj => ⟨(hne j hj).1, fun stream hget => ?_⟩) fun hconn => ?_
  · obtain ⟨stream₀, hget₀, hrel⟩ := h.each.after hget
    rw [if_neg (hne j hj).2] at hrel
    exact ⟨stream₀, hget₀, by rw [hrel]⟩
  · rw [h.rest] at hconn ⊢
    exact ⟨hconn, le_rfl⟩

theorem Action.exhausted (h : Action R c c') (hsound : c.Sound) (hqueued : c.Queued)
    (hc : c.streams.Exhausted) : c'.streams.Exhausted := by
  cases h with
  | @opened s log request hid =>
    refine hc.accepted (fun hmem => ?_) request
    obtain ⟨stream, hget⟩ := hqueued.known s.nextStreamId (by simp [queue, hmem])
    rw [hsound.numbered.lookup_next] at hget
    cases hget
  | headers hget => exact hc.same rfl rfl (.moved _ _ hget rfl)
  | @data s log away id stream len data octets w w' hget _ _ _ _ _ _ _ hwin hconnWindow =>
    refine hc.of_le (fun j hj => ⟨hj, fun stream' hget' => ?_⟩) fun hne => ⟨hne, ?_⟩
    · have hset := (@Each.setStream _ _ _ { stream with data, sendWindow := w }
        hget).after hget'
      obtain ⟨stream₀, hget₀, hrel⟩ := hset
      refine ⟨stream₀, hget₀, ?_⟩
      split at hrel
      · obtain ⟨rfl, rfl⟩ := hrel
        dsimp only
        omega
      · rw [hrel]
    · change w'.size.val ≤ _
      dsimp only
      omega
  | finished hget => exact hc.same rfl rfl (.moved _ _ hget rfl)
  | @parkedStream s log away id stream hget _ hsize =>
    refine ⟨fun j hj stream' hget' => ?_, hc.conn⟩
    rcases mem_insert_iff.mp hj with rfl | hj
    · change s.streamMap.lookup j = _ at hget'
      rw [hget] at hget'
      cases hget'
      exact hsize
    · exact hc.stream j hj stream' hget'
  | parkedConn _ _ hsize => exact ⟨hc.stream, fun _ => hsize⟩
  | @waited s log away id stream len data hget _ _ =>
    have hset : SameWindows s (s.setStream id { stream with data }) := .setStream hget rfl
    exact hc.same rfl rfl ⟨rfl, rfl, hset.each⟩
  | failed hget => exact hc.same rfl rfl (.ended _ _ hget rfl)
  | frameReceived e _ hget => exact hc.same rfl rfl (.moved _ _ hget rfl)
  | remoteReset _ _ hget | localReset _ _ hget =>
    exact hc.same rfl rfl (.ended _ _ hget rfl)
  | localResetLate hget => exact hc.same rfl rfl (.setStream hget rfl)
  | settings _ _ hbound hsettings =>
    have hresized := (recvSettings_resized hbound hsound.bounded hsettings).1
    refine hc.of_le (fun j hj => ?_) fun hne => ?_
    · rcases hresized.queues with ⟨hnil, -⟩ | ⟨hwin, -, hle⟩
      · dsimp only at hj
        rw [hnil] at hj
        cases hj
      · refine ⟨by rwa [← hwin], fun stream hget => ?_⟩
        obtain ⟨stream₀, hget₀, w, rfl, hw⟩ := hresized.each.after hget
        have hsize := UInt32.le_iff_toNat_le.mp hle
        exact ⟨stream₀, hget₀, by dsimp only; omega⟩
    · dsimp only at hne ⊢
      rw [hresized.rest] at hne ⊢
      exact ⟨hne, le_rfl⟩
  | connUpdate => exact ⟨hc.stream, fun hne => absurd rfl hne⟩
  | streamUpdate _ _ hbound hreassign =>
    have hnodup := hqueued.nodup
    simp only [queue, append_assoc] at hnodup
    exact (reassignStreamSendWindow_enlarged hbound hreassign).exhausted
      hnodup.of_append_right.of_append_right.of_append_left hc
  | dataAccepted _ _ _ hconn hstr =>
    exact ((releaseConnRecvWindow_recvOnly hconn).trans
      (releaseStreamRecvWindow_recvOnly hstr)).exhausted hc
  | dataRefused _ _ hconn => exact (releaseConnRecvWindow_recvOnly hconn).exhausted hc
  | acknowledged _ hack => exact (recvAcknowledged_recvOnly hack).exhausted hc
  | wentAway _ hunset =>
    have hunset := getUnsetStreams_unset hunset
    refine hc.of_each (by rw [hunset.rest]) (by rw [hunset.rest]) (by rw [hunset.rest])
      (hunset.each.mono fun j a b hab => ?_)
    split at hab <;> rw [hab]
    exact le_rfl
  | admitted | taken | skipped | resetIgnored | received | sent | stopped =>
    exact ⟨hc.stream, hc.conn⟩

/-! ## END_STREAM -/

/-- A frame of the stream with END_STREAM has been sent. -/
def EndSent (id : StreamId) (log : List Entry) : Prop :=
  ∃ frame, .sent frame ∈ log ∧ frame.id = id ∧ frame.flags.isEndStream = true ∧
    frame.isPlain = false

def Entry.endsStream (id : StreamId) : Entry → Bool
  | .sent frame => decide (frame.id = id) && (frame.flags.isEndStream && !frame.isPlain)
  | _ => false

theorem any_endsStream_iff : log.any (Entry.endsStream id) = true ↔ EndSent id log := by
  rw [any_eq_true]
  refine ⟨?_, ?_⟩
  · rintro ⟨entry, hent, hends⟩
    cases entry with
    | sent frame =>
      simp only [Entry.endsStream, Bool.and_eq_true, decide_eq_true_eq, Bool.not_eq_true'] at hends
      exact ⟨frame, hent, hends.1, hends.2.1, hends.2.2⟩
    | opened | received => cases hends
  · rintro ⟨frame, hent, hid, hend, hplain⟩
    exact ⟨_, hent, by simp [Entry.endsStream, hid, hend, hplain]⟩

instance (id : StreamId) (log : List Entry) : Decidable (EndSent id log) :=
  decidable_of_iff _ any_endsStream_iff

def Conn.Told (c : Conn) : Prop :=
  ∀ id stream, c.streams.streamMap.lookup id = some stream → stream.state ≠ .reservedRemote ∧
    ∀ recv, stream.state = .localHalfClosed recv → EndSent id c.log

/-- A move of a stream that `Told` allows. -/
def Tells (log : List Entry) (id : StreamId) (a b : H2StreamState) : Prop :=
  a ≠ .reservedRemote → b ≠ .reservedRemote ∧
    ∀ recv, b = .localHalfClosed recv → (∃ recv', a = .localHalfClosed recv') ∨ EndSent id log

theorem Tells.refl (log : List Entry) (id : StreamId) (a : H2StreamState) : Tells log id a a :=
  fun ha => ⟨ha, fun recv h => .inl ⟨recv, h⟩⟩

theorem Tells.closed (log : List Entry) (id : StreamId) (a : H2StreamState)
    (reason : CloseReason) : Tells log id a (.closed reason) :=
  fun _ => ⟨by simp, (fun _ h => nomatch h)⟩

theorem Tells.of_move {a b : H2StreamState} (h : e.move a = some b)
    (hend : e = .sendHeaders true ∨ e = .sendData true → EndSent id log) : Tells log id a b := by
  intro ha
  have hcases : ∀ recv, b = .localHalfClosed recv → a = .reservedRemote ∨
      (∃ recv', a = .localHalfClosed recv') ∨ e = .sendHeaders true ∨ e = .sendData true := by
    rintro recv rfl
    rcases a with _ | ⟨_ | _, _ | _⟩ | _ | ⟨_ | _⟩ | ⟨_ | _⟩ | _ <;>
      rcases e with ⟨_ | _⟩ | ⟨_ | _⟩ | ⟨_ | _⟩ | ⟨_ | _⟩ <;> simp_all [StreamFrame.move]
  have hreserved : b ≠ .reservedRemote := by
    rintro rfl
    rcases a with _ | ⟨_ | _, _ | _⟩ | _ | ⟨_ | _⟩ | ⟨_ | _⟩ | _ <;>
      rcases e with ⟨_ | _⟩ | ⟨_ | _⟩ | ⟨_ | _⟩ | ⟨_ | _⟩ <;> cases h
  refine ⟨hreserved, fun recv hrecv => ?_⟩
  rcases hcases recv hrecv with h | h | h
  · exact absurd h ha
  · exact .inl h
  · exact .inr (hend h)

theorem Conn.Told.of_each (h : c.Told) (hlog : c.log ⊆ c'.log)
    (heach : c.streams.Each (fun id a b => Tells c'.log id a.state b.state) c'.streams) :
    c'.Told := by
  intro id stream hget
  obtain ⟨stream₀, hget₀, htells⟩ := heach.after hget
  obtain ⟨hreserved, hended⟩ := h id stream₀ hget₀
  obtain ⟨hreserved', hended'⟩ := htells hreserved
  refine ⟨hreserved', fun recv hrecv => ?_⟩
  rcases hended' recv hrecv with ⟨recv', hbefore⟩ | hsent
  · obtain ⟨frame, hframe, hrest⟩ := hended recv' hbefore
    exact ⟨frame, hlog hframe, hrest⟩
  · exact hsent

theorem Conn.Told.setStream {s s' : Streams} {phase phase' : Phase} {log log' : List Entry}
    {away away' : Bool} {id : StreamId} {stream stream' : Stream}
    (h : Told ⟨s, phase, log, away⟩) (hlog : log ⊆ log')
    (hget : s.streamMap.lookup id = some stream)
    (hs' : s'.streamMap = (s.setStream id stream').streamMap)
    (hst : Tells log' id stream.state stream'.state) :
    Told ⟨s', phase', log', away'⟩ := by
  refine h.of_each hlog fun j => ?_
  have heach : s.Each (fun j a b => Tells log' j a.state b.state) (s.setStream id stream') := by
    refine (Each.setStream hget).mono fun j a b hab => ?_
    split at hab
    · rename_i hj
      obtain ⟨rfl, rfl⟩ := hab
      rw [hj]
      exact hst
    · rw [hab]
      exact .refl _ _ _
  have hj := heach j
  rwa [← hs'] at hj

theorem Action.told (h : Action R c c') (hsound : c.Sound) (hc : c.Told) : c'.Told := by
  have hsame : ∀ {s s' : Streams} {phase phase' log log' away away'},
      Told ⟨s, phase, log, away⟩ → log ⊆ log' →
      s.Each (fun _ a b => b.state = a.state ∨ b.state.isClosed = true) s' →
      Told ⟨s', phase', log', away'⟩ := by
    intro s s' phase phase' log log' away away' hs hlog heach
    refine hs.of_each hlog (heach.mono fun id a b hab => ?_)
    rcases hab with hab | hab
    · rw [hab]
      exact .refl _ _ _
    · cases hb : b.state with
      | closed reason => exact .closed _ _ _ _
      | _ =>
        rw [hb] at hab
        cases hab
  have hidle : ∀ {s : Streams} {P : Stream → Stream → Prop}, (∀ a, P a a) →
      s.Each (fun _ a b => P a b) s := fun hP => .of_lookup_eq (fun _ => rfl) fun _ a => hP a
  cases h with
  | @opened s log request hid =>
    intro id stream hget
    change (s.accepted request).streamMap.lookup id = some stream at hget
    rcases lookup_accepted hget with ⟨rfl, rfl⟩ | ⟨heq, hget⟩
    · exact ⟨by simp [fresh, Stream.new], (fun _ h => nomatch h)⟩
    · obtain ⟨hreserved, hended⟩ := hc id stream hget
      refine ⟨hreserved, fun recv hrecv => ?_⟩
      obtain ⟨frame, hframe, hrest⟩ := hended recv hrecv
      exact ⟨frame, mem_cons_of_mem _ hframe, hrest⟩
  | @headers s log away id stream header state hget hhdr hmove _ =>
    obtain ⟨hid, parts, hparts⟩ := hsound.stored id stream header hget hhdr
    refine hc.setStream (subset_cons_self _ _) hget rfl (.of_move hmove fun hend => ?_)
    refine ⟨header, (.head _), hid, ?_, by rw [Frame.isPlain, hparts]⟩
    simpa using hend
  | data hget => exact hc.setStream (subset_cons_self _ _) hget rfl (.refl _ _ _)
  | finished hget _ _ _ _ hmove =>
    refine hc.setStream (subset_cons_self _ _) hget rfl (.of_move hmove fun _ => ?_)
    exact ⟨_, (.head _), rfl, isEndStream_one, rfl⟩
  | waited hget => exact hc.setStream (refl _) hget rfl (.refl _ _ _)
  | failed hget => exact hc.setStream (subset_cons_self _ _) hget rfl (.closed _ _ _ _)
  | frameReceived e hreceived hget hmove =>
    refine hc.setStream (refl _) hget rfl (.of_move hmove fun hend => ?_)
    rcases hend with rfl | rfl <;> cases hreceived
  | remoteReset _ _ hget => exact hc.setStream (subset_cons_self _ _) hget rfl (.closed _ _ _ _)
  | localReset told _ hget =>
    refine hc.setStream ?_ hget rfl (.closed _ _ _ _)
    cases told with
    | false => exact refl _
    | true => exact subset_cons_self _ _
  | localResetLate hget => exact hc.setStream (refl _) hget rfl (.closed _ _ _ _)
  | settings _ _ hbound hsettings =>
    refine hsame hc (subset_cons_self _ _)
      ((recvSettings_resized hbound hsound.bounded hsettings).1.each.mono ?_)
    rintro id a b ⟨w, rfl, -⟩
    exact .inl rfl
  | connUpdate => exact hsame hc (subset_cons_self _ _) (hidle fun _ => .inl rfl)
  | streamUpdate _ _ hbound hreassign =>
    refine hsame hc (subset_cons_self _ _)
      ((reassignStreamSendWindow_enlarged hbound hreassign).each.mono fun j a b hab => ?_)
    split at hab
    · obtain ⟨w, rfl, -⟩ := hab
      exact .inl rfl
    · exact .inl (by rw [hab])
  | dataAccepted _ _ _ hconn hstr =>
    refine hsame hc ?_ (((releaseConnRecvWindow_recvOnly hconn).trans
      (releaseStreamRecvWindow_recvOnly hstr)).each.mono ?_)
    · intro entry hent
      simp [hent]
    · rintro id a b ⟨w, rfl⟩
      exact .inl rfl
  | dataRefused _ _ hconn =>
    refine hsame hc ?_ ((releaseConnRecvWindow_recvOnly hconn).each.mono ?_)
    · intro entry hent
      simp [hent]
    · rintro id a b ⟨w, rfl⟩
      exact .inl rfl
  | acknowledged _ hack =>
    refine hsame hc (refl _) ((recvAcknowledged_recvOnly hack).each.mono ?_)
    rintro id a b ⟨w, rfl⟩
    exact .inl rfl
  | wentAway _ hunset =>
    refine hsame hc (refl _)
      ((getUnsetStreams_unset hunset).each.mono fun j a b hab => ?_)
    split at hab
    · exact .inr (by rw [hab]; rfl)
    · exact .inl (by rw [hab])
  | resetIgnored | received | sent =>
    exact hsame hc (subset_cons_self _ _) (hidle fun _ => .inl rfl)
  | stopped => exact hsame hc (subset_append_right _ _) (hidle fun _ => .inl rfl)
  | admitted | taken | skipped | parkedStream | parkedConn =>
    exact hsame hc (refl _) (hidle fun _ => .inl rfl)

/-! ## Runs -/

structure Conn.Waits (c : Conn) : Prop where
  sound : c.Sound
  queued : c.phase ≠ .over → c.Queued
  exhausted : c.phase ≠ .over → c.streams.Exhausted
  told : c.Told

theorem Action.waits (h : Action R c c') (hc : c.Waits) : c'.Waits where
  sound := h.sound hc.sound
  queued hphase := h.queued hc.sound (hc.queued fun hover => hphase (h.over hover)) hphase
  exhausted hphase := by
    have hbefore : c.phase ≠ .over := fun hover => hphase (h.over hover)
    exact h.exhausted hc.sound (hc.queued hbefore) (hc.exhausted hbefore)
  told := h.told hc.sound hc.told

theorem start_waits {config : H2Config} {m : ConnManager}
    (h : start config = .ok m) : m.conn.Waits := by
  obtain ⟨-, -, flow, hstreams, -⟩ := start_streams h
  have hempty : ∀ id, m.streams.streamMap.lookup id = none := by
    rw [hstreams]
    exact fun _ => rfl
  have hqueue : m.conn.queue = [] := by
    rw [queue, conn, hstreams]
    rfl
  refine ⟨start_sound h, fun _ => ⟨?_, fun id hid => ?_, fun id stream hget => ?_⟩,
    fun _ => ⟨fun id hid => ?_, fun hne => ?_⟩, fun id stream hget => ?_⟩
  · rw [hqueue]
    exact nodup_nil
  · rw [hqueue] at hid
    cases hid
  · rw [conn, hempty] at hget
    cases hget
  · rw [conn, hstreams] at hid
    cases hid
  · rw [conn, hstreams] at hne
    exact absurd rfl hne
  · rw [conn, hempty] at hget
    cases hget

namespace ConnManager

variable {config : H2Config}
variable {m : ConnManager}

theorem Reached.waits (h : Reached config m) : Holds anything Waits m :=
  Reached.holds (fun _ => start_waits) (fun _ _ h hc => h.waits hc)
    (fun _ hc => ⟨hc.sound.bounded, hc.sound.stored⟩) h

def UpdatesConn (m : ConnManager) (event : Event) : Prop :=
  ∃ received n, event = .output received ∧ m.state = .receive ∧
    received.frame.payload = .windowUpdate n ∧ received.frame.id = 0

/-- The stream waits for the connection window since a turn that left this window used up, and
no WINDOW_UPDATE of the connection has been received since. -/
inductive ParkedConn (config : H2Config) (id : StreamId) : ConnManager → Prop where
  | parked {m m' env event r} : Reached config m → m.step env event = .ok (m', r) →
      id ∉ m.streams.pendingConnWindow → id ∈ m'.streams.pendingConnWindow →
      m'.streams.flowControl.sendWindow.size.val ≤ 0 → ParkedConn config id m'
  | stays {m m' env event r} : ParkedConn config id m → m.step env event = .ok (m', r) →
      ¬ UpdatesConn m event → id ∈ m'.streams.pendingConnWindow → ParkedConn config id m'

theorem pendingConnWindow_of_updatesConn {m' : ConnManager} {env : Environment} {event : Event}
    {r : Poll (Except DispatchErrorKind Unit)} (hgoing : m.goingAway = none)
    (hupdates : UpdatesConn m event) (h : m.step env event = .ok (m', r))
    (hgoing' : m'.goingAway = none) : m'.streams.pendingConnWindow = [] := by
  obtain ⟨received, n, rfl, hst, hpay, hid⟩ := hupdates
  simp only [step, hst, pollRecvMessage, pollRecvFrame, hpay, recvWindowFrame, hid, if_true,
    increaseConnSendWindow] at h
  cases hflow : m.streams.flowControl.increaseSendSize n with
  | ok flowControl =>
    simp only [hflow] at h
    cases h
    rfl
  | error e =>
    obtain rfl : e = .connectionError .flowControlError := by
      rw [FlowControl.increaseSendSize] at hflow
      split at hflow
      · rename_i hsize
        cases hflow
        exact increaseSize_error hsize
      · cases hflow
    simp only [hflow] at h
    have hsome := manageConnError_goingAway env .flowControlError (m := { m with
      state := .receive, log := .received received.frame :: m.log }) hgoing
    rw [Except.ok.inj (show Except.ok (manageConnError _ env .flowControlError) = _ from h),
      hgoing'] at hsome
    cases hsome

theorem Reached.parkedConn {m : ConnManager} {id : StreamId} (h : Reached config m)
    (hhealthy : m.Healthy) (hid : id ∈ m.streams.pendingConnWindow) : ParkedConn config id m := by
  have hexhausted : ∀ {m}, Reached config m → m.Healthy → m.streams.Exhausted := fun h hhealthy =>
    (h.waits.of_healthy hhealthy).exhausted (by simp [conn])
  induction h with
  | start hstart =>
    obtain ⟨-, -, flow, hstreams, -⟩ := start_streams hstart
    rw [hstreams] at hid
    cases hid
  | @step m m' env event r hm hstep hr ih =>
    have hbefore : m.Healthy := by
      rcases hm.waits with ⟨halive, -⟩ | ⟨hdead, -⟩
      · exact ⟨halive.goingAway, halive.state⟩
      · exact absurd hhealthy (step_dead hdead hstep).1.not_healthy
    by_cases hwaits : id ∈ m.streams.pendingConnWindow
    · by_cases hupdates : UpdatesConn m event
      · rw [pendingConnWindow_of_updatesConn hbefore.goingAway hupdates hstep
          hhealthy.goingAway] at hid
        cases hid
      · exact .stays (ih hbefore hwaits) hstep hupdates hid
    · refine .parked hm hstep hwaits hid ((hexhausted (.step hm hstep hr) hhealthy).conn ?_)
      exact ne_nil_of_mem hid

/-- No stream is lost or queued twice. In every state of a connection without a connection error
a stream that is not closed and has not sent END_STREAM is once in one of the four queues, and
one that waits for a window waits for one that is used up. -/
theorem no_stream_lost {m : ConnManager} (h : Reached config m) (hhealthy : m.Healthy) :
    (∀ id stream, m.streams.streamMap.lookup id = some stream → stream.state.isClosed = false →
      ¬ EndSent id m.log →
      (m.streams.pendingConcurrency ++ m.streams.pendingSend ++ m.streams.pendingStreamWindow ++
        m.streams.pendingConnWindow).count id = 1) ∧
    (∀ id ∈ m.streams.pendingStreamWindow, ∃ stream,
      m.streams.streamMap.lookup id = some stream ∧ stream.sendWindow.size.val ≤ 0) ∧
    (∀ id ∈ m.streams.pendingConnWindow, ParkedConn config id m) := by
  have hwaits := h.waits.of_healthy hhealthy
  have hqueued := hwaits.queued (by simp [conn])
  have hqueue : m.conn.queue = m.streams.pendingConcurrency ++ m.streams.pendingSend ++
      m.streams.pendingStreamWindow ++ m.streams.pendingConnWindow := by
    simp [queue, conn, taken]
  refine ⟨fun id stream hget hopen hend => ?_, fun id hid => ?_, fun id hid =>
    h.parkedConn hhealthy hid⟩
  · have hsending : stream.state.isSending = true := by
      cases hst : stream.state with
      | localHalfClosed recv => exact absurd ((hwaits.told id stream hget).2 recv hst) hend
      | closed reason =>
        rw [hst] at hopen
        cases hopen
      | _ => rfl
    rw [← hqueue]
    exact count_eq_one_of_mem hqueued.nodup (hqueued.sending id stream hget hsending)
  · obtain ⟨stream, hget⟩ := hqueued.known id (by rw [hqueue]; simp [hid])
    exact ⟨stream, hget, (hwaits.exhausted (by simp [conn])).stream id hid stream hget⟩

/-- A stream whose body is not there yet waits in the queue. -/
theorem no_stream_lost_pending :
    ∃ m, Reached plainConfig m ∧ m.Healthy ∧ m.streams.pendingSend = [1] ∧
      (m.streams.pendingConcurrency ++ m.streams.pendingSend ++ m.streams.pendingStreamWindow ++
        m.streams.pendingConnWindow).count 1 = 1 := by
  have hsent := (Reached.start rfl).pending
    (.respPending [plainRequest [.octets [1, 2, 3], .pending]] false) rfl
  exact ⟨_, hsent, ⟨rfl, .inl rfl⟩, rfl,
    (no_stream_lost hsent ⟨rfl, .inl rfl⟩).1 1 _ rfl rfl (by decide)⟩

end ConnManager

end YlongHttp
