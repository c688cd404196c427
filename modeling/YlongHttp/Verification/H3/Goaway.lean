import YlongHttp.Verification.H3.Silence

/-! # GOAWAY on an HTTP/3 connection

The streams that a GOAWAY shuts down send nothing more and are told so once, as long as the ids
of the GOAWAYs do not grow, none of them is the id of a stream, and no stream is told twice or
while it is being encoded. -/

namespace YlongHttp.H3

open List Option H3.Streams
open Library

def goawayNotice : RespMessage := .outputExit .goawayReceived

variable {answer : SendResult}

namespace BidirectionalStream

variable {stream : BidirectionalStream} {channel : ℕ → SendResult}

/-- The stream is shut down and was told so once, or will be. -/
structure Notified (stream : BidirectionalStream) : Prop where
  state : stream.state = .shutdown
  once : stream.handed.count goawayNotice = 1
  waits : goawayNotice ∉ stream.pendingMessage
  orderly : stream.Orderly

theorem sendPending_subset (pending : List RespMessage) (n : ℕ) :
    ∀ message ∈ (sendPending channel pending n stream).1.pendingMessage, message ∈ pending := by
  induction pending generalizing stream n with
  | nil => exact fun _ h => h
  | cons head pending ih =>
    rw [sendPending]
    split
    · exact fun message h => mem_cons_of_mem _ (ih _ message h)
    · exact fun message h => mem_cons_of_mem _ h
    · exact fun message h => mem_cons_of_mem _ h

theorem Notified.pollBlocked (h : stream.Notified) (hopen : ∀ n, channel n ≠ .closed) :
    (stream.pollBlocked channel).1.Notified := by
  obtain ⟨hhanded, hord, -⟩ := pollBlocked_handed h.orderly hopen
  refine ⟨(aside_pollBlocked channel).shutdown h.state, hhanded ▸ h.once, fun hmem => ?_, hord⟩
  refine h.waits ?_
  rw [BidirectionalStream.pollBlocked] at hmem
  split at hmem
  · exact sendPending_subset _ _ _ hmem
  · split at hmem
    · exact sendPending_subset _ _ _ hmem
    · exact sendPending_subset _ _ _ hmem
    · exact hmem

theorem Notified.transmit {message : RespMessage} (h : stream.Notified)
    (hmsg : message ≠ goawayNotice)
    (hplace : answer = .full → stream.currMessage ≠ some goawayNotice) :
    (stream.transmitMessage message answer).Notified := by
  have hmsg' : ¬ message = goawayNotice := hmsg
  have honce := h.once
  cases answer with
  | closed => exact h
  | sent =>
    refine ⟨h.state, ?_, h.waits, h.orderly⟩
    simp only [handed, count_append] at honce
    simp only [transmitMessage, handed, count_append, count_singleton, beq_iff_eq, hmsg', if_false]
    omega
  | full =>
    refine ⟨h.state, ?_, h.waits, fun hnone => by cases hnone⟩
    have hcurr : stream.currMessage.toList.count goawayNotice = 0 := by
      have hplace := hplace rfl
      cases hcurr : stream.currMessage with
      | none => rfl
      | some other =>
        rw [hcurr] at hplace
        refine count_eq_zero.mpr fun hmem => hplace ?_
        rw [mem_singleton.mp hmem]
    simp only [handed, count_append, hcurr] at honce
    simp only [transmitMessage, handed, count_append, toList_some,
      count_singleton, beq_iff_eq, hmsg', if_false]
    omega

theorem Notified.clear (h : stream.Notified) : { stream with pendingMessage := [] }.Notified := by
  have honce := h.once
  refine ⟨h.state, ?_, not_mem_nil, fun _ => rfl⟩
  simp only [handed, count_append, count_eq_zero.mpr h.waits] at honce
  simp only [handed, count_append, count_nil]
  omega

theorem notified_shutdown (hopen : answer ≠ .closed) (hnew : goawayNotice ∉ stream.handed) :
    (stream.shutdown .goawayReceived answer).Notified := by
  simp only [handed, mem_append, not_or] at hnew
  obtain ⟨⟨hsent, hcurr⟩, -⟩ := hnew
  cases answer with
  | closed => exact (hopen rfl).elim
  | sent =>
    refine ⟨rfl, ?_, not_mem_nil, fun _ => rfl⟩
    simp only [shutdown, transmitMessage, handed, count_append,
      count_nil, count_eq_zero.mpr hsent, count_eq_zero.mpr hcurr]
    rfl
  | full =>
    refine ⟨rfl, ?_, not_mem_nil, fun _ => rfl⟩
    simp only [shutdown, transmitMessage, handed, count_append, count_nil, count_eq_zero.mpr hsent]
    rfl

end BidirectionalStream

variable {id : ℕ} {earlier : List ℕ}

namespace Streams

open BidirectionalStream

variable {s s' : Streams} {i : ℕ} {stream : BidirectionalStream}

/-! ## One call -/

def NoticeWaits (s : Streams) (id : ℕ) : Prop :=
  ∃ stream, s.stream? id = some stream ∧ stream.currMessage = some goawayNotice

/-- What a call must not do, after GOAWAYs with the ids in `earlier` and as far as the stream `i`
goes: a GOAWAY must not have a larger id than an earlier one or the id of the stream, or find it
told or encoded; and an error must not find a notice that still waits. -/
def Careful (s : Streams) (i : ℕ) (earlier : List ℕ) : Call → Prop
  | .goaway goawayId _ =>
    QUICStreamType.ofId goawayId = .clientInitialBidirectional →
      (∀ id ∈ earlier, goawayId ≤ id) ∧
      ∀ stream, s.stream? i = some stream → goawayId ≠ i ∧
        (goawayId < i → stream.encoding = false ∧ goawayNotice ∉ stream.handed)
  | .error id _ answer | .streamError id _ answer => id = i → answer = .full → ¬ s.NoticeWaits i
  | .shutdown _ channel => channel i = .full → ¬ s.NoticeWaits i
  | _ => True

theorem pollBlockedStreams_keeps {P : BidirectionalStream → Prop} {channel : ℕ → ℕ → SendResult}
    (hP : ∀ stream, P stream → P (stream.pollBlocked (channel i)).1) (ids newSet : List ℕ)
    (hget : s.stream? i = some stream) (hstr : P stream) :
    ∃ stream', (pollBlockedStreams channel ids newSet s).1.stream? i = some stream' ∧ P stream' := by
  induction ids generalizing s newSet stream with
  | nil => exact ⟨stream, hget, hstr⟩
  | cons id ids ih =>
    rw [pollBlockedStreams]
    split
    · exact ⟨stream, hget, hstr⟩
    · rename_i other hother
      by_cases hid : i = id
      · subst hid
        cases hget.symm.trans hother
        exact ih _ (stream?_setStream_self hother _) (hP stream hstr)
      · exact ih _ ((stream?_setStream_of_ne hid _).trans hget) hstr

/-- The stream `i` was told. -/
def NotifiedAt (s : Streams) (i : ℕ) : Prop := ∃ stream, s.stream? i = some stream ∧ stream.Notified

theorem NotifiedAt.of_eq (h : s.NotifiedAt i) (heq : s'.stream? i = s.stream? i) :
    s'.NotifiedAt i := by
  obtain ⟨stream, hstr, hnotified⟩ := h
  exact ⟨stream, heq.trans hstr, hnotified⟩

theorem NotifiedAt.setStream {id : ℕ} {old new : BidirectionalStream} (h : s.NotifiedAt i)
    (hold : s.stream? id = some old) (hnew : id = i → old.Notified → new.Notified) :
    (s.setStream id new).NotifiedAt i := by
  obtain ⟨stream, hstr, hnotified⟩ := h
  by_cases hid : i = id
  · subst hid
    cases hold.symm.trans hstr
    exact ⟨new, stream?_setStream_self hold new, hnew rfl hnotified⟩
  · exact ⟨stream, (stream?_setStream_of_ne hid new).trans hstr, hnotified⟩

theorem NotifiedAt.sendTo {old new : BidirectionalStream} (h : s.NotifiedAt i)
    (hold : s.stream? id = some old) (hnew : id = i → old.Notified → new.Notified) :
    ((s.setStream id new).pendIfFull id answer).NotifiedAt i :=
  (h.setStream hold hnew).of_eq (stream?_pendIfFull _ _ _ _)

theorem NotifiedAt.shutdownAll {affected : ℕ → Bool} {error : DispatchErrorKind}
    {channel : ℕ → SendResult} (h : s.NotifiedAt i)
    (hnew : affected i = true → ∀ stream, s.stream? i = some stream → stream.Notified →
      (stream.shutdown error (channel i)).Notified) :
    (s.shutdownAll affected error channel).NotifiedAt i := by
  obtain ⟨stream, hstr, hnotified⟩ := h
  have hget := hstr
  rw [stream?] at hget
  refine ⟨_, by rw [stream?, Streams.shutdownAll, lookup_mapVal, hget]; rfl, ?_⟩
  split
  · exact hnew ‹_› stream hstr hnotified
  · exact hnotified

theorem NotifiedAt.fin (h : s.NotifiedAt i) (hcall : s.call (.fin id answer) = some s') :
    s'.NotifiedAt i := by
  simp only [call, finishStream] at hcall
  split at hcall
  · cases hcall
  · rename_i s₁ result hres heq
    cases hcall
    split at heq
    · split at heq <;> exact (Prod.mk.inj heq).1 ▸ h
    · split at heq
      · exact (Prod.mk.inj heq).1 ▸ h
      · rename_i s₂ hless
        have hsame : s₂.NotifiedAt i := by
          rw [decreaseCurrentConcurrency] at hless
          split at hless
          · cases hless
          · exact some.inj hless ▸ h.of_eq rfl
        split at heq
        · exact (Prod.mk.inj heq).1 ▸ hsame
        · rename_i stream hstr
          have hshut : stream.Notified → { stream with state := .shutdown }.Notified :=
            fun hnotified => ⟨rfl, hnotified.once, hnotified.waits, hnotified.orderly⟩
          split at heq
          · rename_i hnone
            obtain ⟨rfl, -⟩ := Prod.mk.inj heq
            refine hsame.sendTo hstr fun _ hnotified => ?_
            refine (hshut hnotified).transmit (by simp [goawayNotice]) fun _ hcurr => ?_
            dsimp only at hnone hcurr
            rw [hcurr] at hnone
            cases hnone
          · rename_i hsome
            obtain ⟨rfl, -⟩ := Prod.mk.inj heq
            refine hsame.setStream hstr fun _ hnotified => ⟨rfl, ?_, ?_, ?_⟩
            · have honce := hnotified.once
              simp only [handed, count_append, count_singleton] at honce ⊢
              simpa [goawayNotice, Nat.add_assoc] using honce
            · simpa [goawayNotice] using hnotified.waits
            · intro hnone
              dsimp only at hnone hsome
              rw [hnone] at hsome
              exact (hsome rfl).elim

theorem NotifiedAt.call {c : Call} (h : s.NotifiedAt i) (hcareful : s.Careful i earlier c)
    (hfresh : s.Fresh c) (hopen : Open i c) (houter : c.outer = true) (hcall : s.call c = some s') :
    s'.NotifiedAt i := by
  cases c with
  | request header data =>
    cases hcall
    obtain ⟨stream, hstr, hnotified⟩ := h
    have hne : i ≠ s.nextBidiStreamId := fun heq => hfresh (heq ▸ mem_ids.mpr (by simp [hstr]))
    exact ⟨stream, (stream?_newUnidirectionalStream hne).trans hstr, hnotified⟩
  | admission | next | sendLater | takeHeader | setEncoding | readBody => cases houter
  | frame id frame answer =>
    cases hcall
    rw [sendFrame]
    split
    · exact h
    · rename_i stream hstr
      split
      · exact h
      · split
        · exact h
        · rename_i hshut
          split
          · exact h.setStream hstr fun _ hnotified => (hshut hnotified.state).elim
          · exact h.sendTo hstr fun _ hnotified => (hshut hnotified.state).elim
  | error id error answer =>
    cases hcall
    have hmsg : RespMessage.outputExit error ≠ goawayNotice := by
      rintro ⟨⟩
      cases houter
    rw [sendError]
    split
    · exact h
    · rename_i stream hstr
      exact h.sendTo hstr fun hid hnotified => hnotified.clear.transmit hmsg
        fun hfull hcurr => hcareful hid hfull ⟨stream, hid ▸ hstr, hcurr⟩
  | fin id answer => exact h.fin hcall
  | streamError id err answer =>
    simp only [Streams.call, shutdownStream] at hcall
    split at hcall
    · exact some.inj hcall ▸ h
    · rename_i stream hstr
      have hsent : ((s.setStream id (stream.transmitMessage
          (.outputExit (.h3 (.stream id err))) answer)).pendIfFull id answer).NotifiedAt i :=
        h.sendTo hstr fun hid hnotified => hnotified.transmit (by simp [goawayNotice])
          fun hfull hcurr => hcareful hid hfull ⟨stream, hid ▸ hstr, hcurr⟩
      rw [decreaseCurrentConcurrency] at hcall
      split at hcall
      · cases hcall
      · exact some.inj hcall ▸ hsent.of_eq rfl
  | goaway goawayId channel =>
    cases hcall
    rw [goaway]
    split
    · exact h
    · split
      · exact h
      · rename_i hbidi
        rw [ne_eq, not_not] at hbidi
        obtain ⟨-, hnew⟩ := hcareful hbidi
        have hset : { s with goawayId := some goawayId }.NotifiedAt i := h.of_eq rfl
        refine hset.shutdownAll fun habove stream hstr hnotified => ?_
        have hnone := ((hnew stream hstr).2 (by simpa using habove)).2
        rw [← count_eq_zero, hnotified.once] at hnone
        cases hnone
  | shutdown err channel =>
    cases hcall
    have hmsg : RespMessage.outputExit err ≠ goawayNotice := by
      rintro ⟨⟩
      cases houter
    refine h.shutdownAll fun _ stream hstr hnotified => ?_
    have hclear : { stream with
        state := .shutdown, header := none, pendingMessage := [],
        data := stream.data.clear }.Notified := by
      obtain ⟨-, honce, hwaits, hord⟩ := hnotified.clear
      exact ⟨rfl, honce, hwaits, hord⟩
    exact hclear.transmit hmsg fun hfull hcurr => hcareful hfull ⟨stream, hstr, hcurr⟩
  | deliver hash channel =>
    cases hcall
    obtain ⟨stream, hstr, hnotified⟩ := h
    have hloop := pollBlockedStreams_keeps (P := Notified)
      (fun stream hnotified => hnotified.pollBlocked hopen) (hash.order s.pendingChannel) []
      hstr hnotified
    rw [pollBlockedMessage]
    cases hres : pollBlockedStreams channel (hash.order s.pendingChannel) [] s with
    | mk s₁ result =>
      rw [hres] at hloop
      cases result <;> exact hloop
  | pendRecv id | resumeRecv id | nextResume => exact some.inj hcall ▸ h.of_eq rfl
  | peerControl id =>
    cases hcall
    rw [setPeerControlStreamId]
    split <;> exact h.of_eq rfl
  | peerQpackEncode id =>
    cases hcall
    rw [setPeerQpackEncodeStreamId]
    split <;> exact h.of_eq rfl
  | peerQpackDecode id =>
    cases hcall
    rw [setPeerQpackDecodeStreamId]
    split <;> exact h.of_eq rfl

/-! ## The QPACK stream -/

theorem qpackEncodeStreamId_call {c : Call} (hcall : s.call c = some s') :
    s'.qpackEncodeStreamId = s.qpackEncodeStreamId := by
  have hpend : ∀ (s : Streams) id answer,
      (s.pendIfFull id answer).qpackEncodeStreamId = s.qpackEncodeStreamId := by
    intro s id answer
    cases answer <;> rfl
  have hless : ∀ {s s' : Streams}, s.decreaseCurrentConcurrency = some s' →
      s'.qpackEncodeStreamId = s.qpackEncodeStreamId := by
    intro s s' h
    rw [decreaseCurrentConcurrency] at h
    split at h
    · cases h
    · exact some.inj h ▸ rfl
  cases c with
  | request header data =>
    cases hcall
    simp only [newUnidirectionalStream, getNextBidiStreamId]
    split
    · rename_i heq
      exact (Prod.mk.inj heq).1 ▸ rfl
    · rename_i heq
      obtain ⟨rfl, -⟩ := Prod.mk.inj heq
      split <;> rfl
  | admission =>
    cases hcall
    exact qpackEncodeStreamId_consumePendingConcurrency s _
  | takeHeader id =>
    cases hcall
    exact qpackEncodeStreamId_getHeader s id
  | setEncoding id encoding =>
    cases hcall
    exact qpackEncodeStreamId_setEncoding s id encoding
  | readBody id len =>
    cases hcall
    exact qpackEncodeStreamId_pollSizedData s id len
  | frame id frame answer =>
    cases hcall
    rw [sendFrame]
    split
    · rfl
    · split
      · rfl
      · split
        · rfl
        · split
          · rfl
          · exact hpend _ _ _
  | error id error answer =>
    cases hcall
    rw [sendError]
    split
    · rfl
    · exact hpend _ _ _
  | fin id answer =>
    simp only [call, finishStream] at hcall
    split at hcall
    · cases hcall
    · rename_i heq
      cases hcall
      split at heq
      · split at heq <;> exact (Prod.mk.inj heq).1 ▸ rfl
      · split at heq
        · exact (Prod.mk.inj heq).1 ▸ rfl
        · rename_i hdecrease
          rw [← hless hdecrease]
          split at heq
          · exact (Prod.mk.inj heq).1 ▸ rfl
          · split at heq
            · exact (Prod.mk.inj heq).1 ▸ hpend _ _ _
            · exact (Prod.mk.inj heq).1 ▸ rfl
  | streamError id err answer =>
    simp only [call, shutdownStream] at hcall
    split at hcall
    · exact some.inj hcall ▸ rfl
    · exact (hless hcall).trans (hpend _ _ _)
  | goaway goawayId channel =>
    cases hcall
    rw [goaway]
    split
    · rfl
    · split <;> rfl
  | deliver hash channel =>
    cases hcall
    have hloop : ∀ (ids newSet : List ℕ) (s : Streams),
        (pollBlockedStreams channel ids newSet s).1.qpackEncodeStreamId =
          s.qpackEncodeStreamId := by
      intro ids
      induction ids with
      | nil => exact fun _ _ => rfl
      | cons id ids ih =>
        intro newSet s
        rw [pollBlockedStreams]
        split
        · rfl
        · exact ih _ _
    have hsame := hloop (hash.order s.pendingChannel) [] s
    rw [pollBlockedMessage]
    cases hres : pollBlockedStreams channel (hash.order s.pendingChannel) [] s with
    | mk s₁ result =>
      rw [hres] at hsame
      cases result <;> exact hsame
  | peerControl id =>
    cases hcall
    rw [setPeerControlStreamId]
    split <;> rfl
  | peerQpackEncode id =>
    cases hcall
    rw [setPeerQpackEncodeStreamId]
    split <;> rfl
  | peerQpackDecode id =>
    cases hcall
    rw [setPeerQpackDecodeStreamId]
    split <;> rfl
  | next | sendLater id | shutdown err channel | pendRecv id | resumeRecv id | nextResume =>
    exact some.inj hcall ▸ rfl

end Streams

namespace StreamManager

open BidirectionalStream

variable {m m' : StreamManager} {i : ℕ}

/-! ## The start of a connection -/

/-- The ids of unidirectional streams are those of the client. -/
structure Numbered (s : Streams) : Prop where
  next : s.nextUniStreamId % 4 = 2
  qpack : ∀ id, s.qpackEncodeStreamId = some id → id % 4 = 2

theorem Numbered.getNextUniStreamId {s : Streams} (h : Numbered s) :
    Numbered s.getNextUniStreamId.1 ∧ ∀ id, s.getNextUniStreamId.2 = some id → id % 4 = 2 := by
  have hnext := h.next
  refine ⟨⟨?_, h.qpack⟩, fun id hid => ?_⟩
  · change (s.nextUniStreamId + 4) % 2 ^ 64 % 4 = 2
    omega
  · simp only [Streams.getNextUniStreamId] at hid
    split at hid
    · cases hid
    · exact some.inj hid ▸ hnext

theorem opened_init {quic : Quic} {fuel : ℕ} {settings : Settings}
    (hinit : init quic fuel settings .new = .ok () m) :
    ∃ q, Opened q m ∧ q % 4 = 2 := by
  have hsend : ∀ {P : Streams → Prop} id octets,
      Keeps (fun m : StreamManager => P m.streams) (streamSend quic id id octets false) :=
    fun id octets => keeps_streamSend (fun _ hm => hm) fun hm => hm
  have hsettings : ∀ id fuel, Keeps (fun m : StreamManager => Numbered m.streams)
      (sendSettingsLoop quic id fuel) := by
    intro id fuel
    induction fuel with
    | zero => exact .throw _
    | succ fuel ih =>
      refine .bind ?_ fun _ => .ite (.pure _) ?_
      · exact .bind (fun m hm => hm) fun _ => keeps_onEncoder fun _ hm => hm
      exact .bind (hsend _ _) fun _ => ih
  have hcontrol : Keeps (fun m : StreamManager => Numbered m.streams) controlStreamId := by
    refine keeps_onStreams fun m hm => ?_
    split
    · exact hm
    · have hnext := hm.getNextUniStreamId.1
      split <;> rename_i heq <;> rw [heq] at hnext
      · exact hnext
      · exact ⟨hnext.next, hnext.qpack⟩
  have hencode : Triple (fun m : StreamManager => Numbered m.streams) qpackEncodeStreamId
      (fun _ m => ∃ q, Opened q m ∧ q % 4 = 2) (fun _ _ => True) := by
    intro m hm
    have hnext := hm.getNextUniStreamId
    rw [qpackEncodeStreamId, onStreams]
    cases hid : m.streams.qpackEncodeStreamId with
    | some id => exact ⟨id, hid, hm.qpack id hid⟩
    | none =>
      dsimp only
      rcases hres : m.streams.getNextUniStreamId with ⟨streams, _ | id⟩
      · trivial
      · rw [hres] at hnext
        exact ⟨id, rfl, hnext.2 id rfl⟩
  have hdec : Keeps (fun m => ∃ q, Opened q m ∧ q % 4 = 2) qpackDecodeStreamId := by
    refine keeps_onStreams fun m hm => ?_
    obtain ⟨q, hq, hmod⟩ := hm
    refine ⟨q, ?_, hmod⟩
    split
    · exact hq
    · split <;> rename_i heq
      · exact (Prod.mk.inj heq).1 ▸ hq
      · obtain ⟨rfl, -⟩ := Prod.mk.inj heq
        exact hq
  have hlast : ∀ id, Keeps (fun m => ∃ q, Opened q m ∧ q % 4 = 2) (do
      streamSend quic id id [0x2] false
      let decodeId ← qpackDecodeStreamId
      streamSend quic decodeId decodeId [0x3] false) := by
    have hsend : ∀ id octets, Keeps (fun m => ∃ q, Opened q m ∧ q % 4 = 2)
        (streamSend quic id id octets false) :=
      fun id octets => keeps_streamSend (fun _ hm => hm) fun hm => hm
    exact fun id => .bind (hsend _ _) fun _ => .bind hdec fun _ => hsend _ _
  have htrue : ∀ {α : Type} {P : StreamManager → Prop} {p : ManagerM α}, Keeps P p →
      Triple P p (fun _ => P) fun _ _ => True :=
    fun h => h.weaken (fun _ h => h) (fun _ _ h => h) fun _ _ _ => trivial
  have hwhole : Triple (fun m : StreamManager => Numbered m.streams)
      (init quic fuel settings) (fun _ m => ∃ q, Opened q m ∧ q % 4 = 2)
      (fun _ _ => True) :=
    Triple.bind (htrue hcontrol) fun controlId =>
      Triple.bind (htrue (hsend _ _)) fun _ =>
      Triple.bind (htrue (keeps_onEncoder fun _ hm => hm)) fun _ =>
      Triple.bind (htrue (hsettings _ _)) fun _ =>
      Triple.bind hencode fun encodeId => htrue (hlast encodeId)
  have hend := hwhole .new ⟨rfl, fun id hid => by cases hid⟩
  rw [hinit] at hend
  exact hend

/-! ## Runs -/

/-- The id of a GOAWAY frame that is received. -/
def heard : Action → List ℕ
  | .call (.goaway goawayId _) _ => [goawayId]
  | _ => []

def Careful (i : ℕ) (m : StreamManager) (earlier : List ℕ) : Action → Prop
  | .call c _ => m.streams.Careful i earlier c ∧ m.streams.Fresh c
  | _ => True

/-- Every action of the run is `Careful`. -/
def AllCareful (i : ℕ) : StreamManager → List ℕ → List Action → Prop
  | _, _, [] => True
  | m, earlier, a :: as =>
    Careful i m earlier a ∧ ∀ m', m.step a = some m' → AllCareful i m' (earlier ++ heard a) as

def Open (i : ℕ) : Action → Prop
  | .call c _ => Streams.Open i c
  | _ => True

theorem AllCareful.append {earlier : List ℕ} {as as' : List Action}
    (h : AllCareful i m earlier (as ++ as')) (hsteps : m.steps as = some m') :
    AllCareful i m earlier as ∧ AllCareful i m' (earlier ++ as.flatMap heard) as' := by
  induction as generalizing m earlier with
  | nil =>
    cases hsteps
    rw [flatMap_nil, append_nil]
    exact ⟨trivial, h⟩
  | cons a as ih =>
    obtain ⟨m₁, hstep, hsteps⟩ := bind_eq_some_iff.mp hsteps
    rw [cons_append] at h
    obtain ⟨-, hlast⟩ := ih (h.2 m₁ hstep) hsteps
    refine ⟨⟨h.1, fun m₂ hstep₂ => ?_⟩, ?_⟩
    · cases hstep.symm.trans hstep₂
      exact (ih (h.2 m₁ hstep) hsteps).1
    · rwa [flatMap_cons, ← append_assoc]

theorem lookup_finishStream {encoder : FrameEncoder} {e : EncodedH3Stream}
    (h : (encoder.finishStream id).1.streams.lookup i = some e) :
    encoder.streams.lookup i = some e := by
  rw [FrameEncoder.finishStream] at h
  split at h
  · exact h
  · by_cases hid : i = id
    · subst hid
      rw [AList.lookup_erase] at h
      cases h
    · rwa [AList.lookup_erase_ne hid] at h

theorem step_cases {a : Action} (h : m.step a = some m') :
    (∃ quic fuel, a = .input quic fuel) ∨
      (∃ c houter streams, a = .call c houter ∧ m.streams.call c = some streams ∧
        m' = { m with streams }) ∨
      ∃ encoder, m' = { m with encoder } ∧ ∀ {id e}, encoder.streams.lookup id = some e →
        m.encoder.streams.lookup id = some e := by
  cases a with
  | input quic fuel => exact .inl ⟨quic, fuel, rfl⟩
  | call c houter =>
    obtain ⟨streams, hcall, rfl⟩ := map_eq_some_iff.mp h
    exact .inr (.inl ⟨c, houter, streams, rfl, hcall, rfl⟩)
  | decodeRemoteInst order inst =>
    rw [step] at h
    split at h
    · cases h
    · rename_i heq
      obtain ⟨rfl, -⟩ := Prod.mk.inj heq
      exact .inr (.inr ⟨_, (some.inj h).symm, fun he => he⟩)
  | setMaxTableCapacity maxCap =>
    refine .inr (.inr ⟨_, (some.inj h).symm, fun he => ?_⟩)
    rw [FrameEncoder.setMaxTableCapacity] at he
    split at he <;> exact he
  | setMaxBlockedStreamSize maxBlocked => exact .inr (.inr ⟨_, (some.inj h).symm, fun he => he⟩)
  | finishEncoding id => exact .inr (.inr ⟨_, (some.inj h).symm, fun he => lookup_finishStream he⟩)

/-! ## A stream that was shut down -/

/-- The stream `i` sends nothing more: it is silent, and what was sent on it is `log`. -/
structure Quieted (i q : ℕ) (log : List Sent) (m : StreamManager) : Prop where
  stream : ∃ stream, m.streams.stream? i = some stream ∧ Silent stream
  log : m.sent.filter (·.id = i) = log
  opened : Opened q m

variable {q : ℕ} {log : List Sent}

theorem Opened.step {a : Action} (h : Opened q m) (hstep : m.step a = some m') : Opened q m' := by
  obtain ⟨quic, fuel, rfl⟩ | ⟨c, houter, streams, -, hcall, rfl⟩ | ⟨encoder, rfl, -⟩ :=
    step_cases hstep
  · exact step_input (kept_opened.pollInputRequest fun id hid => (hid trivial).elim) h hstep
  · exact (qpackEncodeStreamId_call hcall).trans h
  · exact h

variable {as : List Action}

theorem Opened.steps (h : Opened q m) (hsteps : m.steps as = some m') : Opened q m' := by
  induction as generalizing m with
  | nil => exact some.inj hsteps ▸ h
  | cons a as ih =>
    obtain ⟨m₁, hstep, hsteps⟩ := bind_eq_some_iff.mp hsteps
    exact ih (h.step hstep) hsteps

theorem Quieted.step {a : Action} {earlier : List ℕ} (h : Quieted i q log m) (hq : q ≠ i)
    (hcareful : Careful i m earlier a) (hstep : m.step a = some m') : Quieted i q log m' := by
  have hopened := h.opened.step hstep
  obtain ⟨stream, hstr, hsilent⟩ := h.stream
  obtain ⟨quic, fuel, rfl⟩ | ⟨c, houter, streams, rfl, hcall, rfl⟩ | ⟨encoder, rfl, -⟩ :=
    step_cases hstep
  · have hleaves := step_input (keeps_pollInputRequest hq hsilent) ⟨hstr, h.log, h.opened⟩ hstep
    exact ⟨⟨stream, hleaves.stream, hsilent⟩, hleaves.log, hopened⟩
  · have hlasts := lasts_call hcareful.2 hcall (by
      rintro id encoding rfl
      cases houter)
    obtain ⟨stream', hstr', hlater⟩ := hlasts i stream hstr
    exact ⟨⟨stream', hstr', hlater.shutdown hsilent.state, hlater.header hsilent.header,
      hlater.encoding.trans hsilent.encoding⟩, h.log, hopened⟩
  · exact ⟨⟨stream, hstr, hsilent⟩, h.log, hopened⟩

theorem notifiedAt_step {a : Action} (h : Quieted i q log m) (hq : q ≠ i)
    (hnotified : m.streams.NotifiedAt i) (hcareful : Careful i m earlier a) (hopen : Open i a)
    (hstep : m.step a = some m') : m'.streams.NotifiedAt i := by
  obtain ⟨stream, hstr, hsilent⟩ := h.stream
  obtain ⟨quic, fuel, rfl⟩ | ⟨c, houter, streams, rfl, hcall, rfl⟩ | ⟨encoder, rfl, -⟩ :=
    step_cases hstep
  · have hleaves := step_input (keeps_pollInputRequest hq hsilent) ⟨hstr, h.log, h.opened⟩ hstep
    exact hnotified.of_eq (hleaves.stream.trans hstr.symm)
  · exact hnotified.call hcareful.1 hcareful.2 hopen houter hcall
  · exact hnotified

theorem Quieted.steps (h : Quieted i q log m) (hq : q ≠ i) (hcareful : AllCareful i m earlier as)
    (hsteps : m.steps as = some m') :
    Quieted i q log m' ∧
      (m.streams.NotifiedAt i → (∀ a ∈ as, Open i a) → m'.streams.NotifiedAt i) := by
  induction as generalizing m earlier with
  | nil =>
    cases hsteps
    exact ⟨h, fun hnotified _ => hnotified⟩
  | cons a as ih =>
    obtain ⟨m₁, hstep, hsteps⟩ := bind_eq_some_iff.mp hsteps
    obtain ⟨hquieted, hrest⟩ := ih (h.step hq hcareful.1 hstep) (hcareful.2 m₁ hstep) hsteps
    refine ⟨hquieted, fun hnotified hopen => hrest ?_ fun a ha => hopen a (.tail _ ha)⟩
    exact notifiedAt_step h hq hnotified hcareful.1 (hopen a (.head _)) hstep

/-- In a run whose actions are careful with the stream `i`, a GOAWAY whose id is larger than that
of an earlier one is a connection error; one that is accepted leaves the stream alone if its id
is smaller, and otherwise shuts it down: it is told so once and sends nothing more. -/
theorem goaway_takes_effect {quic : Quic} {fuel goawayId : ℕ} {settings : Settings}
    {m₀ m₁ : StreamManager} {before after : List Action} {channel : ℕ → SendResult}
    {stream : BidirectionalStream}
    (hinit : StreamManager.init quic fuel settings .new = .ok () m₀)
    (hcareful : AllCareful i m₀ [] (before ++ .call (.goaway goawayId channel) rfl :: after))
    (hbefore : m₀.steps before = some m)
    (hgoaway : m.step (.call (.goaway goawayId channel) rfl) = some m₁)
    (hafter : m₁.steps after = some m') (hstream : m.streams.stream? i = some stream)
    (hrequest : QUICStreamType.ofId i = .clientInitialBidirectional) :
    ((∃ id ∈ before.flatMap heard, id < goawayId) →
      (m.streams.goaway goawayId channel).2 = .error (connectionError .h3IdError)) ∧
    ((m.streams.goaway goawayId channel).2 = .ok () →
      (i < goawayId → m₁.streams.stream? i = some stream) ∧
      (goawayId ≤ i →
        (∃ stream', m'.streams.stream? i = some stream' ∧ stream'.state = .shutdown ∧
          (channel i ≠ .closed → (∀ a ∈ after, Open i a) → stream'.handed.count goawayNotice = 1)) ∧
        m'.sent.filter (·.id = i) = m.sent.filter (·.id = i))) := by
  obtain ⟨q, hopened₀, hmod⟩ := opened_init hinit
  have hq : q ≠ i := by
    rintro rfl
    rw [QUICStreamType.ofId, hmod] at hrequest
    cases hrequest
  obtain ⟨-, hcareful⟩ := hcareful.append hbefore
  obtain ⟨⟨hgoawayCareful, -⟩, hrest⟩ := hcareful
  have hopened := hopened₀.steps hbefore
  obtain rfl := some.inj hgoaway
  rw [nil_append] at hgoawayCareful
  by_cases hbidi : QUICStreamType.ofId goawayId = .clientInitialBidirectional
  · obtain ⟨hfalls, hnew⟩ := hgoawayCareful hbidi
    obtain ⟨hne, hnew⟩ := hnew stream hstream
    refine ⟨?_, fun hok => ?_⟩
    · rintro ⟨id, hid, hlt⟩
      exact absurd (hfalls id hid) (Nat.not_le.mpr hlt)
    · -- The GOAWAY is accepted, so it goes over the streams.
      have hres : (m.streams.goaway goawayId channel).1 =
          { m.streams with goawayId := some goawayId }.shutdownAll (fun id => id > goawayId)
            .goawayReceived channel := by
        rw [goaway] at hok ⊢
        split at hok
        · cases hok
        · rename_i hpeer
          rw [if_neg hpeer, if_neg (not_not.mpr hbidi)]
      have hget := hstream
      rw [stream?] at hget
      have hafterGoaway : (m.streams.goaway goawayId channel).1.stream? i =
          some (if i > goawayId then stream.shutdown .goawayReceived (channel i) else stream) := by
        rw [hres, stream?, shutdownAll, lookup_mapVal, hget]
        simp only [map_some, decide_eq_true_eq]
      refine ⟨fun hlt => ?_, fun hle => ?_⟩
      · rw [if_neg (by omega)] at hafterGoaway
        exact hafterGoaway
      · have hlt : goawayId < i := by omega
        rw [if_pos hlt] at hafterGoaway
        obtain ⟨henc, hnotice⟩ := hnew hlt
        have hsilent : Silent (stream.shutdown .goawayReceived (channel i)) := by
          cases channel i <;> exact ⟨rfl, rfl, henc⟩
        have hquieted : Quieted i q (m.sent.filter (·.id = i))
            { m with streams := (m.streams.goaway goawayId channel).1 } :=
          ⟨⟨_, hafterGoaway, hsilent⟩, rfl, hopened.step hgoaway⟩
        obtain ⟨⟨⟨stream', hstream', hsilent'⟩, hlog, -⟩, htold⟩ :=
          hquieted.steps hq (hrest _ hgoaway) hafter
        refine ⟨⟨stream', hstream', hsilent'.state, fun hchan hopen => ?_⟩, hlog⟩
        obtain ⟨stream'', hstream'', hnotified⟩ := htold
          ⟨_, hafterGoaway, notified_shutdown hchan hnotice⟩ hopen
        obtain rfl := some.inj (hstream'.symm.trans hstream'')
        exact hnotified.once
  · have herror : (m.streams.goaway goawayId channel).2 = .error (connectionError .h3IdError) := by
      rw [goaway, if_pos hbidi]
      split <;> rfl
    exact ⟨fun _ => herror, fun hok => by rw [herror] at hok; cases hok⟩

def openQuic : Quic where
  writable _ := .ok true
  capacity _ := .ok 65535
  send _ := .ok ()

def opened : StreamManager :=
  match init openQuic 8 .default .new with
  | .ok _ m | .error _ m => m

theorem init_opened : init openQuic 8 .default .new = .ok () opened := by
  have hok : (match init openQuic 8 .default .new with
      | .ok _ _ => true
      | .error _ _ => false) = true := by decide +kernel
  rw [opened]
  cases hinit : init openQuic 8 .default .new with
  | ok _ m => rfl
  | error e m => rw [hinit] at hok; cases hok

/-- Two requests; a GOAWAY with the id of the first shuts down the second. -/
theorem goaway_takes_effect_second : ∃ (m' : StreamManager) (stream' : BidirectionalStream),
    m'.streams.stream? 4 = some stream' ∧ stream'.state = .shutdown ∧
      stream'.handed.count goawayNotice = 1 := by
  have hruns : (if opened.streams.nextBidiStreamId ∉ opened.streams.ids then
      (opened.step (.call plainRequest rfl)).bind fun first =>
        if first.streams.nextBidiStreamId ∉ first.streams.ids then
          (first.step (.call plainRequest rfl)).bind fun m =>
            (m.step (.call (.goaway 0 fun _ => .sent) rfl)).bind fun _ =>
              (m.streams.stream? 4).map fun stream => (stream.encoding,
                decide (goawayNotice ∈ stream.handed), (m.streams.goaway 0 fun _ => .sent).2)
        else none
      else none) = some (false, false, .ok ()) := by
    decide +kernel
  split at hruns
  · next hopened =>
      obtain ⟨first, hfirst, hruns⟩ := bind_eq_some_iff.mp hruns
      split at hruns
      · next hsec =>
          obtain ⟨m, hm, hruns⟩ := bind_eq_some_iff.mp hruns
          obtain ⟨m₁, hgoaway, hruns⟩ := bind_eq_some_iff.mp hruns
          obtain ⟨stream, hstr, hres⟩ := map_eq_some_iff.mp hruns
          simp only [Prod.mk.injEq, decide_eq_false_iff_not] at hres
          obtain ⟨henc, hnotice, hok⟩ := hres
          have hbefore : opened.steps [.call plainRequest rfl, .call plainRequest rfl] = some m := by
            simp [steps, hfirst, hm]
          have hcareful : AllCareful 4 opened [] ([.call plainRequest rfl, .call plainRequest rfl] ++
              .call (.goaway 0 fun _ => .sent) rfl :: []) := by
            refine ⟨⟨trivial, hopened⟩, fun next hnext => ?_⟩
            cases hfirst.symm.trans hnext
            refine ⟨⟨trivial, hsec⟩, fun next hnext => ?_⟩
            cases hm.symm.trans hnext
            refine ⟨⟨fun _ => ⟨by decide, fun other hother => ?_⟩, trivial⟩, fun _ _ => trivial⟩
            cases hstr.symm.trans hother
            exact ⟨by decide, fun _ => ⟨henc, hnotice⟩⟩
          have htake := goaway_takes_effect init_opened hcareful hbefore hgoaway rfl hstr rfl
          obtain ⟨⟨stream', hstr', hst, htold⟩, -⟩ := (htake.2 hok).2 (by decide)
          exact ⟨m₁, stream', hstr', hst, htold (by decide) (by simp)⟩
      · cases hruns
  · cases hruns

/-- The stream with the id of the GOAWAY is not shut down, and a larger id is accepted. -/
theorem goaway_leaves_its_own : ∃ s stream,
    Streams.new.calls [plainRequest, .goaway 0 fun _ => .sent] = some s ∧
    s.stream? 0 = some stream ∧ stream.state ≠ .shutdown ∧ stream.handed = [] ∧
    (s.goaway 4 fun _ => .sent).2 = .ok () :=
  ⟨_, _, rfl, rfl, by decide, rfl, rfl⟩

end StreamManager

end YlongHttp.H3
