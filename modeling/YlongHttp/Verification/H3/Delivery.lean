import YlongHttp.Verification.H3.Lasting

/-! # The order of the messages of a response

What was put into the channel of a stream, the message that waits for room and those behind it
are together what the stream was handed, in this order. -/

namespace YlongHttp.H3

open List Option
open Library

namespace BidirectionalStream

variable {stream : BidirectionalStream} {channel : ℕ → SendResult}
variable {message : RespMessage} {answer : SendResult}

def handed (stream : BidirectionalStream) : List RespMessage :=
  stream.frameTx ++ stream.currMessage.toList ++ stream.pendingMessage

def Orderly (stream : BidirectionalStream) : Prop :=
  stream.currMessage = none → stream.pendingMessage = []

theorem handed_of_none (hcurr : stream.currMessage = none) (hpend : stream.pendingMessage = []) :
    stream.handed = stream.frameTx := by
  simp [handed, hcurr, hpend]

theorem transmitMessage_handed (hcurr : stream.currMessage = none)
    (hpend : stream.pendingMessage = []) (hopen : answer ≠ .closed) :
    (stream.transmitMessage message answer).handed = stream.handed ++ [message] := by
  cases answer with
  | closed => exact (hopen rfl).elim
  | sent | full => simp [transmitMessage, handed, hcurr, hpend]

theorem transmitMessage_orderly (hpend : stream.pendingMessage = []) :
    (stream.transmitMessage message answer).Orderly := by
  intro _
  cases answer <;> exact hpend

theorem transmitMessage_waits (hcurr : stream.currMessage = none) :
    (stream.transmitMessage message answer).currMessage.isSome → answer = .full := by
  cases answer with
  | full => exact fun _ => rfl
  | sent | closed => simp [transmitMessage, hcurr]

/-! ## A poll of a blocked stream -/

theorem sendPending_handed {pending : List RespMessage} {n : ℕ}
    (hcurr : stream.currMessage = none) (hopen : ∀ n, channel n ≠ .closed) :
    (sendPending channel pending n stream).1.handed = stream.frameTx ++ pending ∧
      (sendPending channel pending n stream).1.Orderly ∧
      ((sendPending channel pending n stream).1.currMessage.isSome →
        (sendPending channel pending n stream).2 = true) := by
  induction pending generalizing n stream with
  | nil => simp [sendPending, handed, Orderly, hcurr]
  | cons message pending ih =>
    rw [sendPending]
    cases hanswer : channel n with
    | closed => exact (hopen n hanswer).elim
    | sent =>
      obtain ⟨hhanded, hrest⟩ := @ih { stream with frameTx := stream.frameTx ++ [message] }
        (n + 1) hcurr
      refine ⟨hhanded.trans ?_, hrest⟩
      rw [append_assoc]
      rfl
    | full => simp [transmitMessage, handed, Orderly]

theorem pollBlocked_handed (hord : stream.Orderly) (hopen : ∀ n, channel n ≠ .closed) :
    (stream.pollBlocked channel).1.handed = stream.handed ∧
      (stream.pollBlocked channel).1.Orderly ∧
      ((stream.pollBlocked channel).1.currMessage.isSome →
        (stream.pollBlocked channel).2 = true) := by
  rw [pollBlocked]
  cases hcurr : stream.currMessage with
  | none =>
    have hpoll := @sendPending_handed stream channel stream.pendingMessage 0 hcurr hopen
    simpa [handed, hcurr] using hpoll
  | some message =>
    cases hanswer : channel 0 with
    | closed => exact (hopen 0 hanswer).elim
    | full => exact ⟨rfl, hord, fun _ => rfl⟩
    | sent =>
      have hpoll := @sendPending_handed
        { stream with currMessage := none, frameTx := stream.frameTx ++ [message] } channel
        stream.pendingMessage 1 rfl hopen
      simpa [handed, hcurr] using hpoll

theorem sendPending_room {pending : List RespMessage} {n : ℕ} (hcurr : stream.currMessage = none)
    (hroom : ∀ n, channel n = .sent) :
    (sendPending channel pending n stream).1.currMessage = none := by
  induction pending generalizing n stream with
  | nil => exact hcurr
  | cons message pending ih =>
    rw [sendPending, hroom n]
    exact ih hcurr

theorem pollBlocked_room (hroom : ∀ n, channel n = .sent) :
    (stream.pollBlocked channel).1.currMessage = none := by
  rw [pollBlocked]
  cases hcurr : stream.currMessage with
  | none => exact sendPending_room hcurr hroom
  | some message =>
    rw [hroom 0]
    exact sendPending_room rfl hroom

end BidirectionalStream

namespace Streams

open BidirectionalStream

variable {s s' : Streams} {id : ℕ} {stream : BidirectionalStream}
variable {id' : ℕ} {answer : SendResult} {header : Frame} {data : BodyDataRef} {c : Call}
  {cs : List Call}

/-! ## The streams that a call leaves alone -/

theorem mem_pendIfFull (h : id ∈ s.pendingChannel) :
    id ∈ (s.pendIfFull id' answer).pendingChannel := by
  cases answer with
  | full => exact mem_insert_of_mem h
  | _ => exact h

def acceptedBy (s : Streams) (id : ℕ) : Call → List RespMessage
  | .frame id' frame answer =>
    match s.stream? id', (s.sendFrame id' frame answer).2 with
    | some stream, .ok () => if id' = id ∧ stream.state ≠ .shutdown then [.output frame] else []
    | _, _ => []
  | .fin id' _ =>
    if id' = id ∧ QUICStreamType.ofId id = .clientInitialBidirectional
    then [.outputExit .streamFinished] else []
  | _ => []

def Open (id : ℕ) : Call → Prop
  | .frame id' _ answer => id' = id → answer ≠ .closed
  | .fin id' answer => id' = id → answer ≠ .closed
  | .deliver _ channel => ∀ n, channel id n ≠ .closed
  | _ => True

/-- The call does not end this stream from outside. -/
def Spares (id : ℕ) : Call → Prop
  | .error id' _ _ => id' ≠ id
  | .streamError id' _ _ => id' ≠ id
  | .goaway goawayId _ => QUICStreamType.ofId goawayId = .clientInitialBidirectional → id ≤ goawayId
  | .shutdown _ _ => False
  | _ => True

/-- What a stream was handed is where it belongs. -/
structure Holds (s : Streams) (id : ℕ) (messages : List RespMessage) : Prop where
  stream : ∃ stream, s.stream? id = some stream ∧ stream.handed = messages ∧ stream.Orderly ∧
    (stream.currMessage.isSome → id ∈ s.pendingChannel)

variable {messages : List RespMessage}

theorem Holds.same (h : s.Holds id messages)
    (hstr : ∀ stream, s.stream? id = some stream → ∃ stream', s'.stream? id = some stream' ∧
      stream'.frameTx = stream.frameTx ∧ stream'.currMessage = stream.currMessage ∧
      stream'.pendingMessage = stream.pendingMessage)
    (hpend : id ∈ s.pendingChannel → id ∈ s'.pendingChannel) : s'.Holds id messages := by
  obtain ⟨stream, hget, hhanded, hord, hwaits⟩ := h.stream
  obtain ⟨stream', hget', hframes, hcurr, hrest⟩ := hstr stream hget
  refine ⟨stream', hget', ?_, ?_, ?_⟩
  · rw [← hhanded, handed, handed, hframes, hcurr, hrest]
  · rw [Orderly, hcurr, hrest]
    exact hord
  · rw [hcurr]
    exact fun hsome => hpend (hwaits hsome)

theorem Holds.other (h : s.Holds id messages) (hstr : s'.stream? id = s.stream? id)
    (hpend : id ∈ s.pendingChannel → id ∈ s'.pendingChannel) : s'.Holds id messages :=
  h.same (fun stream hget => ⟨stream, hstr ▸ hget, rfl, rfl, rfl⟩) hpend

theorem Holds.sendTo_other {id' : ℕ} {answer : SendResult} (h : s.Holds id messages)
    (hne : id ≠ id') (stream' : BidirectionalStream) :
    ((s.setStream id' stream').pendIfFull id' answer).Holds id messages :=
  h.other (by rw [stream?_pendIfFull, stream?_setStream_of_ne hne])
    fun hmem => mem_pendIfFull hmem

theorem Holds.setStream {id' : ℕ} {old stream' : BidirectionalStream} (h : s.Holds id messages)
    (hold : s.stream? id' = some old) (hframes : stream'.frameTx = old.frameTx)
    (hcurr : stream'.currMessage = old.currMessage)
    (hpend : stream'.pendingMessage = old.pendingMessage) :
    (s.setStream id' stream').Holds id messages := by
  by_cases hid : id = id'
  · subst hid
    refine h.same (fun stream hget => ?_) fun hmem => hmem
    cases hold.symm.trans hget
    exact ⟨stream', stream?_setStream_self hold stream', hframes, hcurr, hpend⟩
  · exact h.other (stream?_setStream_of_ne hid stream') fun hmem => hmem

theorem Holds.transmit {message : RespMessage} (h : s.Holds id messages)
    (hget : s.stream? id = some stream) (hcurr : stream.currMessage = none)
    (hopen : answer ≠ .closed) {stream' : BidirectionalStream}
    (hframes : stream'.frameTx = stream.frameTx) (hcurr' : stream'.currMessage = stream.currMessage)
    (hpend : stream'.pendingMessage = stream.pendingMessage) :
    ((s.setStream id (stream'.transmitMessage message answer)).pendIfFull id answer).Holds id
      (messages ++ [message]) := by
  obtain ⟨stream₀, hget₀, hhanded, hord, -⟩ := h.stream
  cases hget.symm.trans hget₀
  have hempty : stream'.pendingMessage = [] := hpend.trans (hord hcurr)
  rw [hcurr] at hcurr'
  refine ⟨stream'.transmitMessage message answer, ?_, ?_, transmitMessage_orderly hempty, ?_⟩
  · rw [stream?_pendIfFull, stream?_setStream_self hget]
  · rw [transmitMessage_handed hcurr' hempty hopen, ← hhanded, handed_of_none hcurr' hempty,
      handed_of_none hcurr (hord hcurr), hframes]
  · intro hsome
    rw [transmitMessage_waits hcurr' hsome]
    exact mem_insert_self

theorem Holds.enqueue {message : RespMessage} (h : s.Holds id messages)
    (hget : s.stream? id = some stream) (hcurr : stream.currMessage.isSome)
    (state : H3StreamState) :
    (s.setStream id { stream with
      state, pendingMessage := stream.pendingMessage ++ [message] }).Holds id
        (messages ++ [message]) := by
  obtain ⟨stream₀, hget₀, hhanded, -, hwaits⟩ := h.stream
  cases hget.symm.trans hget₀
  refine ⟨_, stream?_setStream_self hget _, ?_, fun hnone => ?_, hwaits⟩
  · rw [← hhanded]
    exact (append_assoc _ _ _).symm
  · rw [isSome_iff_ne_none] at hcurr
    exact (hcurr hnone).elim

theorem Holds.frame {frame : Frame} (h : s.Holds id messages)
    (hopen : Open id (.frame id' frame answer)) :
    (s.sendFrame id' frame answer).1.Holds id
      (messages ++ s.acceptedBy id (.frame id' frame answer)) := by
  rw [acceptedBy]
  cases hget : s.stream? id' with
  | none =>
    simp only [sendFrame, hget, append_nil]
    exact h
  | some stream =>
    cases hst : nextState stream.state frame with
    | none =>
      simp only [sendFrame, hget, hst, append_nil]
      exact h
    | some state =>
      by_cases hshut : stream.state = .shutdown
      · simp only [sendFrame, hget, hst]
        simpa [hshut] using h
      · by_cases hid : id' = id
        · subst hid
          cases hcurr : stream.currMessage.isSome with
          | true =>
            simp only [sendFrame, hget, hst, hshut, hcurr, if_true, if_false, ne_eq,
              not_false_eq_true, and_self]
            exact h.enqueue hget hcurr state
          | false =>
            have hnone : stream.currMessage = none := by simpa using hcurr
            have hok : sendResult answer = .ok () := by
              cases answer with
              | closed => exact (hopen rfl rfl).elim
              | _ => rfl
            simp only [sendFrame, hget, hst, hshut, hcurr, if_true, if_false, ne_eq,
              not_false_eq_true, and_self, hok, Bool.false_eq_true]
            exact h.transmit hget hnone (hopen rfl) rfl rfl rfl
        · have hmessages : (match some stream, (s.sendFrame id' frame answer).2 with
              | some stream, .ok () =>
                if id' = id ∧ stream.state ≠ .shutdown then [RespMessage.output frame] else []
              | _, _ => []) = [] := by
            split
            · exact if_neg fun hboth => hid hboth.1
            · rfl
          rw [hmessages, append_nil]
          simp only [sendFrame, hget, hst, hshut, if_false]
          split
          · exact h.other (stream?_setStream_of_ne (Ne.symm hid) _) fun hmem => hmem
          · exact h.sendTo_other (Ne.symm hid) _

theorem Holds.fin (h : s.Holds id messages) (hopen : Open id (.fin id' answer))
    (hcall : s.call (.fin id' answer) = some s') :
    s'.Holds id (messages ++ s.acceptedBy id (.fin id' answer)) := by
  by_cases hbidi : QUICStreamType.ofId id' = .clientInitialBidirectional
  · simp only [call, finishStream, hbidi, ne_eq, not_true_eq_false, if_false] at hcall
    cases hless : s.decreaseCurrentConcurrency with
    | none => simp [hless] at hcall
    | some s₁ =>
      have hsame : s₁.bidirectionalStream = s.bidirectionalStream ∧
          s₁.pendingChannel = s.pendingChannel := by
        rw [decreaseCurrentConcurrency] at hless
        split at hless
        · cases hless
        · cases hless
          exact ⟨rfl, rfl⟩
      have hlookups : ∀ id, s₁.stream? id = s.stream? id := fun id => by
        rw [stream?, stream?, hsame.1]
      have h₁ : s₁.Holds id messages := h.other (hlookups id) fun hmem => hsame.2.symm ▸ hmem
      cases hget : s₁.stream? id' with
      | none =>
        simp only [hless, hget, some.injEq] at hcall
        subst hcall
        have hne : id' ≠ id := by
          rintro rfl
          obtain ⟨stream, hstr, -⟩ := h₁.stream
          rw [hget] at hstr
          cases hstr
        simpa [acceptedBy, hne] using h₁
      | some stream =>
        by_cases hid : id' = id
        · subst hid
          cases hcurr : stream.currMessage with
          | none =>
            have hok : sendResult answer = .ok () := by
              cases answer with
              | closed => exact (hopen rfl rfl).elim
              | _ => rfl
            simp only [hless, hget, hcurr, isNone_none, if_true, hok,
              Except.mapError, some.injEq] at hcall
            subst hcall
            simp only [acceptedBy, hbidi, and_self, if_true]
            exact h₁.transmit hget hcurr (hopen rfl) rfl hcurr.symm rfl
          | some message =>
            simp only [hless, hget, hcurr, isNone_some, Bool.false_eq_true,
              if_false, some.injEq] at hcall
            subst hcall
            simp only [acceptedBy, hbidi, and_self, if_true]
            have henqueue := @Holds.enqueue s₁ id' stream messages
              (.outputExit .streamFinished) h₁ hget (by simp [hcurr]) .shutdown
            simpa only [hcurr] using henqueue
        · have hmessages : s.acceptedBy id (.fin id' answer) = [] :=
            if_neg fun hboth => hid hboth.1
          rw [hmessages, append_nil]
          simp only [hless, hget] at hcall
          split at hcall
          · cases hcall
          · rename_i s₂ result hres heq
            cases hcall
            split at heq
            · obtain ⟨rfl, -⟩ := Prod.mk.inj heq
              exact h₁.sendTo_other (Ne.symm hid) _
            · obtain ⟨rfl, -⟩ := Prod.mk.inj heq
              exact h₁.other (stream?_setStream_of_ne (Ne.symm hid) _) fun hmem => hmem
  · have hmessages : s.acceptedBy id (.fin id' answer) = [] := by
      refine if_neg ?_
      rintro ⟨rfl, heq⟩
      exact hbidi heq
    have hsame : s' = s := by
      simp only [call, finishStream, ne_eq, hbidi, not_false_eq_true, if_true] at hcall
      split at hcall
      · cases hcall
      · rename_i heq
        cases hcall
        split at heq <;> exact (Prod.mk.inj heq).1.symm
    rw [hmessages, hsame, append_nil]
    exact h

theorem mem_shutdownAll {affected : ℕ → Bool} {error : DispatchErrorKind}
    {channel : ℕ → SendResult} (h : id ∈ s.pendingChannel) :
    id ∈ (s.shutdownAll affected error channel).pendingChannel := by
  have hfold : ∀ ids set : List ℕ, id ∈ set → id ∈ ids.foldl (fun set id => set.insert id) set := by
    intro ids
    induction ids with
    | nil => exact fun set hset => hset
    | cons x ids ih => exact fun set hset => ih _ (mem_insert_of_mem hset)
  exact hfold _ _ h

theorem Holds.goaway {goawayId : ℕ} {channel : ℕ → SendResult} (h : s.Holds id messages)
    (hspares : QUICStreamType.ofId goawayId = .clientInitialBidirectional → id ≤ goawayId) :
    (s.goaway goawayId channel).1.Holds id messages := by
  rw [Streams.goaway]
  split
  · exact h
  · split
    · exact h
    · rename_i hbidi
      rw [ne_eq, not_not] at hbidi
      have hle : ¬ id > goawayId := Nat.not_lt.mpr (hspares hbidi)
      refine h.other ?_ fun hmem => mem_shutdownAll hmem
      simp only [stream?, shutdownAll, lookup_mapVal, hle, decide_false, Bool.false_eq_true,
        if_false]
      exact map_id'

theorem pollBlockedStreams_handed {channel : ℕ → ℕ → SendResult} (ids newSet : List ℕ)
    (hget : s.stream? id = some stream) (hord : stream.Orderly)
    (hopen : ∀ n, channel id n ≠ .closed) :
    ∃ stream', (pollBlockedStreams channel ids newSet s).1.stream? id = some stream' ∧
      stream'.handed = stream.handed ∧ stream'.Orderly ∧ (id ∉ ids → stream' = stream) ∧
      ∀ set, (pollBlockedStreams channel ids newSet s).2 = .ok set →
        (∀ x ∈ newSet, x ∈ set) ∧ (id ∈ ids → stream'.currMessage.isSome → id ∈ set) := by
  induction ids generalizing s newSet stream with
  | nil =>
    refine ⟨stream, hget, rfl, hord, fun _ => rfl, ?_⟩
    rintro set ⟨⟩
    exact ⟨fun x hx => hx, fun hmem => by cases hmem⟩
  | cons x ids ih =>
    rw [pollBlockedStreams]
    cases hx : s.stream? x with
    | none =>
      refine ⟨stream, hget, rfl, hord, fun _ => rfl, ?_⟩
      rintro set ⟨⟩
    | some other =>
      dsimp only
      generalize hnew : (if (other.pollBlocked (channel x)).2 then newSet.insert x else newSet) =
        newSet'
      have hgrows : ∀ y ∈ newSet, y ∈ newSet' := by
        intro y hy
        rw [← hnew]
        split
        · exact mem_insert_of_mem hy
        · exact hy
      by_cases hid : id = x
      · subst hid
        cases hget.symm.trans hx
        obtain ⟨hhanded, hord₁, hwaits⟩ := pollBlocked_handed hord hopen
        obtain ⟨stream', hget', hhanded', hord', hsame, hset⟩ :=
          ih newSet' (stream?_setStream_self hget (stream.pollBlocked (channel id)).1) hord₁
        refine ⟨stream', hget', hhanded'.trans hhanded, hord',
          fun hnot => (hnot (.head _)).elim, fun set hok => ?_⟩
        obtain ⟨hsubset, hparked⟩ := hset set hok
        refine ⟨fun y hy => hsubset y (hgrows y hy), fun _ hsome => ?_⟩
        by_cases hmem : id ∈ ids
        · exact hparked hmem hsome
        · refine hsubset id ?_
          rw [hsame hmem] at hsome
          rw [← hnew, hwaits hsome]
          exact mem_insert_self
      · obtain ⟨stream', hget', hhanded', hord', hsame, hset⟩ :=
          ih newSet' ((stream?_setStream_of_ne hid _).trans hget) hord
        refine ⟨stream', hget', hhanded', hord',
          fun hnot => hsame fun hmem => hnot (.tail x hmem), fun set hok => ?_⟩
        obtain ⟨hsubset, hparked⟩ := hset set hok
        exact ⟨fun y hy => hsubset y (hgrows y hy), fun hmem hsome =>
          hparked ((mem_cons.mp hmem).resolve_left hid) hsome⟩

theorem pendingChannel_pollBlockedStreams (channel : ℕ → ℕ → SendResult) (ids newSet : List ℕ)
    (s : Streams) :
    (pollBlockedStreams channel ids newSet s).1.pendingChannel = s.pendingChannel := by
  induction ids generalizing s newSet with
  | nil => rfl
  | cons x ids ih =>
    rw [pollBlockedStreams]
    split
    · rfl
    · exact ih _ _

theorem Holds.deliver {hash : SetOrder} {channel : ℕ → ℕ → SendResult} (h : s.Holds id messages)
    (hopen : ∀ n, channel id n ≠ .closed) :
    (s.pollBlockedMessage hash channel).1.Holds id messages := by
  obtain ⟨stream, hget, hhanded, hord, hwaits⟩ := h.stream
  obtain ⟨stream', hget', hhanded', hord', hsame, hset⟩ :=
    pollBlockedStreams_handed (hash.order s.pendingChannel) [] hget hord hopen
  have hmem : id ∈ hash.order s.pendingChannel ↔ id ∈ s.pendingChannel :=
    (hash.perm s.pendingChannel).mem_iff
  rw [pollBlockedMessage]
  cases hloop : pollBlockedStreams channel (hash.order s.pendingChannel) [] s with
  | mk s₁ result =>
    rw [hloop] at hget' hset
    cases result with
    | ok newSet =>
      refine ⟨stream', hget', hhanded'.trans hhanded, hord', fun hsome => ?_⟩
      by_cases hpend : id ∈ s.pendingChannel
      · exact (hset newSet rfl).2 (hmem.mpr hpend) hsome
      · rw [hsame fun hin => hpend (hmem.mp hin)] at hsome
        exact (hpend (hwaits hsome)).elim
    | error e =>
      refine ⟨stream', hget', hhanded'.trans hhanded, hord', fun hsome => ?_⟩
      have hkeep := pendingChannel_pollBlockedStreams channel (hash.order s.pendingChannel) [] s
      rw [hloop] at hkeep
      rw [hkeep]
      by_cases hpend : id ∈ s.pendingChannel
      · exact hpend
      · rw [hsame fun hin => hpend (hmem.mp hin)] at hsome
        exact hwaits hsome

theorem pendingChannel_newUnidirectionalStream :
    (s.newUnidirectionalStream header data).1.pendingChannel = s.pendingChannel := by
  simp only [newUnidirectionalStream, getNextBidiStreamId]
  split
  · rename_i heq
    obtain ⟨rfl, -⟩ := Prod.mk.inj heq
    rfl
  · rename_i new heq
    obtain ⟨rfl, -⟩ := Prod.mk.inj heq
    split <;> rfl

theorem Holds.call (h : s.Holds id messages) (hfresh : s.Fresh c) (hspares : Spares id c)
    (hopen : Open id c) (hcall : s.call c = some s') :
    s'.Holds id (messages ++ s.acceptedBy id c) := by
  have hnone : messages ++ [] = messages := append_nil messages
  cases c with
  | request header data =>
    cases hcall
    obtain ⟨stream, hget, -⟩ := h.stream
    have hne : id ≠ s.nextBidiStreamId := fun heq => hfresh (heq ▸ mem_ids.mpr (by simp [hget]))
    exact hnone.symm ▸ h.other (stream?_newUnidirectionalStream hne)
      (by rw [pendingChannel_newUnidirectionalStream]; exact fun hmem => hmem)
  | admission =>
    cases hcall
    obtain ⟨hsame, hpend⟩ := consumePendingConcurrency_same s.pendingConcurrency s
    exact hnone.symm ▸ h.other (congrArg (AList.lookup id) hsame) fun hmem => hpend.symm ▸ hmem
  | fin id' answer => exact h.fin hopen hcall
  | frame id' frame answer =>
    cases hcall
    exact h.frame hopen
  | goaway goawayId channel =>
    cases hcall
    exact hnone.symm ▸ h.goaway hspares
  | streamError id' err answer =>
    simp only [Streams.call, shutdownStream] at hcall
    split at hcall
    · cases hcall
      exact hnone.symm ▸ h
    · rename_i stream hget
      have h₁ := @Holds.sendTo_other s id messages id' answer h (Ne.symm hspares)
        (stream.transmitMessage (.outputExit (.h3 (.stream id' err))) answer)
      rw [decreaseCurrentConcurrency] at hcall
      split at hcall
      · cases hcall
      · cases hcall
        exact hnone.symm ▸ h₁.other rfl fun hmem => hmem
  | shutdown err channel => exact hspares.elim
  | error id' error answer =>
    cases hcall
    rw [sendError]
    split
    · exact hnone.symm ▸ h
    · exact hnone.symm ▸ h.sendTo_other (Ne.symm hspares) _
  | deliver hash channel =>
    cases hcall
    exact hnone.symm ▸ h.deliver hopen
  | takeHeader id' =>
    cases hcall
    rw [getHeader]
    split
    · exact hnone.symm ▸ h
    · rename_i hget
      exact hnone.symm ▸ h.setStream hget rfl rfl rfl
  | setEncoding id' encoding =>
    cases hcall
    rw [Streams.setEncoding]
    split
    · exact hnone.symm ▸ h
    · rename_i hget
      exact hnone.symm ▸ h.setStream hget rfl rfl rfl
  | readBody id' len =>
    cases hcall
    rw [pollSizedData]
    split
    · exact hnone.symm ▸ h
    · rename_i stream hget
      split
      · exact hnone.symm ▸ h
      · split
        · exact hnone.symm ▸ h.setStream hget rfl rfl rfl
        · exact hnone.symm ▸ h.setStream hget rfl rfl rfl
        · rename_i data _
          have h₁ := @Holds.setStream s id messages id' stream { stream with data } h hget rfl
            rfl rfl
          exact hnone.symm ▸ h₁.other rfl fun hmem => hmem
  | peerControl id' =>
    cases hcall
    rw [setPeerControlStreamId]
    split <;> exact hnone.symm ▸ h.other rfl fun hmem => hmem
  | peerQpackEncode id' =>
    cases hcall
    rw [setPeerQpackEncodeStreamId]
    split <;> exact hnone.symm ▸ h.other rfl fun hmem => hmem
  | peerQpackDecode id' =>
    cases hcall
    rw [setPeerQpackDecodeStreamId]
    split <;> exact hnone.symm ▸ h.other rfl fun hmem => hmem
  | next | sendLater id' | pendRecv id' | resumeRecv id' | nextResume =>
    cases hcall
    exact hnone.symm ▸ h.other rfl fun hmem => hmem

/-! ## Runs -/

def accepted (s : Streams) (id : ℕ) : List Call → List RespMessage
  | [] => []
  | c :: cs =>
    match s.call c with
    | none => []
    | some s' => s.acceptedBy id c ++ s'.accepted id cs

def AllFresh (s : Streams) : List Call → Prop
  | [] => True
  | c :: cs => s.Fresh c ∧ ∀ s', s.call c = some s' → s'.AllFresh cs

theorem Holds.calls (h : s.Holds id messages) (hfresh : s.AllFresh cs)
    (hspares : ∀ c ∈ cs, Spares id c) (hopen : ∀ c ∈ cs, Open id c) (hcalls : s.calls cs = some s')
    : s'.Holds id (messages ++ s.accepted id cs) := by
  induction cs generalizing s messages with
  | nil =>
    cases hcalls
    rwa [accepted, append_nil]
  | cons c cs ih =>
    obtain ⟨s₁, hcall, hcalls⟩ := bind_eq_some_iff.mp hcalls
    have hone := h.call hfresh.1 (hspares c (.head _)) (hopen c (.head _)) hcall
    have hlast := ih hone (hfresh.2 s₁ hcall)
      (fun c hc => hspares c (.tail _ hc))
      (fun c hc => hopen c (.tail _ hc)) hcalls
    rwa [accepted, hcall, ← append_assoc]

theorem calls_append (s : Streams) (cs cs' : List Call) :
    s.calls (cs ++ cs') = (s.calls cs).bind fun s' => s'.calls cs' := by
  induction cs generalizing s with
  | nil => rfl
  | cons c cs ih => simp only [cons_append, calls, bind_assoc, ih]

theorem AllFresh.append {cs cs' : List Call} (h : s.AllFresh (cs ++ cs'))
    (hcalls : s.calls cs = some s') : s.AllFresh cs ∧ s'.AllFresh cs' := by
  induction cs generalizing s with
  | nil => exact ⟨trivial, some.inj hcalls ▸ h⟩
  | cons c cs ih =>
    obtain ⟨s₁, hcall, hcalls⟩ := bind_eq_some_iff.mp hcalls
    refine ⟨⟨h.1, fun s₂ hcall₂ => ?_⟩, (ih (h.2 s₁ hcall) hcalls).2⟩
    cases hcall.symm.trans hcall₂
    exact (ih (h.2 s₁ hcall) hcalls).1

/-! ## A stream that has ended -/

def Ended (s : Streams) (id : ℕ) : Prop :=
  ∃ stream, s.stream? id = some stream ∧ stream.state = .shutdown

theorem Ended.call (h : s.Ended id) (hfresh : s.Fresh c) (hcall : s.call c = some s') :
    s'.Ended id := by
  obtain ⟨stream, hstr, hshut⟩ := h
  by_cases henc : ∃ id encoding, c = .setEncoding id encoding
  · obtain ⟨id', encoding, rfl⟩ := henc
    cases hcall
    rw [setEncoding]
    split
    · exact ⟨stream, hstr, hshut⟩
    · rename_i old hold
      by_cases hid : id = id'
      · subst hid
        cases hold.symm.trans hstr
        exact ⟨_, stream?_setStream_self hstr _, hshut⟩
      · exact ⟨stream, (stream?_setStream_of_ne hid _).trans hstr, hshut⟩
  · obtain ⟨stream', hstr', hlater⟩ := lasts_call hfresh hcall
      (fun id encoding heq => henc ⟨id, encoding, heq⟩) id stream hstr
    exact ⟨stream', hstr', hlater.shutdown hshut⟩

theorem Ended.accepted (h : s.Ended id) (hfresh : s.AllFresh cs)
    (hfin : ∀ answer, .fin id answer ∉ cs) : s.accepted id cs = [] := by
  induction cs generalizing s with
  | nil => rfl
  | cons c cs ih =>
    rw [Streams.accepted]
    split
    · rfl
    · rename_i s' hcall
      rw [ih (h.call hfresh.1 hcall) (hfresh.2 s' hcall)
        fun answer hmem => hfin answer (.tail _ hmem), append_nil]
      obtain ⟨stream, hstr, hshut⟩ := h
      cases c with
      | frame id' frame answer =>
        rw [acceptedBy]
        split
        · rename_i stream' _ hstr' _
          refine if_neg ?_
          rintro ⟨rfl, hne⟩
          cases hstr'.symm.trans hstr
          exact hne hshut
        · rfl
      | fin id' answer =>
        refine if_neg ?_
        rintro ⟨rfl, -⟩
        exact hfin answer (.head _)
      | _ => rfl

theorem ended_fin (hstr : s.stream? id = some stream)
    (hbidi : QUICStreamType.ofId id = .clientInitialBidirectional)
    (hcall : s.call (.fin id answer) = some s') : s'.Ended id := by
  simp only [call, finishStream, hbidi, ne_eq, not_true_eq_false, if_false] at hcall
  cases hless : s.decreaseCurrentConcurrency with
  | none => simp [hless] at hcall
  | some s₁ =>
    obtain ⟨stream₁, hstr₁, -⟩ := lasts_decrease hless id stream hstr
    simp only [hless, hstr₁] at hcall
    split at hcall
    · cases hcall
    · rename_i s₂ result hres heq
      cases hcall
      split at heq
      · obtain ⟨rfl, -⟩ := Prod.mk.inj heq
        refine ⟨_, by rw [stream?_pendIfFull, stream?_setStream_self hstr₁], ?_⟩
        cases answer <;> rfl
      · obtain ⟨rfl, -⟩ := Prod.mk.inj heq
        exact ⟨_, stream?_setStream_self hstr₁ _, rfl⟩

theorem holds_request (hid : s.getNextBidiStreamId.2 = some id)
    (hcall : s.call (.request header data) = some s') : s'.Holds id [] := by
  cases hcall
  exact ⟨_, stream?_request hid, rfl, fun _ => rfl, fun hsome => by cases hsome⟩

theorem pollBlockedStreams_room {channel : ℕ → ℕ → SendResult} (ids newSet : List ℕ)
    (hget : s.stream? id = some stream) (hroom : ∀ n, channel id n = .sent) {set : List ℕ}
    (hok : (pollBlockedStreams channel ids newSet s).2 = .ok set)
    (hwaits : stream.currMessage.isSome → id ∈ ids) :
    ∃ stream', (pollBlockedStreams channel ids newSet s).1.stream? id = some stream' ∧
      stream'.currMessage = none := by
  induction ids generalizing s newSet stream with
  | nil =>
    refine ⟨stream, hget, ?_⟩
    by_contra hsome
    cases hwaits (isSome_iff_ne_none.mpr hsome)
  | cons x ids ih =>
    rw [pollBlockedStreams] at hok ⊢
    cases hx : s.stream? x with
    | none =>
      rw [hx] at hok
      cases hok
    | some other =>
      rw [hx] at hok
      by_cases hid : id = x
      · subst hid
        cases hget.symm.trans hx
        have hnone := @pollBlocked_room stream (channel id) hroom
        refine @ih (s.setStream id (stream.pollBlocked (channel id)).1)
          (stream.pollBlocked (channel id)).1 _ (stream?_setStream_self hget _) hok ?_
        rw [hnone]
        exact fun hsome => by cases hsome
      · exact ih _ ((stream?_setStream_of_ne hid _).trans hget) hok fun hsome =>
          (mem_cons.mp (hwaits hsome)).resolve_left hid

theorem Holds.delivered {hash : SetOrder} {channel : ℕ → ℕ → SendResult}
    (h : s.Holds id messages) (hroom : ∀ n, channel id n = .sent)
    (hok : (s.pollBlockedMessage hash channel).2 = .ok ()) :
    ∃ stream, (s.pollBlockedMessage hash channel).1.stream? id = some stream ∧
      stream.frameTx = messages := by
  have hopen : ∀ n, channel id n ≠ .closed := fun n => by simp [hroom n]
  obtain ⟨stream', hget', hhanded', hord', -⟩ := (@Holds.deliver s id messages hash channel h hopen).stream
  obtain ⟨stream, hget, -, -, hwaits⟩ := h.stream
  refine ⟨stream', hget', ?_⟩
  have hnone : stream'.currMessage = none := by
    rw [pollBlockedMessage] at hget' hok
    cases hloop : pollBlockedStreams channel (hash.order s.pendingChannel) [] s with
    | mk s₁ result =>
      rw [hloop] at hget' hok
      cases result with
      | error e => cases hok
      | ok newSet =>
        have hset : (pollBlockedStreams channel (hash.order s.pendingChannel) [] s).2 =
            .ok newSet := congrArg Prod.snd hloop
        obtain ⟨stream₁, hget₁, hnone⟩ := pollBlockedStreams_room _ [] hget hroom hset
          fun hsome => (hash.perm s.pendingChannel).mem_iff.mpr (hwaits hsome)
        rw [hloop] at hget₁
        cases hget₁.symm.trans hget'
        exact hnone
  rw [← hhanded', handed_of_none hnone (hord' hnone)]

/-- A response that has ended reaches the channel whole and in order, however often the channel
is full, as long as no error of the stream or the connection and no GOAWAY meets what still
waits. -/
theorem response_delivered_in_order {before after : List Call} {header : Frame} {data : BodyDataRef}
    {answer : SendResult} {s₀ s₁ : Streams} (hid : s₀.getNextBidiStreamId.2 = some id)
    (hrequest : s₀.call (.request header data) = some s₁)
    (hbidi : QUICStreamType.ofId id = .clientInitialBidirectional)
    (hrun : s₁.calls (before ++ .fin id answer :: after) = some s)
    (hfresh : s₁.AllFresh (before ++ .fin id answer :: after))
    (hopen : ∀ c ∈ before ++ .fin id answer :: after, Open id c)
    (honce : ∀ answer, .fin id answer ∉ before ++ after)
    (hends : ∀ c ∈ before, Spares id c) (hspares : ∀ c ∈ after, Spares id c) :
    ∃ stream, s.stream? id = some stream ∧
      stream.handed = s₁.accepted id before ++ [.outputExit .streamFinished] ∧
      (stream.currMessage = none →
        stream.frameTx = s₁.accepted id before ++ [.outputExit .streamFinished]) ∧
      ∀ (hash : SetOrder) (channel : ℕ → ℕ → SendResult), (∀ n, channel id n = .sent) →
        (s.pollBlockedMessage hash channel).2 = .ok () →
          ∃ stream', (s.pollBlockedMessage hash channel).1.stream? id = some stream' ∧
            stream'.frameTx = s₁.accepted id before ++ [.outputExit .streamFinished] := by
  rw [calls_append] at hrun
  obtain ⟨s₂, hbefore, hrun⟩ := bind_eq_some_iff.mp hrun
  obtain ⟨s₃, hfin, hafter⟩ := bind_eq_some_iff.mp hrun
  obtain ⟨hfresh₁, hfresh₂⟩ := hfresh.append hbefore
  have h₂ := (holds_request hid hrequest).calls hfresh₁ hends
    (fun c hc => hopen c (mem_append_left _ hc)) hbefore
  have h₃ := h₂.call hfresh₂.1 trivial (hopen _ (mem_append_right _ (.head _))) hfin
  have hlast := h₃.calls (hfresh₂.2 s₃ hfin) hspares
    (fun c hc => hopen c (mem_append_right _ (.tail _ hc))) hafter
  obtain ⟨stream₂, hstr₂, -⟩ := h₂.stream
  -- After its end the stream takes nothing more.
  have hnothing : s₃.accepted id after = [] :=
    (ended_fin hstr₂ hbidi hfin).accepted (hfresh₂.2 s₃ hfin)
      fun answer hmem => honce answer (mem_append_right _ hmem)
  have hmsg : s₂.acceptedBy id (.fin id answer) = [.outputExit .streamFinished] :=
    if_pos ⟨rfl, hbidi⟩
  rw [hnothing, hmsg, nil_append, append_nil] at hlast
  obtain ⟨stream, hstr, hhanded, hord, -⟩ := hlast.stream
  refine ⟨stream, hstr, hhanded, fun hnone => ?_, fun hash channel hroom hok =>
    hlast.delivered hroom hok⟩
  rw [← hhanded, handed_of_none hnone (hord hnone)]

def plainHeaders : Frame := { ty := headersFrameType, payload := .headers .new none }

def plainData : Frame := { ty := dataFrameType, payload := .data [0] }

/-- The body and the end of a response find the channel full. -/
theorem response_delivered_in_order_full : ∃ s stream,
    Streams.new.calls [plainRequest, .frame 0 plainHeaders .sent, .frame 0 plainData .full,
      .fin 0 .full] = some s ∧ s.stream? 0 = some stream ∧
      stream.handed = [.output plainHeaders, .output plainData, .outputExit .streamFinished] := by
  obtain ⟨stream, hstr, hhanded, -⟩ := @response_delivered_in_order _ 0
    [.frame 0 plainHeaders .sent, .frame 0 plainData .full] [] plainHeaders { body := none } .full
    Streams.new _ rfl rfl rfl rfl (by
      refine ⟨trivial, ?_⟩
      rintro _ ⟨⟩
      refine ⟨trivial, ?_⟩
      rintro _ ⟨⟩
      refine ⟨trivial, ?_⟩
      rintro _ ⟨⟩
      exact trivial)
    (by simp [Open]) (by simp) (by simp [Spares]) (by simp)
  exact ⟨_, stream, rfl, hstr, hhanded⟩

/-- A response that has ended, of which the body still waits for room in the channel: a GOAWAY
below its stream takes its place, and neither the body nor the end of it is delivered. -/
theorem responses_cut_off : ∃ s stream,
    Streams.new.calls [plainRequest, plainRequest, .frame 4 plainHeaders .sent,
      .frame 4 plainData .full, .fin 4 .full, .goaway 0 fun _ => .full,
      .deliver { order := fun ids => ids, perm := fun _ => .refl _ } fun _ _ => .sent] = some s ∧
      s.stream? 4 = some stream ∧ stream.currMessage = none ∧ stream.pendingMessage = [] ∧
      stream.frameTx = [.output plainHeaders, .outputExit .goawayReceived] :=
  ⟨_, _, rfl, rfl, rfl, rfl, rfl⟩

end Streams

end YlongHttp.H3
