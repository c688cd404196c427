import YlongHttp.Verification.H3.Accounting

/-! # What a stream does not take back

A stream that was shut down stays so, and a header that was taken does not come back, whatever
the stream manager does. -/

namespace YlongHttp.H3

open Option
open Library

/-- The stream `b` is what became of the stream `a`. -/
structure BidirectionalStream.Later (a b : BidirectionalStream) : Prop where
  shutdown : a.state = .shutdown → b.state = .shutdown
  header : a.header = none → b.header = none
  encoding : b.encoding = a.encoding

/-- The stream `b` is what became of the stream `a` without its request being touched, unless it
was shut down. -/
structure BidirectionalStream.Aside (a b : BidirectionalStream) : Prop where
  shutdown : a.state = .shutdown → b.state = .shutdown
  header : b.header = a.header ∨ b.header = none ∧ b.state = .shutdown
  encoding : b.encoding = a.encoding
  data : b.state ≠ .shutdown → b.data = a.data

namespace BidirectionalStream

variable {a b c : BidirectionalStream}

theorem Later.rfl : Later a a := ⟨fun h => h, fun h => h, Eq.refl _⟩

theorem Aside.later (h : Aside a b) : Later a b :=
  ⟨h.shutdown, fun hnone => h.header.elim (·.trans hnone) And.left, h.encoding⟩

theorem Aside.rfl : Aside a a := ⟨fun h => h, .inl (Eq.refl _), Eq.refl _, fun _ => Eq.refl _⟩

theorem Aside.trans (h : Aside a b) (h' : Aside b c) : Aside a c where
  shutdown hshut := h'.shutdown (h.shutdown hshut)
  header := by
    rcases h'.header with hsame | hnone
    · rcases h.header with hfirst | ⟨hfirst, hshut⟩
      · exact .inl (hsame.trans hfirst)
      · exact .inr ⟨hsame.trans hfirst, h'.shutdown hshut⟩
    · exact .inr hnone
  encoding := h'.encoding.trans h.encoding
  data hopen := (h'.data hopen).trans (h.data fun hshut => hopen (h'.shutdown hshut))

theorem Aside.closed (h : Aside a b) : Aside a { b with state := .shutdown } :=
  ⟨fun _ => Eq.refl _, h.header.imp_right fun hnone => ⟨hnone.1, Eq.refl _⟩, h.encoding,
    fun hopen => (hopen (Eq.refl _)).elim⟩

theorem Aside.transmitMessage (h : Aside a b) (message : RespMessage) (answer : SendResult) :
    Aside a (b.transmitMessage message answer) := by
  cases answer <;> exact ⟨h.shutdown, h.header, h.encoding, h.data⟩

theorem aside_shutdown (error : DispatchErrorKind) (answer : SendResult) :
    Aside a (a.shutdown error answer) := by
  refine Aside.transmitMessage ?_ _ _
  exact ⟨fun _ => Eq.refl _, .inr ⟨Eq.refl _, Eq.refl _⟩, Eq.refl _, fun hopen => (hopen (Eq.refl _)).elim⟩

theorem aside_sendPending (channel : ℕ → SendResult) (pending : List RespMessage) (n : ℕ)
    (h : Aside a b) : Aside a (sendPending channel pending n b).1 := by
  induction pending generalizing b n with
  | nil => exact ⟨h.shutdown, h.header, h.encoding, h.data⟩
  | cons message pending ih =>
    rw [sendPending]
    generalize channel n = answer
    have hsent := h.transmitMessage message answer
    cases answer with
    | sent => exact ih _ hsent
    | full => exact ⟨hsent.shutdown, hsent.header, hsent.encoding, hsent.data⟩
    | closed =>
      have hclosed := hsent.closed
      exact ⟨hclosed.shutdown, hclosed.header, hclosed.encoding, hclosed.data⟩

theorem aside_pollBlocked (channel : ℕ → SendResult) : Aside a (a.pollBlocked channel).1 := by
  rw [pollBlocked]
  split
  · exact aside_sendPending channel _ 0 .rfl
  · split
    · exact aside_sendPending channel _ 1
        ⟨fun h => h, .inl (Eq.refl _), Eq.refl _, fun _ => Eq.refl _⟩
    · exact aside_sendPending channel _ 1 (Aside.closed (b := { a with currMessage := none })
        ⟨fun h => h, .inl (Eq.refl _), Eq.refl _, fun _ => Eq.refl _⟩)
    · exact .rfl

end BidirectionalStream

namespace Streams

open BidirectionalStream

variable {s s' s'' : Streams} {id : ℕ} {stream : BidirectionalStream}

theorem stream?_setStream_self (h : s.stream? id = some stream) (stream' : BidirectionalStream) :
    (s.setStream id stream').stream? id = some stream' := by
  rw [stream?] at h
  rw [stream?, setStream, lookup_modify_self, h]
  rfl

theorem stream?_setStream_of_ne {id' : ℕ} (hne : id ≠ id') (stream' : BidirectionalStream) :
    (s.setStream id' stream').stream? id = s.stream? id :=
  lookup_modify_of_ne hne _ _

@[simp]
theorem stream?_pendIfFull (s : Streams) (id id' : ℕ) (answer : SendResult) :
    (s.pendIfFull id' answer).stream? id = s.stream? id := by
  cases answer <;> rfl

def Lasts (R : BidirectionalStream → BidirectionalStream → Prop) (s s' : Streams) : Prop :=
  ∀ id stream, s.stream? id = some stream →
    ∃ stream', s'.stream? id = some stream' ∧ R stream stream'

theorem Lasts.later (h : Lasts Aside s s') : Lasts Later s s' := by
  intro id stream hstr
  obtain ⟨stream', hstr', haside⟩ := h id stream hstr
  exact ⟨stream', hstr', haside.later⟩

theorem Lasts.rfl : Lasts Aside s s := fun _ stream hstr => ⟨stream, hstr, .rfl⟩

theorem Lasts.trans (h : Lasts Aside s s') (h' : Lasts Aside s' s'') : Lasts Aside s s'' := by
  intro id stream hstr
  obtain ⟨stream', hstr', haside⟩ := h id stream hstr
  obtain ⟨stream'', hstr'', haside'⟩ := h' id stream' hstr'
  exact ⟨stream'', hstr'', haside.trans haside'⟩

theorem Lasts.of_eq (h : ∀ id, s'.stream? id = s.stream? id) : Lasts Aside s s' :=
  fun id stream hstr => ⟨stream, (h id).trans hstr, .rfl⟩

variable {old new : BidirectionalStream}

theorem lasts_setStream {R : BidirectionalStream → BidirectionalStream → Prop}
    (hrefl : ∀ stream, R stream stream) (hold : s.stream? id = some old) (hnew : R old new) :
    Lasts R s (s.setStream id new) := by
  intro id' stream hstr
  by_cases hid : id' = id
  · subst hid
    cases hold.symm.trans hstr
    exact ⟨new, stream?_setStream_self hold new, hnew⟩
  · exact ⟨stream, (stream?_setStream_of_ne hid new).trans hstr, hrefl stream⟩

theorem lasts_sendTo (hold : s.stream? id = some old) (haside : old.Aside new) (answer : SendResult) :
    Lasts Aside s ((s.setStream id new).pendIfFull id answer) :=
  (lasts_setStream (fun _ => .rfl) hold haside).trans (.of_eq fun _ => stream?_pendIfFull _ _ _ _)

theorem lasts_shutdownAll (affected : ℕ → Bool) (error : DispatchErrorKind)
    (channel : ℕ → SendResult) : Lasts Aside s (s.shutdownAll affected error channel) := by
  intro id stream hstr
  rw [stream?] at hstr
  refine ⟨_, by rw [stream?, shutdownAll, lookup_mapVal, hstr]; rfl, ?_⟩
  split
  · exact aside_shutdown error (channel id)
  · exact .rfl

theorem lasts_goaway (goawayId : ℕ) (channel : ℕ → SendResult) :
    Lasts Aside s (s.goaway goawayId channel).1 := by
  rw [goaway]
  split
  · exact .rfl
  · split
    · exact .rfl
    · have hset : Lasts Aside s { s with goawayId := some goawayId } := .of_eq fun _ => Eq.refl _
      exact hset.trans (lasts_shutdownAll _ _ channel)

theorem lasts_pollBlockedStreams (channel : ℕ → ℕ → SendResult) (ids newSet : List ℕ) :
    Lasts Aside s (pollBlockedStreams channel ids newSet s).1 := by
  induction ids generalizing s newSet with
  | nil => exact .rfl
  | cons id ids ih =>
    rw [pollBlockedStreams]
    split
    · exact .rfl
    · rename_i stream hstr
      exact (lasts_setStream (fun _ => .rfl) hstr (aside_pollBlocked (channel id))).trans (ih _)

theorem lasts_decrease (h : s.decreaseCurrentConcurrency = some s') : Lasts Aside s s' := by
  rw [decreaseCurrentConcurrency] at h
  split at h
  · cases h
  · cases h
    exact .of_eq fun _ => Eq.refl _

theorem lasts_fin {answer : SendResult} (h : s.call (.fin id answer) = some s') : Lasts Aside s s' := by
  simp only [call, finishStream] at h
  split at h
  · cases h
  · rename_i s₁ result hres heq
    cases h
    split at heq
    · split at heq <;> exact (Prod.mk.inj heq).1 ▸ .rfl
    · split at heq
      · exact (Prod.mk.inj heq).1 ▸ .rfl
      · rename_i s₂ hless
        have hlasts := lasts_decrease hless
        split at heq
        · exact (Prod.mk.inj heq).1 ▸ hlasts
        · rename_i stream hstr
          have haside : stream.Aside { stream with state := .shutdown } := Aside.rfl.closed
          split at heq
          · obtain ⟨rfl, -⟩ := Prod.mk.inj heq
            exact hlasts.trans (lasts_sendTo hstr (haside.transmitMessage _ answer) answer)
          · obtain ⟨rfl, -⟩ := Prod.mk.inj heq
            exact hlasts.trans (lasts_setStream (fun _ => .rfl) hstr
              ⟨haside.shutdown, haside.header, haside.encoding, haside.data⟩)

theorem lasts_sendFrame (frame : Frame) (answer : SendResult) :
    Lasts Aside s (s.sendFrame id frame answer).1 := by
  rw [sendFrame]
  split
  · exact .rfl
  · rename_i stream hstr
    split
    · exact .rfl
    · rename_i state hst
      split
      · exact .rfl
      · rename_i hshut
        split
        · exact lasts_setStream (fun _ => .rfl) hstr
            ⟨fun h => (hshut h).elim, .inl (Eq.refl _), Eq.refl _, fun _ => Eq.refl _⟩
        · have haside : stream.Aside { stream with state } :=
            ⟨fun h => (hshut h).elim, .inl (Eq.refl _), Eq.refl _, fun _ => Eq.refl _⟩
          exact lasts_sendTo hstr (haside.transmitMessage _ answer) answer

variable {header : Frame} {data : BodyDataRef}

theorem stream?_newUnidirectionalStream (hne : id ≠ s.nextBidiStreamId) :
    (s.newUnidirectionalStream header data).1.stream? id = s.stream? id := by
  simp only [newUnidirectionalStream, getNextBidiStreamId]
  split
  · rename_i heq
    obtain ⟨rfl, -⟩ := Prod.mk.inj heq
    rfl
  · rename_i new heq
    obtain ⟨rfl, hnew⟩ := Prod.mk.inj heq
    have hid : id ≠ new := by
      split at hnew
      · cases hnew
      · exact some.inj hnew ▸ hne
    split <;> exact AList.lookup_insert_ne hid

theorem stream?_request (hid : s.getNextBidiStreamId.2 = some id) :
    (s.newUnidirectionalStream header data).1.stream? id = some (.new header data) := by
  by_cases hmax : s.nextBidiStreamId > http3MaxStreamId
  · simp [getNextBidiStreamId, hmax] at hid
  · simp only [getNextBidiStreamId, hmax, if_false, some.injEq] at hid
    subst hid
    simp only [newUnidirectionalStream, getNextBidiStreamId, hmax, if_false]
    split <;> exact AList.lookup_insert _

theorem consumePendingConcurrency_same (ids : List ℕ) (s : Streams) :
    (consumePendingConcurrency ids s).bidirectionalStream = s.bidirectionalStream ∧
      (consumePendingConcurrency ids s).pendingChannel = s.pendingChannel := by
  induction ids generalizing s with
  | nil => exact ⟨rfl, rfl⟩
  | cons id ids ih =>
    rw [consumePendingConcurrency]
    split
    · exact ⟨rfl, rfl⟩
    · exact ih _

def Fresh (s : Streams) : Call → Prop
  | .request _ _ => s.nextBidiStreamId ∉ s.ids
  | _ => True

theorem lasts_call_aside {c : Call} (hfresh : s.Fresh c) (h : s.call c = some s')
    (henc : ∀ id encoding, c ≠ .setEncoding id encoding)
    (htake : ∀ id, c ≠ .takeHeader id) (hread : ∀ id len, c ≠ .readBody id len) :
    Lasts Aside s s' := by
  cases c with
  | request header data =>
    cases h
    intro id stream hstr
    have hne : id ≠ s.nextBidiStreamId := fun heq => hfresh (heq ▸ mem_ids.mpr (by simp [hstr]))
    exact ⟨stream, (stream?_newUnidirectionalStream hne).trans hstr, .rfl⟩
  | admission =>
    cases h
    exact .of_eq fun id => congrArg (AList.lookup id)
      (consumePendingConcurrency_same s.pendingConcurrency s).1
  | takeHeader id => exact (htake id (Eq.refl _)).elim
  | setEncoding id encoding => exact (henc id encoding (Eq.refl _)).elim
  | readBody id len => exact (hread id len (Eq.refl _)).elim
  | frame id frame answer =>
    cases h
    exact lasts_sendFrame frame answer
  | error id error answer =>
    cases h
    rw [sendError]
    split
    · exact .rfl
    · rename_i stream hstr
      have haside : stream.Aside { stream with pendingMessage := [] } :=
        ⟨fun h => h, .inl (Eq.refl _), Eq.refl _, fun _ => Eq.refl _⟩
      exact lasts_sendTo hstr (haside.transmitMessage _ answer) answer
  | fin id answer => exact lasts_fin h
  | streamError id err answer =>
    simp only [call, shutdownStream] at h
    split at h
    · exact some.inj h ▸ .rfl
    · rename_i stream hstr
      exact (lasts_sendTo hstr (Aside.rfl.transmitMessage _ answer) answer).trans
        (lasts_decrease h)
  | goaway goawayId channel => exact some.inj h ▸ lasts_goaway goawayId channel
  | shutdown err channel => exact some.inj h ▸ lasts_shutdownAll _ err channel
  | deliver hash channel =>
    cases h
    have hloop := @lasts_pollBlockedStreams s channel (hash.order s.pendingChannel) []
    rw [pollBlockedMessage]
    cases hres : pollBlockedStreams channel (hash.order s.pendingChannel) [] s with
    | mk s₁ result =>
      rw [hres] at hloop
      cases result with
      | ok newSet => exact hloop.trans (.of_eq fun _ => Eq.refl _)
      | error e => exact hloop
  | peerControl id =>
    cases h
    rw [setPeerControlStreamId]
    split <;> exact .of_eq fun _ => Eq.refl _
  | peerQpackEncode id =>
    cases h
    rw [setPeerQpackEncodeStreamId]
    split <;> exact .of_eq fun _ => Eq.refl _
  | peerQpackDecode id =>
    cases h
    rw [setPeerQpackDecodeStreamId]
    split <;> exact .of_eq fun _ => Eq.refl _
  | next | sendLater id | pendRecv id | resumeRecv id | nextResume =>
    exact some.inj h ▸ .of_eq fun _ => Eq.refl _

theorem lasts_getHeader : Lasts Later s (s.getHeader id).1 := by
  rw [getHeader]
  split
  · exact Lasts.rfl.later
  · rename_i hstr
    exact lasts_setStream (fun _ => .rfl) hstr ⟨fun h => h, fun _ => Eq.refl _, Eq.refl _⟩

theorem lasts_pollSizedData {len : ℕ} : Lasts Later s (s.pollSizedData id len).1 := by
  rw [pollSizedData]
  split
  · exact Lasts.rfl.later
  · rename_i stream hstr
    have hdata : ∀ data, Lasts Later s (s.setStream id { stream with data }) := fun data =>
      lasts_setStream (fun _ => .rfl) hstr ⟨fun h => h, fun h => h, Eq.refl _⟩
    split
    · exact Lasts.rfl.later
    · split
      · exact hdata _
      · exact hdata _
      · exact hdata _

theorem lasts_call {c : Call} (hfresh : s.Fresh c) (h : s.call c = some s')
    (henc : ∀ id encoding, c ≠ .setEncoding id encoding) : Lasts Later s s' := by
  by_cases hturn : (∃ id, c = .takeHeader id) ∨ ∃ id len, c = .readBody id len
  · rcases hturn with ⟨id, rfl⟩ | ⟨id, len, rfl⟩
    · exact some.inj h ▸ lasts_getHeader
    · exact some.inj h ▸ lasts_pollSizedData
  · exact (lasts_call_aside hfresh h henc (fun id heq => hturn (.inl ⟨id, heq⟩))
      fun id len heq => hturn (.inr ⟨id, len, heq⟩)).later

end Streams

end YlongHttp.H3
