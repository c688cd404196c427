import YlongHttp.Model.H3.Streams

/-! # The concurrency of an HTTP/3 connection

`working_stream_num` counts the streams that were admitted and have not ended, as long as a
stream ends only once and only after it was admitted. -/

namespace YlongHttp.H3

open List
open Library

variable {id : ℕ}

namespace Streams

variable {s s' : Streams}

def ids (s : Streams) : List ℕ := s.bidirectionalStream.keys

/-- The request streams that have left `pending_concurrency`. -/
def admitted (s : Streams) : List ℕ := s.ids.filter (· ∉ s.pendingConcurrency)

theorem ids_nodup (s : Streams) : s.ids.Nodup := s.bidirectionalStream.keys_nodup

@[simp]
theorem ids_setStream (s : Streams) (id : ℕ) (stream : BidirectionalStream) :
    (s.setStream id stream).ids = s.ids :=
  keys_modify _ _ _

theorem mem_ids : id ∈ s.ids ↔ (s.stream? id).isSome :=
  AList.mem_keys.symm.trans AList.lookup_isSome.symm

theorem mem_admitted : id ∈ s.admitted ↔ id ∈ s.ids ∧ id ∉ s.pendingConcurrency := by
  simp [admitted]

theorem admitted_length (hqueue : s.pendingConcurrency.Nodup)
    (hqueued : ∀ id ∈ s.pendingConcurrency, id ∈ s.ids) :
    s.admitted.length + s.pendingConcurrency.length = s.ids.length := by
  have hperm : (s.ids.filter (· ∈ s.pendingConcurrency)).Perm s.pendingConcurrency :=
    (perm_ext_iff_of_nodup (s.ids_nodup.filter _) hqueue).mpr fun id => by simpa using hqueued id
  have hsplit : s.ids.length = s.ids.countP (· ∈ s.pendingConcurrency) +
      s.ids.countP (· ∉ s.pendingConcurrency) := by
    simpa using length_eq_countP_add_countP (fun id => decide (id ∈ s.pendingConcurrency))
  rw [hsplit, countP_eq_length_filter, countP_eq_length_filter, hperm.length_eq,
    Nat.add_comm, admitted]

def endedBy (s : Streams) : Call → List ℕ
  | .fin id _ => if QUICStreamType.ofId id = .clientInitialBidirectional then [id] else []
  | .streamError id _ _ => s.ids.filter (· = id)
  | .goaway goawayId channel =>
    match (s.goaway goawayId channel).2 with
    | .ok () => s.ids.filter (· > goawayId)
    | .error _ => []
  | _ => []

def countedDownBy (s : Streams) : Call → List ℕ
  | .fin id _ => if QUICStreamType.ofId id = .clientInitialBidirectional then [id] else []
  | .streamError id _ _ => s.ids.filter (· = id)
  | _ => []

/-! ## What a call does to the counter -/

/-- The counter, its bound, the streams and the queue are left as they were. -/
structure Quiet (s s' : Streams) : Prop where
  working : s'.workingStreamNum = s.workingStreamNum
  max : s'.maxStreamConcurrency = s.maxStreamConcurrency
  ids : s'.ids = s.ids
  pending : s'.pendingConcurrency = s.pendingConcurrency

theorem Quiet.rfl : Quiet s s := ⟨Eq.refl _, Eq.refl _, Eq.refl _, Eq.refl _⟩

theorem Quiet.trans {s'' : Streams} (h : Quiet s s') (h' : Quiet s' s'') : Quiet s s'' :=
  ⟨h'.working.trans h.working, h'.max.trans h.max, h'.ids.trans h.ids, h'.pending.trans h.pending⟩

theorem Quiet.admitted (h : Quiet s s') : s'.admitted = s.admitted := by
  rw [Streams.admitted, Streams.admitted, h.ids, h.pending]

theorem quiet_setStream (s : Streams) (id : ℕ) (stream : BidirectionalStream) :
    Quiet s (s.setStream id stream) :=
  ⟨rfl, rfl, ids_setStream s id stream, rfl⟩

theorem quiet_pendIfFull (s : Streams) (id : ℕ) (answer : SendResult) :
    Quiet s (s.pendIfFull id answer) := by
  cases answer <;> exact ⟨rfl, rfl, rfl, rfl⟩

theorem quiet_sendTo (s : Streams) (id : ℕ) (stream : BidirectionalStream) (answer : SendResult) :
    Quiet s ((s.setStream id stream).pendIfFull id answer) :=
  (quiet_setStream s id stream).trans (quiet_pendIfFull _ id answer)

theorem quiet_shutdownAll (s : Streams) (affected : ℕ → Bool) (error : DispatchErrorKind)
    (channel : ℕ → SendResult) : Quiet s (s.shutdownAll affected error channel) :=
  ⟨rfl, rfl, keys_mapVal _ _, rfl⟩

theorem quiet_goaway (s : Streams) (goawayId : ℕ) (channel : ℕ → SendResult) :
    Quiet s (s.goaway goawayId channel).1 := by
  rw [goaway]
  split
  · exact .rfl
  · split
    · exact .rfl
    · exact ⟨rfl, rfl, keys_mapVal _ _, rfl⟩

theorem quiet_sendFrame (s : Streams) (id : ℕ) (frame : Frame) (answer : SendResult) :
    Quiet s (s.sendFrame id frame answer).1 := by
  rw [sendFrame]
  split
  · exact .rfl
  · split
    · exact .rfl
    · split
      · exact .rfl
      · split
        · exact quiet_setStream s id _
        · exact quiet_sendTo s id _ answer

theorem quiet_sendError (s : Streams) (id : ℕ) (error : DispatchErrorKind) (answer : SendResult) :
    Quiet s (s.sendError id error answer).1 := by
  rw [sendError]
  split
  · exact .rfl
  · exact quiet_sendTo s id _ answer

theorem quiet_getHeader (s : Streams) (id : ℕ) : Quiet s (s.getHeader id).1 := by
  rw [getHeader]
  split
  · exact .rfl
  · exact quiet_setStream s id _

theorem quiet_setEncoding (s : Streams) (id : ℕ) (encoding : Bool) :
    Quiet s (s.setEncoding id encoding).1 := by
  rw [setEncoding]
  split
  · exact .rfl
  · exact quiet_setStream s id _

theorem quiet_pollSizedData (s : Streams) (id len : ℕ) : Quiet s (s.pollSizedData id len).1 := by
  rw [pollSizedData]
  split
  · exact .rfl
  · split
    · exact .rfl
    · split
      · exact quiet_setStream s id _
      · exact quiet_setStream s id _
      · exact (quiet_setStream s id _).trans ⟨rfl, rfl, rfl, rfl⟩

theorem quiet_pollBlockedStreams (channel : ℕ → ℕ → SendResult) (ids newSet : List ℕ)
    (s : Streams) : Quiet s (pollBlockedStreams channel ids newSet s).1 := by
  induction ids generalizing newSet s with
  | nil => exact .rfl
  | cons id ids ih =>
    rw [pollBlockedStreams]
    split
    · exact .rfl
    · exact (quiet_setStream s id _).trans (ih _ _)

theorem quiet_pollBlockedMessage (s : Streams) (hash : SetOrder) (channel : ℕ → ℕ → SendResult) :
    Quiet s (s.pollBlockedMessage hash channel).1 := by
  have hloop := quiet_pollBlockedStreams channel (hash.order s.pendingChannel) [] s
  rw [pollBlockedMessage]
  split
  · rename_i heq
    rw [heq] at hloop
    exact hloop.trans ⟨rfl, rfl, rfl, rfl⟩
  · rename_i heq
    rw [heq] at hloop
    exact hloop

theorem quiet_setPeerControlStreamId (s : Streams) (id : ℕ) :
    Quiet s (s.setPeerControlStreamId id).1 := by
  rw [setPeerControlStreamId]
  split
  · exact .rfl
  · exact ⟨rfl, rfl, rfl, rfl⟩

theorem quiet_setPeerQpackEncodeStreamId (s : Streams) (id : ℕ) :
    Quiet s (s.setPeerQpackEncodeStreamId id).1 := by
  rw [setPeerQpackEncodeStreamId]
  split
  · exact .rfl
  · exact ⟨rfl, rfl, rfl, rfl⟩

theorem quiet_setPeerQpackDecodeStreamId (s : Streams) (id : ℕ) :
    Quiet s (s.setPeerQpackDecodeStreamId id).1 := by
  rw [setPeerQpackDecodeStreamId]
  split
  · exact .rfl
  · exact ⟨rfl, rfl, rfl, rfl⟩

/-- The counter is one less, and the rest of the books as it was. -/
structure OneLess (s s' : Streams) : Prop where
  working : s'.workingStreamNum + 1 = s.workingStreamNum
  max : s'.maxStreamConcurrency = s.maxStreamConcurrency
  ids : s'.ids = s.ids
  pending : s'.pendingConcurrency = s.pendingConcurrency

theorem decreaseCurrentConcurrency_eq (hpos : 0 < s.workingStreamNum) :
    ∃ s', s.decreaseCurrentConcurrency = some s' ∧ OneLess s s' := by
  rw [decreaseCurrentConcurrency, if_neg (Nat.pos_iff_ne_zero.mp hpos)]
  exact ⟨_, rfl, Nat.sub_add_cancel hpos, rfl, rfl, rfl⟩

theorem Quiet.oneLess {s'' : Streams} (h : Quiet s s') (h' : OneLess s' s'') : OneLess s s'' :=
  ⟨h'.working.trans h.working, h'.max.trans h.max, h'.ids.trans h.ids, h'.pending.trans h.pending⟩

theorem OneLess.quiet {s'' : Streams} (h : OneLess s s') (h' : Quiet s' s'') : OneLess s s'' :=
  ⟨(congrArg (· + 1) h'.working).trans h.working, h'.max.trans h.max, h'.ids.trans h.ids,
    h'.pending.trans h.pending⟩

theorem call_streamError_eq {id : ℕ} {err : H3ErrorCode} {answer : SendResult} (hid : id ∈ s.ids)
    (hpos : 0 < s.workingStreamNum) :
    ∃ s', s.call (.streamError id err answer) = some s' ∧ OneLess s s' := by
  rw [mem_ids] at hid
  obtain ⟨stream, hstr⟩ := Option.isSome_iff_exists.mp hid
  simp only [call, shutdownStream, hstr]
  have hquiet := quiet_sendTo s id
    (stream.transmitMessage (.outputExit (.h3 (.stream id err))) answer) answer
  obtain ⟨s', hs', hless⟩ := decreaseCurrentConcurrency_eq (hquiet.working ▸ hpos)
  exact ⟨s', hs', hquiet.oneLess hless⟩

theorem call_streamError_of_notMem {err : H3ErrorCode} {answer : SendResult} (hid : id ∉ s.ids) :
    s.call (.streamError id err answer) = some s := by
  rw [mem_ids, Bool.not_eq_true, Option.isSome_eq_false_iff, Option.isNone_iff_eq_none] at hid
  simp only [call, shutdownStream, hid]

theorem call_fin_eq {id : ℕ} {answer : SendResult}
    (hid : QUICStreamType.ofId id = .clientInitialBidirectional)
    (hpos : 0 < s.workingStreamNum) :
    ∃ s', s.call (.fin id answer) = some s' ∧ OneLess s s' := by
  obtain ⟨s₁, hs₁, hless⟩ := decreaseCurrentConcurrency_eq hpos
  simp only [call, finishStream, hid, ne_eq, not_true_eq_false, if_false, hs₁]
  cases hstr : s₁.stream? id with
  | none => exact ⟨_, rfl, hless⟩
  | some stream =>
    dsimp only
    split
    · rename_i heq
      split at heq
      · cases answer <;> cases heq
      · cases heq
    · rename_i s' result hres heq
      refine ⟨s', rfl, ?_⟩
      split at heq
      · obtain ⟨rfl, -⟩ := Prod.mk.inj heq
        exact hless.quiet (quiet_sendTo s₁ id _ answer)
      · obtain ⟨rfl, -⟩ := Prod.mk.inj heq
        exact hless.quiet (quiet_setStream s₁ id _)

theorem consumePendingConcurrency_eq (ids : List ℕ) (s : Streams) :
    (consumePendingConcurrency ids s).workingStreamNum = s.workingStreamNum +
        min ids.length (s.maxStreamConcurrency - s.workingStreamNum) ∧
      (consumePendingConcurrency ids s).maxStreamConcurrency = s.maxStreamConcurrency ∧
      (consumePendingConcurrency ids s).ids = s.ids ∧
      (consumePendingConcurrency ids s).pendingConcurrency =
        ids.drop (s.maxStreamConcurrency - s.workingStreamNum) := by
  induction ids generalizing s with
  | nil => simp [consumePendingConcurrency, Streams.ids]
  | cons id ids ih =>
    rw [consumePendingConcurrency]
    split
    · rename_i hfull
      have hzero : s.maxStreamConcurrency - s.workingStreamNum = 0 :=
        Nat.sub_eq_zero_of_le (of_decide_eq_true hfull)
      simp [hzero, Streams.ids]
    · rename_i hfull
      have hlt : s.workingStreamNum < s.maxStreamConcurrency := by
        simpa [reachMaxConcurrency] using hfull
      obtain ⟨hworking, hmax, hids, hpend⟩ := ih (s.pushBackPendingSend id).increaseCurrentConcurrency
      have hroom : s.maxStreamConcurrency - s.workingStreamNum =
          s.maxStreamConcurrency - (s.workingStreamNum + 1) + 1 := by omega
      rw [hroom, drop_succ_cons]
      refine ⟨hworking.trans ?_, hmax, hids, hpend⟩
      simp only [pushBackPendingSend, increaseCurrentConcurrency, length_cons]
      omega

theorem newUnidirectionalStream_eq {header : Frame} {data : BodyDataRef}
    (hnew : s.nextBidiStreamId ∉ s.ids) :
    Quiet s (s.newUnidirectionalStream header data).1 ∨
      (s.newUnidirectionalStream header data).1.ids = s.nextBidiStreamId :: s.ids ∧
      (s.newUnidirectionalStream header data).1.maxStreamConcurrency = s.maxStreamConcurrency ∧
      ((s.newUnidirectionalStream header data).1.workingStreamNum = s.workingStreamNum ∧
        (s.newUnidirectionalStream header data).1.pendingConcurrency =
          s.pendingConcurrency ++ [s.nextBidiStreamId] ∨
        (s.newUnidirectionalStream header data).1.workingStreamNum = s.workingStreamNum + 1 ∧
        s.workingStreamNum < s.maxStreamConcurrency ∧
        (s.newUnidirectionalStream header data).1.pendingConcurrency = s.pendingConcurrency) := by
  have hkeys : (s.bidirectionalStream.insert s.nextBidiStreamId (.new header data)).keys =
      s.nextBidiStreamId :: s.ids := by
    have hkey : s.nextBidiStreamId ∉ s.bidirectionalStream.keys := hnew
    rw [AList.keys_insert, ids, erase_of_not_mem hkey]
  by_cases hid : s.nextBidiStreamId > http3MaxStreamId
  · left
    simp only [newUnidirectionalStream, getNextBidiStreamId, hid, if_true]
    exact ⟨rfl, rfl, rfl, rfl⟩
  · right
    simp only [newUnidirectionalStream, getNextBidiStreamId, hid, if_false]
    split
    · exact ⟨hkeys, rfl, .inl ⟨rfl, rfl⟩⟩
    · rename_i hroom
      exact ⟨hkeys, rfl, .inr ⟨rfl, by simpa [reachMaxConcurrency] using hroom, rfl⟩⟩

end Streams

/-! ## The books -/

/-- The streams, those of them that have ended, and those that were counted down. -/
structure Ledger where
  streams : Streams
  ended : List ℕ
  countedDown : List ℕ

namespace Ledger

variable {l l' : Ledger}

def new : Ledger := { streams := .new, ended := [], countedDown := [] }

def call (l : Ledger) (c : Call) : Option Ledger :=
  (l.streams.call c).map fun streams =>
    { streams, ended := l.ended ++ l.streams.endedBy c,
      countedDown := l.countedDown ++ l.streams.countedDownBy c }

def calls : Ledger → List Call → Option Ledger
  | l, [] => some l
  | l, c :: cs => (l.call c).bind (calls · cs)

/-- The books are right. -/
structure Accounted (l : Ledger) : Prop where
  working : l.streams.workingStreamNum = l.streams.admitted.countP (· ∉ l.ended)
  counted : l.streams.workingStreamNum + l.countedDown.length = l.streams.admitted.length
  once : l.countedDown.Nodup
  each : ∀ id, id ∈ l.countedDown ↔ id ∈ l.streams.admitted ∧ id ∈ l.ended
  bound : l.streams.workingStreamNum ≤ l.streams.maxStreamConcurrency

/-- A call that keeps the books right: a stream ends once, while it is admitted, a GOAWAY
shuts down no stream that is working, and no stream is admitted that was shut down before. The
id of a new stream is not in use. -/
def Regular (l : Ledger) : Call → Prop
  | .request _ _ => l.streams.nextBidiStreamId ∉ l.streams.ids
  | .admission => ∀ id ∈ l.streams.pendingConcurrency.take
      (l.streams.maxStreamConcurrency - l.streams.workingStreamNum), id ∉ l.ended
  | .fin id _ => QUICStreamType.ofId id = .clientInitialBidirectional →
      id ∈ l.streams.admitted ∧ id ∉ l.ended
  | .streamError id _ _ => id ∈ l.streams.ids → id ∈ l.streams.admitted ∧ id ∉ l.ended
  | .goaway goawayId channel => ∀ id ∈ l.streams.endedBy (.goaway goawayId channel),
      id ∈ l.streams.admitted → id ∈ l.ended
  | _ => True

/-- Every call of the run is `Regular`. -/
def AllRegular : Ledger → List Call → Prop
  | _, [] => True
  | l, c :: cs => l.Regular c ∧ ∀ l', l.call c = some l' → l'.AllRegular cs

/-! ## What a regular call keeps -/

/-- The books, and what of the queue they rest on. -/
structure Inv (l : Ledger) : Prop where
  counted : l.streams.workingStreamNum + l.countedDown.length = l.streams.admitted.length
  once : l.countedDown.Nodup
  each : ∀ id, id ∈ l.countedDown ↔ id ∈ l.streams.admitted ∧ id ∈ l.ended
  bound : l.streams.workingStreamNum ≤ l.streams.maxStreamConcurrency
  queue : l.streams.pendingConcurrency.Nodup
  queued : ∀ id ∈ l.streams.pendingConcurrency, id ∈ l.streams.ids
  known : ∀ id ∈ l.ended, id ∈ l.streams.ids

theorem Inv.new : Inv .new :=
  ⟨rfl, nodup_nil, by simp [Ledger.new], Nat.zero_le _, nodup_nil,
    by simp [Ledger.new, Streams.new], by simp [Ledger.new]⟩

theorem Inv.accounted (h : l.Inv) : l.Accounted := by
  refine ⟨?_, h.counted, h.once, h.each, h.bound⟩
  have hnodup : (l.streams.admitted.filter (· ∈ l.ended)).Nodup :=
    (l.streams.ids_nodup.filter _).filter _
  have hperm : l.countedDown.Perm (l.streams.admitted.filter (· ∈ l.ended)) :=
    (perm_ext_iff_of_nodup h.once hnodup).mpr fun id => by
      rw [h.each, mem_filter, decide_eq_true_iff]
  have hended : l.countedDown.length = l.streams.admitted.countP (· ∈ l.ended) := by
    rw [hperm.length_eq, countP_eq_length_filter]
  have hsplit : l.streams.admitted.length = l.streams.admitted.countP (· ∈ l.ended) +
      l.streams.admitted.countP (· ∉ l.ended) := by
    simpa using length_eq_countP_add_countP (fun id => decide (id ∈ l.ended))
  have hcounted := h.counted
  omega

theorem Inv.quiet {s : Streams} {ended : List ℕ} (h : l.Inv) (hquiet : l.streams.Quiet s)
    (hended : ∀ id ∈ ended, id ∈ l.streams.ids ∧ (id ∈ l.streams.admitted → id ∈ l.ended)) :
    Inv { streams := s, ended := l.ended ++ ended, countedDown := l.countedDown ++ [] } := by
  refine ⟨?_, ?_, fun id => ?_, ?_, ?_, ?_, fun id hid => ?_⟩
  · rw [hquiet.working, hquiet.admitted, append_nil]
    exact h.counted
  · rw [append_nil]
    exact h.once
  · rw [hquiet.admitted, append_nil, h.each, mem_append]
    constructor
    · rintro ⟨hadmitted, hmem⟩
      exact ⟨hadmitted, .inl hmem⟩
    · rintro ⟨hadmitted, hmem | hmem⟩
      · exact ⟨hadmitted, hmem⟩
      · exact ⟨hadmitted, (hended id hmem).2 hadmitted⟩
  · rw [hquiet.working, hquiet.max]
    exact h.bound
  · rw [hquiet.pending]
    exact h.queue
  · rw [hquiet.pending, hquiet.ids]
    exact h.queued
  · rw [hquiet.ids]
    rcases mem_append.mp hid with hid | hid
    · exact h.known id hid
    · exact (hended id hid).1

variable {s : Streams} {c : Call}

theorem Inv.ends (h : l.Inv) (hless : l.streams.OneLess s) (hadmitted : id ∈ l.streams.admitted)
    (hended : id ∉ l.ended) :
    Inv { streams := s, ended := l.ended ++ [id], countedDown := l.countedDown ++ [id] } := by
  obtain ⟨hworking, hmax, hids, hpend⟩ := hless
  have hsame : s.admitted = l.streams.admitted := by
    rw [Streams.admitted, Streams.admitted, hids, hpend]
  have hnew : id ∉ l.countedDown := fun hmem => hended ((h.each id).mp hmem).2
  refine ⟨?_, ?_, fun x => ?_, ?_, ?_, ?_, fun x hx => ?_⟩
  · have hcounted := h.counted
    rw [hsame, length_append, length_singleton]
    dsimp only
    omega
  · exact nodup_append.mpr ⟨h.once, nodup_singleton id, by
      rintro x hx y hy rfl
      exact hnew (mem_singleton.mp hy ▸ hx)⟩
  · rw [hsame, mem_append, mem_append, mem_singleton, h.each]
    constructor
    · rintro (⟨hx, hxe⟩ | rfl)
      · exact ⟨hx, .inl hxe⟩
      · exact ⟨hadmitted, .inr rfl⟩
    · rintro ⟨hx, hxe | rfl⟩
      · exact .inl ⟨hx, hxe⟩
      · exact .inr rfl
  · have hbound := h.bound
    rw [hmax]
    dsimp only
    omega
  · rw [hpend]
    exact h.queue
  · rw [hpend, hids]
    exact h.queued
  · rw [hids]
    rcases mem_append.mp hx with hx | hx
    · exact h.known x hx
    · rw [mem_singleton.mp hx]
      exact (Streams.mem_admitted.mp hadmitted).1

theorem Inv.pos (h : l.Inv) (hadmitted : id ∈ l.streams.admitted) (hended : id ∉ l.ended) :
    0 < l.streams.workingStreamNum := by
  rw [h.accounted.working]
  exact countP_pos_iff.mpr ⟨id, hadmitted, decide_eq_true hended⟩

theorem Inv.admission (h : l.Inv) (hregular : l.Regular .admission) :
    Inv { l with streams := l.streams.tryConsumePendingConcurrency } := by
  obtain ⟨hworking, hmax, hids, hpend⟩ :=
    Streams.consumePendingConcurrency_eq l.streams.pendingConcurrency l.streams
  rw [← Streams.tryConsumePendingConcurrency] at hworking hmax hids hpend
  generalize l.streams.tryConsumePendingConcurrency = s at hworking hmax hids hpend
  have hqueue : s.pendingConcurrency.Nodup := hpend ▸ h.queue.sublist (drop_sublist _ _)
  have hqueued : ∀ id ∈ s.pendingConcurrency, id ∈ s.ids := by
    intro id hid
    rw [hids]
    exact h.queued id (mem_of_mem_drop (hpend ▸ hid))
  have hbefore := Streams.admitted_length h.queue h.queued
  have hafter := Streams.admitted_length hqueue hqueued
  rw [hids, hpend, length_drop] at hafter
  have hbound := h.bound
  refine ⟨?_, h.once, fun id => ?_, ?_, hqueue, hqueued, ?_⟩
  · have hcounted := h.counted
    dsimp only
    omega
  · -- A stream that is admitted now has not ended.
    have hsplit := take_append_drop
      (l.streams.maxStreamConcurrency - l.streams.workingStreamNum) l.streams.pendingConcurrency
    rw [h.each, Streams.mem_admitted, Streams.mem_admitted, hids, hpend]
    refine and_congr_left fun hended => and_congr_right fun _ => not_congr ?_
    constructor
    · intro hmem
      rw [← hsplit] at hmem
      exact (mem_append.mp hmem).resolve_left fun htake => hregular id htake hended
    · exact mem_of_mem_drop
  · rw [hmax]
    dsimp only
    omega
  · rw [hids]
    exact h.known

theorem Inv.queue_new (h : l.Inv) (hnew : id ∉ l.streams.ids) (hids : s.ids = id :: l.streams.ids)
    (hmax : s.maxStreamConcurrency = l.streams.maxStreamConcurrency)
    (hworking : s.workingStreamNum = l.streams.workingStreamNum)
    (hpend : s.pendingConcurrency = l.streams.pendingConcurrency ++ [id]) :
    Inv { l with streams := s } := by
  have hadmitted : s.admitted = l.streams.admitted := by
    rw [Streams.admitted, Streams.admitted, hids, hpend, filter_cons_of_neg (by simp)]
    refine filter_congr fun x hx => ?_
    have hne : x ≠ id := fun heq => hnew (heq ▸ hx)
    simp [hne]
  refine ⟨?_, h.once, fun x => ?_, ?_, ?_, fun x hx => ?_, fun x hx => ?_⟩
  · rw [hadmitted, hworking]
    exact h.counted
  · rw [hadmitted]
    exact h.each x
  · rw [hworking, hmax]
    exact h.bound
  · rw [hpend]
    refine nodup_append.mpr ⟨h.queue, nodup_singleton id, ?_⟩
    rintro x hx y hy rfl
    exact hnew (h.queued id (mem_singleton.mp hy ▸ hx))
  · rw [hids]
    rw [hpend] at hx
    rcases mem_append.mp hx with hx | hx
    · exact mem_cons_of_mem id (h.queued x hx)
    · exact mem_singleton.mp hx ▸ (.head _)
  · rw [hids]
    exact mem_cons_of_mem id (h.known x hx)

theorem Inv.admission_new (h : l.Inv) (hnew : id ∉ l.streams.ids)
    (hids : s.ids = id :: l.streams.ids)
    (hmax : s.maxStreamConcurrency = l.streams.maxStreamConcurrency)
    (hworking : s.workingStreamNum = l.streams.workingStreamNum + 1)
    (hroom : l.streams.workingStreamNum < l.streams.maxStreamConcurrency)
    (hpend : s.pendingConcurrency = l.streams.pendingConcurrency) :
    Inv { l with streams := s } := by
  have hqueued : id ∉ l.streams.pendingConcurrency := fun hmem => hnew (h.queued id hmem)
  have hadmitted : s.admitted = id :: l.streams.admitted := by
    rw [Streams.admitted, hids, hpend, filter_cons_of_pos (by simpa using hqueued)]
    rfl
  refine ⟨?_, h.once, fun x => ?_, ?_, ?_, fun x hx => ?_, fun x hx => ?_⟩
  · have hcounted := h.counted
    rw [hadmitted, length_cons]
    dsimp only
    omega
  · rw [hadmitted, h.each, mem_cons]
    constructor
    · rintro ⟨hx, hended⟩
      exact ⟨.inr hx, hended⟩
    · rintro ⟨rfl | hx, hended⟩
      · exact (hnew (h.known _ hended)).elim
      · exact ⟨hx, hended⟩
  · dsimp only
    omega
  · rw [hpend]
    exact h.queue
  · rw [hids]
    rw [hpend] at hx
    exact mem_cons_of_mem id (h.queued x hx)
  · rw [hids]
    exact mem_cons_of_mem id (h.known x hx)

theorem Inv.request (h : l.Inv) {header : Frame} {data : BodyDataRef}
    (hregular : l.Regular (.request header data)) :
    Inv { l with streams := (l.streams.newUnidirectionalStream header data).1 } := by
  rcases @Streams.newUnidirectionalStream_eq l.streams header data hregular with
    hquiet | ⟨hids, hmax, ⟨hworking, hpend⟩ | ⟨hworking, hroom, hpend⟩⟩
  · have hinv := @Inv.quiet l _ [] h hquiet (by simp)
    rwa [append_nil, append_nil] at hinv
  · exact h.queue_new hregular hids hmax hworking hpend
  · exact h.admission_new hregular hids hmax hworking hroom hpend

theorem Inv.call_quiet (h : l.Inv) (hcall : l.streams.call c = some s) (hquiet : l.streams.Quiet s)
    (hended : l.streams.endedBy c = []) (hcounted : l.streams.countedDownBy c = []) :
    ∃ l', l.call c = some l' ∧ l'.Inv := by
  refine ⟨_, by rw [Ledger.call, hcall]; rfl, ?_⟩
  rw [hended, hcounted]
  exact h.quiet hquiet (by simp)

theorem Inv.call (h : l.Inv) (hregular : l.Regular c) :
    ∃ l', l.call c = some l' ∧ l'.Inv := by
  cases c with
  | request header data =>
    have hinv := h.request hregular
    exact ⟨_, rfl, by simpa [Streams.endedBy, Streams.countedDownBy] using hinv⟩
  | admission =>
    have hinv := h.admission hregular
    exact ⟨_, rfl, by simpa [Streams.endedBy, Streams.countedDownBy] using hinv⟩
  | fin id answer =>
    by_cases hid : QUICStreamType.ofId id = .clientInitialBidirectional
    · obtain ⟨hadmitted, hended⟩ := hregular hid
      obtain ⟨s, hcall, hless⟩ :=
        @Streams.call_fin_eq l.streams id answer hid (h.pos hadmitted hended)
      refine ⟨_, by rw [Ledger.call, hcall]; rfl, ?_⟩
      have hinv := h.ends hless hadmitted hended
      simpa [Streams.endedBy, Streams.countedDownBy, hid] using hinv
    · have hcall : l.streams.call (.fin id answer) = some l.streams := by
        simp only [Streams.call, Streams.finishStream, if_pos hid]
        split
        · rename_i heq
          split at heq <;> cases heq
        · rename_i heq
          split at heq <;> cases heq <;> rfl
      exact h.call_quiet hcall .rfl (by simp [Streams.endedBy, hid])
        (by simp [Streams.countedDownBy, hid])
  | streamError id err answer =>
    by_cases hid : id ∈ l.streams.ids
    · obtain ⟨hadmitted, hended⟩ := hregular hid
      obtain ⟨s, hcall, hless⟩ :=
        @Streams.call_streamError_eq l.streams id err answer hid (h.pos hadmitted hended)
      refine ⟨_, by rw [Ledger.call, hcall]; rfl, ?_⟩
      have hfilter : l.streams.ids.filter (· = id) = [id] := by
        rw [filter_eq, count_eq_one_of_mem l.streams.ids_nodup hid]
        rfl
      have hinv := h.ends hless hadmitted hended
      simpa [Streams.endedBy, Streams.countedDownBy, hfilter] using hinv
    · have hfilter : l.streams.ids.filter (· = id) = [] :=
        filter_eq_nil_iff.mpr fun x hx heq => hid (of_decide_eq_true heq ▸ hx)
      exact h.call_quiet (Streams.call_streamError_of_notMem hid) .rfl hfilter hfilter
  | goaway goawayId channel =>
    refine ⟨_, rfl, h.quiet (Streams.quiet_goaway l.streams goawayId channel) fun id hid =>
      ⟨?_, hregular id hid⟩⟩
    rw [Streams.endedBy] at hid
    split at hid
    · exact mem_of_mem_filter hid
    · cases hid
  | next | sendLater id => exact h.call_quiet rfl ⟨rfl, rfl, rfl, rfl⟩ rfl rfl
  | takeHeader id => exact h.call_quiet rfl (Streams.quiet_getHeader _ id) rfl rfl
  | setEncoding id encoding => exact h.call_quiet rfl (Streams.quiet_setEncoding _ id encoding) rfl rfl
  | readBody id len => exact h.call_quiet rfl (Streams.quiet_pollSizedData _ id len) rfl rfl
  | frame id frame answer =>
    exact h.call_quiet rfl (Streams.quiet_sendFrame _ id frame answer) rfl rfl
  | error id error answer =>
    exact h.call_quiet rfl (Streams.quiet_sendError _ id error answer) rfl rfl
  | shutdown err channel =>
    exact h.call_quiet rfl (Streams.quiet_shutdownAll _ _ err channel) rfl rfl
  | deliver hash channel =>
    exact h.call_quiet rfl (Streams.quiet_pollBlockedMessage _ hash channel) rfl rfl
  | pendRecv id | resumeRecv id | nextResume => exact h.call_quiet rfl ⟨rfl, rfl, rfl, rfl⟩ rfl rfl
  | peerControl id => exact h.call_quiet rfl (Streams.quiet_setPeerControlStreamId _ id) rfl rfl
  | peerQpackEncode id =>
    exact h.call_quiet rfl (Streams.quiet_setPeerQpackEncodeStreamId _ id) rfl rfl
  | peerQpackDecode id =>
    exact h.call_quiet rfl (Streams.quiet_setPeerQpackDecodeStreamId _ id) rfl rfl

theorem Inv.calls (h : l.Inv) {cs : List Call} (hregular : l.AllRegular cs) :
    ∃ l', l.calls cs = some l' ∧ l'.Inv := by
  induction cs generalizing l with
  | nil => exact ⟨l, rfl, h⟩
  | cons c cs ih =>
    obtain ⟨hc, hcs⟩ := hregular
    obtain ⟨l₁, hcall, hinv⟩ := h.call hc
    obtain ⟨l', hcalls, hinv'⟩ := ih hinv (hcs l₁ hcall)
    exact ⟨l', by rw [Ledger.calls, hcall]; exact hcalls, hinv'⟩

end Ledger

/-! ## The accounting -/

/-- In a run of regular calls nothing overflows, and the books are right at its end. -/
theorem Streams.accounting {cs : List Call} (h : Ledger.new.AllRegular cs) :
    ∃ l, Ledger.new.calls cs = some l ∧ l.Accounted := by
  obtain ⟨l, hcalls, hinv⟩ := Ledger.Inv.new.calls h
  exact ⟨l, hcalls, hinv.accounted⟩

def plainRequest : Call :=
  .request { ty := headersFrameType, payload := .headers .new none } { body := none }

/-- Two requests, of which one ends and one fails. -/
theorem Streams.accounting_two : ∃ l, Ledger.new.calls [plainRequest, plainRequest,
    .fin 4 .sent, .streamError 0 .h3NoError .full] = some l ∧ l.Accounted := by
  have hfirst : Ledger.new.Regular plainRequest := by
    change (0 : ℕ) ∉ ([] : List ℕ)
    decide
  refine Streams.accounting ⟨hfirst, ?_⟩
  rintro _ ⟨⟩
  refine ⟨by change (4 : ℕ) ∉ [0]; decide, ?_⟩
  rintro _ ⟨⟩
  refine ⟨fun _ => by decide, ?_⟩
  rintro _ ⟨⟩
  refine ⟨fun _ => by decide, ?_⟩
  rintro _ ⟨⟩
  exact trivial

/-- A stream that is reset by the server, and whose sending side is found to be stopped after
that: the second count is an overflow. With another request, the counter says that none is
working. -/
theorem Streams.accounting_twice :
    Ledger.new.calls [plainRequest, .streamError 0 .h3RequestRejected .sent,
      .streamError 0 .h3InternalError .full] = none ∧
      ∃ l, Ledger.new.calls [plainRequest, plainRequest, .streamError 0 .h3RequestRejected .sent,
        .streamError 0 .h3InternalError .full] = some l ∧ ¬ l.Accounted := by
  refine ⟨rfl, _, rfl, fun h => ?_⟩
  have hworking := h.working
  revert hworking
  decide

end YlongHttp.H3
