import YlongHttp.Verification.Client.Queues

/-! # Counting the concurrent streams -/

namespace YlongHttp

open List Streams H2StreamState Streams.Each StreamFrame
open Library

variable {R : Rules}
variable {panic : Panic} {log log' : List Entry} {c' : Conn} {phase' : Phase} {away' : Bool}

def Streams.isConcurrent (s : Streams) (id : StreamId) : Bool :=
  decide (id ∉ s.pendingConcurrency) && (s.streamState id).any fun state => !state.isClosed

/-- The number of streams that have left `pending_concurrency` and are not closed. -/
def Streams.concurrent (s : Streams) : ℕ := s.streamMap.keys.countP s.isConcurrent

theorem Streams.isConcurrent_iff {s : Streams} {id : StreamId} {stream : Stream}
    (hget : s.streamMap.lookup id = some stream) :
    s.isConcurrent id = true ↔ id ∉ s.pendingConcurrency ∧ stream.state.isClosed = false := by
  simp [isConcurrent, streamState, hget]

variable {s : Streams} {e : StreamFrame} {away : Bool} {c : Conn} {phase : Phase}

theorem Streams.mem_keys {id : StreamId} :
    id ∈ s.streamMap.keys ↔ ∃ stream, s.streamMap.lookup id = some stream := by
  rw [← AList.mem_keys, ← AList.lookup_isSome, Option.isSome_iff_exists]

def Streams.Counted (s : Streams) : Prop := s.currentConcurrentStreams = s.concurrent

theorem Streams.Counted.same {s' : Streams} (h : s.Counted)
    (hkeys : s'.streamMap.keys = s.streamMap.keys)
    (hpend : s'.pendingConcurrency = s.pendingConcurrency)
    (hcnt : s'.currentConcurrentStreams = s.currentConcurrentStreams)
    (heach : s.Each (fun _ a b => b.state.isClosed = a.state.isClosed) s') : s'.Counted := by
  rw [Counted, hcnt, h, concurrent, concurrent, hkeys]
  refine countP_congr fun id hid => ?_
  obtain ⟨stream, hget⟩ := mem_keys.mp hid
  obtain ⟨stream', hget', hclosed⟩ := heach.before hget
  rw [isConcurrent_iff hget, isConcurrent_iff hget', hpend, hclosed]

theorem Streams.Counted.close {s' : Streams} {id : StreamId} {stream stream' : Stream}
    (h : s.Counted) (hget : s.streamMap.lookup id = some stream)
    (hopen : stream.state.isClosed = false) (hid : id ∉ s.pendingConcurrency)
    (hclosed : stream'.state.isClosed = true)
    (hmap : s'.streamMap = (s.setStream id stream').streamMap)
    (hpend : s'.pendingConcurrency = s.pendingConcurrency)
    (hcnt : s'.currentConcurrentStreams = s.currentConcurrentStreams - 1) : s'.Counted := by
  have hkeys : s'.streamMap.keys = s.streamMap.keys := by rw [hmap, s.keys_setStream]
  have hget' : s'.streamMap.lookup id = some stream' := by
    rw [hmap]
    simp [hget]
  have hone : s.concurrent = s'.concurrent + 1 := by
    rw [concurrent, concurrent, hkeys]
    refine countP_eq_succ s.streamMap.keys_nodup (mem_keys.mpr ⟨stream, hget⟩)
      ((isConcurrent_iff hget).mpr ⟨hid, hopen⟩) ?_ fun j hj hne => ?_
    · rw [Bool.eq_false_iff, ne_eq, isConcurrent_iff hget', hclosed]
      simp
    · rw [isConcurrent, isConcurrent, streamState, streamState, hmap, hpend,
        lookup_setStream_of_ne _ _ _ hne]
  rw [Counted, hcnt, h, hone, Nat.add_sub_cancel]

theorem Streams.Counted.pos {id : StreamId} {stream : Stream} (h : s.Counted)
    (hget : s.streamMap.lookup id = some stream) (hopen : stream.state.isClosed = false)
    (hid : id ∉ s.pendingConcurrency) : 0 < s.currentConcurrentStreams := by
  rw [h, concurrent, countP_pos_iff]
  exact ⟨id, mem_keys.mpr ⟨stream, hget⟩, (isConcurrent_iff hget).mpr ⟨hid, hopen⟩⟩

theorem Streams.Counted.admitted {s : Streams} {id : StreamId} {ids : List StreamId}
    {stream : Stream} (h : s.Counted) (hpend : s.pendingConcurrency = id :: ids)
    (hnodup : s.pendingConcurrency.Nodup) (hget : s.streamMap.lookup id = some stream)
    (hopen : stream.state.isClosed = false) :
    ({ s with pendingConcurrency := ids }.increaseCurrentConcurrency.pushBackPendingSend
      id).Counted := by
  rw [hpend] at hnodup
  have hid : id ∉ ids := (nodup_cons.mp hnodup).1
  have hone : ({ s with pendingConcurrency := ids } : Streams).concurrent = s.concurrent + 1 := by
    rw [concurrent, concurrent]
    refine countP_eq_succ s.streamMap.keys_nodup (mem_keys.mpr ⟨stream, hget⟩)
      ((@isConcurrent_iff { s with pendingConcurrency := ids } _ _ hget).mpr ⟨hid, hopen⟩) ?_
      fun j hj hne => ?_
    · rw [Bool.eq_false_iff, ne_eq, isConcurrent_iff hget, hpend]
      simp
    · rw [isConcurrent, isConcurrent, hpend]
      simp [hne, streamState]
  change s.currentConcurrentStreams + 1 = ({ s with pendingConcurrency := ids } : Streams).concurrent
  rw [hone, h]

theorem Streams.Counted.accepted (h : s.Counted) (hnum : s.Numbered)
    (hknown : ∀ id ∈ s.pendingConcurrency, ∃ stream, s.streamMap.lookup id = some stream)
    (request : RequestWrapper) : (s.accepted request).Counted := by
  have hnone := hnum.lookup_next
  have hfresh : s.nextStreamId ∉ s.streamMap.keys := by
    rw [mem_keys, hnone]
    simp
  have hnot : s.nextStreamId ∉ s.pendingConcurrency := by
    intro hmem
    obtain ⟨stream, hget⟩ := hknown _ hmem
    rw [hnone] at hget
    cases hget
  have hkeys : (s.accepted request).streamMap.keys = s.nextStreamId :: s.streamMap.keys := by
    rw [s.streamMap_accepted, AList.keys_insert, erase_of_not_mem hfresh]
  have hget : (s.accepted request).streamMap.lookup s.nextStreamId = some (s.fresh request) := by
    rw [s.streamMap_accepted, AList.lookup_insert]
  have hpend : ∀ j, j ≠ s.nextStreamId →
      (j ∈ (s.accepted request).pendingConcurrency ↔ j ∈ s.pendingConcurrency) := by
    intro j hj
    rcases s.accepted_cases request with ⟨-, heq⟩ | ⟨-, -, heq⟩
    · rw [heq]
      simp [hj]
    · rw [heq]
  have hold : s.streamMap.keys.countP (s.accepted request).isConcurrent = s.concurrent := by
    refine countP_congr fun j hj => ?_
    have hne : j ≠ s.nextStreamId := fun heq => hfresh (heq ▸ hj)
    obtain ⟨stream, hget⟩ := mem_keys.mp hj
    have hget' : (s.accepted request).streamMap.lookup j = some stream := by
      rw [s.streamMap_accepted, AList.lookup_insert_ne hne, hget]
    rw [isConcurrent_iff hget, isConcurrent_iff hget', hpend j hne]
  have hnew : (s.accepted request).isConcurrent s.nextStreamId = true ↔
      s.nextStreamId ∉ (s.accepted request).pendingConcurrency := by
    rw [isConcurrent_iff hget]
    exact and_iff_left rfl
  rw [Counted, concurrent, hkeys]
  rcases s.accepted_cases request with ⟨-, heq⟩ | ⟨-, -, heq⟩
  · rw [countP_cons_of_neg (by rw [hnew, heq]; simp), hold, heq]
    exact h
  · rw [countP_cons_of_pos (by rw [hnew, heq]; exact hnot), hold, heq]
    change s.currentConcurrentStreams + 1 = s.concurrent + 1
    rw [h]

/-! ## GOAWAY -/

def Streams.freed (s : Streams) (last id : StreamId) : Bool :=
  decide (last < id) && (s.streamState id).any fun state => !state.isClosed && state ≠ .idle

theorem Streams.freed_iff {s : Streams} {last id : StreamId} {stream : Stream}
    (hget : s.streamMap.lookup id = some stream) :
    s.freed last id = true ↔ last < id ∧ stream.state.isClosed = false ∧ stream.state ≠ .idle := by
  simp [freed, streamState, hget]

theorem unsetStream_count {s' : Streams} {last id : StreamId} {stream : Stream}
    (hget : s.streamMap.lookup id = some stream) (hlast : last < id)
    (h : s.unsetStream id stream = .ok s') :
    s'.currentConcurrentStreams + (if s.freed last id then 1 else 0) =
      s.currentConcurrentStreams := by
  have hfreed := @freed_iff s last _ _ hget
  rw [unsetStream] at h
  split at h
  · rename_i hst
    cases h
    rw [hst] at hfreed
    rw [if_neg (by rw [hfreed]; simp [H2StreamState.isClosed])]
    rfl
  · rename_i hst
    cases h
    rw [hst] at hfreed
    rw [if_neg (by rw [hfreed]; simp)]
    rfl
  · rename_i hclosed hidle
    have hopen : stream.state.isClosed = false := by
      cases hst : stream.state <;> simp_all [H2StreamState.isClosed]
    rw [if_pos (hfreed.mpr ⟨hlast, hopen, hidle⟩)]
    rw [decreaseCurrentConcurrency] at h
    split at h <;> cases h
    rename_i hpos
    change s.currentConcurrentStreams ≠ 0 at hpos
    change s.currentConcurrentStreams - 1 + 1 = _
    omega

theorem unsetStream_error {last id : StreamId} {stream : Stream}
    (hget : s.streamMap.lookup id = some stream) (hlast : last < id)
    (h : s.unsetStream id stream = .error panic) :
    s.freed last id = true ∧ s.currentConcurrentStreams = 0 := by
  rw [unsetStream] at h
  split at h
  · cases h
  · cases h
  · rename_i hclosed hidle
    have hopen : stream.state.isClosed = false := by
      cases hst : stream.state <;> simp_all [H2StreamState.isClosed]
    refine ⟨(s.freed_iff hget).mpr ⟨hlast, hopen, hidle⟩, ?_⟩
    rw [decreaseCurrentConcurrency] at h
    split at h <;> cases h
    assumption

theorem freed_unsetStream {s' : Streams} {last id j : StreamId} {stream : Stream}
    (hget : s.streamMap.lookup id = some stream) (h : s.unsetStream id stream = .ok s')
    (hj : j ≠ id) : s'.freed last j = s.freed last j := by
  rw [freed, freed, streamState, streamState, unsetStream_effect hget h]
  change (decide (last < j) && Option.any _ (Option.map _
    ((s.setStream id _).streamMap.lookup j))) = _
  rw [lookup_setStream_of_ne _ _ _ hj]

theorem unsetStreams_count {last : StreamId} {ids : List StreamId} {s : Streams}
    (hnodup : ids.Nodup) :
    match unsetStreams last ids s with
    | .ok (s', _) =>
      s'.currentConcurrentStreams + ids.countP (s.freed last) = s.currentConcurrentStreams
    | .error _ => s.currentConcurrentStreams < ids.countP (s.freed last) := by
  induction ids generalizing s with
  | nil => rfl
  | cons id ids ih =>
    obtain ⟨hid, hnodup⟩ := nodup_cons.mp hnodup
    rw [unsetStreams]
    cases hget : s.streamMap.lookup id with
    | none =>
      rw [countP_cons_of_neg (by simp [freed, streamState, hget])]
      exact ih hnodup
    | some stream =>
      dsimp only
      split_ifs with hlast
      · cases hone : s.unsetStream id stream with
        | error panic =>
          obtain ⟨hfreed, hzero⟩ := unsetStream_error hget hlast hone
          change s.currentConcurrentStreams < _
          rw [countP_cons_of_pos hfreed]
          omega
        | ok s₁ =>
          have hcnt := unsetStream_count hget hlast hone
          have hrest := @ih s₁ hnodup
          have hsame : ids.countP (s₁.freed last) = ids.countP (s.freed last) := by
            refine countP_congr fun j hj => ?_
            rw [freed_unsetStream hget hone fun heq => hid (heq ▸ hj)]
          rw [countP_cons]
          dsimp only [bind, Except.bind]
          cases hloop : unsetStreams last ids s₁ with
          | error panic =>
            rw [hloop] at hrest
            change s.currentConcurrentStreams < _
            omega
          | ok result =>
            rw [hloop] at hrest
            change result.1.currentConcurrentStreams + _ = _
            omega
      · rw [countP_cons_of_neg (by rw [s.freed_iff hget]; simp [hlast])]
        exact ih hnodup

def Streams.Placed (last : StreamId) (s : Streams) : Prop :=
  ∀ id stream, s.streamMap.lookup id = some stream → last < id → stream.state.isClosed = false →
    (stream.state = .idle ↔ id ∈ s.pendingConcurrency)

theorem Streams.Placed.freed_iff {s : Streams} {last id : StreamId} (h : s.Placed last)
    (hid : id ∈ s.streamMap.keys) :
    s.freed last id = true ↔ last < id ∧ s.isConcurrent id = true := by
  obtain ⟨stream, hget⟩ := mem_keys.mp hid
  rw [s.freed_iff hget, isConcurrent_iff hget]
  refine ⟨fun ⟨hlast, hopen, hidle⟩ => ⟨hlast, ?_, hopen⟩,
    fun ⟨hlast, hwaits, hopen⟩ => ⟨hlast, hopen, ?_⟩⟩
  · exact fun hmem => hidle ((h id stream hget hlast hopen).mpr hmem)
  · exact fun hidle => hwaits ((h id stream hget hlast hopen).mp hidle)

theorem Streams.Counted.unset {s' : Streams} {last : StreamId} {unset : List StreamId}
    (h : s.Counted) (hplaced : s.Placed last)
    (hunset : { s with maxSendId := last }.getUnsetStreams last = .ok (s', unset)) :
    s'.Counted := by
  have hcnt : s'.currentConcurrentStreams + s.streamMap.keys.countP (s.freed last) =
      s.currentConcurrentStreams := by
    have hloop := @unsetStreams_count last _ { s with maxSendId := last } s.streamMap.keys_nodup
    rwa [show unsetStreams last _ _ = _ from hunset] at hloop
  have heffect := getUnsetStreams_unset hunset
  have hkeys : s'.streamMap.keys = s.streamMap.keys := heffect.keys
  have hpend : s'.pendingConcurrency = s.pendingConcurrency := by rw [heffect.rest]
  have hsplit : s.concurrent = s'.concurrent + s.streamMap.keys.countP (s.freed last) := by
    have hafter : ∀ id ∈ s.streamMap.keys, (s'.isConcurrent id = true ↔
        s.isConcurrent id = true ∧ ¬ s.freed last id = true) := by
      intro id hid
      obtain ⟨stream, hget⟩ := mem_keys.mp hid
      obtain ⟨stream', hget', hrel⟩ := heffect.each.before hget
      rw [hplaced.freed_iff hid, isConcurrent_iff hget, isConcurrent_iff hget', hpend]
      by_cases hclose : last < id ∧ stream.state.isClosed = false
      · rw [if_pos hclose] at hrel
        rw [hrel]
        simp [Stream.close, H2StreamState.isClosed, hclose.1]
      · rw [if_neg hclose] at hrel
        rw [hrel]
        refine ⟨fun h => ⟨h, fun h' => hclose ⟨h'.1, h.2⟩⟩, fun h => h.1⟩
    rw [concurrent, concurrent, hkeys]
    have hle : ∀ (l : List StreamId), l ⊆ s.streamMap.keys →
        l.countP s.isConcurrent = l.countP s'.isConcurrent + l.countP (s.freed last) := by
      intro l
      induction l with
      | nil => exact fun _ => rfl
      | cons id l ih =>
        intro hl
        have hid := hl (.head _)
        have hrest := ih fun x hx => hl (.tail id hx)
        have h₁ := hafter id hid
        have h₂ := hplaced.freed_iff hid
        rw [countP_cons, countP_cons, countP_cons, hrest]
        cases hs : s.isConcurrent id <;> cases hs' : s'.isConcurrent id <;>
          cases hf : s.freed last id <;> simp_all <;> omega
    exact hle _ (List.Subset.refl _)
  rw [Counted] at h ⊢
  omega

theorem Streams.Counted.unset_ok {last : StreamId} (h : s.Counted) (hplaced : s.Placed last) :
    { s with maxSendId := last }.getUnsetStreams last ≠ .error panic := by
  intro hunset
  have hlt : s.currentConcurrentStreams < s.streamMap.keys.countP (s.freed last) := by
    have hloop := @unsetStreams_count last _ { s with maxSendId := last } s.streamMap.keys_nodup
    rwa [show unsetStreams last _ _ = _ from hunset] at hloop
  have hle : s.streamMap.keys.countP (s.freed last) ≤ s.concurrent :=
    countP_mono_left fun id hid hfreed => ((hplaced.freed_iff hid).mp hfreed).2
  rw [Counted] at h
  omega

/-! ## Streams that wait for their turn -/

def H2StreamState.isHeld (away : Bool) (state : H2StreamState) : Bool :=
  state.isSending || (away && state.isClosed)

def Conn.Held (c : Conn) : Prop :=
  ∀ id ∈ c.streams.pendingConcurrency, ∀ stream, c.streams.streamMap.lookup id = some stream →
    stream.state.isHeld c.away = true

def Conn.Spared (R : Rules) (c : Conn) : Prop :=
  ∀ kind id, R.resets kind id → id ∉ c.streams.pendingConcurrency ∧
    ∃ stream, c.streams.streamMap.lookup id = some stream

theorem StreamFrame.isSending_of_received {a b : H2StreamState} (he : e.isReceived = true)
    (h : e.move a = some b) (ha : a.isSending = true) (hreserved : a ≠ .reservedRemote) :
    b.isSending = true := by
  cases e with
  | recvHeaders eos =>
    rcases a with _ | ⟨_ | _, _ | _⟩ | _ | ⟨_ | _⟩ | ⟨_ | _⟩ | _ <;> cases eos <;> cases h <;>
      first | rfl | exact absurd rfl hreserved | cases ha
  | recvData eos =>
    rcases a with _ | ⟨_ | _, _ | _⟩ | _ | ⟨_ | _⟩ | ⟨_ | _⟩ | _ <;> cases eos <;> cases h <;>
      first | rfl | cases ha
  | sendHeaders | sendData => cases he

theorem H2StreamState.not_isClosed_of_isSending {state : H2StreamState}
    (h : state.isSending = true) : state.isClosed = false := by
  cases state <;> first | rfl | cases h

theorem Conn.Queued.not_waiting {id : StreamId} (h : Conn.Queued ⟨s, .input id, log, away⟩) :
    id ∉ s.pendingConcurrency := by
  intro hmem
  have hnodup := h.nodup
  simp only [Conn.queue, Phase.taken] at hnodup
  exact (nodup_append.mp hnodup).2.2 id (by simp [hmem]) id (by simp) rfl

/-! ## Actions that count nothing -/

/-- Neither the queue nor the states of the streams have changed. -/
structure Streams.SameStates (s s' : Streams) : Prop where
  each : s.Each (fun _ a b => b.state = a.state) s'
  keys : s'.streamMap.keys = s.streamMap.keys
  pending : s'.pendingConcurrency = s.pendingConcurrency
  count : s'.currentConcurrentStreams = s.currentConcurrentStreams

theorem Streams.SameStates.of_eq {s' : Streams} (hmap : s'.streamMap = s.streamMap)
    (hpend : s'.pendingConcurrency = s.pendingConcurrency)
    (hcnt : s'.currentConcurrentStreams = s.currentConcurrentStreams) : s.SameStates s' :=
  ⟨.of_lookup_eq (fun _ => by rw [hmap]) fun _ _ => rfl, by rw [hmap], hpend, hcnt⟩

theorem Streams.SameStates.refl (s : Streams) : s.SameStates s := .of_eq rfl rfl rfl

theorem Streams.SameStates.setStream {s s' : Streams} {id : StreamId} {stream stream' : Stream}
    (hget : s.streamMap.lookup id = some stream)
    (hmap : s'.streamMap = (s.setStream id stream').streamMap)
    (hst : stream'.state = stream.state)
    (hpend : s'.pendingConcurrency = s.pendingConcurrency)
    (hcnt : s'.currentConcurrentStreams = s.currentConcurrentStreams) : s.SameStates s' := by
  refine ⟨fun j => ?_, by rw [hmap, s.keys_setStream], hpend, hcnt⟩
  have heach : s.Each (fun _ a b => b.state = a.state) (s.setStream id stream') := by
    refine (Each.setStream hget).mono fun j a b hab => ?_
    split at hab
    · obtain ⟨rfl, rfl⟩ := hab
      exact hst
    · rw [hab]
  have hj := heach j
  rwa [← hmap] at hj

theorem RecvOnly.sameStates {s' : Streams} (h : RecvOnly s s') : s.SameStates s' := by
  refine ⟨h.each.mono ?_, h.keys, by rw [h.rest], by rw [h.rest]⟩
  rintro id a b ⟨w, rfl⟩
  rfl

theorem Resized.sameStates {s' : Streams} (h : Resized s s') : s.SameStates s' := by
  refine ⟨h.each.mono ?_, h.keys, by rw [h.rest], by rw [h.rest]⟩
  rintro id a b ⟨w, rfl, -⟩
  rfl

theorem Enlarged.sameStates {s' : Streams} {id : StreamId} {n : UInt32} (h : Enlarged id n s s') :
    s.SameStates s' := by
  refine ⟨h.each.mono fun j a b hab => ?_, h.keys, by rw [h.rest], by rw [h.rest]⟩
  split at hab
  · obtain ⟨w, rfl, -⟩ := hab
    rfl
  · rw [hab]

theorem Streams.SameStates.counted {s' : Streams} (h : s.SameStates s') (hs : s.Counted) :
    s'.Counted :=
  hs.same h.keys h.pending h.count (h.each.mono fun _ _ _ hab => by rw [hab])

theorem Streams.Counted.moved {s : Streams} {id : StreamId} {stream stream' : Stream}
    {e : StreamFrame} {state : H2StreamState} (h : s.Counted)
    (hget : s.streamMap.lookup id = some stream) (hmove : e.move stream.state = some state)
    (hid : state.isClosed = true → id ∉ s.pendingConcurrency) :
    (s.moved id stream' state).Counted := by
  have hopen := not_isClosed_of_move hmove
  cases hclosed : state.isClosed with
  | true =>
    refine h.close hget hopen (hid hclosed) hclosed rfl rfl ?_
    change s.currentConcurrentStreams - (if state.isClosed = true then 1 else 0) = _
    rw [if_pos hclosed]
  | false =>
    refine h.same (s.keys_setStream id _) rfl ?_ ((Each.setStream hget).mono ?_)
    · change s.currentConcurrentStreams - (if state.isClosed = true then 1 else 0) = _
      rw [hclosed]
      rfl
    · intro j a b hab
      split at hab
      · obtain ⟨rfl, rfl⟩ := hab
        rw [hopen]
        exact hclosed
      · rw [hab]

/-! ## Every action -/

theorem Conn.Held.of_each (h : c.Held)
    (hpend : ∀ id ∈ c'.streams.pendingConcurrency, id ∈ c.streams.pendingConcurrency)
    (heach : c.streams.Each (fun id a b => id ∈ c.streams.pendingConcurrency →
      a.state.isHeld c.away = true → b.state.isHeld c'.away = true) c'.streams) : c'.Held := by
  intro id hid stream hget
  obtain ⟨stream₀, hget₀, hheld⟩ := heach.after hget
  exact hheld (hpend id hid) (h id (hpend id hid) stream₀ hget₀)

theorem Streams.SameStates.held {s' : Streams} (h : s.SameStates s')
    (hs : Conn.Held ⟨s, phase, log, away⟩) : Conn.Held ⟨s', phase', log', away⟩ := by
  refine hs.of_each (fun id hid => ?_) (h.each.mono fun _ _ _ hab _ hheld => ?_)
  · change id ∈ s'.pendingConcurrency at hid
    rwa [h.pending] at hid
  · rwa [hab]

theorem Conn.Held.setStream {s s' : Streams} {phase phase' : Phase} {log log' : List Entry}
    {away : Bool} {id : StreamId} {stream stream' : Stream}
    (h : Conn.Held ⟨s, phase, log, away⟩) (hget : s.streamMap.lookup id = some stream)
    (hmap : s'.streamMap = (s.setStream id stream').streamMap)
    (hpend : s'.pendingConcurrency = s.pendingConcurrency)
    (hheld : id ∈ s.pendingConcurrency → stream.state.isHeld away = true →
      stream'.state.isHeld away = true) : Conn.Held ⟨s', phase', log', away⟩ := by
  refine h.of_each (fun j hj => ?_) fun j => ?_
  · change j ∈ s'.pendingConcurrency at hj
    rwa [hpend] at hj
  · have heach : s.Each (fun j a b => j ∈ s.pendingConcurrency → a.state.isHeld away = true →
        b.state.isHeld away = true) (s.setStream id stream') := by
      refine (Each.setStream hget).mono fun j a b hab => ?_
      split at hab
      · rename_i hj
        obtain ⟨rfl, rfl⟩ := hab
        rw [hj]
        exact hheld
      · rw [hab]
        exact fun _ h => h
    have hj := heach j
    rwa [← hmap] at hj

theorem Conn.Held.received {s : Streams} {phase : Phase} {log : List Entry} {away : Bool}
    {id : StreamId} {stream : Stream} {state : H2StreamState} {e : StreamFrame}
    (h : Conn.Held ⟨s, phase, log, away⟩) (htold : Conn.Told ⟨s, phase, log, away⟩)
    (hrecv : e.isReceived = true) (hget : s.streamMap.lookup id = some stream)
    (hmove : e.move stream.state = some state) (hid : id ∈ s.pendingConcurrency) :
    state.isSending = true := by
  have hheld := h id hid stream hget
  rw [isHeld, not_isClosed_of_move hmove, Bool.and_false, Bool.or_false] at hheld
  exact isSending_of_received hrecv hmove hheld (htold id stream hget).1

theorem Conn.Held.accepted (h : Conn.Held ⟨s, phase, log, away⟩) (request : RequestWrapper) :
    Conn.Held ⟨s.accepted request, phase', log', away⟩ := by
  intro id hid stream hget
  change (s.accepted request).streamMap.lookup id = some stream at hget
  rcases lookup_accepted hget with ⟨rfl, rfl⟩ | ⟨heq, hget⟩
  · rfl
  · refine h id ?_ stream hget
    change id ∈ (s.accepted request).pendingConcurrency at hid
    rcases s.accepted_cases request with ⟨-, haccepted⟩ | ⟨-, -, haccepted⟩
    · rw [haccepted] at hid
      simpa [heq] using hid
    · rwa [haccepted] at hid

/-- What an action does to the streams that are counted. -/
inductive Shift (R : Rules) (c : Conn) : Streams → Bool → Prop where
  | same {s'} : c.streams.SameStates s' → Shift R c s' c.away
  | accepted (request : RequestWrapper) : Shift R c (c.streams.accepted request) c.away
  | admitted {id ids} : c.streams.pendingConcurrency = id :: ids → c.away = false →
      Shift R c ({ c.streams with
        pendingConcurrency := ids }.increaseCurrentConcurrency.pushBackPendingSend id) c.away
  | moved {id stream stream' state} (e : StreamFrame) :
      c.streams.streamMap.lookup id = some stream → e.move stream.state = some state →
      (e.isReceived = false → c.phase = .input id) →
      Shift R c (c.streams.moved id stream' state) c.away
  | ended {id stream stream' reason} : c.streams.streamMap.lookup id = some stream →
      stream.state.isClosed = false → (c.phase = .input id ∨ ∃ kind, R.resets kind id) →
      Shift R c (c.streams.ended id stream' reason) c.away
  | late {id stream} : c.streams.streamMap.lookup id = some stream →
      stream.state = .closed .endStream →
      Shift R c (c.streams.setStream id { stream with state := .closed .localRst }) c.away
  | wentAway {s' last ids} : R.goAway last c.streams →
      { c.streams with maxSendId := last }.getUnsetStreams last = .ok (s', ids) → Shift R c s' true

theorem Action.shift (h : Action R c c') (hbdd : c.streams.Bounded) :
    Shift R c c'.streams c'.away := by
  cases h with
  | opened request => exact .accepted request
  | admitted hpend hmax => exact .admitted hpend rfl
  | headers hget _ hmove => exact .moved _ hget hmove fun _ => rfl
  | data hget => exact .same (.setStream hget rfl rfl rfl rfl)
  | finished hget _ _ _ _ hmove => exact .moved _ hget hmove fun _ => rfl
  | waited hget => exact .same (.setStream hget rfl rfl rfl rfl)
  | failed hget _ hopen => exact .ended hget hopen (.inl rfl)
  | frameReceived e hrecv hget hmove =>
    refine .moved e hget hmove fun he => ?_
    rw [hrecv] at he
    cases he
  | remoteReset hresets _ hget hopen | localReset _ hresets hget hopen =>
    exact .ended hget hopen (.inr ⟨_, hresets⟩)
  | localResetLate hget hst => exact .late hget hst
  | settings _ _ hbound hset => exact .same (recvSettings_resized hbound hbdd hset).1.sameStates
  | streamUpdate _ _ hbound hreassign =>
    exact .same (reassignStreamSendWindow_enlarged hbound hreassign).sameStates
  | dataAccepted _ _ _ hconn hstr =>
    exact .same ((releaseConnRecvWindow_recvOnly hconn).trans
      (releaseStreamRecvWindow_recvOnly hstr)).sameStates
  | dataRefused _ _ hconn => exact .same (releaseConnRecvWindow_recvOnly hconn).sameStates
  | acknowledged _ hack => exact .same (recvAcknowledged_recvOnly hack).sameStates
  | wentAway hgoAway hunset => exact .wentAway hgoAway hunset
  | taken | connUpdate | parkedStream | parkedConn =>
    exact .same (.of_eq rfl rfl rfl)
  | skipped | resetIgnored | received | sent | stopped => exact .same (.refl _)

/-- The streams of the connection are counted. -/
structure Conn.Tallied (c : Conn) : Prop where
  waits : c.Waits
  counted : c.phase ≠ .over → c.streams.Counted
  held : c.phase ≠ .over → c.Held

structure Conn.Counting (R : Rules) (c : Conn) : Prop extends c.Tallied where
  spared : c.Spared R

theorem Conn.Counting.not_waiting {id : StreamId} (h : c.Counting R) (hphase : c.phase ≠ .over)
    (hid : c.phase = .input id ∨ ∃ kind, R.resets kind id) :
    id ∉ c.streams.pendingConcurrency := by
  rcases hid with hid | ⟨kind, hresets⟩
  · have hqueued := h.waits.queued hphase
    obtain ⟨s, phase, log, away⟩ := c
    obtain rfl : phase = .input id := hid
    exact hqueued.not_waiting
  · exact (h.spared kind id hresets).1

theorem Conn.Counting.not_waiting_of_move {id : StreamId} {stream : Stream} {state : H2StreamState}
    (h : c.Counting R) (hphase : c.phase ≠ .over)
    (hget : c.streams.streamMap.lookup id = some stream) (hmove : e.move stream.state = some state)
    (hsent : e.isReceived = false → c.phase = .input id) (hclosed : state.isClosed = true) :
    id ∉ c.streams.pendingConcurrency := by
  cases hrecv : e.isReceived with
  | false => exact h.not_waiting hphase (.inl (hsent hrecv))
  | true =>
    intro hid
    have hsending := (h.held hphase).received h.waits.told hrecv hget hmove hid
    rw [not_isClosed_of_isSending hsending] at hclosed
    cases hclosed

theorem Conn.Counting.shift_counted {s' : Streams} (h : c.Counting R)
    (hplaced : ∀ last s, R.goAway last s → s.Placed last) (hphase : c.phase ≠ .over)
    (hshift : Shift R c s' away') : s'.Counted := by
  have hcounted := h.counted hphase
  have hqueued := h.waits.queued hphase
  have hmem : ∀ id ∈ c.streams.pendingConcurrency, id ∈ c.queue := by
    intro id hid
    simp [Conn.queue, hid]
  cases hshift with
  | same hsame => exact hsame.counted hcounted
  | accepted request =>
    exact hcounted.accepted h.waits.sound.numbered
      (fun id hid => hqueued.known id (hmem id hid)) request
  | @admitted id ids hpend haway =>
    have hid : id ∈ c.streams.pendingConcurrency := by rw [hpend]; exact (.head _)
    obtain ⟨stream, hget⟩ := hqueued.known id (hmem id hid)
    have hheld := h.held hphase id hid stream hget
    rw [haway, isHeld, Bool.false_and, Bool.or_false] at hheld
    have hnodup := hqueued.nodup
    simp only [Conn.queue, append_assoc] at hnodup
    exact hcounted.admitted hpend hnodup.of_append_left hget
      (not_isClosed_of_isSending hheld)
  | moved e hget hmove hsent =>
    exact hcounted.moved hget hmove (h.not_waiting_of_move hphase hget hmove hsent)
  | ended hget hopen hid =>
    exact hcounted.close hget hopen (h.not_waiting hphase hid) rfl rfl rfl rfl
  | late hget hst =>
    refine hcounted.same (c.streams.keys_setStream _ _) rfl rfl
      ((setStream hget).mono fun j a b hab => ?_)
    split at hab
    · obtain ⟨rfl, rfl⟩ := hab
      rw [hst]
      rfl
    · rw [hab]
  | wentAway hgoAway hunset => exact hcounted.unset (hplaced _ _ hgoAway) hunset

theorem Conn.Counting.shift_held {s' : Streams} (h : c.Counting R) (hphase : c.phase ≠ .over)
    (hshift : Shift R c s' away') :
    Conn.Held ⟨s', phase', log', away'⟩ := by
  have hheld := h.held hphase
  obtain ⟨s, phase, log, away⟩ := c
  cases hshift with
  | same hsame => exact hsame.held hheld
  | accepted request => exact hheld.accepted request
  | admitted hpend haway =>
    refine hheld.of_each (fun j hj => ?_) (.of_lookup_eq (fun _ => rfl) fun _ _ _ h => h)
    change j ∈ s.pendingConcurrency
    rw [hpend]
    exact mem_cons_of_mem _ hj
  | @moved id stream stream' state e hget hmove hsent =>
    refine hheld.setStream hget rfl rfl fun hid _ => ?_
    cases hrecv : e.isReceived with
    | false => exact absurd hid (h.not_waiting hphase (.inl (hsent hrecv)))
    | true =>
      rw [isHeld, hheld.received h.waits.told hrecv hget hmove hid, Bool.true_or]
  | ended hget hopen hid =>
    exact hheld.setStream hget rfl rfl fun hmem => absurd hmem (h.not_waiting hphase hid)
  | late hget hst =>
    refine hheld.setStream hget rfl rfl fun _ hbefore => ?_
    rw [hst] at hbefore
    exact hbefore
  | wentAway _ hunset =>
    have hunset := getUnsetStreams_unset hunset
    refine hheld.of_each (fun j hj => ?_) (hunset.each.mono fun j a b hab _ hbefore => ?_)
    · change j ∈ s'.pendingConcurrency at hj
      rwa [hunset.rest] at hj
    · split at hab
      · rw [hab]
        rfl
      · rw [hab]
        cases hsending : a.state.isSending with
        | true => rw [isHeld, hsending, Bool.true_or]
        | false =>
          rw [isHeld, hsending, Bool.false_or, Bool.and_eq_true] at hbefore
          rw [isHeld, hsending, hbefore.2]
          rfl

theorem Conn.Counting.shift_spared {s' : Streams} (h : c.Counting R) (hshift : Shift R c s' away') :
    Conn.Spared R ⟨s', phase', log', away'⟩ := by
  intro kind id hresets
  obtain ⟨hid, stream, hget⟩ := h.spared kind id hresets
  have heach : ∀ {P : StreamId → Stream → Stream → Prop}, c.streams.Each P s' →
      ∃ stream, s'.streamMap.lookup id = some stream := fun heach => by
    obtain ⟨stream', hget', -⟩ := heach.before hget
    exact ⟨stream', hget'⟩
  cases hshift with
  | same hsame => exact ⟨by rwa [hsame.pending], heach hsame.each⟩
  | accepted request =>
    have hne : id ≠ c.streams.nextStreamId := by
      rintro rfl
      rw [h.waits.sound.numbered.lookup_next] at hget
      cases hget
    refine ⟨?_, stream, ?_⟩
    · change id ∉ (c.streams.accepted request).pendingConcurrency
      rcases c.streams.accepted_cases request with ⟨-, heq⟩ | ⟨-, -, heq⟩
      · rw [heq]
        simp [hid, hne]
      · rwa [heq]
    · change (c.streams.accepted request).streamMap.lookup id = _
      rw [streamMap_accepted, AList.lookup_insert_ne hne, hget]
  | admitted hpend =>
    refine ⟨fun hmem => hid ?_, stream, hget⟩
    rw [hpend]
    exact mem_cons_of_mem _ hmem
  | moved e hget' | ended hget' => exact ⟨hid, heach (setStream hget')⟩
  | late hget' => exact ⟨hid, heach (setStream hget')⟩
  | wentAway _ hunset =>
    have hunset := getUnsetStreams_unset hunset
    refine ⟨?_, heach hunset.each⟩
    change id ∉ s'.pendingConcurrency
    rwa [hunset.rest]

theorem Action.counting (hplaced : ∀ last s, R.goAway last s → s.Placed last) (h : Action R c c')
    (hc : c.Counting R) : c'.Counting R := by
  have hshift := h.shift hc.waits.sound.bounded
  have hbefore : c'.phase ≠ .over → c.phase ≠ .over := fun hphase hover => hphase (h.over hover)
  exact ⟨⟨h.waits hc.waits, fun hphase => hc.shift_counted hplaced (hbefore hphase) hshift,
    fun hphase => hc.shift_held (hbefore hphase) hshift⟩, hc.shift_spared hshift⟩

def Conn.Allows (R : Rules) (c : Conn) : Prop :=
  c.Spared R ∧ ∀ last s, R.goAway last s → s.Placed last

theorem Conn.Tallied.counting (h : c.Tallied ∧ Conn.Allows R c) : c.Counting R :=
  ⟨h.1, h.2.1⟩

theorem Conn.Counting.not_trap (hplaced : ∀ last s, R.goAway last s → s.Placed last)
    (hc : c.Counting R) : ¬ Trap R c .concurrency := by
  have hpos : ∀ {id stream}, c.phase ≠ .over → c.streams.streamMap.lookup id = some stream →
      stream.state.isClosed = false → id ∉ c.streams.pendingConcurrency →
      c.streams.currentConcurrentStreams = 0 → False := by
    intro id stream hphase hget hopen hid hzero
    have hlt := (hc.counted hphase).pos hget hopen hid
    omega
  intro h
  cases h with
  | settings _ h => cases recvSettings_panic h
  | acknowledged _ h => cases recvAcknowledged_panic h
  | connData _ h => cases releaseConnRecvWindow_panic h
  | streamData _ _ h => cases releaseStreamRecvWindow_panic h
  | received e hrecv hget hmove hclosed hzero =>
    refine hpos (by simp) hget (not_isClosed_of_move hmove) ?_ hzero
    refine hc.not_waiting_of_move (by simp) hget hmove (fun he => ?_) hclosed
    rw [hrecv] at he
    cases he
  | sent e _ hget hmove hclosed hzero =>
    exact hpos (by simp) hget (not_isClosed_of_move hmove)
      (hc.not_waiting (by simp) (.inl rfl)) hzero
  | reset kind hresets hget hopen hzero =>
    exact hpos (by simp) hget hopen (hc.not_waiting (by simp) (.inr ⟨kind, hresets⟩)) hzero
  | failed hget hopen hzero =>
    exact hpos (by simp) hget hopen (hc.not_waiting (by simp) (.inl rfl)) hzero
  | wentAway hgoAway h => exact (hc.counted (by simp)).unset_ok (hplaced _ _ hgoAway) h

/-! ## The limit -/

theorem ConnManager.enqueue_within (s : Streams) (id : StreamId) :
    id ∈ (enqueue s id).pendingConcurrency ∨
      (enqueue s id).currentConcurrentStreams ≤ s.maxConcurrentStreams.toNat := by
  rw [enqueue]
  split
  · exact .inl (by simp [pushPendingConcurrency])
  · rename_i h
    refine .inr ?_
    simp only [reachMaxConcurrency, Bool.or_eq_true, not_or, ge_iff_le,
      decide_eq_true_eq, not_le] at h
    exact h.1

theorem consumePendingConcurrency_within (ids : List StreamId) (s : Streams) :
    consumePendingConcurrency ids s = s ∨
      (consumePendingConcurrency ids s).currentConcurrentStreams ≤
        s.maxConcurrentStreams.toNat := by
  induction ids generalizing s with
  | nil => exact .inl rfl
  | cons id ids ih =>
    rw [consumePendingConcurrency]
    split
    · exact .inl rfl
    · rename_i h
      simp only [reachMaxConcurrency, ge_iff_le, decide_eq_true_eq, not_le] at h
      refine .inr ?_
      rcases ih ({ s with
        pendingConcurrency := ids }.increaseCurrentConcurrency.pushBackPendingSend id) with hs | hs
      · rw [hs]
        exact h
      · exact hs

/-! ## Runs -/

namespace ConnManager

variable {config : H2Config}

def sparing (m : ConnManager) : Rules where
  resets _ id := id ∉ m.streams.pendingConcurrency ∧
    ∃ stream, m.streams.streamMap.lookup id = some stream
  goAway last s := s.Placed last
  settings _ := True

variable {m : ConnManager}

theorem start_tallied (h : start config = .ok m) :
    m.conn.Tallied := by
  obtain ⟨-, -, flow, hstreams, -⟩ := start_streams h
  refine ⟨start_waits h, fun _ => ?_, fun _ id hid => ?_⟩
  · change m.streams.Counted
    rw [hstreams]
    rfl
  · change id ∈ m.streams.pendingConcurrency at hid
    rw [hstreams] at hid
    cases hid

theorem sparing_allows (m : ConnManager) : Conn.Allows m.sparing m.conn :=
  ⟨fun _ _ h => h, fun _ _ h => h⟩

theorem Kept.tallied (h : Kept sparing config m) :
    Holds anything Conn.Tallied m := by
  refine @Kept.holds sparing config _ Conn.Allows (fun _ _ => trivial) (fun R c c' haction hc => ?_)
    sparing_allows (fun c hc => ⟨hc.waits.sound.bounded, hc.waits.sound.stored⟩)
    (fun m => start_tallied) _ h
  have hnext := haction.counting hc.2.2 (Conn.Tallied.counting hc)
  exact ⟨hnext.toTallied, hnext.spared, hc.2.2⟩

/-- The streams that take part are counted right as long as no waiting stream is reset. The
counter does not go below zero, and no stream is admitted above the limit. -/
theorem concurrency_accounting {m : ConnManager} (h : Kept sparing config m) :
    (m.Healthy → m.streams.currentConcurrentStreams = m.streams.concurrent) ∧
    (∀ env event, (m.Healthy → Permits m.sparing m env event) →
      m.step env event ≠ .error .concurrency) ∧
    (∀ s id, id ∈ (enqueue s id).pendingConcurrency ∨
      (enqueue s id).currentConcurrentStreams ≤ s.maxConcurrentStreams.toNat) ∧
    (∀ s : Streams, s.tryConsumePendingConcurrency = s ∨
      s.tryConsumePendingConcurrency.currentConcurrentStreams ≤ s.maxConcurrentStreams.toNat) := by
  refine ⟨fun hhealthy => ?_, fun env event hperm => ?_, enqueue_within,
    fun s => consumePendingConcurrency_within _ s⟩
  · exact (h.tallied.of_healthy hhealthy).counted (by simp [conn])
  · rcases h.tallied with ⟨halive, hm⟩ | ⟨hdead, -⟩
    · have hholds : Holds m.sparing (Conn.Counting m.sparing) m :=
        .inl ⟨⟨halive.goingAway, halive.state, fun _ _ => trivial⟩,
          Conn.Tallied.counting ⟨hm, sparing_allows m⟩⟩
      exact hholds.step_ne (fun _ _ h hc => h.counting (fun _ _ h => h) hc)
        (fun _ hc => ⟨hc.waits.sound.bounded, hc.waits.sound.stored⟩)
        (fun _ => hperm halive.healthy) fun c hc => hc.not_trap fun _ _ h => h
    · exact step_dead_ne hdead env event _

/-- A stream is admitted and counted. -/
theorem concurrency_accounting_one :
    ∃ m, Kept sparing plainConfig m ∧ m.Healthy ∧ m.streams.concurrent = 1 ∧
      m.streams.currentConcurrentStreams = m.streams.concurrent := by
  have hsent := @Kept.step sparing plainConfig _ _ plainEnvironment
    (.respPending [plainRequest [.octets [1, 2, 3], .pending]] false) .pending (.start rfl)
    (fun _ => trivial) rfl (by simp)
  exact ⟨_, hsent, ⟨rfl, .inl rfl⟩, rfl, (concurrency_accounting hsent).1 ⟨rfl, .inl rfl⟩⟩

/-- A reset of a stream that waits for its turn is counted. The counter goes below zero, or is
too small for the streams that take part. -/
theorem concurrency_miscounted :
    (∃ m, Reached plainConfig m ∧ m.Healthy ∧
      m.step plainEnvironment (resetStream 1) = .error .concurrency) ∧
    (∃ m, Reached plainConfig m ∧ m.Healthy ∧ m.streams.concurrent = 1 ∧
      m.streams.currentConcurrentStreams = 0) := by
  refine ⟨?_, ?_⟩
  · have hlimited := (Reached.start rfl).ready (limitStreams 0) rfl
    have hwaits := hlimited.pending (.respPending [plainRequest [.pending]] false) rfl
    exact ⟨_, hwaits, ⟨rfl, .inl rfl⟩, rfl⟩
  · have hlimited := (Reached.start rfl).ready (limitStreams 1) rfl
    have hwaits := hlimited.pending
      (.respPending [plainRequest [.pending], plainRequest [.pending]] false) rfl
    have hreset := hwaits.ready (resetStream 3) rfl
    exact ⟨_, hreset, ⟨rfl, .inl rfl⟩, rfl, rfl⟩

end ConnManager

end YlongHttp
