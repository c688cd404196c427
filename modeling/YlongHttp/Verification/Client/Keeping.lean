import YlongHttp.Verification.Client.Calls

/-! # What no call undoes

A stream that is closed stays closed, whatever is done to it or to another one, and only a new
request adds a stream. -/

namespace YlongHttp

open Library

namespace Streams

variable {stream stream' : Stream} {ids : List StreamId} {size : UInt32}
  {r : Except H2Error (Option Frame)}

def ClosedAt (s : Streams) (id : StreamId) : Prop :=
  ∃ stream, s.streamMap.lookup id = some stream ∧ stream.state.isClosed = true

/-- Closed streams are still closed, and the streams are the same ones. -/
structure Keeps (s s' : Streams) : Prop where
  closed : ∀ id, s.ClosedAt id → s'.ClosedAt id
  keys : s'.streamMap.keys = s.streamMap.keys
  nextStreamId : s'.nextStreamId = s.nextStreamId

variable {s s' : Streams} {id : StreamId}

theorem Keeps.refl (s : Streams) : s.Keeps s := ⟨fun _ h => h, rfl, rfl⟩

theorem Keeps.trans {s'' : Streams} (h : s.Keeps s') (h' : s'.Keeps s'') : s.Keeps s'' :=
  ⟨fun id hclosed => h'.closed id (h.closed id hclosed), h'.keys.trans h.keys,
    h'.nextStreamId.trans h.nextStreamId⟩

theorem Keeps.of_map (hmap : s'.streamMap = s.streamMap)
    (hnext : s'.nextStreamId = s.nextStreamId) : s.Keeps s' := by
  refine ⟨fun id h => ?_, by rw [hmap], hnext⟩
  rwa [ClosedAt, hmap]

theorem Keeps.lookup_eq_none (h : s.Keeps s') (id : StreamId) :
    s'.streamMap.lookup id = none ↔ s.streamMap.lookup id = none := by
  rw [AList.lookup_eq_none, AList.lookup_eq_none, AList.mem_keys, AList.mem_keys, h.keys]

theorem Keeps.setStream {stream stream' : Stream} (hget : s.streamMap.lookup id = some stream)
    (hclosed : stream.state.isClosed = true → stream'.state.isClosed = true) :
    s.Keeps (s.setStream id stream') := by
  refine ⟨?_, keys_setStream s id stream', rfl⟩
  rintro id' ⟨stream₁, hget₁, hclosed₁⟩
  by_cases hid : id' = id
  · subst hid
    cases hget.symm.trans hget₁
    exact ⟨stream', by rw [lookup_setStream_self, hget]; rfl, hclosed hclosed₁⟩
  · exact ⟨stream₁, by rw [lookup_setStream_of_ne s id stream' hid, hget₁], hclosed₁⟩

theorem Keeps.same (hget : s.streamMap.lookup id = some stream)
    (hst : stream'.state = stream.state) : s.Keeps (s.setStream id stream') :=
  .setStream hget fun h => by rwa [hst]

theorem Keeps.set (hmap : s'.streamMap = (s.setStream id stream').streamMap)
    (hget : s.streamMap.lookup id = some stream)
    (hclosed : stream.state.isClosed = true → stream'.state.isClosed = true)
    (hnext : s'.nextStreamId = s.nextStreamId) : s.Keeps s' :=
  (Keeps.setStream hget hclosed).trans (.of_map hmap hnext)

theorem decreaseCurrentConcurrency_keeps (h : s.decreaseCurrentConcurrency = .ok s') :
    s.Keeps s' := by
  rw [decreaseCurrentConcurrency] at h
  split at h
  · cases h
  · cases h
    exact .of_map rfl rfl

theorem closedAt_setStream (hget : s.streamMap.lookup id = some stream)
    (hclosed : stream'.state.isClosed = true) : (s.setStream id stream').ClosedAt id :=
  ⟨stream', by rw [lookup_setStream_self, hget]; rfl, hclosed⟩

/-! ### Windows -/

theorem changeStreams_keeps {ε : Type} {change : Stream → Except ε Stream} {r : Except ε Unit}
    (h : changeStreams change ids s = (s', r))
    (hstate : ∀ a b, change a = .ok b → b.state = a.state) : s.Keeps s' := by
  induction ids generalizing s with
  | nil =>
    cases h
    exact .refl _
  | cons id ids ih =>
    rw [changeStreams] at h
    split at h
    · exact ih h
    · rename_i stream hget
      split at h
      · cases h
        exact .refl _
      · rename_i stream' hchange
        exact (Keeps.same hget (hstate _ _ hchange)).trans (ih h)

theorem changeAll_keeps {change : Stream → Except Panic Stream} (h : changeAll change ids s = .ok s')
    (hstate : ∀ a b, change a = .ok b → b.state = a.state) : s.Keeps s' := by
  rw [changeAll] at h
  split at h
  · rename_i hloop
    cases h
    exact changeStreams_keeps hloop hstate
  · cases h

theorem state_of_bind {ε α : Type} {x : Except ε α} {f : α → Stream} {a b : Stream}
    (h : (do return f (← x)) = Except.ok b) (hstate : ∀ w, (f w).state = a.state) :
    b.state = a.state := by
  obtain ⟨w, -, hb⟩ := of_bind_ok h
  cases hb
  exact hstate w

theorem applySendInitialWindowSize_keeps {hash : HashOrder} {r : Except H2Error Unit}
    (h : s.applySendInitialWindowSize hash size = .ok (s', r)) : s.Keeps s' := by
  have hsize : s.Keeps { s with streamSendWindowSize := size } := .of_map rfl rfl
  simp only [applySendInitialWindowSize] at h
  split at h
  · split at h
    · rename_i hloop
      cases h
      exact hsize.trans (changeStreams_keeps hloop fun _ _ hchange =>
        state_of_bind hchange fun _ => rfl)
    · rename_i hloop
      cases h
      exact (hsize.trans (changeStreams_keeps hloop fun _ _ hchange =>
        state_of_bind hchange fun _ => rfl)).trans (.of_map rfl rfl)
  · split at h
    · obtain ⟨s₁, hreduce, h⟩ := of_bind_ok h
      cases h
      exact hsize.trans (changeAll_keeps hreduce fun _ _ hchange =>
        state_of_bind hchange fun _ => rfl)
    · cases h
      exact hsize

theorem applyRecvInitialWindowSize_keeps (h : s.applyRecvInitialWindowSize size = .ok s') :
    s.Keeps s' := by
  have hsize : s.Keeps { s with streamRecvWindowSize := size } := .of_map rfl rfl
  simp only [applyRecvInitialWindowSize] at h
  split at h
  · exact hsize.trans (changeAll_keeps h fun _ _ hchange => state_of_bind hchange fun _ => rfl)
  · split at h
    · exact hsize.trans (changeAll_keeps h fun _ _ hchange => state_of_bind hchange fun _ => rfl)
    · cases h
      exact hsize

theorem releaseConnRecvWindow_keeps (h : s.releaseConnRecvWindow size = .ok (s', r)) :
    s.Keeps s' := by
  cases h ▸ releaseConnRecvWindow_cases s size with
  | refused => exact .refl s
  | released => exact .of_map rfl rfl

theorem releaseStreamRecvWindow_keeps (h : s.releaseStreamRecvWindow id size = .ok (s', r)) :
    s.Keeps s' := by
  cases h ▸ releaseStreamRecvWindow_cases s id size with
  | unknown | refused => exact .refl s
  | released hget => exact Keeps.same hget rfl

theorem increaseConnSendWindow_keeps (size : UInt32) : s.Keeps (s.increaseConnSendWindow size).1 := by
  rw [increaseConnSendWindow]
  split
  · exact .refl s
  · exact .of_map rfl rfl

theorem reassignStreamSendWindow_keeps (id : StreamId) (size : UInt32) :
    s.Keeps (s.reassignStreamSendWindow id size).1 := by
  simp only [reassignStreamSendWindow]
  split
  · split
    · exact .of_map rfl rfl
    · exact .refl s
  · rename_i stream hget
    split
    · exact .refl s
    · split
      · exact Keeps.set rfl hget (fun h => h) rfl
      · exact Keeps.same hget rfl

/-! ### Frames -/

theorem moved_keeps {state : H2StreamState} (hget : s.streamMap.lookup id = some stream)
    (hclosed : stream.state.isClosed = true → state.isClosed = true) :
    s.Keeps (s.moved id stream state) :=
  Keeps.set rfl hget hclosed rfl

theorem call_keeps {e : StreamFrame} {r : FrameRecvState} (h : e.call id s = .ok (s', r)) :
    s.Keeps s' ∧ (r = .ok → (s.streamMap.lookup id).isSome ∧ ¬ s.ClosedAt id) := by
  cases h ▸ e.call_cases id s with
  | ignored | refused => exact ⟨.refl _, nofun⟩
  | @moved stream state hget hmove =>
    have hopen := StreamFrame.not_isClosed_of_move hmove
    refine ⟨moved_keeps hget fun hclosed => ?_, fun _ => ⟨by rw [hget]; rfl, ?_⟩⟩
    · rw [hopen] at hclosed
      cases hclosed
    · rintro ⟨stream', hget', hclosed⟩
      rw [Option.some.inj (hget'.symm.trans hget), hopen] at hclosed
      cases hclosed

theorem headers_keeps (id : StreamId) : s.Keeps (s.headers id).1 := by
  rw [headers]
  split
  · exact .refl s
  · rename_i stream hget
    split
    · exact .refl s
    · exact Keeps.same hget rfl

theorem pollSizedData_keeps {len : ℕ} {r : Except H2Error DataReadState}
    (h : s.pollSizedData id len = .ok (s', r)) : s.Keeps s' := by
  rw [pollSizedData] at h
  split at h
  · cases h
    exact .refl s
  · rename_i stream hget
    split at h
    · split at h
      · obtain ⟨sendWindow, -, h⟩ := of_bind_ok h
        obtain ⟨flowControl, -, h⟩ := of_bind_ok h
        cases h
        exact Keeps.set rfl hget (fun h => h) rfl
      · cases h
        exact Keeps.same hget rfl
    · cases h
      exact Keeps.same hget rfl
    · cases h
      exact Keeps.set rfl hget (fun h => h) rfl

theorem pollReadBody_keeps {r : Except H2Error DataReadState}
    (h : s.pollReadBody id = .ok (s', r)) : s.Keeps s' := by
  simp only [pollReadBody] at h
  split at h
  · cases h
    exact .refl s
  · split at h
    · cases h
      exact .refl s
    · split at h
      · cases h
        exact .of_map rfl rfl
      · split at h
        · cases h
          exact .of_map rfl rfl
        · exact pollSizedData_keeps h

/-! ### Resets and the end -/

theorem sendLocalReset_keeps {r : StreamEndState} (h : s.sendLocalReset id = .ok (s', r)) :
    s.Keeps s' ∧ (r = .ok → ¬ s.ClosedAt id ∧ s'.ClosedAt id) := by
  rw [sendLocalReset] at h
  split at h
  · cases h
    exact ⟨.refl s, fun h => nomatch h⟩
  · rename_i stream hget
    split at h
    · cases h
      exact ⟨Keeps.setStream hget fun _ => rfl, fun h => nomatch h⟩
    · cases h
      exact ⟨.refl s, fun h => nomatch h⟩
    · rename_i hend hclosed
      obtain ⟨s₁, hdecrease, h⟩ := of_bind_ok h
      cases h
      have hkeeps := decreaseCurrentConcurrency_keeps hdecrease
      refine ⟨(Keeps.setStream hget fun _ => rfl).trans hkeeps, fun _ => ⟨?_, ?_⟩⟩
      · rintro ⟨stream', hget', hclosed'⟩
        obtain rfl := Option.some.inj (hget'.symm.trans hget)
        cases hst : stream'.state with
        | closed reason => exact hclosed reason hst
        | _ =>
          rw [hst] at hclosed'
          cases hclosed'
      · exact hkeeps.closed id (closedAt_setStream hget rfl)

theorem recvRemoteReset_keeps {r : StreamEndState} (h : s.recvRemoteReset id = .ok (s', r)) :
    s.Keeps s' ∧ (r = .ok → (s.streamMap.lookup id).isSome ∧ ¬ s.ClosedAt id) := by
  rw [recvRemoteReset] at h
  split at h
  · cases h
    exact ⟨.refl s, fun h => nomatch h⟩
  · split at h
    · cases h
      exact ⟨.refl s, fun h => nomatch h⟩
    · rename_i stream hget
      split at h
      · cases h
        exact ⟨.refl s, fun h => nomatch h⟩
      · rename_i hopen
        obtain ⟨s₁, hdecrease, h⟩ := of_bind_ok h
        cases h
        refine ⟨(Keeps.setStream hget fun _ => rfl).trans
          (decreaseCurrentConcurrency_keeps hdecrease), fun _ => ⟨by rw [hget]; rfl, ?_⟩⟩
        rintro ⟨stream', hget', hclosed'⟩
        cases hget'.symm.trans hget
        exact hopen hclosed'

theorem unsetStream_keeps (hget : s.streamMap.lookup id = some stream)
    (h : s.unsetStream id stream = .ok s') : s.Keeps s' ∧ s'.ClosedAt id := by
  rw [unsetStream] at h
  split at h
  · rename_i reason hst
    cases h
    exact ⟨.refl s, stream, hget, by rw [hst]; rfl⟩
  · cases h
    exact ⟨Keeps.setStream hget fun _ => rfl, closedAt_setStream hget rfl⟩
  · have hkeeps := decreaseCurrentConcurrency_keeps h
    exact ⟨(Keeps.setStream hget fun _ => rfl).trans hkeeps,
      hkeeps.closed id (closedAt_setStream hget rfl)⟩

theorem unsetStreams_keeps {last : StreamId} {unset : List StreamId}
    (h : unsetStreams last ids s = .ok (s', unset)) :
    s.Keeps s' ∧ unset.Sublist ids ∧ ∀ id ∈ unset, last < id ∧ s'.ClosedAt id := by
  induction ids generalizing s unset with
  | nil =>
    cases h
    exact ⟨.refl _, .slnil, by simp⟩
  | cons id ids ih =>
    rw [unsetStreams] at h
    split at h
    · obtain ⟨hkeeps, hsub, hunset⟩ := ih h
      exact ⟨hkeeps, hsub.cons id, hunset⟩
    · rename_i stream hget
      split at h
      · rename_i hlast
        obtain ⟨s₁, hone, h⟩ := of_bind_ok h
        obtain ⟨⟨s₂, unset₂⟩, hrest, h⟩ := of_bind_ok h
        cases h
        obtain ⟨hkeeps₁, hclosed⟩ := unsetStream_keeps hget hone
        obtain ⟨hkeeps, hsub, hunset⟩ := ih hrest
        refine ⟨hkeeps₁.trans hkeeps, hsub.cons_cons id, fun id' hid' => ?_⟩
        rcases List.mem_cons.mp hid' with rfl | hid'
        · exact ⟨hlast, hkeeps.closed _ hclosed⟩
        · exact hunset id' hid'
      · obtain ⟨hkeeps, hsub, hunset⟩ := ih h
        exact ⟨hkeeps, hsub.cons id, hunset⟩

theorem clearStreamsStates_keeps (s : Streams) : s.Keeps s.clearStreamsStates := .of_map rfl rfl

theorem getAllUnclosedStreams_keeps (s : Streams) :
    s.Keeps s.getAllUnclosedStreams.1 ∧ s.getAllUnclosedStreams.2.Nodup ∧
      ∀ id ∈ s.getAllUnclosedStreams.2, ¬ s.ClosedAt id ∧ s.getAllUnclosedStreams.1.ClosedAt id := by
  have hget : ∀ id, s.getAllUnclosedStreams.1.streamMap.lookup id =
      (s.streamMap.lookup id).map fun stream =>
        if stream.state.isClosed then stream else stream.close .localGoAway :=
    fun id => lookup_mapVal _ s.streamMap id
  refine ⟨⟨?_, keys_mapVal _ s.streamMap, rfl⟩, ?_, ?_⟩
  · rintro id ⟨stream, hid, hclosed⟩
    exact ⟨stream, by rw [hget, hid]; simp [hclosed], hclosed⟩
  · exact s.streamMap.keys_nodup.sublist (List.filter_sublist.map _)
  · intro id hid
    obtain ⟨⟨id', stream⟩, hmem, rfl⟩ := List.mem_map.mp hid
    obtain ⟨hmem, hopen⟩ := List.mem_filter.mp hmem
    have hfound := AList.mem_lookup_iff.mpr hmem
    simp only [Bool.not_eq_true'] at hopen
    refine ⟨?_, stream.close .localGoAway, ?_, rfl⟩
    · rintro ⟨stream', hget', hclosed⟩
      cases hget'.symm.trans hfound
      rw [hopen] at hclosed
      cases hclosed
    · rw [hget, hfound]
      simp [hopen]

theorem consumePendingConcurrency_keeps (ids : List StreamId) (s : Streams) :
    s.Keeps (consumePendingConcurrency ids s) := by
  induction ids generalizing s with
  | nil => exact .refl s
  | cons id ids ih =>
    rw [consumePendingConcurrency]
    split
    · exact .refl s
    · refine Keeps.trans ?_ (ih _)
      exact .of_map rfl rfl

end Streams

end YlongHttp
