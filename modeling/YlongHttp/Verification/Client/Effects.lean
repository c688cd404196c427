import YlongHttp.Verification.Client.Windows

/-! # What the loops over the streams change -/

namespace YlongHttp

open List Streams
open Library

variable {id last : StreamId} {ids unset : List StreamId} {size : UInt32}
  {settings : List Setting} {update : Except H2Error (Option Frame)} {stream : Stream}

/-- Every stream of `s` is in `s'`, changed as `R` says, and `s'` has no others. -/
def Streams.Each (R : StreamId → Stream → Stream → Prop) (s s' : Streams) : Prop :=
  ∀ id, Option.Rel (R id) (s.streamMap.lookup id) (s'.streamMap.lookup id)

namespace Streams.Each

variable {R Q : StreamId → Stream → Stream → Prop} {s s' s'' : Streams}

theorem after (h : Each R s s') {stream' : Stream} (hget : s'.streamMap.lookup id = some stream') :
    ∃ stream, s.streamMap.lookup id = some stream ∧ R id stream stream' := by
  have hrel := h id
  rw [hget] at hrel
  cases hs : s.streamMap.lookup id with
  | none =>
    rw [hs] at hrel
    cases hrel
  | some stream =>
    rw [hs] at hrel
    cases hrel with
    | some hR => exact ⟨stream, rfl, hR⟩

theorem before (h : Each R s s') {id : StreamId} {stream : Stream}
    (hget : s.streamMap.lookup id = some stream) :
    ∃ stream', s'.streamMap.lookup id = some stream' ∧ R id stream stream' := by
  have hrel := h id
  rw [hget] at hrel
  cases hs : s'.streamMap.lookup id with
  | none =>
    rw [hs] at hrel
    cases hrel
  | some stream' =>
    rw [hs] at hrel
    cases hrel with
    | some hR => exact ⟨stream', rfl, hR⟩

theorem of_lookup_eq (h : ∀ id, s'.streamMap.lookup id = s.streamMap.lookup id)
    (hrefl : ∀ id stream, R id stream stream) : Each R s s' := by
  intro id
  rw [h id]
  cases s.streamMap.lookup id with
  | none => exact .none
  | some stream => exact .some (hrefl id stream)

theorem mono (h : Each R s s') (hRQ : ∀ id a b, R id a b → Q id a b) : Each Q s s' := by
  intro id
  have hrel := h id
  revert hrel
  cases s.streamMap.lookup id <;> cases s'.streamMap.lookup id <;> intro hrel <;> cases hrel
  · exact .none
  · rename_i hR
    exact .some (hRQ _ _ _ hR)

theorem trans {P : StreamId → Stream → Stream → Prop} (h : Each R s s') (h' : Each Q s' s'')
    (hP : ∀ id a b c, R id a b → Q id b c → P id a c) : Each P s s'' := by
  intro id
  have hrel := h id
  have hrel' := h' id
  revert hrel hrel'
  cases s.streamMap.lookup id <;> cases s'.streamMap.lookup id <;>
    cases s''.streamMap.lookup id <;> intro hrel hrel' <;> cases hrel <;> cases hrel'
  · exact .none
  · exact .some (hP _ _ _ _ ‹_› ‹_›)

theorem setStream {id : StreamId} {stream stream' : Stream}
    (hget : s.streamMap.lookup id = some stream) :
    Each (fun j a b => if j = id then a = stream ∧ b = stream' else b = a) s
      (s.setStream id stream') := by
  intro j
  by_cases hj : j = id
  · subst hj
    simp only [lookup_setStream_self, hget, Option.map_some, if_true]
    exact .some ⟨rfl, rfl⟩
  · rw [lookup_setStream_of_ne _ _ _ hj]
    cases s.streamMap.lookup j with
    | none => exact .none
    | some a => exact .some (by simp [hj])

end Streams.Each

/-! ## Loops over the send windows -/

def Streams.SameRest (s s' : Streams) : Prop :=
  s'.streamMap.keys = s.streamMap.keys ∧ s' = { s with streamMap := s'.streamMap }

theorem Streams.SameRest.refl (s : Streams) : s.SameRest s := ⟨rfl, rfl⟩

theorem Streams.SameRest.trans {s s' s'' : Streams} (h : s.SameRest s') (h' : s'.SameRest s'') :
    s.SameRest s'' := by
  refine ⟨h'.1.trans h.1, ?_⟩
  rw [h'.2, h.2]

theorem Streams.SameRest.setStream (s : Streams) (id : StreamId) (stream : Stream) :
    s.SameRest (s.setStream id stream) :=
  ⟨s.keys_setStream id stream, rfl⟩

theorem Streams.Each.cons {R : StreamId → Stream → Stream → Prop} {s s' : Streams} {id : StreamId}
    {ids : List StreamId} {stream : Stream} (stream' : Stream) (hid : id ∉ ids)
    (hget : s.streamMap.lookup id = some stream) (hR : R id stream stream')
    (h : Each (fun j a b => if j ∈ ids then R j a b else b = a) (s.setStream id stream') s') :
    Each (fun j a b => if j ∈ id :: ids then R j a b else b = a) s s' := by
  refine (Each.setStream hget).trans h ?_
  intro j a b c hab hbc
  by_cases hj : j = id
  · subst hj
    simp only [if_true, hid, if_false] at hab hbc
    obtain ⟨rfl, rfl⟩ := hab
    subst hbc
    simpa using hR
  · simp only [hj, if_false] at hab
    subst hab
    simpa [hj] using hbc

variable {R : StreamId → Stream → Stream → Prop} {s s' : Streams}
  {change : Stream → Except Panic Stream}

theorem Streams.Each.skip (hget : s.streamMap.lookup id = none)
    (h : Each (fun j a b => if j ∈ ids then R j a b else b = a) s s') :
    Each (fun j a b => if j ∈ id :: ids then R j a b else b = a) s s' := by
  intro j
  have hrel := h j
  by_cases hj : j = id
  · subst hj
    rw [hget] at hrel ⊢
    cases hl : s'.streamMap.lookup j with
    | none => exact .none
    | some b =>
      rw [hl] at hrel
      cases hrel
  · simpa [hj] using hrel

theorem Streams.Each.all (hids : ids.Perm s.streamMap.keys)
    (h : Each (fun j a b => if j ∈ ids then R j a b else b = a) s s') : Each R s s' := by
  intro j
  have hrel := h j
  cases hget : s.streamMap.lookup j with
  | none =>
    rw [hget] at hrel
    revert hrel
    cases s'.streamMap.lookup j <;> intro hrel <;> cases hrel
    exact .none
  | some a =>
    have hmem : j ∈ ids := by
      rw [hids.mem_iff, ← AList.mem_keys, ← AList.lookup_isSome, hget]
      rfl
    simpa [hget, hmem] using hrel

section
variable {ε : Type} {change : Stream → Except ε Stream} {s s' : Streams}

theorem changeStreams_error {e : ε} (h : changeStreams change ids s = (s', .error e)) :
    ∃ stream, change stream = .error e := by
  induction ids generalizing s with
  | nil => cases h
  | cons id ids ih =>
    rw [changeStreams] at h
    split at h
    · exact ih h
    · split at h
      · rename_i hchange
        cases h
        exact ⟨_, hchange⟩
      · exact ih h

theorem changeStreams_effect (hnodup : ids.Nodup) (h : changeStreams change ids s = (s', .ok ())) :
    s.SameRest s' ∧ s.Each (fun j a b => if j ∈ ids then change a = .ok b else b = a) s' := by
  induction ids generalizing s with
  | nil =>
    cases h
    exact ⟨.refl _, .of_lookup_eq (fun _ => rfl) (by simp)⟩
  | cons id ids ih =>
    obtain ⟨hid, hnodup⟩ := nodup_cons.mp hnodup
    rw [changeStreams] at h
    cases hget : s.streamMap.lookup id with
    | none =>
      simp only [hget] at h
      obtain ⟨hrest, heach⟩ := ih hnodup h
      exact ⟨hrest, .skip hget heach⟩
    | some stream =>
      simp only [hget] at h
      split at h
      · cases h
      · rename_i stream' hchange
        obtain ⟨hrest, heach⟩ := ih hnodup h
        exact ⟨.trans (.setStream s id _) hrest, .cons _ hid hget hchange heach⟩

theorem changeStreams_of_forall (h : ∀ id stream, s.streamMap.lookup id = some stream → id ∈ ids →
      ∃ stream', change stream = .ok stream') (hnodup : ids.Nodup) :
    ∃ s', changeStreams change ids s = (s', .ok ()) := by
  induction ids generalizing s with
  | nil => exact ⟨s, rfl⟩
  | cons id ids ih =>
    obtain ⟨hid, hnodup⟩ := nodup_cons.mp hnodup
    rw [changeStreams]
    cases hget : s.streamMap.lookup id with
    | none => exact ih (fun j stream hl hj => h j stream hl (.tail id hj)) hnodup
    | some stream =>
      obtain ⟨stream', hchange⟩ := h id stream hget (.head _)
      simp only [hchange]
      refine ih (fun j stream hl hj => ?_) hnodup
      have hne : j ≠ id := fun hj' => hid (hj' ▸ hj)
      rw [lookup_setStream_of_ne _ _ _ hne] at hl
      exact h j stream hl (.tail id hj)

end

theorem changeAll_ok :
    changeAll change ids s = .ok s' ↔ changeStreams change ids s = (s', .ok ()) := by
  rw [changeAll]
  split
  · rename_i hloop
    rw [hloop]
    simp
  · rename_i hloop
    rw [hloop]
    simp

theorem changeAll_error {panic : Panic} (h : changeAll change ids s = .error panic) :
    ∃ stream, change stream = .error panic := by
  rw [changeAll] at h
  split at h
  · cases h
  · rename_i hloop
    cases h
    exact changeStreams_error hloop

/-! ## Settings -/

/-- What a SETTINGS frame of the server does: the send windows are shifted with the initial
size, and the streams that wait for a window are put back when it grows. -/
structure Resized (s s' : Streams) : Prop where
  each : s.Each (fun _ a b => ∃ w, b = { a with sendWindow := w } ∧
    w.size.val = a.sendWindow.size.val +
      (s'.streamSendWindowSize.toNat - s.streamSendWindowSize.toNat : ℤ)) s'
  keys : s'.streamMap.keys = s.streamMap.keys
  queues : (s'.pendingStreamWindow = [] ∧
      ∃ ids, ids.Perm s.pendingStreamWindow ∧ s'.pendingSend = s.pendingSend ++ ids) ∨
    (s'.pendingStreamWindow = s.pendingStreamWindow ∧ s'.pendingSend = s.pendingSend ∧
      s'.streamSendWindowSize ≤ s.streamSendWindowSize)
  rest : s' = { s with
    streamSendWindowSize := s'.streamSendWindowSize
    maxConcurrentStreams := s'.maxConcurrentStreams
    pendingSend := s'.pendingSend
    pendingStreamWindow := s'.pendingStreamWindow
    streamMap := s'.streamMap }

theorem Resized.refl (s : Streams) : Resized s s where
  each := .of_lookup_eq (fun _ => rfl) fun _ a => ⟨a.sendWindow, rfl, by simp⟩
  keys := rfl
  queues := .inr ⟨rfl, rfl, UInt32.le_refl _⟩
  rest := rfl

theorem Resized.trans {s s' s'' : Streams} (h : Resized s s') (h' : Resized s' s'') :
    Resized s s'' where
  each := by
    refine h.each.trans h'.each ?_
    rintro id a b c ⟨w, rfl, hw⟩ ⟨w', rfl, hw'⟩
    exact ⟨w', rfl, by rw [hw', hw]; ring⟩
  keys := h'.keys.trans h.keys
  queues := by
    rcases h.queues with ⟨hnil, ids, hids, hsend⟩ | ⟨hsame, hsend, hle⟩ <;>
      rcases h'.queues with ⟨hnil', ids', hids', hsend'⟩ | ⟨hsame', hsend', hle'⟩
    · rw [hnil, perm_nil] at hids'
      subst hids'
      exact .inl ⟨hnil', ids, hids, by rw [hsend', hsend, append_nil]⟩
    · exact .inl ⟨by rw [hsame', hnil], ids, hids, by rw [hsend', hsend]⟩
    · exact .inl ⟨hnil', ids', by rwa [hsame] at hids', by rw [hsend', hsend]⟩
    · exact .inr ⟨hsame'.trans hsame, hsend'.trans hsend, UInt32.le_trans hle' hle⟩
  rest := by
    have h₁ := h.rest
    have h₂ := h'.rest
    generalize hsize : s''.streamSendWindowSize = size at h₂ ⊢
    generalize hmax : s''.maxConcurrentStreams = maxStreams at h₂ ⊢
    generalize hsend : s''.pendingSend = send at h₂ ⊢
    generalize hwin : s''.pendingStreamWindow = window at h₂ ⊢
    generalize hmap : s''.streamMap = map at h₂ ⊢
    rw [h₂, h₁]

theorem HashOrder.nodup_keys (hash : HashOrder) (s : Streams) :
    (hash.order s.streamMap.keys).Nodup :=
  (hash.perm _).nodup_iff.mpr s.streamMap.keys_nodup

theorem applySendInitialWindowSize_resized {hash : HashOrder} (hsize : size ≤ maxFlowControlWindow)
    (hcurrent : s.streamSendWindowSize ≤ maxFlowControlWindow)
    (h : s.applySendInitialWindowSize hash size = .ok (s', .ok ())) :
    Resized s s' ∧ s'.streamSendWindowSize = size := by
  have hnodup := hash.nodup_keys s
  have hperm := hash.perm s.streamMap.keys
  simp only [applySendInitialWindowSize] at h
  split at h
  · rename_i hlt
    have hsub : (size - s.streamSendWindowSize).toNat = size.toNat - s.streamSendWindowSize.toNat :=
      UInt32.toNat_sub_of_le _ _ (UInt32.le_of_lt hlt)
    have hle := UInt32.lt_iff_toNat_lt.mp hlt
    have hexcess : size - s.streamSendWindowSize ≤ maxFlowControlWindow := by
      rw [UInt32.le_iff_toNat_le] at hsize ⊢
      omega
    split at h
    · cases h
    · rename_i s₁ hloop
      cases h
      obtain ⟨⟨hkeys, hrest⟩, heach⟩ := changeStreams_effect hnodup hloop
      refine ⟨⟨?_, hkeys, .inl ⟨rfl, _, hash.perm _, by rw [hrest]⟩, by rw [hrest]⟩, by rw [hrest]⟩
      refine (heach.all hperm).mono ?_
      intro id a b hchange
      obtain ⟨w, hw, hb⟩ := of_bind_ok hchange
      cases hb
      refine ⟨w, rfl, ?_⟩
      rw [SendWindow.increaseSize_ok hexcess hw, hsub, hrest]
      dsimp only
      omega
  · split at h
    · rename_i hlt
      have hsub : (s.streamSendWindowSize - size).toNat =
          s.streamSendWindowSize.toNat - size.toNat :=
        UInt32.toNat_sub_of_le _ _ (UInt32.le_of_lt hlt)
      have hle := UInt32.lt_iff_toNat_lt.mp hlt
      have hexcess : s.streamSendWindowSize - size ≤ maxFlowControlWindow := by
        rw [UInt32.le_iff_toNat_le] at hcurrent ⊢
        omega
      obtain ⟨s₁, hloop, h⟩ := of_bind_ok h
      cases h
      obtain ⟨⟨hkeys, hrest⟩, heach⟩ := changeStreams_effect hnodup (changeAll_ok.mp hloop)
      refine ⟨⟨?_, hkeys, .inr ⟨by rw [hrest], by rw [hrest], ?_⟩, by rw [hrest]⟩, by rw [hrest]⟩
      · refine (heach.all hperm).mono ?_
        intro id a b hchange
        obtain ⟨w, hw, hb⟩ := of_bind_ok hchange
        cases hb
        refine ⟨w, rfl, ?_⟩
        rw [SendWindow.reduceSize_ok hexcess hw, hsub, hrest]
        dsimp only
        omega
      · rw [hrest]
        exact UInt32.le_of_lt hlt
    · rename_i hnot hnot'
      cases h
      have heq : s.streamSendWindowSize = size := by
        rw [gt_iff_lt, UInt32.lt_iff_toNat_lt] at hnot'
        rw [UInt32.lt_iff_toNat_lt] at hnot
        exact UInt32.toNat_inj.mp (by omega)
      subst heq
      exact ⟨.refl s, rfl⟩

def announcedSize : List Setting → UInt32 → UInt32
  | [], size => size
  | .initialWindowSize n :: settings, _ => announcedSize settings n
  | _ :: settings, size => announcedSize settings size

theorem recvSettings_resized {env : Environment}
    (hbound : ∀ n, .initialWindowSize n ∈ settings → n ≤ maxFlowControlWindow)
    (hcurrent : s.streamSendWindowSize ≤ maxFlowControlWindow)
    (h : ConnManager.recvSettings env settings s = .ok (s', .ok ())) :
    Resized s s' ∧ s'.streamSendWindowSize ≤ maxFlowControlWindow ∧
      s'.streamSendWindowSize = announcedSize settings s.streamSendWindowSize := by
  induction settings generalizing s with
  | nil =>
    cases h
    exact ⟨.refl _, hcurrent, rfl⟩
  | cons setting settings ih =>
    have hbound' : ∀ n, .initialWindowSize n ∈ settings → n ≤ maxFlowControlWindow :=
      fun n hn => hbound n (.tail setting hn)
    cases setting with
    | maxConcurrentStreams num =>
      have hmax : Resized s (s.applyMaxConcurrentStreams num) := { Resized.refl s with rest := rfl }
      obtain ⟨hresized, hle, hsize⟩ := ih (s := s.applyMaxConcurrentStreams num) hbound' hcurrent h
      exact ⟨hmax.trans hresized, hle, hsize⟩
    | initialWindowSize size =>
      simp only [ConnManager.recvSettings] at h
      split at h
      · cases h
      · cases h
      · rename_i s₁ happly
        have hsize := hbound size (.head _)
        obtain ⟨hresized, hsize₁⟩ := applySendInitialWindowSize_resized hsize hcurrent happly
        obtain ⟨hresized', hle, hsize'⟩ := ih hbound' (by rwa [hsize₁]) h
        exact ⟨hresized.trans hresized', hle, by rw [hsize', hsize₁]; rfl⟩
    | headerTableSize | enablePush | maxFrameSize | maxHeaderListSize =>
      exact ih hbound' hcurrent h

/-! ## Receive windows -/

/-- Only receive windows have changed. -/
structure RecvOnly (s s' : Streams) : Prop where
  each : s.Each (fun _ a b => ∃ w, b = { a with recvWindow := w }) s'
  keys : s'.streamMap.keys = s.streamMap.keys
  rest : s' = { s with
    streamRecvWindowSize := s'.streamRecvWindowSize
    flowControl := { s.flowControl with recvWindow := s'.flowControl.recvWindow }
    streamMap := s'.streamMap }

theorem RecvOnly.refl (s : Streams) : RecvOnly s s :=
  ⟨.of_lookup_eq (fun _ => rfl) fun _ a => ⟨a.recvWindow, rfl⟩, rfl, rfl⟩

theorem RecvOnly.trans {s s' s'' : Streams} (h : RecvOnly s s') (h' : RecvOnly s' s'') :
    RecvOnly s s'' where
  each := by
    refine h.each.trans h'.each ?_
    rintro id a b c ⟨w, rfl⟩ ⟨w', rfl⟩
    exact ⟨w', rfl⟩
  keys := h'.keys.trans h.keys
  rest := by
    have h₁ := h.rest
    have h₂ := h'.rest
    generalize hsize : s''.streamRecvWindowSize = size at h₂ ⊢
    generalize hwin : s''.flowControl.recvWindow = window at h₂ ⊢
    generalize hmap : s''.streamMap = map at h₂ ⊢
    rw [h₂, h₁]

theorem RecvOnly.setStream {s : Streams} {id : StreamId} {stream : Stream}
    (hget : s.streamMap.lookup id = some stream) (recvWindow : RecvWindow) :
    RecvOnly s (s.setStream id { stream with recvWindow }) where
  each := by
    refine (Each.setStream hget).mono ?_
    intro j a b hab
    split at hab
    · obtain ⟨rfl, rfl⟩ := hab
      exact ⟨recvWindow, rfl⟩
    · exact ⟨a.recvWindow, hab⟩
  keys := s.keys_setStream id _
  rest := rfl

theorem releaseConnRecvWindow_recvOnly (h : s.releaseConnRecvWindow size = .ok (s', update)) :
    RecvOnly s s' := by
  cases h ▸ releaseConnRecvWindow_cases s size with
  | refused => exact .refl s
  | released => exact { RecvOnly.refl s with rest := rfl }

theorem releaseConnRecvWindow_streamMap (h : s.releaseConnRecvWindow size = .ok (s', update)) :
    s'.streamMap = s.streamMap := by
  cases h ▸ releaseConnRecvWindow_cases s size <;> rfl

theorem releaseStreamRecvWindow_recvOnly
    (h : s.releaseStreamRecvWindow id size = .ok (s', update)) : RecvOnly s s' := by
  cases h ▸ releaseStreamRecvWindow_cases s id size with
  | unknown | refused => exact .refl s
  | @released _ recvWindow _ hget => exact .setStream hget recvWindow

theorem recvAcknowledged_recvOnly (h : ConnManager.recvAcknowledged settings s = .ok s') :
    RecvOnly s s' := by
  induction settings generalizing s with
  | nil =>
    cases h
    exact .refl _
  | cons setting settings ih =>
    cases setting with
    | initialWindowSize size =>
      obtain ⟨s₁, happly, h⟩ := of_bind_ok h
      refine RecvOnly.trans ?_ (ih h)
      have hmoved : ∀ {move} {s₂ : Streams}, moveRecvWindows move s.streamMap.keys
          { s with streamRecvWindowSize := size } = .ok s₂ → RecvOnly s s₂ := by
        intro move s₂ hloop
        obtain ⟨⟨hkeys, hrest⟩, heach⟩ :=
          changeStreams_effect s.streamMap.keys_nodup (changeAll_ok.mp hloop)
        refine ⟨(heach.all (List.Perm.refl _)).mono ?_, hkeys, by rw [hrest]⟩
        intro id a b hchange
        obtain ⟨w, -, hb⟩ := of_bind_ok hchange
        cases hb
        exact ⟨w, rfl⟩
      simp only [applyRecvInitialWindowSize] at happly
      split at happly
      · exact hmoved happly
      · split at happly
        · exact hmoved happly
        · cases happly
          exact { RecvOnly.refl s with rest := rfl }
    | headerTableSize | enablePush | maxFrameSize | maxHeaderListSize
    | maxConcurrentStreams => exact ih h

/-! ## GOAWAY -/

/-- What a GOAWAY frame does to the streams above its last one. -/
structure Unset (last : StreamId) (s s' : Streams) : Prop where
  each : s.Each (fun id a b => if last < id ∧ a.state.isClosed = false then
    b = a.close .remoteGoAway else b = a) s'
  keys : s'.streamMap.keys = s.streamMap.keys
  rest : s' = { s with
    currentConcurrentStreams := s'.currentConcurrentStreams
    streamMap := s'.streamMap }

theorem unsetStream_effect (hget : s.streamMap.lookup id = some stream)
    (h : s.unsetStream id stream = .ok s') :
    s' = { s.setStream id (if stream.state.isClosed then stream else stream.close .remoteGoAway) with
      currentConcurrentStreams := s'.currentConcurrentStreams } := by
  rw [unsetStream] at h
  cases hst : stream.state with
  | closed reason =>
    simp only [hst] at h
    cases h
    simp only [H2StreamState.isClosed, if_true]
    rw [s.setStream_eq_self id hget]
  | idle =>
    simp only [hst] at h
    cases h
    rfl
  | «open» send recv | reservedRemote | localHalfClosed recv | remoteHalfClosed send =>
    simp only [hst, decreaseCurrentConcurrency] at h
    split at h <;> cases h
    rfl

theorem unsetStreams_effect (hnodup : ids.Nodup) (h : unsetStreams last ids s = .ok (s', unset)) :
    s'.streamMap.keys = s.streamMap.keys ∧
      s' = { s with
        currentConcurrentStreams := s'.currentConcurrentStreams
        streamMap := s'.streamMap } ∧
      s.Each (fun j a b => if j ∈ ids then
        (if last < j ∧ a.state.isClosed = false then b = a.close .remoteGoAway else b = a)
        else b = a) s' := by
  induction ids generalizing s unset with
  | nil =>
    cases h
    exact ⟨rfl, rfl, .of_lookup_eq (fun _ => rfl) (by simp)⟩
  | cons id ids ih =>
    obtain ⟨hid, hnodup⟩ := nodup_cons.mp hnodup
    rw [unsetStreams] at h
    cases hget : s.streamMap.lookup id with
    | none =>
      simp only [hget] at h
      obtain ⟨hkeys, hrest, heach⟩ := ih hnodup h
      exact ⟨hkeys, hrest, .skip hget heach⟩
    | some stream =>
      simp only [hget] at h
      split at h
      · rename_i hlt
        obtain ⟨s₁, hone, h⟩ := of_bind_ok h
        obtain ⟨⟨s₂, unset₂⟩, hloop, h⟩ := of_bind_ok h
        cases h
        have hs₁ := unsetStream_effect hget hone
        obtain ⟨hkeys, hrest, heach⟩ := ih hnodup hloop
        have hmap₁ : s₁.streamMap = (s.setStream id
            (if stream.state.isClosed then stream else stream.close .remoteGoAway)).streamMap := by
          rw [hs₁]
        refine ⟨hkeys.trans (by rw [hmap₁, s.keys_setStream]), ?_, ?_⟩
        · rw [hrest, hs₁]
          rfl
        · refine .cons (if stream.state.isClosed then stream
            else stream.close .remoteGoAway) hid hget ?_ ?_
          · cases hclosed : stream.state.isClosed <;> simp [hlt]
          · intro j
            have hrel := heach j
            rwa [hmap₁] at hrel
      · rename_i hle
        obtain ⟨hkeys, hrest, heach⟩ := ih hnodup h
        refine ⟨hkeys, hrest, ?_⟩
        refine .cons stream hid hget ?_ ?_
        · simp [hle]
        · rwa [s.setStream_eq_self id hget]

theorem getUnsetStreams_unset (h : s.getUnsetStreams last = .ok (s', unset)) :
    Unset last s s' := by
  obtain ⟨hkeys, hrest, heach⟩ := unsetStreams_effect s.streamMap.keys_nodup h
  exact ⟨heach.all (List.Perm.refl _), hkeys, hrest⟩

/-! ## WINDOW_UPDATE of a stream -/

/-- What a WINDOW_UPDATE frame of a stream does: its window is increased, and it is put back
into the queue when it waits for its window. -/
structure Enlarged (id : StreamId) (n : UInt32) (s s' : Streams) : Prop where
  each : s.Each (fun j a b => if j = id then ∃ w, b = { a with sendWindow := w } ∧
    w.size.val = a.sendWindow.size.val + n.toNat else b = a) s'
  keys : s'.streamMap.keys = s.streamMap.keys
  queues : (id ∈ s.pendingStreamWindow ∧ s'.pendingStreamWindow = s.pendingStreamWindow.erase id ∧
      s'.pendingSend = s.pendingSend ++ [id]) ∨
    (id ∉ s.pendingStreamWindow ∧ s'.pendingStreamWindow = s.pendingStreamWindow ∧
      s'.pendingSend = s.pendingSend)
  rest : s' = { s with
    pendingSend := s'.pendingSend
    pendingStreamWindow := s'.pendingStreamWindow
    streamMap := s'.streamMap }

theorem reassignStreamSendWindow_enlarged {n : UInt32} (hn : n ≤ maxFlowControlWindow)
    (h : s.reassignStreamSendWindow id n = (s', .ok ())) :
    Enlarged id n s s' := by
  have hrequeue : ∀ s₁ : Streams, s₁.pendingStreamWindow = s.pendingStreamWindow →
      s₁.pendingSend = s.pendingSend → s₁.streamMap.keys = s.streamMap.keys →
      s₁ = { s with streamMap := s₁.streamMap } →
      (s.Each (fun j a b => if j = id then ∃ w, b = { a with sendWindow := w } ∧
        w.size.val = a.sendWindow.size.val + n.toNat else b = a) s₁) →
      Enlarged id n s (if id ∈ s₁.pendingStreamWindow then
        { s₁ with pendingStreamWindow := s₁.pendingStreamWindow.erase id }.pushBackPendingSend id
        else s₁) := by
    intro s₁ hwin hsend hkeys hrest heach
    split
    · rename_i hmem
      rw [hwin] at hmem
      refine ⟨heach, hkeys, .inl ⟨hmem, ?_, ?_⟩, ?_⟩
      · simp [pushBackPendingSend, hwin]
      · simp [pushBackPendingSend, hsend]
      · rw [hrest]
        rfl
    · rename_i hmem
      rw [hwin] at hmem
      exact ⟨heach, hkeys, .inr ⟨hmem, hwin, hsend⟩, by rw [hrest]⟩
  simp only [reassignStreamSendWindow] at h
  cases hget : s.streamMap.lookup id with
  | none =>
    simp only [hget] at h
    obtain ⟨rfl, -⟩ := Prod.mk.inj h
    refine hrequeue s rfl rfl rfl rfl fun j => ?_
    by_cases hj : j = id
    · subst hj
      rw [hget]
      exact .none
    · cases s.streamMap.lookup j with
      | none => exact .none
      | some a => exact .some (by simp [hj])
  | some stream =>
    simp only [hget] at h
    split at h
    · cases h
    · rename_i w hw
      obtain ⟨rfl, -⟩ := Prod.mk.inj h
      refine hrequeue _ rfl rfl (s.keys_setStream id _) rfl
        ((Each.setStream hget).mono ?_)
      intro j a b hab
      split at hab
      · rename_i hj
        obtain ⟨rfl, rfl⟩ := hab
        rw [if_pos hj]
        exact ⟨w, rfl, SendWindow.increaseSize_ok hn hw⟩
      · rename_i hj
        rw [if_neg hj]
        exact hab

/-! ## Send windows that stay -/

/-- The send windows have not changed. -/
structure SameWindows (s s' : Streams) : Prop where
  initial : s'.streamSendWindowSize = s.streamSendWindowSize
  conn : s'.flowControl.sendWindow = s.flowControl.sendWindow
  each : s.Each (fun _ a b => b.sendWindow = a.sendWindow) s'

theorem SameWindows.of_eq (hinitial : s'.streamSendWindowSize = s.streamSendWindowSize)
    (hconn : s'.flowControl = s.flowControl) (hmap : s'.streamMap = s.streamMap) :
    SameWindows s s' :=
  ⟨hinitial, by rw [hconn], .of_lookup_eq (fun _ => by rw [hmap]) fun _ _ => rfl⟩

theorem SameWindows.setStream {s : Streams} {id : StreamId} {stream stream' : Stream}
    (hget : s.streamMap.lookup id = some stream)
    (hwin : stream'.sendWindow = stream.sendWindow) :
    SameWindows s (s.setStream id stream') := by
  refine ⟨rfl, rfl, (Each.setStream hget).mono fun j a b hab => ?_⟩
  split at hab
  · obtain ⟨rfl, rfl⟩ := hab
    exact hwin
  · rw [hab]

theorem SameWindows.moved {s : Streams} {id : StreamId} {stream : Stream} (stream' : Stream)
    (state : H2StreamState) (hget : s.streamMap.lookup id = some stream)
    (hwin : stream'.sendWindow = stream.sendWindow) :
    SameWindows s (s.moved id stream' state) :=
  ⟨rfl, rfl, (@setStream _ _ _ { stream' with state } hget hwin).each⟩

theorem SameWindows.ended (stream' : Stream) (reason : CloseReason)
    (hget : s.streamMap.lookup id = some stream) (hwin : stream'.sendWindow = stream.sendWindow) :
    SameWindows s (s.ended id stream' reason) :=
  ⟨rfl, rfl, (@setStream _ _ _ (stream'.close reason) hget hwin).each⟩

theorem RecvOnly.sameWindows (h : RecvOnly s s') : SameWindows s s' := by
  refine ⟨by rw [h.rest], by rw [h.rest], h.each.mono ?_⟩
  rintro id a b ⟨w, rfl⟩
  rfl

end YlongHttp
