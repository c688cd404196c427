import YlongHttp.Verification.Client.Faults

/-! # The ids of the streams -/

namespace YlongHttp

open Library

variable {R : Rules}

def Streams.SameIds (s s' : Streams) : Prop :=
  s'.nextStreamId = s.nextStreamId ∧ s.Each (fun _ _ _ => True) s'

theorem Streams.SameIds.setStream (s : Streams) {id : StreamId} {stream : Stream}
    (stream' : Stream) (hget : s.streamMap.lookup id = some stream) :
    s.SameIds (s.setStream id stream') :=
  ⟨rfl, (Streams.Each.setStream hget).mono fun _ _ _ _ => trivial⟩

variable {s s' : Streams}

theorem RecvOnly.sameIds (h : RecvOnly s s') : s.SameIds s' :=
  ⟨by rw [h.rest], h.each.mono fun _ _ _ _ => trivial⟩

variable {c c' : Conn}

theorem Action.sameIds (h : Action R c c') (hbdd : c.streams.Bounded) :
    (∃ request, c.streams.nextStreamId < defaultMaxStreamId ∧
      c'.streams = c.streams.accepted request ∧ c.phase = .idle ∧ c'.phase = .idle ∧
      c'.log = .opened c.streams.nextStreamId :: c.log) ∨
    c.streams.SameIds c'.streams := by
  have hsame : ∀ s s' : Streams, s'.nextStreamId = s.nextStreamId → s'.streamMap = s.streamMap →
      s.SameIds s' := fun s s' hnext hmap =>
    ⟨hnext, .of_lookup_eq (fun _ => by rw [hmap]) fun _ _ => trivial⟩
  cases h with
  | opened request hid => exact .inl ⟨request, hid, rfl, rfl, rfl, rfl⟩
  | headers hget | data hget | finished hget =>
    exact .inr (.setStream _ _ hget)
  | waited hget | failed hget | frameReceived _ _ hget =>
    exact .inr (.setStream _ _ hget)
  | remoteReset _ _ hget | localReset _ _ hget | localResetLate hget =>
    exact .inr (.setStream _ _ hget)
  | settings _ _ hbound hset =>
    have hresized := (recvSettings_resized hbound hbdd hset).1
    exact .inr ⟨by rw [hresized.rest], hresized.each.mono fun _ _ _ _ => trivial⟩
  | streamUpdate _ _ hbound hreassign =>
    have henlarged := reassignStreamSendWindow_enlarged hbound hreassign
    exact .inr ⟨by rw [henlarged.rest], henlarged.each.mono fun _ _ _ _ => trivial⟩
  | dataAccepted _ _ _ hconn hstr =>
    exact .inr ((releaseConnRecvWindow_recvOnly hconn).trans
      (releaseStreamRecvWindow_recvOnly hstr)).sameIds
  | dataRefused _ _ hconn => exact .inr (releaseConnRecvWindow_recvOnly hconn).sameIds
  | acknowledged _ hack => exact .inr (recvAcknowledged_recvOnly hack).sameIds
  | wentAway _ hunset =>
    have hunset := getUnsetStreams_unset hunset
    exact .inr ⟨by rw [hunset.rest], hunset.each.mono fun _ _ _ _ => trivial⟩
  | _ => exact .inr (hsame _ _ rfl rfl)

/-- The ids given so far are odd and below the next one. -/
structure Streams.Numbered (s : Streams) : Prop where
  next_odd : s.nextStreamId.toNat % 2 = 1
  lt_next : ∀ id stream, s.streamMap.lookup id = some stream → id < s.nextStreamId
  odd : ∀ id stream, s.streamMap.lookup id = some stream → id.toNat % 2 = 1

theorem Streams.Numbered.lookup_next (h : s.Numbered) :
    s.streamMap.lookup s.nextStreamId = none := by
  cases hget : s.streamMap.lookup s.nextStreamId with
  | none => rfl
  | some stream => exact absurd (h.lt_next _ stream hget) (UInt32.lt_irrefl _)

theorem Streams.nextStreamId_accepted (s : Streams) (request : RequestWrapper) :
    (s.accepted request).nextStreamId = s.nextStreamId + 2 := by
  rcases s.accepted_cases request with ⟨-, h⟩ | ⟨-, -, h⟩ <;> rw [h]

theorem toNat_nextStreamId {id : StreamId} (h : id < defaultMaxStreamId) :
    (id + 2).toNat = id.toNat + 2 := by
  have hid : id.toNat < 2147483647 := UInt32.lt_iff_toNat_lt.mp h
  rw [UInt32.toNat_add]
  change (id.toNat + 2) % 2 ^ 32 = id.toNat + 2
  exact Nat.mod_eq_of_lt (by omega)

theorem Streams.Numbered.accepted (h : s.Numbered) (request : RequestWrapper)
    (hid : s.nextStreamId < defaultMaxStreamId) : (s.accepted request).Numbered := by
  have hnext := toNat_nextStreamId hid
  have hcases : ∀ id stream, (s.accepted request).streamMap.lookup id = some stream →
      id = s.nextStreamId ∨ ∃ stream, s.streamMap.lookup id = some stream := by
    intro id stream hget
    rcases Streams.lookup_accepted hget with ⟨heq, -⟩ | ⟨-, hget⟩
    · exact .inl heq
    · exact .inr ⟨stream, hget⟩
  refine ⟨?_, fun id stream hget => ?_, fun id stream hget => ?_⟩
  · rw [s.nextStreamId_accepted, hnext]
    have := h.next_odd
    omega
  · rw [s.nextStreamId_accepted, UInt32.lt_iff_toNat_lt, hnext]
    rcases hcases id stream hget with rfl | ⟨stream', hget'⟩
    · omega
    · have := UInt32.lt_iff_toNat_lt.mp (h.lt_next id stream' hget')
      omega
  · rcases hcases id stream hget with rfl | ⟨stream', hget'⟩
    · exact h.next_odd
    · exact h.odd id stream' hget'

theorem Streams.SameIds.numbered (h : s.SameIds s') (hs : s.Numbered) : s'.Numbered := by
  refine ⟨by rw [h.1]; exact hs.next_odd, fun id stream hget => ?_, fun id stream hget => ?_⟩
  · obtain ⟨stream₀, hget₀, -⟩ := h.2.after hget
    rw [h.1]
    exact hs.lt_next id stream₀ hget₀
  · obtain ⟨stream₀, hget₀, -⟩ := h.2.after hget
    exact hs.odd id stream₀ hget₀

/-! ## What every connection keeps -/

structure Conn.Sound (c : Conn) : Prop where
  bounded : c.streams.Bounded
  stored : c.streams.Stored
  numbered : c.streams.Numbered

theorem Action.sound (h : Action R c c') (hc : c.Sound) : c'.Sound := by
  refine ⟨h.bounded hc.bounded, h.stored hc.bounded hc.stored, ?_⟩
  obtain ⟨request, hid, hstreams, -⟩ | hsame := h.sameIds hc.bounded
  · rw [hstreams]
    exact hc.numbered.accepted request hid
  · exact hsame.numbered hc.numbered

theorem Action.over (h : Action R c c') (hphase : c.phase = .over) : c'.phase = .over := by
  cases h <;> first | rfl | cases hphase

theorem start_sound {config : ConnManager.H2Config} {m : ConnManager}
    (h : ConnManager.start config = .ok m) : m.conn.Sound := by
  obtain ⟨hbdd, hstored⟩ := ConnManager.start_stored h
  obtain ⟨-, -, flow, hstreams, -⟩ := ConnManager.start_streams h
  refine ⟨hbdd, hstored, ?_⟩
  change m.streams.Numbered
  rw [hstreams]
  refine ⟨rfl, fun id stream hget => ?_, fun id stream hget => ?_⟩
  · cases hget
  · cases hget

end YlongHttp
