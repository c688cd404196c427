import YlongHttp.Verification.H2.StreamErrors

/-! # Recovery from stream errors

Which streams with a faulty frame come through to the client as if the faulty frame had been
answered with an error and left out. -/

namespace YlongHttp

open List Session FrameDecoder Run

/-! ## The streams that come through -/

theorem recvData_error_cons {d : FrameDecoder} {read : Bytes} {e : H2Error}
    (h : (d.decode read).2 = .error (.error e)) (reads : List Bytes) :
    ∃ d', recvData d (read :: reads) = .error (.error e) :: recvData d' reads := by
  rcases hd : d.decode read with ⟨d', res⟩
  rw [hd] at h
  simp only at h
  subst h
  exact ⟨d', recvData_error hd reads⟩

/-- However the octets are split into reads, these are the outputs of the decoder. -/
def Recovers (d : FrameDecoder) (octets : Bytes)
    (outputs : List (Except (Fault H2Error) FrameKind)) : Prop :=
  ∀ reads : List Bytes, (∀ read ∈ reads, 0 < read.length ∧ read.length ≤ readBufferSize) →
    reads.flatten = octets → recvData d reads = outputs

section Recovery

variable {max : UInt32} {s s₁ s₂ : Session} {pre fault : Bytes} {units : List Bytes}
  {frames : List (FrameHeader × FrameKind)} {e : H2Error}
  {outputs : List (Except (Fault H2Error) FrameKind)}

theorem pending_boundary (s : Session) : Pending s none [] := by simp [Pending]

theorem accepts_singles {octets rest : Bytes} {h' : Option FrameHeader}
    (hrun : s.run max octets = { frames, ending := .waits s₁ h' rest })
    (hno : ∀ frame ∈ frames, frame.1.frameType ≠ 2) :
    FrameDecoder.Accepts (.waiting max s none []) (singles octets) (frames.map Prod.snd)
      (.waiting max s₁ h' rest) :=
  accepts_segments (singles octets) (pending_boundary s)
    (by rw [nil_append, singles_flatten]; exact hrun) hno

theorem exists_first_priority {p : FrameHeader × FrameKind} (hp : p ∈ frames)
    (htype : p.1.frameType = 2) :
    ∃ before q after, frames = before ++ q :: after ∧ q.1.frameType = 2 ∧
      ∀ frame ∈ before, frame.1.frameType ≠ 2 := by
  induction frames with
  | nil => cases hp
  | cons q frames ih =>
    by_cases hq : q.1.frameType = 2
    · exact ⟨[], q, frames, rfl, hq, by simp⟩
    · rcases mem_cons.mp hp with rfl | hp
      · exact absurd htype hq
      · obtain ⟨before, q', after, rfl, hq', hbefore⟩ := ih hp
        refine ⟨q :: before, q', after, rfl, hq', ?_⟩
        intro frame hf
        rcases mem_cons.mp hf with rfl | hf
        · exact hq
        · exact hbefore frame hf

theorem Recovers.no_priority
    (hpre : s.run max pre = { frames, ending := .waits s₁ none [] })
    (h : Recovers (.waiting max s none []) (pre ++ fault ++ units.flatten)
      (frames.map (fun f => .ok f.2) ++ .error (.error e) :: outputs)) :
    ∀ frame ∈ frames, frame.1.frameType ≠ 2 := by
  intro p hp htype
  obtain ⟨before, q, after, hsplit, hq, hbefore⟩ := exists_first_priority hp htype
  obtain ⟨x, c, s', b, rfl, hfour, hx, hfails⟩ := run_priority (by rw [hpre, hsplit]) hq
  -- The first octet of the payload comes with what is before it, then the other four.
  have hreads := h (singles x ++ c.take 4 :: singles (c.drop 4 ++ fault ++ units.flatten))
    (by
      intro read hread
      rcases mem_append.mp hread with hread | hread
      · exact singles_read hread
      · rcases mem_cons.mp hread with rfl | hread
        · rw [length_take, readBufferSize]
          omega
        · exact singles_read hread)
    (by
      rw [flatten_append, flatten_cons, singles_flatten, singles_flatten]
      simp [← append_assoc])
  have hwaits : (s.run max x).ending = .waits s' (some q.1) [b] := by rw [hx]
  have herr : ((waiting max s' (some q.1) [b]).decode (c.take 4)).2 =
      .error (.error (.streamError q.1.streamId .frameSizeError)) :=
    decode_fails (run_waits hwaits)
      (hfails (c.take 4) (by rw [length_take]; omega))
  obtain ⟨d', hlater⟩ := recvData_error_cons herr
    (singles (c.drop 4 ++ fault ++ units.flatten))
  rw [(accepts_singles hx hbefore).recvData, hlater, hsplit] at hreads
  simp [Function.comp_def] at hreads

theorem Recovers.nothing_follows
    (hpre : s.run max pre = { frames, ending := .waits s₁ none [] })
    (hfault : FaultyFrame max s₁ fault e) (hunits : Units max s₁ units outputs s₂)
    (h : Recovers (.waiting max s none []) (pre ++ fault ++ units.flatten)
      (frames.map (fun f => .ok f.2) ++ .error (.error e) :: outputs)) :
    units = [] := by
  have hno := h.no_priority hpre
  obtain ⟨x, b, rfl⟩ : ∃ x b, fault = x ++ [b] := by
    obtain ⟨hd, payload, hread, -⟩ := hfault
    have hlen := readHeader_length hread
    exact ⟨fault.dropLast, fault.getLast (by rintro rfl; simp at hlen),
      (dropLast_append_getLast _).symm⟩
  obtain ⟨hd, rest, d', hx, hdec, hstuck⟩ := hfault.stuck rfl
  have hboth : s.run max (pre ++ x) = { frames, ending := .waits s₁ hd rest } := by
    rw [run_append, hpre]
    simp [andThen, prepend, resume, hx]
  have hreads := h (singles (pre ++ x) ++ [b] :: singles units.flatten)
    (by
      intro read hread
      rcases mem_append.mp hread with hread | hread
      · exact singles_read hread
      · rcases mem_cons.mp hread with rfl | hread
        · simp [readBufferSize]
        · exact singles_read hread)
    (by rw [flatten_append, flatten_cons, singles_flatten, singles_flatten]; simp)
  rw [(accepts_singles hboth hno).recvData, recvData_error hdec, recvData_stuck hstuck] at hreads
  have hcnt := congrArg length hreads
  simp only [length_append, length_map, length_cons, length_replicate]
    at hcnt
  obtain ⟨hsize, hlen⟩ := hunits.length
  exact length_eq_zero_iff.mp (by omega)

theorem Session.resume_waits_nil {cut : Bool} {h : Option FrameHeader} {octets rest : Bytes}
    (hrun : s.resume max cut h octets = { frames := [], ending := .waits s₁ none rest }) :
    rest = octets := by
  cases h with
  | some h => exact payload_waits_all (congrArg frames hrun) (congrArg ending hrun)
  | none =>
    rw [resume, run_eq] at hrun
    cases hread : readHeader octets with
    | none =>
      rw [hread] at hrun
      exact (Ending.waits.inj (Run.mk.inj hrun).2).2.2.symm
    | some found =>
      obtain ⟨h, tail⟩ := found
      simp only [hread] at hrun
      split at hrun
      · cases hrun
      · rw [payload] at hrun
        split at hrun
        · cases hrun
        · split at hrun
          · cases hrun
          · split at hrun
            · cases hrun
            · cases hrun

theorem Recovers.long_fault
    (hpre : s.run max pre = { frames, ending := .waits s₁ none [] })
    (hfault : FaultyFrame max s₁ fault e) (hne : pre ≠ [])
    (h : Recovers (.waiting max s none []) (pre ++ fault)
      (frames.map (fun f => .ok f.2) ++ [.error (.error e)])) :
    readBufferSize ≤ fault.length := by
  by_contra hlt
  have hno : ∀ frame ∈ frames, frame.1.frameType ≠ 2 := by
    have h' : Recovers (.waiting max s none []) (pre ++ fault ++ ([] : List Bytes).flatten)
        (frames.map (fun f => .ok f.2) ++ [.error (.error e)]) := by simpa using h
    exact h'.no_priority hpre
  obtain ⟨x, b, rfl⟩ : ∃ x b, pre = x ++ [b] :=
    ⟨pre.dropLast, pre.getLast hne, (dropLast_append_getLast hne).symm⟩
  rw [run_append] at hpre
  cases hend : (s.run max x).ending with
  | fails e' =>
    simp only [andThen, hend] at hpre
    rw [hpre] at hend
    cases hend
  | waits s' h' rest =>
    simp only [Run.andThen, hend, Run.prepend, Bool.false_and, Run.mk.injEq] at hpre
    obtain ⟨hframes, hwaits⟩ := hpre
    have hlast : ∀ frame ∈ (s'.resume max false h' (rest ++ [b])).frames, frame.1.frameType ≠ 2 :=
      fun frame hf => hno frame (hframes ▸ mem_append_right _ hf)
    have hsome : (s'.resume max false h' (rest ++ [b])).frames ≠ [] := by
      intro hnil
      have hrun : s'.resume max false h' (rest ++ [b]) =
          { frames := [], ending := .waits s₁ none [] } := by
        rw [← hnil, ← hwaits]
      simpa using resume_waits_nil hrun
    -- The last octet of the frames and the faulty frame in one read.
    have herr : ((waiting max s' h' rest).decode ([b] ++ fault)).2 =
        .error (.error e) := by
      refine decode_fails (run_waits hend) ?_
      rw [← append_assoc, resume_append, resume_cut_waits hwaits hlast (rest ≠ []), andThen, hwaits]
      exact congrArg ending hfault.run
    obtain ⟨d', hlater⟩ := recvData_error_cons herr []
    have hreads := h (singles x ++ [[b] ++ fault])
      (by
        intro read hread
        rcases mem_append.mp hread with hread | hread
        · exact singles_read hread
        · rw [mem_singleton.mp hread, length_append, length_singleton]
          omega)
      (by simp)
    have hx : s.run max x = { frames := (s.run max x).frames, ending := .waits s' h' rest } := by
      rw [← hend]
    have hacc := accepts_singles hx
      fun frame hf => hno frame (hframes ▸ mem_append_left _ hf)
    rw [hacc.recvData, hlater, ← hframes] at hreads
    have hcnt := congrArg length hreads
    simp only [length_append, length_map, length_cons, recvData] at hcnt
    exact hsome (length_eq_zero_iff.mp (by omega))

theorem recovers_of_last
    (hpre : s.run max pre = { frames, ending := .waits s₁ none [] })
    (hfault : FaultyFrame max s₁ fault e) (hno : ∀ frame ∈ frames, frame.1.frameType ≠ 2)
    (hlong : pre ≠ [] → readBufferSize ≤ fault.length) :
    Recovers (.waiting max s none []) (pre ++ fault)
      (frames.map (fun f => .ok f.2) ++ [.error (.error e)]) := by
  intro reads hreads hflat
  have hne : reads ≠ [] := by
    rintro rfl
    obtain ⟨hd, payload, hread, -⟩ := hfault
    rw [(append_eq_nil_iff.mp hflat.symm).2] at hread
    cases hread
  obtain ⟨init, last, rfl⟩ : ∃ init last, reads = init ++ [last] :=
    ⟨reads.dropLast, reads.getLast hne, (dropLast_append_getLast hne).symm⟩
  obtain ⟨hpos, hcap⟩ := hreads last (by simp)
  rw [flatten_append, flatten_singleton] at hflat
  have hle : pre.length ≤ init.flatten.length := by
    -- Otherwise the last read has the faulty frame and an octet before it.
    by_contra hlt
    have hlen := congrArg length hflat
    simp only [length_append] at hlen
    have := hlong (by rintro rfl; simp at hlt)
    omega
  obtain ⟨x, hinit, rfl⟩ := append_cut hflat.symm hle
  obtain ⟨hd, rest, hx, hfails⟩ := hfault.split rfl (length_pos_iff.mp hpos)
  have hrun : s.run max init.flatten = { frames, ending := .waits s₁ hd rest } := by
    rw [hinit, run_append, hpre]
    simp [andThen, prepend, resume, hx]
  have hacc := accepts_segments init (pending_boundary s)
    (by rw [nil_append]; exact hrun) hno
  have herr : ((waiting max s₁ hd rest).decode last).2 = .error (.error e) :=
    decode_fails (run_waits (by rw [hx])) (by rw [hfails])
  obtain ⟨d', hlast⟩ := recvData_error_cons herr []
  rw [hacc.recvData, hlast, map_map]
  rfl

end Recovery

/-- A stream with a faulty frame comes through, in whatever reads it comes, exactly when
nothing follows the faulty frame and either nothing precedes it, or it is too long to share a
read with a frame before it and none of these is PRIORITY. -/
theorem streamError_recovers_iff {max : UInt32} {s s₁ s₂ : Session} {pre fault : Bytes}
    {units : List Bytes} {frames : List (FrameHeader × FrameKind)} {e : H2Error}
    {outputs : List (Except (Fault H2Error) FrameKind)}
    (hpre : s.run max pre = { frames, ending := .waits s₁ none [] })
    (hfault : FaultyFrame max s₁ fault e) (hunits : Units max s₁ units outputs s₂) :
    Recovers (.waiting max s none []) (pre ++ fault ++ units.flatten)
        (frames.map (fun f => .ok f.2) ++ .error (.error e) :: outputs) ↔
      units = [] ∧ (pre = [] ∨
        (readBufferSize ≤ fault.length ∧ ∀ frame ∈ frames, frame.1.frameType ≠ 2)) := by
  constructor
  · intro h
    have hnone := h.nothing_follows hpre hfault hunits
    have hno := h.no_priority hpre
    subst hnone
    cases hunits
    rw [flatten_nil, append_nil] at h
    refine ⟨rfl, ?_⟩
    by_cases hne : pre = []
    · exact .inl hne
    · exact .inr ⟨h.long_fault hpre hfault hne, hno⟩
  · rintro ⟨rfl, hcond⟩
    cases hunits
    rw [flatten_nil, append_nil]
    rcases hcond with rfl | ⟨hlong, hno⟩
    · rw [run_nil] at hpre
      obtain ⟨rfl, -⟩ := mk.inj hpre
      exact recovers_of_last (run_nil max s ▸ hpre) hfault (by simp) (by simp)
    · exact recovers_of_last hpre hfault hno fun _ => hlong

/-- A WINDOW_UPDATE frame with a zero increment, and nothing else. -/
theorem streamError_recovers_alone :
    Recovers .new [0, 0, 4, 8, 0, 0, 0, 0, 1, 0, 0, 0, 0]
      [.error (.error (.streamError 1 .protocolError))] := by
  have hfault : FaultyFrame defaultMaxFrameSize new.session
      [0, 0, 4, 8, 0, 0, 0, 0, 1, 0, 0, 0, 0] (.streamError 1 .protocolError) :=
    ⟨{ streamId := 1, flags := 0, frameType := 8, payloadLength := 4 }, [0, 0, 0, 0], rfl, rfl,
      by decide, rfl, .windowUpdate rfl rfl⟩
  exact (streamError_recovers_iff (run_nil _ _) hfault (.nil _)).mpr ⟨rfl, .inl rfl⟩

/-- The PING frame after it is not decoded. -/
theorem streamError_loses_ping :
    ¬ Recovers .new
      ([0, 0, 4, 8, 0, 0, 0, 0, 1, 0, 0, 0, 0] ++ [0, 0, 8, 6, 0, 0, 0, 0, 0, 1, 2, 3, 4, 5, 6, 7, 8])
      [.error (.error (.streamError 1 .protocolError)),
        .ok (.complete
          { id := 0, flags := ⟨0⟩, payload := .ping ⟨[1, 2, 3, 4, 5, 6, 7, 8], rfl⟩ })] := by
  intro h
  have hreads := h [[0, 0, 4, 8, 0, 0, 0, 0, 1, 0, 0, 0, 0] ++
    [0, 0, 8, 6, 0, 0, 0, 0, 0, 1, 2, 3, 4, 5, 6, 7, 8]] (by decide) (by decide)
  revert hreads
  decide

end YlongHttp
