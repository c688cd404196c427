import YlongHttp.Verification.H2.Segmentation

/-! # Where a cut is seen

If a call would fail after it decoded a frame, cutting after that frame saves it; if it
accepts a PRIORITY frame, cutting its payload makes it refuse the frame. So the streams that
may be cut anywhere are those whose first frame fails, and those with neither a failure nor
a PRIORITY frame. -/

namespace YlongHttp

open List Session FrameDecoder

variable {max : UInt32} {s s' : Session} {cut : Bool} {h : FrameHeader} {octets : Bytes}
  {p : FrameHeader × FrameKind} {fs : List (FrameHeader × FrameKind)} {frame : FrameKind}

/-! ## Places to cut -/

theorem Session.run_nil (max : UInt32) (s : Session) :
    s.run max [] = { frames := [], ending := .waits s none [] } := rfl

theorem Session.payload_first
    (hframes : (s.payload (Session.run max) cut h octets).frames = p :: fs) :
    p.1 = h ∧ h.payloadLength ≤ octets.length ∧ s.refuses h = false ∧
      ∃ s', s.receive cut h (octets.take h.payloadLength) = (s', .ok p.2) ∧
        (s'.run max (octets.drop h.payloadLength)).frames = fs := by
  rw [payload] at hframes
  split at hframes
  · cases hframes
  · rename_i hr
    split at hframes
    · cases hframes
    · rename_i hlt
      split at hframes
      · cases hframes
      · rename_i s' frame hreceive
        obtain ⟨rfl, rfl⟩ := cons.inj hframes
        exact ⟨rfl, by omega, by simpa using hr, s', hreceive, rfl⟩

theorem Session.payload_take (hr : s.refuses h = false) (hlen : h.payloadLength ≤ octets.length)
    (hreceive : s.receive cut h (octets.take h.payloadLength) = (s', .ok frame)) :
    s.payload (Session.run max) cut h (octets.take h.payloadLength) =
      { frames := [(h, frame)], ending := .waits s' none [] } := by
  have hlt : ¬ (octets.take h.payloadLength).length < h.payloadLength := by
    rw [length_take]
    omega
  have hdrop : (octets.take h.payloadLength).drop h.payloadLength = [] := by
    rw [drop_eq_nil_iff, length_take]
    omega
  simp only [payload, hr, Bool.false_eq_true, if_false, hlt, take_take, Nat.min_self,
    hreceive, hdrop, run_nil, Run.cons]

theorem Session.run_first (hframes : (s.run max octets).frames = p :: fs) :
    ∃ header rest, octets = header ++ rest ∧
      (∀ r, s.run max (header ++ r) = s.payload (Session.run max) false p.1 r) ∧
      (s.payload (Session.run max) false p.1 rest).frames = p :: fs := by
  rw [run_eq] at hframes
  cases hread : readHeader octets with
  | none =>
    rw [hread] at hframes
    cases hframes
  | some found =>
    obtain ⟨h, rest⟩ := found
    simp only [hread] at hframes
    split at hframes
    · cases hframes
    · rename_i hmax
      obtain rfl := (payload_first hframes).1
      obtain ⟨b0, b1, b2, b3, b4, b5, b6, b7, b8, hoct, hp⟩ := readHeader_eq_some hread
      refine ⟨[b0, b1, b2, b3, b4, b5, b6, b7, b8], rest, hoct, ?_, hframes⟩
      intro r
      have hr : readHeader ([b0, b1, b2, b3, b4, b5, b6, b7, b8] ++ r) = some (p.1, r) := by
        rw [hp]
        rfl
      rw [run_eq, hr]
      exact if_neg hmax

theorem Session.run_split {pre post : List (FrameHeader × FrameKind)}
    (hframes : (s.run max octets).frames = pre ++ p :: post) :
    ∃ a c s', octets = a ++ c ∧ s.run max a = { frames := pre, ending := .waits s' none [] } ∧
      (s'.run max c).frames = p :: post := by
  induction pre generalizing s octets with
  | nil => exact ⟨[], octets, s, rfl, rfl, hframes⟩
  | cons q pre ih =>
    obtain ⟨header, rest, rfl, hhdr, hpay⟩ := run_first hframes
    obtain ⟨-, hlen, hr, s₁, hreceive, hlater⟩ := payload_first hpay
    obtain ⟨a, c, s', hrest, hrun, hc⟩ := ih hlater
    refine ⟨header ++ rest.take q.1.payloadLength ++ a, c, s', ?_, ?_, hc⟩
    · rw [append_assoc, append_assoc, ← hrest, take_append_drop]
    · rw [run_append, hhdr, payload_take hr hlen hreceive]
      simp [Run.andThen, Run.prepend, resume, hrun]

theorem Session.resume_first {h : Option FrameHeader}
    (hframes : (s.resume max cut h octets).frames = p :: fs) :
    ∃ a c s', octets = a ++ c ∧
      s.resume max cut h a = { frames := [p], ending := .waits s' none [] } ∧
      (s'.run max c).frames = fs := by
  cases h with
  | none =>
    obtain ⟨header, rest, rfl, hhdr, hpay⟩ := run_first hframes
    obtain ⟨-, hlen, hr, s', hreceive, hlater⟩ := payload_first hpay
    refine ⟨header ++ rest.take p.1.payloadLength, rest.drop p.1.payloadLength, s', by simp, ?_,
      hlater⟩
    rw [resume, hhdr, payload_take hr hlen hreceive]
  | some h =>
    obtain ⟨rfl, hlen, hr, s', hreceive, hlater⟩ := payload_first hframes
    exact ⟨_, _, s', (take_append_drop _ _).symm, payload_take hr hlen hreceive, hlater⟩

theorem Session.receive_priority {payload : Bytes} (htype : h.frameType = 2)
    (hreceive : s.receive cut h payload = (s', .ok frame)) :
    cut = false ∧ isConnectionFrame h.streamId = false ∧ h.payloadLength = 5 := by
  cases hid : isConnectionFrame h.streamId with
  | true =>
    simp [receive, hid, decodePayload, decoder, htype, decodePriorityPayload] at hreceive
  | false =>
    cases cut with
    | true => simp [receive, hid, htype] at hreceive
    | false =>
      refine ⟨rfl, rfl, ?_⟩
      by_contra hne
      simp [receive, hid, decodePayload, decoder, htype, decodePriorityPayload, hne] at hreceive

theorem Session.payload_priority (htype : h.frameType = 2)
    (hframes : (s.payload (Session.run max) cut h octets).frames = (h, frame) :: fs) :
    ∃ b c, octets = b :: c ∧ 4 ≤ c.length ∧
      s.payload (Session.run max) cut h [b] = { frames := [], ending := .waits s (some h) [b] } ∧
      ∀ c', 4 ≤ c'.length → (s.resume max true (some h) ([b] ++ c')).ending =
        .fails (.error (.streamError h.streamId .frameSizeError)) := by
  obtain ⟨-, hlen, hr, s', hreceive, -⟩ := payload_first hframes
  obtain ⟨rfl, hid, hfive⟩ := receive_priority htype hreceive
  cases octets with
  | nil =>
    rw [hfive] at hlen
    simp at hlen
  | cons b c =>
    rw [hfive, length_cons] at hlen
    refine ⟨b, c, rfl, by omega, by simp [payload, hr, hfive], ?_⟩
    intro c' hc'
    have hlt : ¬ ([b] ++ c').length < h.payloadLength := by
      rw [length_append, length_singleton]
      omega
    simp only [resume, payload, hr, Bool.false_eq_true, if_false, hlt]
    simp [receive, htype, hid]

theorem Session.run_priority {before after : List (FrameHeader × FrameKind)}
    (hframes : (s.run max octets).frames = before ++ p :: after) (htype : p.1.frameType = 2) :
    ∃ x c s' b, octets = x ++ c ∧ 4 ≤ c.length ∧
      s.run max x = { frames := before, ending := .waits s' (some p.1) [b] } ∧
      ∀ c', 4 ≤ c'.length → (s'.resume max true (some p.1) ([b] ++ c')).ending =
        .fails (.error (.streamError p.1.streamId .frameSizeError)) := by
  obtain ⟨a, c, s', rfl, hrun, hc⟩ := run_split hframes
  obtain ⟨header, rest, rfl, hhdr, hpay⟩ := run_first hc
  obtain ⟨b, c', rfl, hfour, hwaits, hfails⟩ := payload_priority htype hpay
  refine ⟨a ++ header ++ [b], c', s', b, by simp, hfour, ?_, hfails⟩
  rw [append_assoc, run_append, hrun]
  simp [Run.andThen, Run.prepend, resume, hhdr, hwaits]

/-! ## The streams that may be cut anywhere -/

/-- No PRIORITY frame, and no frame ahead of an error. -/
def Run.CutSafe (r : Run) : Prop :=
  match r.ending with
  | .fails _ => r.frames = []
  | .waits _ _ _ => ∀ frame ∈ r.frames, frame.1.frameType ≠ 2

namespace FrameDecoder

variable {bytes octets : Bytes} {max : UInt32} {s : Session} {h : Option FrameHeader}
  {p : FrameHeader × FrameKind}

def run (self : FrameDecoder) (bytes : Bytes) : Run :=
  self.session.resume self.maxFrameSize (self.buffer ≠ [])
    (match self.stage with
      | .header => none
      | .payload => some self.header) (self.buffer ++ bytes)

theorem waiting_run (max : UInt32) (s : Session) (h : Option FrameHeader)
    (octets bytes : Bytes) :
    (waiting max s h octets).run bytes = s.resume max (octets ≠ []) h (octets ++ bytes) := by
  cases h <;> rfl

variable {c x : Bytes}

theorem append_cut (h : octets ++ bytes = x ++ c) (hlen : octets.length ≤ x.length) :
    ∃ y, x = octets ++ y ∧ bytes = y ++ c := by
  rcases append_eq_append_iff.mp h with ⟨y, hx, hb⟩ | ⟨y, ho, hc⟩
  · exact ⟨y, hx, hb⟩
  · have hy : y = [] := by
      rw [ho, length_append] at hlen
      exact length_eq_zero_iff.mp (by omega)
    subst hy
    exact ⟨[], by simpa using ho.symm, by simpa using hc.symm⟩

theorem pending_le (hpend : Pending s h octets) (happ : octets ++ bytes = x ++ c)
    (hframes : (s.resume max cut h x).frames ≠ []) :
    octets.length ≤ x.length := by
  by_contra hlt
  obtain ⟨y, rfl, -⟩ := append_cut happ.symm (by omega)
  have hres := s.resume_append max cut h x y
  rw [resume_pending hpend] at hres
  have hnil := congrArg Run.frames hres
  simp only [Run.andThen] at hnil
  split at hnil
  · exact hframes hnil.symm
  · exact hframes (append_eq_nil_iff.mp hnil.symm).1

theorem feed_cut_first (hpend : Pending s h octets)
    (hframes : (s.resume max (octets ≠ []) h (octets ++ bytes)).frames = p :: fs) :
    ∃ x c, bytes = x ++ c ∧ ((waiting max s h octets).feed [x, c]).1 ≠ [] := by
  obtain ⟨x, c, s', happ, hx, -⟩ := resume_first hframes
  obtain ⟨y, rfl, hbytes⟩ := append_cut happ (pending_le hpend happ (by rw [hx]; simp))
  refine ⟨y, c, hbytes, ?_⟩
  rw [feed_waits (decode_waits hpend (by rw [hx])), hx]
  simp

theorem feed_cut_fails {hd : FrameHeader} {b : UInt8} {e : Fault H2Error}
    {frames : List (FrameHeader × FrameKind)} (hpend : Pending s h octets)
    (happ : octets ++ bytes = x ++ c) (hle : octets.length ≤ x.length)
    (hx : s.resume max (octets ≠ []) h x = { frames, ending := .waits s' (some hd) [b] })
    (hfails : (s'.resume max true (some hd) ([b] ++ c)).ending = .fails e) :
    ∃ x c, bytes = x ++ c ∧ ((waiting max s h octets).feed [x, c]).2 ≠ none := by
  obtain ⟨y, rfl, hbytes⟩ := append_cut happ hle
  refine ⟨y, c, hbytes, ?_⟩
  have hend : (s.resume max (octets ≠ []) h (octets ++ y)).ending = .waits s' (some hd) [b] := by
    rw [hx]
  have herr : ((waiting max s' (some hd) [b]).decode c).2 = .error e :=
    decode_fails (resume_waits hend) hfails
  rw [feed_waits (decode_waits hpend hend), feed_fails herr]
  simp

theorem feed_cut_priority (hpend : Pending s h octets)
    (hp : p ∈ (s.resume max (octets ≠ []) h (octets ++ bytes)).frames) (htype : p.1.frameType = 2) :
    ∃ x c, bytes = x ++ c ∧ ((waiting max s h octets).feed [x, c]).2 ≠ none := by
  cases h with
  | none =>
    obtain ⟨before, after, hframes⟩ := append_of_mem hp
    obtain ⟨x, c, s', b, happ, hfour, hx, hfails⟩ := run_priority hframes htype
    have hle : octets.length ≤ x.length := by
      have hlt : octets.length < 9 := hpend
      by_contra hgt
      have hxpend : Pending s none x := by
        change x.length < 9
        omega
      have hnone : s.resume max false none x = { frames := [], ending := .waits s none x } :=
        resume_pending hxpend
      rw [resume, hx] at hnone
      cases hnone
    exact feed_cut_fails hpend happ hle hx (hfails c hfour)
  | some hd =>
    simp only [resume] at hp
    obtain ⟨q, fs, hframes⟩ := exists_cons_of_ne_nil (ne_nil_of_mem hp)
    obtain ⟨rfl, hlen, hr, s', hreceive, hlater⟩ := payload_first hframes
    rw [hframes] at hp
    by_cases hq : q.1.frameType = 2
    · -- The first frame is PRIORITY: nothing of it came yet.
      obtain ⟨hcut, -, -⟩ := receive_priority hq hreceive
      obtain rfl : octets = [] := by simpa using hcut
      obtain ⟨b, c, happ, hfour, hx, hfails⟩ := payload_priority hq hframes
      exact feed_cut_fails (x := [b]) hpend happ (by simp) hx (hfails c hfour)
    · rcases mem_cons.mp hp with rfl | hp
      · exact absurd htype hq
      · rw [← hlater] at hp
        obtain ⟨frames, after, hsplit⟩ := append_of_mem hp
        obtain ⟨x, c, s₁, b, happ, hfour, hx, hfails⟩ := run_priority hsplit htype
        have hboth : s.resume max (octets ≠ []) (some q.1)
            ((octets ++ bytes).take q.1.payloadLength ++ x) =
            { frames := q :: frames, ending := .waits s₁ (some p.1) [b] } := by
          rw [resume_append, resume, payload_take hr hlen hreceive]
          simp [Run.andThen, Run.prepend, resume, hx]
        refine feed_cut_fails hpend ?_ ?_ hboth (hfails c hfour)
        · rw [append_assoc, ← happ, take_append_drop]
        · have hlt : octets.length < q.1.payloadLength := hpend.1
          rw [length_append, length_take]
          omega

end FrameDecoder

/-- The frames and the first error do not depend on how a stream is cut exactly when its
first frame is not accepted, or all of its frames are and none of them is PRIORITY. -/
theorem frameDecoder_segmentation_iff {d : FrameDecoder} (hd : d.Live) (bytes : Bytes) :
    (∀ segments : List Bytes, segments.flatten = bytes → d.feed segments = d.feed [bytes]) ↔
      (d.run bytes).CutSafe := by
  obtain ⟨max, s, h, octets, hpend, rfl⟩ := hd.waiting
  rw [waiting_run]
  have hone : [bytes].flatten = bytes := by simp
  constructor
  · intro hall
    rw [Run.CutSafe]
    cases hend : (s.resume max (octets ≠ []) h (octets ++ bytes)).ending with
    | fails e =>
      cases hframes : (s.resume max (octets ≠ []) h (octets ++ bytes)).frames with
      | nil => rfl
      | cons p fs =>
        obtain ⟨x, c, hbytes, hne⟩ := feed_cut_first hpend hframes
        rw [hall [x, c] (by simp [hbytes]),
          feed_fails (decode_fails hpend hend)] at hne
        exact absurd rfl hne
    | waits s' h' rest =>
      intro p hp htype
      obtain ⟨x, c, hbytes, hne⟩ := feed_cut_priority hpend hp htype
      rw [hall [x, c] (by simp [hbytes]),
        feed_waits (decode_waits hpend hend)] at hne
      exact absurd rfl hne
  · intro hsafe segments hsegments
    subst hsegments
    rw [Run.CutSafe] at hsafe
    cases hend : (s.resume max (octets ≠ []) h (octets ++ segments.flatten)).ending with
    | fails e =>
      rw [hend] at hsafe
      have hrun : s.resume max (octets ≠ []) h (octets ++ segments.flatten) =
          { frames := [], ending := .fails e } := by
        rw [← hsafe, ← hend]
      rw [feed_refused segments hpend hrun,
        feed_refused [segments.flatten] hpend (by rw [hone, hrun])]
    | waits s' h' rest =>
      rw [hend] at hsafe
      have hrun : s.resume max (octets ≠ []) h (octets ++ segments.flatten) =
          { frames := (s.resume max (octets ≠ []) h (octets ++ segments.flatten)).frames
            ending := .waits s' h' rest } := by
        rw [← hend]
      rw [(accepts_segments segments hpend hrun hsafe).feed,
        (accepts_segments [segments.flatten] hpend (by rw [hone]; exact hrun)
          hsafe).feed]

/-- A PING frame and the start of another frame, fed to a new decoder. -/
theorem frameDecoder_segmentation_ping :
    FrameDecoder.new.Live ∧ ∀ segments : List Bytes,
      segments.flatten = [0, 0, 8, 6, 0, 0, 0, 0, 0, 1, 2, 3, 4, 5, 6, 7, 8, 0, 0] →
        FrameDecoder.new.feed segments =
          FrameDecoder.new.feed [[0, 0, 8, 6, 0, 0, 0, 0, 0, 1, 2, 3, 4, 5, 6, 7, 8, 0, 0]] := by
  have hrun : new.run [0, 0, 8, 6, 0, 0, 0, 0, 0, 1, 2, 3, 4, 5, 6, 7, 8, 0, 0] =
      { frames := [({ streamId := 0, flags := 0, frameType := 6, payloadLength := 8 },
          .complete { id := 0, flags := ⟨0⟩, payload := .ping ⟨[1, 2, 3, 4, 5, 6, 7, 8], rfl⟩ })]
        ending := .waits new.session none [0, 0] } := rfl
  refine ⟨.new, (frameDecoder_segmentation_iff .new _).mpr ?_⟩
  rw [hrun]
  simp [Run.CutSafe]

/-- A PRIORITY frame is refused when its payload is cut. -/
theorem frameDecoder_segmentation_priority :
    ¬ ∀ segments : List Bytes,
      segments.flatten = [0, 0, 5, 2, 0, 0, 0, 0, 1, 0, 0, 0, 0, 16] →
        FrameDecoder.new.feed segments =
          FrameDecoder.new.feed [[0, 0, 5, 2, 0, 0, 0, 0, 1, 0, 0, 0, 0, 16]] := by
  intro h
  have hcut := h [[0, 0, 5, 2, 0, 0, 0, 0, 1, 0], [0, 0, 0, 16]] rfl
  revert hcut
  decide

end YlongHttp
