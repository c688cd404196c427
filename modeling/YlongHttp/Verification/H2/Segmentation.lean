import YlongHttp.Verification.H2.Session

/-! # Cutting the stream of octets

The frames of a stream do not depend on where the stream is cut, with two exceptions: a
PRIORITY frame whose payload is cut is refused, and a call that ends with an error does not
hand out the frames that it decoded before. -/

namespace YlongHttp

open List Session Run FrameDecoder

variable {max : UInt32} {s s' : Session} {cut : Bool} {h h' : Option FrameHeader}
  {a octets rest : Bytes} {e : Fault H2Error}

/-! ## Longer streams -/

def Run.prepend (frames : List (FrameHeader × FrameKind)) (r : Run) : Run :=
  { r with frames := frames ++ r.frames }

/-- What the session does with `b` after it did `r`. -/
def Run.andThen (max : UInt32) (cut : Bool) (b : Bytes) (r : Run) : Run :=
  match r.ending with
  | .fails _ => r
  | .waits s h rest => (s.resume max (cut && r.frames.isEmpty) h (rest ++ b)).prepend r.frames

theorem Run.andThen_cons (max : UInt32) (cut : Bool) (b : Bytes) (r : Run)
    (frame : FrameHeader × FrameKind) :
    (r.cons frame).andThen max cut b = (r.andThen max false b).cons frame := by
  obtain ⟨frames, ending⟩ := r
  cases ending with
  | fails e => rfl
  | waits s h rest => simp [andThen, cons, prepend]

theorem Session.payload_append {h : FrameHeader} {b : Bytes}
    (hrun : ∀ s' rest, rest.length ≤ a.length →
      Session.run max s' (rest ++ b) = (Session.run max s' rest).andThen max false b) :
    s.payload (Session.run max) cut h (a ++ b) =
      (s.payload (Session.run max) cut h a).andThen max cut b := by
  by_cases hr : s.refuses h = true
  · simp [payload, hr, andThen]
  · by_cases hshort : a.length < h.payloadLength
    · have ha : s.payload (run max) cut h a =
          { frames := [], ending := .waits s (some h) a } := by
        simp [payload, hr, hshort]
      rw [ha]
      simp [andThen, prepend, resume]
    · have hab : ¬ (a ++ b).length < h.payloadLength := by
        rw [length_append]
        omega
      have htake : (a ++ b).take h.payloadLength = a.take h.payloadLength :=
        take_append_of_le_length (by omega)
      have hdrop : (a ++ b).drop h.payloadLength = a.drop h.payloadLength ++ b :=
        drop_append_of_le_length (by omega)
      simp only [payload, hr, hshort, hab, htake, hdrop]
      rcases s.receive cut h (a.take h.payloadLength) with ⟨s', e | frame⟩
      · rfl
      · simp only [Bool.false_eq_true, if_false]
        rw [andThen_cons, hrun s' _ (by simp)]

theorem Session.run_append (max : UInt32) (s : Session) (a b : Bytes) :
    s.run max (a ++ b) = (s.run max a).andThen max false b := by
  induction hn : a.length using Nat.strongRecOn generalizing s a with
  | _ n ih =>
    subst hn
    rw [s.run_eq max a, s.run_eq max (a ++ b)]
    cases hread : readHeader a with
    | none =>
      simp only [andThen, prepend, nil_append, Bool.false_and]
      exact (s.run_eq max (a ++ b)).symm
    | some found =>
      obtain ⟨h, rest⟩ := found
      have hlen := readHeader_length hread
      rw [readHeader_append hread b]
      simp only
      split
      · rfl
      · exact payload_append fun s' rest' hle => ih rest'.length (by omega) s' rest' rfl

theorem Session.resume_append (max : UInt32) (s : Session) (cut : Bool) (h : Option FrameHeader)
    (a b : Bytes) :
    s.resume max cut h (a ++ b) = (s.resume max cut h a).andThen max (cut && h.isSome) b := by
  cases h with
  | none =>
    rw [Option.isSome_none, Bool.and_false]
    exact s.run_append max a b
  | some h =>
    rw [Option.isSome_some, Bool.and_true]
    exact payload_append fun s' rest _ => s'.run_append max rest b

def Pending (s : Session) (h : Option FrameHeader) (octets : Bytes) : Prop :=
  match h with
  | none => octets.length < 9
  | some h => octets.length < h.payloadLength ∧ s.refuses h = false

theorem Session.resume_pending (hpend : Pending s h octets) :
    s.resume max cut h octets = { frames := [], ending := .waits s h octets } := by
  cases h with
  | none =>
    have hread := (readHeader_eq_none_iff octets).mpr hpend
    simp only [resume, run_eq, hread]
  | some h =>
    obtain ⟨hlt, hr⟩ := hpend
    simp [resume, payload, hr, hlt]

theorem Session.payload_waits {h : FrameHeader}
    (hrun : ∀ s₁ a₁, a₁.length ≤ a.length → (Session.run max s₁ a₁).ending = .waits s' h' rest →
      Pending s' h' rest)
    (hwaits : (s.payload (Session.run max) cut h a).ending = .waits s' h' rest) :
    Pending s' h' rest := by
  rw [payload] at hwaits
  split at hwaits
  · cases hwaits
  · rename_i hr
    split at hwaits
    · rename_i hlt
      obtain ⟨rfl, rfl, rfl⟩ := Ending.waits.inj hwaits
      exact ⟨hlt, by simpa using hr⟩
    · split at hwaits
      · cases hwaits
      · exact hrun _ _ (by simp) hwaits

theorem Session.payload_waits_all {next : Session → Bytes → Run} {h : FrameHeader}
    (hframes : (s.payload next cut h a).frames = [])
    (hwaits : (s.payload next cut h a).ending = .waits s' h' rest) : rest = a := by
  rw [payload] at hframes hwaits
  split at hwaits
  · cases hwaits
  · rename_i hr
    rw [if_neg hr] at hframes
    split at hwaits
    · exact (Ending.waits.inj hwaits).2.2.symm
    · rename_i hlt
      rw [if_neg hlt] at hframes
      split at hwaits
      · cases hwaits
      · rename_i s₁ frame heq
        rw [heq] at hframes
        cases hframes

theorem Session.run_waits (hwaits : (s.run max a).ending = .waits s' h' rest) :
    Pending s' h' rest := by
  induction hn : a.length using Nat.strongRecOn generalizing s a with
  | _ n ih =>
    subst hn
    rw [run_eq] at hwaits
    cases hread : readHeader a with
    | none =>
      rw [hread] at hwaits
      obtain ⟨rfl, rfl, rfl⟩ := Ending.waits.inj hwaits
      exact (readHeader_eq_none_iff a).mp hread
    | some found =>
      obtain ⟨h, tail⟩ := found
      have hlen := readHeader_length hread
      simp only [hread] at hwaits
      split at hwaits
      · cases hwaits
      · exact payload_waits
          (fun s₁ a₁ hle hw => ih a₁.length (by omega) hw rfl) hwaits

theorem Session.resume_waits (hwaits : (s.resume max cut h a).ending = .waits s' h' rest) :
    Pending s' h' rest := by
  cases h with
  | none => exact run_waits hwaits
  | some h => exact payload_waits (fun _ _ _ hw => run_waits hw) hwaits

theorem Pending.room (hpend : Pending s h octets) : Room h octets := by
  cases h with
  | none => exact hpend
  | some h => exact hpend.1.le

/-! ## Cut payloads -/

theorem Session.receive_of_ne {h : FrameHeader} (htype : h.frameType ≠ 2) (cut cut' : Bool)
    (payload : Bytes) : s.receive cut h payload = s.receive cut' h payload := by
  simp [receive, htype]

theorem Session.resume_cut_waits (hwaits : (s.resume max cut h a).ending = .waits s' h' rest)
    (hno : ∀ frame ∈ (s.resume max cut h a).frames, frame.1.frameType ≠ 2) (cut' : Bool) :
    s.resume max cut' h a = s.resume max cut h a := by
  cases h with
  | none => rfl
  | some h =>
    by_cases htype : h.frameType = 2
    · simp only [resume, payload] at hwaits hno ⊢
      split
      · rfl
      · rename_i hr
        rw [if_neg hr] at hwaits hno
        split
        · rfl
        · rename_i hlt
          rw [if_neg hlt] at hwaits hno
          split at hwaits
          · cases hwaits
          · rename_i s₁ frame heq
            rw [heq] at hno
            exact absurd htype (hno (h, frame) (.head _))
    · simp only [resume, payload, receive_of_ne htype cut' cut]

theorem Session.receive_error {h : FrameHeader} {payload : Bytes}
    (hlen : payload.length = h.payloadLength) (herr : s.receive false h payload = (s', .error e)) :
    ∃ s'', s.receive true h payload = (s'', .error e) := by
  by_cases htype : h.frameType = 2
  · cases hid : isConnectionFrame h.streamId with
    | true => exact ⟨s', by simpa [receive, hid] using herr⟩
    | false =>
      refine ⟨s, ?_⟩
      have hpriority : ((s.decoder h).decodePriorityPayload payload).2 = .error e := by
        simp only [receive, Bool.false_and, Bool.false_eq_true, if_false,
          decodePayload, decoder, htype] at herr
        exact (Prod.mk.inj herr).2
      have hsize : h.payloadLength ≠ 5 ∨ payload.length ≠ 5 := by
        by_contra hsize
        rw [not_or, not_not, not_not] at hsize
        obtain ⟨b0, b1, b2, b3, b4, rfl⟩ : ∃ b0 b1 b2 b3 b4, payload = [b0, b1, b2, b3, b4] := by
          rcases payload with _ | ⟨b0, _ | ⟨b1, _ | ⟨b2, _ | ⟨b3, _ | ⟨b4, _ | ⟨b5, r⟩⟩⟩⟩⟩⟩ <;>
            simp at hsize ⊢
        simp [decodePriorityPayload, decoder, hid, hsize.1, withPayload] at hpriority
      simp only [decodePriorityPayload, decoder, hid, Bool.false_eq_true,
        if_false, hsize, if_true] at hpriority
      simp [receive, htype, hid, ← Except.error.inj hpriority]
  · rw [receive_of_ne htype false true] at herr
    exact ⟨s', herr⟩

theorem Session.resume_cut_fails
    (hfails : s.resume max false h a = { frames := [], ending := .fails e }) :
    s.resume max true h a = { frames := [], ending := .fails e } := by
  cases h with
  | none => exact hfails
  | some h =>
    simp only [resume, payload] at hfails ⊢
    split
    · rename_i hr
      rwa [if_pos hr] at hfails
    · rename_i hr
      rw [if_neg hr] at hfails
      split
      · rename_i hlt
        rwa [if_pos hlt] at hfails
      · rename_i hlt
        rw [if_neg hlt] at hfails
        split at hfails
        · rename_i s' e' herr
          obtain ⟨s'', hcut⟩ := receive_error
            (by rw [length_take]; omega) herr
          rw [hcut]
          exact hfails
        · simp [Run.cons] at hfails

/-! ## Whole runs -/

namespace FrameDecoder

variable {max : UInt32} {s s' : Session} {h h' : Option FrameHeader} {octets segment : Bytes}
  {e : Fault H2Error} {d d' : FrameDecoder} {frames : List FrameKind}

/-- The decoders that a client has before a call that follows no error. -/
inductive Live : FrameDecoder → Prop
  | new : Live .new
  | setMaxFrameSize {d : FrameDecoder} (live : Live d) (size : UInt32) :
      Live (d.setMaxFrameSize size).1
  | setMaxHeaderListSize {d : FrameDecoder} (live : Live d) (size : ℕ) :
      Live (d.setMaxHeaderListSize size)
  | decode {d d' : FrameDecoder} {buf : Bytes} {frames : List FrameKind} (live : Live d)
      (decoded : d.decode buf = (d', .ok frames)) : Live d'

theorem decode_waits {buf rest : Bytes} (hpend : Pending s h octets)
    (hwaits : (s.resume max (octets ≠ []) h (octets ++ buf)).ending = .waits s' h' rest) :
    (waiting max s h octets).decode buf =
      (waiting max s' h' rest,
        .ok ((s.resume max (octets ≠ []) h (octets ++ buf)).frames.map Prod.snd)) := by
  have href := decode_refines max s h octets buf hpend.room
  rw [Refines, hwaits] at href
  simpa using href

theorem decode_fails {buf : Bytes} (hpend : Pending s h octets)
    (hfails : (s.resume max (octets ≠ []) h (octets ++ buf)).ending = .fails e) :
    ((waiting max s h octets).decode buf).2 = .error e := by
  have href := decode_refines max s h octets buf hpend.room
  rwa [Refines, hfails] at href

theorem Live.waiting (hd : Live d) :
    ∃ max s h octets, Pending s h octets ∧ d = FrameDecoder.waiting max s h octets := by
  induction hd with
  | new => exact ⟨defaultMaxFrameSize, FrameDecoder.new.session, none, [], by simp [Pending], rfl⟩
  | setMaxFrameSize live size ih =>
    obtain ⟨max, s, h, octets, hpend, rfl⟩ := ih
    simp only [FrameDecoder.setMaxFrameSize]
    split
    · exact ⟨size, s, h, octets, hpend, rfl⟩
    · exact ⟨max, s, h, octets, hpend, rfl⟩
  | setMaxHeaderListSize live size ih =>
    obtain ⟨max, s, h, octets, hpend, rfl⟩ := ih
    refine ⟨max, { s with hpack := { s.hpack with headerListSize := size } }, h, octets, ?_, rfl⟩
    cases h with
    | none => exact hpend
    | some h => exact hpend
  | decode live decoded ih =>
    rename_i buf frames
    obtain ⟨max, s, h, octets, hpend, rfl⟩ := ih
    cases hend : (s.resume max (octets ≠ []) h (octets ++ buf)).ending with
    | waits s' h' rest =>
      rw [decode_waits hpend hend] at decoded
      obtain ⟨rfl, -⟩ := Prod.mk.inj decoded
      exact ⟨max, s', h', rest, resume_waits hend, rfl⟩
    | fails e =>
      have herr := decode_fails hpend hend
      rw [decoded] at herr
      cases herr

def feed : FrameDecoder → List Bytes → List FrameKind × Option (Fault H2Error)
  | _, [] => ([], none)
  | d, segment :: segments =>
    match d.decode segment with
    | (_, .error e) => ([], some e)
    | (d', .ok frames) => (frames ++ (feed d' segments).1, (feed d' segments).2)

theorem feed_waits (h : d.decode segment = (d', .ok frames)) (segments : List Bytes) :
    d.feed (segment :: segments) = (frames ++ (d'.feed segments).1, (d'.feed segments).2) := by
  rw [feed, h]

theorem feed_fails (h : (d.decode segment).2 = .error e) (segments : List Bytes) :
    d.feed (segment :: segments) = ([], some e) := by
  rcases hd : d.decode segment with ⟨d', res⟩
  rw [hd] at h
  simp only at h
  subst h
  rw [feed, hd]

/-- The segments are fed without an error. -/
inductive Accepts : FrameDecoder → List Bytes → List FrameKind → FrameDecoder → Prop
  | nil (d : FrameDecoder) : Accepts d [] [] d
  | cons {d d' d'' : FrameDecoder} {segment : Bytes} {segments : List Bytes}
      {frames later : List FrameKind} (decoded : d.decode segment = (d', .ok frames))
      (accepts : Accepts d' segments later d'') :
      Accepts d (segment :: segments) (frames ++ later) d''

theorem Accepts.feed {segments : List Bytes} (h : Accepts d segments frames d') :
    d.feed segments = (frames, none) := by
  induction h with
  | nil d => rfl
  | cons decoded accepts ih => rw [feed_waits decoded, ih]

theorem accepts_segments (segments : List Bytes) {rest : Bytes}
    {frames : List (FrameHeader × FrameKind)} (hpend : Pending s h octets)
    (hrun : s.resume max (octets ≠ []) h (octets ++ segments.flatten) =
      { frames, ending := .waits s' h' rest }) (hno : ∀ frame ∈ frames, frame.1.frameType ≠ 2) :
    Accepts (waiting max s h octets) segments (frames.map Prod.snd) (waiting max s' h' rest) := by
  induction segments generalizing s h octets frames with
  | nil =>
    rw [flatten_nil, append_nil, resume_pending hpend] at hrun
    obtain ⟨rfl, hwaits⟩ := Run.mk.inj hrun
    obtain ⟨rfl, rfl, rfl⟩ := Ending.waits.inj hwaits
    exact .nil _
  | cons segment segments ih =>
    rw [flatten_cons, ← append_assoc,
      s.resume_append max (octets ≠ []) h (octets ++ segment)] at hrun
    cases hend : (s.resume max (octets ≠ []) h (octets ++ segment)).ending with
    | fails e =>
      simp only [andThen, hend] at hrun
      rw [hrun] at hend
      cases hend
    | waits s₁ h₁ rest₁ =>
      simp only [andThen, hend, prepend] at hrun
      obtain ⟨hframes, hwaits⟩ := Run.mk.inj hrun
      have hlater : ∀ frame ∈ (s₁.resume max _ h₁ (rest₁ ++ segments.flatten)).frames,
          frame.1.frameType ≠ 2 :=
        fun frame hf => hno frame (hframes ▸ mem_append_right _ hf)
      have hcut := resume_cut_waits hwaits hlater (rest₁ ≠ [])
      rw [← hcut] at hframes hwaits hlater
      rw [← hframes, map_append]
      exact .cons (decode_waits hpend hend)
        (ih (resume_waits hend) (by rw [← hwaits]) hlater)

theorem feed_refused (segments : List Bytes) (hpend : Pending s h octets)
    (hfails : s.resume max (octets ≠ []) h (octets ++ segments.flatten) =
      { frames := [], ending := .fails e }) :
    (waiting max s h octets).feed segments = ([], some e) := by
  induction segments generalizing s h octets with
  | nil =>
    rw [flatten_nil, append_nil, resume_pending hpend] at hfails
    cases hfails
  | cons segment segments ih =>
    have happ := s.resume_append max (octets ≠ []) h (octets ++ segment) segments.flatten
    rw [flatten_cons, ← append_assoc, happ] at hfails
    cases hend : (s.resume max (octets ≠ []) h (octets ++ segment)).ending with
    | fails e' =>
      simp only [andThen, hend] at hfails
      rw [hfails] at hend
      obtain rfl := Ending.fails.inj hend
      exact feed_fails (decode_fails hpend (by rw [hfails])) segments
    | waits s₁ h₁ rest₁ =>
      simp only [andThen, hend, prepend, Run.mk.injEq, append_eq_nil_iff] at hfails
      obtain ⟨⟨hframes, hnone⟩, hending⟩ := hfails
      rw [hframes, isEmpty_nil, Bool.and_true] at hnone hending
      have hlater : s₁.resume max (rest₁ ≠ []) h₁ (rest₁ ++ segments.flatten) =
          { frames := [], ending := .fails e } := by
        have hfirst : s₁.resume max (decide (octets ≠ []) && h.isSome) h₁
            (rest₁ ++ segments.flatten) = { frames := [], ending := .fails e } := by
          rw [← hnone, ← hending]
        by_cases hrest : rest₁ = []
        · have hcut : (decide (octets ≠ []) && h.isSome) = false := by
            by_contra hcut
            simp only [Bool.not_eq_false, Bool.and_eq_true, decide_eq_true_eq,
              Option.isSome_iff_exists] at hcut
            obtain ⟨hne, hd, rfl⟩ := hcut
            have hall := payload_waits_all hframes hend
            rw [hrest] at hall
            exact hne (append_eq_nil_iff.mp hall.symm).1
          rw [hcut] at hfirst
          rw [show decide (rest₁ ≠ []) = false by simp [hrest]]
          exact hfirst
        · rw [show decide (rest₁ ≠ []) = true by simp [hrest]]
          cases hcut : (decide (octets ≠ []) && h.isSome) with
          | true => rwa [hcut] at hfirst
          | false =>
            rw [hcut] at hfirst
            exact resume_cut_fails hfirst
      rw [feed_waits (decode_waits hpend hend), ih (resume_waits hend) hlater, hframes]
      rfl

end FrameDecoder

end YlongHttp
