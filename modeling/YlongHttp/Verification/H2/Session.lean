import YlongHttp.Verification.H2.Payload

/-! # The decoder at the level of frames

A session takes a stream of octets frame by frame, without a buffer between calls. The
decoder refines it: what `decode` answers and the state it leaves are those of the session
on the octets that came so far. -/

namespace YlongHttp

open List Option

variable {octets rest : Bytes} {h : FrameHeader}

/-! ## Sessions -/

/-- What the decoder knows between two frames. -/
structure Session where
  hpack : HpackDecoder
  continuations : Continuations

def FrameDecoder.session (self : FrameDecoder) : Session :=
  { hpack := self.hpack, continuations := self.continuations }

variable (s : Session)

def Session.decoder (h : FrameHeader) : FrameDecoder where
  buffer := []
  offset := 0
  maxFrameSize := defaultMaxFrameSize
  stage := .payload
  header := h
  hpack := s.hpack
  continuations := s.continuations

def Session.refuses (h : FrameHeader) : Bool :=
  !s.continuations.isEndHeaders &&
    (h.streamId ≠ s.continuations.streamId || h.frameType ≠ 9)

/-- A frame with its whole payload; `cut` if a part of it came in an earlier call. -/
def Session.receive (cut : Bool) (h : FrameHeader) (payload : Bytes) :
    Session × Except (Fault H2Error) FrameKind :=
  if cut && h.frameType = 2 && !isConnectionFrame h.streamId then
    (s, .error (.error (.streamError h.streamId .frameSizeError)))
  else
    (((s.decoder h).decodePayload payload).1.session, ((s.decoder h).decodePayload payload).2)

def readHeader : Bytes → Option (FrameHeader × Bytes)
  | b0 :: b1 :: b2 :: b3 :: b4 :: b5 :: b6 :: b7 :: b8 :: rest =>
    some ({ streamId := getStreamId b5 b6 b7 b8, flags := b4, frameType := b3
            payloadLength := (b0.toNat <<< 16) + (b1.toNat <<< 8) + b2.toNat }, rest)
  | _ => none

/-- How a stream of octets ends: inside a frame, with the octets of it that came after its
header or, with `none`, of its header, or at a frame that is not accepted. -/
inductive Ending where
  | waits (s : Session) (header : Option FrameHeader) (octets : Bytes)
  | fails (e : Fault H2Error)

/-- The frames of a stream of octets with their headers, and how it ends. -/
structure Run where
  frames : List (FrameHeader × FrameKind)
  ending : Ending

def Run.cons (frame : FrameHeader × FrameKind) (r : Run) : Run :=
  { r with frames := frame :: r.frames }

/-- A payload, and what comes after it. -/
def Session.payload (next : Session → Bytes → Run) (s : Session) (cut : Bool) (h : FrameHeader)
    (octets : Bytes) : Run :=
  if s.refuses h then { frames := [], ending := .fails (.error protocolError) }
  else if octets.length < h.payloadLength then
    { frames := [], ending := .waits s (some h) octets }
  else
    match s.receive cut h (octets.take h.payloadLength) with
    | (_, .error e) => { frames := [], ending := .fails e }
    | (s', .ok frame) => (next s' (octets.drop h.payloadLength)).cons (h, frame)

/-- Every frame takes nine octets at least, so that the fuel, the number of octets, is never
used up. -/
def Session.runLoop (max : UInt32) : ℕ → Session → Bytes → Run
  | 0, s, octets => { frames := [], ending := .waits s none octets }
  | fuel + 1, s, octets =>
    match readHeader octets with
    | none => { frames := [], ending := .waits s none octets }
    | some (h, rest) =>
      if h.payloadLength > max.toNat then
        { frames := [], ending := .fails (.error frameSizeError) }
      else s.payload (fun s' rest' => Session.runLoop max fuel s' rest') false h rest

variable (max : UInt32)

def Session.run (s : Session) (octets : Bytes) : Run :=
  s.runLoop max octets.length octets

def Session.resume (s : Session) (cut : Bool) :
    Option FrameHeader → Bytes → Run
  | none, octets => s.run max octets
  | some h, octets => s.payload (Session.run max) cut h octets

theorem readHeader_length (hread : readHeader octets = some (h, rest)) :
    octets.length = rest.length + 9 := by
  unfold readHeader at hread
  split at hread
  · obtain ⟨-, rfl⟩ := Prod.mk.inj (some.inj hread)
    simp
  · cases hread

theorem readHeader_eq_none_iff (octets : Bytes) : readHeader octets = none ↔ octets.length < 9 := by
  rcases octets with
    _ | ⟨_, _ | ⟨_, _ | ⟨_, _ | ⟨_, _ | ⟨_, _ | ⟨_, _ | ⟨_, _ | ⟨_, _ | ⟨_, _⟩⟩⟩⟩⟩⟩⟩⟩⟩ <;>
    simp [readHeader]

theorem readHeader_eq_some (hread : readHeader octets = some (h, rest)) :
    ∃ b0 b1 b2 b3 b4 b5 b6 b7 b8,
      octets = b0 :: b1 :: b2 :: b3 :: b4 :: b5 :: b6 :: b7 :: b8 :: rest ∧
        h = { streamId := getStreamId b5 b6 b7 b8, flags := b4, frameType := b3
              payloadLength := (b0.toNat <<< 16) + (b1.toNat <<< 8) + b2.toNat } := by
  unfold readHeader at hread
  split at hread
  · obtain ⟨rfl, rfl⟩ := Prod.mk.inj (some.inj hread)
    exact ⟨_, _, _, _, _, _, _, _, _, rfl, rfl⟩
  · cases hread

theorem readHeader_append (hread : readHeader octets = some (h, rest)) (more : Bytes) :
    readHeader (octets ++ more) = some (h, rest ++ more) := by
  obtain ⟨b0, b1, b2, b3, b4, b5, b6, b7, b8, rfl, rfl⟩ := readHeader_eq_some hread
  rfl

theorem Session.payload_congr {next next' : Session → Bytes → Run} {s : Session} {cut : Bool}
    (hnext : ∀ s' rest, rest.length ≤ octets.length → next s' rest = next' s' rest) :
    s.payload next cut h octets = s.payload next' cut h octets := by
  simp only [Session.payload]
  split
  · rfl
  · split
    · rfl
    · split
      · rfl
      · rw [hnext _ _ (by simp)]

theorem Session.runLoop_fuel (max : UInt32) (n m : ℕ) (s : Session) (octets : Bytes)
    (hn : octets.length ≤ n) (hm : octets.length ≤ m) :
    s.runLoop max n octets = s.runLoop max m octets := by
  induction n generalizing m s octets with
  | zero =>
    obtain rfl : octets = [] := by simpa using hn
    cases m <;> rfl
  | succ n ih =>
    cases m with
    | zero =>
      obtain rfl : octets = [] := by simpa using hm
      rfl
    | succ m =>
      simp only [Session.runLoop]
      split
      · rfl
      · rename_i h rest hread
        have hlen := readHeader_length hread
        split
        · rfl
        · exact Session.payload_congr fun s' rest' hle => ih m s' rest' (by omega) (by omega)

theorem Session.run_eq (s : Session) (octets : Bytes) :
    s.run max octets =
      match readHeader octets with
      | none => { frames := [], ending := .waits s none octets }
      | some (h, rest) =>
        if h.payloadLength > max.toNat then
          { frames := [], ending := .fails (.error frameSizeError) }
        else s.payload (Session.run max) false h rest := by
  rw [Session.run, Session.runLoop_fuel max octets.length (octets.length + 1) s octets le_rfl
    (by omega), Session.runLoop]
  split
  · rfl
  · rename_i h rest hread
    have hlen := readHeader_length hread
    split
    · rfl
    · exact Session.payload_congr fun s' rest' hle =>
        Session.runLoop_fuel max octets.length rest'.length s' rest' (by omega) le_rfl

/-! ## The decoder refines the session -/

namespace FrameDecoder

variable {octets : Bytes} {h : FrameHeader}

/-- The decoder of a session in which `octets` have come of the current frame, after its
header or, with `none`, of its header. -/
def waiting (s : Session) (h : Option FrameHeader) (octets : Bytes) :
    FrameDecoder where
  buffer := octets
  offset := octets.length
  maxFrameSize := max
  stage := if h.isSome then .payload else .header
  header := h.getD .new
  hpack := s.hpack
  continuations := s.continuations

def Room (h : Option FrameHeader) (octets : Bytes) : Prop :=
  match h with
  | none => octets.length < 9
  | some h => octets.length ≤ h.payloadLength

theorem decodeFrameHeader_short {max : UInt32} {s : Session} {buf : Bytes}
    (hread : readHeader (octets ++ buf) = none) :
    (waiting max s none octets).decodeFrameHeader buf =
      (waiting max s none (octets ++ buf), .ok none) := by
  rw [readHeader_eq_none_iff, length_append] at hread
  have hoff : ¬ 9 < octets.length := by omega
  have hbuf : buf.length < 9 - octets.length := by omega
  simp only [decodeFrameHeader, frameHeaderLength, waiting, hoff, if_false, hbuf, if_true,
    length_append, isSome_none, getD_none]

theorem decodeFrameHeader_complete (s : Session) {buf rest : Bytes} (hroom : octets.length < 9)
    (hread : readHeader (octets ++ buf) = some (h, rest)) :
    (h.payloadLength ≤ max.toNat →
      (waiting max s none octets).decodeFrameHeader buf =
        ({ waiting max s (some h) [] with stage := .header }, .ok (some rest))) ∧
      (max.toNat < h.payloadLength →
        ((waiting max s none octets).decodeFrameHeader buf).2 =
          .error (.error frameSizeError)) := by
  have hlen := readHeader_length hread
  rw [length_append] at hlen
  obtain ⟨b0, b1, b2, b3, b4, b5, b6, b7, b8, hoct, hh⟩ := readHeader_eq_some hread
  -- The first nine octets are the header, the others are left.
  have htake : octets ++ buf.take (9 - octets.length) = [b0, b1, b2, b3, b4, b5, b6, b7, b8] := by
    have h9 := congrArg (take 9) hoct
    rwa [take_append, take_of_length_le (by omega)] at h9
  have hdrop : buf.drop (9 - octets.length) = rest := by
    have h9 := congrArg (drop 9) hoct
    rwa [drop_append, drop_of_length_le (by omega), nil_append] at h9
  have hoff : ¬ 9 < octets.length := by omega
  have hbuf : ¬ buf.length < 9 - octets.length := by omega
  have hlength : h.payloadLength = (b0.toNat <<< 16) + (b1.toNat <<< 8) + b2.toNat := by rw [hh]
  by_cases hnil : octets = []
  · subst hnil
    rw [nil_append] at hoct
    subst hoct
    have hshort : ¬ rest.length + 1 + 1 + 1 + 1 + 1 + 1 + 1 + 1 + 1 < 9 := by omega
    simp only [decodeFrameHeader, frameHeaderLength, waiting, length_nil, Nat.not_lt_zero,
      if_false, Nat.sub_zero, length_cons, hshort, if_true, ne_eq, not_true_eq_false,
      ← hlength, gt_iff_lt, drop_succ_cons, drop_zero]
    refine ⟨fun hle => ?_, fun hlt => ?_⟩
    · rw [if_neg (by omega)]
      simp [hh]
    · rw [if_pos hlt]
  · have hpos : ¬ octets.length = 0 := fun h0 => hnil (length_eq_zero_iff.mp h0)
    simp only [decodeFrameHeader, frameHeaderLength, waiting, hoff, if_false, hbuf, hpos, htake,
      hdrop, ne_eq, not_false_eq_true, if_true, ← hlength, gt_iff_lt]
    refine ⟨fun hle => ?_, fun hlt => ?_⟩
    · rw [if_neg (by omega)]
      simp [hh]
    · rw [if_pos hlt]

theorem reframe_eq_waiting {d : FrameDecoder} (hh : d.header = h) (max : UInt32) (b : Bytes) :
    d.reframe { buffer := b, maxFrameSize := max, stage := .payload } =
      waiting max d.session (some h) b := by
  subst hh
  rfl

theorem decodePayload_waiting (s : Session) (octets buf : Bytes)
    (hlen : octets.length + buf.length = h.payloadLength) :
    ∃ b, (b = octets ∨ b = octets ++ buf) ∧
      (waiting max s (some h) octets).decodePayload buf =
        (waiting max (s.receive (octets ≠ []) h (octets ++ buf)).1 (some h) b,
          (s.receive (octets ≠ []) h (octets ++ buf)).2) := by
  by_cases hcut : h.frameType = 2 ∧ octets ≠ []
  · obtain ⟨htype, hcut⟩ := hcut
    have hpriority : ∀ d : FrameDecoder, d.header = h → ∀ p,
        d.decodePayload p = d.decodePriorityPayload p := by
      rintro d rfl p
      simp [decodePayload, htype]
    refine ⟨octets, .inl rfl, ?_⟩
    rw [hpriority _ rfl]
    cases hid : isConnectionFrame h.streamId with
    | false =>
      rw [decodePriorityPayload_cut hid hlen hcut]
      simp [Session.receive, hcut, htype, hid]
      rfl
    | true =>
      simp only [Session.receive, hid, hpriority (s.decoder h) rfl]
      simp only [decodePriorityPayload, waiting, getD_some, hid, Session.decoder]
      simp [session]
  · have hreceive : s.receive (octets ≠ []) h (octets ++ buf) =
        (((s.decoder h).decodePayload (octets ++ buf)).1.session,
          ((s.decoder h).decodePayload (octets ++ buf)).2) := by
      rw [Session.receive, if_neg]
      simp only [ne_eq, Bool.and_eq_true, decide_eq_true_eq, not_and]
      intro h
      exact absurd ⟨h.2, h.1⟩ hcut
    obtain ⟨hhdr, b, hb, heq⟩ := decodePayload_asWhole (d := waiting max s (some h) octets) rfl
      (fun htype => not_not.mp fun hne => hcut ⟨htype, hne⟩) buf
    refine ⟨b, hb, ?_⟩
    rw [heq, hreceive]
    exact Prod.ext (reframe_eq_waiting hhdr max b) rfl

theorem decodeFramePayload_waiting (s : Session) (buf : Bytes)
    (hroom : octets.length ≤ h.payloadLength) :
    ∃ b, (b = octets ∨ b = octets ++ buf.take (h.payloadLength - octets.length)) ∧
      (waiting max s (some h) octets).decodeFramePayload buf =
        if s.refuses h then (waiting max s (some h) octets, .error (.error protocolError))
        else if (octets ++ buf).length < h.payloadLength then
          (waiting max s (some h) (octets ++ buf), .ok none)
        else
          match s.receive (octets ≠ []) h ((octets ++ buf).take h.payloadLength) with
          | (s', .error e) => (waiting max s' (some h) b, .error e)
          | (s', .ok frame) =>
            ({ waiting max s' none [] with stage := .payload },
              .ok (some ((octets ++ buf).drop h.payloadLength, frame))) := by
  have hpay : (octets ++ buf).take h.payloadLength =
      octets ++ buf.take (h.payloadLength - octets.length) := by
    rw [take_append, take_of_length_le hroom]
  have hrest : (octets ++ buf).drop h.payloadLength =
      buf.drop (h.payloadLength - octets.length) := by
    rw [drop_append, drop_of_length_le hroom, nil_append]
  have hrefuses : s.refuses h = (!(waiting max s (some h) octets).continuations.isEndHeaders &&
      (h.streamId ≠ (waiting max s (some h) octets).continuations.streamId ||
        h.frameType ≠ 9)) := rfl
  have hhdr : (waiting max s (some h) octets).header = h := rfl
  have hoffset : (waiting max s (some h) octets).offset = octets.length := rfl
  rw [hpay, hrest]
  simp only [decodeFramePayload, hhdr, ← hrefuses, hoffset, length_append]
  have hnopanic : ¬ h.payloadLength < octets.length := by omega
  cases hr : s.refuses h with
  | true => exact ⟨octets, .inl rfl, by simp⟩
  | false =>
    simp only [Bool.false_eq_true, if_false, hnopanic]
    by_cases hshort : octets.length + buf.length < h.payloadLength
    · refine ⟨octets, .inl rfl, ?_⟩
      rw [if_pos (by omega), if_pos hshort]
      simp [waiting]
    · obtain ⟨b, hb, hdec⟩ := decodePayload_waiting max s (h := h) octets
        (buf.take (h.payloadLength - octets.length)) (by rw [length_take]; omega)
      refine ⟨b, hb, ?_⟩
      rw [if_neg (by omega), if_neg hshort, hdec]
      rcases s.receive (octets ≠ []) h
        (octets ++ buf.take (h.payloadLength - octets.length)) with ⟨s', e | frame⟩
      · rfl
      · -- The buffer is cleared unless it is empty already.
        cases b <;> rfl

def Refines (frames : List FrameKind) (r : Run)
    (result : FrameDecoder × Except (Fault H2Error) (List FrameKind)) : Prop :=
  match r.ending with
  | .waits s h octets => result = (waiting max s h octets, .ok (frames ++ r.frames.map Prod.snd))
  | .fails e => result.2 = .error e

theorem Refines.cons {max : UInt32} {frames : List FrameKind} {r : Run}
    {result : FrameDecoder × Except (Fault H2Error) (List FrameKind)} {h : FrameHeader}
    {frame : FrameKind} (hr : Refines max (frames ++ [frame]) r result) :
    Refines max frames (r.cons (h, frame)) result := by
  obtain ⟨rest, ending⟩ := r
  cases ending with
  | waits s h octets => simpa [Refines, Run.cons] using hr
  | fails e => exact hr

theorem decodeLoop_refines (fuel : ℕ) (s : Session) (h : Option FrameHeader) (octets buf : Bytes)
    (frames : List FrameKind) (hroom : Room h octets)
    (hfuel : 2 * buf.length + (if h.isSome then 2 else 1) ≤ fuel) :
    Refines max frames (s.resume max (octets ≠ []) h (octets ++ buf))
      (decodeLoop fuel (waiting max s h octets) buf frames) := by
  induction fuel generalizing s h octets buf frames with
  | zero => cases h <;> simp at hfuel
  | succ fuel ih =>
    cases h with
    | none =>
      have hlt : octets.length < 9 := hroom
      simp only [Session.resume, decodeLoop, Session.run_eq,
        show (waiting max s none octets).stage = .header from rfl]
      cases hread : readHeader (octets ++ buf) with
      | none =>
        rw [decodeFrameHeader_short hread]
        simp [Refines]
      | some found =>
        obtain ⟨h, rest⟩ := found
        obtain ⟨hfits, hlong⟩ := decodeFrameHeader_complete max s hlt hread
        have hlen := readHeader_length hread
        rw [length_append] at hlen
        simp only
        by_cases hmax : h.payloadLength > max.toNat
        · have herr := hlong hmax
          rcases hdec : (waiting max s none octets).decodeFrameHeader buf with ⟨d, res⟩
          rw [hdec] at herr
          simp only at herr
          subst herr
          simp [Refines, hmax]
        · rw [hfits (by omega), if_neg hmax]
          simp only [isSome_none, Bool.false_eq_true, if_false] at hfuel
          exact ih s (some h) [] rest frames (Nat.zero_le _)
            (by simp only [isSome_some, if_true]; omega)
    | some h =>
      have hle : octets.length ≤ h.payloadLength := hroom
      obtain ⟨b, -, hdec⟩ := decodeFramePayload_waiting max s buf hle
      simp only [Session.resume, Session.payload, decodeLoop,
        show (waiting max s (some h) octets).stage = .payload from rfl]
      rw [hdec]
      cases s.refuses h with
      | true => simp [Refines]
      | false =>
        simp only [Bool.false_eq_true, if_false]
        by_cases hshort : (octets ++ buf).length < h.payloadLength
        · simp only [hshort, if_true, Refines, map_nil, append_nil]
        · simp only [hshort, if_false]
          rcases s.receive (octets ≠ []) h ((octets ++ buf).take h.payloadLength) with
            ⟨s', e | frame⟩
          · simp [Refines]
          · have hnext := ih s' none [] ((octets ++ buf).drop h.payloadLength)
              (frames ++ [frame]) (by simp [Room]) (by
                simp only [isSome_some, if_true] at hfuel
                simp only [length_drop, length_append, isSome_none]
                simp only [Bool.false_eq_true, if_false]
                omega)
            exact hnext.cons

theorem decode_refines (s : Session) (h : Option FrameHeader) (octets buf : Bytes)
    (hroom : Room h octets) :
    Refines max [] (s.resume max (octets ≠ []) h (octets ++ buf))
      ((waiting max s h octets).decode buf) :=
  decodeLoop_refines max _ s h octets buf [] hroom (by split <;> omega)

end FrameDecoder

end YlongHttp
