import YlongHttp.Verification.H2.Rounds

/-! # Contiguous header blocks

A HEADERS or PUSH_PROMISE frame without END_HEADERS opens a header block, and CONTINUATION
frames on its stream continue it up to the one with END_HEADERS. The decoder refuses every
other frame while a block is open; what it does not refuse is a CONTINUATION frame when no
block is open. -/

namespace YlongHttp

/-! ## Header blocks -/

def FrameHeader.openBlock : Option FrameHeader → FrameHeader → Option FrameHeader
  | none, h => if (h.frameType = 1 ∨ h.frameType = 5) ∧ !h.isEndHeaders then some h else none
  | some opener, h =>
    if h.frameType = 9 ∧ h.streamId = opener.streamId ∧ !h.isEndHeaders then some opener else none

def Received.openBlock (block : Option FrameHeader) (frame : Received) : Option FrameHeader :=
  match frame.result with
  | .ok _ => FrameHeader.openBlock block frame.header
  | .error _ => block

def FrameHeader.Continues (h : FrameHeader) (block : Option FrameHeader) : Prop :=
  h.frameType = 9 ∧ ∃ opener ∈ block, h.streamId = opener.streamId

variable (self : Received)

def Received.opener (block : Option FrameHeader) : Option FrameHeader :=
  if self.header.frameType = 9 then block else some self.header

def Received.Refused : Prop := self.result = .error (.error protocolError)

/-- A frame that comes while `block` is open is received as it should be. -/
structure Contiguous (block : Option FrameHeader) (frame : Received) : Prop where
  continuation : frame.header.frameType = 9 → (¬ frame.Refused ↔ frame.header.Continues block)
  other : block.isSome → ¬ frame.header.Continues block →
    ∃ code, frame.result = .error (.error (.connectionError code))
  headers : ∀ f parts, frame.result = .ok (.complete f) → f.payload = .headers parts →
    ∃ opener ∈ frame.opener block, opener.frameType = 1 ∧ f.id = opener.streamId ∧
      f.flags.isEndStream = opener.isEndStream

/-- A CONTINUATION frame on a stream comes while a block is open. -/
def Solicited (block : Option FrameHeader) (frame : Received) : Prop :=
  frame.header.frameType = 9 → frame.header.streamId ≠ 0 → block.isSome

instance (block : Option FrameHeader) (frame : Received) : Decidable (Solicited block frame) :=
  inferInstanceAs (Decidable (_ → _ → _))

/-- `Q` holds of every frame, together with the block that is open before it. -/
def EachFrame (Q : Option FrameHeader → Received → Prop) :
    Option FrameHeader → List Received → Prop
  | _, [] => True
  | block, frame :: frames => Q block frame ∧ EachFrame Q (frame.openBlock block) frames

instance EachFrame.decidable {Q : Option FrameHeader → Received → Prop}
    [∀ block frame, Decidable (Q block frame)] :
    ∀ block frames, Decidable (EachFrame Q block frames)
  | _, [] => .isTrue trivial
  | block, frame :: frames =>
    @instDecidableAnd _ _ _ (EachFrame.decidable (frame.openBlock block) frames)

theorem EachFrame.append {Q : Option FrameHeader → Received → Prop} {block : Option FrameHeader}
    {frames more : List Received} (h : EachFrame Q block frames)
    (hmore : EachFrame Q (frames.foldl Received.openBlock block) more) : EachFrame Q block (frames ++ more) := by
  induction frames generalizing block with
  | nil => exact hmore
  | cons frame frames ih => exact ⟨h.1, ih h.2 hmore⟩

variable {frames : List Received}

theorem EachFrame.iff {Q R : Option FrameHeader → Received → Prop} {block : Option FrameHeader}
    (h : EachFrame (fun block frame => Q block frame ↔ R block frame) block frames) :
    EachFrame Q block frames ↔ EachFrame R block frames := by
  induction frames generalizing block with
  | nil => exact Iff.rfl
  | cons frame frames ih => exact and_congr h.1 (ih h.2)

/-! ## What a payload does to the open block -/

namespace FrameDecoder

variable {d : FrameDecoder} {block : Option FrameHeader} {buf : Bytes}
  {r : Except (Fault H2Error) (Option (Bytes × FrameKind))} {past : List Received}

def Aside (d : FrameDecoder) (r : FrameDecoder × Except (Fault H2Error) FrameKind) : Prop :=
  Outcome (fun d' frame => d'.continuations = d.continuations ∧
      ∀ f parts, frame = .complete f → f.payload ≠ .headers parts)
    (fun d' _ => d'.continuations = d.continuations) r

variable {d' : FrameDecoder} {frame : Received}

theorem aside_error (e : Fault H2Error) (h : d'.continuations = d.continuations) :
    Aside d (d', .error e) := h

theorem aside_complete {payload : Payload} (h : d'.continuations = d.continuations)
    (hpay : ∀ parts, payload ≠ .headers parts) :
    Aside d (d', .ok (d'.completeFrame payload)) := by
  refine ⟨h, ?_⟩
  rintro f parts hf
  cases hf
  exact hpay parts

theorem decodeDataPayload_aside (d : FrameDecoder) (buf : Bytes) :
    Aside d (d.decodeDataPayload buf) := by
  rw [decodeDataPayload]
  split
  · exact aside_error _ rfl
  · refine Outcome.withPayload fun buffer offset p => ?_
    dsimp only
    split
    · exact aside_complete rfl (by simp)
    · split
      · split
        · exact aside_error _ rfl
        · split
          · exact aside_error _ rfl
          · split
            · exact aside_error _ rfl
            · exact aside_complete rfl (by simp)
      · split
        · exact aside_error _ rfl
        · exact aside_complete rfl (by simp)

theorem decodePriorityPayload_aside (d : FrameDecoder) (buf : Bytes) :
    Aside d (d.decodePriorityPayload buf) := by
  rw [decodePriorityPayload]
  split
  · exact aside_error _ rfl
  · split
    · exact aside_error _ rfl
    · refine Outcome.withPayload fun buffer offset p => ?_
      split
      · exact aside_complete rfl (by simp)
      · exact aside_error _ rfl

theorem decodeResetPayload_aside (d : FrameDecoder) (buf : Bytes) :
    Aside d (d.decodeResetPayload buf) := by
  rw [decodeResetPayload]
  split
  · exact aside_error _ rfl
  · refine Outcome.withPayload fun buffer offset p => ?_
    dsimp only
    split
    · exact aside_error _ rfl
    · split
      · exact aside_complete rfl (by simp)
      · exact aside_error _ rfl

theorem decodeSettingsPayload_aside (d : FrameDecoder) (buf : Bytes) :
    Aside d (d.decodeSettingsPayload buf) := by
  rw [decodeSettingsPayload]
  split
  · exact aside_error _ rfl
  · refine Outcome.withPayload fun buffer offset p => ?_
    dsimp only
    split
    · exact aside_error _ rfl
    · split
      · split
        · exact aside_error _ rfl
        · exact aside_complete rfl (by simp)
      · split
        · exact aside_error _ rfl
        · exact aside_complete rfl (by simp)

theorem decodePingPayload_aside (d : FrameDecoder) (buf : Bytes) :
    Aside d (d.decodePingPayload buf) := by
  rw [decodePingPayload]
  split
  · exact aside_error _ rfl
  · refine Outcome.withPayload fun buffer offset p => ?_
    dsimp only
    split
    · exact aside_error _ rfl
    · exact aside_complete rfl (by simp)

theorem decodeGoawayPayload_aside (d : FrameDecoder) (buf : Bytes) :
    Aside d (d.decodeGoawayPayload buf) := by
  rw [decodeGoawayPayload]
  split
  · exact aside_error _ rfl
  · refine Outcome.withPayload fun buffer offset p => ?_
    dsimp only
    split
    · exact aside_error _ rfl
    · split
      · exact aside_complete rfl (by simp)
      · exact aside_error _ rfl

theorem decodeWindowUpdatePayload_aside (d : FrameDecoder) (buf : Bytes) :
    Aside d (d.decodeWindowUpdatePayload buf) := by
  rw [decodeWindowUpdatePayload]
  refine Outcome.withPayload fun buffer offset p => ?_
  dsimp only
  split
  · exact aside_error _ rfl
  · split
    · split
      · exact aside_error _ rfl
      · exact aside_complete rfl (by simp)
    · exact aside_error _ rfl

theorem decodePayload_aside (buf : Bytes) (h1 : d.header.frameType ≠ 1)
    (h5 : d.header.frameType ≠ 5) (h9 : d.header.frameType ≠ 9) :
    Aside d (d.decodePayload buf) := by
  rw [decodePayload.eq_def]
  split
  · exact decodeDataPayload_aside d buf
  · exact absurd ‹_› h1
  · exact decodePriorityPayload_aside d buf
  · exact decodeResetPayload_aside d buf
  · exact decodeSettingsPayload_aside d buf
  · exact absurd ‹_› h5
  · exact decodePingPayload_aside d buf
  · exact decodeGoawayPayload_aside d buf
  · exact decodeWindowUpdatePayload_aside d buf
  · exact absurd ‹_› h9
  · exact aside_error _ rfl

/-- A HEADERS frame: with END_HEADERS the header list comes out, without it the block is
open, also if its fragment turns out to be faulty. -/
def TakesHeaders (d d' : FrameDecoder) (frame : FrameKind) : Prop :=
  d.header.streamId ≠ 0 ∧
    if d.header.isEndHeaders then d'.continuations = d.continuations ∧
      ∃ parts, frame = d.completeFrame (.headers parts)
    else d'.continuations =
        { d.continuations with
          flags := d.header.flags, isEndStream := d.header.isEndStream
          isEndHeaders := false, streamId := d.header.streamId } ∧ frame = .partialFrame

theorem decodeHeadersPayload_outcome (d : FrameDecoder) (buf : Bytes) :
    Outcome (TakesHeaders d)
      (fun d' _ => d'.continuations = d.continuations ∨ d'.continuations.isEndHeaders = false)
      (d.decodeHeadersPayload buf) := by
  rw [decodeHeadersPayload]
  split
  · exact .inl rfl
  · rename_i hid
    have hid : d.header.streamId ≠ 0 := by simpa [isConnectionFrame] using hid
    refine Outcome.withPayload fun buffer offset p => ?_
    refine Outcome.withFragment (.inl rfl) (.inl rfl) fun i j => ?_
    dsimp only
    generalize (if d.header.isHeadersPriority = true then i + 5 else i) = start
    split
    · exact .inl rfl
    · split
      · exact .inl rfl
      · split
        · rename_i hend
          refine Outcome.hpackDecode (fun _ _ _ => .inl rfl) fun hpack => ?_
          refine Outcome.hpackFinish (fun _ _ _ => .inl rfl) fun hpack parts => ?_
          simp only [Outcome, TakesHeaders, hend, if_true]
          exact ⟨hid, trivial, parts, rfl⟩
        · rename_i hend
          refine Outcome.hpackDecode (fun _ _ _ => .inr rfl) fun hpack => ?_
          simp only [Outcome, TakesHeaders, hend]
          exact ⟨hid, trivial, trivial⟩

/-- A PUSH_PROMISE frame, likewise. The promised stream of an open block is not 0. -/
def TakesPushPromise (d d' : FrameDecoder) (frame : FrameKind) : Prop :=
  d.header.streamId ≠ 0 ∧ ∃ promisedStreamId, promisedStreamId ≠ 0 ∧
    if d.header.isEndHeaders then d'.continuations = d.continuations ∧
      ∃ parts, frame = d.completeFrame (.pushPromise { promisedStreamId, parts })
    else d'.continuations =
        { d.continuations with
          flags := d.header.flags, isEndHeaders := false
          streamId := d.header.streamId, promisedStreamId } ∧ frame = .partialFrame

theorem decodePushPromisePayload_outcome (d : FrameDecoder) (buf : Bytes) :
    Outcome (TakesPushPromise d) (fun d' _ => d'.continuations = d.continuations)
      (d.decodePushPromisePayload buf) := by
  rw [decodePushPromisePayload]
  split
  · exact (rfl : d.continuations = _)
  · rename_i hid
    have hid : d.header.streamId ≠ 0 := by simpa [isConnectionFrame] using hid
    refine Outcome.withPayload fun buffer offset p => ?_
    refine Outcome.withFragment rfl rfl fun i j => ?_
    split
    · exact (rfl : d.continuations = _)
    · refine Outcome.hpackDecode (fun _ _ _ => rfl) fun hpack => ?_
      dsimp only
      split
      · rename_i b0 b1 b2 b3 _ _
        split
        · exact (rfl : d.continuations = _)
        · rename_i hpromised
          have hpromised : getStreamId b0 b1 b2 b3 ≠ 0 := by
            simpa [isConnectionFrame] using hpromised
          rw [pushPromiseFraming]
          split
          · rename_i hend
            refine Outcome.hpackFinish (fun _ _ _ => rfl) fun hpack parts => ?_
            have hend : d.header.isEndHeaders = true := hend
            simp only [Outcome, TakesPushPromise, hend, if_true]
            exact ⟨hid, _, hpromised, trivial, parts, rfl⟩
          · rename_i hend
            have hend : d.header.isEndHeaders = false := by simpa using hend
            simp only [Outcome, TakesPushPromise, hend, Bool.false_eq_true, if_false]
            exact ⟨hid, _, hpromised, rfl, trivial⟩
      · exact (rfl : d.continuations = _)

variable (c : Continuations)

def blockPayload (parts : Parts) : Payload :=
  if c.promisedStreamId ≠ 0 then
    .pushPromise { promisedStreamId := c.promisedStreamId, parts }
  else .headers parts

/-- A CONTINUATION frame, whether a block is open or not. -/
def TakesContinuation (d d' : FrameDecoder) (frame : FrameKind) : Prop :=
  if d.header.isEndHeaders then d'.continuations = .new ∧
    ∃ parts, frame = .complete
      { id := d.continuations.streamId, flags := ⟨d.continuations.flags⟩
        payload := blockPayload d.continuations parts }
  else d'.continuations = d.continuations ∧ frame = .partialFrame

theorem decodeContinuationPayload_outcome (buf : Bytes) (hid : d.header.streamId ≠ 0) :
    Outcome (TakesContinuation d)
      (fun d' e => d'.continuations = d.continuations ∧ HpackFault e)
      (d.decodeContinuationPayload buf) := by
  have hconn : isConnectionFrame d.header.streamId = false := by simpa [isConnectionFrame] using hid
  rw [decodeContinuationPayload, hconn, if_neg Bool.false_ne_true]
  refine Outcome.withPayload fun buffer offset p => ?_
  dsimp only
  split
  · rename_i hend
    refine Outcome.hpackDecode (fun _ _ h => ⟨rfl, h⟩) fun hpack => ?_
    refine Outcome.hpackFinish (fun _ _ h => ⟨rfl, h⟩) fun hpack parts => ?_
    simp only [Outcome, TakesContinuation, hend, if_true]
    exact ⟨trivial, parts, rfl⟩
  · rename_i hend
    refine Outcome.hpackDecode (fun _ _ h => ⟨rfl, h⟩) fun hpack => ?_
    simp only [Outcome, TakesContinuation, hend]
    exact ⟨trivial, trivial⟩

/-! ## The decoder keeps track of the block -/

/-- The fields of the decoder say which block is open. -/
def Tracks : Option FrameHeader → Prop
  | none => c = .new
  | some opener => c.isEndHeaders = false ∧ c.streamId = opener.streamId ∧
      c.flags = opener.flags ∧ opener.streamId ≠ 0 ∧
      (opener.frameType = 1 ∧ c.promisedStreamId = 0 ∨
        opener.frameType = 5 ∧ c.promisedStreamId ≠ 0)

def Poisoned (d : FrameDecoder) : Prop :=
  d.stage = .payload ∧ d.header.frameType ≠ 9 ∧ d.continuations.isEndHeaders = false

/-- What becomes of a frame that comes while `block` is open, and of the block. -/
structure Kept (block : Option FrameHeader) (frame : Received) (d' : FrameDecoder) : Prop where
  contiguous_iff : Contiguous block frame ↔ Solicited block frame
  tracks : Tracks d'.continuations (frame.openBlock block) ∨
    (∃ e, frame.result = .error e) ∧ block = none ∧ frame.header.frameType ≠ 9 ∧
      d'.continuations.isEndHeaders = false

theorem kept_refused (htracks : Tracks d'.continuations block) (hsolicited : Solicited block frame)
    (hcontinues : ¬ frame.header.Continues block)
    (hres : frame.result = .error (.error protocolError)) : Kept block frame d' := by
  refine ⟨⟨fun _ => hsolicited, fun _ => ⟨fun _ => ?_, fun _ _ => ⟨_, hres⟩, ?_⟩⟩, .inl ?_⟩
  · exact ⟨fun h => absurd hres h, fun h => absurd h hcontinues⟩
  · intro f parts hok
    rw [hres] at hok
    cases hok
  · simpa only [Received.openBlock, hres] using htracks

theorem not_continues_none (h : FrameHeader) : ¬ h.Continues none := by
  rintro ⟨-, opener, hmem, -⟩
  cases hmem

theorem contiguous_other (htype : frame.header.frameType ≠ 9)
    (hheaders : ∀ f parts, frame.result = .ok (.complete f) → f.payload = .headers parts →
      frame.header.frameType = 1 ∧ f.id = frame.header.streamId ∧ f.flags = ⟨frame.header.flags⟩) :
    Contiguous none frame ↔ Solicited none frame := by
  refine ⟨fun _ h => absurd h htype, fun _ => ⟨fun h => absurd h htype, ?_, ?_⟩⟩
  · intro h
    cases h
  · intro f parts hok hpay
    obtain ⟨hone, hid, hflags⟩ := hheaders f parts hok hpay
    refine ⟨frame.header, by simp [Received.opener, htype], hone, hid, ?_⟩
    rw [hflags, FrameFlags.isEndStream, FrameHeader.isEndStream, UInt8.and_comm]

theorem Outcome.ok {P : FrameDecoder → FrameKind → Prop}
    {E : FrameDecoder → Fault H2Error → Prop} {d' : FrameDecoder}
    {result : Except (Fault H2Error) FrameKind} {frame : FrameKind}
    (h : Outcome P E (d', result)) (hres : result = .ok frame) : P d' frame := by
  subst hres
  exact h

theorem Outcome.error {P : FrameDecoder → FrameKind → Prop}
    {E : FrameDecoder → Fault H2Error → Prop} {d' : FrameDecoder}
    {result : Except (Fault H2Error) FrameKind} {e : Fault H2Error}
    (h : Outcome P E (d', result)) (hres : result = .error e) : E d' e := by
  subst hres
  exact h

theorem kept_aside (htracks : Tracks frame.decoder.continuations none)
    (h1 : frame.header.frameType ≠ 1) (h5 : frame.header.frameType ≠ 5)
    (h9 : frame.header.frameType ≠ 9) (haside : Aside frame.decoder (d', frame.result)) :
    Kept none frame d' := by
  refine ⟨contiguous_other h9 fun f parts hok hpay => ?_, .inl ?_⟩
  · exact absurd hpay ((haside.ok hok).2 f parts rfl)
  · have hnone : FrameHeader.openBlock none frame.header = none := by
      simp [FrameHeader.openBlock, h1, h5]
    rw [Received.openBlock]
    cases hres : frame.result with
    | error e => exact (haside.error hres).trans htracks
    | ok k =>
      simp only [hnone]
      exact (haside.ok hres).1.trans htracks

theorem kept_headers (htracks : Tracks frame.decoder.continuations none)
    (h1 : frame.header.frameType = 1) (houtcome : Outcome (TakesHeaders frame.decoder)
      (fun d' _ => d'.continuations = frame.decoder.continuations ∨
        d'.continuations.isEndHeaders = false) (d', frame.result)) : Kept none frame d' := by
  have hnew : frame.decoder.continuations = .new := htracks
  have hhdr : frame.decoder.header = frame.header := rfl
  have h9 : frame.header.frameType ≠ 9 := by simp [h1]
  refine ⟨contiguous_other h9 fun f parts hok hpay => ?_, ?_⟩
  · obtain ⟨-, htakes⟩ := houtcome.ok hok
    split at htakes
    · obtain ⟨-, parts', hframe⟩ := htakes
      cases hframe
      exact ⟨h1, rfl, rfl⟩
    · cases htakes.2
  · rw [Received.openBlock]
    cases hres : frame.result with
    | error e =>
      rcases houtcome.error hres with h | h
      · exact .inl (h.trans hnew)
      · exact .inr ⟨⟨e, rfl⟩, rfl, h9, h⟩
    | ok k =>
      obtain ⟨hid, htakes⟩ := houtcome.ok hres
      rw [hhdr] at hid htakes
      refine .inl ?_
      split at htakes
      · rename_i hend
        simpa [FrameHeader.openBlock, hend, hnew, Tracks] using htakes.1
      · rename_i hend
        simp [FrameHeader.openBlock, h1, hend, Tracks, htakes.1, hid, hnew, Continuations.new]

theorem kept_pushPromise (htracks : Tracks frame.decoder.continuations none)
    (h5 : frame.header.frameType = 5) (houtcome : Outcome (TakesPushPromise frame.decoder)
      (fun d' _ => d'.continuations = frame.decoder.continuations) (d', frame.result)) :
    Kept none frame d' := by
  have hnew : frame.decoder.continuations = .new := htracks
  have hhdr : frame.decoder.header = frame.header := rfl
  refine ⟨contiguous_other (by simp [h5]) fun f parts hok hpay => ?_, .inl ?_⟩
  · obtain ⟨-, promised, -, htakes⟩ := houtcome.ok hok
    split at htakes
    · obtain ⟨-, parts', hframe⟩ := htakes
      cases hframe
      cases hpay
    · cases htakes.2
  · rw [Received.openBlock]
    cases hres : frame.result with
    | error e => exact (houtcome.error hres).trans hnew
    | ok k =>
      obtain ⟨hid, promised, hpromised, htakes⟩ := houtcome.ok hres
      rw [hhdr] at hid htakes
      split at htakes
      · rename_i hend
        simpa [FrameHeader.openBlock, hend, hnew, Tracks] using htakes.1
      · rename_i hend
        simp [FrameHeader.openBlock, h5, hend, Tracks, htakes.1, hid, hpromised]

variable {opener : FrameHeader}

section Continuation

variable {frame : Received} {d' : FrameDecoder}
  (houtcome : Outcome (TakesContinuation frame.decoder)
    (fun d' e => d'.continuations = frame.decoder.continuations ∧ HpackFault e)
    (d', frame.result))

include houtcome

theorem not_refused_of_outcome : ¬ frame.Refused := by
  intro hrefused
  rcases (houtcome.error hrefused).2 with h | h <;> cases h

theorem kept_unsolicited (htracks : Tracks frame.decoder.continuations none)
    (h9 : frame.header.frameType = 9) (hid : frame.header.streamId ≠ 0) : Kept none frame d' := by
  have hnew : frame.decoder.continuations = .new := htracks
  refine ⟨⟨fun h => ?_, fun h => ?_⟩, .inl ?_⟩
  · have hcontinues := (h.continuation h9).mp (not_refused_of_outcome houtcome)
    exact absurd hcontinues (not_continues_none _)
  · cases h h9 hid
  · have hnone : FrameHeader.openBlock none frame.header = none := by
      simp [FrameHeader.openBlock, h9]
    rw [Received.openBlock]
    cases hres : frame.result with
    | error e => exact (houtcome.error hres).1.trans hnew
    | ok k =>
      have htakes := houtcome.ok hres
      rw [TakesContinuation] at htakes
      simp only [hnone]
      split at htakes
      · exact htakes.1
      · exact htakes.1.trans hnew

theorem kept_continuation (htracks : Tracks frame.decoder.continuations (some opener))
    (hcontinues : frame.header.Continues (some opener)) : Kept (some opener) frame d' := by
  obtain ⟨hopen, hstr, hflags, hid, hkind⟩ := id htracks
  obtain ⟨h9, opener', hmem, hsame⟩ := id hcontinues
  cases hmem
  refine ⟨⟨fun _ _ _ => rfl, fun _ => ⟨fun _ => ?_, fun _ h => absurd hcontinues h, ?_⟩⟩, .inl ?_⟩
  · exact ⟨fun _ => hcontinues, fun _ => not_refused_of_outcome houtcome⟩
  · intro f parts hok hpay
    have htakes := houtcome.ok hok
    rw [TakesContinuation] at htakes
    split at htakes
    · obtain ⟨-, parts', hframe⟩ := htakes
      cases hframe
      -- The promised stream tells a HEADERS block from one of PUSH_PROMISE.
      rcases hkind with ⟨hone, -⟩ | ⟨-, hpromised⟩
      · refine ⟨opener, by simp [Received.opener, h9], hone, hstr, ?_⟩
        rw [hflags, FrameFlags.isEndStream, FrameHeader.isEndStream, UInt8.and_comm]
      · rw [blockPayload, if_pos hpromised] at hpay
        cases hpay
    · cases htakes.2
  · rw [Received.openBlock]
    cases hres : frame.result with
    | error e =>
      simp only [(houtcome.error hres).1]
      exact htracks
    | ok k =>
      have htakes := houtcome.ok hres
      have hhdr : frame.decoder.header = frame.header := rfl
      rw [TakesContinuation, hhdr] at htakes
      split at htakes
      · rename_i hend
        simpa [FrameHeader.openBlock, hend, Tracks] using htakes.1
      · rename_i hend
        simp only [FrameHeader.openBlock, h9, hsame, hend, htakes.1]
        exact htracks

end Continuation

theorem decodePayload_kept {block : Option FrameHeader} {frame : Received} {d' : FrameDecoder}
    {payload : Bytes} (htracks : Tracks frame.decoder.continuations block)
    (hacc : frame.decoder.session.refuses frame.header = false)
    (hpay : frame.decoder.decodePayload payload = (d', frame.result)) :
    Kept block frame d' := by
  cases block with
  | some opener =>
    have hcontinues : frame.header.Continues (some opener) := by
      obtain ⟨hopen, hstr, -⟩ := htracks
      simp only [Session.refuses, session, hopen, hstr] at hacc
      refine ⟨?_, opener, rfl, ?_⟩ <;> simp at hacc <;> tauto
    have hid : frame.decoder.header.streamId ≠ 0 := by
      obtain ⟨-, opener', hmem, hsame⟩ := hcontinues
      cases hmem
      exact hsame.trans_ne htracks.2.2.2.1
    refine kept_continuation ?_ htracks hcontinues
    rw [← hpay, decodePayload.eq_def, show frame.decoder.header.frameType = 9 from
      hcontinues.1]
    exact decodeContinuationPayload_outcome payload hid
  | none =>
    by_cases h1 : frame.header.frameType = 1
    · refine kept_headers htracks h1 ?_
      rw [← hpay, decodePayload.eq_def, show frame.decoder.header.frameType = 1 from h1]
      exact decodeHeadersPayload_outcome _ payload
    by_cases h5 : frame.header.frameType = 5
    · refine kept_pushPromise htracks h5 ?_
      rw [← hpay, decodePayload.eq_def, show frame.decoder.header.frameType = 5 from h5]
      exact decodePushPromisePayload_outcome _ payload
    by_cases h9 : frame.header.frameType = 9
    · have hcont : frame.decoder.decodePayload payload =
          frame.decoder.decodeContinuationPayload payload := by
        simp only [decodePayload, show frame.decoder.header.frameType = 9 from h9]
      rw [hcont] at hpay
      by_cases hid : frame.decoder.header.streamId = 0
      · -- No block is ever open on stream 0.
        have hconn : isConnectionFrame frame.decoder.header.streamId = true := by
          simpa [isConnectionFrame] using hid
        rw [decodeContinuationPayload, hconn, if_pos rfl] at hpay
        obtain ⟨rfl, hres⟩ := Prod.mk.inj hpay
        exact kept_refused htracks (fun _ h => absurd hid h) (not_continues_none _) hres.symm
      · refine kept_unsolicited ?_ htracks h9 hid
        rw [← hpay]
        exact decodeContinuationPayload_outcome payload hid
    · refine kept_aside htracks h1 h5 h9 ?_
      rw [← hpay]
      exact decodePayload_aside payload h1 h5 h9

theorem not_continues_of_refuses (htracks : Tracks frame.decoder.continuations (some opener))
    (hrefuses : frame.decoder.session.refuses frame.header = true) :
    ¬ frame.header.Continues (some opener) := by
  rintro ⟨h9, opener', hmem, hsame⟩
  cases hmem
  obtain ⟨-, hstr, -⟩ := htracks
  simp [Session.refuses, session, h9, hstr, hsame] at hrefuses

theorem decodeFramePayload_kept (hstage : d.stage = .payload) (hsound : d.Sound)
    (htracks : Tracks d.continuations block) (hround : d.decodeFramePayload buf = (d', r)) :
    (r = .ok none ∧ d'.continuations = d.continuations) ∨
      (∃ e, r = .error e ∧ Kept block { decoder := d, octets := buf, result := .error e } d') ∨
      ∃ remain frame, r = .ok (some (remain, frame)) ∧
        Kept block { decoder := d, octets := buf, result := .ok frame } d' := by
  rw [Sound, hstage] at hsound
  have hoff : ¬ d.header.payloadLength < d.offset := by omega
  have hdec : d.decodeFramePayload buf =
      if d.session.refuses d.header then (d, .error (.error protocolError))
      else if d.header.payloadLength < d.offset then (d, .error .panic)
      else _ := rfl
  rw [hdec, if_neg hoff] at hround
  split at hround
  · rename_i hrefuses
    cases hround
    refine .inr (.inl ⟨_, rfl, ?_⟩)
    cases block with
    | none =>
      rw [Tracks] at htracks
      simp [Session.refuses, session, htracks, Continuations.new] at hrefuses
    | some opener =>
      exact kept_refused htracks (fun _ _ => rfl) (not_continues_of_refuses htracks hrefuses) rfl
  · rename_i hacc
    rw [Bool.not_eq_true] at hacc
    dsimp only at hround
    split at hround
    · cases hround
      exact .inl ⟨rfl, rfl⟩
    · split at hround
      · rename_i hpay
        cases hround
        exact .inr (.inl ⟨_, rfl, decodePayload_kept htracks hacc hpay⟩)
      · rename_i d₁ frame hpay
        cases hround
        have hkept := @decodePayload_kept _ { decoder := d, octets := buf, result := .ok frame }
          _ _ htracks hacc hpay
        refine .inr (.inr ⟨_, _, rfl, hkept.contiguous_iff, ?_⟩)
        have htracks := hkept.tracks
        split <;> exact htracks

theorem Poisoned.refuses (h : d.Poisoned) : d.session.refuses d.header = true := by
  simp [Session.refuses, session, h.2.2, h.2.1]

theorem Poisoned.decodeFramePayload (h : d.Poisoned) (buf : Bytes) :
    d.decodeFramePayload buf = (d, .error (.error protocolError)) :=
  if_pos h.refuses

def Follows (d : FrameDecoder) (block : Option FrameHeader) : Prop :=
  Tracks d.continuations block ∨ block = none ∧ d.Poisoned

theorem Follows.tracks (h : d.Follows block) (hstage : d.stage = .header) :
    Tracks d.continuations block := by
  rcases h with h | ⟨-, hpay, -⟩
  · exact h
  · rw [hstage] at hpay
    cases hpay

theorem decodeFramePayload_follows (hstage : d.stage = .payload) (hsound : d.Sound)
    (hfollows : d.Follows block) (hround : d.decodeFramePayload buf = (d', r)) :
    (r = .ok none ∧ d'.Follows block) ∨
      (∃ e, r = .error e ∧ d'.Follows block ∧
        let frame := { decoder := d, octets := buf, result := .error e }
        (Contiguous block frame ↔ Solicited block frame)) ∨
      ∃ remain frame, r = .ok (some (remain, frame)) ∧
        Kept block { decoder := d, octets := buf, result := .ok frame } d' := by
  rcases hfollows with htracks | ⟨rfl, hpoisoned⟩
  · obtain ⟨rfl, hcont⟩ | ⟨e, rfl, hkept⟩ | h :=
      decodeFramePayload_kept hstage hsound htracks hround
    · exact .inl ⟨rfl, .inl (hcont ▸ htracks)⟩
    · refine .inr (.inl ⟨e, rfl, ?_, hkept.contiguous_iff⟩)
      obtain ⟨-, -, hstage', hhdr'⟩ | ⟨remain, frame, h, -⟩ :=
        decodeFramePayload_sound hstage hsound hround
      · rcases hkept.tracks with h | ⟨-, rfl, h9, hopen⟩
        · exact .inl h
        · exact .inr ⟨rfl, hstage', hhdr' ▸ h9, hopen⟩
      · cases h
    · exact .inr (.inr h)
  · rw [hpoisoned.decodeFramePayload] at hround
    cases hround
    refine .inr (.inl ⟨_, rfl, .inr ⟨rfl, hpoisoned⟩, ?_⟩)
    exact contiguous_other hpoisoned.2.1 fun f parts hok => by cases hok

/-! ## Runs -/

theorem Rounds.follows {last : FrameDecoder} {fault : Option (Fault H2Error)}
    (h : Rounds d buf frames last fault) (hsound : d.Sound) (hfollows : d.Follows block) :
    EachFrame (fun block frame => Contiguous block frame ↔ Solicited block frame) block frames ∧
      last.Follows (frames.foldl Received.openBlock block) := by
  induction h generalizing block with
  | stop d buf => exact ⟨trivial, hfollows⟩
  | headerWaits stage round | headerFails stage round =>
    obtain ⟨-, hcont, -⟩ := decodeFrameHeader_sound stage hsound round
    exact ⟨trivial, .inl (hcont ▸ hfollows.tracks stage)⟩
  | header stage round later ih =>
    obtain ⟨-, hcont, ⟨h | h, -⟩ | ⟨remain, -, hnext⟩⟩ := decodeFrameHeader_sound stage hsound round
    · cases h
    · cases h
    · exact ih hnext (.inl (hcont ▸ hfollows.tracks stage))
  | payloadWaits stage round =>
    obtain ⟨-, hlast⟩ | ⟨e, h, -⟩ | ⟨remain, frame, h, -⟩ :=
      decodeFramePayload_follows stage hsound hfollows round
    · exact ⟨trivial, hlast⟩
    · cases h
    · cases h
  | payloadFails stage round =>
    obtain ⟨h, -⟩ | ⟨e, h, hlast, hiff⟩ | ⟨remain, frame, h, -⟩ :=
      decodeFramePayload_follows stage hsound hfollows round
    · cases h
    · cases h
      exact ⟨⟨hiff, trivial⟩, hlast⟩
    · cases h
  | payload stage round later ih =>
    obtain ⟨h, -⟩ | ⟨e, h, -⟩ | ⟨remain, frame, h, hkept⟩ :=
      decodeFramePayload_follows stage hsound hfollows round
    · cases h
    · cases h
    · cases h
      obtain ⟨h | ⟨e, h⟩, -⟩ | ⟨remain, frame, -, hnext⟩ :=
        decodeFramePayload_sound stage hsound round
      · cases h
      · cases h
      · obtain htracks | ⟨⟨e, h⟩, -⟩ := hkept.tracks
        · have hlater := ih hnext (.inl htracks)
          exact ⟨⟨hkept.contiguous_iff, hlater.1⟩, hlater.2⟩
        · cases h

theorem Reached.follows (h : d.Reached past) :
    d.Follows (past.foldl Received.openBlock none) ∧
      EachFrame (fun block frame => Contiguous block frame ↔ Solicited block frame) none past := by
  induction h with
  | new => exact ⟨.inl rfl, trivial⟩
  | setMaxFrameSize reached size ih =>
    refine ⟨?_, ih.2⟩
    rw [FrameDecoder.setMaxFrameSize]
    split <;> exact ih.1
  | setMaxHeaderListSize reached size ih => exact ih
  | @decode d past reached buf returns ih =>
    obtain ⟨hfollows, hpast⟩ := ih
    obtain ⟨hframes, hlast⟩ := (d.decode_rounds buf).follows reached.sound hfollows
    refine ⟨?_, hpast.append hframes⟩
    rwa [List.foldl_append]

theorem Reached.eachFrame (h : d.Reached past) (buf : Bytes) :
    EachFrame (fun block frame => Contiguous block frame ↔ Solicited block frame) none
      (past ++ d.received buf) := by
  obtain ⟨hfollows, hpast⟩ := h.follows
  exact hpast.append ((d.decode_rounds buf).follows h.sound hfollows).1

end FrameDecoder

/-- In every run the header blocks are contiguous if and only if no CONTINUATION frame comes
while no block is open. -/
theorem headerBlocks_contiguous_iff {d : FrameDecoder} {past : List Received}
    (h : d.Reached past) (buf : Bytes) :
    EachFrame Contiguous none (past ++ d.received buf) ↔
      EachFrame Solicited none (past ++ d.received buf) :=
  (h.eachFrame buf).iff

/-- A HEADERS frame without END_HEADERS and the CONTINUATION frame that ends its block. -/
theorem headerBlocks_contiguous_split :
    EachFrame Contiguous none ([] ++ FrameDecoder.new.received
      [0, 0, 1, 1, 1, 0, 0, 0, 1, 0x82, 0, 0, 1, 9, 4, 0, 0, 0, 1, 0x84]) :=
  (headerBlocks_contiguous_iff .new _).mpr (by decide)

/-- The first frame of a connection is a CONTINUATION frame, and it is taken for a header
block. -/
theorem headerBlocks_unsolicited :
    FrameDecoder.new.Reached [] ∧ ¬ EachFrame Contiguous none ([] ++ FrameDecoder.new.received
      [0, 0, 0, 9, 4, 0, 0, 0, 1]) := by
  refine ⟨.new, fun h => ?_⟩
  rw [(FrameDecoder.Reached.new.eachFrame _).iff] at h
  revert h
  decide

end YlongHttp
