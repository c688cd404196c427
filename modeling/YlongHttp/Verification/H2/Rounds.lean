import YlongHttp.Verification.H2.Session
import YlongHttp.Verification.Hpack.Errors

/-! # The rounds of the decoder's loop

The frames that a call of `decode` comes to, each with the decoder it meets and with what
becomes of it. A frame that waits for the rest of its payload has not been received yet, and
one that its header makes too long never is. -/

namespace YlongHttp

open List

/-- A frame that `decode_frame_payload` accepted or refused. -/
structure Received where
  /-- The decoder before the payload. -/
  decoder : FrameDecoder
  /-- What is left of the octets of the call. -/
  octets : Bytes
  result : Except (Fault H2Error) FrameKind

def Received.header (self : Received) : FrameHeader := self.decoder.header

namespace FrameDecoder

/-- The frames of the rounds of `decodeLoop`. -/
def receivedLoop : ℕ → FrameDecoder → Bytes → List Received
  | 0, _, _ => []
  | fuel + 1, self, buffer =>
    match self.stage with
    | .header =>
      match self.decodeFrameHeader buffer with
      | (d, .ok (some remain)) => receivedLoop fuel { d with stage := .payload } remain
      | (_, .ok none) => []
      | (_, .error _) => []
    | .payload =>
      match self.decodeFramePayload buffer with
      | (_, .error e) => [{ decoder := self, octets := buffer, result := .error e }]
      | (d, .ok (some (remain, frame))) =>
        { decoder := self, octets := buffer, result := .ok frame } ::
          receivedLoop fuel { d with stage := .header } remain
      | (_, .ok none) => []

/-- The frames that a call of `decode` comes to. -/
def received (self : FrameDecoder) (buf : Bytes) : List Received :=
  receivedLoop (2 * buf.length + 2) self buf

/-- Rounds of the loop, with the frames they come to, the decoder they leave, and the fault
that ends them, if one does. -/
inductive Rounds : FrameDecoder → Bytes → List Received → FrameDecoder → Option (Fault H2Error) →
    Prop
  | stop (d : FrameDecoder) (buf : Bytes) : Rounds d buf [] d none
  | headerWaits {d d' : FrameDecoder} {buf : Bytes} (stage : d.stage = .header)
      (round : d.decodeFrameHeader buf = (d', .ok none)) : Rounds d buf [] d' none
  | headerFails {d d' : FrameDecoder} {buf : Bytes} {e : Fault H2Error}
      (stage : d.stage = .header) (round : d.decodeFrameHeader buf = (d', .error e)) :
      Rounds d buf [] d' (some e)
  | header {d d' last : FrameDecoder} {buf remain : Bytes} {frames : List Received}
      {fault : Option (Fault H2Error)} (stage : d.stage = .header)
      (round : d.decodeFrameHeader buf = (d', .ok (some remain)))
      (later : Rounds { d' with stage := .payload } remain frames last fault) :
      Rounds d buf frames last fault
  | payloadWaits {d d' : FrameDecoder} {buf : Bytes} (stage : d.stage = .payload)
      (round : d.decodeFramePayload buf = (d', .ok none)) : Rounds d buf [] d' none
  | payloadFails {d d' : FrameDecoder} {buf : Bytes} {e : Fault H2Error}
      (stage : d.stage = .payload) (round : d.decodeFramePayload buf = (d', .error e)) :
      Rounds d buf [{ decoder := d, octets := buf, result := .error e }] d' (some e)
  | payload {d d' last : FrameDecoder} {buf remain : Bytes} {frame : FrameKind}
      {frames : List Received} {fault : Option (Fault H2Error)} (stage : d.stage = .payload)
      (round : d.decodeFramePayload buf = (d', .ok (some (remain, frame))))
      (later : Rounds { d' with stage := .header } remain frames last fault) :
      Rounds d buf ({ decoder := d, octets := buf, result := .ok frame } :: frames) last fault

def faultOf {α : Type} : Except (Fault H2Error) α → Option (Fault H2Error)
  | .ok _ => none
  | .error e => some e

theorem decodeLoop_rounds (fuel : ℕ) (d : FrameDecoder) (buf : Bytes) (frames : List FrameKind) :
    Rounds d buf (receivedLoop fuel d buf) (decodeLoop fuel d buf frames).1
      (faultOf (decodeLoop fuel d buf frames).2) := by
  induction fuel generalizing d buf frames with
  | zero => exact .stop d buf
  | succ fuel ih =>
    rw [receivedLoop, decodeLoop]
    cases hstage : d.stage with
    | header =>
      dsimp only
      rcases hround : d.decodeFrameHeader buf with ⟨d', e | _ | remain⟩
      · exact .headerFails hstage hround
      · exact .headerWaits hstage hround
      · exact .header hstage hround (ih _ remain frames)
    | payload =>
      dsimp only
      rcases hround : d.decodeFramePayload buf with ⟨d', e | _ | ⟨remain, frame⟩⟩
      · exact .payloadFails hstage hround
      · exact .payloadWaits hstage hround
      · exact .payload hstage hround (ih _ remain (frames ++ [frame]))

theorem decode_rounds (d : FrameDecoder) (buf : Bytes) :
    Rounds d buf (d.received buf) (d.decode buf).1 (faultOf (d.decode buf).2) :=
  decodeLoop_rounds _ d buf []

end FrameDecoder

/-! ## The buffer between calls -/

variable {octets buf : Bytes}

namespace FrameDecoder

def Sound (d : FrameDecoder) : Prop :=
  match d.stage with
  | .header => d.offset < 9 ∧ d.offset ≤ d.buffer.length ∧ (d.offset = 0 → d.buffer = [])
  | .payload => d.offset = d.buffer.length ∧ d.offset ≤ d.header.payloadLength

variable {d d' : FrameDecoder}

theorem eq_waiting (hstage : d.stage = .payload) (hoffset : d.offset = d.buffer.length) :
    d = waiting d.maxFrameSize d.session (some d.header) d.buffer := by
  obtain ⟨buffer, offset, max, stage, header, hpack, continuations⟩ := d
  simp only at hstage hoffset
  subst hstage hoffset
  rfl

theorem sound_waiting {max : UInt32} {s : Session} {h : Option FrameHeader}
    (hroom : Room h octets) : (waiting max s h octets).Sound := by
  cases h with
  | none => exact ⟨hroom, le_rfl, length_eq_zero_iff.mp⟩
  | some h => exact ⟨rfl, hroom⟩

theorem octets_of_header (h : 9 ≤ octets.length) :
    ∃ b0 b1 b2 b3 b4 b5 b6 b7 b8 rest,
      octets = b0 :: b1 :: b2 :: b3 :: b4 :: b5 :: b6 :: b7 :: b8 :: rest := by
  cases hread : readHeader octets with
  | none =>
    rw [readHeader_eq_none_iff] at hread
    omega
  | some found =>
    obtain ⟨b0, b1, b2, b3, b4, b5, b6, b7, b8, hoct, -⟩ := readHeader_eq_some hread
    exact ⟨b0, b1, b2, b3, b4, b5, b6, b7, b8, _, hoct⟩

theorem decodeFrameHeader_sound {r : Except (Fault H2Error) (Option Bytes)}
    (hstage : d.stage = .header) (hsound : d.Sound) (hround : d.decodeFrameHeader buf = (d', r)) :
    d'.hpack = d.hpack ∧ d'.continuations = d.continuations ∧
      ((r = .ok none ∨ r = .error (.error frameSizeError)) ∧ d'.Sound ∨
        ∃ remain, r = .ok (some remain) ∧ ({ d' with stage := .payload } : FrameDecoder).Sound) := by
  rw [Sound, hstage] at hsound
  obtain ⟨hoff, hlen, hzero⟩ := hsound
  have hnine : ¬ 9 < d.offset := by omega
  by_cases hshort : buf.length < 9 - d.offset
  · simp only [decodeFrameHeader, frameHeaderLength, hnine, if_false, hshort, if_true] at hround
    cases hround
    refine ⟨rfl, rfl, .inl ⟨.inl rfl, ?_⟩⟩
    simp only [Sound, hstage, length_append]
    refine ⟨by omega, by omega, fun h => ?_⟩
    have hnil : buf.length = 0 := by omega
    simp [hzero (by omega), length_eq_zero_iff.mp hnil]
  · by_cases h0 : d.offset = 0
    · have hb := hzero h0
      rw [h0] at hnine hshort
      obtain ⟨b0, b1, b2, b3, b4, b5, b6, b7, b8, rest, rfl⟩ :=
        octets_of_header (show 9 ≤ buf.length by omega)
      simp only [decodeFrameHeader, frameHeaderLength, hnine, if_false, hshort, h0, if_true,
        ne_eq, not_true_eq_false] at hround
      split at hround
      · cases hround
        refine ⟨rfl, rfl, .inl ⟨.inr rfl, ?_⟩⟩
        simp [Sound, hstage, h0, hb]
      · cases hround
        refine ⟨rfl, rfl, .inr ⟨_, rfl, ?_⟩⟩
        simp [Sound, hb]
    · obtain ⟨b0, b1, b2, b3, b4, b5, b6, b7, b8, rest, hbytes⟩ :=
        octets_of_header (show 9 ≤ (d.buffer ++ buf.take (9 - d.offset)).length by
          rw [length_append, length_take]
          omega)
      simp only [decodeFrameHeader, frameHeaderLength, hnine, if_false, hshort, h0, hbytes,
        ne_eq, not_false_eq_true, if_true] at hround
      split at hround
      · cases hround
        refine ⟨rfl, rfl, .inl ⟨.inr rfl, ?_⟩⟩
        simp only [Sound, hstage, length_cons]
        exact ⟨hoff, by omega, fun h => absurd h h0⟩
      · cases hround
        refine ⟨rfl, rfl, .inr ⟨_, rfl, ?_⟩⟩
        simp [Sound]

theorem decodeFramePayload_sound {r : Except (Fault H2Error) (Option (Bytes × FrameKind))}
    (hstage : d.stage = .payload) (hsound : d.Sound) (hround : d.decodeFramePayload buf = (d', r)) :
    (r = .ok none ∨ ∃ e, r = .error e) ∧ d'.Sound ∧ d'.stage = .payload ∧ d'.header = d.header ∨
      ∃ remain frame, r = .ok (some (remain, frame)) ∧
        ({ d' with stage := .header } : FrameDecoder).Sound := by
  rw [Sound, hstage] at hsound
  obtain ⟨hoff, hle⟩ := hsound
  rw [hoff] at hle
  obtain ⟨b, hb, hdec⟩ := decodeFramePayload_waiting d.maxFrameSize d.session buf hle
  rw [← eq_waiting hstage hoff, hround] at hdec
  split at hdec
  · cases hdec
    refine .inl ⟨.inr ⟨_, rfl⟩, ?_, hstage, rfl⟩
    rw [Sound, hstage]
    exact ⟨hoff, by omega⟩
  · split at hdec
    · rename_i hshort
      cases hdec
      exact .inl ⟨.inl rfl, sound_waiting (Nat.le_of_lt hshort), rfl, rfl⟩
    · split at hdec
      · cases hdec
        refine .inl ⟨.inr ⟨_, rfl⟩, sound_waiting ?_, rfl, rfl⟩
        rcases hb with rfl | rfl
        · exact hle
        · simp only [Room, length_append, length_take]
          omega
      · cases hdec
        have hroom : Room none [] := by simp [Room]
        exact .inr ⟨_, _, rfl, sound_waiting hroom⟩

theorem Rounds.sound {last : FrameDecoder} {frames : List Received} {fault : Option (Fault H2Error)}
    (h : Rounds d buf frames last fault) (hsound : d.Sound) :
    last.Sound := by
  induction h with
  | stop d buf => exact hsound
  | headerWaits stage round | headerFails stage round =>
    obtain ⟨-, -, ⟨-, h⟩ | ⟨remain, h, -⟩⟩ := decodeFrameHeader_sound stage hsound round
    · exact h
    · cases h
  | header stage round later ih =>
    obtain ⟨-, -, ⟨h | h, -⟩ | ⟨remain, -, h⟩⟩ := decodeFrameHeader_sound stage hsound round
    · cases h
    · cases h
    · exact ih h
  | payloadWaits stage round | payloadFails stage round =>
    obtain ⟨-, h, -⟩ | ⟨remain, frame, h, -⟩ := decodeFramePayload_sound stage hsound round
    · exact h
    · cases h
  | payload stage round later ih =>
    obtain ⟨h | ⟨e, h⟩, -⟩ | ⟨remain, frame, -, h⟩ := decodeFramePayload_sound stage hsound round
    · cases h
    · cases h
    · exact ih h

/-- The decoders that calls lead to, with the frames they have received. An error does not
end the run, a panic does. -/
inductive Reached : FrameDecoder → List Received → Prop
  | new : Reached .new []
  | setMaxFrameSize {d : FrameDecoder} {past : List Received} (reached : Reached d past)
      (size : UInt32) : Reached (d.setMaxFrameSize size).1 past
  | setMaxHeaderListSize {d : FrameDecoder} {past : List Received} (reached : Reached d past)
      (size : ℕ) : Reached (d.setMaxHeaderListSize size) past
  | decode {d : FrameDecoder} {past : List Received} (reached : Reached d past) (buf : Bytes)
      (returns : (d.decode buf).2 ≠ .error .panic) :
      Reached (d.decode buf).1 (past ++ d.received buf)

theorem Reached.sound {past : List Received} (h : d.Reached past) : d.Sound := by
  induction h with
  | new => exact ⟨by decide, by decide, fun _ => rfl⟩
  | setMaxFrameSize reached size ih =>
    rw [FrameDecoder.setMaxFrameSize]
    split <;> exact ih
  | setMaxHeaderListSize reached size ih => exact ih
  | @decode d past reached buf returns ih => exact (d.decode_rounds buf).sound ih

end FrameDecoder

/-! ## Outcomes of the payload decoders -/

namespace FrameDecoder

/-- A frame that satisfies `P`, or a fault that satisfies `E`. -/
def Outcome (P : FrameDecoder → FrameKind → Prop) (E : FrameDecoder → Fault H2Error → Prop)
    (r : FrameDecoder × Except (Fault H2Error) FrameKind) : Prop :=
  match r with
  | (d, .ok frame) => P d frame
  | (d, .error e) => E d e

section Outcome

variable {P : FrameDecoder → FrameKind → Prop} {E : FrameDecoder → Fault H2Error → Prop}
  {d : FrameDecoder}

theorem Outcome.withPayload
    {next : FrameDecoder → Bytes → FrameDecoder × Except (Fault H2Error) FrameKind}
    (h : ∀ buffer offset p, Outcome P E (next { d with buffer, offset } p)) :
    Outcome P E (d.withPayload buf next) := by
  rw [FrameDecoder.withPayload]
  split
  · exact h _ _ _
  · exact h d.buffer d.offset buf

theorem Outcome.hpackDecode {next : FrameDecoder → FrameDecoder × Except (Fault H2Error) FrameKind}
    (hfault : ∀ hpack e, HpackFault e → E { d with hpack } e)
    (h : ∀ hpack, Outcome P E (next { d with hpack })) : Outcome P E (d.hpackDecode buf next) := by
  rw [FrameDecoder.hpackDecode]
  rcases hdec : d.hpack.decode buf with ⟨hpack, e | _⟩
  · exact hfault hpack e (HpackDecoder.decode_fault hdec)
  · exact h hpack

theorem Outcome.hpackFinish
    {next : FrameDecoder → Parts → FrameDecoder × Except (Fault H2Error) FrameKind}
    (hfault : ∀ hpack e, HpackFault e → E { d with hpack } e)
    (h : ∀ hpack parts, Outcome P E (next { d with hpack } parts)) :
    Outcome P E (d.hpackFinish next) := by
  rw [FrameDecoder.hpackFinish]
  rcases hfin : d.hpack.finish with ⟨hpack, e | parts⟩
  · exact hfault hpack (.error e) (HpackDecoder.finish_error hfin)
  · exact h hpack parts

theorem Outcome.withFragment {start : ℕ}
    {next : ℕ → ℕ → FrameDecoder × Except (Fault H2Error) FrameKind} (hpanic : E d .panic)
    (hprotocol : E d (.error protocolError)) (h : ∀ i j, Outcome P E (next i j)) :
    Outcome P E (d.withFragment buf start next) := by
  rw [FrameDecoder.withFragment.eq_def]
  split
  · split
    · exact hpanic
    · dsimp only
      split
      · exact hprotocol
      · exact h _ _
  · exact h _ _

end Outcome

end FrameDecoder

end YlongHttp
