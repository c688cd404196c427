import YlongHttp.Model.Client.RecvData
import YlongHttp.Verification.H2.Cuts

/-! # Stream errors

After a stream error the decoder keeps the header of the faulty frame and goes on reading
payloads for it. So the only streams that come through are those that end with the faulty
frame, and only if no frame can be lost with it. -/

namespace YlongHttp

open List FrameDecoder Session

variable {h : FrameHeader} {octets read : Bytes} {e : H2Error} {max : UInt32} {s : Session}
  {d d' : FrameDecoder}

/-! ## Faulty frames -/

/-- The payloads for which the decoder reports a stream error. -/
inductive FaultyPayload (h : FrameHeader) : Bytes → H2Error → Prop
  | windowUpdate {b0 b1 b2 b3 : UInt8} (type : h.frameType = 8)
      (zero : getStreamId b0 b1 b2 b3 = 0) :
      FaultyPayload h [b0, b1, b2, b3] (.streamError h.streamId .protocolError)
  | priority {payload : Bytes} (type : h.frameType = 2) (stream : h.streamId ≠ 0)
      (size : h.payloadLength ≠ 5) :
      FaultyPayload h payload (.streamError h.streamId .frameSizeError)

def FaultyFrame (max : UInt32) (s : Session) (octets : Bytes) (e : H2Error) : Prop :=
  ∃ h payload, readHeader octets = some (h, payload) ∧ payload.length = h.payloadLength ∧
    h.payloadLength ≤ max.toNat ∧ s.refuses h = false ∧ FaultyPayload h payload e

theorem FaultyPayload.decodePayload {buf : Bytes} (hfault : FaultyPayload h (octets ++ buf) e)
    (hlen : octets.length + buf.length = h.payloadLength) (max : UInt32) (s : Session) :
    (FrameDecoder.waiting max s (some h) octets).decodePayload buf =
      (FrameDecoder.waiting max s (some h)
        (if h.frameType = 8 ∧ octets ≠ [] then octets ++ buf else octets),
        .error (.error e)) := by
  generalize hp : octets ++ buf = payload at hfault
  cases hfault with
  | windowUpdate type zero =>
    rename_i b0 b1 b2 b3
    have hfour : h.payloadLength = 4 := by
      rw [← hlen, ← length_append, hp]
      rfl
    have hhdr : (waiting max s (some h) octets).header = h := rfl
    rw [decodePayload, hhdr, type]
    simp only [decodeWindowUpdatePayload, withPayload]
    by_cases hnil : octets = []
    · subst hnil
      rw [nil_append] at hp
      subst hp
      simp [waiting, hfour, zero]
    · have hpos : octets.length ≠ 0 := fun h0 => hnil (length_eq_zero_iff.mp h0)
      have hbuf : octets.length + buf.length = 4 := by omega
      simp [waiting, hfour, zero, hp, hpos, hnil, hbuf]
  | priority type stream size =>
    have hhdr : (waiting max s (some h) octets).header = h := rfl
    rw [decodePayload, hhdr, type]
    simp [decodePriorityPayload, hhdr, isConnectionFrame, stream, size]

theorem FaultyPayload.receive {payload : Bytes} (hfault : FaultyPayload h payload e)
    (hlen : payload.length = h.payloadLength) (s : Session) (cut : Bool) :
    s.receive cut h payload = (s, .error (.error e)) := by
  rw [Session.receive]
  split
  · rename_i hcut
    simp only [Bool.and_eq_true, decide_eq_true_eq] at hcut
    cases hfault with
    | windowUpdate type zero =>
      rw [type] at hcut
      exact absurd hcut.1.2 (by decide)
    | priority type stream size => rfl
  · have hdec := FaultyPayload.decodePayload (show FaultyPayload h ([] ++ payload) e from hfault)
      (by simpa using hlen) defaultMaxFrameSize s
    simp only [ne_eq, not_true_eq_false, and_false, if_false] at hdec
    rw [show s.decoder h = waiting defaultMaxFrameSize s (some h) [] from rfl, hdec]
    rfl

variable {x : Bytes}

theorem FaultyFrame.split {y : Bytes} (hfault : FaultyFrame max s octets e) (hxy : octets = x ++ y)
    (hy : y ≠ []) :
    ∃ h rest, s.run max x = { frames := [], ending := .waits s h rest } ∧
      ∀ cut, s.resume max cut h (rest ++ y) = { frames := [], ending := .fails (.error e) } := by
  obtain ⟨h, payload, hread, hlen, hmax, hr, hpay⟩ := hfault
  have hlength := readHeader_length hread
  have hypos : 0 < y.length := length_pos_iff.mpr hy
  have hcomp : ∀ cut, s.payload (run max) cut h payload =
      { frames := [], ending := .fails (.error e) } := by
    intro cut
    have htake : payload.take h.payloadLength = payload := take_of_length_le hlen.le
    simp [Session.payload, hr, hlen, htake, hpay.receive hlen]
  subst hxy
  rw [length_append] at hlength
  cases hx : readHeader x with
  | none =>
    refine ⟨none, x, by rw [run_eq, hx], ?_⟩
    intro cut
    rw [resume, run_eq, hread]
    exact (if_neg (by omega)).trans (hcomp false)
  | some found =>
    obtain ⟨h', rest⟩ := found
    have hboth := readHeader_append hx y
    rw [hread] at hboth
    obtain ⟨rfl, rfl⟩ := Prod.mk.inj (Option.some.inj hboth)
    rw [length_append] at hlen
    have hshort : rest.length < h.payloadLength := by omega
    refine ⟨some h, rest, ?_, hcomp⟩
    rw [run_eq, hx]
    refine (if_neg (by omega)).trans ?_
    simp [Session.payload, hr, hshort]

theorem FaultyFrame.run (hfault : FaultyFrame max s octets e) :
    s.run max octets = { frames := [], ending := .fails (.error e) } := by
  have hne : octets ≠ [] := by
    rintro rfl
    obtain ⟨h, payload, hread, -⟩ := hfault
    cases hread
  obtain ⟨h, rest, hnil, hfails⟩ := hfault.split (nil_append octets).symm hne
  rw [run_nil] at hnil
  obtain ⟨rfl, rfl⟩ := (Ending.waits.inj (Run.mk.inj hnil).2).2
  exact hfails false

/-! ## The decoder after a faulty frame -/

namespace FrameDecoder

variable {s : Session} {h : FrameHeader}

theorem decode_payload_fails (buf : Bytes) {e : Fault H2Error} (hr : s.refuses h = false)
    (hle : octets.length ≤ h.payloadLength) (hge : h.payloadLength ≤ octets.length + buf.length)
    (hdec : (waiting max s (some h) octets).decodePayload
      (buf.take (h.payloadLength - octets.length)) = (d', .error e)) (fuel : ℕ)
    (frames : List FrameKind) :
    decodeLoop (fuel + 1) (waiting max s (some h) octets) buf frames = (d', .error e) := by
  have hpay : (waiting max s (some h) octets).decodeFramePayload buf = (d', .error e) := by
    have hrefuses : (!(waiting max s (some h) octets).continuations.isEndHeaders &&
        (h.streamId ≠ (waiting max s (some h) octets).continuations.streamId ||
          h.frameType ≠ 9)) = false := hr
    have hhdr : (waiting max s (some h) octets).header = h := rfl
    have hoff : (waiting max s (some h) octets).offset = octets.length := rfl
    simp only [decodeFramePayload, hhdr, hrefuses, hoff]
    rw [if_neg (by simp), if_neg (by omega), if_neg (by omega), hdec]
  rw [decodeLoop, show (waiting max s (some h) octets).stage = .payload from rfl, hpay]

def Stuck (d : FrameDecoder) (e : H2Error) : Prop := ∀ b, d.decode [b] = (d, .error (.error e))

theorem stuck_windowUpdate (max : UInt32) {b0 b1 b2 b3 : UInt8} (hr : s.refuses h = false)
    (hlen : h.payloadLength = 4) (type : h.frameType = 8) (zero : getStreamId b0 b1 b2 b3 = 0) :
    Stuck (waiting max s (some h) [b0, b1, b2, b3]) (.streamError h.streamId .protocolError) := by
  intro b
  have hfault : FaultyPayload h ([b0, b1, b2, b3] ++ []) (.streamError h.streamId .protocolError) :=
    .windowUpdate type zero
  have hdec := hfault.decodePayload (by simp [hlen]) max s
  simp only [type, append_nil, ite_self] at hdec
  refine decode_payload_fails [b] hr (by simp [hlen]) (by simp [hlen]) ?_ 3 []
  rw [show [b].take (h.payloadLength - [b0, b1, b2, b3].length) = [] by simp [hlen]]
  exact hdec

theorem stuck_priority (max : UInt32) {rest : Bytes} (hr : s.refuses h = false)
    (hle : rest.length ≤ h.payloadLength) (hge : h.payloadLength ≤ rest.length + 1)
    (type : h.frameType = 2) (stream : h.streamId ≠ 0) (size : h.payloadLength ≠ 5) :
    Stuck (waiting max s (some h) rest) (.streamError h.streamId .frameSizeError) := by
  intro b
  have hfault : FaultyPayload h (rest ++ [b].take (h.payloadLength - rest.length))
      (.streamError h.streamId .frameSizeError) := .priority type stream size
  have hdec := hfault.decodePayload (by rw [length_take, length_singleton]; omega) max s
  rw [if_neg (by rw [type]; simp)] at hdec
  exact decode_payload_fails [b] hr hle hge hdec 3 []

end FrameDecoder

theorem FaultyFrame.stuck {b : UInt8} (hfault : FaultyFrame max s octets e)
    (hx : octets = x ++ [b]) :
    ∃ h rest d', s.run max x = { frames := [], ending := .waits s h rest } ∧
      (waiting max s h rest).decode [b] = (d', .error (.error e)) ∧ d'.Stuck e := by
  obtain ⟨h, payload, hread, hlen, hmax, hr, hpay⟩ := hfault
  have hlength := readHeader_length hread
  subst hx
  rw [length_append, length_singleton] at hlength
  cases hxr : readHeader x with
  | none =>
    -- The last octet of the header, and no payload: this is not WINDOW_UPDATE.
    have hxlen := (readHeader_eq_none_iff x).mp hxr
    have hnil : payload = [] := length_eq_zero_iff.mp (by omega)
    subst hnil
    rw [length_nil] at hlen
    cases hpay with
    | priority type stream size =>
      refine ⟨none, x, waiting max s (some h) [], by rw [run_eq, hxr], ?_,
        stuck_priority max hr (by simp) (by simp [← hlen]) type stream size⟩
      obtain ⟨hhdr, -⟩ := decodeFrameHeader_complete max s hxlen hread
      have hfault : FaultyPayload h ([] ++ []) (.streamError h.streamId .frameSizeError) :=
        .priority type stream size
      have hdec := hfault.decodePayload (by simpa using hlen) max s
      rw [if_neg (by rw [type]; simp)] at hdec
      have hneed : ([] : Bytes).take (h.payloadLength - ([] : Bytes).length) = [] := by simp
      have hloop := fun hle hge =>
        decode_payload_fails [] hr hle hge (by rw [hneed]; exact hdec) 2 []
      rw [← hloop (by simp) (by simp [← hlen])]
      change decodeLoop 4 _ _ _ = _
      rw [decodeLoop, show (waiting max s none x).stage = .header from rfl, hhdr hmax]
      rfl
  | some found =>
    obtain ⟨h', rest⟩ := found
    have hboth := readHeader_append hxr [b]
    rw [hread] at hboth
    obtain ⟨rfl, rfl⟩ := Prod.mk.inj (Option.some.inj hboth)
    rw [length_append, length_singleton] at hlen
    have hdec := hpay.decodePayload (by simpa using hlen) max s
    have hneed : [b].take (h.payloadLength - rest.length) = [b] := by
      rw [← hlen]
      simp
    have hloop := fun hle hge =>
      decode_payload_fails [b] hr hle hge (by rw [hneed]; exact hdec) 3 []
    have hrun : s.run max x = { frames := [], ending := .waits s (some h) rest } := by
      rw [run_eq, hxr]
      refine (if_neg (by omega)).trans ?_
      simp [Session.payload, hr, ← hlen]
    refine ⟨some h, rest, _, hrun, hloop (by omega) (by simp [← hlen]), ?_⟩
    generalize hp : rest ++ [b] = payload at hpay
    cases hpay with
    | priority type stream size =>
      rw [if_neg (by rw [type]; simp)]
      exact stuck_priority max hr (by omega) (by omega) type stream size
    | windowUpdate type zero =>
      have hfour : rest.length = 3 := by
        have := congrArg length hp
        simp at this
        omega
      rw [if_pos ⟨type, by rintro rfl; simp at hfour⟩]
      exact stuck_windowUpdate max hr (by omega) type zero

/-! ## What the client receives -/

/-- A stream of whole frames, with what the client should receive: each of them is accepted,
or faulty and then as if it had been absent. -/
inductive Units (max : UInt32) :
    Session → List Bytes → List (Except (Fault H2Error) FrameKind) → Session → Prop
  | nil (s : Session) : Units max s [] [] s
  | accepted {s s₁ s₂ : Session} {octets : Bytes} {units : List Bytes}
      {p : FrameHeader × FrameKind} {outputs : List (Except (Fault H2Error) FrameKind)}
      (run : s.run max octets = { frames := [p], ending := .waits s₁ none [] })
      (later : Units max s₁ units outputs s₂) :
      Units max s (octets :: units) (.ok p.2 :: outputs) s₂
  | faulty {s s₂ : Session} {octets : Bytes} {units : List Bytes} {e : H2Error}
      {outputs : List (Except (Fault H2Error) FrameKind)} (fault : FaultyFrame max s octets e)
      (later : Units max s units outputs s₂) :
      Units max s (octets :: units) (.error (.error e) :: outputs) s₂

theorem Session.run_length {p : FrameHeader × FrameKind} {fs : List (FrameHeader × FrameKind)}
    (hframes : (s.run max octets).frames = p :: fs) : 9 ≤ octets.length := by
  by_contra hlt
  rw [run_eq, (readHeader_eq_none_iff octets).mpr (by omega)] at hframes
  cases hframes

theorem Units.length {s' : Session} {units : List Bytes}
    {outputs : List (Except (Fault H2Error) FrameKind)} (h : Units max s units outputs s') :
    9 * outputs.length ≤ units.flatten.length ∧ outputs.length = units.length := by
  induction h with
  | nil s => simp
  | accepted run later ih =>
    have hlen := run_length (congrArg Run.frames run)
    simp only [length_cons, flatten_cons, length_append]
    omega
  | faulty fault later ih =>
    obtain ⟨h, payload, hread, -⟩ := fault
    have hlen := readHeader_length hread
    simp only [length_cons, flatten_cons, length_append]
    omega

theorem FrameDecoder.Accepts.recvData {segments : List Bytes} {frames : List FrameKind}
    (h : Accepts d segments frames d') (reads : List Bytes) :
    recvData d (segments ++ reads) = frames.map .ok ++ recvData d' reads := by
  induction h with
  | nil d => rfl
  | cons decoded accepts ih =>
    rw [cons_append, YlongHttp.recvData, decoded]
    simp only [ih, map_append, append_assoc]

theorem recvData_error (h : d.decode read = (d', .error (.error e))) (reads : List Bytes) :
    recvData d (read :: reads) = .error (.error e) :: recvData d' reads := by
  rw [recvData, h]

def singles (octets : Bytes) : List Bytes := octets.map fun b => [b]

@[simp] theorem singles_flatten (octets : Bytes) : (singles octets).flatten = octets := by
  induction octets with
  | nil => rfl
  | cons b octets ih =>
    rw [singles, map_cons, flatten_cons]
    exact congrArg (cons b) ih

theorem singles_read (h : read ∈ singles octets) :
    0 < read.length ∧ read.length ≤ readBufferSize := by
  obtain ⟨b, -, rfl⟩ := mem_map.mp h
  simp [readBufferSize]

theorem recvData_stuck (h : d.Stuck e) (octets : Bytes) :
    recvData d (singles octets) = List.replicate octets.length (.error (.error e)) := by
  induction octets with
  | nil => rfl
  | cons b octets ih =>
    change recvData d ([b] :: singles octets) = _
    rw [recvData_error (h b), ih]
    rfl

end YlongHttp
