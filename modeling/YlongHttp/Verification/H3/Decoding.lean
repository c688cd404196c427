import YlongHttp.Model.H3.Decoder
import YlongHttp.Verification.H3.Encoding

/-! # What one call of the frame decoder reads -/

namespace YlongHttp.H3

open List
open DecodedH3Stream (putSetting decodeSettings)
open Qpack (QpackDecoder)

def StreamMessage.frames : StreamMessage → List FrameKind
  | .request frames | .control frames | .push _ frames => frames
  | _ => []

def dataFrame (data : Bytes) : Frame := { ty := dataFrameType, payload := .data data }

def knownSettings : List ℕ :=
  [0x0, settingQpackMaxTableCapacity, 0x2, 0x3, 0x4, 0x5, settingMaxFieldSectionSize,
    settingQpackBlockedStreams, settingEnableConnectProtocol, settingH3Datagram]

/-! ## Settings -/

/-- The settings read so far and the unknown ones, after some more pairs. -/
def putSettings (pairs : List (ℕ × ℕ)) (read : Settings × List (ℕ × ℕ)) :
    Except (Fault H3Error) (Settings × List (ℕ × ℕ)) :=
  pairs.foldlM (fun read pair => putSetting read.1 read.2 pair.1 pair.2) read

variable (settings : Settings)

theorem putSettings_pairs :
    putSettings settings.pairs (.default, []) = .ok ({ settings with additional := none }, []) := by
  obtain ⟨size, capacity, blocked, connect, datagram, additional⟩ := settings
  cases size <;> cases capacity <;> cases blocked <;> cases connect <;> cases datagram <;> rfl

variable {pairs : List (ℕ × ℕ)}

theorem putSettings_additional (addition : List (ℕ × ℕ))
    (hnew : ∀ pair ∈ pairs, pair.1 ∉ knownSettings) :
    putSettings pairs (settings, addition) = .ok (settings, addition ++ pairs) := by
  induction pairs generalizing addition with
  | nil => rw [append_nil]; rfl
  | cons pair pairs ih =>
    have hput : putSetting settings addition pair.1 pair.2 = .ok (settings, addition ++ [pair]) := by
      have hpair := hnew pair (.head _)
      simp only [knownSettings, mem_cons, not_mem_nil, or_false, not_or] at hpair
      obtain ⟨h0, h1, h2, h3, h4, h5, h6, h7, h8, h33⟩ := hpair
      rw [putSetting, if_neg h1, if_neg h8, if_neg h33, if_neg h6, if_neg h7]
      exact if_neg (by simp [h0, h2, h3, h4, h5])
    rw [putSettings, foldlM_cons, hput]
    change putSettings pairs (settings, addition ++ [pair]) = _
    rw [ih _ fun pair hpair => hnew pair (.tail _ hpair), append_assoc]
    rfl

theorem length_le_pairsOctets (hsmall : ∀ pair ∈ pairs, Small pair) :
    pairs.length ≤ (pairsOctets pairs).length := by
  induction pairs with
  | nil => exact Nat.zero_le _
  | cons pair pairs ih =>
    obtain ⟨b, bytes, hcons, -⟩ := varint_cons (hsmall pair (.head _)).1
    have hrest := ih fun pair hpair => hsmall pair (.tail _ hpair)
    rw [pairsOctets_cons, hcons]
    simp only [length_append, length_cons]
    omega

theorem decodeSettings_pairs (hsmall : ∀ pair ∈ pairs, Small pair) {total fuel : ℕ}
    (htotal : (pairsOctets pairs).length ≤ total) (hfuel : pairs.length ≤ fuel)
    (settings : Settings) (addition : List (ℕ × ℕ)) :
    decodeSettings total total fuel settings addition (pairsOctets pairs) =
      (putSettings pairs (settings, addition)).map fun read => (read.1, read.2, []) := by
  induction pairs generalizing fuel settings addition with
  | nil =>
    cases fuel with
    | zero => rfl
    | succ fuel => exact if_neg (by simp)
  | cons pair pairs ih =>
    obtain ⟨fuel, rfl⟩ : ∃ n, fuel = n + 1 := ⟨fuel - 1, by rw [length_cons] at hfuel; omega⟩
    obtain ⟨hkey, hval⟩ := hsmall pair (.head _)
    obtain ⟨b, bytes, hcons, -⟩ := varint_cons hkey
    rw [pairsOctets_cons, length_append, length_append] at htotal
    have hpos : 0 < (varint pair.1).length := by
      rw [hcons]
      exact Nat.succ_pos _
    rw [decodeSettings, pairsOctets_cons, if_pos (by
      simp only [length_append]
      omega), append_assoc, getVarint_varint hkey]
    dsimp only
    rw [getVarint_varint hval, putSettings, foldlM_cons]
    dsimp only
    cases hput : putSetting settings addition pair.1 pair.2 with
    | error e => rfl
    | ok read =>
      exact ih (fun pair hpair => hsmall pair (.tail _ hpair)) (by omega)
        (by rw [length_cons] at hfuel; omega) read.1 read.2

namespace DecodedH3Stream

variable {s : DecodedH3Stream} {q : QpackDecoder} {id fuel : ℕ} {frames : List FrameKind}

/-! ## The head of a frame -/

/-- The stream behind the type and the length of a frame. -/
def headed (s : DecodedH3Stream) (ty len : ℕ) (rest : Bytes) : DecodedH3Stream :=
  { s with
    buffer := rest
    streamSet := s.streamSet || ty = settingsFrameType
    frameType := some ty
    payloadLen := some len
    state := payloadState ty }

theorem decodeLoop_head {ty len : ℕ} {rest : Bytes} (hst : s.state = .frameType)
    (hbuffer : s.buffer = varint ty ++ (varint len ++ rest)) (hty : ty < 2 ^ 62)
    (hlen : len < 2 ^ 62) (hexpected : s.unexpected ty = false) :
    s.decodeLoop id (fuel + 2) q frames = (s.headed ty len rest).decodeLoop id fuel q frames := by
  rw [decodeLoop]
  simp only [hst, decodePart, decodeFrameType, hbuffer, getVarint_varint hty, hexpected,
    Bool.false_eq_true, if_false, append_nil]
  rw [decodeLoop]
  simp only [decodePart, decodePayloadLen, getVarint_varint hlen, append_nil]
  rfl

/-- The streams that carry frames. -/
def ForFrames (s : DecodedH3Stream) : Prop := s.ty = .request ∨ s.ty = .control

theorem outcome_frames (hs : s.ForFrames) {state : DecodeState} (hst : state ≠ .streamType)
    (hpush : state ≠ .pushId) :
    ∃ message, s.outcome q state frames = (q, some s, .ok message) ∧ message.frames = frames := by
  rw [outcome, if_neg (not_or.mpr ⟨hst, hpush⟩), returnByType]
  rcases hs with hty | hty
  · exact ⟨.request frames, by rw [hty], rfl⟩
  · exact ⟨.control frames, by rw [hty], rfl⟩

/-! ## Payloads -/

theorem decodeLoop_data {len : ℕ} (hs : s.ForFrames) (hst : s.state = .dataPayload)
    (hlen : s.payloadLen = some len) (hshort : s.buffer.length < len) :
    ∃ message, s.decodeLoop id (fuel + 1) q frames =
        (q, some { s with buffer := [], payloadLen := some (len - s.buffer.length) }, .ok message) ∧
      message.frames = frames ++ [.complete (dataFrame s.buffer), .incomplete] := by
  obtain ⟨message, hmsg, hframes⟩ := @outcome_frames
    { s with buffer := [], payloadLen := some (len - s.buffer.length) } q
    (frames ++ [.complete (dataFrame s.buffer), .incomplete]) hs .dataPayload (by decide) (by decide)
  refine ⟨message, ?_, hframes⟩
  rw [decodeLoop]
  simp only [hst, decodePart, decodeDataPayload, remainPayloadLen, hlen, Option.getD_some,
    if_pos hshort, subtractPayloadLen, if_neg (Nat.not_lt.mpr hshort.le)]
  simp only [hst] at hmsg
  exact hmsg

theorem decodeLoop_data_end (hs : s.ForFrames) (hst : s.state = .dataPayload)
    (hlen : s.payloadLen = some s.buffer.length) :
    ∃ message, s.decodeLoop id (fuel + 1) q frames =
        (q, some { s.endFrame with buffer := [] }, .ok message) ∧
      message.frames = frames ++ [.complete (dataFrame s.buffer)] := by
  obtain ⟨message, hmsg, hframes⟩ := @outcome_frames { s.endFrame with buffer := [] } q
    (frames ++ [.complete (dataFrame s.buffer)]) hs .dataPayload (by decide) (by decide)
  refine ⟨message, ?_, hframes⟩
  rw [decodeLoop]
  simp only [hst, decodePart, decodeDataPayload, remainPayloadLen, hlen, Option.getD_some,
    lt_irrefl, if_false, take_length, drop_length, afterFrame, endFrame, if_true]
  exact hmsg

theorem decodeLoop_settings {settings : Settings} (hs : s.ForFrames)
    (hst : s.state = .settingsPayload) (hbuffer : s.buffer = pairsOctets settings.all)
    (hlen : s.payloadLen = some (pairsOctets settings.all).length)
    (hsmall : ∀ pair ∈ settings.all, Small pair)
    (hnew : ∀ pair ∈ settings.additional.getD [], pair.1 ∉ knownSettings)
    (hsome : settings.additional ≠ some []) :
    ∃ message, s.decodeLoop id (fuel + 1) q frames =
        (q, some { s.endFrame with buffer := [] }, .ok message) ∧
      message.frames = frames ++
        [.complete { ty := settingsFrameType, payload := .settings settings }] := by
  obtain ⟨message, hmsg, hframes⟩ := @outcome_frames { s.endFrame with buffer := [] } q
    (frames ++ [.complete { ty := settingsFrameType, payload := .settings settings }]) hs
    .settingsPayload (by decide) (by decide)
  refine ⟨message, ?_, hframes⟩
  have hcnt := length_le_pairsOctets hsmall
  have hput : putSettings settings.all (.default, []) =
      .ok ({ settings with additional := none }, settings.additional.getD []) := by
    rw [putSettings, Settings.all, foldlM_append]
    change (putSettings settings.pairs (.default, [])).bind _ = _
    rw [putSettings_pairs]
    exact putSettings_additional _ [] hnew
  have hread := decodeSettings_pairs hsmall le_rfl hcnt .default []
  rw [hput] at hread
  have hwhole : (if settings.additional.getD [] = [] then { settings with additional := none }
      else { settings with additional := some (settings.additional.getD []) }) = settings := by
    obtain ⟨size, capacity, blocked, connect, datagram, additional⟩ := settings
    cases additional with
    | none => rfl
    | some additional =>
      refine if_neg fun hnil => hsome ?_
      exact congrArg some hnil
  have hpart : s.decodeSettingsPayload = .ok ({ s.endFrame with buffer := [] },
      [.complete { ty := settingsFrameType, payload := .settings settings }], .returnOuter) := by
    simp only [decodeSettingsPayload, remainPayloadLen, hlen, hbuffer, Option.getD_some,
      lt_irrefl, if_false, hread, Except.map, bind, Except.bind, if_true, hwhole]
    rfl
  rw [decodeLoop]
  simp only [hst, decodePart, hpart]
  exact hmsg

theorem decodeLoop_variable {value : ℕ} (hs : s.ForFrames) (hst : s.state = .variablePayload)
    (hbuffer : s.buffer = (varint value).dropLast) (hval : value < 2 ^ 62) :
    ∃ message, s.decodeLoop id (fuel + 1) q frames = (q, some s, .ok message) ∧
      message.frames = frames ++ [.incomplete] := by
  obtain ⟨message, hmsg, hframes⟩ := @outcome_frames s q (frames ++ [.incomplete]) hs
    .variablePayload (by decide) (by decide)
  refine ⟨message, ?_, hframes⟩
  rw [decodeLoop]
  simp only [hst, decodePart, decodeVariablePayload, hbuffer, getVarint_dropLast hval]
  exact hmsg

end DecodedH3Stream

end YlongHttp.H3
