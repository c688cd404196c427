import YlongHttp.Verification.H3.Decoding

/-! # HTTP/3 frames that are sent and received

The two ends of a stream: each frame is handed to the encoder, and what a call of the encoder
reports is fed to the decoder, until the encoder is done with the frame. -/

namespace YlongHttp.H3

open List Option DecodedH3Stream
open Library
open EncodedH3Stream (encodeLoop_dataFrame encodeLoop_dataPayload encodeLoop_settingsFrame
  encodeLoop_goawayFrame encodeLoop_cancelPushFrame)

def completed (kinds : List FrameKind) : List Frame :=
  kinds.filterMap fun
    | .complete frame => some frame
    | _ => none

def FrameEncoder.done (self : FrameEncoder) (id : ℕ) : Bool :=
  (self.streams.lookup id).any fun stream => stream.state = .frameComplete

/-- The two ends of a stream, and how many buffers were used. -/
structure Line where
  encoder : FrameEncoder
  decoder : FrameDecoder
  calls : ℕ

namespace Line

def callsFor (frame : Frame) : ℕ :=
  match frame.payload with
  | .data data => data.length + 1
  | _ => 1

/-- The encoder is called until it is done with its frame; the room in its two buffers is that
of the turn. -/
def pump (rooms : ℕ → ℕ × ℕ) (id : ℕ) : ℕ → Line → Option (Line × List Frame)
  | 0, _ => none
  | fuel + 1, line =>
    match line.encoder.encode id (rooms line.calls).1 (rooms line.calls).2 with
    | (_, .error _) => none
    | (encoder, .ok (octets, _)) =>
      match line.decoder.decode id octets with
      | (_, .error _) => none
      | (decoder, .ok message) =>
        let line := { encoder, decoder, calls := line.calls + 1 }
        if encoder.done id then some (line, completed message.frames)
        else (pump rooms id fuel line).map fun r => (r.1, completed message.frames ++ r.2)

def send (rooms : ℕ → ℕ × ℕ) (id : ℕ) (frame : Frame) (line : Line) : Option (Line × List Frame) :=
  match line.encoder.setFrame id frame with
  | (_, .error _) => none
  | (encoder, .ok ()) => { line with encoder }.pump rooms id (callsFor frame)

def sendAll (rooms : ℕ → ℕ × ℕ) (id : ℕ) : List Frame → Line → Option (Line × List Frame)
  | [], line => some (line, [])
  | frame :: frames, line =>
    (line.send rooms id frame).bind fun r =>
      (sendAll rooms id frames r.1).map fun more => (more.1, r.2 ++ more.2)

def start (encoder : FrameEncoder) (decoder : FrameDecoder) (id : ℕ) : Line where
  encoder
  decoder := if isBidirectional id then decoder else (decoder.decode id [0]).1
  calls := 0

end Line

/-! ## What is received -/

/-- The frames received are those that were sent; one of data may have come in pieces. -/
inductive Joins : List Frame → List Frame → Prop where
  | nil : Joins [] []
  | frame (frame : Frame) {received sent : List Frame} :
      Joins received sent → Joins (frame :: received) (frame :: sent)
  | piece (data more : Bytes) {received sent : List Frame} :
      Joins received (dataFrame more :: sent) →
        Joins (dataFrame data :: received) (dataFrame (data ++ more) :: sent)

def IsId (frame : Frame) : Prop := frame.ty = goawayFrameType ∨ frame.ty = cancelPushFrameType

instance : DecidablePred IsId := fun _ => inferInstanceAs (Decidable (_ ∨ _))

theorem not_isId_dataFrame (data : Bytes) : ¬ IsId (dataFrame data) := by
  simp [IsId, dataFrame, dataFrameType, goawayFrameType, cancelPushFrameType]

theorem Joins.countP_isId {received sent : List Frame} (h : Joins received sent) :
    received.countP (IsId ·) = sent.countP (IsId ·) := by
  induction h with
  | nil => rfl
  | frame frame _ ih => rw [countP_cons, countP_cons, ih]
  | piece data more _ ih =>
    rw [countP_cons_of_neg (by simpa using not_isId_dataFrame more)] at ih
    rw [countP_cons_of_neg (by simpa using not_isId_dataFrame data),
      countP_cons_of_neg (by simpa using not_isId_dataFrame (data ++ more)), ih]

/-- What a frame may hold: numbers that fit into variable-length integers, and at most 50
settings that are not known ones. -/
def Frame.Sound (frame : Frame) : Prop :=
  match frame.payload with
  | .settings settings =>
    frame.ty = settingsFrameType ∧ (∀ pair ∈ settings.all, Small pair) ∧
      settings.additional ≠ some [] ∧ (settings.additional.getD []).length ≤ 50 ∧
      ∀ pair ∈ settings.additional.getD [], pair.1 ∉ knownSettings
  | .data data => frame.ty = dataFrameType ∧ data.length < 2 ^ 62
  | .goaway id => frame.ty = goawayFrameType ∧ id < 2 ^ 62
  | .cancelPush pushId => frame.ty = cancelPushFrameType ∧ pushId < 2 ^ 62
  | _ => False

def StandsOn (id : ℕ) (frame : Frame) : Prop :=
  frame.ty = goawayFrameType ∨ if isBidirectional id then frame.ty = dataFrameType
    else frame.ty = settingsFrameType ∨ frame.ty = cancelPushFrameType

/-- The stream may carry these frames, and at most one SETTINGS frame. -/
def Matching (id : ℕ) (frames : List Frame) : Prop :=
  (∀ frame ∈ frames, StandsOn id frame) ∧ frames.countP (·.ty = settingsFrameType) ≤ 1

namespace Line

variable {line : Line} {rooms : ℕ → ℕ × ℕ} {id fuel : ℕ} {settled : Bool}

/-! ## One call -/

def reader (line : Line) (id : ℕ) : DecodedH3Stream :=
  (line.decoder.streams.lookup id).getD (.new id)

def writer (line : Line) (id : ℕ) : EncodedH3Stream :=
  (line.encoder.streams.lookup id).getD (.new id)

/-- Between two frames; `settled` says whether the settings were received. -/
structure Between (id : ℕ) (settled : Bool) (line : Line) : Prop where
  rests : (line.writer id).AtRest
  offset : (line.writer id).payloadOffset = 0
  state : (line.reader id).state = .frameType
  buffer : (line.reader id).buffer = []
  ty : (line.reader id).ty = if isBidirectional id then .request else .control
  streamSet : (line.reader id).streamSet = settled

theorem Between.forFrames (h : line.Between id settled) : (line.reader id).ForFrames := by
  have hty := h.ty
  split at hty
  · exact .inl hty
  · exact .inr hty

theorem pump_step {e e' : EncodedH3Stream} {s' : DecodedH3Stream} {octets : Bytes}
    {kinds : List FrameKind} (he : line.encoder.streams.lookup id = some e)
    (hroom : 1024 ≤ (rooms line.calls).1)
    (henc : ∀ q, e.encodeLoop (rooms line.calls).1 (rooms line.calls).2
      ((rooms line.calls).1 - 2 + 2) q [] = ((e', q), .ok (octets, [])))
    (hdec : ∀ q fuel, ∃ message,
      { line.reader id with buffer := (line.reader id).buffer ++ octets }.decodeLoop id (fuel + 4) q
        [] = (q, some s', .ok message) ∧ message.frames = kinds) :
    ∃ line' : Line, line'.writer id = e' ∧ line'.encoder.streams.lookup id = some e' ∧
      line'.reader id = s' ∧ ∀ fuel, line.pump rooms id (fuel + 1) =
        if e'.state = .frameComplete then some (line', completed kinds)
        else (line'.pump rooms id fuel).map fun r => (r.1, completed kinds ++ r.2) := by
  obtain ⟨message, hmsg, rfl⟩ := hdec line.decoder.qpackDecoder
    (3 * ((line.reader id).buffer ++ octets).length)
  have hroom' : (rooms line.calls).1 - 2 + 2 = (rooms line.calls).1 := by omega
  rw [hroom'] at henc
  obtain ⟨encoder, hwrite, hwriter⟩ : ∃ encoder : FrameEncoder,
      line.encoder.encode id (rooms line.calls).1 (rooms line.calls).2 = (encoder, .ok (octets, [])) ∧
        encoder.streams.lookup id = some e' := by
    refine ⟨{ qpackEncoder := line.encoder.qpackEncoder
              streams := modify id (fun _ => e') line.encoder.streams }, ?_, ?_⟩
    · rw [FrameEncoder.encode, if_neg (Nat.not_lt.mpr hroom), he]
      dsimp only
      rw [henc]
    · rw [lookup_modify_self, he]
      rfl
  obtain ⟨decoder, hread, hreader⟩ : ∃ decoder : FrameDecoder,
      line.decoder.decode id octets = (decoder, .ok message) ∧
        decoder.streams.lookup id = some s' := by
    refine ⟨{ qpackDecoder := line.decoder.qpackDecoder
              streams := (line.decoder.streams.erase id).insert id s' }, ?_, AList.lookup_insert _⟩
    simp only [reader] at hmsg
    simp only [FrameDecoder.decode, hmsg]
  refine ⟨{ encoder, decoder, calls := line.calls + 1 }, ?_, hwriter, ?_, fun fuel => ?_⟩
  · rw [writer, hwriter]
    rfl
  · rw [reader, hreader]
    rfl
  · rw [pump, hwrite]
    dsimp only
    rw [hread]
    dsimp only
    rw [FrameEncoder.done, hwriter, any_some]
    simp only [decide_eq_true_eq]

/-! ## Frames of data -/

theorem pump_data {data written : Bytes} {e e₁ : EncodedH3Stream} {s₁ : DecodedH3Stream}
    {off : ℕ} (hrooms : ∀ n, 1024 ≤ (rooms n).1)
    (he : line.encoder.streams.lookup id = some e) (hwritten : written.length ≤ 16)
    (henc : ∀ q, ∃ fuel, e.encodeLoop (rooms line.calls).1 (rooms line.calls).2
      ((rooms line.calls).1 - 2 + 2) q [] = e₁.encodeLoop (rooms line.calls).1
        (rooms line.calls).2 (fuel + 1) q written)
    (hdec : ∀ q fuel piece, ∃ fuel', { line.reader id with
        buffer := (line.reader id).buffer ++ (written ++ piece) }.decodeLoop id (fuel + 4) q [] =
      { s₁ with buffer := piece }.decodeLoop id (fuel' + 1) q [])
    (hst : e₁.state = .encodingDataPayload)
    (hframe : e₁.currentFrame = some (dataFrame data)) (hoff : e₁.payloadOffset = off)
    (hread : s₁.state = .dataPayload) (hlen : s₁.payloadLen = some (data.length - off))
    (hty : s₁.ty = .request) (hset : s₁.streamSet = settled) (hbidi : isBidirectional id = true)
    (hfuel : data.length - off < fuel) :
    ∃ line' received, line.pump rooms id fuel = some (line', received) ∧
      line'.Between id settled ∧
      ∀ r sent, Joins r sent → Joins (received ++ r) (dataFrame (data.drop off) :: sent) := by
  induction fuel generalizing line written e e₁ s₁ off with
  | zero => omega
  | succ fuel ih =>
    obtain ⟨room, hroom⟩ : ∃ room, (rooms line.calls).1 - written.length = room := ⟨_, rfl⟩
    have henough := hrooms line.calls
    have hfirst : ∀ q, e.encodeLoop (rooms line.calls).1 (rooms line.calls).2
        ((rooms line.calls).1 - 2 + 2) q [] =
        ((if data.length - off ≤ room then
          { e₁ with payloadOffset := 0, state := .frameComplete }
          else { e₁ with payloadOffset := off + room }, q),
          .ok (written ++ (data.drop off).take room, [])) := by
      intro q
      obtain ⟨fuel', heq⟩ := henc q
      rw [heq, encodeLoop_dataPayload hst hframe (by omega), hoff, hroom]
    have hs₁ : s₁.ForFrames := .inl hty
    by_cases hfits : data.length - off ≤ room
    · -- The rest of the data fits into the buffer.
      simp only [if_pos hfits] at hfirst
      have hpiece : (data.drop off).take room = data.drop off :=
        take_of_length_le (by rwa [length_drop])
      rw [hpiece] at hfirst
      obtain ⟨line', hwriter, -, hreader, hpump⟩ := pump_step he henough hfirst
        (fun q fuel => by
          obtain ⟨fuel', heq⟩ := hdec q fuel (data.drop off)
          rw [heq]
          exact decodeLoop_data_end (s := { s₁ with buffer := data.drop off })
            hs₁ hread (by rw [hlen, length_drop]))
      refine ⟨line', _, (hpump fuel).trans (if_pos rfl), ⟨?_, ?_, ?_, ?_, ?_, ?_⟩, ?_⟩
      · rw [hwriter]
        exact .inr rfl
      · rw [hwriter]
      · rw [hreader]
        rfl
      · rw [hreader]
      · rw [hreader, if_pos hbidi]
        exact hty
      · rw [hreader]
        exact hset
      · intro r sent hjoins
        exact hjoins.frame _
    · -- The buffer is filled, and more of the data is left.
      simp only [if_neg hfits] at hfirst
      have hpiece : ((data.drop off).take room).length = room := by
        rw [length_take, length_drop]
        omega
      have hsplit : data.drop off = (data.drop off).take room ++ data.drop (off + room) := by
        rw [← drop_drop, take_append_drop]
      generalize (data.drop off).take room = piece at hfirst hpiece hsplit
      obtain ⟨line', hwriter, hget, hreader, hpump⟩ := pump_step he henough hfirst
        (fun q fuel => by
          obtain ⟨fuel', heq⟩ := hdec q fuel piece
          rw [heq]
          exact decodeLoop_data (s := { s₁ with buffer := piece }) hs₁ hread hlen
            (show piece.length < data.length - off by omega))
      have hmore : ¬ e₁.state = .frameComplete := by
        rw [hst]
        decide
      obtain ⟨line'', received, hrest, hbetween, hjoins⟩ := @ih line' []
        { e₁ with payloadOffset := off + room } { e₁ with payloadOffset := off + room }
        { s₁ with buffer := [], payloadLen := some (data.length - off - piece.length) } (off + room)
        hget (Nat.zero_le _) (fun q => ⟨_, rfl⟩)
        (fun q fuel piece => ⟨fuel + 3, by rw [hreader]; rfl⟩) hst hframe rfl hread
        (by rw [hpiece, Nat.sub_sub]) hty hset (by omega)
      refine ⟨line'', dataFrame piece :: received, ?_, hbetween, fun r sent hsent => ?_⟩
      · refine (hpump fuel).trans ((if_neg hmore).trans ?_)
        rw [hrest]
        rfl
      · rw [hsplit]
        exact .piece piece _ (hjoins r sent hsent)

/-! ## One frame -/

def startState (ty : ℕ) : FrameEncoderState :=
  if ty = dataFrameType then .encodingDataFrame
  else if ty = cancelPushFrameType then .encodingCancelPushFrame
  else if ty = settingsFrameType then .encodingSettingsFrame
  else .encodingGoawayFrame

theorem setFrame_eq {frame : Frame} (h : line.Between id settled) (hsound : frame.Sound) :
    ∃ encoder e, line.encoder.setFrame id frame = (encoder, .ok ()) ∧
      encoder.streams.lookup id = some e ∧ e.state = startState frame.ty ∧
      e.currentFrame = some frame ∧ e.payloadOffset = 0 := by
  have hrests : ¬ ((line.writer id).state ≠ .idle ∧ (line.writer id).state ≠ .frameComplete) :=
    fun hbusy => h.rests.elim hbusy.1 hbusy.2
  have hty : frame.ty = dataFrameType ∨ frame.ty = cancelPushFrameType ∨
      frame.ty = settingsFrameType ∨ frame.ty = goawayFrameType := by
    obtain ⟨ty, payload⟩ := frame
    cases payload with
    | data => exact .inl hsound.1
    | cancelPush => exact .inr (.inl hsound.1)
    | settings => exact .inr (.inr (.inl hsound.1))
    | goaway => exact .inr (.inr (.inr hsound.1))
    | headers | pushPromise | maxPushId | unknown => exact hsound.elim
  obtain ⟨e, he⟩ : ∃ e : EncodedH3Stream,
      e = { line.writer id with currentFrame := some frame, state := startState frame.ty } := ⟨_, rfl⟩
  refine ⟨{ line.encoder with streams := line.encoder.streams.insert id e }, e, ?_,
    AList.lookup_insert _, he ▸ rfl, he ▸ rfl, he ▸ h.offset⟩
  rw [he]
  simp only [writer] at hrests ⊢
  rw [FrameEncoder.setFrame]
  simp only [if_neg hrests]
  rcases hty with hty | hty | hty | hty <;> rw [hty] <;> rfl

theorem send_data {data : Bytes} (h : line.Between id settled) (hrooms : ∀ n, 1024 ≤ (rooms n).1)
    (hbidi : isBidirectional id = true) (hdata : data.length < 2 ^ 62) :
    ∃ line' received, line.send rooms id (dataFrame data) = some (line', received) ∧
      line'.Between id settled ∧
      ∀ r sent, Joins r sent → Joins (received ++ r) (dataFrame data :: sent) := by
  obtain ⟨encoder, e, hset, hget, hst, hframe, hoff⟩ :=
    @setFrame_eq line id settled (dataFrame data) h ⟨rfl, hdata⟩
  have hty : (line.reader id).ty = .request := h.ty.trans (if_pos hbidi)
  have hlen := length_varint_le data.length
  have hpump := @pump_data { line with encoder } rooms id (data.length + 1) settled data
    (dataHead data) e { e with state := .encodingDataPayload }
    ((line.reader id).headed dataFrameType data.length []) 0 hrooms hget
    (by rw [dataHead, length_cons]; omega)
    (fun q => by
      rcases encodeLoop_dataFrame (e := e) (q := q) hst hframe (hrooms line.calls) with
        ⟨hlarge, -⟩ | ⟨-, heq⟩
      · omega
      · exact ⟨_, heq⟩)
    (fun q fuel piece => ⟨fuel + 1, by
      refine @decodeLoop_head
        { line.reader id with buffer := (line.reader id).buffer ++ (dataHead data ++ piece) } q id
        (fuel + 2) [] dataFrameType data.length piece h.state ?_ (by decide) hdata ?_
      · change (line.reader id).buffer ++ (dataHead data ++ piece) = _
        rw [h.buffer, dataHead, varint_dataFrameType]
        rfl
      · change unexpected (line.reader id) dataFrameType = false
        simp [unexpected, hty]⟩)
    rfl hframe hoff rfl rfl hty ?_ hbidi (by omega)
  · rw [send, hset]
    exact hpump
  · change ((line.reader id).streamSet || decide (dataFrameType = settingsFrameType)) = settled
    rw [h.streamSet]
    exact Bool.or_false _

theorem send_once {frame : Frame} {octets : Bytes} {kinds : List FrameKind}
    {s' : DecodedH3Stream} (h : line.Between id settled) (hsound : frame.Sound)
    (hrooms : ∀ n, 1024 ≤ (rooms n).1) (hcalls : callsFor frame = 1)
    (henc : ∀ (e : EncodedH3Stream) q room instRoom, e.state = startState frame.ty →
      e.currentFrame = some frame → 1024 ≤ room → e.encodeLoop room instRoom (room - 2 + 2) q [] =
        (({ e with state := .frameComplete }, q), .ok (octets, [])))
    (hdec : ∀ q fuel, ∃ message,
      { line.reader id with buffer := (line.reader id).buffer ++ octets }.decodeLoop id (fuel + 4) q
        [] = (q, some s', .ok message) ∧ message.frames = kinds) :
    ∃ line', line.send rooms id frame = some (line', completed kinds) ∧
      (line'.writer id).AtRest ∧ (line'.writer id).payloadOffset = 0 ∧ line'.reader id = s' := by
  obtain ⟨encoder, e, hset, hget, hst, hframe, hoff⟩ := setFrame_eq h hsound
  obtain ⟨line', hwriter, -, hreader, hpump⟩ := @pump_step { line with encoder } rooms id e
    { e with state := .frameComplete } s' octets kinds hget (hrooms _)
    (fun q => henc e q _ _ hst hframe (hrooms _)) hdec
  refine ⟨line', ?_, hwriter ▸ .inr rfl, hwriter ▸ hoff, hreader⟩
  rw [send, hset, hcalls]
  exact (hpump 0).trans (if_pos rfl)

theorem send_settings {settings : Settings} (h : line.Between id false)
    (hrooms : ∀ n, 1024 ≤ (rooms n).1) (huni : isBidirectional id = false)
    (hsound : Frame.Sound { ty := settingsFrameType, payload := .settings settings }) :
    ∃ line', line.send rooms id { ty := settingsFrameType, payload := .settings settings } =
        some (line', [{ ty := settingsFrameType, payload := .settings settings }]) ∧
      line'.Between id true := by
  have hparts := hsound
  obtain ⟨-, hsmall, hsome, hmany, hnew⟩ := hparts
  have hpairs := length_pairs_le settings
  have hoct := length_pairsOctets_le settings.all
  have hall : settings.all.length ≤ 55 := by
    rw [Settings.all, length_append]
    omega
  have hty : (line.reader id).ty = .control := h.ty.trans (if_neg (by simp [huni]))
  obtain ⟨line', hsend, hrests, hoff, hreader⟩ := @send_once line rooms id false
    { ty := settingsFrameType, payload := .settings settings } (settingsOctets settings) _ _ h hsound
    hrooms rfl
    (fun e q room instRoom hst hframe hroom =>
      encodeLoop_settingsFrame hst hframe hsmall hmany hroom)
    (fun q fuel => by
      have hhead := @decodeLoop_head
        { line.reader id with buffer := (line.reader id).buffer ++ settingsOctets settings } q id
        (fuel + 2) [] settingsFrameType (pairsOctets settings.all).length (pairsOctets settings.all)
        h.state
        (by
          change (line.reader id).buffer ++ settingsOctets settings = _
          rw [h.buffer, settingsOctets, varint_settingsFrameType, nil_append]
          rfl)
        (by decide) (by omega)
        (by
          change unexpected (line.reader id) settingsFrameType = false
          simp [unexpected, hty, h.streamSet, settingsFrameType, dataFrameType,
            headersFrameType, pushPromiseFrameType])
      rw [hhead]
      exact decodeLoop_settings h.forFrames rfl rfl rfl hsmall hnew hsome)
  refine ⟨line', hsend, ⟨hrests, hoff, ?_, ?_, ?_, ?_⟩⟩
  · rw [hreader]
    rfl
  · rw [hreader]
  · rw [hreader]
    exact h.ty
  · rw [hreader]
    exact Bool.or_true _

theorem send_isId {frame : Frame} (h : line.Between id settled)
    (hrooms : ∀ n, 1024 ≤ (rooms n).1) (hsound : frame.Sound) (hstands : StandsOn id frame)
    (hid : IsId frame) : ∃ line', line.send rooms id frame = some (line', []) := by
  obtain ⟨ty, payload⟩ := frame
  have hread : ∀ value < 2 ^ 62, ∀ q fuel, ∃ message,
      { line.reader id with
          buffer := (line.reader id).buffer ++ (idOctets ty value).dropLast }.decodeLoop id (fuel + 4) q
        [] = (q, some ((line.reader id).headed ty (varint value).length (varint value).dropLast),
          .ok message) ∧ message.frames = [.incomplete] := by
    intro value hval q fuel
    have hlen := length_varint_le value
    obtain ⟨b, bytes, hcons, -⟩ := varint_cons hval
    have hexpected : (line.reader id).unexpected ty = false := by
      rcases hid with hty | hty
      · obtain rfl : ty = goawayFrameType := hty
        rfl
      · obtain rfl : ty = cancelPushFrameType := hty
        have huni : isBidirectional id = false := by
          rcases hstands with hty | hty
          · cases hty
          · split at hty
            · cases hty
            · rename_i huni
              simpa using huni
        have hcontrol : (line.reader id).ty = .control := h.ty.trans (if_neg (by simp [huni]))
        simp [unexpected, hcontrol, settingsFrameType, dataFrameType,
          headersFrameType, pushPromiseFrameType, cancelPushFrameType]
    have hhead := @decodeLoop_head
      { line.reader id with buffer := (line.reader id).buffer ++ (idOctets ty value).dropLast } q id
      (fuel + 2) [] ty (varint value).length (varint value).dropLast h.state
      (by
        change (line.reader id).buffer ++ (idOctets ty value).dropLast = _
        rw [h.buffer, idOctets, nil_append, hcons,
          dropLast_append_of_ne_nil (cons_ne_nil _ _), append_assoc])
      (by rcases hid with hty | hty <;> rw [show ty = _ from hty] <;> decide) (by omega) hexpected
    rw [hhead]
    refine decodeLoop_variable h.forFrames ?_ rfl hval
    rcases hid with hty | hty <;> rw [show ty = _ from hty] <;> rfl
  cases payload with
  | goaway value =>
    have hparts : ty = goawayFrameType ∧ value < 2 ^ 62 := hsound
    obtain ⟨rfl, hval⟩ := hparts
    obtain ⟨line', hsend, -⟩ := @send_once line rooms id settled
      { ty := goawayFrameType, payload := .goaway value } _ _ _ h hsound hrooms rfl
      (fun e q room instRoom hst hframe hroom =>
        encodeLoop_goawayFrame hst hframe hval hroom) (hread value hval)
    exact ⟨line', hsend⟩
  | cancelPush value =>
    have hparts : ty = cancelPushFrameType ∧ value < 2 ^ 62 := hsound
    obtain ⟨rfl, hval⟩ := hparts
    obtain ⟨line', hsend, -⟩ := @send_once line rooms id settled
      { ty := cancelPushFrameType, payload := .cancelPush value } _ _ _ h hsound hrooms rfl
      (fun e q room instRoom hst hframe hroom =>
        encodeLoop_cancelPushFrame hst hframe hval hroom) (hread value hval)
    exact ⟨line', hsend⟩
  | data | settings => exact absurd hid (by rw [IsId, hsound.1]; decide)
  | headers | pushPromise | maxPushId | unknown => exact hsound.elim

theorem send_frame {frame : Frame} (h : line.Between id settled)
    (hrooms : ∀ n, 1024 ≤ (rooms n).1) (hsound : frame.Sound) (hstands : StandsOn id frame)
    (hid : ¬ IsId frame) (honce : frame.ty = settingsFrameType → settled = false) :
    ∃ line' received, line.send rooms id frame = some (line', received) ∧
      line'.Between id (settled || frame.ty = settingsFrameType) ∧
      ∀ r sent, Joins r sent → Joins (received ++ r) (frame :: sent) := by
  obtain ⟨ty, payload⟩ := frame
  have hplace : if isBidirectional id then ty = dataFrameType
      else ty = settingsFrameType ∨ ty = cancelPushFrameType :=
    hstands.resolve_left fun hty => hid (.inl hty)
  cases payload with
  | data data =>
    have hparts : ty = dataFrameType ∧ data.length < 2 ^ 62 := hsound
    obtain ⟨rfl, hdata⟩ := hparts
    have hbidi : isBidirectional id = true := by
      split at hplace
      · assumption
      · rcases hplace with hty | hty <;> cases hty
    rw [show (settled || decide (dataFrameType = settingsFrameType)) = settled from
      Bool.or_false _]
    exact send_data h hrooms hbidi hdata
  | settings settings =>
    have hty : ty = settingsFrameType := hsound.1
    subst hty
    have huni : isBidirectional id = false := by
      split at hplace
      · cases hplace
      · rename_i huni
        simpa using huni
    obtain rfl := honce rfl
    obtain ⟨line', hsend, hbetween⟩ := send_settings h hrooms huni hsound
    exact ⟨line', _, hsend, hbetween, fun r sent hjoins => hjoins.frame _⟩
  | goaway => exact absurd (.inl hsound.1) hid
  | cancelPush => exact absurd (.inr hsound.1) hid
  | headers | pushPromise | maxPushId | unknown => exact hsound.elim

/-! ## A list of frames -/

def Returns (rooms : ℕ → ℕ × ℕ) (id : ℕ) (line : Line) (frames : List Frame) : Prop :=
  ∃ line' received, line.sendAll rooms id frames = some (line', received) ∧ Joins received frames

theorem sendAll_append (frames more : List Frame) :
    line.sendAll rooms id (frames ++ more) = (line.sendAll rooms id frames).bind fun r =>
      (r.1.sendAll rooms id more).map fun r' => (r'.1, r.2 ++ r'.2) := by
  induction frames generalizing line with
  | nil => simp [sendAll]
  | cons frame frames ih =>
    rw [cons_append, sendAll, sendAll]
    cases line.send rooms id frame with
    | none => rfl
    | some r =>
      simp only [bind_some, ih]
      cases r.1.sendAll rooms id frames with
      | none => rfl
      | some r' =>
        simp only [bind_some, map_some]
        cases r'.1.sendAll rooms id more with
        | none => rfl
        | some r'' => simp

theorem sendAll_joins {frames : List Frame} (h : line.Between id settled)
    (hrooms : ∀ n, 1024 ≤ (rooms n).1) (hsound : ∀ frame ∈ frames, frame.Sound)
    (hstands : ∀ frame ∈ frames, StandsOn id frame)
    (honce : frames.countP (·.ty = settingsFrameType) + settled.toNat ≤ 1)
    (hid : ∀ frame ∈ frames, ¬ IsId frame) :
    ∃ line' settled' received, line.sendAll rooms id frames = some (line', received) ∧
      line'.Between id settled' ∧ Joins received frames := by
  induction frames generalizing line settled with
  | nil => exact ⟨line, settled, [], rfl, h, .nil⟩
  | cons frame frames ih =>
    rw [countP_cons] at honce
    obtain ⟨line', received, hsend, hbetween, hjoins⟩ := send_frame h hrooms
      (hsound frame (.head _)) (hstands frame (.head _))
      (hid frame (.head _)) (fun hty => by
        cases settled with
        | false => rfl
        | true => simp [hty] at honce)
    obtain ⟨line'', settled', more, hrest, hbetween', hjoins'⟩ := ih hbetween
      (fun f hf => hsound f (.tail _ hf))
      (fun f hf => hstands f (.tail _ hf))
      (by
        by_cases hty : frame.ty = settingsFrameType
        · simp only [hty, decide_true, if_true, Bool.or_true, Bool.toNat_true] at honce ⊢
          omega
        · simp only [hty, decide_false, Bool.false_eq_true, if_false, Bool.or_false] at honce ⊢
          omega)
      (fun f hf => hid f (.tail _ hf))
    refine ⟨line'', settled', received ++ more, ?_, hbetween', hjoins _ _ hjoins'⟩
    rw [sendAll, hsend, bind_some, hrest]
    rfl

theorem between_start {encoder : FrameEncoder} {decoder : FrameDecoder}
    (hencoder : encoder.streams.lookup id = none) (hdecoder : decoder.streams.lookup id = none) :
    (start encoder decoder id).Between id false := by
  have hwriter : (start encoder decoder id).writer id = .new id := by
    rw [writer, start, hencoder]
    rfl
  have hreader : (start encoder decoder id).reader id = { new id with
      ty := if isBidirectional id then .request else .control, state := .frameType } := by
    by_cases hbidi : isBidirectional id = true
    · rw [reader, start]
      simp only [hbidi, if_true, hdecoder, getD_none, new]
    · have hloop : ∀ q, { new id with
          buffer := (new id).buffer ++ [0] }.decodeLoop id
            (3 * ((new id).buffer ++ [0]).length + 4) q [] =
          (q, some { new id with ty := .control, state := .frameType },
            .ok (.control [.incomplete])) := by
        intro q
        simp only [new, if_neg hbidi]
        rfl
      rw [reader, start]
      simp only [if_neg hbidi]
      rw [FrameDecoder.decode]
      simp only [hdecoder, getD_none]
      rw [hloop]
      simp only [AList.lookup_insert, getD_some]
  refine ⟨?_, ?_, ?_, ?_, ?_, ?_⟩
  · rw [hwriter]
    exact .inl rfl
  · rw [hwriter]
    rfl
  · rw [hreader]
  · rw [hreader]
    rfl
  · rw [hreader]
  · rw [hreader]
    rfl

/-- Frames are received as they were sent, whatever list of them is sent, exactly where there
is no GOAWAY and no CANCEL_PUSH among them. -/
theorem frames_round_trip {encoder : FrameEncoder} {decoder : FrameDecoder} {frames : List Frame}
    (hencoder : encoder.streams.lookup id = none) (hdecoder : decoder.streams.lookup id = none)
    (hrooms : ∀ n, 1024 ≤ (rooms n).1) (hmatch : Matching id frames)
    (hsound : ∀ frame ∈ frames, frame.Sound) :
    (∀ sent, sent <+: frames → (start encoder decoder id).Returns rooms id sent) ↔
      ∀ frame ∈ frames, frame.ty ≠ goawayFrameType ∧ frame.ty ≠ cancelPushFrameType := by
  have hstart := between_start hencoder hdecoder
  have hjoins : ∀ sent, sent <+: frames → (∀ frame ∈ sent, ¬ IsId frame) →
      ∃ line' settled' received, (start encoder decoder id).sendAll rooms id sent =
        some (line', received) ∧ line'.Between id settled' ∧ Joins received sent :=
    fun sent hbegins hid => sendAll_joins hstart hrooms (fun f hf => hsound f (hbegins.subset hf))
      (fun f hf => hmatch.1 f (hbegins.subset hf))
      ((hbegins.sublist.countP_le).trans hmatch.2) hid
  constructor
  · intro hall
    -- Induction on the prefixes: the first such frame would be missing at once.
    have hnone : ∀ sent, sent <+: frames → ∀ frame ∈ sent, ¬ IsId frame := by
      intro sent
      induction sent using reverseRecOn with
      | nil => exact fun _ frame hframe => absurd hframe not_mem_nil
      | append_singleton sent last ih =>
        intro hbegins
        have hsent := ih ((prefix_append _ _).trans hbegins)
        have hmem : last ∈ frames := hbegins.subset (by simp)
        obtain ⟨line', settled', received, hsend, hbetween, hrecv⟩ :=
          hjoins sent ((prefix_append _ _).trans hbegins) hsent
        obtain ⟨_, _, hwhole, hjoined⟩ := hall _ hbegins
        intro frame hframe
        rcases mem_append.mp hframe with hframe | hframe
        · exact hsent frame hframe
        · obtain rfl := mem_singleton.mp hframe
          intro hid
          obtain ⟨line'', hlast⟩ := send_isId hbetween hrooms (hsound frame hmem)
            (hmatch.1 frame hmem) hid
          rw [sendAll_append, hsend, bind_some, sendAll, hlast] at hwhole
          obtain ⟨-, rfl⟩ := Prod.mk.inj (some.inj hwhole)
          have hcnt := hjoined.countP_isId
          dsimp only at hcnt
          rw [append_nil, append_nil, hrecv.countP_isId, countP_append,
            countP_cons_of_pos (by simpa using hid)] at hcnt
          omega
    exact fun frame hframe => not_or.mp (hnone frames (prefix_refl _) frame hframe)
  · intro hid sent hbegins
    obtain ⟨line', -, received, hsend, -, hrecv⟩ := hjoins sent hbegins
      fun frame hframe => not_or.mpr (hid frame (hbegins.subset hframe))
    exact ⟨line', received, hsend, hrecv⟩

def someSettings : Frame where
  ty := settingsFrameType
  payload := .settings { Settings.default with
    qpackMaxTableCapacity := some 4096
    additional := some [(0x21, 7)] }

/-- A control stream with its settings. -/
theorem frames_round_trip_settings :
    (start .default (.new 0 0) 2).Returns (fun _ => (1024, 1024)) 2 [someSettings] :=
  (@frames_round_trip (fun _ => (1024, 1024)) 2 .default (.new 0 0) [someSettings] rfl rfl
    (fun _ => le_rfl)
    ⟨by simp [StandsOn, someSettings, isBidirectional], by decide⟩
    (by
      rintro _ hframe
      obtain rfl := mem_singleton.mp hframe
      exact ⟨rfl, by decide, by decide, by decide, by decide⟩)).mpr (by decide) _
    (prefix_refl _)

/-- A GOAWAY is sent without its last octet. -/
theorem goaway_cut : ¬ (start .default (.new 0 0) 2).Returns (fun _ => (1024, 1024)) 2
    [{ ty := goawayFrameType, payload := .goaway 0 }] := by
  rintro ⟨line', received, hsend, hjoins⟩
  obtain rfl : [] = received := congrArg (fun r : Option (Line × List Frame) => (r.map Prod.snd).getD []) hsend
  cases hjoins

end Line

end YlongHttp.H3
