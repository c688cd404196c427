import YlongHttp.Model.H3.Control
import YlongHttp.Verification.H3.ControlFrames

/-! # The control stream of the server

Which frame comes first on it, and what segments have to do with that. -/

namespace YlongHttp.H3

open List Option DecodedH3Stream H3.Frame
open Library
open DecodedH3Stream (payloadState)

/-- What becomes of a connection. -/
inductive Verdict where
  | proceeds
  | missingSettings
  | fails
deriving DecidableEq

/-- Whether the frame is taken without an error, where `known` says that the settings were
received, and `goawayId` is the one that the peer has sent. -/
def Frame.acceptable (goawayId : Option ℕ) (known : Bool) (frame : Frame) : Bool :=
  match frame.payload with
  | .settings settings => !known && settings.qpackMaxTableCapacity.all (· ≤ 2 ^ 30 - 1)
  | .goaway id => !goawayId.any (id > ·) && QUICStreamType.ofId id = .clientInitialBidirectional
  | _ => false

namespace Receiver

variable {g : Option ℕ} {id : ℕ} {known first : Bool} {order : List ℕ → List ℕ}
  {channel : ℕ → SendResult} {r r' : Receiver} {s : DecodedH3Stream}
variable {t : DecodedH3Stream} {c : Bytes} {read : Option (List Frame × DecodedH3Stream)}
  {frames : List Frame} {n : ℕ} {frame : Frame}

/-! ## Frames -/

/-- The frames of a call, and whether the settings are known after them. -/
def takeFrames (g : Option ℕ) : Bool → Bool → List Frame → Except Verdict Bool
  | known, _, [] => .ok known
  | known, first, frame :: frames =>
    if frame.acceptable g known then
      if frame.isSettings then takeFrames g true false frames
      else if first then .error .missingSettings
      else takeFrames g known false frames
    else .error .fails

def verdict : Except (Fault DispatchErrorKind) Unit → Verdict
  | .ok () => .proceeds
  | .error e => if e = .error (connectionError .h3MissingSettings) then .missingSettings else .fails

/-- What frames of a control stream leave as it is. -/
structure Kept (r r' : Receiver) : Prop where
  stream (id : ℕ) : r.streams.stream? id = none → r'.streams.stream? id = none
  goawayId : r'.streams.peerGoawayId = r.streams.peerGoawayId
  control : r'.streams.peerControlStreamId = r.streams.peerControlStreamId
  decoder : r'.decoder = r.decoder

theorem Kept.rfl : Kept r r := ⟨fun _ h => h, Eq.refl _, Eq.refl _, Eq.refl _⟩

theorem Kept.trans {r'' : Receiver} (h : Kept r r') (h' : Kept r' r'') : Kept r r'' :=
  ⟨fun id hid => h'.stream id (h.stream id hid), h'.goawayId.trans h.goawayId,
    h'.control.trans h.control, h'.decoder.trans h.decoder⟩

theorem recvSettingFrame_spec (r : Receiver) (settings : Settings) (ty : ℕ) :
    if acceptable g r.peerSettings.isSome { ty, payload := .settings settings } then
      ∃ r', r.recvSettingFrame settings = (r', .ok ()) ∧ Kept r r' ∧ r'.peerSettings.isSome = true
    else ∃ r' e, r.recvSettingFrame settings = (r', .error e) ∧
      e ≠ connectionError .h3MissingSettings := by
  simp only [acceptable, recvSettingFrame]
  cases hknown : r.peerSettings.isSome with
  | true =>
    rw [if_neg (by simp), if_pos rfl]
    exact ⟨r, _, rfl, by simp [connectionError]⟩
  | false =>
    rw [if_neg Bool.false_ne_true]
    cases hcap : settings.qpackMaxTableCapacity with
    | none =>
      rw [if_pos (by simp)]
      cases settings.qpackBlockedStreams <;>
        exact ⟨_, rfl, ⟨fun _ h => h, rfl, rfl, rfl⟩, rfl⟩
    | some value =>
      by_cases hval : value ≤ 2 ^ 30 - 1
      · simp only [FrameEncoder.setMaxTableCapacity, Qpack.QpackEncoder.setMaxTableCapacity,
          if_neg (Nat.not_lt.mpr hval), gt_iff_lt]
        rw [if_pos (by simpa using hval)]
        cases settings.qpackBlockedStreams <;>
          exact ⟨_, rfl, ⟨fun _ h => h, rfl, rfl, rfl⟩, rfl⟩
      · simp only [FrameEncoder.setMaxTableCapacity, Qpack.QpackEncoder.setMaxTableCapacity,
          if_pos (Nat.not_le.mp hval), gt_iff_lt]
        rw [if_neg (by simpa using hval)]
        exact ⟨_, _, rfl, by simp [connectionError]⟩

theorem recvGoawayFrame_spec (known : Bool) (channel : ℕ → SendResult)
    (hg : r.streams.peerGoawayId = g) (goawayId ty : ℕ) :
    if acceptable g known { ty, payload := .goaway goawayId } then
      ∃ r', r.recvGoawayFrame goawayId channel = (r', .ok ()) ∧ Kept r r' ∧
        r'.peerSettings = r.peerSettings
    else ∃ r' e, r.recvGoawayFrame goawayId channel = (r', .error e) ∧
      e ≠ connectionError .h3MissingSettings := by
  simp only [acceptable, recvGoawayFrame, Streams.goaway, hg]
  cases hlater : g.any fun oldGoawayId => goawayId > oldGoawayId with
  | true =>
    rw [if_neg (by simp), if_pos rfl]
    exact ⟨_, _, rfl, by simp [connectionError]⟩
  | false =>
    rw [if_neg Bool.false_ne_true]
    by_cases hkind : QUICStreamType.ofId goawayId = .clientInitialBidirectional
    · rw [if_pos (by simpa using hkind), if_neg (not_not.mpr hkind)]
      refine ⟨_, rfl, ⟨?_, hg.symm ▸ rfl, rfl, rfl⟩, rfl⟩
      intro id hid
      rw [Streams.stream?, Streams.shutdownAll, lookup_mapVal]
      exact congrArg _ hid
    · rw [if_neg (by simpa using hkind), if_pos hkind]
      exact ⟨_, _, rfl, by simp [connectionError]⟩

theorem recvControlFrame_spec (channel : ℕ → SendResult) (first : Bool)
    (hg : r.streams.peerGoawayId = g) (frame : Frame) :
    if frame.acceptable g r.peerSettings.isSome then
      ∃ r', r.recvControlFrame channel first frame = (r', .ok (first && !frame.isSettings)) ∧
        Kept r r' ∧ r'.peerSettings.isSome = (r.peerSettings.isSome || frame.isSettings)
    else ∃ r' e, r.recvControlFrame channel first frame = (r', .error e) ∧
      e ≠ connectionError .h3MissingSettings := by
  obtain ⟨ty, payload⟩ := frame
  cases payload with
  | settings settings =>
    have hspec := recvSettingFrame_spec (g := g) r settings ty
    rw [recvControlFrame]
    split at hspec
    · obtain ⟨r', hr', hkept, hknown⟩ := hspec
      rw [if_pos ‹_›]
      exact ⟨r', by simp [hr', isSettings, Except.map], hkept, by simp [hknown, isSettings]⟩
    · obtain ⟨r', e, hr', he⟩ := hspec
      rw [if_neg ‹_›]
      exact ⟨r', e, by simp [hr', Except.map], he⟩
  | goaway goawayId =>
    have hspec := recvGoawayFrame_spec r.peerSettings.isSome channel hg goawayId ty
    rw [recvControlFrame]
    split at hspec
    · obtain ⟨r', hr', hkept, hsame⟩ := hspec
      rw [if_pos ‹_›]
      exact ⟨r', by simp [hr', isSettings, Except.map], hkept, by simp [hsame, isSettings]⟩
    · obtain ⟨r', e, hr', he⟩ := hspec
      rw [if_neg ‹_›]
      exact ⟨r', e, by simp [hr', Except.map], he⟩
  | _ => exact ⟨r, _, rfl, by simp [connectionError]⟩

/-- The loop has ended as `taken` says. -/
def EndsAs (taken : Except Verdict Bool) (r : Receiver)
    (result : Receiver × Except DispatchErrorKind Unit) : Prop :=
  match taken with
  | .ok known => ∃ r', result = (r', .ok ()) ∧ Kept r r' ∧ r'.peerSettings.isSome = known
  | .error v => ∃ r' e, result = (r', .error e) ∧ verdict (.error (.error e)) = v

theorem EndsAs.of_kept {taken : Except Verdict Bool}
    {result : Receiver × Except DispatchErrorKind Unit} (h : EndsAs taken r' result)
    (hkept : Kept r r') : EndsAs taken r result := by
  cases taken with
  | error v => exact h
  | ok known =>
    obtain ⟨r'', hr'', hkept', hknown⟩ := h
    exact ⟨r'', hr'', hkept.trans hkept', hknown⟩

theorem recvControlFrames_spec (channel : ℕ → SendResult) (first : Bool)
    (hg : r.streams.peerGoawayId = g) (frames : List FrameKind) :
    EndsAs (takeFrames g r.peerSettings.isSome first (completes frames)) r
      (recvControlFrames channel first frames r) := by
  induction frames generalizing r first with
  | nil => exact ⟨r, rfl, .rfl, rfl⟩
  | cons kind frames ih =>
    cases kind with
    | incomplete | blocked => exact ih first hg
    | complete frame =>
      have hspec := recvControlFrame_spec channel first hg frame
      change EndsAs (takeFrames g _ first (frame :: completes frames)) r _
      rw [recvControlFrames, takeFrames]
      by_cases hacceptable : frame.acceptable g r.peerSettings.isSome = true
      · rw [if_pos hacceptable] at hspec ⊢
        obtain ⟨r', hr', hkept, hknown⟩ := hspec
        rw [hr']
        by_cases hset : frame.isSettings = true
        · rw [hset, Bool.or_true] at hknown
          rw [if_pos hset, hset, Bool.not_true, Bool.and_false, ← hknown]
          exact (ih _ (hkept.goawayId.trans hg)).of_kept hkept
        · rw [Bool.not_eq_true] at hset
          rw [hset, Bool.or_false] at hknown
          rw [hset, if_neg Bool.false_ne_true, Bool.not_false, Bool.and_true, ← hknown]
          cases first with
          | true => exact ⟨r', _, rfl, rfl⟩
          | false => exact (ih _ (hkept.goawayId.trans hg)).of_kept hkept
      · rw [if_neg hacceptable] at hspec ⊢
        obtain ⟨r', e, hr', he⟩ := hspec
        rw [hr']
        exact ⟨r', e, rfl, if_neg fun h => he (Fault.error.inj h)⟩

/-! ## Segments -/

/-- What becomes of a connection that reads the segments of a control stream. -/
def run (g : Option ℕ) : Bool → Bool → DecodedH3Stream → List Bytes → Verdict
  | _, _, _, [] => .proceeds
  | known, first, s, c :: segments =>
    match (s.app c).readFrames with
    | none => .fails
    | some (frames, s') =>
      match takeFrames g known first frames with
      | .error v => v
      | .ok known => run g known false s' segments

/-- The connection reads the stream `id`, which is none of its requests; `s` is what the decoder
keeps of it. -/
structure Reading (g : Option ℕ) (id : ℕ) (known : Bool) (s : DecodedH3Stream) (r : Receiver) :
    Prop where
  stream : r.streams.stream? id = none
  goawayId : r.streams.peerGoawayId = g
  known : r.peerSettings.isSome = known
  kept : (r.decoder.streams.lookup id).getD (.new id) = s

def Recorded (id : ℕ) (first : Bool) (r : Receiver) : Prop :=
  r.streams.peerControlStreamId = if first then none else some id

def recorded (r : Receiver) (id : ℕ) : Receiver :=
  { r with streams := { r.streams with peerControlStreamId := some id } }

theorem recvControlStream_eq (h : Recorded id first r) (frames : List FrameKind) :
    r.recvControlStream id frames channel =
      recvControlFrames channel first frames (r.recorded id) := by
  cases first with
  | true =>
    have hnone : r.streams.peerControlStreamId = none := h
    simp only [recvControlStream, hnone, Streams.setPeerControlStreamId]
    rfl
  | false =>
    have hsome : r.streams.peerControlStreamId = some id := h
    have hsame : r.recorded id = r := by rw [recorded, ← hsome]
    simp only [recvControlStream, hsome, ne_eq, not_true_eq_false, if_false, hsame]

/-- The call on a segment has ended as the frames and the stream say that were read. -/
def CallEnds (g : Option ℕ) (id : ℕ) (known first : Bool)
    (read : Option (List Frame × DecodedH3Stream))
    (result : Receiver × Except (Fault DispatchErrorKind) Unit) : Prop :=
  match read with
  | none => ∃ r' e, result = (r', .error e) ∧ verdict (.error e) = .fails
  | some (frames, s') =>
    match takeFrames g known first frames with
    | .error v => ∃ r' e, result = (r', .error e) ∧ verdict (.error e) = v
    | .ok known' => s'.OnControl ∧
        ∃ r', result = (r', .ok ()) ∧ Reading g id known' s' r' ∧ Recorded id false r'

theorem decode_eq {decoder : FrameDecoder} (hkept : (decoder.streams.lookup id).getD (.new id) = t)
    (c : Bytes) :
    decoder.decode id c =
      match (t.app c).decodeLoop id (3 * (t.app c).buffer.length + 4) decoder.qpackDecoder [] with
      | (qpackDecoder, stream, result) =>
        ({ qpackDecoder
           streams := match stream with
             | none => decoder.streams.erase id
             | some stream => (decoder.streams.erase id).insert id stream }, result) := by
  rw [FrameDecoder.decode, hkept]
  rfl

theorem processRecvData_spec {fuel : ℕ} (hs : s.OnControl) (h : Reading g id known t r)
    (hrecorded : Recorded id first r) (hfuel : s.weight < fuel)
    (hloop : ∀ q, (t.app c).decodeLoop id (3 * (t.app c).buffer.length + 4) q [] =
      s.decodeLoop id fuel q []) :
    CallEnds g id known first s.readFrames (processRecvData order channel r id c) := by
  have hdec := decode_eq h.kept c
  rw [hloop] at hdec
  have hread := hs.decodeLoop hfuel id r.decoder.qpackDecoder []
  rw [processRecvData, hdec]
  cases hframes : s.readFrames with
  | none =>
    rw [hframes] at hread
    obtain ⟨e, he⟩ := hread
    rw [he]
    cases e with
    | panic => exact ⟨_, _, rfl, rfl⟩
    | error e =>
      have hsend : r.streams.sendError id (.h3 e) (channel id) =
          (r.streams, .error .channelClosed) := by
        rw [Streams.sendError, h.stream]
      dsimp only
      rw [hsend]
      exact ⟨_, _, rfl, rfl⟩
  | some read =>
    obtain ⟨frames, s'⟩ := read
    rw [hframes] at hread
    obtain ⟨hs', all, hall, hcomp⟩ := hread
    obtain ⟨decoder, hdecoder⟩ : ∃ decoder : FrameDecoder, decoder =
        { qpackDecoder := r.decoder.qpackDecoder
          streams := (r.decoder.streams.erase id).insert id s' } := ⟨_, rfl⟩
    rw [hall]
    dsimp only
    have hrecorded' : Recorded id first { r with decoder } := hrecorded
    have hg : (recorded { r with decoder } id).streams.peerGoawayId = g := h.goawayId
    rw [← hdecoder, recvControlStream_eq hrecorded']
    have hspec := recvControlFrames_spec channel first hg all
    have hknown : (recorded { r with decoder } id).peerSettings.isSome = known := h.known
    rw [hcomp, hknown] at hspec
    change EndsAs (takeFrames g known first frames) _ _ at hspec
    cases htaken : takeFrames g known first frames with
    | error v =>
      rw [htaken] at hspec
      obtain ⟨r', e, hr', he⟩ := hspec
      rw [hr']
      simp only [CallEnds, htaken]
      exact ⟨r', _, rfl, he⟩
    | ok known' =>
      rw [htaken] at hspec
      obtain ⟨r', hr', hkept, hknown'⟩ := hspec
      rw [hr']
      simp only [CallEnds, htaken]
      have hget : r'.decoder.streams.lookup id = some s' := by
        have hsame : r'.decoder = decoder := hkept.decoder
        rw [hsame, hdecoder]
        exact AList.lookup_insert _
      have hstr : r'.streams.stream? id = none := hkept.stream id h.stream
      exact ⟨hs', r', rfl, ⟨hstr, hkept.goawayId.trans h.goawayId, hknown', by
        rw [hget]; rfl⟩, hkept.control⟩

theorem receive_cons {segments : List Bytes}
    (hcall : CallEnds g id known first read (processRecvData order channel r id c))
    (hnext : ∀ {known' s' r'}, s'.OnControl → Reading g id known' s' r' → Recorded id false r' →
      verdict (receive order channel id segments r').2 = run g known' false s' segments) :
    verdict (receive order channel id (c :: segments) r).2 =
      match read with
      | none => .fails
      | some (frames, s') =>
        match takeFrames g known first frames with
        | .error v => v
        | .ok known => run g known false s' segments := by
  rw [receive]
  cases read with
  | none =>
    obtain ⟨r', e, hr', he⟩ := hcall
    rw [hr']
    exact he
  | some read =>
    obtain ⟨frames, s'⟩ := read
    simp only [CallEnds] at hcall
    dsimp only
    cases htaken : takeFrames g known first frames with
    | error v =>
      rw [htaken] at hcall
      obtain ⟨r', e, hr', he⟩ := hcall
      rw [hr']
      exact he
    | ok known' =>
      rw [htaken] at hcall
      obtain ⟨hs', r', hr', hreading, hrecorded⟩ := hcall
      rw [hr']
      exact hnext hs' hreading hrecorded

variable (segments : List Bytes)

theorem receive_spec (hs : s.OnControl) (h : Reading g id known s r)
    (hrecorded : Recorded id first r) :
    verdict (receive order channel id segments r).2 = run g known first s segments := by
  induction segments generalizing known first s r with
  | nil => rfl
  | cons c segments ih =>
    have hweight : (s.app c).weight < 3 * (s.app c).buffer.length + 4 := by
      rw [weight]
      split <;> omega
    exact receive_cons (processRecvData_spec (hs.app c) h hrecorded hweight fun _ => rfl) ih

/-! ## The type of the stream -/

def start : DecodedH3Stream where
  ty := .control
  state := .frameType
  buffer := []
  pushId := none
  frameType := none
  pushFrameId := none
  payloadLen := none
  streamSet := false

theorem onControl_start (u : Bytes) : (start.app u).OnControl :=
  ⟨rfl, (.head _), fun h => by cases h⟩

def untyped (id : ℕ) (octets : Bytes) : DecodedH3Stream := (new id).app octets

variable {octets u : Bytes}

theorem receive_type (hid : isBidirectional id = false)
    (h : Reading g id known (untyped id octets) r) (hrecorded : Recorded id first r)
    (htype : getVarint (octets ++ c) = some (0x0, u)) :
    verdict (receive order channel id (c :: segments) r).2 =
      run g known first start (u :: segments) := by
  have hbuffer : ((untyped id octets).app c).buffer = octets ++ c := by
    simp [untyped, app, new]
  have hless := length_lt_of_getVarint htype
  have hweight : (start.app u).weight < 3 * ((untyped id octets).app c).buffer.length + 3 := by
    have hstart : (start.app u).weight = 3 * u.length := by
      simp [weight, start, app]
    rw [hstart, hbuffer]
    omega
  refine receive_cons (processRecvData_spec (onControl_start u) h hrecorded hweight ?_)
    (receive_spec segments)
  intro q
  have hst : ((untyped id octets).app c).state = .streamType := by
    simp [untyped, app, new, hid]
  rw [decodeLoop]
  simp only [hst, decodePart, decodeStreamType, hbuffer, htype]
  rfl

theorem processRecvData_untyped (order : List ℕ → List ℕ) (channel : ℕ → SendResult)
    (hid : isBidirectional id = false) (h : Reading g id known (untyped id octets) r)
    (hrecorded : Recorded id first r) (htype : getVarint (octets ++ c) = none) :
    ∃ r', processRecvData order channel r id c = (r', .ok ()) ∧
      Reading g id known (untyped id (octets ++ c)) r' ∧ Recorded id first r' := by
  have hstr : (untyped id octets).app c = untyped id (octets ++ c) := app_app ..
  have hbuffer : (untyped id (octets ++ c)).buffer = octets ++ c := nil_append _
  have hst : (untyped id (octets ++ c)).state = .streamType := by
    simp [untyped, app, new, hid]
  have hloop (fuel : ℕ) (q : Qpack.QpackDecoder) :
      (untyped id (octets ++ c)).decodeLoop id (fuel + 1) q [] =
        (q, some (untyped id (octets ++ c)), .ok .waitingMore) := by
    rw [decodeLoop]
    simp only [hst, decodePart, decodeStreamType, hbuffer, htype, outcome, true_or, if_true]
  obtain ⟨decoder, hdecoder⟩ : ∃ decoder : FrameDecoder, decoder =
      { qpackDecoder := r.decoder.qpackDecoder
        streams := (r.decoder.streams.erase id).insert id (untyped id (octets ++ c)) } := ⟨_, rfl⟩
  have hdec : r.decoder.decode id c = (decoder, .ok .waitingMore) := by
    rw [decode_eq h.kept, hstr, hloop, hdecoder]
  refine ⟨{ r with decoder }, by rw [processRecvData, hdec], ⟨h.stream, h.goawayId, h.known, ?_⟩,
    hrecorded⟩
  have hget : decoder.streams.lookup id = some (untyped id (octets ++ c)) := by
    rw [hdecoder]
    exact AList.lookup_insert _
  change (decoder.streams.lookup id).getD _ = _
  rw [hget]
  rfl

theorem receive_untyped (order : List ℕ → List ℕ) (channel : ℕ → SendResult)
    (segments : List Bytes) {rest : Bytes} (hid : isBidirectional id = false)
    (h : Reading g id known (untyped id octets) r) (hrecorded : Recorded id first r)
    (hopen : getVarint octets = none)
    (htype : getVarint (octets ++ segments.flatten) = some (0x0, rest)) :
    ∃ u segments', u ++ segments'.flatten = rest ∧
      verdict (receive order channel id segments r).2 =
        run g known first start (u :: segments') := by
  induction segments generalizing octets r with
  | nil =>
    rw [flatten_nil, append_nil, hopen] at htype
    cases htype
  | cons c segments ih =>
    rw [flatten_cons, ← append_assoc] at htype
    rcases getVarint_cut htype with hnone | ⟨u, hu, hrest⟩
    · obtain ⟨r', hr', hreading, hrecorded'⟩ :=
        processRecvData_untyped order channel hid h hrecorded hnone
      obtain ⟨u, segments', hrest, hrun⟩ := ih hreading hrecorded' hnone htype
      refine ⟨u, segments', hrest, ?_⟩
      rw [receive, hr']
      exact hrun
    · exact ⟨u, segments, hrest, receive_type segments hid h hrecorded hu⟩

/-! ## Frames after the first -/

theorem takeFrames_known (frames : List Frame) :
    takeFrames g true false frames =
      if ∀ frame ∈ frames, frame.acceptable g true then .ok true else .error .fails := by
  induction frames with
  | nil => simp [takeFrames]
  | cons frame frames ih =>
    rw [takeFrames]
    by_cases hacceptable : frame.acceptable g true = true
    · have hset : frame.isSettings = false := by
        obtain ⟨ty, payload⟩ := frame
        cases payload <;> first | rfl | simp [acceptable] at hacceptable
      rw [if_pos hacceptable, hset, ih]
      simp [hacceptable]
    · simp [hacceptable]

theorem takeFrames_ne_missingSettings (known : Bool) (frames : List Frame) :
    takeFrames g known false frames ≠ .error .missingSettings := by
  induction frames generalizing known with
  | nil => simp [takeFrames]
  | cons frame frames ih =>
    rw [takeFrames, if_neg Bool.false_ne_true]
    by_cases hacceptable : frame.acceptable g known = true
    · rw [if_pos hacceptable]
      split_ifs
      · exact ih true
      · exact ih known
    · rw [if_neg hacceptable]
      simp

theorem run_ne_missingSettings : run g known false s segments ≠ .missingSettings := by
  induction segments generalizing known s with
  | nil => simp [run]
  | cons c segments ih =>
    rw [run]
    cases (s.app c).readFrames with
    | none => simp
    | some read =>
      dsimp only
      cases htaken : takeFrames g known false read.1 with
      | ok known' => exact ih
      | error v =>
        rintro rfl
        exact takeFrames_ne_missingSettings known read.1 htaken

def settled : DecodedH3Stream := { start with streamSet := true }

theorem settled_app (octets : Bytes) : (settled.app octets).Settled :=
  ⟨rfl, by simp [settled, start, app], by simp [settled, start, app]⟩

def Refused (g : Option ℕ) (read : Option (List Frame × DecodedH3Stream)) : Prop :=
  ∀ all ∈ read, ∃ frame ∈ all.1, ¬frame.acceptable g true

theorem refused_none : Refused g none := fun _ h => by cases h

theorem refused_some :
    Refused g (some (frames, s)) ↔ ¬∀ frame ∈ frames, frame.acceptable g true := by
  simp [Refused]

theorem refused_before :
    Refused g (before frames read) ↔
      (¬∀ frame ∈ frames, frame.acceptable g true) ∨ Refused g read := by
  cases read with
  | none => exact ⟨fun _ => .inr refused_none, fun _ => refused_none⟩
  | some read =>
    obtain ⟨gs, s'⟩ := read
    simp only [before, map_some, refused_some, mem_append]
    rw [← not_and_or, not_iff_not]
    exact ⟨fun h => ⟨fun f hf => h f (.inl hf), fun f hf => h f (.inr hf)⟩,
      fun h f hf => hf.elim (h.1 f) (h.2 f)⟩

theorem run_settled (c : Bytes) (segments : List Bytes) (hs : s.Settled) :
    run g true false s (c :: segments) = .fails ↔
      Refused g (s.app (c ++ segments.flatten)).readFrames := by
  induction segments generalizing s c with
  | nil =>
    rw [run, flatten_nil, append_nil]
    cases hread : (s.app c).readFrames with
    | none => simp [refused_none]
    | some read =>
      obtain ⟨frames, s'⟩ := read
      dsimp only
      rw [takeFrames_known, refused_some]
      split_ifs with hall
      · exact iff_of_false (by simp [run]) (not_not.mpr hall)
      · simp [hall]
  | cons d segments ih =>
    have happ := readFrames_app (hs.app c) (d ++ segments.flatten)
    rw [app_app] at happ
    rw [run, flatten_cons]
    cases hread : (s.app c).readFrames with
    | none =>
      rw [hread] at happ
      simp [happ, refused_none]
    | some read =>
      obtain ⟨frames, s'⟩ := read
      rw [hread] at happ
      obtain ⟨hs', happ⟩ := happ
      dsimp only
      rw [takeFrames_known, happ, refused_before]
      split_ifs with hall
      · rw [or_iff_right (not_not.mpr hall)]
        exact ih d hs'
      · simp [hall]

/-! ## The first frame -/

theorem run_quiet
    (hquiet : ∀ u v, u ++ v = segments.flatten → ∃ s', (s.app u).readFrames = some ([], s')) :
    run g known first s segments = .proceeds := by
  induction segments generalizing first s with
  | nil => rfl
  | cons c segments ih =>
    obtain ⟨s', hs'⟩ := hquiet c segments.flatten rfl
    rw [run, hs']
    refine ih fun u v huv => ?_
    obtain ⟨s'', hs''⟩ := hquiet (c ++ u) v (by rw [append_assoc, huv, flatten_cons])
    rw [← app_app, readFrames_app_of_nil hs'] at hs''
    exact ⟨s'', hs''⟩

theorem run_doomed (hkept : ∃ s', s.readFrames = some ([], s'))
    (hdoomed : ∀ u v, u ++ v = segments.flatten →
      (s.app u).readFrames = none ∨ (∃ s', (s.app u).readFrames = some ([], s')) ∨
        ∃ frame frames s', (s.app u).readFrames = some (frame :: frames, s') ∧
          ¬frame.acceptable g known)
    (hend : ∀ s', (s.app segments.flatten).readFrames ≠ some ([], s')) :
    run g known first s segments = .fails := by
  induction segments generalizing first s with
  | nil =>
    obtain ⟨s', hs'⟩ := hkept
    rw [flatten_nil, app_nil] at hend
    exact absurd hs' (hend s')
  | cons c segments ih =>
    rw [run]
    rcases hdoomed c segments.flatten rfl with hnone | ⟨s', hs'⟩ | ⟨frame, frames, s', hs', hnot⟩
    · rw [hnone]
    · rw [hs']
      have happ := readFrames_app_of_nil hs'
      simp only [app_app] at happ
      refine ih ⟨s', ?_⟩ ?_ ?_
      · have hself := happ []
        rwa [append_nil, hs', app_nil, eq_comm] at hself
      · intro u v huv
        rw [← happ u]
        exact hdoomed (c ++ u) v (by rw [append_assoc, huv, flatten_cons])
      · rw [← happ, ← flatten_cons]
        exact hend
    · rw [hs']
      simp only [takeFrames, if_neg hnot]

/-! ## Settings -/

/-- The settings, read from their payload and the octets `x` of the same segment, are refused, or
what is then read of `x` and the octets `y` of later segments is. -/
def SettingsRefused (g : Option ℕ) (len : ℕ) (payload x y : Bytes) : Prop :=
  match (start.headed settingsFrameType len (payload ++ x)).decodeSettingsPayload with
  | .error _ => True
  | .ok (kept, frames, _) =>
    (¬∀ frame ∈ completes frames, frame.acceptable g false) ∨
      Refused g (settled.app (kept.buffer ++ y)).readFrames

theorem run_settings (first : Bool) {len : ℕ} {payload x : Bytes} (segments : List Bytes)
    (hlen : len ≤ payload.length) (hread : (s.app c).readFrames =
      (start.headed settingsFrameType len (payload ++ x)).readFrames) :
    (run g false first s (c :: segments) = .fails ↔
        SettingsRefused g len payload x segments.flatten) ∧
      run g false first s (c :: segments) ≠ .missingSettings := by
  have hst : (start.headed settingsFrameType len (payload ++ x)).state = .settingsPayload := rfl
  have hlong : (start.headed settingsFrameType len (payload ++ x)).remainPayloadLen ≤
      (payload ++ x).length := by
    change len ≤ _
    rw [length_append]
    omega
  rcases readFrames_settings hst hlong with
    ⟨⟨e, herror⟩, hnone⟩ | ⟨frame, kept, more, hpart, hset, hkept, -, hsome⟩
  · rw [run, hread, hnone]
    simp [SettingsRefused, herror]
  · have hkept' : kept = settled.app kept.buffer := hkept
    have hrun : run g false first s (c :: segments) =
        if frame.acceptable g false then run g true false settled (kept.buffer :: segments)
        else .fails := by
      rw [run, run, hread, hsome, ← hkept']
      cases kept.readFrames with
      | none => simp [before]
      | some read =>
        simp only [before, map_some, singleton_append, takeFrames, hset, if_true]
        by_cases hacceptable : frame.acceptable g false = true
        · simp only [if_pos hacceptable]
        · simp only [if_neg hacceptable]
    have hframes : completes [.complete frame] = [frame] := rfl
    rw [hrun, SettingsRefused, hpart]
    simp only [hframes, mem_singleton, forall_eq]
    split_ifs with hacceptable
    · rw [or_iff_right (not_not.mpr hacceptable)]
      exact ⟨run_settled _ _ (settled_app []), run_ne_missingSettings _⟩
    · simp [hacceptable]

theorem run_settings_first (first : Bool) {len : ℕ} {front payload rest : Bytes}
    (segments : List Bytes)
    (hfront : front ≠ []) (hflatten : segments.flatten = front ++ rest)
    (hlen : len ≤ payload.length)
    (hbefore : ∀ u v, u ++ v = front → v ≠ [] → ∃ s', (s.app u).readFrames = some ([], s'))
    (hend : ∀ x, (s.app (front ++ x)).readFrames =
      (start.headed settingsFrameType len (payload ++ x)).readFrames) :
    ∃ x y, x ++ y = rest ∧
      (run g false first s segments = .fails ↔ SettingsRefused g len payload x y) ∧
      run g false first s segments ≠ .missingSettings := by
  induction segments generalizing first s front with
  | nil => exact absurd (append_eq_nil_iff.mp hflatten.symm).1 hfront
  | cons c segments ih =>
    rw [flatten_cons, append_eq_append_iff] at hflatten
    have hhere (x : Bytes) (hc : c = front ++ x) (hrest : x ++ segments.flatten = rest) :
        ∃ x y, x ++ y = rest ∧
          (run g false first s (c :: segments) = .fails ↔ SettingsRefused g len payload x y) ∧
          run g false first s (c :: segments) ≠ .missingSettings :=
      ⟨x, _, hrest, run_settings first segments hlen (hc ▸ hend x)⟩
    rcases hflatten with ⟨v, hv, hrest⟩ | ⟨x, hx, hrest⟩
    · by_cases hnil : v = []
      · subst hnil
        rw [append_nil] at hv
        rw [nil_append] at hrest
        exact hhere [] (by rw [append_nil, hv]) (by rw [hrest, nil_append])
      · obtain ⟨s', hs'⟩ := hbefore c v hv.symm hnil
        have happ := readFrames_app_of_nil hs'
        simp only [app_app] at happ
        rw [run, hs']
        refine ih false hnil hrest ?_ ?_
        · intro u w huw hw
          obtain ⟨s'', hs''⟩ := hbefore (c ++ u) w (by rw [append_assoc, huw, hv]) hw
          exact ⟨s'', by rw [← happ u, hs'']⟩
        · intro x
          rw [← happ, ← append_assoc, ← hv]
          exact hend x
    · exact hhere x hx hrest.symm

/-! ## The octets after the type of the stream -/

variable {ty len : ℕ} {rest payload : Bytes}

def frameHead (octets : Bytes) : Option (ℕ × ℕ × Bytes) :=
  (getVarint octets).bind fun (ty, rest) => (getVarint rest).map fun (len, payload) =>
    (ty, len, payload)

theorem frameHead_some (h : frameHead octets = some (ty, len, payload)) :
    ∃ rest, getVarint octets = some (ty, rest) ∧ getVarint rest = some (len, payload) := by
  simp only [frameHead, bind_eq_some_iff, map_eq_some_iff] at h
  obtain ⟨⟨ty', rest⟩, htype, ⟨len', payload'⟩, hlen, heq⟩ := h
  simp only [Prod.mk.injEq] at heq
  obtain ⟨rfl, rfl, rfl⟩ := heq
  exact ⟨rest, htype, hlen⟩

theorem readFrames_cut {v : Bytes} (h : frameHead (u ++ v) = some (ty, len, payload))
    (hexpected : start.unexpected ty = false) :
    (∃ s', (start.app u).readFrames = some ([], s')) ∨
      ∃ payload', payload' ++ v = payload ∧
        (start.app u).readFrames = (start.headed ty len payload').readFrames := by
  obtain ⟨rest, htype, hlen⟩ := frameHead_some h
  rcases getVarint_cut htype with hnone | ⟨rest', htype', hrest⟩
  · exact .inl ⟨_, readFrames_noType (s := start.app u) rfl hnone⟩
  · rw [← hrest] at hlen
    rcases getVarint_cut hlen with hnone | ⟨payload', hlen', hpay⟩
    · exact .inl ⟨_, readFrames_noLen (s := start.app u) rfl htype' hexpected hnone⟩
    · exact .inr ⟨payload', hpay, readFrames_head (s := start.app u) rfl htype' hexpected hlen'⟩

theorem readFrames_short (hexpected : start.unexpected ty = false)
    (hpay : payloadState ty ≠ .variablePayload) (hshort : payload.length < len) :
    ∃ s', (start.headed ty len payload).readFrames = some ([], s') := by
  have hst : payloadState ty = .settingsPayload ∨ payloadState ty = .unknownPayload := by
    simp only [unexpected, start] at hexpected
    simp only [payloadState] at hpay ⊢
    split_ifs at hexpected hpay ⊢ <;> simp_all
  rcases hst with hst | hst
  · refine ⟨start.headed ty len payload, readFrames_waits ?_⟩
    simp only [controlPart, headed, hst]
    exact if_pos hshort
  · refine ⟨{ start.headed ty len payload with
      buffer := []
      payloadLen := some (len - payload.length) }, readFrames_waits ?_⟩
    simp only [controlPart, headed, hst, decodeUnknownPayload, remainPayloadLen, getD_some,
      if_pos hshort, subtractPayloadLen, if_neg (Nat.not_lt.mpr hshort.le)]
    rfl

theorem readFrames_number (hpay : payloadState ty = .variablePayload)
    (hread : getVarint payload = none) :
    ∃ s', (start.headed ty len payload).readFrames = some ([], s') := by
  refine ⟨start.headed ty len payload, readFrames_waits ?_⟩
  simp only [controlPart, headed, hpay, decodeVariablePayload, hread]

theorem readFrames_numbered (hpay : payloadState ty = .variablePayload)
    (hread : getVarint payload = some (n, rest))
    (hframe : idFrame ty n = some frame) :
    (start.headed ty len payload).readFrames =
      before [frame] { start with
        streamSet := decide (ty = settingsFrameType), buffer := rest }.readFrames := by
  refine readFrames_afterFrame { start.headed ty len payload with buffer := rest }
    [.complete frame] ?_
  simp only [controlPart, headed, hpay, decodeVariablePayload, hread, hframe]

def GoawayTaken (g : Option ℕ) (ty : ℕ) (payload : Bytes) : Prop :=
  ty = goawayFrameType ∧ ∃ n rest, getVarint payload = some (n, rest) ∧
    acceptable g false { ty := goawayFrameType, payload := .goaway n }

def Quiet (octets : Bytes) : Prop :=
  ∀ u v, u ++ v = octets → ∃ s', (start.app u).readFrames = some ([], s')

/-- The octets have a frame that is refused, or an error, before any other frame. -/
def Doomed (g : Option ℕ) (octets : Bytes) : Prop :=
  (∀ u v, u ++ v = octets → (start.app u).readFrames = none ∨
    (∃ s', (start.app u).readFrames = some ([], s')) ∨
    ∃ frame frames s', (start.app u).readFrames = some (frame :: frames, s') ∧
      ¬frame.acceptable g false) ∧ ∀ s', (start.app octets).readFrames ≠ some ([], s')

theorem quiet_of_noType (htype : getVarint octets = none) : Quiet octets := by
  rintro u v rfl
  exact ⟨_, readFrames_noType (s := start.app u) rfl
    (getVarint_none_of_append htype)⟩

theorem doomed_of_unexpected (htype : getVarint octets = some (ty, rest))
    (hunexpected : start.unexpected ty = true) : Doomed g octets := by
  refine ⟨?_, ?_⟩
  · rintro u v rfl
    rcases getVarint_cut htype with hnone | ⟨rest', hread, -⟩
    · exact .inr (.inl ⟨_, readFrames_noType (s := start.app u) rfl hnone⟩)
    · exact .inl (readFrames_unexpected (s := start.app u) rfl hread hunexpected)
  · intro s' hs'
    rw [readFrames_unexpected (s := start.app octets) rfl htype hunexpected] at hs'
    cases hs'

theorem quiet_of_noLen (htype : getVarint octets = some (ty, rest))
    (hexpected : start.unexpected ty = false) (hlen : getVarint rest = none) : Quiet octets := by
  rintro u v rfl
  rcases getVarint_cut htype with hnone | ⟨rest', hread, hrest⟩
  · exact ⟨_, readFrames_noType (s := start.app u) rfl hnone⟩
  · rw [← hrest] at hlen
    exact ⟨_, readFrames_noLen (s := start.app u) rfl hread hexpected
      (getVarint_none_of_append hlen)⟩

theorem quiet_of_short (hhead : frameHead octets = some (ty, len, payload))
    (hexpected : start.unexpected ty = false) (hshort : payload.length < len)
    (hquiet : payloadState ty = .variablePayload → getVarint payload = none) : Quiet octets := by
  rintro u v rfl
  rcases readFrames_cut hhead hexpected with hnone | ⟨payload', hpay, hread⟩
  · exact hnone
  · rw [hread]
    have hless := congrArg length hpay
    rw [length_append] at hless
    by_cases hst : payloadState ty = .variablePayload
    · have hnone := hquiet hst
      rw [← hpay] at hnone
      exact readFrames_number hst (getVarint_none_of_append hnone)
    · exact readFrames_short hexpected hst (by omega)

theorem readFrames_doomed (len : ℕ) (hst : payloadState ty = .variablePayload)
    (hread : getVarint payload = some (n, rest))
    (hframe : idFrame ty n = some frame) (hnot : ¬frame.acceptable g false) :
    (start.headed ty len payload).readFrames = none ∨ ∃ frame frames s',
      (start.headed ty len payload).readFrames = some (frame :: frames, s') ∧
        ¬frame.acceptable g false := by
  rw [readFrames_numbered hst hread hframe]
  cases readFrames
    { start with streamSet := decide (ty = settingsFrameType), buffer := rest } with
  | none => exact .inl rfl
  | some read => exact .inr ⟨frame, read.1, read.2, rfl, hnot⟩

theorem doomed_of_number (hhead : frameHead octets = some (ty, len, payload))
    (hexpected : start.unexpected ty = false) (hst : payloadState ty = .variablePayload)
    (hread : getVarint payload = some (n, rest))
    (hframe : idFrame ty n = some frame) (hnot : ¬frame.acceptable g false) :
    Doomed g octets := by
  refine ⟨?_, ?_⟩
  · rintro u v rfl
    rcases readFrames_cut hhead hexpected with hnone | ⟨payload', hpay, hcut⟩
    · exact .inr (.inl hnone)
    · rw [← hpay] at hread
      rw [hcut]
      rcases getVarint_cut hread with hnone | ⟨rest', hread', -⟩
      · exact .inr (.inl (readFrames_number hst hnone))
      · rcases readFrames_doomed len hst hread' hframe hnot with h | h
        · exact .inl h
        · exact .inr (.inr h)
  · obtain ⟨rest', htype, hlen⟩ := frameHead_some hhead
    rw [readFrames_head (s := start.app octets) rfl htype hexpected hlen]
    change ∀ s', (start.headed ty len payload).readFrames ≠ some ([], s')
    intro s' hs'
    rcases readFrames_doomed len hst hread hframe hnot with h | ⟨_, _, _, h, -⟩
    · rw [hs'] at h; cases h
    · rw [hs'] at h; cases h

theorem quiet_or_doomed (h : ∀ ty len payload, frameHead octets = some (ty, len, payload) →
    payload.length < len ∧ ¬GoawayTaken g ty payload) : Quiet octets ∨ Doomed g octets := by
  cases htype : getVarint octets with
  | none => exact .inl (quiet_of_noType htype)
  | some read =>
    obtain ⟨ty, rest⟩ := read
    cases hexpected : start.unexpected ty with
    | true => exact .inr (doomed_of_unexpected htype hexpected)
    | false =>
      cases hlen : getVarint rest with
      | none => exact .inl (quiet_of_noLen htype hexpected hlen)
      | some read =>
        obtain ⟨len, payload⟩ := read
        have hhead : frameHead octets = some (ty, len, payload) := by simp [frameHead, htype, hlen]
        obtain ⟨hshort, hgoaway⟩ := h ty len payload hhead
        by_cases hst : payloadState ty = .variablePayload
        · cases hnumber : getVarint payload with
          | none => exact .inl (quiet_of_short hhead hexpected hshort fun _ => hnumber)
          | some number =>
            obtain ⟨n, rest'⟩ := number
            have hty : ty = goawayFrameType ∨ ty = cancelPushFrameType := by
              simp only [unexpected, start] at hexpected
              simp only [payloadState] at hst
              split_ifs at hexpected hst <;> simp_all
            rcases hty with rfl | rfl
            · refine .inr (doomed_of_number hhead hexpected hst hnumber rfl ?_)
              exact fun haccept => hgoaway ⟨rfl, n, rest', hnumber, haccept⟩
            · exact .inr (doomed_of_number hhead hexpected hst hnumber rfl (by
                simp [acceptable]))
        · exact .inl (quiet_of_short hhead hexpected hshort fun h => absurd h hst)

/-! ## What the connection makes of the first frame -/

/-- The connection has read nothing yet of a stream that the server opens, and no settings. -/
structure Fresh (id : ℕ) (r : Receiver) : Prop where
  unidirectional : isBidirectional id = false
  stream : r.streams.stream? id = none
  control : r.streams.peerControlStreamId = none
  settings : r.peerSettings = none
  decoder : r.decoder.streams.lookup id = none

theorem Fresh.reading (h : Fresh id r) :
    Reading r.streams.peerGoawayId id false (untyped id []) r :=
  ⟨h.stream, rfl, by rw [h.settings]; rfl, by rw [h.decoder, untyped, app_nil]; rfl⟩

def firstFrame (octets : Bytes) : Option ℕ :=
  (frameHead octets).bind fun (ty, len, payload) => if payload.length < len then none else some ty

/-- However the octets of the stream come, `rest` of them after its type, a first frame that is not
one of settings is the end with `H3_MISSING_SETTINGS`, and the segments make no difference. -/
def StartsWithSettings (order : List ℕ → List ℕ) (channel : ℕ → SendResult) (id : ℕ)
    (r : Receiver) (octets rest : Bytes) : Prop :=
  ∀ segments : List Bytes, segments.flatten = octets →
    (∀ ty ∈ firstFrame rest, ty ≠ settingsFrameType →
      verdict (receive order channel id segments r).2 = .missingSettings) ∧
    verdict (receive order channel id segments r).2 =
      verdict (receive order channel id [octets] r).2

/-- The first frame is not complete, and none that says that the server goes away, or it is one of
settings, and it makes no difference how much of what follows is in the segment that ends it. -/
def SettingsFirst (g : Option ℕ) (rest : Bytes) : Prop :=
  match frameHead rest with
  | none => True
  | some (ty, len, payload) =>
    if payload.length < len then ¬GoawayTaken g ty payload
    else ty = settingsFrameType ∧ ∀ x y, x ++ y = payload.drop len →
      (SettingsRefused g len (payload.take len) x y ↔
        SettingsRefused g len (payload.take len) (payload.drop len) [])

def RunsAlike (g : Option ℕ) (rest : Bytes) : Prop :=
  ∀ u segments, u ++ segments.flatten = rest →
    (∀ ty ∈ firstFrame rest, ty ≠ settingsFrameType →
      run g false true start (u :: segments) = .missingSettings) ∧
    run g false true start (u :: segments) = run g false true start [rest]

theorem startsWithSettings_iff (hfresh : Fresh id r) (htype : getVarint octets = some (0x0, rest)) :
    StartsWithSettings order channel id r octets rest ↔ RunsAlike r.streams.peerGoawayId rest := by
  have hrecorded : Recorded id true r := hfresh.control
  have hwhole : verdict (receive order channel id [octets] r).2 =
      run r.streams.peerGoawayId false true start [rest] :=
    receive_type [] hfresh.unidirectional hfresh.reading hrecorded htype
  constructor
  · intro h u segments hrest
    obtain ⟨t, -, hoct, happ, -⟩ := getVarint_some htype
    have hrun : verdict (receive order channel id ((t ++ u) :: segments) r).2 =
        run r.streams.peerGoawayId false true start (u :: segments) :=
      receive_type segments hfresh.unidirectional hfresh.reading hrecorded (happ u)
    have hsame := h ((t ++ u) :: segments) (by rw [flatten_cons, append_assoc, hrest, ← hoct])
    rwa [hrun, hwhole] at hsame
  · rintro h segments rfl
    obtain ⟨u, segments', hrest, hrun⟩ := receive_untyped order channel segments
      hfresh.unidirectional hfresh.reading hrecorded rfl htype
    rw [hrun, hwhole]
    exact h u segments' hrest

theorem settings_front (hhead : frameHead octets = some (settingsFrameType, len, payload))
    (hlen : len ≤ payload.length) :
    ∃ front, front ≠ [] ∧ octets = front ++ payload.drop len ∧
      (∀ u v, u ++ v = front → v ≠ [] → ∃ s', (start.app u).readFrames = some ([], s')) ∧
      ∀ x, (start.app (front ++ x)).readFrames =
        (start.headed settingsFrameType len (payload.take len ++ x)).readFrames := by
  have hexpected : start.unexpected settingsFrameType = false := rfl
  obtain ⟨rest, htype, hrest⟩ := frameHead_some hhead
  obtain ⟨t, hne, rfl, happ, -⟩ := getVarint_some htype
  obtain ⟨t', -, rfl, happ', -⟩ := getVarint_some hrest
  refine ⟨t ++ (t' ++ payload.take len), by simp [hne], ?_, ?_, ?_⟩
  · rw [append_assoc, append_assoc, take_append_drop]
  · intro u v huv hv
    have hcut : u ++ (v ++ payload.drop len) = t ++ (t' ++ payload) := by
      rw [← append_assoc, huv, append_assoc, append_assoc, take_append_drop]
    rcases readFrames_cut (hcut ▸ hhead) hexpected with hnone | ⟨payload', hpay, hread⟩
    · exact hnone
    · have hpos := length_pos_iff.mpr hv
      have hlength := congrArg length hpay
      rw [length_append, length_append, length_drop] at hlength
      rw [hread]
      exact readFrames_short hexpected (by decide) (by omega)
  · intro x
    have hcut : getVarint (t ++ (t' ++ payload.take len) ++ x) =
        some (settingsFrameType, t' ++ (payload.take len ++ x)) := by
      rw [append_assoc, append_assoc]
      exact happ _
    exact readFrames_head (s := start.app (t ++ (t' ++ payload.take len) ++ x)) rfl
      hcut hexpected (happ' _)

theorem Verdict.eq_of_fails {v w : Verdict} (hv : v ≠ .missingSettings) (hw : w ≠ .missingSettings)
    (h : v = .fails ↔ w = .fails) : v = w := by
  cases v <;> cases w <;> simp_all

theorem firstFrame_none (h : ∀ ty len payload, frameHead octets = some (ty, len, payload) →
    payload.length < len) : firstFrame octets = none := by
  rw [firstFrame]
  cases hhead : frameHead octets with
  | none => rfl
  | some head => exact if_pos (h _ _ _ hhead)

theorem runsAlike_of_short (h : ∀ ty len payload, frameHead octets = some (ty, len, payload) →
    payload.length < len ∧ ¬GoawayTaken g ty payload) : RunsAlike g octets := by
  have hnone : firstFrame octets = none :=
    firstFrame_none fun ty len payload hhead => (h ty len payload hhead).1
  have hkept : ∃ s', start.readFrames = some ([], s') :=
    ⟨_, readFrames_noType rfl rfl⟩
  have hself : [octets].flatten = octets := by simp
  intro u segments hrest
  have hflatten : (u :: segments).flatten = octets := hrest
  refine ⟨by simp [hnone], ?_⟩
  rcases quiet_or_doomed h with hquiet | ⟨hdoomed, hend⟩
  · rw [run_quiet (u :: segments) fun v w hvw => hquiet v w (hvw.trans hflatten),
      run_quiet [octets] fun v w hvw => hquiet v w (hvw.trans hself)]
  · rw [run_doomed (u :: segments) hkept (fun v w hvw => hdoomed v w (hvw.trans hflatten))
        (hflatten.symm ▸ hend),
      run_doomed [octets] hkept (fun v w hvw => hdoomed v w (hvw.trans hself)) (hself.symm ▸ hend)]

theorem runsAlike_of_settingsFirst (h : SettingsFirst g rest) : RunsAlike g rest := by
  rw [SettingsFirst] at h
  cases hhead : frameHead rest with
  | none => exact runsAlike_of_short fun ty len payload h' => by rw [hhead] at h'; cases h'
  | some head =>
    obtain ⟨ty, len, payload⟩ := head
    rw [hhead] at h
    dsimp only at h
    by_cases hshort : payload.length < len
    · rw [if_pos hshort] at h
      refine runsAlike_of_short fun ty' len' payload' h' => ?_
      rw [hhead] at h'
      obtain ⟨rfl, rfl, rfl⟩ : ty = ty' ∧ len = len' ∧ payload = payload' := by simpa using h'
      exact ⟨hshort, h⟩
    · rw [if_neg hshort] at h
      obtain ⟨rfl, hsame⟩ := h
      have hlen : len ≤ (payload.take len).length := by
        rw [length_take]
        omega
      obtain ⟨front, hfront, hrest, hbefore, hend⟩ := settings_front hhead (Nat.not_lt.mp hshort)
      intro u segments hflatten
      refine ⟨?_, ?_⟩
      · intro ty hty hne
        have hset : firstFrame rest = some settingsFrameType := by
          rw [firstFrame, hhead]
          exact if_neg hshort
        exact absurd (some.inj (hty.symm.trans hset)) hne
      · obtain ⟨x, y, hxy, hfails, hne⟩ := run_settings_first (g := g) true
          (u :: segments) hfront (hflatten.trans hrest) hlen hbefore hend
        obtain ⟨hwhole, hne'⟩ := run_settings (g := g) true [] hlen (hend (payload.drop len))
        rw [← hrest] at hwhole hne'
        refine Verdict.eq_of_fails hne hne' ?_
        rw [hfails, hwhole]
        exact hsame x y hxy

theorem run_type_alone : run g false true start ([] :: segments) ≠ .missingSettings := by
  have hread : (start.app []).readFrames = some ([], start) := by
    rw [app_nil]
    exact readFrames_noType rfl rfl
  rw [run, hread]
  exact run_ne_missingSettings segments

theorem run_goaway {rest' : Bytes} (hhead : frameHead rest = some (goawayFrameType, len, payload))
    (hread : getVarint payload = some (n, rest'))
    (haccept : acceptable g false { ty := goawayFrameType, payload := .goaway n }) :
    ∃ u, u ++ rest' = rest ∧
      ∀ segments, run g false true start (u :: segments) = .missingSettings := by
  obtain ⟨rest₁, htype, hlen⟩ := frameHead_some hhead
  obtain ⟨t, -, rfl, htype', -⟩ := getVarint_some htype
  obtain ⟨t', -, rfl, hlen', -⟩ := getVarint_some hlen
  obtain ⟨t'', -, rfl, hread', -⟩ := getVarint_some hread
  refine ⟨t ++ (t' ++ t''), by simp, ?_⟩
  intro segments
  have hnumber := hread' []
  rw [append_nil] at hnumber
  have hframes : (start.app (t ++ (t' ++ t''))).readFrames =
      some ([{ ty := goawayFrameType, payload := .goaway n }], start) := by
    have hcut : (start.app (t ++ (t' ++ t''))).readFrames =
        (start.headed goawayFrameType len t'').readFrames :=
      readFrames_head (s := start.app (t ++ (t' ++ t''))) rfl (htype' _) rfl
        (hlen' _)
    have hend : readFrames
        { start with streamSet := decide (goawayFrameType = settingsFrameType), buffer := [] } =
          some ([], start) := readFrames_noType rfl rfl
    rw [hcut, readFrames_numbered rfl hnumber rfl, hend]
    rfl
  rw [run, hframes]
  simp only [takeFrames, haccept, if_true, isSettings, Bool.false_eq_true, if_false]

theorem settingsFirst_of_runsAlike (h : RunsAlike g rest) : SettingsFirst g rest := by
  rw [SettingsFirst]
  cases hhead : frameHead rest with
  | none => exact True.intro
  | some head =>
    obtain ⟨ty, len, payload⟩ := head
    dsimp only
    have halone := h [] [rest] (by simp)
    split_ifs with hshort
    · rintro ⟨rfl, n, rest', hread, haccept⟩
      obtain ⟨u, hu, hrun⟩ := run_goaway hhead hread haccept
      have hsame := (h u [rest'] (by simpa using hu)).2
      rw [← halone.2, hrun] at hsame
      exact run_type_alone _ hsame.symm
    · rw [Nat.not_lt] at hshort
      have hfirst : firstFrame rest = some ty := by
        rw [firstFrame, hhead]
        exact if_neg (Nat.not_lt.mpr hshort)
      have hty : ty = settingsFrameType := by
        by_contra hne
        exact run_type_alone _ (halone.1 ty hfirst hne)
      subst hty
      refine ⟨rfl, ?_⟩
      obtain ⟨front, hfront, hrest, -, hend⟩ := settings_front hhead hshort
      have hlen : len ≤ (payload.take len).length := by
        rw [length_take]
        omega
      intro x y hxy
      have hcut := (run_settings (g := g) true [y] hlen (hend x)).1
      have hwhole := (run_settings (g := g) true [] hlen (hend (payload.drop len))).1
      rw [← hrest] at hwhole
      have hsame := (h (front ++ x) [y] (by simp [hrest, hxy])).2
      rw [hsame, hwhole] at hcut
      simpa using hcut.symm

/-- The control stream of the server has to start with settings, exactly if its first frame is one
of settings that reads alike however it is cut, or is not complete and no goaway frame. -/
theorem starts_with_settings (hfresh : Fresh id r) (htype : getVarint octets = some (0x0, rest)) :
    StartsWithSettings order channel id r octets rest ↔ SettingsFirst r.streams.peerGoawayId rest :=
  (startsWithSettings_iff hfresh htype).trans
    ⟨settingsFirst_of_runsAlike, runsAlike_of_settingsFirst⟩

def idle : Receiver where
  streams := .new
  encoder := .default
  decoder := .new 0 0
  peerSettings := none

theorem fresh_idle : Fresh 3 idle := ⟨by decide, rfl, rfl, rfl, rfl⟩

instance {len : ℕ} {payload x y : Bytes} : Decidable (SettingsRefused g len payload x y) :=
  match h : (start.headed settingsFrameType len (payload ++ x)).decodeSettingsPayload with
  | .error _ => .isTrue (by rw [SettingsRefused, h]; trivial)
  | .ok (kept, frames, _) =>
    let read := (settled.app (kept.buffer ++ y)).readFrames
    have : Decidable (Refused g read) :=
      inferInstanceAs (Decidable (∀ all ∈ read, ∃ frame ∈ all.1, ¬frame.acceptable g true))
    decidable_of_iff ((¬∀ frame ∈ completes frames, frame.acceptable g false) ∨ Refused g read)
      (by rw [SettingsRefused, h])

/-- A goaway frame behind the settings. -/
theorem starts_with_settings_goaway : StartsWithSettings List.reverse (fun _ => .sent) 3 idle
    [0x00, 0x04, 0x02, 0x06, 0x05, 0x07, 0x01, 0x00]
    [0x04, 0x02, 0x06, 0x05, 0x07, 0x01, 0x00] := by
  refine (starts_with_settings fresh_idle rfl).mpr ⟨rfl, fun x y hxy => ?_⟩
  have hall : ∀ n < 4, ¬SettingsRefused none 2 [0x06, 0x05] (take n [0x07, 0x01, 0x00])
      (drop n [0x07, 0x01, 0x00]) := by decide +kernel
  replace hxy : x ++ y = [0x07, 0x01, 0x00] := hxy
  have hlen := congrArg length hxy
  rw [length_append] at hlen
  have hcut := hall x.length (by simp only [length_cons, length_nil] at hlen; omega)
  rw [← hxy, take_left, drop_left] at hcut
  exact iff_of_false hcut (hall 3 (by decide))

/-- With the type alone in a segment, a goaway frame is taken as if settings had come. -/
theorem starts_with_goaway :
    verdict (receive List.reverse (fun _ => .sent) 3 [[0x00], [0x07, 0x01, 0x00]] idle).2 =
        .proceeds ∧
      ¬StartsWithSettings List.reverse (fun _ => .sent) 3 idle
        [0x00, 0x07, 0x01, 0x00] [0x07, 0x01, 0x00] := by
  have hproceeds :
      verdict (receive reverse (fun _ => .sent) 3 [[0x00], [0x07, 0x01, 0x00]] idle).2 =
        .proceeds := by
    decide +kernel
  refine ⟨hproceeds, fun h => ?_⟩
  have hmissing := (h [[0x00], [0x07, 0x01, 0x00]] rfl).1 goawayFrameType rfl (by decide)
  rw [hproceeds] at hmissing
  cases hmissing

end Receiver

end YlongHttp.H3
