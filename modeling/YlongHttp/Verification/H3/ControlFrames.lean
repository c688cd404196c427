import YlongHttp.Verification.H3.Decoding

/-! # The frames of a control stream

What one call of the decoder reads of a control stream, and how it compares with what the calls
read that get the same octets in segments. -/

namespace YlongHttp.H3

open List Nat

variable {buf rest : Bytes} {v : ℕ}

/-! ## Variable-length integers -/

theorem parseVarintLen_pos (b : UInt8) : 0 < parseVarintLen b := by
  rw [parseVarintLen, shiftLeft_eq, one_mul]
  exact Nat.two_pow_pos _

theorem getVarint_some (h : getVarint buf = some (v, rest)) :
    ∃ t, t ≠ [] ∧ buf = t ++ rest ∧ (∀ u, getVarint (t ++ u) = some (v, u)) ∧
      ∀ p q, p ++ q = t → q ≠ [] → getVarint p = none := by
  cases buf with
  | nil => cases h
  | cons first bytes =>
    have hpos := parseVarintLen_pos first
    simp only [getVarint] at h
    split at h
    · cases h
    · rename_i hlen
      obtain ⟨n, hn⟩ : ∃ n, parseVarintLen first = n + 1 := ⟨parseVarintLen first - 1, by omega⟩
      simp only [Option.some.injEq, Prod.mk.injEq, hn, length_cons, not_lt,
        add_le_add_iff_right, take_succ_cons, drop_succ_cons, gt_iff_lt] at h hlen
      obtain ⟨hv, hrest⟩ := h
      refine ⟨first :: bytes.take n, cons_ne_nil _ _, ?_, ?_, ?_⟩
      · rw [← hrest, cons_append, take_append_drop]
      · intro u
        have htake : (bytes.take n).length = n := length_take_of_le hlen
        simp only [cons_append, getVarint, hn, length_cons, length_append, htake,
          gt_iff_lt, take_succ_cons, drop_succ_cons]
        rw [if_neg (by omega), take_left' htake, drop_left' htake, hv]
      · intro p q hpq hq
        cases p with
        | nil => rfl
        | cons b p =>
          simp only [cons_append, cons.injEq] at hpq
          obtain ⟨rfl, htail⟩ := hpq
          have hshort := congrArg length htail
          have hqpos := length_pos_iff.mpr hq
          rw [length_append, length_take_of_le hlen] at hshort
          simp only [getVarint, hn, length_cons, gt_iff_lt]
          exact if_pos (by omega)

theorem getVarint_append (h : getVarint buf = some (v, rest)) (c : Bytes) :
    getVarint (buf ++ c) = some (v, rest ++ c) := by
  obtain ⟨t, -, rfl, happ, -⟩ := getVarint_some h
  rw [append_assoc]
  exact happ _

theorem length_lt_of_getVarint (h : getVarint buf = some (v, rest)) : rest.length < buf.length := by
  obtain ⟨t, hne, rfl, -⟩ := getVarint_some h
  have hpos := length_pos_iff.mpr hne
  rw [length_append]
  omega

theorem getVarint_none_of_append {u v : Bytes} (h : getVarint (u ++ v) = none) :
    getVarint u = none := by
  cases hread : getVarint u with
  | none => rfl
  | some read =>
    rw [getVarint_append hread v] at h
    cases h

theorem getVarint_cut {u v : Bytes} {n : ℕ} (h : getVarint (u ++ v) = some (n, rest)) :
    getVarint u = none ∨ ∃ rest', getVarint u = some (n, rest') ∧ rest' ++ v = rest := by
  cases hread : getVarint u with
  | none => exact .inl rfl
  | some read =>
    obtain ⟨n', rest'⟩ := read
    rw [getVarint_append hread v] at h
    obtain ⟨rfl, rfl⟩ := Prod.mk.inj (Option.some.inj h)
    exact .inr ⟨rest', rfl, rfl⟩

def completes (frames : List FrameKind) : List Frame :=
  frames.filterMap fun
    | .complete frame => some frame
    | _ => none

theorem completes_append (fs gs : List FrameKind) :
    completes (fs ++ gs) = completes fs ++ completes gs := List.filterMap_append

def Frame.isSettings (frame : Frame) : Bool :=
  match frame.payload with
  | .settings _ => true
  | _ => false

namespace DecodedH3Stream

variable {s s' : DecodedH3Stream} {q : Qpack.QpackDecoder} {id fuel : ℕ}
variable {buffer rest : Bytes} {frames : List FrameKind} {more : DecodePartRes} {ty : ℕ}

/-! ## A turn of the loop -/

/-- The part of `decode` for the states of a control stream. -/
def controlPart (s : DecodedH3Stream) : Part :=
  match s.state with
  | .frameType => s.decodeFrameType
  | .payloadLen => s.decodePayloadLen
  | .settingsPayload => s.decodeSettingsPayload
  | .variablePayload => s.decodeVariablePayload
  | _ => s.decodeUnknownPayload

def weight (s : DecodedH3Stream) : ℕ :=
  3 * s.buffer.length + if s.state = .frameType ∨ s.state = .payloadLen then 0 else 1

theorem weight_endFrame_lt (hstate : s.state ≠ .frameType ∧ s.state ≠ .payloadLen)
    (hbuffer : buffer.length ≤ s.buffer.length) : weight { s.endFrame with buffer } < s.weight := by
  have hend : weight { s.endFrame with buffer } = 3 * buffer.length := by simp [weight, endFrame]
  rw [hend, weight, if_neg (not_or.mpr hstate)]
  omega

def typed (s : DecodedH3Stream) (ty : ℕ) (rest : Bytes) : DecodedH3Stream :=
  { s with
    buffer := rest
    streamSet := s.streamSet || ty = settingsFrameType
    frameType := some ty
    state := .payloadLen }

inductive Leaves (s : DecodedH3Stream) : DecodedH3Stream → DecodePartRes → Prop
  | same : Leaves s s .returnOuter
  | typed {ty : ℕ} {rest : Bytes} (hstate : s.state = .frameType)
      (hread : getVarint s.buffer = some (ty, rest)) (hexpected : s.unexpected ty = false) :
      Leaves s (s.typed ty rest) .continue
  | sized {ty len : ℕ} {rest : Bytes} (hstate : s.state = .payloadLen)
      (hread : getVarint s.buffer = some (len, rest)) (htype : s.frameType = some ty) :
      Leaves s { s with buffer := rest, payloadLen := some len, state := payloadState ty } .continue
  | ended {buffer : Bytes} {more : DecodePartRes}
      (hstate : s.state ≠ .frameType ∧ s.state ≠ .payloadLen)
      (hbuffer : buffer.length ≤ s.buffer.length) :
      Leaves s { s.endFrame with buffer } more
  | less {len : ℕ} : Leaves s { s with buffer := [], payloadLen := some len } .returnOuter

theorem leaves_afterFrame {fs : List FrameKind}
    (h : { s with buffer }.afterFrame frames = .ok (s', fs, more))
    (hstate : s.state ≠ .frameType ∧ s.state ≠ .payloadLen)
    (hbuffer : buffer.length ≤ s.buffer.length) : s.Leaves s' more := by
  simp only [afterFrame, Except.ok.injEq, Prod.mk.injEq] at h
  obtain ⟨rfl, -⟩ := h
  exact .ended hstate hbuffer

theorem leaves (h : s.controlPart = .ok (s', frames, more)) : s.Leaves s' more := by
  rw [controlPart] at h
  split at h
  · rename_i hstate
    simp only [decodeFrameType] at h
    split at h
    · rename_i hread
      split at h
      · cases h
      · rename_i hexpected
        cases h
        exact .typed hstate hread (Bool.not_eq_true _ ▸ hexpected)
    · cases h
      exact .same
  · rename_i hstate
    simp only [decodePayloadLen] at h
    split at h
    · rename_i hread
      split at h
      · cases h
      · rename_i htype
        cases h
        exact .sized hstate hread htype
    · cases h
      exact .same
  · rename_i hstate
    simp only [decodeSettingsPayload] at h
    split at h
    · cases h
      exact .same
    · cases hread : decodeSettings s.remainPayloadLen s.buffer.length s.buffer.length .default []
        s.buffer with
      | error e => simp [hread, bind, Except.bind] at h
      | ok read =>
        simp only [hread, bind, Except.bind] at h
        split at h
        · cases h
          exact .ended (by simp [hstate]) (zero_le _)
        · cases h
          exact .ended (by simp [hstate]) le_rfl
  · rename_i hstate
    simp only [decodeVariablePayload] at h
    split at h
    · rename_i hread
      split at h
      · cases h
      · split at h
        · cases h
        · exact leaves_afterFrame h (by simp [hstate]) (length_lt_of_getVarint hread).le
    · cases h
      exact .same
  · rename_i hframe hlen hset hvariable
    simp only [decodeUnknownPayload] at h
    split at h
    · rw [subtractPayloadLen] at h
      split at h
      · cases h
      · split at h
        · cases h
        · cases h
          exact .less
    · exact leaves_afterFrame h ⟨hframe, hlen⟩ (by rw [length_drop]; omega)

theorem weight_lt (h : s.controlPart = .ok (s', frames, .continue)) : s'.weight < s.weight := by
  cases leaves h with
  | @typed ty rest hstate hread hexpected =>
    have hless := length_lt_of_getVarint hread
    have htyped : (s.typed ty rest).weight = 3 * rest.length := rfl
    rw [htyped, weight]
    omega
  | sized hstate hread htype =>
    have hless := length_lt_of_getVarint hread
    rw [weight, weight]
    dsimp only
    split <;> omega
  | ended hstate hbuffer => exact weight_endFrame_lt hstate hbuffer

/-! ## What a call reads -/

def app (s : DecodedH3Stream) (c : Bytes) : DecodedH3Stream := { s with buffer := s.buffer ++ c }

@[simp] theorem app_nil (s : DecodedH3Stream) : s.app [] = s := by simp [app]

@[simp] theorem app_app (s : DecodedH3Stream) (c d : Bytes) : (s.app c).app d = s.app (c ++ d) := by
  simp [app]

/-- The complete frames that a call reads, and the stream that it keeps; `none` is an error. -/
def readFrames (s : DecodedH3Stream) : Option (List Frame × DecodedH3Stream) :=
  match _h : s.controlPart with
  | .error _ => none
  | .ok (s', frames, .returnOuter) => some (completes frames, s')
  | .ok (s', frames, .continue) =>
    s'.readFrames.map fun read => (completes frames ++ read.1, read.2)
termination_by s.weight
decreasing_by exact weight_lt _h

def before (fs : List Frame) (read : Option (List Frame × DecodedH3Stream)) :
    Option (List Frame × DecodedH3Stream) :=
  read.map fun read => (fs ++ read.1, read.2)

theorem before_nil (read : Option (List Frame × DecodedH3Stream)) : before [] read = read := by
  cases read <;> rfl

theorem before_before (fs gs : List Frame) (read : Option (List Frame × DecodedH3Stream)) :
    before fs (before gs read) = before (fs ++ gs) read := by
  cases read with
  | none => rfl
  | some read => simp [before]

theorem readFrames_eq (s : DecodedH3Stream) : s.readFrames =
    match s.controlPart with
    | .error _ => none
    | .ok (s', frames, .returnOuter) => some (completes frames, s')
    | .ok (s', frames, .continue) => before (completes frames) s'.readFrames := by
  rw [readFrames]
  split
  · rename_i h
    rw [h]
  · rename_i h
    rw [h]
  · rename_i h
    rw [h]
    rfl

theorem readFrames_error {e : Fault H3Error} (h : s.controlPart = .error e) :
    s.readFrames = none := by
  rw [readFrames_eq, h]

theorem readFrames_return (h : s.controlPart = .ok (s', frames, .returnOuter)) :
    s.readFrames = some (completes frames, s') := by
  rw [readFrames_eq, h]

theorem readFrames_waits (h : s.controlPart = .ok (s', [.incomplete], .returnOuter)) :
    s.readFrames = some ([], s') := readFrames_return h

theorem readFrames_continue (h : s.controlPart = .ok (s', frames, .continue)) :
    s.readFrames = before (completes frames) s'.readFrames := by
  rw [readFrames_eq, h]

theorem readFrames_afterFrame (t : DecodedH3Stream) (frames : List FrameKind)
    (h : s.controlPart = t.afterFrame frames) :
    s.readFrames = before (completes frames) t.endFrame.readFrames := by
  rw [afterFrame] at h
  split at h
  · rename_i hbuffer
    have hend : t.endFrame.controlPart = .ok (t.endFrame, [.incomplete], .returnOuter) := by
      have hempty : t.endFrame.buffer = [] := hbuffer
      rw [controlPart]
      change decodeFrameType t.endFrame = _
      rw [decodeFrameType, hempty]
      rfl
    rw [readFrames_return h, readFrames_return hend]
    exact congrArg (fun fs => some (fs, _)) (append_nil _).symm
  · exact readFrames_continue h

/-! ## A turn, and the same with more octets -/

/-- No settings are to be read. -/
structure Settled (s : DecodedH3Stream) : Prop where
  streamSet : s.streamSet = true
  state : s.state ≠ .settingsPayload
  frameType : s.state = .payloadLen → s.frameType ≠ some settingsFrameType

theorem Settled.app (h : s.Settled) (c : Bytes) : (s.app c).Settled :=
  ⟨h.streamSet, h.state, h.frameType⟩

/-- What a turn does, and what it would have done with more octets. -/
inductive Turn (s : DecodedH3Stream) : Prop
  | waits (s' : DecodedH3Stream) (hread : s.readFrames = some ([], s'))
      (happ : ∀ c, (s'.app c).readFrames = (s.app c).readFrames) (hsettled : s.Settled → s'.Settled)
  | refuses (happ : ∀ c, (s.app c).readFrames = none)
  | advances (s' : DecodedH3Stream) (fs : List Frame) (hweight : s'.weight < s.weight)
      (happ : ∀ c, (s.app c).readFrames = before fs (s'.app c).readFrames)
      (hsettled : s.Settled → s'.Settled)
  | settles (hstate : s.state = .settingsPayload) (hlen : s.remainPayloadLen ≤ s.buffer.length)

theorem waits_self (h : s.controlPart = .ok (s, [.incomplete], .returnOuter)) : s.Turn :=
  .waits s (readFrames_waits h) (fun _ => rfl) id

theorem controlPart_unknown (hframe : s.state ≠ .frameType) (hlen : s.state ≠ .payloadLen)
    (hset : s.state ≠ .settingsPayload) (hvariable : s.state ≠ .variablePayload) :
    s.controlPart = s.decodeUnknownPayload := by
  rw [controlPart]
  split <;> first | contradiction | rfl

theorem turn_frameType (hstate : s.state = .frameType) : s.Turn := by
  have hpart (c : Bytes) : (s.app c).controlPart = (s.app c).decodeFrameType := by
    simp only [controlPart, app, hstate]
  cases hread : getVarint s.buffer with
  | none =>
    refine waits_self ?_
    rw [← app_nil s, hpart, app_nil, decodeFrameType, hread]
  | some read =>
    obtain ⟨n, rest⟩ := read
    have happ (c : Bytes) : getVarint (s.app c).buffer = some (n, rest ++ c) :=
      getVarint_append hread c
    by_cases hunexpected : s.unexpected n
    · refine .refuses fun c => ?_
      have herror : (s.app c).controlPart = decodeFault (.unexpectedFrame n) := by
        rw [hpart, decodeFrameType, happ]
        exact if_pos hunexpected
      exact readFrames_error herror
    · refine .advances (s.typed n rest) [] ?_ ?_ ?_
      · have hless := length_lt_of_getVarint hread
        have htyped : (s.typed n rest).weight = 3 * rest.length := rfl
        rw [htyped, weight]
        omega
      · intro c
        refine readFrames_continue (?_ : (s.app c).controlPart = .ok (_, [], .continue))
        rw [hpart, decodeFrameType, happ]
        exact if_neg hunexpected
      · intro hsettled
        refine ⟨by simp [typed, hsettled.streamSet], by simp [typed], ?_⟩
        intro _ htype
        cases htype
        refine hunexpected ?_
        simp [unexpected, hsettled.streamSet, dataFrameType, headersFrameType,
          pushPromiseFrameType, settingsFrameType]

theorem turn_payloadLen (hstate : s.state = .payloadLen) : s.Turn := by
  have hpart (c : Bytes) : (s.app c).controlPart = (s.app c).decodePayloadLen := by
    simp only [controlPart, app, hstate]
  cases hread : getVarint s.buffer with
  | none =>
    refine waits_self ?_
    rw [← app_nil s, hpart, app_nil, decodePayloadLen, hread]
  | some read =>
    obtain ⟨n, rest⟩ := read
    have happ (c : Bytes) : getVarint (s.app c).buffer = some (n, rest ++ c) :=
      getVarint_append hread c
    cases htype : s.frameType with
    | none =>
      refine .refuses fun c => readFrames_error (?_ : (s.app c).controlPart = .error .panic)
      have htype' : (s.app c).frameType = none := htype
      simp only [hpart, decodePayloadLen, happ, htype']
    | some ty =>
      refine .advances { s with
        buffer := rest
        frameType := some ty
        payloadLen := some n
        state := payloadState ty } [] ?_ ?_ ?_
      · have hless := length_lt_of_getVarint hread
        rw [weight, weight]
        dsimp only
        split <;> omega
      · intro c
        refine readFrames_continue (?_ : (s.app c).controlPart = .ok (_, [], .continue))
        have htype' : (s.app c).frameType = some ty := htype
        simp only [hpart, decodePayloadLen, happ, htype']
        rfl
      · intro hsettled
        have hne : ty ≠ settingsFrameType := fun h => hsettled.frameType hstate (by rw [htype, h])
        refine ⟨hsettled.streamSet, ?_, ?_⟩
        · simp only [payloadState, if_neg hne]
          split_ifs <;> simp
        · simp only [payloadState]
          split_ifs <;> simp

theorem turn_variablePayload (hstate : s.state = .variablePayload) : s.Turn := by
  have hpart (c : Bytes) : (s.app c).controlPart = (s.app c).decodeVariablePayload := by
    simp only [controlPart, app, hstate]
  cases hread : getVarint s.buffer with
  | none =>
    refine waits_self ?_
    rw [← app_nil s, hpart, app_nil, decodeVariablePayload, hread]
  | some read =>
    obtain ⟨n, rest⟩ := read
    have happ (c : Bytes) : getVarint (s.app c).buffer = some (n, rest ++ c) :=
      getVarint_append hread c
    cases htype : s.frameType with
    | none =>
      refine .refuses fun c => readFrames_error (?_ : (s.app c).controlPart = .error .panic)
      have htype' : (s.app c).frameType = none := htype
      simp only [hpart, decodeVariablePayload, happ, htype']
    | some ty =>
      have htype' (c : Bytes) : (s.app c).frameType = some ty := htype
      cases hframe : idFrame ty n with
      | none =>
        refine .refuses fun c => readFrames_error
          (?_ : (s.app c).controlPart = decodeFault (.unexpectedFrame ty))
        simp only [hpart, decodeVariablePayload, happ, htype', hframe]
      | some frame =>
        refine .advances { s.endFrame with buffer := rest } [frame] ?_ ?_ ?_
        · exact weight_endFrame_lt (by simp [hstate]) (length_lt_of_getVarint hread).le
        · intro c
          refine readFrames_afterFrame { s with buffer := rest ++ c } [.complete frame] ?_
          simp only [hpart, decodeVariablePayload, happ, htype', hframe]
          rfl
        · exact fun hsettled => ⟨hsettled.streamSet, by simp [endFrame], by simp [endFrame]⟩

theorem turn_unknownPayload (hframe : s.state ≠ .frameType) (hpay : s.state ≠ .payloadLen)
    (hset : s.state ≠ .settingsPayload) (hvariable : s.state ≠ .variablePayload) :
    s.Turn := by
  have hpart {t : DecodedH3Stream} (ht : t.state = s.state) :
      t.controlPart = t.decodeUnknownPayload :=
    controlPart_unknown (ht ▸ hframe) (ht ▸ hpay) (ht ▸ hset) (ht ▸ hvariable)
  have hmore {t : DecodedH3Stream} (ht : t.state = s.state)
      (hlen : t.remainPayloadLen ≤ t.buffer.length) : t.readFrames =
        { t.endFrame with buffer := t.buffer.drop t.remainPayloadLen }.readFrames := by
    have hafter : t.controlPart =
        { t with buffer := t.buffer.drop t.remainPayloadLen }.afterFrame [] := by
      rw [hpart ht, decodeUnknownPayload]
      exact if_neg (not_lt.mpr hlen)
    rw [readFrames_afterFrame _ _ hafter]
    exact before_nil _
  by_cases hlen : s.buffer.length < s.remainPayloadLen
  · obtain ⟨len, hsome⟩ : ∃ len, s.payloadLen = some len := by
      cases hlength : s.payloadLen with
      | none => simp [remainPayloadLen, hlength] at hlen
      | some len => exact ⟨len, rfl⟩
    simp only [remainPayloadLen, hsome, Option.getD_some] at hlen
    have hshort {t : DecodedH3Stream} {n : ℕ} (ht : t.state = s.state) (hn : t.payloadLen = some n)
        (hless : t.buffer.length < n) : t.readFrames =
          some ([], { t with buffer := [], payloadLen := some (n - t.buffer.length) }) := by
      refine readFrames_waits ?_
      rw [hpart ht, decodeUnknownPayload]
      simp only [remainPayloadLen, hn, Option.getD_some, if_pos hless, subtractPayloadLen,
        if_neg (not_lt.mpr hless.le)]
      rfl
    let kept : DecodedH3Stream :=
      { s with buffer := [], payloadLen := some (len - s.buffer.length) }
    refine .waits kept (hshort rfl hsome hlen) ?_
      fun hsettled => ⟨hsettled.streamSet, hsettled.state, hsettled.frameType⟩
    intro c
    have hkept : (kept.app c).buffer = c := nil_append c
    have hwhole : (s.app c).buffer.length = s.buffer.length + c.length := length_append
    by_cases hstill : s.buffer.length + c.length < len
    · rw [hshort (t := s.app c) rfl hsome (by omega),
        hshort (t := kept.app c) rfl rfl (by rw [hkept]; omega), hkept, hwhole, Nat.sub_sub]
      rfl
    · have hrest : kept.remainPayloadLen = len - s.buffer.length := rfl
      have hall : s.remainPayloadLen = len := by rw [remainPayloadLen, hsome]; rfl
      rw [hmore (t := s.app c) rfl (by change s.remainPayloadLen ≤ _; omega),
        hmore (t := kept.app c) rfl (by rw [hkept]; change kept.remainPayloadLen ≤ _; omega)]
      change readFrames { s.endFrame with buffer := c.drop kept.remainPayloadLen } =
        readFrames { s.endFrame with buffer := (s.buffer ++ c).drop s.remainPayloadLen }
      rw [hrest, hall, drop_append, drop_eq_nil_of_le hlen.le, nil_append]
  · rw [not_lt] at hlen
    refine .advances { s.endFrame with buffer := s.buffer.drop s.remainPayloadLen } [] ?_ ?_ ?_
    · exact weight_endFrame_lt ⟨hframe, hpay⟩ (by rw [length_drop]; omega)
    · intro c
      have hlong : (s.app c).remainPayloadLen ≤ (s.app c).buffer.length := by
        simp only [app, remainPayloadLen, length_append] at hlen ⊢
        omega
      rw [hmore (t := s.app c) rfl hlong, before_nil]
      congr 1
      simp only [app, endFrame, remainPayloadLen] at hlen ⊢
      rw [drop_append_of_le_length hlen]
    · exact fun hsettled => ⟨hsettled.streamSet, by simp [endFrame], by simp [endFrame]⟩

theorem turn_settingsPayload (hstate : s.state = .settingsPayload) : s.Turn := by
  by_cases hlen : s.buffer.length < s.remainPayloadLen
  · refine waits_self ?_
    simp only [controlPart, hstate, decodeSettingsPayload]
    exact if_pos hlen
  · exact .settles hstate (not_lt.mp hlen)

theorem turn (s : DecodedH3Stream) : s.Turn := by
  by_cases hframe : s.state = .frameType
  · exact turn_frameType hframe
  by_cases hlen : s.state = .payloadLen
  · exact turn_payloadLen hlen
  by_cases hset : s.state = .settingsPayload
  · exact turn_settingsPayload hset
  by_cases hvariable : s.state = .variablePayload
  · exact turn_variablePayload hvariable
  · exact turn_unknownPayload hframe hlen hset hvariable

theorem readFrames_settings (hstate : s.state = .settingsPayload)
    (hlen : s.remainPayloadLen ≤ s.buffer.length) :
    ((∃ e, s.decodeSettingsPayload = .error e) ∧ s.readFrames = none) ∨
      ∃ frame kept more, s.decodeSettingsPayload = .ok (kept, [.complete frame], more) ∧
        frame.isSettings ∧ kept = { s.endFrame with buffer := kept.buffer } ∧
        kept.weight < s.weight ∧ s.readFrames = before [frame] kept.readFrames := by
  have hpart : s.controlPart = s.decodeSettingsPayload := by simp only [controlPart, hstate]
  cases hread : decodeSettings s.remainPayloadLen s.buffer.length s.buffer.length .default []
    s.buffer with
  | error e =>
    have herror : s.decodeSettingsPayload = .error e := by
      rw [decodeSettingsPayload, hread]
      exact if_neg (not_lt.mpr hlen)
    exact .inl ⟨⟨e, herror⟩, readFrames_error (hpart.trans herror)⟩
  | ok read =>
    obtain ⟨settings, addition, rest⟩ := read
    obtain ⟨frame, hframe⟩ : ∃ frame : Frame, frame =
        { ty := settingsFrameType
          payload := .settings
            (if addition = [] then settings
              else { settings with additional := some addition }) } := ⟨_, rfl⟩
    have hok : s.decodeSettingsPayload =
        if rest = [] then
          .ok ({ s.endFrame with buffer := [] }, [.complete frame], .returnOuter)
        else .ok (s.endFrame, [.complete frame], .continue) := by
      rw [hframe, decodeSettingsPayload, hread]
      exact if_neg (not_lt.mpr hlen)
    have hset : frame.isSettings = true := by
      rw [hframe]
      rfl
    have hend (buffer : Bytes) (hbuffer : buffer.length ≤ s.buffer.length) :
        weight { s.endFrame with buffer } < s.weight :=
      weight_endFrame_lt (by simp [hstate]) hbuffer
    refine .inr ⟨frame, ?_⟩
    by_cases hrest : rest = []
    · rw [if_pos hrest] at hok
      refine ⟨_, _, hok, hset, rfl, hend [] (zero_le _), ?_⟩
      exact readFrames_afterFrame { s with buffer := [] } [.complete frame] (hpart.trans hok)
    · rw [if_neg hrest] at hok
      exact ⟨_, _, hok, hset, rfl, hend _ le_rfl, readFrames_continue (hpart.trans hok)⟩

/-! ## A call, and the same with more octets -/

theorem readFrames_app (hsettled : s.Settled) (c : Bytes) :
    match s.readFrames with
    | none => (s.app c).readFrames = none
    | some (fs, s') => s'.Settled ∧ (s.app c).readFrames = before fs (s'.app c).readFrames := by
  induction hn : s.weight using Nat.strong_induction_on generalizing s with
  | _ n ih =>
    cases turn s with
    | waits s' hread happ hkept =>
      rw [hread]
      exact ⟨hkept hsettled, by rw [before_nil, happ]⟩
    | refuses happ =>
      have hread := happ []
      rw [app_nil] at hread
      rw [hread]
      exact happ c
    | advances s' fs hweight happ hkept =>
      have hread := happ []
      have hnext := ih _ (hn ▸ hweight) (hkept hsettled) rfl
      rw [app_nil, app_nil] at hread
      rw [hread, happ c]
      cases hs' : s'.readFrames with
      | none =>
        rw [hs'] at hnext
        rw [hnext]
        rfl
      | some read =>
        rw [hs'] at hnext
        exact ⟨hnext.1, by rw [hnext.2, before_before]⟩
    | settles hstate => exact absurd hstate hsettled.state

theorem readFrames_app_of_nil (hread : s.readFrames = some ([], s')) (c : Bytes) :
    (s.app c).readFrames = (s'.app c).readFrames := by
  induction hn : s.weight using Nat.strong_induction_on generalizing s with
  | _ n ih =>
    cases turn s with
    | waits s'' hread' happ =>
      rw [hread] at hread'
      obtain ⟨-, rfl⟩ := Prod.mk.inj (Option.some.inj hread')
      exact (happ c).symm
    | refuses happ =>
      have hnone := happ []
      rw [app_nil, hread] at hnone
      cases hnone
    | advances s'' fs hweight happ =>
      have hnext := happ []
      rw [app_nil, app_nil, hread] at hnext
      cases hs'' : s''.readFrames with
      | none => rw [hs''] at hnext; cases hnext
      | some read =>
        rw [hs''] at hnext
        obtain ⟨hfs, rfl⟩ := Prod.mk.inj (Option.some.inj hnext)
        obtain ⟨rfl, hgs⟩ := append_eq_nil_iff.mp hfs.symm
        rw [happ c, before_nil]
        exact ih _ (hn ▸ hweight) (by rw [hs'', ← hgs]) rfl
    | settles hstate hlen =>
      rcases readFrames_settings hstate hlen with
        ⟨-, hnone⟩ | ⟨frame, kept, -, -, -, -, -, hsome⟩
      · rw [hnone] at hread; cases hread
      · rw [hsome] at hread
        cases hkept : kept.readFrames with
        | none | some read => rw [hkept] at hread; cases hread

/-! ## The head of a frame -/

theorem readFrames_noType (hstate : s.state = .frameType) (htype : getVarint s.buffer = none) :
    s.readFrames = some ([], s) := by
  refine readFrames_waits ?_
  simp only [controlPart, hstate, decodeFrameType, htype]

theorem readFrames_unexpected (hstate : s.state = .frameType)
    (htype : getVarint s.buffer = some (ty, rest)) (hunexpected : s.unexpected ty = true) :
    s.readFrames = none := by
  refine readFrames_error (?_ : s.controlPart = decodeFault (.unexpectedFrame ty))
  simp only [controlPart, hstate, decodeFrameType, htype, hunexpected, if_true]

theorem readFrames_typed (hstate : s.state = .frameType)
    (htype : getVarint s.buffer = some (ty, rest)) (hexpected : s.unexpected ty = false) :
    s.readFrames = (s.typed ty rest).readFrames := by
  have hpart : s.controlPart = .ok (s.typed ty rest, [], .continue) := by
    simp only [controlPart, hstate, decodeFrameType, htype, hexpected, Bool.false_eq_true, if_false]
    rfl
  rw [readFrames_continue hpart]
  exact before_nil _

theorem readFrames_noLen (hstate : s.state = .frameType)
    (htype : getVarint s.buffer = some (ty, rest)) (hexpected : s.unexpected ty = false)
    (hlen : getVarint rest = none) : s.readFrames = some ([], s.typed ty rest) := by
  rw [readFrames_typed hstate htype hexpected]
  refine readFrames_waits ?_
  simp only [typed, controlPart, decodePayloadLen, hlen]

theorem readFrames_head {len : ℕ} {payload : Bytes} (hstate : s.state = .frameType)
    (htype : getVarint s.buffer = some (ty, rest)) (hexpected : s.unexpected ty = false)
    (hlen : getVarint rest = some (len, payload)) :
    s.readFrames = (s.headed ty len payload).readFrames := by
  have hpart : (s.typed ty rest).controlPart = .ok (s.headed ty len payload, [], .continue) := by
    simp only [typed, controlPart, decodePayloadLen, hlen]
    rfl
  rw [readFrames_typed hstate htype hexpected, readFrames_continue hpart]
  exact before_nil _

/-! ## The loop of `decode` -/

/-- The states of a control stream after its type. -/
structure OnControl (s : DecodedH3Stream) : Prop where
  ty : s.ty = .control
  state : s.state ∈ [.frameType, .payloadLen, .settingsPayload, .variablePayload, .unknownPayload]
  frameType : s.state = .payloadLen → ∀ ty ∈ s.frameType,
    payloadState ty ∈ [.settingsPayload, .variablePayload, .unknownPayload]

theorem OnControl.app (h : s.OnControl) (c : Bytes) : (s.app c).OnControl :=
  ⟨h.ty, h.state, h.frameType⟩

theorem OnControl.controlPart (hs : s.OnControl) (h : s.controlPart = .ok (s', frames, more)) :
    s'.OnControl := by
  cases leaves h with
  | same => exact hs
  | typed hstate hread hexpected =>
    refine ⟨hs.ty, by simp [typed], ?_⟩
    rintro - ty ⟨⟩
    simp only [unexpected, hs.ty] at hexpected
    simp only [payloadState]
    split_ifs at hexpected ⊢ <;> simp_all
  | sized hstate hread htype =>
    have hmem := hs.frameType hstate _ htype
    refine ⟨hs.ty, mem_cons_of_mem _ (.tail _ hmem), ?_⟩
    intro hlen
    change payloadState _ = _ at hlen
    rw [hlen] at hmem
    simp at hmem
  | ended hstate hbuffer => exact ⟨hs.ty, by simp [endFrame], by simp [endFrame]⟩
  | less => exact ⟨hs.ty, hs.state, hs.frameType⟩

theorem OnControl.decodePart (hs : s.OnControl) : s.decodePart q id = (q, s.controlPart) := by
  rw [DecodedH3Stream.decodePart, DecodedH3Stream.controlPart]
  have hmem := hs.state
  cases hstate : s.state with
  | frameType | payloadLen | settingsPayload | variablePayload | unknownPayload => rfl
  | _ => rw [hstate] at hmem; simp at hmem

theorem OnControl.decodeLoop (hs : s.OnControl) (hfuel : s.weight < fuel) (id : ℕ)
    (q : Qpack.QpackDecoder) (frames : List FrameKind) :
    match s.readFrames with
    | none => ∃ e, s.decodeLoop id fuel q frames = (q, none, .error e)
    | some (fs, s') => s'.OnControl ∧ ∃ all,
        s.decodeLoop id fuel q frames = (q, some s', .ok (.control all)) ∧
          completes all = completes frames ++ fs := by
  induction fuel generalizing s frames with
  | zero => exact absurd hfuel (not_lt_zero _)
  | succ fuel ih =>
    have hloop : s.decodeLoop id (fuel + 1) q frames = match s.controlPart with
        | .error e => (q, none, .error e)
        | .ok (s', more, .returnOuter) => (q, some s', .ok (.control (frames ++ more)))
        | .ok (s', more, .continue) => s'.decodeLoop id fuel q (frames ++ more) := by
      have hpart : s.decodePart q id = (q, s.controlPart) := hs.decodePart
      have hty {s' : DecodedH3Stream} {more : List FrameKind}
          (h : s.controlPart = .ok (s', more, .returnOuter)) : s'.ty = .control :=
        (hs.controlPart h).ty
      have hmem := hs.state
      rw [DecodedH3Stream.decodeLoop]
      cases hstate : s.state with
      | frameType | payloadLen | settingsPayload | variablePayload | unknownPayload =>
        dsimp only
        rw [hpart]
        cases hnext : s.controlPart with
        | error e => rfl
        | ok next =>
          obtain ⟨s', more, _ | _⟩ := next
          · simp only [outcome, returnByType, hty hnext, reduceCtorEq, or_self, if_false]
          · rfl
      | _ => rw [hstate] at hmem; simp at hmem
    cases hpart : s.controlPart with
    | error e =>
      rw [readFrames_error hpart, hloop, hpart]
      exact ⟨e, rfl⟩
    | ok next =>
      obtain ⟨s', more, next⟩ := next
      have hs' := hs.controlPart hpart
      cases next with
      | returnOuter =>
        rw [readFrames_return hpart, hloop, hpart]
        exact ⟨hs', _, rfl, completes_append _ _⟩
      | «continue» =>
        have hrest := ih hs' (by have hless := weight_lt hpart; omega) (frames ++ more)
        rw [readFrames_continue hpart, hloop, hpart]
        cases hread : s'.readFrames with
        | none =>
          rw [hread] at hrest
          exact hrest
        | some read =>
          rw [hread] at hrest
          obtain ⟨hkept, all, hall, hcomp⟩ := hrest
          refine ⟨hkept, all, hall, ?_⟩
          rw [hcomp, completes_append, append_assoc]

end DecodedH3Stream

end YlongHttp.H3
