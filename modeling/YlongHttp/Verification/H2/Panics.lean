import YlongHttp.Verification.H2.Rounds
import YlongHttp.Verification.Hpack.Correspondence

/-! # Panics of the receiving side

The decoder panics on two kinds of frames and on no others: on a HEADERS or PUSH_PROMISE frame
that is padded and has no payload, whose padding length it reads all the same, and on a
header block with a field that the header map does not take, whose error it unwraps. -/

namespace YlongHttp

open List Option FrameHeader

/-! ## Header blocks -/

def Updater.field (self : Updater) : Representation → Option Field
  | .indexed index => TableSearcher.searchHeader self.table index
  | .literalWithIndexing n v => (self.getHeaderByName n).map (·, v)
  | .literalWithoutIndexing n v => (self.getHeaderByName n).map (·, v)
  | .literalNeverIndexed n v => (self.getHeaderByName n).map (·, v)
  | .sizeUpdate _ => none

def Updater.Chokes (self : Updater) (repr : Representation) : Prop :=
  ∃ f : Field, self.field repr = some f ∧
    self.lines.headerSize + f.size ≤ self.headerListSize ∧ f.taken = false

def HpackDecoder.Chokes (self : HpackDecoder) (fragment : Bytes) : Prop :=
  ∃ u repr, Library.Meets ReprDecodeState.decode (.index .firstByte) Updater.update self.updater
    self.holder fragment u repr ∧ u.Chokes repr

theorem Parts.update_eq_none_iff (parts : Parts) (f : Field) :
    parts.update f.1 f.2 = none ↔ f.taken = false := by
  constructor
  · intro hnone
    rw [← Bool.not_eq_true]
    intro htaken
    obtain ⟨parts', hsome⟩ := parts.update_taken htaken
    rw [hnone] at hsome
    cases hsome
  · obtain ⟨hd, v⟩ := f
    cases hd with
    | other s =>
      intro h
      simp only [Field.taken, Bool.and_eq_false_iff, isSome_eq_false_iff, isNone_iff_eq_none] at h
      simp only [Parts.update, Headers.append, HeaderName.fromBytes, HeaderValue.fromBytes]
      split
      · rfl
      · rename_i name hname
        rw [hname] at h
        have hval : ¬ v.all isValidValueByte = true := by simpa using h
        rw [bind_some, dif_neg hval]
        rfl
    | authority | method | path | scheme | status =>
      intro h
      cases h

theorem Updater.addLine_panic_iff (u : Updater) (table : DynamicTable) (f : Field) :
    (u.addLine table f.1 f.2).2 = .error .panic ↔
      u.lines.headerSize + f.size ≤ u.headerListSize ∧ f.taken = false := by
  rw [← u.lines.parts.update_eq_none_iff f, Field.size, addLine]
  dsimp only
  split
  · rename_i hsize
    simp only [reduceCtorEq, Except.error.injEq, false_iff, not_and]
    omega
  · rename_i hsize
    split
    · rename_i hnone
      simp only [hnone, true_iff, and_true]
      omega
    · rename_i parts hsome
      simp [hsome]

theorem Updater.update_panic_iff (u : Updater) (repr : Representation) :
    (u.update repr).2 = .error .panic ↔ u.Chokes repr := by
  cases repr with
  | sizeUpdate maxSize => simp [update, Chokes, field]
  | indexed index =>
    simp only [update, updateIndexed, Chokes, field]
    split
    · rename_i h
      simp [h]
    · rename_i hd v h
      simp only [h, u.addLine_panic_iff u.table (hd, v), some.injEq, exists_eq_left']
  | literalWithIndexing n v | literalWithoutIndexing n v | literalNeverIndexed n v =>
    simp only [update, updateLiteralWithIndexing, updateLiteralWithoutIndexing, Chokes, field]
    split
    · rename_i h
      simp [h]
    · rename_i hd h
      simp only [h, map_some, u.addLine_panic_iff _ (hd, v), some.injEq, exists_eq_left']

theorem HpackDecoder.decode_panic_iff (d : HpackDecoder) (buf : Bytes) :
    (d.decode buf).2 = .error .panic ↔ d.Chokes buf := by
  have hdrive := @Library.drive_error_iff _ _ _ _ _ _ _ (.index .firstByte) Fault.error
    Updater.update reprDecodeState_consumes Fault.panic (fun e => by simp) buf.length d.updater
    d.holder buf le_rfl
  simp only [Updater.update_panic_iff] at hdrive
  rw [Chokes, ← hdrive, d.decode_eq_drive buf buf.length le_rfl, HpackDecoder.drive]
  split
  · rename_i h
    simp [h]
  · rename_i h
    simp [h]

/-! ## Frames -/

def FrameHeader.paddedLength (h : FrameHeader) (payload : Bytes) : ℕ :=
  if h.isPadded then (payload.headD 0).toNat else 0

/-- Where the fragment starts, after the padding length and `fields` more octets. -/
def FrameHeader.fragmentStart (h : FrameHeader) (fields : ℕ) : ℕ :=
  if h.isPadded then fields + 1 else fields

def FrameHeader.Fits (h : FrameHeader) (payload : Bytes) (fields : ℕ) : Prop :=
  (h.isPadded → h.paddedLength payload < h.payloadLength) ∧
    h.fragmentStart fields ≤ h.payloadLength - h.paddedLength payload

def FrameHeader.priorityLength (h : FrameHeader) : ℕ := if h.isHeadersPriority then 5 else 0

def FrameHeader.fragment (h : FrameHeader) (payload : Bytes) : Bytes :=
  (payload.take (h.payloadLength - h.paddedLength payload)).drop
    (h.fragmentStart h.priorityLength)

/-- The payloads on which the decoder panics. PUSH_PROMISE gives its whole payload to the
decoder of header blocks. -/
inductive DefectivePayload (s : Session) (h : FrameHeader) (payload : Bytes) : Prop
  | padding (type : h.frameType = 1 ∨ h.frameType = 5) (padded : h.isPadded)
      (empty : payload = [])
  | headers (type : h.frameType = 1) (fits : h.Fits payload h.priorityLength)
      (nonempty : h.isPadded → payload ≠ []) (chokes : s.hpack.Chokes (h.fragment payload))
  | pushPromise (type : h.frameType = 5) (fits : h.Fits payload 4)
      (nonempty : h.isPadded → payload ≠ []) (chokes : s.hpack.Chokes payload)
  | continuation (type : h.frameType = 9) (chokes : s.hpack.Chokes payload)

/-- A complete frame on a stream, in place, with such a payload. -/
structure Received.Defective (frame : Received) : Prop where
  accepted : frame.decoder.session.refuses frame.header = false
  complete : frame.header.payloadLength ≤ frame.decoder.buffer.length + frame.octets.length
  stream : frame.header.streamId ≠ 0
  payload : DefectivePayload frame.decoder.session frame.header
    ((frame.decoder.buffer ++ frame.octets).take frame.header.payloadLength)

namespace FrameDecoder

variable {d : FrameDecoder} {buf : Bytes}

theorem withPayload_bare (hoffset : d.offset = 0)
    (next : FrameDecoder → Bytes → FrameDecoder × Except (Fault H2Error) FrameKind) :
    d.withPayload buf next = next d buf := by
  simp [withPayload, hoffset]

theorem hpackDecode_panic_iff
    {next : FrameDecoder → FrameDecoder × Except (Fault H2Error) FrameKind}
    (hnext : ∀ hpack, (next { d with hpack }).2 ≠ .error .panic) :
    (d.hpackDecode buf next).2 = .error .panic ↔ d.hpack.Chokes buf := by
  rw [← d.hpack.decode_panic_iff, hpackDecode]
  rcases d.hpack.decode buf with ⟨hpack, e | _⟩
  · simp
  · simpa using hnext hpack

theorem hpackFinish_ne_panic
    {next : FrameDecoder → Parts → FrameDecoder × Except (Fault H2Error) FrameKind}
    (hnext : ∀ hpack parts, (next { d with hpack } parts).2 ≠ .error .panic) :
    (d.hpackFinish next).2 ≠ .error .panic := by
  rw [hpackFinish]
  rcases d.hpack.finish with ⟨hpack, e | parts⟩
  · simp
  · exact hnext hpack parts

theorem withFragment_panic_iff {start : ℕ}
    {next : ℕ → ℕ → FrameDecoder × Except (Fault H2Error) FrameKind} :
    (d.withFragment buf start next).2 = .error .panic ↔
      (d.header.isPadded ∧ buf = []) ∨
        (d.header.isPadded → buf ≠ [] ∧ d.header.paddedLength buf < d.header.payloadLength) ∧
          (next (d.header.fragmentStart start)
            (d.header.payloadLength - d.header.paddedLength buf)).2 = .error .panic := by
  rw [withFragment.eq_def, fragmentStart, paddedLength]
  cases hpad : d.header.isPadded with
  | false => simp
  | true =>
    cases buf with
    | nil => simp
    | cons b0 rest =>
      simp only [if_true, headD_cons, true_and, reduceCtorEq, false_or, forall_const,
        ne_eq, not_false_eq_true]
      split
      · rename_i hle
        simp only [Except.error.injEq, reduceCtorEq, false_iff, not_and]
        omega
      · rename_i hlt
        simp only [show b0.toNat < d.header.payloadLength by omega, true_and]

theorem fragmentStart_priority (h : FrameHeader) :
    (if h.isHeadersPriority then h.fragmentStart 0 + 5 else h.fragmentStart 0) =
      h.fragmentStart h.priorityLength := by
  simp only [fragmentStart, priorityLength]
  cases h.isPadded <;> cases h.isHeadersPriority <;> rfl

theorem decodeHeadersPayload_panic_iff (hoffset : d.offset = 0)
    (hlen : buf.length = d.header.payloadLength) (hid : d.header.streamId ≠ 0) :
    (d.decodeHeadersPayload buf).2 = .error .panic ↔
      (d.header.isPadded ∧ buf = []) ∨
        d.header.Fits buf d.header.priorityLength ∧ (d.header.isPadded → buf ≠ []) ∧
          d.hpack.Chokes (d.header.fragment buf) := by
  rw [decodeHeadersPayload, if_neg (by simpa [isConnectionFrame] using hid),
    withPayload_bare hoffset, withFragment_panic_iff]
  simp only [fragmentStart_priority]
  refine or_congr Iff.rfl ?_
  rw [FrameHeader.Fits, if_neg (c := buf.length < _) (by omega)]
  split
  · rename_i hstart
    simp only [Except.error.injEq, reduceCtorEq, and_false, false_iff, not_and]
    omega
  · rename_i hstart
    have hchokes : (if d.header.isEndHeaders then
        d.hpackDecode (d.header.fragment buf) fun d => d.hpackFinish fun d headers =>
          (d, .ok (d.completeFrame (.headers headers)))
      else
        ({ d with
          continuations :=
            { d.continuations with
              flags := d.header.flags, isEndStream := d.header.isEndStream
              isEndHeaders := false, streamId := d.header.streamId } } : FrameDecoder).hpackDecode
          (d.header.fragment buf) fun d => (d, .ok .partialFrame)).2 = .error .panic ↔
        d.hpack.Chokes (d.header.fragment buf) := by
      split
      · exact hpackDecode_panic_iff fun hpack => hpackFinish_ne_panic fun hpack parts => by simp
      · exact hpackDecode_panic_iff fun hpack => by simp
    rw [← hchokes]
    constructor
    · rintro ⟨hpad, hpanic⟩
      exact ⟨⟨fun h => (hpad h).2, by omega⟩, fun h => (hpad h).1, hpanic⟩
    · rintro ⟨⟨hpad, -⟩, hne, hpanic⟩
      exact ⟨fun h => ⟨hne h, hpad h⟩, hpanic⟩

theorem pushPromiseFraming_ne_panic (promised : StreamId) :
    (d.pushPromiseFraming promised).2 ≠ .error .panic := by
  rw [pushPromiseFraming]
  split
  · exact hpackFinish_ne_panic fun hpack parts => by simp
  · simp

theorem octets_of_promised {octets : Bytes} (h : 4 ≤ octets.length) :
    ∃ b0 b1 b2 b3 rest, octets = b0 :: b1 :: b2 :: b3 :: rest := by
  rcases octets with _ | ⟨b0, _ | ⟨b1, _ | ⟨b2, _ | ⟨b3, rest⟩⟩⟩⟩ <;> simp at h
  exact ⟨b0, b1, b2, b3, rest, rfl⟩

theorem decodePushPromisePayload_panic_iff (hoffset : d.offset = 0)
    (hlen : buf.length = d.header.payloadLength) (hid : d.header.streamId ≠ 0) :
    (d.decodePushPromisePayload buf).2 = .error .panic ↔
      (d.header.isPadded ∧ buf = []) ∨
        d.header.Fits buf 4 ∧ (d.header.isPadded → buf ≠ []) ∧ d.hpack.Chokes buf := by
  rw [decodePushPromisePayload, if_neg (by simpa [isConnectionFrame] using hid),
    withPayload_bare hoffset, withFragment_panic_iff]
  refine or_congr Iff.rfl ?_
  rw [FrameHeader.Fits]
  split
  · rename_i hstart
    simp only [Except.error.injEq, reduceCtorEq, and_false, false_iff, not_and]
    omega
  · rename_i hstart
    -- The four octets of the promised stream are there.
    obtain ⟨b0, b1, b2, b3, rest, hpromised⟩ : ∃ b0 b1 b2 b3 rest,
        (if d.header.isPadded then buf.drop 1 else buf) = b0 :: b1 :: b2 :: b3 :: rest := by
      refine octets_of_promised ?_
      cases hpad : d.header.isPadded <;>
        simp [fragmentStart, hpad] at hstart ⊢ <;> omega
    rw [hpackDecode_panic_iff]
    · constructor
      · rintro ⟨hpad, hpanic⟩
        exact ⟨⟨fun h => (hpad h).2, by omega⟩, fun h => (hpad h).1, hpanic⟩
      · rintro ⟨⟨hpad, -⟩, hne, hpanic⟩
        exact ⟨fun h => ⟨hne h, hpad h⟩, hpanic⟩
    · intro hpack
      simp only [hpromised]
      split
      · simp
      · exact pushPromiseFraming_ne_panic _

theorem decodeContinuationPayload_panic_iff (hoffset : d.offset = 0)
    (hid : d.header.streamId ≠ 0) :
    (d.decodeContinuationPayload buf).2 = .error .panic ↔ d.hpack.Chokes buf := by
  rw [decodeContinuationPayload, if_neg (by simpa [isConnectionFrame] using hid),
    withPayload_bare hoffset]
  split
  · exact hpackDecode_panic_iff fun hpack => hpackFinish_ne_panic fun hpack parts => by simp
  · exact hpackDecode_panic_iff fun hpack => by simp

theorem decodeDataPayload_ne_panic (hoffset : d.offset = 0)
    (hlen : buf.length = d.header.payloadLength) :
    (d.decodeDataPayload buf).2 ≠ .error .panic := by
  rw [decodeDataPayload]
  split
  · simp
  · rw [withPayload_bare hoffset]
    split
    · simp
    · split
      · split
        · simp_all
        · dsimp only
          split
          · simp
          · rw [if_neg (by omega)]
            simp
      · rw [if_neg (by omega)]
        simp

theorem decodePriorityPayload_ne_panic (hoffset : d.offset = 0) :
    (d.decodePriorityPayload buf).2 ≠ .error .panic := by
  rw [decodePriorityPayload]
  split
  · simp
  · split
    · simp
    · rename_i hlen
      rw [withPayload_bare hoffset]
      split
      · simp
      · simp only [ne_eq, not_or, not_not] at hlen
        rcases buf with _ | ⟨_, _ | ⟨_, _ | ⟨_, _ | ⟨_, _ | ⟨_, _⟩⟩⟩⟩⟩ <;> simp_all

theorem decodeResetPayload_ne_panic (hoffset : d.offset = 0) :
    (d.decodeResetPayload buf).2 ≠ .error .panic := by
  rw [decodeResetPayload]
  split
  · simp
  · rw [withPayload_bare hoffset]
    split
    · simp
    · rename_i hlen
      simp only [ne_eq, not_or, not_not] at hlen
      rcases buf with _ | ⟨_, _ | ⟨_, _ | ⟨_, _ | ⟨_, _⟩⟩⟩⟩ <;> simp_all

theorem decodeWindowUpdatePayload_ne_panic (hoffset : d.offset = 0) :
    (d.decodeWindowUpdatePayload buf).2 ≠ .error .panic := by
  rw [decodeWindowUpdatePayload, withPayload_bare hoffset]
  split
  · simp
  · rename_i hlen
    simp only [ne_eq, not_or, not_not] at hlen
    split
    · dsimp only
      split <;> simp
    · rcases buf with _ | ⟨_, _ | ⟨_, _ | ⟨_, _ | ⟨_, _⟩⟩⟩⟩ <;> simp_all

theorem decodeGoawayPayload_ne_panic (hoffset : d.offset = 0) :
    (d.decodeGoawayPayload buf).2 ≠ .error .panic := by
  rw [decodeGoawayPayload]
  split
  · simp
  · rw [withPayload_bare hoffset]
    split
    · simp
    · rename_i hlen
      simp only [not_or, not_lt] at hlen
      rcases buf with
        _ | ⟨_, _ | ⟨_, _ | ⟨_, _ | ⟨_, _ | ⟨_, _ | ⟨_, _ | ⟨_, _ | ⟨_, _⟩⟩⟩⟩⟩⟩⟩⟩ <;> simp_all

theorem decodePingPayload_ne_panic (hoffset : d.offset = 0) :
    (d.decodePingPayload buf).2 ≠ .error .panic := by
  rw [decodePingPayload]
  split
  · simp
  · rw [withPayload_bare hoffset]
    split <;> simp

theorem splitSettings_ne_panic (payload : Bytes) (h : payload.length % 6 = 0) :
    splitSettings payload ≠ .error .panic := by
  induction payload using splitSettings.induct with
  | case1 => simp [splitSettings]
  | case2 t0 t1 t2 t3 t4 t5 rest e hset => simp [splitSettings, hset]
  | case3 t0 t1 t2 t3 t4 t5 rest setting hset e hrest ih =>
    simp only [length_cons] at h
    have hne := ih (by omega)
    rw [hrest] at hne
    simpa [splitSettings, hset, hrest] using hne
  | case4 t0 t1 t2 t3 t4 t5 rest setting hset settings hrest ih => simp [splitSettings, hset, hrest]
  | case5 octets hnil hsix =>
    rcases octets with _ | ⟨t0, _ | ⟨t1, _ | ⟨t2, _ | ⟨t3, _ | ⟨t4, _ | ⟨t5, rest⟩⟩⟩⟩⟩⟩
    · exact absurd rfl hnil
    iterate 5 simp at h
    · exact absurd rfl (hsix t0 t1 t2 t3 t4 t5 rest)

theorem decodeSettingsPayload_ne_panic (hoffset : d.offset = 0)
    (hlen : buf.length = d.header.payloadLength) :
    (d.decodeSettingsPayload buf).2 ≠ .error .panic := by
  rw [decodeSettingsPayload]
  split
  · simp
  · rw [withPayload_bare hoffset]
    split
    · simp
    · rename_i hsix
      split
      · split <;> simp
      · have hne := splitSettings_ne_panic buf (by omega)
        split
        · rename_i e he
          rw [he] at hne
          simpa using hne
        · simp

theorem decodePayload_ne_panic (hoffset : d.offset = 0)
    (hlen : buf.length = d.header.payloadLength) (h1 : d.header.frameType ≠ 1)
    (h5 : d.header.frameType ≠ 5) (h9 : d.header.frameType ≠ 9) :
    (d.decodePayload buf).2 ≠ .error .panic := by
  rw [decodePayload.eq_def]
  split
  · exact decodeDataPayload_ne_panic hoffset hlen
  · exact absurd ‹_› h1
  · exact decodePriorityPayload_ne_panic hoffset
  · exact decodeResetPayload_ne_panic hoffset
  · exact decodeSettingsPayload_ne_panic hoffset hlen
  · exact absurd ‹_› h5
  · exact decodePingPayload_ne_panic hoffset
  · exact decodeGoawayPayload_ne_panic hoffset
  · exact decodeWindowUpdatePayload_ne_panic hoffset
  · exact absurd ‹_› h9
  · simp

theorem decodePayload_connection (h : d.header.streamId = 0)
    (htype : d.header.frameType = 1 ∨ d.header.frameType = 5 ∨ d.header.frameType = 9) :
    (d.decodePayload buf).2 ≠ .error .panic := by
  have hconn : isConnectionFrame d.header.streamId = true := by simp [isConnectionFrame, h]
  rcases htype with htype | htype | htype
  · simp [decodePayload, htype, decodeHeadersPayload, hconn]
  · simp [decodePayload, htype, decodePushPromisePayload, hconn]
  · simp [decodePayload, htype, decodeContinuationPayload, hconn]

theorem decodePayload_panic_iff (hoffset : d.offset = 0)
    (hlen : buf.length = d.header.payloadLength) :
    (d.decodePayload buf).2 = .error .panic ↔
      d.header.streamId ≠ 0 ∧ DefectivePayload d.session d.header buf := by
  constructor
  · intro hpanic
    have htype : d.header.frameType = 1 ∨ d.header.frameType = 5 ∨ d.header.frameType = 9 := by
      by_contra hother
      simp only [not_or] at hother
      exact decodePayload_ne_panic hoffset hlen hother.1 hother.2.1 hother.2.2 hpanic
    have hid : d.header.streamId ≠ 0 := fun h => decodePayload_connection h htype hpanic
    refine ⟨hid, ?_⟩
    rcases htype with htype | htype | htype
    · simp only [decodePayload, htype] at hpanic
      rcases (decodeHeadersPayload_panic_iff hoffset hlen hid).mp hpanic with
        ⟨hpad, hempty⟩ | ⟨hfits, hne, hchokes⟩
      · exact .padding (.inl htype) hpad hempty
      · exact .headers htype hfits hne hchokes
    · simp only [decodePayload, htype] at hpanic
      rcases (decodePushPromisePayload_panic_iff hoffset hlen hid).mp hpanic with
        ⟨hpad, hempty⟩ | ⟨hfits, hne, hchokes⟩
      · exact .padding (.inr htype) hpad hempty
      · exact .pushPromise htype hfits hne hchokes
    · simp only [decodePayload, htype] at hpanic
      exact .continuation htype ((decodeContinuationPayload_panic_iff hoffset hid).mp hpanic)
  · rintro ⟨hid, hdefect⟩
    cases hdefect with
    | padding type padded empty =>
      rcases type with type | type
      · simp only [decodePayload, type]
        exact (decodeHeadersPayload_panic_iff hoffset hlen hid).mpr (.inl ⟨padded, empty⟩)
      · simp only [decodePayload, type]
        exact (decodePushPromisePayload_panic_iff hoffset hlen hid).mpr (.inl ⟨padded, empty⟩)
    | headers type fits nonempty chokes =>
      simp only [decodePayload, type]
      exact (decodeHeadersPayload_panic_iff hoffset hlen hid).mpr (.inr ⟨fits, nonempty, chokes⟩)
    | pushPromise type fits nonempty chokes =>
      simp only [decodePayload, type]
      exact (decodePushPromisePayload_panic_iff hoffset hlen hid).mpr
        (.inr ⟨fits, nonempty, chokes⟩)
    | continuation type chokes =>
      simp only [decodePayload, type]
      exact (decodeContinuationPayload_panic_iff hoffset hid).mpr chokes

end FrameDecoder

theorem Session.receive_panic_iff (s : Session) (cut : Bool) {h : FrameHeader} {payload : Bytes}
    (hlen : payload.length = h.payloadLength) :
    (s.receive cut h payload).2 = .error .panic ↔
      h.streamId ≠ 0 ∧ DefectivePayload s h payload := by
  rw [Session.receive]
  split
  · rename_i hcut
    have htype : h.frameType = 2 := by simp at hcut; tauto
    simp only [Except.error.injEq, reduceCtorEq, false_iff, not_and]
    rintro - (⟨h | h, -, -⟩ | ⟨h, -, -⟩ | ⟨h, -, -⟩ | ⟨h, -⟩) <;> simp [htype] at h
  · exact FrameDecoder.decodePayload_panic_iff (d := s.decoder h) rfl hlen

/-! ## Calls -/

namespace FrameDecoder

theorem decodeFramePayload_panic_iff {d d' : FrameDecoder} {buf : Bytes}
    {r : Except (Fault H2Error) (Option (Bytes × FrameKind))}
    {result : Except (Fault H2Error) FrameKind} (hstage : d.stage = .payload)
    (hsound : d.Sound) (hround : d.decodeFramePayload buf = (d', r)) :
    r = .error .panic ↔ Received.Defective { decoder := d, octets := buf, result } := by
  rw [Sound, hstage] at hsound
  obtain ⟨hoff, hle⟩ := hsound
  rw [hoff] at hle
  obtain ⟨b, -, hdec⟩ := decodeFramePayload_waiting d.maxFrameSize d.session buf hle
  rw [← eq_waiting hstage hoff, hround] at hdec
  have hdefective : Received.Defective { decoder := d, octets := buf, result } ↔
      d.session.refuses d.header = false ∧
        d.header.payloadLength ≤ d.buffer.length + buf.length ∧ d.header.streamId ≠ 0 ∧
        DefectivePayload d.session d.header ((d.buffer ++ buf).take d.header.payloadLength) :=
    ⟨fun h => ⟨h.accepted, h.complete, h.stream, h.payload⟩, fun h =>
      ⟨h.1, h.2.1, h.2.2.1, h.2.2.2⟩⟩
  rw [hdefective]
  split at hdec
  · rename_i hrefuses
    obtain ⟨-, rfl⟩ := Prod.mk.inj hdec
    simp [hrefuses]
  · rename_i hacc
    rw [Bool.not_eq_true] at hacc
    split at hdec
    · rename_i hshort
      obtain ⟨-, rfl⟩ := Prod.mk.inj hdec
      rw [length_append] at hshort
      simp only [reduceCtorEq, false_iff, not_and]
      omega
    · rename_i hlong
      rw [length_append, not_lt] at hlong
      have hpanic := d.session.receive_panic_iff (d.buffer ≠ []) (h := d.header)
        (show ((d.buffer ++ buf).take d.header.payloadLength).length = d.header.payloadLength by
          rw [length_take, length_append]
          omega)
      simp only [hacc, hlong, true_and]
      rw [← hpanic]
      split at hdec
      · rename_i s' e hreceive
        obtain ⟨-, rfl⟩ := Prod.mk.inj hdec
        rw [hreceive]
        simp
      · rename_i s' frame hreceive
        obtain ⟨-, rfl⟩ := Prod.mk.inj hdec
        rw [hreceive]
        simp

theorem Rounds.panic_iff {d last : FrameDecoder} {buf : Bytes} {frames : List Received}
    {fault : Option (Fault H2Error)} (h : Rounds d buf frames last fault) (hsound : d.Sound) :
    fault = some .panic ↔ ∃ frame ∈ frames, frame.Defective := by
  induction h with
  | stop d buf => simp
  | headerWaits stage round => simp
  | headerFails stage round =>
    obtain ⟨-, -, ⟨h | h, -⟩ | ⟨remain, h, -⟩⟩ := decodeFrameHeader_sound stage hsound round
    · cases h
    · cases h
      simp
    · cases h
  | header stage round later ih =>
    obtain ⟨-, -, ⟨h | h, -⟩ | ⟨remain, -, h⟩⟩ := decodeFrameHeader_sound stage hsound round
    · cases h
    · cases h
    · exact ih h
  | payloadWaits stage round => simp
  | @payloadFails d d' buf e stage round =>
    have hpanic := @decodeFramePayload_panic_iff _ _ _ _ (.error e) stage hsound round
    simp only [Except.error.injEq] at hpanic
    simp [hpanic]
  | @payload d d' last buf remain frame frames fault stage round later ih =>
    have hpanic := @decodeFramePayload_panic_iff _ _ _ _ (.ok frame) stage hsound round
    simp only [reduceCtorEq, false_iff] at hpanic
    obtain ⟨h | ⟨e, h⟩, -⟩ | ⟨_, _, -, h⟩ := decodeFramePayload_sound stage hsound round
    · cases h
    · cases h
    · simp [ih h, hpanic]

end FrameDecoder

/-- A call of `decode` on a decoder that calls lead to returns if and only if none of the
frames it comes to is defective. -/
theorem frameDecoder_returns_iff {d : FrameDecoder} {past : List Received} (h : d.Reached past)
    (buf : Bytes) :
    (d.decode buf).2 ≠ .error .panic ↔ ∀ frame ∈ d.received buf, ¬ frame.Defective := by
  have hpanic := (d.decode_rounds buf).panic_iff h.sound
  have hfault : FrameDecoder.faultOf (d.decode buf).2 = some .panic ↔
      (d.decode buf).2 = .error .panic := by
    rcases (d.decode buf).2 with e | frames <;> simp [FrameDecoder.faultOf]
  rw [← not_iff_not, not_not, ← hfault, hpanic]
  simp

/-- A HEADERS frame whose header block is in order. -/
theorem frameDecoder_returns_headers :
    FrameDecoder.new.received [0, 0, 1, 1, 4, 0, 0, 0, 1, 0x82] ≠ [] ∧
      ∀ frame ∈ FrameDecoder.new.received [0, 0, 1, 1, 4, 0, 0, 0, 1, 0x82], ¬ frame.Defective :=
  ⟨by decide, (frameDecoder_returns_iff .new _).mp (by decide)⟩

/-- A padded HEADERS frame without a payload. -/
theorem frameDecoder_panics_padded :
    FrameDecoder.new.Reached [] ∧
      (FrameDecoder.new.decode [0, 0, 0, 1, 8, 0, 0, 0, 1]).2 = .error .panic :=
  ⟨.new, by decide⟩

end YlongHttp
