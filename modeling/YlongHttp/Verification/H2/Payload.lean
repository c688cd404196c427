import YlongHttp.Model.H2.Decoder

/-! # Payloads that come in pieces

The decoder of a payload sees the whole payload, whatever part of it came earlier: only
PRIORITY looks at the length of the last piece. -/

namespace YlongHttp.FrameDecoder

variable {d : FrameDecoder} {buf : Bytes}

/-- The part of a decoder that the payload decoders do not look at, unless a piece of the
payload came earlier. -/
structure Framing where
  buffer : Bytes
  maxFrameSize : UInt32
  stage : Stage

def framing (self : FrameDecoder) : Framing :=
  { buffer := self.buffer, maxFrameSize := self.maxFrameSize, stage := self.stage }

def reframe (self : FrameDecoder) (f : Framing) : FrameDecoder :=
  { self with
    buffer := f.buffer, offset := f.buffer.length, maxFrameSize := f.maxFrameSize
    stage := f.stage }

@[simp] theorem reframe_header (d : FrameDecoder) (f : Framing) :
    (d.reframe f).header = d.header := rfl

@[simp] theorem reframe_hpack (d : FrameDecoder) (f : Framing) :
    (d.reframe f).hpack = d.hpack := rfl

@[simp] theorem reframe_reframe (d : FrameDecoder) (f f' : Framing) :
    (d.reframe f).reframe f' = d.reframe f' := rfl

theorem reframe_framing (h : d.offset = d.buffer.length) : d.reframe d.framing = d := by
  simp only [reframe, framing, ← h]

def Blind (f : FrameDecoder → FrameDecoder × Except (Fault H2Error) FrameKind) : Prop :=
  ∀ d b, f (d.reframe b) = ((f d).1.reframe b, (f d).2) ∧ (f d).1.header = d.header

theorem Blind.ok (k : FrameDecoder → FrameKind) (hk : ∀ d b, k (d.reframe b) = k d) :
    Blind fun d => (d, .ok (k d)) := by
  intro d b
  simp only [hk, and_self]

theorem Blind.error (e : FrameDecoder → Fault H2Error) (he : ∀ d b, e (d.reframe b) = e d) :
    Blind fun d => (d, .error (e d)) := by
  intro d b
  simp only [he, and_self]

theorem Blind.ite {c : FrameDecoder → Prop} [∀ d, Decidable (c d)]
    {f g : FrameDecoder → FrameDecoder × Except (Fault H2Error) FrameKind}
    (hc : ∀ d b, c (d.reframe b) ↔ c d) (hf : Blind f) (hg : Blind g) :
    Blind fun d => if c d then f d else g d := by
  intro d b
  by_cases h : c d
  · simp only [(hc d b).mpr h, h, if_true, hf d b, and_self]
  · simp only [mt (hc d b).mp h, h, if_false, hg d b, and_self]

theorem Blind.hpackDecode {next : FrameDecoder → FrameDecoder × Except (Fault H2Error) FrameKind}
    (h : Blind next) : Blind fun d => d.hpackDecode buf next := by
  intro d b
  simp only [FrameDecoder.hpackDecode, reframe_hpack]
  rcases d.hpack.decode buf with ⟨hpack, _ | _⟩
  · exact ⟨rfl, rfl⟩
  · exact h { d with hpack } b

theorem Blind.hpackFinish
    {next : FrameDecoder → Parts → FrameDecoder × Except (Fault H2Error) FrameKind}
    (h : ∀ parts, Blind fun d => next d parts) : Blind fun d => d.hpackFinish next := by
  intro d b
  simp only [FrameDecoder.hpackFinish, reframe_hpack]
  rcases d.hpack.finish with ⟨hpack, _ | parts⟩
  · exact ⟨rfl, rfl⟩
  · exact h parts { d with hpack } b

theorem blind_completeFrame (payload : Payload) :
    Blind fun d => (d, .ok (d.completeFrame payload)) :=
  .ok _ fun _ _ => rfl

def Framing.bare : Framing :=
  { buffer := [], maxFrameSize := defaultMaxFrameSize, stage := .payload }

/-- A payload that comes in pieces is decoded as the whole payload is: with the same result
and the same effect but for the buffer, which keeps what it had or gets the payload. -/
def AsWhole (d : FrameDecoder) (buf : Bytes)
    (f : FrameDecoder → Bytes → FrameDecoder × Except (Fault H2Error) FrameKind) : Prop :=
  (f (d.reframe .bare) (d.buffer ++ buf)).1.header = d.header ∧
  ∃ b, (b = d.buffer ∨ b = d.buffer ++ buf) ∧
    f d buf = ((f (d.reframe .bare) (d.buffer ++ buf)).1.reframe { d.framing with buffer := b },
      (f (d.reframe .bare) (d.buffer ++ buf)).2)

theorem AsWhole.withPayload (hd : d.offset = d.buffer.length) (buf : Bytes)
    {next : FrameDecoder → Bytes → FrameDecoder × Except (Fault H2Error) FrameKind}
    (h : ∀ p, Blind fun d => next d p) : AsWhole d buf fun d buf => d.withPayload buf next := by
  have hwhole : (d.reframe .bare).withPayload (d.buffer ++ buf) next =
      next (d.reframe .bare) (d.buffer ++ buf) := by
    simp [FrameDecoder.withPayload, reframe, Framing.bare]
  simp only [AsWhole, hwhole]
  refine ⟨(h (d.buffer ++ buf) (d.reframe .bare) .bare).2, ?_⟩
  by_cases ho : d.offset = 0
  · have hnil : d.buffer = [] := List.length_eq_zero_iff.mp (by omega)
    refine ⟨d.buffer, .inl rfl, ?_⟩
    rw [← (h (d.buffer ++ buf) (d.reframe .bare) _).1, reframe_reframe]
    change _ = next (d.reframe d.framing) _
    rw [reframe_framing hd]
    simp [FrameDecoder.withPayload, ho, hnil]
  · refine ⟨d.buffer ++ buf, .inr rfl, ?_⟩
    rw [← (h (d.buffer ++ buf) (d.reframe .bare) _).1, reframe_reframe]
    simp only [FrameDecoder.withPayload, ne_eq, ho, not_false_eq_true, if_true]
    simp only [reframe, framing, hd, List.length_append]

theorem AsWhole.guard {f : FrameDecoder → Bytes → FrameDecoder × Except (Fault H2Error) FrameKind}
    (hd : d.offset = d.buffer.length) (c : FrameHeader → Bool) (e : Fault H2Error)
    (h : AsWhole d buf f) :
    AsWhole d buf fun d buf => if c d.header then (d, .error e) else f d buf := by
  by_cases hc : c d.header = true
  · simp only [AsWhole, reframe_header, hc, if_true, reframe_reframe, true_and]
    refine ⟨d.buffer, .inl rfl, ?_⟩
    change _ = (d.reframe d.framing, _)
    rw [reframe_framing hd]
  · simpa only [AsWhole, reframe_header, hc, Bool.false_eq_true, if_false] using h

theorem decodeDataPayload_asWhole (hd : d.offset = d.buffer.length) (buf : Bytes) :
    AsWhole d buf decodeDataPayload := by
  refine AsWhole.guard hd (fun h => isConnectionFrame h.streamId) _ (.withPayload hd buf ?_)
  intro p
  refine .ite (fun _ _ => Iff.rfl) (blind_completeFrame _) (.ite (fun _ _ => Iff.rfl) ?_ ?_)
  · cases p with
    | nil => exact .error _ fun _ _ => rfl
    | cons b0 rest =>
      refine .ite (fun _ _ => Iff.rfl) (.error _ fun _ _ => rfl) ?_
      exact .ite (fun _ _ => Iff.rfl) (.error _ fun _ _ => rfl) (.ok _ fun _ _ => rfl)
  · exact .ite (fun _ _ => Iff.rfl) (.error _ fun _ _ => rfl) (.ok _ fun _ _ => rfl)

theorem decodeResetPayload_asWhole (hd : d.offset = d.buffer.length) (buf : Bytes) :
    AsWhole d buf decodeResetPayload := by
  refine AsWhole.guard hd (fun h => isConnectionFrame h.streamId) _ (.withPayload hd buf ?_)
  intro p
  refine .ite (fun _ _ => Iff.rfl) (.error _ fun _ _ => rfl) ?_
  intro d b
  rcases p with _ | ⟨_, _ | ⟨_, _ | ⟨_, _ | ⟨_, _⟩⟩⟩⟩ <;> exact ⟨rfl, rfl⟩

theorem decodeSettingsPayload_asWhole (hd : d.offset = d.buffer.length) (buf : Bytes) :
    AsWhole d buf decodeSettingsPayload := by
  refine AsWhole.guard hd (fun h => !isConnectionFrame h.streamId) _ (.withPayload hd buf ?_)
  intro p
  refine .ite (fun _ _ => Iff.rfl) (.error _ fun _ _ => rfl) (.ite (fun _ _ => Iff.rfl) ?_ ?_)
  · exact .ite (fun _ _ => Iff.rfl) (.error _ fun _ _ => rfl) (blind_completeFrame _)
  · cases splitSettings p with
    | error e => exact .error _ fun _ _ => rfl
    | ok settings => exact blind_completeFrame _

theorem decodePingPayload_asWhole (hd : d.offset = d.buffer.length) (buf : Bytes) :
    AsWhole d buf decodePingPayload := by
  refine AsWhole.guard hd (fun h => !isConnectionFrame h.streamId) _ (.withPayload hd buf ?_)
  intro p d b
  beta_reduce
  by_cases h : d.header.payloadLength ≠ 8 ∨ p.length ≠ 8
  · rw [dif_pos (c := (d.reframe b).header.payloadLength ≠ 8 ∨ p.length ≠ 8) h, dif_pos h]
    exact ⟨rfl, rfl⟩
  · rw [dif_neg (c := (d.reframe b).header.payloadLength ≠ 8 ∨ p.length ≠ 8) h, dif_neg h]
    exact ⟨rfl, rfl⟩

theorem decodeGoawayPayload_asWhole (hd : d.offset = d.buffer.length) (buf : Bytes) :
    AsWhole d buf decodeGoawayPayload := by
  refine AsWhole.guard hd (fun h => !isConnectionFrame h.streamId) _ (.withPayload hd buf ?_)
  intro p
  refine .ite (fun _ _ => Iff.rfl) (.error _ fun _ _ => rfl) ?_
  intro d b
  rcases p with _ | ⟨_, _ | ⟨_, _ | ⟨_, _ | ⟨_, _ | ⟨_, _ | ⟨_, _ | ⟨_, _ | ⟨_, _⟩⟩⟩⟩⟩⟩⟩⟩ <;>
    exact ⟨rfl, rfl⟩

theorem decodeWindowUpdatePayload_asWhole (hd : d.offset = d.buffer.length) (buf : Bytes) :
    AsWhole d buf decodeWindowUpdatePayload := by
  refine AsWhole.withPayload hd buf ?_
  intro p
  refine .ite (fun _ _ => Iff.rfl) (.error _ fun _ _ => rfl) ?_
  rcases p with _ | ⟨b0, _ | ⟨b1, _ | ⟨b2, _ | ⟨b3, rest⟩⟩⟩⟩
  iterate 4 exact .error _ fun _ _ => rfl
  exact .ite (fun _ _ => Iff.rfl) (.error _ fun _ _ => rfl) (blind_completeFrame _)

theorem decodeContinuationPayload_asWhole (hd : d.offset = d.buffer.length) (buf : Bytes) :
    AsWhole d buf decodeContinuationPayload := by
  refine AsWhole.guard hd (fun h => isConnectionFrame h.streamId) _ (.withPayload hd buf ?_)
  intro p
  refine .ite (fun _ _ => Iff.rfl) (.hpackDecode (.hpackFinish ?_))
    (.hpackDecode (.ok _ fun _ _ => rfl))
  intro parts d b
  exact ⟨rfl, rfl⟩

theorem Blind.withFragment {p : Bytes} {start : ℕ}
    {next : FrameDecoder → ℕ → ℕ → FrameDecoder × Except (Fault H2Error) FrameKind}
    (h : ∀ i j, Blind fun d => next d i j) :
    Blind fun d => d.withFragment p start (next d) := by
  refine .ite (fun _ _ => Iff.rfl) ?_ fun d b => h start d.header.payloadLength d b
  cases p with
  | nil => exact .error _ fun _ _ => rfl
  | cons b0 rest =>
    refine .ite (fun _ _ => Iff.rfl) (.error _ fun _ _ => rfl) ?_
    exact fun d b => h (start + 1) (d.header.payloadLength - b0.toNat) d b

theorem decodeHeadersPayload_asWhole (hd : d.offset = d.buffer.length) (buf : Bytes) :
    AsWhole d buf decodeHeadersPayload := by
  refine AsWhole.guard hd (fun h => isConnectionFrame h.streamId) _ (.withPayload hd buf ?_)
  intro p
  refine .withFragment ?_
  intro i j
  refine .ite (fun _ _ => Iff.rfl) (.error _ fun _ _ => rfl)
    (.ite (fun _ _ => Iff.rfl) (.error _ fun _ _ => rfl) (.ite (fun _ _ => Iff.rfl) ?_ ?_))
  · exact fun d b => Blind.hpackDecode (.hpackFinish fun parts => blind_completeFrame _) d b
  · exact fun d b => Blind.hpackDecode (Blind.ok (fun _ => .partialFrame) fun _ _ => rfl)
      { d with continuations := _ } b

theorem blind_pushPromiseFraming (id : StreamId) : Blind fun d => d.pushPromiseFraming id :=
  .ite (fun _ _ => Iff.rfl) (.hpackFinish fun _ => blind_completeFrame _) fun _ _ => ⟨rfl, rfl⟩

theorem decodePushPromisePayload_asWhole (hd : d.offset = d.buffer.length) (buf : Bytes) :
    AsWhole d buf decodePushPromisePayload := by
  refine AsWhole.guard hd (fun h => isConnectionFrame h.streamId) _ (.withPayload hd buf ?_)
  intro p
  refine .withFragment ?_
  intro i j
  refine .ite (fun _ _ => Iff.rfl) (.error _ fun _ _ => rfl) (.hpackDecode ?_)
  intro d b
  beta_reduce
  rw [show (if (d.reframe b).header.isPadded = true then p.drop 1 else p) =
    if d.header.isPadded = true then p.drop 1 else p from rfl]
  rcases (if d.header.isPadded = true then p.drop 1 else p) with
    _ | ⟨b0, _ | ⟨b1, _ | ⟨b2, _ | ⟨b3, rest⟩⟩⟩⟩
  iterate 4 exact ⟨rfl, rfl⟩
  have hrest : Blind fun d => if isConnectionFrame (getStreamId b0 b1 b2 b3) then
      (d, .error (.error protocolError)) else d.pushPromiseFraming (getStreamId b0 b1 b2 b3) :=
    .ite (fun _ _ => Iff.rfl) (.error _ fun _ _ => rfl) (blind_pushPromiseFraming _)
  exact hrest d b

theorem blind_decodePriority (p : Bytes) : Blind fun d =>
    match p with
    | b0 :: b1 :: b2 :: b3 :: b4 :: _ =>
      (d, .ok (d.completeFrame (.priority
        { exclusive := b0 &&& 0x80 = 0x80
          streamDependency := getStreamId b0 b1 b2 b3
          weight := b4 })))
    | _ => (d, .error .panic) := by
  intro d b
  rcases p with _ | ⟨_, _ | ⟨_, _ | ⟨_, _ | ⟨_, _ | ⟨_, _⟩⟩⟩⟩⟩ <;> exact ⟨rfl, rfl⟩

theorem decodePriorityPayload_asWhole (hd : d.offset = d.buffer.length) (hcut : d.buffer = [])
    (buf : Bytes) : AsWhole d buf decodePriorityPayload := by
  refine AsWhole.guard hd (fun h => isConnectionFrame h.streamId) _ ?_
  have hpay := AsWhole.withPayload hd buf blind_decodePriority
  simp only [AsWhole, hcut, List.nil_append, reframe_header] at hpay ⊢
  split
  · refine ⟨rfl, [], .inl rfl, ?_⟩
    rw [reframe_reframe, ← hcut]
    change _ = (d.reframe d.framing, _)
    rw [reframe_framing hd]
  · exact hpay

theorem decodePayload_asWhole (hd : d.offset = d.buffer.length)
    (hcut : d.header.frameType = 2 → d.buffer = []) (buf : Bytes) :
    AsWhole d buf decodePayload := by
  simp only [AsWhole, decodePayload, reframe_header]
  split
  · exact decodeDataPayload_asWhole hd buf
  · exact decodeHeadersPayload_asWhole hd buf
  · rename_i htype
    exact decodePriorityPayload_asWhole hd (hcut htype) buf
  · exact decodeResetPayload_asWhole hd buf
  · exact decodeSettingsPayload_asWhole hd buf
  · exact decodePushPromisePayload_asWhole hd buf
  · exact decodePingPayload_asWhole hd buf
  · exact decodeGoawayPayload_asWhole hd buf
  · exact decodeWindowUpdatePayload_asWhole hd buf
  · exact decodeContinuationPayload_asWhole hd buf
  · refine ⟨rfl, d.buffer, .inl rfl, ?_⟩
    rw [reframe_reframe]
    change _ = (d.reframe d.framing, _)
    rw [reframe_framing hd]

theorem decodePriorityPayload_cut (hid : isConnectionFrame d.header.streamId = false)
    (hlen : d.buffer.length + buf.length = d.header.payloadLength) (hcut : d.buffer ≠ []) :
    d.decodePriorityPayload buf =
      (d, .error (.error (.streamError d.header.streamId .frameSizeError))) := by
  have hpos : 0 < d.buffer.length := List.length_pos_iff.mpr hcut
  have hsize : d.header.payloadLength ≠ 5 ∨ buf.length ≠ 5 := by omega
  simp only [decodePriorityPayload, hid, Bool.false_eq_true, if_false, hsize, if_true]

end YlongHttp.FrameDecoder
