import YlongHttp.Verification.Hpack.Segmentation
import YlongHttp.Verification.H2.Payload

/-! # What PUSH_PROMISE frames hand to HPACK

An HPACK decoder in the middle of a long string keeps the octets it is handed. It shows that the
frame decoder hands it the whole payload of a PUSH_PROMISE frame, not only the fragment in it. -/

namespace YlongHttp

open List HpackDecoder

/-! ## A decoder that keeps what it is handed -/

variable (self : HpackDecoder)

/-- In a value string with these octets, and more than `left` to come. -/
def HpackDecoder.inString (octets : Bytes) (left : ℕ) : HpackDecoder :=
  { self with
    holder := some (.valueString .literalWithoutIndexing (.literal [])
      (.asciiStringBytes octets (octets.length + left + 1) (by omega))) }

theorem HpackDecoder.decode_inString (octets : Bytes) {left : ℕ} {buf : Bytes}
    (h : buf.length ≤ left) :
    (self.inString octets left).decode buf =
      (self.inString (octets ++ buf) (left - buf.length), .ok ()) := by
  by_cases hbuf : buf = []
  · subst hbuf
    rw [decode_nil]
    simp [inString]
  · have hmore : ¬octets.length + left + 1 ≤ buf.length + octets.length := by omega
    have hread : decodeAsciiStringBytes octets (octets.length + left + 1) buf =
        (.needMore (.asciiStringBytes (octets ++ buf) (octets.length + left + 1)
          (by rw [length_append]; omega)), []) := dif_neg hmore
    have hst : ReprDecoder.decode { buf, state := (self.inString octets left).holder } =
        ({ buf := [], state := some (.valueString .literalWithoutIndexing (.literal [])
          (.asciiStringBytes (octets ++ buf) (octets.length + left + 1)
            (by rw [length_append]; omega))) }, .ok none) := by
      rw [ReprDecoder.decode, if_neg hbuf]
      simp only [inString, Option.getD_some, ReprDecodeState.decode, decodeValueString,
        LiteralString.decode, hread]
    rw [decode, decodeLoop, hst]
    simp only [inString, length_append]
    congr 6
    omega

/-! ## Blocks -/

namespace FrameDecoder

def atContinuation (self : FrameDecoder) (flags : UInt8) (length : ℕ) : FrameDecoder :=
  { self with
    buffer := []
    offset := 0
    header := { streamId := self.continuations.streamId, flags, frameType := 9
                payloadLength := length } }

/-- The CONTINUATION frames of a block, with their flags. -/
def decodeContinuations (self : FrameDecoder) (frame : FrameKind) :
    List (UInt8 × Bytes) → FrameDecoder × Except (Fault H2Error) FrameKind
  | [] => (self, .ok frame)
  | (flags, fragment) :: rest =>
    match (self.atContinuation flags fragment.length).decodeContinuationPayload fragment with
    | (self, .error e) => (self, .error e)
    | (self, .ok frame) => decodeContinuations self frame rest

def decodePushBlock (self : FrameDecoder) (buf : Bytes) (rest : List (UInt8 × Bytes)) :
    FrameDecoder × Except (Fault H2Error) FrameKind :=
  match self.decodePushPromisePayload buf with
  | (self, .error e) => (self, .error e)
  | (self, .ok frame) => self.decodeContinuations frame rest

def pushPayload (padding : Option Bytes) (b0 b1 b2 b3 : UInt8) (fragment : Bytes) : Bytes :=
  match padding with
  | none => b0 :: b1 :: b2 :: b3 :: fragment
  | some padding => UInt8.ofNat padding.length :: b0 :: b1 :: b2 :: b3 :: fragment ++ padding

/-- A PUSH_PROMISE frame has been received up to its payload, of which `buf` is what is not in the
buffer. -/
structure AtPushPromise (d : FrameDecoder) (buf : Bytes) (padding : Option Bytes)
    (b0 b1 b2 b3 : UInt8) (fragment : Bytes) : Prop where
  stream : d.header.streamId ≠ 0
  padded : d.header.isPadded = padding.isSome
  short : ∀ p ∈ padding, p.length < 256
  promised : getStreamId b0 b1 b2 b3 ≠ 0
  payload : d.buffer ++ buf = pushPayload padding b0 b1 b2 b3 fragment
  length : d.header.payloadLength = (d.buffer ++ buf).length
  offset : d.offset = d.buffer.length

def Ended (flags : UInt8) : List (UInt8 × Bytes) → Prop
  | [] => endHeadersMask &&& flags = endHeadersMask
  | (next, _) :: rest => ¬endHeadersMask &&& flags = endHeadersMask ∧ Ended next rest

def Hands (d : FrameDecoder) (buf : Bytes) (rest : List (UInt8 × Bytes)) (octets : Bytes) : Prop :=
  ∀ left, octets.length ≤ left →
    (({ d with hpack := d.hpack.inString [] left }).decodePushBlock buf rest).1.hpack =
      d.hpack.inString octets (left - octets.length)

theorem inString_injective {h : HpackDecoder} {a b : Bytes} {left left' : ℕ}
    (heq : h.inString a left = h.inString b left') : a = b := by
  simp only [HpackDecoder.inString, HpackDecoder.mk.injEq, Option.some.injEq,
    ReprDecodeState.valueString.injEq, LiteralString.asciiStringBytes.injEq] at heq
  exact heq.2.2.2.2.2.1

variable {d : FrameDecoder} {h : HpackDecoder} {octets buf : Bytes} {left : ℕ}

theorem hpackDecode_inString (hd : d.hpack = h.inString octets left) (hbuf : buf.length ≤ left)
    (next : FrameDecoder → FrameDecoder × Except (Fault H2Error) FrameKind) :
    d.hpackDecode buf next =
      next { d with hpack := h.inString (octets ++ buf) (left - buf.length) } := by
  rw [hpackDecode, hd, decode_inString h octets hbuf]

theorem hpackFinish_inString (hd : d.hpack = h.inString octets left)
    (next : FrameDecoder → Parts → FrameDecoder × Except (Fault H2Error) FrameKind) :
    d.hpackFinish next = (d, .error (.error compressionError)) := by
  have hfinish : d.hpack.finish = (d.hpack, .error compressionError) := by
    rw [hd]
    rfl
  rw [hpackFinish, hfinish]

variable {flags : UInt8} {rest : List (UInt8 × Bytes)}

theorem continuation_inString (hd : d.hpack = h.inString octets left)
    (hstr : d.continuations.streamId ≠ 0) (hbuf : buf.length ≤ left) :
    (d.atContinuation flags buf.length).decodeContinuationPayload buf =
      ({ d.atContinuation flags buf.length with
          hpack := h.inString (octets ++ buf) (left - buf.length) },
        if endHeadersMask &&& flags = endHeadersMask then .error (.error compressionError)
        else .ok .partialFrame) := by
  have hid : ¬isConnectionFrame d.continuations.streamId = true := by
    simpa [isConnectionFrame] using hstr
  change ¬isConnectionFrame (d.atContinuation flags buf.length).header.streamId = true at hid
  have hnext : (d.atContinuation flags buf.length).hpack = h.inString octets left := hd
  rw [decodeContinuationPayload, if_neg hid, withPayload, if_neg (by simp [atContinuation])]
  by_cases hend : endHeadersMask &&& flags = endHeadersMask
  · have hflag : (d.atContinuation flags buf.length).header.isEndHeaders = true := decide_eq_true hend
    rw [if_pos hflag, if_pos hend, hpackDecode_inString hnext hbuf, hpackFinish_inString rfl]
  · have hflag : ¬(d.atContinuation flags buf.length).header.isEndHeaders = true :=
      fun htrue => hend (of_decide_eq_true htrue)
    rw [if_neg hflag, if_neg hend, hpackDecode_inString hnext hbuf]

theorem decodeContinuations_inString {frame : FrameKind} (hd : d.hpack = h.inString octets left)
    (hstr : d.continuations.streamId ≠ 0) (hended : Ended flags rest)
    (hleft : (rest.map Prod.snd).flatten.length ≤ left) :
    (d.decodeContinuations frame rest).1.hpack = h.inString
      (octets ++ (rest.map Prod.snd).flatten) (left - (rest.map Prod.snd).flatten.length) := by
  induction rest generalizing d octets left frame flags with
  | nil =>
    rw [map_nil, flatten_nil, append_nil]
    exact hd
  | cons first rest ih =>
    obtain ⟨next, fragment⟩ := first
    rw [map_cons, flatten_cons, length_append] at hleft
    dsimp only at hleft
    rw [decodeContinuations, continuation_inString hd hstr (by omega), map_cons,
      flatten_cons, ← append_assoc, length_append, ← Nat.sub_sub]
    cases rest with
    | nil =>
      have hlast : endHeadersMask &&& next = endHeadersMask := hended.2
      rw [if_pos hlast, map_nil, flatten_nil, append_nil]
      rfl
    | cons second rest =>
      rw [if_neg hended.2.1]
      exact ih rfl hstr hended.2 (Nat.le_sub_of_add_le' hleft)

theorem withPayload_whole (hd : d.offset = d.buffer.length) (buf : Bytes) :
    ∃ buffer offset, ∀ next, d.withPayload buf next =
      next { d with buffer, offset } (d.buffer ++ buf) := by
  by_cases ho : d.offset = 0
  · have hnil : d.buffer = [] := length_eq_zero_iff.mp (by omega)
    refine ⟨d.buffer, d.offset, fun next => ?_⟩
    rw [withPayload, if_neg (not_not_intro ho), hnil, nil_append, ← hnil]
  · exact ⟨_, _, fun next => by rw [withPayload, if_pos ho]⟩

theorem withFragment_push {payload : Bytes} {padding : Option Bytes} {b0 b1 b2 b3 : UInt8}
    {fragment : Bytes} (hpadded : d.header.isPadded = padding.isSome)
    (hshort : ∀ p ∈ padding, p.length < 256)
    (hpay : payload = pushPayload padding b0 b1 b2 b3 fragment)
    (hlen : d.header.payloadLength = payload.length) :
    (∃ first last, first ≤ last ∧ ∀ next, d.withFragment payload 4 next = next first last) ∧
      ∃ more, (if d.header.isPadded then payload.drop 1 else payload) =
        b0 :: b1 :: b2 :: b3 :: more := by
  subst hpay
  cases padding with
  | none =>
    have hflag : ¬d.header.isPadded = true := by simp [hpadded]
    refine ⟨⟨4, d.header.payloadLength, ?_, fun next => by
      rw [withFragment.eq_def, if_neg hflag]⟩, fragment, by rw [if_neg hflag]; rfl⟩
    rw [hlen]
    exact Nat.le_add_left 4 fragment.length
  | some p =>
    have hflag : d.header.isPadded = true := hpadded
    have hp : (UInt8.ofNat p.length).toNat = p.length := by
      rw [UInt8.toNat_ofNat', Nat.mod_eq_of_lt (hshort p rfl)]
    have htotal : d.header.payloadLength = fragment.length + p.length + 5 := by
      rw [hlen, pushPayload]
      simp
    refine ⟨⟨5, d.header.payloadLength - p.length, by omega, fun next => ?_⟩,
      fragment ++ p, by rw [if_pos hflag]; rfl⟩
    rw [withFragment.eq_def, if_pos hflag, pushPayload, cons_append]
    dsimp only
    rw [hp, if_neg (by omega)]

variable {fragment : Bytes} {b0 b1 b2 b3 : UInt8} {padding : Option Bytes}

theorem pushPromise_inString (hat : AtPushPromise d buf padding b0 b1 b2 b3 fragment)
    (hd : d.hpack = h.inString octets left) (hleft : (d.buffer ++ buf).length ≤ left) :
    ∃ d', d'.hpack = h.inString (octets ++ (d.buffer ++ buf)) (left - (d.buffer ++ buf).length) ∧
      if d.header.isEndHeaders then d.decodePushPromisePayload buf =
          (d', .error (.error compressionError))
        else d.decodePushPromisePayload buf = (d', .ok .partialFrame) ∧
          d'.continuations.streamId = d.header.streamId := by
  have hid : ¬isConnectionFrame d.header.streamId = true := by
    simpa [isConnectionFrame] using hat.stream
  have hpromised : ¬isConnectionFrame (getStreamId b0 b1 b2 b3) = true := by
    simpa [isConnectionFrame] using hat.promised
  obtain ⟨buffer, offset, hpay⟩ := withPayload_whole hat.offset buf
  obtain ⟨⟨first, last, hle, hfragment⟩, more, hmore⟩ :=
    @withFragment_push { d with buffer, offset } _ _ _ _ _ _ _ hat.padded hat.short hat.payload
      hat.length
  have hhpack : ({ d with buffer, offset } : FrameDecoder).hpack = h.inString octets left := hd
  rw [decodePushPromisePayload, if_neg hid, hpay]
  dsimp only
  rw [hfragment, if_neg (Nat.not_lt.mpr hle), hpackDecode_inString hhpack hleft]
  dsimp only at hmore ⊢
  rw [hmore]
  dsimp only
  rw [if_neg hpromised, pushPromiseFraming]
  split
  · rw [hpackFinish_inString rfl]
    exact ⟨_, rfl, rfl⟩
  · exact ⟨_, rfl, rfl, rfl⟩

/-! ## The octets handed over -/

theorem hands_payload (hat : AtPushPromise d buf padding b0 b1 b2 b3 fragment)
    (hended : Ended d.header.flags rest) :
    d.Hands buf rest (pushPayload padding b0 b1 b2 b3 fragment ++ (rest.map Prod.snd).flatten) := by
  intro left hleft
  rw [length_append] at hleft
  have hat' : AtPushPromise { d with hpack := d.hpack.inString [] left } buf padding b0 b1 b2 b3
      fragment := { hat with }
  have hfirst := pushPromise_inString hat' rfl (by rw [hat'.payload]; omega)
  rw [hat'.payload, nil_append] at hfirst
  obtain ⟨d', hd', hres⟩ := hfirst
  rw [decodePushBlock, length_append, ← Nat.sub_sub]
  cases rest with
  | nil =>
    have hlast : d.header.isEndHeaders = true := decide_eq_true hended
    rw [if_pos hlast] at hres
    rw [hres, map_nil, flatten_nil, append_nil]
    exact hd'
  | cons second rest =>
    have hopen : ¬d.header.isEndHeaders = true := fun htrue => hended.1 (of_decide_eq_true htrue)
    rw [if_neg hopen] at hres
    rw [hres.1]
    refine decodeContinuations_inString hd' ?_ hended (by omega)
    rw [hres.2]
    exact hat.stream

/-- What a block should hand over, and what should come out of it. -/
def Extracts (d : FrameDecoder) (buf : Bytes) (rest : List (UInt8 × Bytes)) (promised : StreamId)
    (fragment : Bytes) : Prop :=
  d.Hands buf rest (fragment ++ (rest.map Prod.snd).flatten) ∧
    ∀ parts, ((d.decodePushBlock buf rest).2 = .ok (.complete
        { id := d.header.streamId, flags := ⟨d.header.flags⟩
          payload := .pushPromise { promisedStreamId := promised, parts } }) ↔
      ∃ hpack, d.hpack.decode (fragment ++ (rest.map Prod.snd).flatten) = (hpack, .ok ()) ∧
        hpack.finish.2 = .ok parts)

/-- No block hands over its fragments only. -/
theorem pushPromise_not_extracted {padding : Option Bytes} {b0 b1 b2 b3 : UInt8} {fragment : Bytes}
    {rest : List (UInt8 × Bytes)} (hat : AtPushPromise d buf padding b0 b1 b2 b3 fragment)
    (hended : Ended d.header.flags rest) :
    ¬d.Extracts buf rest (getStreamId b0 b1 b2 b3) fragment := by
  rintro ⟨hhands, -⟩
  have hwhole := hands_payload hat hended
  set octets := pushPayload padding b0 b1 b2 b3 fragment ++ (rest.map Prod.snd).flatten with hoct
  set wanted := fragment ++ (rest.map Prod.snd).flatten with hwanted
  have heq : octets = wanted := inString_injective
    ((hwhole (octets.length + wanted.length) (by omega)).symm.trans
      (hhands (octets.length + wanted.length) (by omega)))
  have hlen := congrArg length heq
  rw [hoct, hwanted, length_append, length_append] at hlen
  cases padding <;> simp [pushPayload] at hlen <;> omega

/-- PUSH_PROMISE on stream 1 for stream 2, with the field `:method: GET`. -/
def pushedGet : Bytes := [0, 0, 0, 2, 0x82]

def beforePushedGet : FrameDecoder :=
  { FrameDecoder.new with
    stage := .payload
    header := { streamId := 1, flags := endHeadersMask, frameType := 5, payloadLength := 5 } }

theorem beforePushedGet_at : AtPushPromise beforePushedGet pushedGet none 0 0 0 2 [0x82] where
  stream := by decide
  padded := by decide
  short := nofun
  promised := by decide
  payload := rfl
  length := rfl
  offset := rfl

/-- The field is not decoded, although it would be alone. -/
theorem pushedGet_not_extracted :
    ¬beforePushedGet.Extracts pushedGet [] 2 [0x82] ∧
      (FrameDecoder.new.decode ([0, 0, 5, 5, 4, 0, 0, 0, 1] ++ pushedGet)).2 =
        .error (.error compressionError) := by
  refine ⟨?_, by decide⟩
  rintro ⟨-, hparts⟩
  have halone : (beforePushedGet.hpack.decode [0x82]).2 = .ok () ∧
      (beforePushedGet.hpack.decode [0x82]).1.finish.2 = .ok { Parts.new with
        pseudo := { PseudoHeaders.new with method := some (str "GET") } } := by decide
  have hblock : (beforePushedGet.decodePushBlock pushedGet []).2 =
      .error (.error compressionError) := by decide
  have hout := (hparts _).mpr ⟨_, Prod.ext rfl halone.1, halone.2⟩
  rw [hblock] at hout
  cases hout

theorem pushPromise_not_extracted_get : ¬beforePushedGet.Extracts pushedGet [] 2 [0x82] :=
  pushPromise_not_extracted beforePushedGet_at (by decide : endHeadersMask &&& _ = endHeadersMask)

end FrameDecoder

end YlongHttp
