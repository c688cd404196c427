import YlongHttp.Library.Bits
import YlongHttp.Verification.H2.Octets
import YlongHttp.Verification.Hpack.Encoding

/-! # DATA frames for a payload that is too long

Each frame takes its payload from the start of the data. -/

namespace YlongHttp

open List

abbrev DataFrame := FrameFlags × Bytes

def DataFrame.octets (id : StreamId) (self : DataFrame) : Bytes :=
  frameHeader self.2.length 0x0 self.1.bits id ++ self.2

structure Fragmented (max : ℕ) (flags : FrameFlags) (data : Bytes) (frames : List DataFrame) :
    Prop where
  fits : ∀ frame ∈ frames, frame.2.length ≤ max
  data : frames.flatMap Prod.snd = data
  ends : ∃ front last, frames = front ++ [last] ∧
    (∀ frame ∈ front, frame.1.isEndStream = false) ∧ last.1.isEndStream = flags.isEndStream

/-! ## The frames that are written -/

section Frames

variable (max : ℕ) (flags : FrameFlags) (data : Bytes)

/-- The frames for the last `remaining` octets. -/
def fragments (remaining : ℕ) : List DataFrame :=
  if remaining ≤ max ∨ max = 0 then [(flags, data.take remaining)]
  else (⟨flags.bits &&& 0xFE⟩, data.take max) :: fragments (remaining - max)
termination_by remaining
decreasing_by omega

def laterFrames (id : StreamId) (remaining : ℕ) : Bytes :=
  if remaining = 0 then [] else dataFrames max flags.bits id data remaining

variable {max flags data} {id : StreamId} {remaining : ℕ}

theorem dataFrames_eq (hrem : remaining ≤ data.length) :
    dataFrames max flags.bits id data remaining =
      (fragments max flags data remaining).flatMap (DataFrame.octets id) := by
  induction remaining using Nat.strong_induction_on with
  | _ remaining ih =>
    rw [dataFrames, fragments]
    by_cases hlast : remaining ≤ max ∨ max = 0
    · rw [dif_pos hlast, if_pos hlast, flatMap_singleton, DataFrame.octets]
      dsimp only
      rw [length_take_of_le hrem]
    · rw [dif_neg hlast, if_neg hlast, flatMap_cons, ih (remaining - max) (by omega) (by omega),
        DataFrame.octets]
      dsimp only
      rw [length_take_of_le (by omega), append_assoc]

theorem dataFrames_pos (hmax : 0 < max) :
    dataFrames max flags.bits id data remaining =
      frameHeader (min remaining max) 0x0
          (if remaining ≤ max then flags.bits else flags.bits &&& 0xFE) id ++
        (data.take (min remaining max) ++
          laterFrames max flags data id (remaining - min remaining max)) := by
  rw [dataFrames, laterFrames]
  by_cases hlast : remaining ≤ max
  · rw [dif_pos (.inl hlast), if_pos hlast, Nat.min_eq_left hlast, Nat.sub_self, if_pos rfl,
      append_nil]
  · rw [dif_neg (by omega), if_neg hlast, Nat.min_eq_right (by omega), if_neg (by omega)]

theorem fragments_fit (hmax : 0 < max) :
    ∀ frame ∈ fragments max flags data remaining, frame.2.length ≤ max := by
  induction remaining using Nat.strong_induction_on with
  | _ remaining ih =>
    rw [fragments]
    by_cases hlast : remaining ≤ max ∨ max = 0
    · rw [if_pos hlast]
      intro frame hframe
      obtain rfl := mem_singleton.mp hframe
      rcases hlast with hlast | hzero
      · exact (length_take_le _ _).trans hlast
      · omega
    · rw [if_neg hlast]
      intro frame hframe
      rcases mem_cons.mp hframe with rfl | hframe
      · exact length_take_le _ _
      · exact ih (remaining - max) (by omega) frame hframe

theorem isEndStream_masked (flags : FrameFlags) :
    (FrameFlags.mk (flags.bits &&& 0xFE)).isEndStream = false := by
  exact Library.forall_octet (by decide +kernel) flags.bits

theorem fragments_ends :
    ∃ front last, fragments max flags data remaining = front ++ [last] ∧
      (∀ frame ∈ front, frame.1.isEndStream = false) ∧ last.1.isEndStream = flags.isEndStream := by
  induction remaining using Nat.strong_induction_on with
  | _ remaining ih =>
    rw [fragments]
    by_cases hlast : remaining ≤ max ∨ max = 0
    · rw [if_pos hlast]
      exact ⟨[], _, rfl, nofun, rfl⟩
    · rw [if_neg hlast]
      obtain ⟨front, last, hframes, hfront, hend⟩ := ih (remaining - max) (by omega)
      refine ⟨_ :: front, last, by rw [hframes]; rfl, ?_, hend⟩
      intro frame hframe
      rcases mem_cons.mp hframe with rfl | hframe
      · exact isEndStream_masked flags
      · exact hfront frame hframe

theorem fragments_getElem? (hmax : 0 < max) (hrem : remaining ≤ data.length) (i : ℕ) :
    ((fragments max flags data remaining).flatMap Prod.snd)[i]? =
      if i < remaining then data[i % max]? else none := by
  induction remaining using Nat.strong_induction_on generalizing i with
  | _ remaining ih =>
    rw [fragments]
    by_cases hlast : remaining ≤ max ∨ max = 0
    · rw [if_pos hlast, flatMap_singleton, getElem?_take]
      split
      · rw [Nat.mod_eq_of_lt (by omega)]
      · rfl
    · rw [if_neg hlast, flatMap_cons]
      have hlength : (data.take max).length = max := length_take_of_le (by omega)
      by_cases hi : i < max
      · rw [getElem?_append_left (by rwa [hlength]), getElem?_take_of_lt hi,
          if_pos (by omega), Nat.mod_eq_of_lt hi]
      · rw [getElem?_append_right (by rw [hlength]; omega), hlength,
          ih (remaining - max) (by omega) (by omega)]
        have hmod : (i - max) % max = i % max := (Nat.mod_eq_sub_mod (by omega)).symm
        rw [hmod]
        congr 1
        exact propext ⟨fun h => by omega, fun h => by omega⟩

end Frames

/-! ## Frames and their octets -/

theorem length_of_octets {a b : ℕ} (ha : a < 2 ^ 24) (hb : b < 2 ^ 24)
    (hhigh : octetAt a 16 = octetAt b 16) (hmiddle : octetAt a 8 = octetAt b 8)
    (hlow : octetAt a 0 = octetAt b 0) : a = b := by
  have hnat : ∀ {x y : ℕ}, UInt8.ofNat x = UInt8.ofNat y → x % 256 = y % 256 := by
    intro x y h
    simpa using congrArg UInt8.toNat h
  have hhigh' := hnat hhigh
  have hmiddle' := hnat hmiddle
  have hlow' := hnat hlow
  simp only [Nat.shiftRight_eq_div_pow] at hhigh' hmiddle' hlow'
  omega

theorem frames_unique {id : StreamId} {frames frames' : List DataFrame}
    (hfit : ∀ frame ∈ frames, frame.2.length < 2 ^ 24)
    (hfit' : ∀ frame ∈ frames', frame.2.length < 2 ^ 24)
    (h : frames.flatMap (DataFrame.octets id) = frames'.flatMap (DataFrame.octets id)) :
    frames = frames' := by
  induction frames generalizing frames' with
  | nil =>
    cases frames' with
    | nil => rfl
    | cons frame' frames' =>
      have hlength := congrArg length h
      simp only [flatMap_cons, flatMap_nil, DataFrame.octets, length_append,
        frameHeader_length, length_nil] at hlength
      omega
  | cons frame frames ih =>
    cases frames' with
    | nil =>
      have hlength := congrArg length h
      simp only [flatMap_cons, flatMap_nil, DataFrame.octets, length_append,
        frameHeader_length, length_nil] at hlength
      omega
    | cons frame' frames' =>
      obtain ⟨flags, payload⟩ := frame
      obtain ⟨flags', payload'⟩ := frame'
      simp only [flatMap_cons, DataFrame.octets, append_assoc] at h
      obtain ⟨hhdr, hbehind⟩ := append_inj h rfl
      simp only [frameHeader, cons_append, cons.injEq, nil_append] at hhdr
      obtain ⟨hhigh, hmiddle, hlow, -, hflags, -⟩ := hhdr
      have hlength := length_of_octets (hfit _ (.head _)) (hfit' _ (.head _))
        hhigh hmiddle hlow
      obtain ⟨rfl, hframes⟩ := append_inj hbehind hlength
      have hsame : flags = flags' := by
        cases flags
        cases flags'
        exact congrArg _ hflags
      rw [hsame, ih (fun f hf => hfit f (.tail _ hf))
        (fun f hf => hfit' f (.tail _ hf)) hframes]

/-! ## What the encoder writes -/

namespace FrameEncoder

/-- A DATA frame is being written. -/
structure Encoding (max : ℕ) (flags : FrameFlags) (id : StreamId) (data : Bytes)
    (enc : FrameEncoder) : Prop where
  frame : enc.currentFrame = some { id, flags, payload := .data data }
  size : enc.maxFrameSize = max

/-- A state in which a DATA frame is written, and what it has to write. -/
inductive OwesData (max : ℕ) (flags : FrameFlags) (id : StreamId) (data : Bytes) :
    FrameEncoder → Bytes → Prop
  | header {self : FrameEncoder} : Encoding max flags id data self →
      self.state = .encodingDataHeader → self.encodedBytes < 9 → self.dataOffset = 0 →
      0 < self.remainingPayloadBytes → self.remainingPayloadBytes ≤ data.length →
      OwesData max flags id data self
        ((dataFrames max flags.bits id data self.remainingPayloadBytes).drop self.encodedBytes)
  | payload {self : FrameEncoder} {len : ℕ} : Encoding max flags id data self →
      self.state = .encodingDataPayload → self.encodedBytes = 0 →
      len = min (max - self.dataOffset) self.remainingPayloadBytes → 0 < len →
      self.dataOffset + self.remainingPayloadBytes ≤ data.length →
      OwesData max flags id data self ((data.drop self.dataOffset).take len ++
        laterFrames max flags data id (self.remainingPayloadBytes - len))
  | done {self : FrameEncoder} : self.state = .dataComplete → OwesData max flags id data self []

variable {max : ℕ} {flags : FrameFlags} {id : StreamId} {data : Bytes}

theorem setFrame_owes (self : FrameEncoder) (hmax : self.maxFrameSize = max) (hdata : data ≠ []) :
    OwesData max flags id data (self.setFrame { id, flags, payload := .data data }).1
      (dataFrames max flags.bits id data data.length) := by
  have howes : OwesData max flags id data (self.setFrame { id, flags, payload := .data data }).1
      ((dataFrames max flags.bits id data data.length).drop 0) :=
    .header ⟨rfl, hmax⟩ rfl (Nat.succ_pos 8) rfl (length_pos_of_ne_nil hdata) le_rfl
  exact howes

/-- A round of the loop of `encode` writes some of what is owed: it fills the buffer, or goes to
another state. -/
def Writes (max : ℕ) (flags : FrameFlags) (id : StreamId) (data : Bytes) (self : FrameEncoder)
    (l rest : Bytes) : Prop :=
  ∃ part next n, self.encodePart = some part ∧
    part rest = (next, .ok (l.take n ++ rest.drop n, n)) ∧ 0 < n ∧ n ≤ rest.length ∧ n ≤ l.length ∧
    OwesData max flags id data next (l.drop n) ∧ (next.state = self.state → n = rest.length)

variable {self : FrameEncoder} {rest : Bytes}

theorem withFrame_data (h : Encoding max flags id data self)
    (next : Frame → FrameEncoder × Encoded) :
    self.withFrame next = next { id, flags, payload := .data data } := by
  rw [withFrame, h.frame]

theorem header_writes (hmax : 0 < max) (h : Encoding max flags id data self)
    (hst : self.state = .encodingDataHeader) (hbytes : self.encodedBytes < 9)
    (hoff : self.dataOffset = 0) (hpos : 0 < self.remainingPayloadBytes)
    (hle : self.remainingPayloadBytes ≤ data.length) (hrest : rest ≠ []) :
    Writes max flags id data self
      ((dataFrames max flags.bits id data self.remainingPayloadBytes).drop self.encodedBytes)
      rest := by
  have hroom := length_pos_of_ne_nil hrest
  have hwrite : self.headerBytesToWrite rest = min (9 - self.encodedBytes) rest.length := by
    rw [headerBytesToWrite, if_neg (by omega)]
  have hframes := @dataFrames_pos max flags data id self.remainingPayloadBytes hmax
  set header := frameHeader (min self.remainingPayloadBytes max) 0x0
    (if self.remainingPayloadBytes ≤ max then flags.bits else flags.bits &&& 0xFE) id with hhdr
  have hlength : header.length = 9 := rfl
  have hiterate : self.iterateDataHeader { id, flags, payload := .data data } rest
      (min self.remainingPayloadBytes self.maxFrameSize) (self.headerBytesToWrite rest) =
        .ok ((header.drop self.encodedBytes).take (self.headerBytesToWrite rest) ++
          rest.drop (self.headerBytesToWrite rest)) := by
    rw [iterateDataHeader, h.size, hwrite]
    refine iterate_slice (min_le_right _ _) ?_ fun i _ b hb => frameHeaderOctet_eq _ _ _ _ hb
    rw [hlength]
    omega
  refine ⟨self.encodeDataHeader,
    if self.encodedBytes + self.headerBytesToWrite rest = 9 then
      { self with encodedBytes := 0, state := .encodingDataPayload }
    else { self with encodedBytes := self.encodedBytes + self.headerBytesToWrite rest },
    self.headerBytesToWrite rest, ?_, ?_, ?_, ?_, ?_, ?_, ?_⟩
  · rw [encodePart, hst]
  · have henc : self.encodeDataHeader rest =
        self.finishHeader ((header.drop self.encodedBytes).take (self.headerBytesToWrite rest) ++
          rest.drop (self.headerBytesToWrite rest)) (self.headerBytesToWrite rest) fun self =>
            { self with encodedBytes := 0, state := .encodingDataPayload } := by
      rw [encodeDataHeader, withFrame_data h]
      dsimp only
      rw [hiterate]
    rw [henc, hframes, drop_append_of_le_length (by rw [hlength]; omega),
      take_append_of_le_length (by rw [length_drop, hlength, hwrite]; omega)]
    rfl
  · rw [hwrite]
    omega
  · rw [hwrite]
    exact min_le_right _ _
  · rw [hwrite, hframes, length_drop, length_append, hlength]
    omega
  · -- The header is complete, or not.
    by_cases hfull : self.encodedBytes + self.headerBytesToWrite rest = 9
    · rw [if_pos hfull, drop_drop, hfull, hframes, drop_left' hlength]
      have hpart : min self.remainingPayloadBytes max =
          min (max - self.dataOffset) self.remainingPayloadBytes := by
        rw [hoff, Nat.sub_zero, Nat.min_comm]
      have howes : OwesData max flags id data
          { self with encodedBytes := 0, state := .encodingDataPayload }
          ((data.drop self.dataOffset).take (min self.remainingPayloadBytes max) ++
            laterFrames max flags data id
              (self.remainingPayloadBytes - min self.remainingPayloadBytes max)) :=
        .payload ⟨h.frame, h.size⟩ rfl rfl hpart (by omega) (by dsimp only; omega)
      have hzero : data.drop self.dataOffset = data := by rw [hoff, drop_zero]
      rwa [hzero] at howes
    · rw [if_neg hfull, drop_drop]
      exact .header ⟨h.frame, h.size⟩ hst (by rw [hwrite] at hfull ⊢; dsimp only; omega) hoff hpos hle
  · intro hsame
    by_cases hfull : self.encodedBytes + self.headerBytesToWrite rest = 9
    · rw [if_pos hfull, hst] at hsame
      cases hsame
    · rw [hwrite] at hfull ⊢
      omega

def afterPayload (self : FrameEncoder) (n : ℕ) : FrameEncoder :=
  if self.remainingPayloadBytes - n = 0 then
    { self with
      dataOffset := 0, remainingPayloadBytes := self.remainingPayloadBytes - n
      state := .dataComplete }
  else if self.dataOffset + n = self.maxFrameSize then
    { self with
      dataOffset := 0, remainingPayloadBytes := self.remainingPayloadBytes - n
      state := .encodingDataHeader }
  else
    { self with
      dataOffset := self.dataOffset + n
      remainingPayloadBytes := self.remainingPayloadBytes - n
      state := .encodingDataPayload }

theorem payload_writes {len : ℕ} (h : Encoding max flags id data self)
    (hst : self.state = .encodingDataPayload) (hbytes : self.encodedBytes = 0)
    (hlen : len = min (max - self.dataOffset) self.remainingPayloadBytes) (hpos : 0 < len)
    (hle : self.dataOffset + self.remainingPayloadBytes ≤ data.length) (hrest : rest ≠ []) :
    Writes max flags id data self ((data.drop self.dataOffset).take len ++
      laterFrames max flags data id (self.remainingPayloadBytes - len)) rest := by
  have hroom := length_pos_of_ne_nil hrest
  have hlength : ((data.drop self.dataOffset).take len).length = len := by
    rw [length_take, length_drop]
    omega
  have htake : ∀ {n : ℕ}, n ≤ len → ((data.drop self.dataOffset).take len ++
      laterFrames max flags data id (self.remainingPayloadBytes - len)).take n =
        (data.drop self.dataOffset).take n := by
    intro n hn
    rw [take_append_of_le_length (by omega), take_take, Nat.min_eq_left hn]
  refine ⟨self.encodeDataPayload, self.afterPayload (min len rest.length), min len rest.length,
    ?_, ?_, by omega, min_le_right _ _, ?_, ?_, ?_⟩
  · rw [encodePart, hst]
  · have henc : self.encodeDataPayload rest = (self.afterPayload (min len rest.length),
        .ok ((data.drop self.dataOffset).take (min len rest.length) ++
          rest.drop (min len rest.length), min len rest.length)) := by
      rw [encodeDataPayload, withFrame_data h]
      dsimp only
      rw [h.size, ← hlen, if_neg (by omega), if_neg (by omega), afterPayload, h.size]
    rw [henc, htake (min_le_left _ _)]
  · rw [length_append, hlength]
    omega
  · rw [afterPayload]
    by_cases hdone : self.remainingPayloadBytes - min len rest.length = 0
    · have hall : min len rest.length = len := by omega
      rw [if_pos hdone, hall, drop_left' hlength, laterFrames, if_pos (by omega)]
      exact .done rfl
    · rw [if_neg hdone]
      by_cases hfull : self.dataOffset + min len rest.length = self.maxFrameSize
      · have hall : min len rest.length = len := by
          rw [h.size] at hfull
          omega
        rw [if_pos hfull, hall, drop_left' hlength, laterFrames, if_neg (by omega)]
        have howes : OwesData max flags id data
            { self with
              dataOffset := 0, remainingPayloadBytes := self.remainingPayloadBytes - len
              state := .encodingDataHeader }
            ((dataFrames max flags.bits id data (self.remainingPayloadBytes - len)).drop
              self.encodedBytes) :=
          .header ⟨h.frame, h.size⟩ rfl (by dsimp only; omega) rfl (by dsimp only; omega)
            (by dsimp only; omega)
        have hzero : ∀ l : Bytes, l.drop self.encodedBytes = l := fun l => by rw [hbytes, drop_zero]
        rwa [hzero] at howes
      · rw [h.size] at hfull
        have hnext : len - min len rest.length = min
            (max - (self.dataOffset + min len rest.length))
            (self.remainingPayloadBytes - min len rest.length) := by omega
        have hsame : self.remainingPayloadBytes - min len rest.length - (len - min len rest.length) =
            self.remainingPayloadBytes - len := by omega
        rw [if_neg (by rwa [h.size]), drop_append_of_le_length (by omega), drop_take, drop_drop,
          ← hsame]
        exact .payload ⟨h.frame, h.size⟩ rfl hbytes hnext (by omega) (by dsimp only; omega)
  · rw [afterPayload, h.size, hst]
    by_cases hdone : self.remainingPayloadBytes - min len rest.length = 0
    · rw [if_pos hdone]
      nofun
    · rw [if_neg hdone]
      by_cases hfull : self.dataOffset + min len rest.length = max
      · rw [if_pos hfull]
        nofun
      · intro _
        omega

theorem OwesData.writes (hmax : 0 < max) {l : Bytes} (h : OwesData max flags id data self l)
    (hrest : rest ≠ []) :
    (l = [] ∧ self.encodePart = none) ∨ Writes max flags id data self l rest := by
  cases h with
  | header hframe hst hbytes hoff hpos hle =>
    exact .inr (header_writes hmax hframe hst hbytes hoff hpos hle hrest)
  | payload hframe hst hbytes hlen hpos hle =>
    exact .inr (payload_writes hframe hst hbytes hlen hpos hle hrest)
  | done hst => exact .inl ⟨rfl, by rw [encodePart, hst]⟩

theorem encodeLoop_owes (hmax : 0 < max) {fuel : ℕ} {written l : Bytes}
    (h : OwesData max flags id data self l) (hfuel : rest.length < fuel) :
    ∃ next buf n, encodeLoop fuel self written rest = (next, .ok (buf, n)) ∧
      buf.take n = written ++ l.take rest.length ∧
      OwesData max flags id data next (l.drop rest.length) := by
  induction fuel generalizing self written rest l with
  | zero => cases hfuel
  | succ fuel ih =>
    rw [encodeLoop]
    by_cases hrest : rest = []
    · subst hrest
      exact ⟨self, written, _, if_pos rfl, by simp, h⟩
    · rw [if_neg hrest]
      rcases h.writes hmax hrest with
        ⟨rfl, hnone⟩ | ⟨part, next, n, hpart, hwrites, hpos, hroom, hle, hnext, hsame⟩
      · rw [hnone, drop_nil, take_nil, append_nil]
        exact ⟨self, _, _, rfl, take_left' rfl, h⟩
      · have hlength : (l.take n).length = n := length_take_of_le hle
        rw [hpart]
        dsimp only
        rw [hwrites]
        dsimp only
        by_cases hst : next.state = self.state
        · rw [if_pos hst]
          refine ⟨next, _, _, rfl, ?_, hsame hst ▸ hnext⟩
          rw [← hsame hst, ← append_assoc, take_left']
          rw [length_append, hlength]
        · have hleft : (rest.drop n).length < fuel := by
            rw [length_drop]
            omega
          obtain ⟨last, buf, m, hloop, htake, hlast⟩ :=
            @ih next (rest.drop n) (written ++ l.take n) (l.drop n) hnext hleft
          rw [length_drop] at htake hlast
          rw [if_neg hst, take_left' hlength, drop_left' hlength]
          refine ⟨last, buf, m, hloop, ?_, ?_⟩
          · rw [htake, append_assoc, ← take_add, Nat.add_sub_cancel' hroom]
          · rwa [drop_drop, Nat.add_sub_cancel' hroom] at hlast

/-- Calls with one buffer after another, and what they write. -/
def encodeAll : FrameEncoder → List Bytes → FrameEncoder × Except (Fault FrameEncoderErr) Bytes
  | self, [] => (self, .ok [])
  | self, buf :: bufs =>
    match self.encode buf with
    | (self, .error e) => (self, .error e)
    | (self, .ok (buf, n)) =>
      match encodeAll self bufs with
      | (self, .error e) => (self, .error e)
      | (self, .ok out) => (self, .ok (buf.take n ++ out))

theorem encodeAll_owes (hmax : 0 < max) {l : Bytes} (h : OwesData max flags id data self l)
    (bufs : List Bytes) : (self.encodeAll bufs).2 = .ok (l.take (bufs.map List.length).sum) := by
  induction bufs generalizing self l with
  | nil => rfl
  | cons buf bufs ih =>
    obtain ⟨next, buf', n, hcall, htake, hnext⟩ :=
      @encodeLoop_owes max flags id data self buf hmax (2 * buf.length + 2) [] l h (by omega)
    have hrest := ih hnext
    rw [encodeAll, encode, hcall]
    dsimp only
    rcases hall : next.encodeAll bufs with ⟨last, answer⟩
    rw [hall] at hrest
    obtain rfl : answer = _ := hrest
    dsimp only
    rw [htake, nil_append, map_cons, sum_cons, ← take_add]

/-- The data of a frame is written in frames of the size, into any buffers. -/
def FragmentsData (enc : FrameEncoder) (flags : FrameFlags) (id : StreamId) (data : Bytes) : Prop :=
  ∃ frames, Fragmented enc.maxFrameSize flags data frames ∧ ∀ bufs,
    ((enc.setFrame { id, flags, payload := .data data }).1.encodeAll bufs).2 =
      .ok ((frames.flatMap (DataFrame.octets id)).take (bufs.map List.length).sum)

variable {enc : FrameEncoder}

theorem encodeAll_fragments (hmax : 0 < enc.maxFrameSize) (hdata : data ≠ []) (bufs : List Bytes) :
    ((enc.setFrame { id, flags, payload := .data data }).1.encodeAll bufs).2 =
      .ok (((fragments enc.maxFrameSize flags data data.length).flatMap (DataFrame.octets id)).take
        (bufs.map length).sum) := by
  rw [← dataFrames_eq le_rfl]
  exact encodeAll_owes hmax (setFrame_owes enc rfl hdata) bufs

theorem FragmentsData.eq_fragments (h : FragmentsData enc flags id data) (hmax : 0 < enc.maxFrameSize)
    (hfld : enc.maxFrameSize < 2 ^ 24) (hdata : data ≠ []) :
    (fragments enc.maxFrameSize flags data data.length).flatMap Prod.snd = data := by
  obtain ⟨frames, hframes, hbufs⟩ := h
  have hoct : frames.flatMap (DataFrame.octets id) =
      (fragments enc.maxFrameSize flags data data.length).flatMap (DataFrame.octets id) := by
    -- One buffer with room for both.
    set octets := frames.flatMap (DataFrame.octets id)
    set octets' := (fragments enc.maxFrameSize flags data data.length).flatMap (DataFrame.octets id)
      with hoct'
    have hall := hbufs [replicate (octets.length + octets'.length) 0]
    rw [encodeAll_fragments hmax hdata, ← hoct', map_singleton, sum_singleton,
      length_replicate, take_of_length_le (Nat.le_add_left _ _),
      take_of_length_le (Nat.le_add_right _ _)] at hall
    exact (Except.ok.inj hall).symm
  have hsame := frames_unique (fun frame hframe => (hframes.fits frame hframe).trans_lt hfld)
    (fun frame hframe => (fragments_fit hmax frame hframe).trans_lt hfld) hoct
  rw [← hsame, hframes.data]

/-- A payload that is too long is written as it is exactly if it repeats its first
`max_frame_size` octets. -/
theorem fragmentsData_iff (hmax : 0 < enc.maxFrameSize) (hfield : enc.maxFrameSize < 2 ^ 24)
    (hlong : enc.maxFrameSize < data.length) :
    FragmentsData enc flags id data ↔
      ∀ i < data.length, data[i]? = data[i % enc.maxFrameSize]? := by
  have hdata : data ≠ [] := ne_nil_of_length_pos (by omega)
  constructor
  · intro h i hi
    have hget := @fragments_getElem? enc.maxFrameSize flags data data.length hmax le_rfl i
    rwa [h.eq_fragments hmax hfield hdata, if_pos hi] at hget
  · intro hrepeats
    refine ⟨_, ⟨fragments_fit hmax, ?_, fragments_ends⟩, encodeAll_fragments hmax hdata⟩
    refine ext_getElem? fun i => ?_
    rw [fragments_getElem? hmax le_rfl]
    by_cases hi : i < data.length
    · rw [if_pos hi, hrepeats i hi]
    · rw [if_neg hi, getElem?_eq_none (Nat.le_of_not_lt hi)]

theorem fragmentsData_replicate :
    FragmentsData (.new 16384 false) ⟨1⟩ 1 (List.replicate 20000 0x61) := by
  refine (fragmentsData_iff (by decide) (by decide)
    (by rw [length_replicate]; decide)).mpr fun i hi => ?_
  rw [length_replicate] at hi
  have hmod : i % (FrameEncoder.new 16384 false).maxFrameSize < 20000 :=
    (Nat.mod_le _ _).trans_lt hi
  rw [getElem?_replicate, getElem?_replicate, if_pos hi, if_pos hmod]

/-- The octet behind a full frame is lost. -/
theorem fragmentsData_lost :
    ¬∀ (enc : FrameEncoder) (flags : FrameFlags) (id : StreamId) (data : Bytes),
      enc.maxFrameSize < data.length → FragmentsData enc flags id data := by
  intro h
  have hlength : (replicate 16384 (0x61 : UInt8) ++ [0x62]).length = 16385 := by
    rw [length_append, length_replicate, length_singleton]
  have hdata := (h (.new 16384 false) ⟨1⟩ 1 (replicate 16384 0x61 ++ [0x62])
    (by rw [hlength]; decide)).eq_fragments (by decide) (by decide)
      (append_ne_nil_of_right_ne_nil _ (by decide))
  have hget := @fragments_getElem? 16384 ⟨1⟩ (replicate 16384 0x61 ++ [0x62]) _ (by decide)
    le_rfl 16384
  rw [hlength] at hdata hget
  have hlast : (replicate 16384 (0x61 : UInt8) ++ [0x62])[16384]? = some 0x62 := by
    rw [getElem?_append_right (by rw [length_replicate]), length_replicate]
    rfl
  have hfirst : (replicate 16384 (0x61 : UInt8) ++ [0x62])[16384 % 16384]? = some 0x61 := by
    rw [Nat.mod_self, getElem?_append_left (by rw [length_replicate]; decide),
      getElem?_replicate, if_pos (by decide)]
  rw [hfirst, if_pos (by decide)] at hget
  have hsame : (replicate 16384 (0x61 : UInt8) ++ [0x62])[16384]? = some 0x61 :=
    (congrArg (fun l : Bytes => l[16384]?) hdata).symm.trans hget
  rw [hlast] at hsame
  exact absurd hsame (by decide)

end FrameEncoder

end YlongHttp
