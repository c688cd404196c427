import YlongHttp.Verification.H3.Lasting
import YlongHttp.Verification.H3.Turns

/-! # What concerns one stream

A turn of another stream does not touch it. -/

namespace YlongHttp.H3

open Library H3.Streams

/-- What concerns a request. -/
structure View where
  stream : Option BidirectionalStream
  entry : Option EncodedH3Stream
  log : List Sent
  instructions : List Sent
  produced : List (ℕ × Produced)

def StreamManager.view (m : StreamManager) (i q : ℕ) : View where
  stream := m.streams.stream? i
  entry := m.encoder.streams.lookup i
  log := m.sent.filter (·.id = i)
  instructions := m.sent.filter fun s => s.request = i ∧ s.id = q
  produced := m.produced.filter (·.1 = i)

def StreamManager.resumedOf (m : StreamManager) (i : ℕ) : List (ℕ × FrameEncoder) :=
  m.resumed.filter (·.1 = i)

def StreamManager.readsOf (m : StreamManager) (i : ℕ) : List (ℕ × ℕ × Option BodyDataRef) :=
  m.reads.filter (·.1 = i)

namespace FrameEncoder

variable {self : FrameEncoder} {id i : ℕ}

theorem lookup_setFrame_of_ne (hne : i ≠ id) (frame : Frame) :
    (self.setFrame id frame).1.streams.lookup i = self.streams.lookup i := by
  have hput : ∀ stream : EncodedH3Stream,
      (self.streams.insert id stream).lookup i = self.streams.lookup i :=
    fun _ => AList.lookup_insert_ne hne
  simp only [setFrame]
  split
  · exact hput _
  · split
    · split <;> exact hput _
    · repeat' split
      all_goals exact hput _

theorem lookup_encode_of_ne (hne : i ≠ id) (room instRoom : ℕ) :
    (self.encode id room instRoom).1.streams.lookup i = self.streams.lookup i := by
  rw [encode]
  split
  · rfl
  · split
    · rfl
    · exact lookup_modify_of_ne hne _ _

end FrameEncoder

namespace Streams

variable (s : Streams)

/-! ## The own QPACK encoder stream -/

theorem qpackEncodeStreamId_consumePendingConcurrency (ids : List ℕ) :
    (consumePendingConcurrency ids s).qpackEncodeStreamId = s.qpackEncodeStreamId := by
  induction ids generalizing s with
  | nil => rfl
  | cons id ids ih =>
    rw [consumePendingConcurrency]
    split
    · rfl
    · exact ih _

theorem qpackEncodeStreamId_getHeader (id : ℕ) :
    (s.getHeader id).1.qpackEncodeStreamId = s.qpackEncodeStreamId := by
  rw [getHeader]
  split <;> rfl

theorem qpackEncodeStreamId_setEncoding (id : ℕ) (encoding : Bool) :
    (s.setEncoding id encoding).1.qpackEncodeStreamId = s.qpackEncodeStreamId := by
  rw [setEncoding]
  split <;> rfl

theorem qpackEncodeStreamId_pollSizedData (id len : ℕ) :
    (s.pollSizedData id len).1.qpackEncodeStreamId = s.qpackEncodeStreamId := by
  rw [pollSizedData]
  split
  · rfl
  · split
    · rfl
    · split <;> rfl

/-! ## Other streams -/

variable {s} {id i : ℕ}

theorem stream?_getHeader_of_ne (hne : i ≠ id) : (s.getHeader id).1.stream? i = s.stream? i := by
  rw [getHeader]
  split
  · rfl
  · exact stream?_setStream_of_ne hne _

theorem stream?_setEncoding_of_ne (hne : i ≠ id) (encoding : Bool) :
    (s.setEncoding id encoding).1.stream? i = s.stream? i := by
  rw [setEncoding]
  split
  · rfl
  · exact stream?_setStream_of_ne hne _

theorem stream?_pollSizedData_of_ne (hne : i ≠ id) (len : ℕ) :
    (s.pollSizedData id len).1.stream? i = s.stream? i := by
  rw [pollSizedData]
  split
  · rfl
  · split
    · rfl
    · split <;> exact stream?_setStream_of_ne hne _

theorem stream?_tryConsumePendingConcurrency :
    s.tryConsumePendingConcurrency.stream? i = s.stream? i :=
  congrArg (AList.lookup i) (consumePendingConcurrency_same _ _).1

end Streams

namespace StreamManager

variable {i q : ℕ} {m : StreamManager}

/-- The own QPACK encoder stream has the id `q`. -/
def Opened (q : ℕ) (m : StreamManager) : Prop := m.streams.qpackEncodeStreamId = some q

theorem triple_qpackEncodeStreamId {P : StreamManager → Prop} {may : ℕ → Prop} (hq : may q)
    (hopened : ∀ m, P m → Opened q m) :
    Triple P qpackEncodeStreamId (fun id m => may id ∧ P m) (fun _ => P) := by
  intro m hm
  have hid : m.streams.qpackEncodeStreamId = some q := hopened m hm
  rw [qpackEncodeStreamId, onStreams]
  simp only [hid]
  exact ⟨hq, hm⟩

theorem kept_opened : Kept (Opened q) fun _ => True where
  setFrame _ _ hm := hm
  encode _ hm := hm
  asked _ hm := hm
  sent _ _ _ _ hm := hm
  resumed _ _ hm := hm
  read _ _ _ hm := hm
  getHeader _ hm := (qpackEncodeStreamId_getHeader _ _).trans hm
  setEncoding _ _ hm := (qpackEncodeStreamId_setEncoding _ _ _).trans hm
  readBody _ _ hm := (qpackEncodeStreamId_pollSizedData _ _ _).trans hm
  sendLater _ hm := hm
  next hm := hm
  admission hm := (qpackEncodeStreamId_consumePendingConcurrency _ _).trans hm
  qpack := triple_qpackEncodeStreamId trivial fun _ hm => hm

theorem filter_append_of_ne {α : Type} {p : α → Bool} {as bs : List α}
    (h : ∀ b ∈ bs, p b = false) : (as ++ bs).filter p = as.filter p := by
  have hnone : bs.filter p = [] := List.filter_eq_nil_iff.mpr fun b hb => by simp [h b hb]
  rw [List.filter_append, hnone, List.append_nil]

theorem view_streams {streams : Streams} (h : streams.stream? i = m.streams.stream? i) :
    { m with streams }.view i q = m.view i q := by
  rw [view, h]
  rfl

theorem view_encoder {encoder : FrameEncoder}
    (h : encoder.streams.lookup i = m.encoder.streams.lookup i) :
    { m with encoder }.view i q = m.view i q := by
  rw [view, h]
  rfl

theorem kept_view (hq : q ≠ i)
    (p : View → List (ℕ × FrameEncoder) → List (ℕ × ℕ × Option BodyDataRef) → Prop) :
    Kept (fun m => Opened q m ∧ p (m.view i q) (m.resumedOf i) (m.readsOf i)) (· ≠ i) where
  setFrame {m id} frame hid hm := by
    refine ⟨hm.1, ?_⟩
    rw [view, FrameEncoder.lookup_setFrame_of_ne (Ne.symm hid)]
    exact hm.2
  encode {m id} hid hm := by
    refine ⟨hm.1, ?_⟩
    rw [view, FrameEncoder.lookup_encode_of_ne (Ne.symm hid), filter_append_of_ne]
    · exact hm.2
    · intro entry hent
      rw [Option.mem_toList, Option.map_eq_some_iff] at hent
      obtain ⟨_, _, rfl⟩ := hent
      simpa using hid
  asked _ hm := hm
  sent {m request id} octets fin hreq hid hm := by
    refine ⟨hm.1, ?_⟩
    rw [view, filter_append_of_ne, filter_append_of_ne]
    · exact hm.2
    · simpa using fun h => (hreq h).elim
    · simpa using hid
  resumed {m id} _ hid hm := by
    refine ⟨hm.1, ?_⟩
    rw [resumedOf, filter_append_of_ne]
    · exact hm.2
    · simpa using hid
  read {m id} _ _ hid hm := by
    refine ⟨hm.1, ?_⟩
    rw [readsOf, filter_append_of_ne]
    · exact hm.2
    · simpa using hid
  getHeader hid hm :=
    ⟨(qpackEncodeStreamId_getHeader _ _).trans hm.1,
      (view_streams (stream?_getHeader_of_ne (Ne.symm hid))).symm ▸ hm.2⟩
  setEncoding _ hid hm :=
    ⟨(qpackEncodeStreamId_setEncoding _ _ _).trans hm.1,
      (view_streams (stream?_setEncoding_of_ne (Ne.symm hid) _)).symm ▸ hm.2⟩
  readBody _ hid hm :=
    ⟨(qpackEncodeStreamId_pollSizedData _ _ _).trans hm.1,
      (view_streams (stream?_pollSizedData_of_ne (Ne.symm hid) _)).symm ▸ hm.2⟩
  sendLater _ hm := hm
  next hm := hm
  admission hm :=
    ⟨(qpackEncodeStreamId_consumePendingConcurrency _ _).trans hm.1,
      (view_streams stream?_tryConsumePendingConcurrency).symm ▸ hm.2⟩
  qpack := triple_qpackEncodeStreamId hq fun _ hm => hm.1

end StreamManager

end YlongHttp.H3
