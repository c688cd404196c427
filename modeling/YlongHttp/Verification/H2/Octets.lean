import YlongHttp.Model.H2.Encoder

/-! # The octets of frames

What the encoder has to write for a frame. Every method that writes a header or a payload
writes the next octets of it, as far as the buffer goes. -/

namespace YlongHttp

open List
open FrameEncoder (settingValue goawayOctet settingsOctet priorityOctet)

/-! ## Octets -/

def fourOctets (value : UInt32) : Bytes :=
  [octetAt value.toNat 24, octetAt value.toNat 16, octetAt value.toNat 8, octetAt value.toNat 0]

variable (payloadLen : ℕ)

def frameHeader (frameType flags : UInt8) (streamId : StreamId) : Bytes :=
  [octetAt payloadLen 16, octetAt payloadLen 8, octetAt payloadLen 0, frameType, flags] ++
    fourOctets streamId

@[simp] theorem frameHeader_length (frameType flags : UInt8) (streamId : StreamId) :
    (frameHeader payloadLen frameType flags streamId).length = 9 := rfl

theorem frameHeaderOctet_eq (frameType flags : UInt8) (streamId : StreamId) {i : ℕ} {b : UInt8}
    (h : (frameHeader payloadLen frameType flags streamId)[i]? = some b) :
    frameHeaderOctet payloadLen frameType flags streamId i = .ok b := by
  have hi : i < 9 := (List.getElem?_eq_some_iff.mp h).1
  interval_cases i <;> cases h <;> rfl

/-! ## Loops over a buffer -/

theorem assign_slice {item : ℕ → Except (Fault FrameEncoderErr) (ℕ × UInt8)} {l : Bytes}
    {start len i : ℕ} {buf : Bytes} (hbuf : i + len ≤ buf.length)
    (hl : start + i + len ≤ l.length)
    (hitem : ∀ j < i + len, ∀ b, l[start + j]? = some b → item j = .ok (j, b)) :
    assign item len i buf =
      .ok (buf.take i ++ (l.drop (start + i)).take len ++ buf.drop (i + len)) := by
  induction len generalizing i buf with
  | zero => simp [assign]
  | succ len ih =>
    obtain ⟨b, hb⟩ : ∃ b, l[start + i]? = some b := ⟨l[start + i], getElem?_eq_getElem (by omega)⟩
    rw [assign, hitem i (by omega) b hb]
    simp only [show i < buf.length by omega, if_true]
    rw [ih (by rw [length_set]; omega) (by omega)
      (fun j hj => hitem j (by omega))]
    have htake : (buf.set i b).take (i + 1) = buf.take i ++ [b] := by
      rw [take_add_one, getElem?_set_self (by omega), take_set_of_le le_rfl]
      rfl
    have hdrop : (l.drop (start + i)).take (len + 1) =
        b :: (l.drop (start + (i + 1))).take len := by
      rw [List.drop_eq_getElem_cons (by omega), List.take_succ_cons,
        (List.getElem?_eq_some_iff.mp hb).2]
      rfl
    rw [htake, hdrop, List.drop_set_of_lt (by omega), show i + 1 + len = i + (len + 1) by omega]
    simp

theorem iterate_slice {octet : ℕ → Except (Fault FrameEncoderErr) UInt8} {l : Bytes}
    {start len : ℕ} {buf : Bytes} (hbuf : len ≤ buf.length) (hl : start + len ≤ l.length)
    (hoctet : ∀ i < len, ∀ b, l[start + i]? = some b → octet i = .ok b) :
    iterate octet len buf = .ok ((l.drop start).take len ++ buf.drop len) := by
  rw [iterate, @assign_slice _ l start len 0 buf (by omega) (by omega)]
  · simp
  · intro i hi b hb
    rw [hoctet i (by omega) b hb]
    rfl

/-- The DATA frames for the last `remaining` octets. Each takes its payload from the start of
`data`. -/
def dataFrames (max : ℕ) (flags : UInt8) (id : StreamId) (data : Bytes) (remaining : ℕ) : Bytes :=
  if _ : remaining ≤ max ∨ max = 0 then
    frameHeader remaining 0x0 flags id ++ data.take remaining
  else
    frameHeader max 0x0 (flags &&& 0xFE) id ++
      (data.take max ++ dataFrames max flags id data (remaining - max))
termination_by remaining
decreasing_by omega

end YlongHttp
