import YlongHttp.Verification.H3.Encoding

/-! # What a stream of the frame encoder has left to write

A call of `encode` loses nothing: what it writes and what is left then is what was left. -/

namespace YlongHttp.H3

open List

namespace EncodedH3Stream

variable {e : EncodedH3Stream} {q : Qpack.QpackEncoder} {room instRoom fuel : ℕ}
  {left inst : Bytes}

/-- Such octets of the current frame, and of its instructions, are left to be written. -/
inductive Writing (e : EncodedH3Stream) : Bytes → Bytes → Prop where
  | rest : e.AtRest → e.headersMessage = none → e.payloadOffset = 0 → Writing e [] []
  | fields (message : EncHeaders) (ty : ℕ) (parts : Parts) (ins : Option Bytes) :
      e.state = .encodingHeadersPayload → e.headersMessage = some message →
      e.currentFrame = some { ty, payload := .headers parts ins } → e.payloadOffset = 0 →
      ¬ (message.remainingRepr = 0 ∧ message.remainingInst = 0) →
      Writing e (message.fields.drop message.reprOffset) (message.inst.drop message.instOffset)
  | dataFrame (data : Bytes) :
      e.state = .encodingDataFrame → e.headersMessage = none →
      e.currentFrame = some { ty := dataFrameType, payload := .data data } →
      e.payloadOffset = 0 → data ≠ [] → Writing e (dataOctets data) []
  | dataPayload (data : Bytes) :
      e.state = .encodingDataPayload → e.headersMessage = none →
      e.currentFrame = some { ty := dataFrameType, payload := .data data } →
      e.payloadOffset < data.length → Writing e (data.drop e.payloadOffset) []

/-- A HEADERS frame was set, and nothing was written of it. -/
structure Head (e : EncodedH3Stream) : Prop where
  state : e.state = .encodingHeadersFrame
  message : e.headersMessage = none
  offset : e.payloadOffset = 0
  frame : ∃ parts ins, e.currentFrame =
    some { ty := headersFrameType, payload := .headers parts ins }

theorem drop_eq_nil_of_remaining {octets : Bytes} {n : ℕ} (h : octets.length - n = 0) :
    octets.drop n = [] :=
  drop_eq_nil_of_le (by omega)

theorem Writing.atRest (h : e.Writing left inst) (hleft : left = []) (hinst : inst = []) :
    e.AtRest ∧ e.headersMessage = none ∧ e.payloadOffset = 0 := by
  cases h with
  | rest hrest hmsg hoff => exact ⟨hrest, hmsg, hoff⟩
  | fields message ty parts ins _ _ _ _ hrem =>
    refine (hrem ⟨?_, ?_⟩).elim
    · rw [EncHeaders.remainingRepr, ← length_drop, hleft, length_nil]
    · rw [EncHeaders.remainingInst, ← length_drop, hinst, length_nil]
  | dataFrame data => cases hleft
  | dataPayload data _ _ _ hlt =>
    rw [drop_eq_nil_iff] at hleft
    omega

theorem Writing.eq_nil (h : e.Writing left inst) (hrest : e.AtRest) : left = [] ∧ inst = [] := by
  cases h with
  | rest => exact ⟨rfl, rfl⟩
  | fields message ty parts ins hst | dataFrame data hst | dataPayload data hst =>
    rw [AtRest, hst] at hrest
    simp at hrest

theorem Writing.inst_eq (h : e.Writing left inst)
    (hmsg : ∀ message, e.headersMessage = some message → message.remainingInst = 0) :
    inst = [] := by
  cases h with
  | fields message _ _ _ _ hsome => exact drop_eq_nil_of_remaining (hmsg message hsome)
  | rest | dataFrame | dataPayload => rfl

theorem writing_afterWrite {message : EncHeaders} {ty : ℕ} {parts : Parts} {ins : Option Bytes}
    (hst : e.state = .encodingHeadersPayload) (hoff : e.payloadOffset = 0)
    (hframe : e.currentFrame = some { ty, payload := .headers parts ins }) :
    (e.afterWrite message).Writing (message.fields.drop message.reprOffset)
      (message.inst.drop message.instOffset) := by
  rw [afterWrite]
  split
  · rename_i hdone
    rw [drop_eq_nil_of_remaining hdone.1, drop_eq_nil_of_remaining hdone.2]
    exact .rest (.inr rfl) rfl hoff
  · rename_i hmore
    exact .fields message ty parts ins hst rfl hframe hoff hmore

theorem take_append_drop_length (octets : Bytes) (n room : ℕ) :
    (octets.drop n).take room ++ octets.drop (n + ((octets.drop n).take room).length) =
      octets.drop n := by
  have hcut : (octets.drop n).drop ((octets.drop n).take room).length =
      (octets.drop n).drop room := by
    rw [length_take, drop_eq_drop_iff]
    omega
  rw [← drop_drop, hcut, take_append_drop]

theorem eq_nil_of_take {octets : Bytes} {n : ℕ} (h : octets.take n = []) (hpos : 0 < n) :
    octets = [] :=
  (take_eq_nil_iff.mp h).resolve_left (by omega)

theorem writing_dataPayload {data : Bytes} (hst : e.state = .encodingDataPayload)
    (hmsg : e.headersMessage = none)
    (hframe : e.currentFrame = some { ty := dataFrameType, payload := .data data }) (n : ℕ) :
    ∃ left', (if data.length - e.payloadOffset ≤ n then
          { e with payloadOffset := 0, state := .frameComplete }
        else { e with payloadOffset := e.payloadOffset + n }).Writing left' [] ∧
      (data.drop e.payloadOffset).take n ++ left' = data.drop e.payloadOffset := by
  split
  · rename_i hfits
    refine ⟨[], .rest (.inr rfl) hmsg rfl, ?_⟩
    rw [append_nil, take_of_length_le (by rwa [length_drop])]
  · refine ⟨data.drop (e.payloadOffset + n), .dataPayload data hst hmsg hframe ?_, ?_⟩
    · dsimp only
      omega
    · rw [← drop_drop, take_append_drop]

/-- What a call has written of what was left. -/
structure Wrote (left inst : Bytes) (e' : EncodedH3Stream) (octets insts : Bytes) : Prop where
  writing : ∃ left' inst', e'.Writing left' inst' ∧ octets ++ left' = left ∧ insts ++ inst' = inst
  finished : octets = [] → insts = [] → left = [] ∧ inst = []

theorem Writing.encodeLoop (h : e.Writing left inst) (hroom : 1024 ≤ room)
    (hinst : 0 < instRoom) :
    (e.encodeLoop room instRoom room q []).2 = .error .panic ∨
    ∃ e' octets insts, e.encodeLoop room instRoom room q [] = ((e', q), .ok (octets, insts)) ∧
      Wrote left inst e' octets insts := by
  obtain ⟨fuel, rfl⟩ : ∃ fuel, room = fuel + 2 := ⟨room - 2, by omega⟩
  cases h with
  | rest hrest hmsg hoff =>
    refine .inr ⟨e, [], [], hrest.encodeLoop, ⟨[], [], .rest hrest hmsg hoff, rfl, rfl⟩,
      fun _ _ => ⟨rfl, rfl⟩⟩
  | fields message ty parts ins hst hmsg hframe hoff hrem =>
    refine .inr ⟨_, _, _, encodeLoop_headersPayload hst hframe hmsg
      (by simp only [length_nil]; omega), ⟨_, _, writing_afterWrite hst hoff hframe, ?_, ?_⟩, ?_⟩
    · exact take_append_drop_length _ _ _
    · exact take_append_drop_length _ _ _
    · intro hoct hinsts
      exact ⟨eq_nil_of_take hoct (by simp only [length_nil]; omega), eq_nil_of_take hinsts hinst⟩
  | dataFrame data hst hmsg hframe hoff hne =>
    obtain ⟨-, hpanic⟩ | ⟨-, hstart⟩ := encodeLoop_dataFrame hst hframe hroom
    · exact .inl hpanic
    · have hlen : (dataHead data).length ≤ 9 := Nat.succ_le_succ (length_varint_le data.length)
      refine .inr ⟨_, _, _, hstart.trans (encodeLoop_dataPayload rfl hframe (by omega)), ?_, ?_⟩
      · obtain ⟨left', hwriting, hleft⟩ :=
          writing_dataPayload (e := { e with state := .encodingDataPayload }) rfl hmsg hframe
            (fuel + 2 - (dataHead data).length)
        refine ⟨left', [], hwriting, ?_, rfl⟩
        rw [append_assoc, hleft, hoff, drop_zero]
        rfl
      · intro hoct
        cases hoct
  | dataPayload data hst hmsg hframe hlt =>
    obtain ⟨left', hwriting, hleft⟩ := writing_dataPayload hst hmsg hframe (fuel + 2)
    refine .inr ⟨_, _, _, encodeLoop_dataPayload hst hframe
      (by simp only [length_nil]; omega), ⟨left', [], hwriting, hleft, rfl⟩, ?_⟩
    intro hoct _
    exact ⟨eq_nil_of_take hoct (by simp only [length_nil]; omega), rfl⟩

theorem Head.encodeLoop (h : e.Head) (instRoom : ℕ) (hroom : 1024 ≤ room) :
    (e.encodeLoop room instRoom room q []).2 = .error .panic ∨
    ∃ q' fields inst e' octets insts, q.encode e.streamId = some (q', fields, inst) ∧
      e.encodeLoop room instRoom room q [] = ((e', q'), .ok (octets, insts)) ∧
      Wrote (headersOctets fields) inst e' octets insts := by
  obtain ⟨fuel, rfl⟩ : ∃ fuel, room = fuel + 2 := ⟨room - 2, by omega⟩
  obtain ⟨parts, ins, hframe⟩ := h.frame
  rcases @encodeLoop_headersFrame e q (fuel + 2) instRoom fuel parts ins h.state hframe
    h.message hroom with ⟨-, hpanic⟩ | ⟨q', fields, inst, henc, ⟨-, hpanic⟩ | ⟨-, hres⟩⟩
  · exact .inl hpanic
  · exact .inl hpanic
  · refine .inr ⟨q', fields, inst, _, _, _, henc, hres, ⟨_, _,
      writing_afterWrite rfl h.offset hframe, ?_, ?_⟩, ?_⟩
    · have hcut := take_append_drop_length fields 0 (fuel + 2 - (headersHead fields).length)
      rw [append_assoc]
      exact congrArg (headersHead fields ++ ·) hcut
    · exact take_append_drop_length inst 0 instRoom
    · intro hoct
      cases hoct

end EncodedH3Stream

end YlongHttp.H3
