import YlongHttp.Verification.H3.Writing
import YlongHttp.Verification.Qpack.Encodable
import YlongHttp.Verification.Qpack.EvictionSafety

/-! # The output of the frame encoder does not depend on the buffers

A HEADERS or DATA frame is drained into two buffers, each with its own offset. Whatever their
sizes are, every call fills them with the next octets, until all is written. -/

namespace YlongHttp.H3

open List
open Library
open Qpack (QpackEncoder)
open Qpack.QpackEncoder (oneHeader)

namespace EncodedH3Stream

variable {e : EncodedH3Stream} {q q' : QpackEncoder} {room instRoom : ℕ}
  {left inst fields data : Bytes}

/-! ## One call -/

/-- The writing of a frame has begun, and such octets and instructions are left. -/
structure Begun (e : EncodedH3Stream) (left inst : Bytes) : Prop where
  writing : e.Writing left inst
  state : e.state = .encodingHeadersPayload ∨ e.state = .encodingDataPayload ∨
    e.state = .frameComplete

theorem Begun.complete_iff (h : e.Begun left inst) :
    e.state = .frameComplete ↔ left = [] ∧ inst = [] := by
  constructor
  · intro hst
    exact h.writing.eq_nil (.inr hst)
  · rintro ⟨hleft, hinst⟩
    have hrest := (h.writing.atRest hleft hinst).1
    rcases h.state with hst | hst | hst
    · simp [AtRest, hst] at hrest
    · simp [AtRest, hst] at hrest
    · exact hst

theorem drop_length_take (octets : Bytes) (n room : ℕ) :
    octets.drop (n + ((octets.drop n).take room).length) = (octets.drop n).drop room := by
  rw [← drop_drop, length_take, drop_eq_drop_iff]
  omega

theorem begun_afterWrite {message : EncHeaders} {ty : ℕ} {parts : Parts} {ins : Option Bytes}
    (hst : e.state = .encodingHeadersPayload) (hoff : e.payloadOffset = 0)
    (hframe : e.currentFrame = some { ty, payload := .headers parts ins }) (n m : ℕ) :
    (e.afterWrite (wrote message ((message.fields.drop message.reprOffset).take n)
        ((message.inst.drop message.instOffset).take m))).Begun
      ((message.fields.drop message.reprOffset).drop n)
      ((message.inst.drop message.instOffset).drop m) where
  writing := by
    rw [← drop_length_take, ← drop_length_take]
    exact writing_afterWrite hst hoff hframe
  state := by
    rw [afterWrite]
    split
    · exact .inr (.inr rfl)
    · exact .inl hst

theorem begun_dataPayload (hst : e.state = .encodingDataPayload)
    (hmsg : e.headersMessage = none)
    (hframe : e.currentFrame = some { ty := dataFrameType, payload := .data data }) (n : ℕ) :
    (if data.length - e.payloadOffset ≤ n then
        { e with payloadOffset := 0, state := .frameComplete }
      else { e with payloadOffset := e.payloadOffset + n }).Begun
      ((data.drop e.payloadOffset).drop n) [] := by
  split
  · rename_i hfits
    rw [drop_eq_nil_of_le (by rwa [length_drop])]
    exact ⟨.rest (.inr rfl) hmsg rfl, .inr (.inr rfl)⟩
  · rw [drop_drop]
    refine ⟨.dataPayload data hst hmsg hframe ?_, .inr (.inl hst)⟩
    dsimp only
    omega

theorem Begun.encodeLoop (h : e.Begun left inst) (hroom : 1024 ≤ room) :
    ∃ e', e.encodeLoop room instRoom room q [] =
        ((e', q), .ok (left.take room, inst.take instRoom)) ∧
      e'.Begun (left.drop room) (inst.drop instRoom) := by
  obtain ⟨fuel, rfl⟩ : ∃ fuel, room = fuel + 1 := ⟨room - 1, by omega⟩
  have hpos : ([] : Bytes).length < fuel + 1 := Nat.succ_pos _
  cases h.writing with
  | rest hrest =>
    refine ⟨e, by rw [hrest.encodeLoop, take_nil, take_nil], ?_⟩
    rw [drop_nil, drop_nil]
    exact h
  | fields message ty parts ins hst hmsg hframe hoff =>
    exact ⟨_, encodeLoop_headersPayload hst hframe hmsg hpos, begun_afterWrite hst hoff hframe _ _⟩
  | dataFrame data hst =>
    have hbegun := h.state
    simp [hst] at hbegun
  | dataPayload data hst hmsg hframe =>
    rw [take_nil, drop_nil]
    exact ⟨_, encodeLoop_dataPayload hst hframe hpos, begun_dataPayload hst hmsg hframe (fuel + 1)⟩

/-! ## The first call -/

theorem length_headersHead_le (fields : Bytes) : (headersHead fields).length ≤ 9 :=
  Nat.succ_le_succ (length_varint_le fields.length)

theorem length_dataHead_le (data : Bytes) : (dataHead data).length ≤ 9 :=
  Nat.succ_le_succ (length_varint_le data.length)

/-- A DATA frame was set, and nothing was written of it. -/
structure DataHead (e : EncodedH3Stream) (data : Bytes) : Prop where
  state : e.state = .encodingDataFrame
  message : e.headersMessage = none
  offset : e.payloadOffset = 0
  frame : e.currentFrame = some { ty := dataFrameType, payload := .data data }

variable {head octets : Bytes}

theorem take_head (h : head.length ≤ room) :
    head ++ octets.take (room - head.length) = (head ++ octets).take room := by
  rw [take_append, take_of_length_le h]

theorem drop_head (h : head.length ≤ room) :
    octets.drop (room - head.length) = (head ++ octets).drop room := by
  rw [drop_append, drop_eq_nil_of_le h, nil_append]

theorem Head.begins (h : e.Head) (henc : q.encode e.streamId = some (q', fields, inst))
    (hlen : fields.length < 2 ^ 62) (instRoom : ℕ) (hroom : 1024 ≤ room) :
    ∃ e', e.encodeLoop room instRoom room q [] =
        ((e', q'), .ok ((headersOctets fields).take room, inst.take instRoom)) ∧
      e'.Begun ((headersOctets fields).drop room) (inst.drop instRoom) := by
  obtain ⟨fuel, rfl⟩ : ∃ fuel, room = fuel + 2 := ⟨room - 2, by omega⟩
  have hhead : (headersHead fields).length ≤ fuel + 2 := (length_headersHead_le fields).trans
    (by omega)
  obtain ⟨parts, ins, hframe⟩ := h.frame
  rcases @encodeLoop_headersFrame e q (fuel + 2) instRoom fuel parts ins h.state hframe
    h.message hroom with ⟨hnone, -⟩ | ⟨q₁, fields₁, inst₁, hsome, hcall⟩
  · rw [henc] at hnone
    cases hnone
  · obtain ⟨rfl, rfl, rfl⟩ : q₁ = q' ∧ fields₁ = fields ∧ inst₁ = inst := by
      simpa [henc, eq_comm] using hsome
    obtain ⟨hlong, -⟩ | ⟨-, hres⟩ := hcall
    · omega
    · refine ⟨_, hres.trans (by rw [take_head hhead]; rfl), ?_⟩
      rw [headersOctets, ← drop_head hhead]
      exact @begun_afterWrite { e with state := .encodingHeadersPayload } (.new fields₁ inst₁)
        headersFrameType parts ins rfl h.offset hframe _ _

theorem Head.panics (h : e.Head)
    (hnot : ∀ q' fields inst, q.encode e.streamId = some (q', fields, inst) →
      2 ^ 62 ≤ fields.length) (instRoom : ℕ) (hroom : 1024 ≤ room) :
    (e.encodeLoop room instRoom room q []).2 = .error .panic := by
  obtain ⟨fuel, rfl⟩ : ∃ fuel, room = fuel + 2 := ⟨room - 2, by omega⟩
  obtain ⟨parts, ins, hframe⟩ := h.frame
  rcases @encodeLoop_headersFrame e q (fuel + 2) instRoom fuel parts ins h.state hframe
    h.message hroom with ⟨-, hpanic⟩ | ⟨q', fields, inst, hsome, ⟨-, hpanic⟩ | ⟨hshort, -⟩⟩
  · exact hpanic
  · exact hpanic
  · exact absurd (hnot q' fields inst hsome) (Nat.not_le.mpr hshort)

theorem DataHead.begins (h : e.DataHead data) (hlen : data.length < 2 ^ 62) (instRoom : ℕ)
    (hroom : 1024 ≤ room) :
    ∃ e', e.encodeLoop room instRoom room q [] =
        ((e', q), .ok ((dataOctets data).take room, ([] : Bytes).take instRoom)) ∧
      e'.Begun ((dataOctets data).drop room) (([] : Bytes).drop instRoom) := by
  obtain ⟨fuel, rfl⟩ : ∃ fuel, room = fuel + 2 := ⟨room - 2, by omega⟩
  have hhead : (dataHead data).length < fuel + 2 := (length_dataHead_le data).trans_lt (by omega)
  obtain ⟨hlong, -⟩ | ⟨-, hstart⟩ :=
    @encodeLoop_dataFrame e q (fuel + 2) instRoom fuel data h.state h.frame hroom
  · omega
  · have hcall := hstart.trans (encodeLoop_dataPayload rfl h.frame hhead)
    have hbegun := @begun_dataPayload { e with state := .encodingDataPayload } data rfl
      h.message h.frame (fuel + 2 - (dataHead data).length)
    simp only [h.offset, drop_zero] at hcall hbegun
    rw [take_nil, drop_nil, dataOctets, ← take_head hhead.le, ← drop_head hhead.le]
    exact ⟨_, hcall, hbegun⟩

theorem DataHead.panics (h : e.DataHead data) (hlen : 2 ^ 62 ≤ data.length) (instRoom : ℕ)
    (hroom : 1024 ≤ room) : (e.encodeLoop room instRoom room q []).2 = .error .panic := by
  obtain ⟨fuel, rfl⟩ : ∃ fuel, room = fuel + 2 := ⟨room - 2, by omega⟩
  obtain ⟨-, hpanic⟩ | ⟨hshort, -⟩ := encodeLoop_dataFrame h.state h.frame hroom
  · exact hpanic
  · omega

/-! ## Any call -/

/-- A message is kept, and an offset, only while it is being written. -/
structure Tidy (e : EncodedH3Stream) : Prop where
  message : e.state ≠ .encodingHeadersPayload → e.headersMessage = none
  offset : e.state ≠ .encodingDataPayload → e.payloadOffset = 0

theorem Tidy.new (id : ℕ) : (EncodedH3Stream.new id).Tidy := ⟨fun _ => rfl, fun _ => rfl⟩

theorem Tidy.atRest (h : e.Tidy) (hst : ¬(e.state ≠ .idle ∧ e.state ≠ .frameComplete)) :
    e.headersMessage = none ∧ e.payloadOffset = 0 := by
  rcases not_and_or.mp hst with hst | hst <;> rw [not_not] at hst
  · exact ⟨h.message (by simp [hst]), h.offset (by simp [hst])⟩
  · exact ⟨h.message (by simp [hst]), h.offset (by simp [hst])⟩

/-- What a call keeps. -/
structure Keeps (e : EncodedH3Stream) (q : QpackEncoder) (e' : EncodedH3Stream)
    (q' : QpackEncoder) : Prop where
  streamId : e'.streamId = e.streamId
  tidy : e.Tidy → e'.Tidy
  numbered : q.table.Numbered → q'.table.Numbered

theorem Keeps.refl (e : EncodedH3Stream) (q : QpackEncoder) : Keeps e q e q := ⟨rfl, id, id⟩

theorem Keeps.trans {e₁ e₂ e₃ : EncodedH3Stream} {q₁ q₂ q₃ : QpackEncoder}
    (h : Keeps e₁ q₁ e₂ q₂) (h' : Keeps e₂ q₂ e₃ q₃) : Keeps e₁ q₁ e₃ q₃ :=
  ⟨h'.streamId.trans h.streamId, h'.tidy ∘ h.tidy, h'.numbered ∘ h.numbered⟩

theorem Keeps.state (q : QpackEncoder) {state : FrameEncoderState}
    (hheaders : e.state ≠ .encodingHeadersPayload) (hdata : e.state ≠ .encodingDataPayload) :
    Keeps e q { e with state } q :=
  ⟨rfl, fun h => ⟨fun _ => h.message hheaders, fun _ => h.offset hdata⟩, id⟩

theorem Keeps.headersReprAndInst (hst : e.state = .encodingHeadersPayload) (q : QpackEncoder)
    (room instRoom : ℕ) : Keeps e q (e.encodeHeadersReprAndInst room instRoom).1 q := by
  have hdata : e.state ≠ .encodingDataPayload := by simp [hst]
  rw [encodeHeadersReprAndInst]
  split
  · exact .refl e q
  · dsimp only
    split
    · exact ⟨rfl, fun h => ⟨fun _ => rfl, fun _ => h.offset hdata⟩, id⟩
    · exact ⟨rfl, fun h => ⟨fun hne => absurd hst hne, fun _ => h.offset hdata⟩, id⟩

theorem Keeps.headersPayload (hst : e.state = .encodingHeadersPayload) (q : QpackEncoder)
    (room instRoom : ℕ) :
    Keeps e q (e.encodeHeadersPayload q room instRoom).1.1
      (e.encodeHeadersPayload q room instRoom).1.2 := by
  have hdata : e.state ≠ .encodingDataPayload := by simp [hst]
  rw [encodeHeadersPayload]
  split
  · exact .refl e q
  · split
    · rw [encodeHeadersWithQpack]
      split
      · exact headersReprAndInst hst q _ _
      · split
        · exact .refl e q
        · rename_i q' fields inst henc
          have hkeeps : Keeps e q { e with headersMessage := some (.new fields inst) } q' := by
            refine ⟨rfl, fun h => ⟨fun hne => absurd hst hne, fun _ => h.offset hdata⟩, ?_⟩
            intro hnum
            obtain ⟨-, hnone⟩ | ⟨-, q₁, _, _, hsome, hnum'⟩ :=
              Qpack.QpackEncoder.numbered_encode hnum e.streamId
            · rw [henc] at hnone
              cases hnone
            · obtain ⟨rfl, -⟩ := Prod.mk.inj (Option.some.inj (henc.symm.trans hsome))
              exact hnum'
          dsimp only
          split
          · exact hkeeps
          · exact hkeeps.trans (@Keeps.headersReprAndInst
              { e with headersMessage := some (.new fields inst) } hst q' _ _)
    · exact .refl e q

theorem Keeps.dataPayload (hst : e.state = .encodingDataPayload) (q : QpackEncoder) (room : ℕ) :
    Keeps e q (e.encodeDataPayload room).1 q := by
  have hheaders : e.state ≠ .encodingHeadersPayload := by simp [hst]
  rw [encodeDataPayload]
  split
  · exact .refl e q
  · split
    · split
      · exact ⟨rfl, fun h => ⟨fun _ => h.message hheaders, fun _ => rfl⟩, id⟩
      · exact ⟨rfl, fun h => ⟨fun _ => h.message hheaders, fun hne => absurd hst hne⟩, id⟩
    · exact .refl e q

section Quiet

variable (hheaders : e.state ≠ .encodingHeadersPayload) (hdata : e.state ≠ .encodingDataPayload)

include hheaders hdata

theorem Keeps.settingsPayload (q : QpackEncoder) (room : ℕ) :
    Keeps e q (e.encodeSettingsPayload room).1 q := by
  rw [encodeSettingsPayload]
  split
  · exact .refl e q
  · split
    · exact .state q hheaders hdata
    · exact .refl e q

theorem Keeps.id (q : QpackEncoder) (id room : ℕ) : Keeps e q (e.encodeId id room).1 q := by
  rw [encodeId]
  split
  · exact .refl e q
  · split
    · exact .refl e q
    · exact .state q hheaders hdata

theorem Keeps.cancelPush (q : QpackEncoder) (room : ℕ) :
    Keeps e q (e.encodeCancelPush room).1 q := by
  rw [encodeCancelPush]
  split
  · exact .refl e q
  · split
    · exact Keeps.id hheaders hdata q _ room
    · exact .refl e q

theorem Keeps.goaway (q : QpackEncoder) (room : ℕ) : Keeps e q (e.encodeGoaway room).1 q := by
  rw [encodeGoaway]
  split
  · exact .refl e q
  · split
    · exact Keeps.id hheaders hdata q _ room
    · exact .refl e q

theorem Keeps.maxPushId (q : QpackEncoder) (room : ℕ) : Keeps e q (e.encodeMaxPushId room).1 q := by
  rw [encodeMaxPushId]
  split
  · exact .refl e q
  · split
    · exact Keeps.id hheaders hdata q _ room
    · exact .refl e q

end Quiet

theorem keeps_encodeLoop (e : EncodedH3Stream) (q : QpackEncoder) (room instRoom fuel : ℕ)
    (written : Bytes) :
    Keeps e q (e.encodeLoop room instRoom fuel q written).1.1
      (e.encodeLoop room instRoom fuel q written).1.2 := by
  induction fuel generalizing e q written with
  | zero => exact .refl e q
  | succ fuel ih =>
    rw [encodeLoop]
    split
    · exact .refl e q
    · dsimp only
      cases hst : e.state with
      | idle | frameComplete => exact .refl e q
      | encodingHeadersFrame =>
        dsimp only
        split
        · exact .refl e q
        · exact (Keeps.state q (by simp [hst]) (by simp [hst])).trans (ih _ _ _)
      | encodingHeadersPayload =>
        have hkeeps := Keeps.headersPayload hst q (room - written.length) instRoom
        dsimp only
        split <;> rename_i hres <;> rw [hres] at hkeeps <;> exact hkeeps
      | encodingDataFrame =>
        dsimp only
        split
        · exact .refl e q
        · split
          · exact .refl e q
          · exact (Keeps.state q (by simp [hst]) (by simp [hst])).trans (ih _ _ _)
      | encodingDataPayload => exact Keeps.dataPayload hst q _
      | encodingSettingsFrame =>
        dsimp only
        split
        · exact .refl e q
        · split
          · exact .refl e q
          · exact (Keeps.state q (by simp [hst]) (by simp [hst])).trans (ih _ _ _)
      | encodingSettingsPayload => exact Keeps.settingsPayload (by simp [hst]) (by simp [hst]) q _
      | encodingCancelPushFrame =>
        dsimp only
        split
        · exact .refl e q
        · exact Keeps.cancelPush (by simp [hst]) (by simp [hst]) q _
      | encodingGoawayFrame =>
        dsimp only
        split
        · exact .refl e q
        · exact Keeps.goaway (by simp [hst]) (by simp [hst]) q _
      | encodingMaxPushIdFrame =>
        dsimp only
        split
        · exact .refl e q
        · exact Keeps.maxPushId (by simp [hst]) (by simp [hst]) q _

end EncodedH3Stream

open EncodedH3Stream

namespace FrameEncoder

variable {self self' : FrameEncoder} {id : ℕ} {left inst octets : Bytes}
  {buffers : List (ℕ × ℕ)}

/-! ## Runs of the encoder -/

/-- The states that any calls lead to; a panic ends the run. -/
inductive Reached : FrameEncoder → Prop
  | default : Reached .default
  | setMaxTableCapacity {self : FrameEncoder} (reached : Reached self) (maxCap : ℕ) :
      Reached (self.setMaxTableCapacity maxCap).1
  | setMaxBlockedStreamSize {self : FrameEncoder} (reached : Reached self) (maxBlocked : ℕ) :
      Reached (self.setMaxBlockedStreamSize maxBlocked)
  | setFrame {self : FrameEncoder} (reached : Reached self) (id : ℕ) (frame : Frame) :
      Reached (self.setFrame id frame).1
  | encode {self : FrameEncoder} (reached : Reached self) (id room instRoom : ℕ)
      (returns : (self.encode id room instRoom).2 ≠ .error .panic) :
      Reached (self.encode id room instRoom).1
  | finishStream {self : FrameEncoder} (reached : Reached self) (id : ℕ) :
      Reached (self.finishStream id).1
  | decodeRemoteInst {self : FrameEncoder} (reached : Reached self) (order : List ℕ → List ℕ)
      (buf : Bytes) (returns : (self.decodeRemoteInst order buf).2 ≠ .error .panic) :
      Reached (self.decodeRemoteInst order buf).1

/-- The entries of the table bear their indices, and the streams are tidy. -/
structure Orderly (encoder : FrameEncoder) : Prop where
  numbered : encoder.qpackEncoder.table.Numbered
  tidy : ∀ id e, encoder.streams.lookup id = some e → e.streamId = id ∧ e.Tidy

variable {e : EncodedH3Stream} {q : QpackEncoder} {data : Bytes}

theorem Orderly.insert (h : self.Orderly) (hq : q.table.Numbered) (hid : e.streamId = id)
    (htidy : e.Tidy) :
    Orderly { qpackEncoder := q, streams := self.streams.insert id e } where
  numbered := hq
  tidy := by
    intro id' e' hget
    by_cases heq : id' = id
    · subst heq
      rw [AList.lookup_insert] at hget
      cases hget
      exact ⟨hid, htidy⟩
    · rw [AList.lookup_insert_ne heq] at hget
      exact h.tidy id' e' hget

theorem Orderly.getD (h : self.Orderly) (id : ℕ) :
    ((self.streams.lookup id).getD (.new id)).streamId = id ∧
      ((self.streams.lookup id).getD (.new id)).Tidy := by
  cases hget : self.streams.lookup id with
  | none => exact ⟨rfl, .new id⟩
  | some e => exact h.tidy id e hget

theorem Orderly.setFrame (h : self.Orderly) (id : ℕ) (frame : Frame) :
    (self.setFrame id frame).1.Orderly := by
  obtain ⟨hid, htidy⟩ := h.getD id
  rw [FrameEncoder.setFrame]
  dsimp only
  split
  · exact h.insert h.numbered hid htidy
  · rename_i hst
    obtain ⟨hmsg, hoff⟩ := htidy.atRest hst
    -- whichever state the stream gets, it keeps nothing
    have hput : ∀ (q : QpackEncoder) (e : EncodedH3Stream), q.table.Numbered →
        e.streamId = id → e.headersMessage = none → e.payloadOffset = 0 →
        Orderly { qpackEncoder := q, streams := self.streams.insert id e } :=
      fun q e hq hid hmsg hoff => h.insert hq hid ⟨fun _ => hmsg, fun _ => hoff⟩
    split
    · split
      · exact hput _ _ h.numbered hid hmsg hoff
      · exact hput _ _ h.numbered hid hmsg hoff
    · split
      · exact hput _ _ h.numbered hid hmsg hoff
      · split
        · exact hput _ _ h.numbered hid hmsg hoff
        · split
          · exact hput _ _ h.numbered hid hmsg hoff
          · split
            · exact hput _ _ h.numbered hid hmsg hoff
            · split
              · exact hput _ _ h.numbered hid hmsg hoff
              · exact hput _ _ h.numbered hid hmsg hoff

theorem Orderly.encode (h : self.Orderly) (id room instRoom : ℕ) :
    (self.encode id room instRoom).1.Orderly := by
  rw [FrameEncoder.encode]
  split
  · exact h
  · cases hget : self.streams.lookup id with
    | none => exact h
    | some e =>
      have hkeeps := keeps_encodeLoop e self.qpackEncoder room instRoom room []
      obtain ⟨hid, htidy⟩ := h.tidy id e hget
      refine ⟨hkeeps.numbered h.numbered, ?_⟩
      intro id' e' hget'
      by_cases heq : id' = id
      · subst heq
        rw [lookup_modify_self, hget] at hget'
        cases hget'
        exact ⟨hkeeps.streamId.trans hid, hkeeps.tidy htidy⟩
      · rw [lookup_modify_of_ne heq] at hget'
        exact h.tidy id' e' hget'

theorem Orderly.finishStream (h : self.Orderly) (id : ℕ) : (self.finishStream id).1.Orderly := by
  rw [FrameEncoder.finishStream]
  split
  · exact h
  · refine ⟨h.numbered, ?_⟩
    intro id' e hget
    by_cases heq : id' = id
    · subst heq
      rw [AList.lookup_erase] at hget
      cases hget
    · rw [AList.lookup_erase_ne heq] at hget
      exact h.tidy id' e hget

theorem Orderly.decodeRemoteInst (h : self.Orderly) (order : List ℕ → List ℕ) (buf : Bytes) :
    (self.decodeRemoteInst order buf).1.Orderly :=
  ⟨Qpack.QpackEncoder.numbered_decodeInsLoop h.numbered order buf.length buf, h.tidy⟩

theorem Reached.orderly (h : self.Reached) : self.Orderly := by
  induction h with
  | default => exact ⟨.withEmpty, by simp [FrameEncoder.default]⟩
  | setMaxTableCapacity reached maxCap ih =>
    rw [FrameEncoder.setMaxTableCapacity, QpackEncoder.setMaxTableCapacity]
    split
    · exact ih
    · rename_i q hset
      simp only [Option.ite_none_left_eq_some, Option.some.injEq] at hset
      obtain ⟨-, rfl⟩ := hset
      exact ⟨ih.numbered, ih.tidy⟩
  | setMaxBlockedStreamSize reached maxBlocked ih => exact ⟨ih.numbered, ih.tidy⟩
  | setFrame reached id frame ih => exact ih.setFrame id frame
  | encode reached id room instRoom returns ih => exact ih.encode id room instRoom
  | finishStream reached id ih => exact ih.finishStream id
  | decodeRemoteInst reached order buf returns ih => exact ih.decodeRemoteInst order buf

/-! ## Calls for one frame -/

def IsComplete (self : FrameEncoder) (id : ℕ) : Prop :=
  ∃ e, self.streams.lookup id = some e ∧ e.state = .frameComplete

/-- Calls of `encode` with one buffer after another, and all that they write. -/
def encodeAll (id : ℕ) : List (ℕ × ℕ) → FrameEncoder →
    FrameEncoder × Except (Fault H3Error) (Bytes × Bytes)
  | [], self => (self, .ok ([], []))
  | (room, instRoom) :: buffers, self =>
    match self.encode id room instRoom with
    | (self, .error e) => (self, .error e)
    | (self, .ok (octets, inst)) =>
      let (self, rest) := encodeAll id buffers self
      (self, rest.map fun (more, moreInst) => (octets ++ more, inst ++ moreInst))

def frameRoom (buffers : List (ℕ × ℕ)) : ℕ := (buffers.map Prod.fst).sum

def instRooms (buffers : List (ℕ × ℕ)) : ℕ := (buffers.map Prod.snd).sum

@[simp] theorem frameRoom_nil : frameRoom [] = 0 := rfl

@[simp] theorem instRooms_nil : instRooms [] = 0 := rfl

@[simp] theorem frameRoom_cons (room instRoom : ℕ) (buffers : List (ℕ × ℕ)) :
    frameRoom ((room, instRoom) :: buffers) = room + frameRoom buffers := by
  simp [frameRoom]

@[simp] theorem instRooms_cons (room instRoom : ℕ) (buffers : List (ℕ × ℕ)) :
    instRooms ((room, instRoom) :: buffers) = instRoom + instRooms buffers := by
  simp [instRooms]

def Buffers (buffers : List (ℕ × ℕ)) : Prop := ∀ b ∈ buffers, 1024 ≤ b.1 ∧ 0 < b.2

theorem length_le_rooms (h : Buffers buffers) :
    buffers.length ≤ frameRoom buffers ∧ buffers.length ≤ instRooms buffers := by
  induction buffers with
  | nil => simp
  | cons b buffers ih =>
    obtain ⟨room, instRoom⟩ := b
    obtain ⟨hroom, hinst⟩ := h (room, instRoom) (.head _)
    obtain ⟨hframe, hinsts⟩ := ih fun b hb => h b (.tail _ hb)
    simp only [frameRoom_cons, instRooms_cons, length_cons]
    omega

def Owes (self : FrameEncoder) (id : ℕ) (left inst : Bytes) : Prop :=
  ∃ e, self.streams.lookup id = some e ∧ e.Begun left inst

theorem Owes.isComplete_iff (h : self.Owes id left inst) :
    self.IsComplete id ↔ left = [] ∧ inst = [] := by
  obtain ⟨e, hget, hbegun⟩ := h
  rw [← hbegun.complete_iff]
  constructor
  · rintro ⟨e', hget', hst⟩
    cases hget.symm.trans hget'
    exact hst
  · exact fun hst => ⟨e, hget, hst⟩

theorem encode_eq {e' : EncodedH3Stream} {room instRoom : ℕ}
    {result : Except (Fault H3Error) (Bytes × Bytes)} (hget : self.streams.lookup id = some e)
    (hroom : 1024 ≤ room)
    (hloop : e.encodeLoop room instRoom room self.qpackEncoder [] = ((e', q), result)) :
    self.encode id room instRoom =
      ({ qpackEncoder := q, streams := modify id (fun _ => e') self.streams }, result) := by
  rw [encode, if_neg (Nat.not_lt.mpr hroom), hget]
  simp only [hloop]

theorem Owes.encode (h : self.Owes id left inst) {room : ℕ} (hroom : 1024 ≤ room)
    (instRoom : ℕ) :
    ∃ self', self.encode id room instRoom = (self', .ok (left.take room, inst.take instRoom)) ∧
      self'.Owes id (left.drop room) (inst.drop instRoom) := by
  obtain ⟨e, hget, hbegun⟩ := h
  obtain ⟨e', hloop, hbegun'⟩ := hbegun.encodeLoop hroom
  refine ⟨_, encode_eq hget hroom hloop, e', ?_, hbegun'⟩
  rw [lookup_modify_self, hget]
  rfl

theorem Owes.encodeAll (h : self.Owes id left inst) (hbuffers : Buffers buffers) :
    ∃ self', encodeAll id buffers self =
        (self', .ok (left.take (frameRoom buffers), inst.take (instRooms buffers))) ∧
      self'.Owes id (left.drop (frameRoom buffers)) (inst.drop (instRooms buffers)) := by
  induction buffers generalizing self left inst with
  | nil => exact ⟨self, by simp [FrameEncoder.encodeAll], by simpa using h⟩
  | cons b buffers ih =>
    obtain ⟨room, instRoom⟩ := b
    obtain ⟨self₁, hfirst, howes⟩ := h.encode (hbuffers (room, instRoom) (.head _)).1 instRoom
    obtain ⟨self₂, hrest, howes'⟩ := ih howes fun b hb => hbuffers b (.tail _ hb)
    refine ⟨self₂, ?_, ?_⟩
    · simp only [FrameEncoder.encodeAll, hfirst, hrest, Except.map, frameRoom_cons,
        instRooms_cons, take_add]
    · simpa only [frameRoom_cons, instRooms_cons, drop_drop] using howes'

/-- `encode` writes `octets` and `inst` for the frame that was set on a stream, each octet once,
whatever the buffers are. -/
structure Writes (encoder : FrameEncoder) (id : ℕ) (octets inst : Bytes) : Prop where
  /-- One call with buffers that are large enough. -/
  once : ∀ room instRoom, 1024 ≤ room → octets.length ≤ room → inst.length ≤ instRoom →
    ∃ self', encoder.encode id room instRoom = (self', .ok (octets, inst)) ∧ self'.IsComplete id
  /-- Calls with any buffers fill them, and complete the frame once all is written. -/
  filled : ∀ buffers, Buffers buffers → ∃ self', encodeAll id buffers encoder =
      (self', .ok (octets.take (frameRoom buffers), inst.take (instRooms buffers))) ∧
    (self'.IsComplete id ↔ octets.length ≤ frameRoom buffers ∧ inst.length ≤ instRooms buffers)
  /-- Enough calls complete it. -/
  completes : ∀ buffers, Buffers buffers → max octets.length inst.length ≤ buffers.length →
    ∃ self', encodeAll id buffers encoder = (self', .ok (octets, inst)) ∧ self'.IsComplete id

theorem writes_of_first (hne : octets ≠ []) (hnot : ¬self.IsComplete id)
    (hfirst : ∀ room instRoom, 1024 ≤ room → ∃ self',
      self.encode id room instRoom = (self', .ok (octets.take room, inst.take instRoom)) ∧
        self'.Owes id (octets.drop room) (inst.drop instRoom)) :
    self.Writes id octets inst := by
  have hfill : ∀ buffers, Buffers buffers → ∃ self', encodeAll id buffers self =
        (self', .ok (octets.take (frameRoom buffers), inst.take (instRooms buffers))) ∧
      (self'.IsComplete id ↔
        octets.length ≤ frameRoom buffers ∧ inst.length ≤ instRooms buffers) := by
    intro buffers hbuffers
    cases buffers with
    | nil => exact ⟨self, by simp [encodeAll], iff_of_false hnot (by simp [hne])⟩
    | cons b buffers =>
      obtain ⟨room, instRoom⟩ := b
      obtain ⟨self₁, hcall, howes⟩ := hfirst room instRoom (hbuffers (room, instRoom) (.head _)).1
      obtain ⟨self₂, hrest, howes'⟩ := howes.encodeAll fun b hb => hbuffers b (.tail _ hb)
      refine ⟨self₂, ?_, ?_⟩
      · simp only [encodeAll, hcall, hrest, Except.map, frameRoom_cons, instRooms_cons, take_add]
      · rw [howes'.isComplete_iff, drop_drop, drop_drop, drop_eq_nil_iff,
          drop_eq_nil_iff, frameRoom_cons, instRooms_cons]
  refine ⟨?_, hfill, ?_⟩
  · intro room instRoom hroom hoct hinst
    obtain ⟨self', hcall, howes⟩ := hfirst room instRoom hroom
    rw [take_of_length_le hoct, take_of_length_le hinst] at hcall
    refine ⟨self', hcall, howes.isComplete_iff.mpr ⟨?_, ?_⟩⟩
    · exact drop_eq_nil_of_le hoct
    · exact drop_eq_nil_of_le hinst
  · intro buffers hbuffers henough
    obtain ⟨self', hall, hcomp⟩ := hfill buffers hbuffers
    obtain ⟨hframe, hinsts⟩ := length_le_rooms hbuffers
    rw [take_of_length_le (by omega), take_of_length_le (by omega)] at hall
    exact ⟨self', hall, hcomp.mpr (by omega)⟩

theorem not_writes_of_panic
    (hpanic : ∀ room instRoom, 1024 ≤ room →
      (self.encode id room instRoom).2 = .error .panic) : ¬self.Writes id octets inst := by
  intro h
  obtain ⟨self', hcall, -⟩ := h.once (max 1024 octets.length) inst.length (le_max_left _ _)
    (le_max_right _ _) le_rfl
  have hfails := hpanic (max 1024 octets.length) inst.length (le_max_left _ _)
  rw [hcall] at hfails
  cases hfails

/-! ## HEADERS and DATA -/

/-- The frames of a message. -/
inductive IsMessage : Frame → Prop
  | headers (parts : Parts) (ins : Option Bytes) :
      IsMessage { ty := headersFrameType, payload := .headers parts ins }
  | data (data : Bytes) : IsMessage { ty := dataFrameType, payload := .data data }

theorem setFrame_headers (h : self.Orderly) {parts : Parts} {ins : Option Bytes}
    (hset : self.setFrame id { ty := headersFrameType, payload := .headers parts ins } =
      (self', .ok ())) :
    ∃ e, self'.streams.lookup id = some e ∧ e.Head ∧ e.streamId = id := by
  obtain ⟨hid, htidy⟩ := h.getD id
  rw [setFrame] at hset
  dsimp only at hset
  split at hset
  · cases hset
  · rename_i hst
    obtain ⟨hmsg, hoff⟩ := htidy.atRest hst
    rw [if_pos rfl] at hset
    obtain ⟨rfl, -⟩ := Prod.mk.inj hset
    exact ⟨_, AList.lookup_insert _, ⟨rfl, hmsg, hoff, parts, ins, rfl⟩, hid⟩

theorem setFrame_data (h : self.Orderly)
    (hset : self.setFrame id { ty := dataFrameType, payload := .data data } = (self', .ok ())) :
    ∃ e, self'.streams.lookup id = some e ∧ e.DataHead data := by
  obtain ⟨-, htidy⟩ := h.getD id
  rw [setFrame] at hset
  dsimp only at hset
  split at hset
  · cases hset
  · rename_i hst
    obtain ⟨hmsg, hoff⟩ := htidy.atRest hst
    rw [if_neg (by decide), if_pos rfl] at hset
    obtain ⟨rfl, -⟩ := Prod.mk.inj hset
    exact ⟨_, AList.lookup_insert _, rfl, hmsg, hoff, rfl⟩

/-- The payload can be encoded, and its length fits an integer of 62 bits. -/
def Writable (self : FrameEncoder) (id : ℕ) (frame : Frame) : Prop :=
  match frame.payload with
  | .data data => data.length < 2 ^ 62
  | _ => self.qpackEncoder.Encodable id ∧ ∀ q fields inst,
      self.qpackEncoder.encode id = some (q, fields, inst) → fields.length < 2 ^ 62

theorem not_isComplete (hget : self.streams.lookup id = some e) (hst : e.state ≠ .frameComplete) :
    ¬self.IsComplete id := by
  rintro ⟨e', hget', hcomp⟩
  cases hget.symm.trans hget'
  exact hst hcomp

theorem writes_headers (hnum : self.qpackEncoder.table.Numbered)
    (hget : self.streams.lookup id = some e) (hhead : e.Head) (hid : e.streamId = id)
    (parts : Parts) (ins : Option Bytes) :
    (∃ octets inst, self.Writes id octets inst) ↔
      self.Writable id { ty := headersFrameType, payload := .headers parts ins } := by
  constructor
  · rintro ⟨octets, inst, h⟩
    by_contra hnot
    refine not_writes_of_panic ?_ h
    intro room instRoom hroom
    have hpanic := @Head.panics e self.qpackEncoder room hhead ?_ instRoom hroom
    · rcases hloop : e.encodeLoop room instRoom room self.qpackEncoder [] with ⟨⟨e', q⟩, result⟩
      rw [hloop] at hpanic
      rw [encode_eq hget hroom hloop]
      exact hpanic
    · intro q fields inst henc
      rw [hid] at henc
      by_contra hshort
      refine hnot ⟨?_, ?_⟩
      · obtain ⟨-, hnone⟩ | ⟨hencodable, -⟩ := Qpack.QpackEncoder.numbered_encode hnum id
        · rw [henc] at hnone
          cases hnone
        · exact hencodable
      · intro q' fields' inst' henc'
        rw [henc] at henc'
        cases henc'
        exact Nat.not_le.mp hshort
  · rintro ⟨hencodable, hshort⟩
    obtain ⟨hnot, -⟩ | ⟨-, q, fields, inst, henc, -⟩ := Qpack.QpackEncoder.numbered_encode hnum id
    · exact absurd hencodable hnot
    · refine ⟨headersOctets fields, inst, writes_of_first (by simp [headersOctets, headersHead])
        (not_isComplete hget (by simp [hhead.state])) ?_⟩
      intro room instRoom hroom
      obtain ⟨e', hloop, hbegun⟩ := hhead.begins (hid ▸ henc) (hshort q fields inst henc)
        instRoom hroom
      refine ⟨_, encode_eq hget hroom hloop, e', ?_, hbegun⟩
      rw [lookup_modify_self, hget]
      rfl

theorem writes_data (hget : self.streams.lookup id = some e) (hhead : e.DataHead data) :
    (∃ octets inst, self.Writes id octets inst) ↔
      self.Writable id { ty := dataFrameType, payload := .data data } := by
  constructor
  · rintro ⟨octets, inst, h⟩
    by_contra hlong
    refine not_writes_of_panic ?_ h
    intro room instRoom hroom
    have hpanic := @DataHead.panics e self.qpackEncoder room data hhead (Nat.not_lt.mp hlong)
      instRoom hroom
    rcases hloop : e.encodeLoop room instRoom room self.qpackEncoder [] with ⟨⟨e', q⟩, result⟩
    rw [hloop] at hpanic
    rw [encode_eq hget hroom hloop]
    exact hpanic
  · intro hshort
    refine ⟨dataOctets data, [], writes_of_first (by simp [dataOctets, dataHead])
      (not_isComplete hget (by simp [hhead.state])) ?_⟩
    intro room instRoom hroom
    obtain ⟨e', hloop, hbegun⟩ := hhead.begins hshort instRoom hroom
    refine ⟨_, encode_eq hget hroom hloop, e', ?_, hbegun⟩
    rw [lookup_modify_self, hget]
    rfl

/-- Whatever the encoder was called for before: the output for a HEADERS or DATA frame is the
same for all buffers, and is complete in the end, exactly if the payload can be written. -/
theorem output_independent_of_buffers (h : self.Reached) {frame : Frame}
    (hframe : IsMessage frame) (hset : self.setFrame id frame = (self', .ok ())) :
    (∃ octets inst, self'.Writes id octets inst) ↔ self'.Writable id frame := by
  have hnum := (h.orderly.setFrame id frame).numbered
  rw [hset] at hnum
  cases hframe with
  | headers parts ins =>
    obtain ⟨e, hget, hhead, hid⟩ := setFrame_headers h.orderly hset
    exact writes_headers hnum hget hhead hid parts ins
  | data data =>
    obtain ⟨e, hget, hhead⟩ := setFrame_data h.orderly hset
    exact writes_data hget hhead

def headersFrame (parts : Parts) : Frame :=
  { ty := headersFrameType, payload := .headers parts none }

def twoParts : Parts :=
  { oneHeader "ab" with map := ((oneHeader "ab").map.append (str "c") []).getD Headers.new }

/-- A section of the fields `ab` and `c`, which inserts both and fills the table. -/
def twoSet : FrameEncoder :=
  (((default.setMaxBlockedStreamSize 1).setMaxTableCapacity 67).1.setFrame 0
    (headersFrame twoParts)).1

theorem started_reached :
    ((default.setMaxBlockedStreamSize 1).setMaxTableCapacity 67).1.Reached :=
  (Reached.default.setMaxBlockedStreamSize 1).setMaxTableCapacity 67

theorem output_independent_two_fields :
    (∃ q fields inst, twoSet.qpackEncoder.encode 0 = some (q, fields, inst) ∧
      1 < fields.length ∧ 1 < inst.length) ∧
    ∃ octets inst, twoSet.Writes 0 octets inst := by
  have hencs : (twoSet.qpackEncoder.encode 0).any (fun result => result.2.1.length < 2 ^ 62 ∧
      1 < result.2.1.length ∧ 1 < result.2.2.length) = true := by decide +kernel
  obtain ⟨⟨q, fields, inst⟩, henc, hlengths⟩ := (Option.any_eq_true _ _).mp hencs
  obtain ⟨hshort, hlong⟩ := of_decide_eq_true hlengths
  have hencodable : twoSet.qpackEncoder.Encodable 0 := by
    obtain ⟨-, hnone⟩ | ⟨hencodable, -⟩ := Qpack.QpackEncoder.numbered_encode
      (started_reached.orderly.setFrame 0 (headersFrame twoParts)).numbered 0
    · cases hnone.symm.trans henc
    · exact hencodable
  refine ⟨⟨q, fields, inst, henc, hlong⟩, (output_independent_of_buffers started_reached
    (.headers twoParts none) (rfl : _ = (twoSet, Except.ok ()))).mpr ⟨hencodable, ?_⟩⟩
  intro q' fields' inst' henc'
  cases henc.symm.trans henc'
  exact hshort

/-- The fields `ab` and `c` in a table that has room for no more, and that no stream refers to any
more. -/
def twoFields : FrameEncoder :=
  ((twoSet.encode 0 1024 1024).1.decodeRemoteInst (fun indices => indices) [0x40]).1

theorem twoFields_reached : twoFields.Reached :=
  ((started_reached.setFrame 0 _).encode 0 1024 1024 (by decide)).decodeRemoteInst _ _ (by decide)

/-- To make room for a third field, the size of the first is taken off twice. -/
theorem third_field_panics :
    twoFields.Reached ∧
      (twoFields.setFrame 4 (headersFrame (oneHeader "xyz"))).2 = .ok () ∧
      ¬∃ octets inst, (twoFields.setFrame 4 (headersFrame (oneHeader "xyz"))).1.Writes 4
        octets inst := by
  have hset : twoFields.setFrame 4 (headersFrame (oneHeader "xyz")) =
      ((twoFields.setFrame 4 (headersFrame (oneHeader "xyz"))).1, .ok ()) := rfl
  have hnum := (twoFields_reached.orderly.setFrame 4 (headersFrame (oneHeader "xyz"))).numbered
  obtain ⟨e, hget, hhead, hid⟩ := setFrame_headers twoFields_reached.orderly hset
  refine ⟨twoFields_reached, rfl, ?_⟩
  rw [writes_headers hnum hget hhead hid (oneHeader "xyz") none]
  rintro ⟨hencodable, -⟩
  obtain ⟨hnot, -⟩ | ⟨-, q, fields, inst, henc, -⟩ := Qpack.QpackEncoder.numbered_encode hnum 4
  · exact hnot hencodable
  · have hnone : ((twoFields.setFrame 4
        (headersFrame (oneHeader "xyz"))).1.qpackEncoder.encode 4).isNone = true := by decide
    rw [henc] at hnone
    cases hnone

end FrameEncoder

end YlongHttp.H3
