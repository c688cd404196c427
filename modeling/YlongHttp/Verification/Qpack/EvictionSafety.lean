import YlongHttp.Verification.Qpack.EncoderRuns

/-! # Eviction from the table of the QPACK encoder

An entry must stay while an unacknowledged section refers to it, and until its insertion is
acknowledged. The encoder keeps to that in every run whose questions to `can_evict` meet
`LikeOldest`. -/

namespace YlongHttp.Qpack

open Option
open Qpack.DynamicTable

namespace QpackEncoder

theorem Safe.fits_iff {acked : ℕ} {e : QpackEncoder} (h : e.Safe acked) (c : Call) :
    (∀ table required, e.Asks c table required → EvictsRightly acked table required) ↔
      e.Fits acked c := by
  cases c with
  | setMaxTableCapacity maxCap | setMaxBlockedStreamSize maxBlocked =>
    exact ⟨fun _ _ _ h => h.elim, fun _ _ _ h => h.elim⟩
  | setParts parts => exact ⟨fun _ _ _ h => h.elim, fun _ _ _ h => h.elim⟩
  | decoderInstruction order perm inst => exact ⟨fun _ _ _ h => h.elim, fun _ _ _ h => h.elim⟩
  | encode streamId =>
    have hsound := h.tracks.sound
    -- the question about the capacity comes first, and decides whether the fields are reached
    have hstart : ∀ e' inst, (∀ newCap, e.capacityToUpdate = some newCap →
        newCap < e.table.capacity → LikeOldest acked e.table (e.table.capacity - newCap)) →
        e.updateMaxDynamicTableCap = some (e', inst) →
        (e'.startSection inst).Encodes e'.refs := by
      intro e' inst hlike hupd
      obtain ⟨e₁, inst₁, hupd₁, hsafe, -⟩ := h.updateMaxDynamicTableCap hlike
      obtain ⟨rfl, rfl⟩ := Prod.mk.inj (some.inj (hupd₁.symm.trans hupd))
      exact ⟨hsafe.tracks, hsafe.within, by simp [startSection], by simp [startSection]⟩
    constructor
    · intro hright
      have hlike : ∀ newCap, e.capacityToUpdate = some newCap → newCap < e.table.capacity →
          LikeOldest acked e.table (e.table.capacity - newCap) := by
        intro newCap hcap hlt
        exact (evictsRightly_iff hsound _).mp (hright _ _ (.inl ⟨newCap, hcap, hlt, rfl, rfl⟩))
      rintro table required (⟨newCap, hcap, hlt, rfl, rfl⟩ | ⟨e', inst, hupd, hasks⟩)
      · exact hlike newCap hcap hlt
      · exact ((hstart e' inst hlike hupd).asks_iff _).mp
          (fun t n ha => hright t n (.inr ⟨e', inst, hupd, ha⟩)) table required hasks
    · intro hfits
      have hlike : ∀ newCap, e.capacityToUpdate = some newCap → newCap < e.table.capacity →
          LikeOldest acked e.table (e.table.capacity - newCap) := by
        intro newCap hcap hlt
        exact hfits _ _ (.inl ⟨newCap, hcap, hlt, rfl, rfl⟩)
      rintro table required (⟨newCap, hcap, hlt, rfl, rfl⟩ | ⟨e', inst, hupd, hasks⟩)
      · exact (evictsRightly_iff hsound _).mpr (hlike newCap hcap hlt)
      · exact ((hstart e' inst hlike hupd).asks_iff _).mpr
          (fun t n ha => hfits t n (.inr ⟨e', inst, hupd, ha⟩)) table required hasks

/-- In every run whose questions to `can_evict` meet the condition, the entries are counted
and within the capacity. The next call has its questions answered rightly exactly if they
meet the condition, and then the entries that go are neither referred to nor
unacknowledged. -/
theorem encoder_eviction_safe {acked : ℕ} {e : QpackEncoder} (h : Reached Fits acked e) :
    (e.table.usedCap = fieldsSize e.table.queue ∧ e.table.usedCap ≤ e.table.capacity) ∧
      ∀ c : Call,
        ((∀ table required, e.Asks c table required → EvictsRightly acked table required) ↔
          e.Fits acked c) ∧
        (e.Fits acked c → ∀ e', e.call c = some e' → SparesHeld acked e e') := by
  have hsafe := h.safe fun _ _ _ hfits => hfits
  refine ⟨⟨hsafe.tracks.sound.used, hsafe.within⟩, ?_⟩
  intro c
  refine ⟨hsafe.fits_iff c, ?_⟩
  intro hfits e' he
  exact (hsafe.call c hfits he).2

/-! ### Runs on a table with room for one entry -/

def oneHeader (name : String) : Parts :=
  { Parts.new with map := (Headers.new.append (str name) []).getD Headers.new }

def Call.Sets : Call → Prop
  | .encode _ => False
  | .decoderInstruction _ _ _ => False
  | _ => True

/-- An encoder with room for one entry, about to encode the field `a`. -/
def oneField : QpackEncoder :=
  { default with
    maxBlockedStreams := 1
    fieldIter := some (partsFields (oneHeader "a"))
    capacityToUpdate := some 40 }

theorem oneField_reached {permits : ℕ → QpackEncoder → Call → Prop}
    (h : ∀ acked e c, c.Sets → permits acked e c) : Reached permits 0 oneField := by
  have hblocked : Reached permits 0 (default.setMaxBlockedStreamSize 1) :=
    .call (.setMaxBlockedStreamSize 1) .default (h _ _ _ trivial) rfl
  have hparts : Reached permits 0
      ((default.setMaxBlockedStreamSize 1).setParts (oneHeader "a")) :=
    .call (.setParts (oneHeader "a")) hblocked (h _ _ _ trivial) rfl
  exact .call (.setMaxTableCapacity 40) hparts (h _ _ _ trivial) rfl

theorem oneField_fits : oneField.Fits 0 (.encode 1) := by
  rintro table required (⟨newCap, hcap, hlt, -, -⟩ | ⟨e', inst, hupd, hasks⟩)
  · cases hlt
  · obtain ⟨rfl, rfl⟩ := Prod.mk.inj (some.inj hupd)
    cases hasks with
    | here notFound allowed =>
      intro front rest hqueue
      cases hqueue
    | later encoded asks => cases asks

theorem Call.Sets.fits {acked : ℕ} {e : QpackEncoder} {c : Call} (h : c.Sets) : e.Fits acked c := by
  cases c with
  | encode | decoderInstruction => exact h.elim
  | _ => exact fun _ _ h => h.elim

/-- `oneField` once its section is encoded and acknowledged, about to encode the field `b`. -/
def nextField : QpackEncoder :=
  (((oneField.call (.encode 1)).bind (·.ack id 1)).get (by decide)).setParts (oneHeader "b")

theorem nextField_reached : Reached Fits 1 nextField := by
  have hfirst : Reached Fits 0 ((oneField.call (.encode 1)).get (by decide)) :=
    .call (.encode 1) (oneField_reached fun _ _ _ hsets => hsets.fits) oneField_fits
      (some_get _).symm
  have hacked : Reached Fits 1
      (((oneField.call (.encode 1)).bind (·.ack id 1)).get (by decide)) :=
    .call (.decoderInstruction id (fun _ => .refl _) (.ack 1)) hfirst (fun _ _ h => h.elim) rfl
  exact .call (.setParts (oneHeader "b")) hacked (Call.Sets.fits trivial) rfl

theorem nextField_fits : nextField.Fits 1 (.encode 2) := by
  rintro table required (⟨newCap, hcap, -⟩ | ⟨e', inst, hupd, hasks⟩)
  · cases hcap
  · obtain ⟨rfl, rfl⟩ := Prod.mk.inj (some.inj hupd)
    cases hasks with
    | here notFound allowed =>
      intro front rest hqueue _ _ _ _
      cases hqueue
      refine ⟨?_, fun field hfield => ?_⟩
      · change Reaches 33 7 33 1
        exact reaches_succ_iff.mpr ⟨by decide, by decide, reaches_zero_iff.mpr (by decide)⟩
      · obtain rfl := List.mem_singleton.mp hfield
        exact ⟨by decide, by decide⟩
    | later encoded asks => cases asks

/-- The entry of the acknowledged section makes room for the next one. -/
theorem encoder_eviction_safe_second_field :
    ∃ e', nextField.call (.encode 2) = some e' ∧ e'.table.removeCount = 1 ∧
      SparesHeld 1 nextField e' ∧ e'.table.usedCap = 33 ∧ e'.table.usedCap ≤ e'.table.capacity := by
  have hcalled : nextField.call (.encode 2) = some ((nextField.call (.encode 2)).get (by decide)) :=
    (some_get _).symm
  have hspares := ((encoder_eviction_safe nextField_reached).2 (.encode 2)).2 nextField_fits _ hcalled
  have hnext : Reached Fits 1 ((nextField.call (.encode 2)).get (by decide)) :=
    .call (.encode 2) nextField_reached nextField_fits hcalled
  exact ⟨_, hcalled, by decide, hspares, by decide, (encoder_eviction_safe hnext).1.2⟩

/-- The entry of a section that was cancelled makes room for another one, although its
insertion was never acknowledged. -/
theorem encoder_evicts_unacknowledged :
    ∃ e e', Reached (fun _ _ _ => True) 0 e ∧ e.call (.encode 2) = some e' ∧
      ¬ SparesHeld 0 e e' := by
  have hfirst : Reached (fun _ _ _ => True) 0
      ((oneField.call (.encode 1)).get (by decide)) :=
    .call (.encode 1) (oneField_reached fun _ _ _ _ => trivial) trivial (some_get _).symm
  have hcancelled : Reached (fun _ _ _ => True) 0
      ((((oneField.call (.encode 1)).get (by decide)).cancelStream 1).get
        (by decide)) :=
    .call (.decoderInstruction id (fun _ => .refl _) (.streamCancel 1)) hfirst trivial
      (some_get _).symm
  have hnext := Reached.call (.setParts (oneHeader "b")) hcancelled trivial rfl
  refine ⟨_, (_ : Option QpackEncoder).get (by decide), hnext, (some_get _).symm, ?_⟩
  intro hspares
  exact absurd (hspares 0 (by decide) (by decide)).2.2 (by decide)

end QpackEncoder

end YlongHttp.Qpack
