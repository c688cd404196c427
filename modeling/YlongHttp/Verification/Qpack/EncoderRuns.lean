import YlongHttp.Verification.Qpack.Sections

/-! # Runs of the QPACK encoder

A run is any sequence of capacity updates, field sections and decoder instructions. The
number of insertions that the decoder has acknowledged is not a field of the encoder; it is
carried along with the run. -/

namespace YlongHttp.Qpack

open List QpackEncoder AList
open Qpack.DynamicTable

namespace QpackEncoder

/-! ### The references of the unacknowledged sections -/

def refsOf (streams : AList fun _ : ℕ => List (List ℕ)) : List ℕ :=
  (streams.entries.map fun s => s.2.flatten).flatten

def refs (e : QpackEncoder) : List ℕ := refsOf e.trackedStream

theorem refsOf_insert (streams : AList fun _ : ℕ => List (List ℕ)) (id : ℕ)
    (sections : List (List ℕ)) :
    refsOf (streams.insert id sections) = sections.flatten ++ refsOf (streams.erase id) := by
  rw [refsOf, entries_insert, map_cons, flatten_cons]
  rfl

variable {id acked streamId increment : ℕ} {sections : List (List ℕ)}
  {streams : AList fun _ : ℕ => List (List ℕ)} {e e' : QpackEncoder} {refs fields : List ℕ}
  {r : ReprEncoder} {order : List ℕ → List ℕ}

theorem entries_perm {β : Type} {m : AList fun _ : ℕ => β} {b : β} (h : m.lookup id = some b) :
    m.entries.Perm (⟨id, b⟩ :: (m.erase id).entries) := by
  have hmem : id ∈ m.entries.keys := mem_keys.mp (lookup_isSome.mp (by rw [h]; rfl))
  obtain ⟨b', front, back, -, hentries, herase⟩ := exists_of_kerase hmem
  have hb : m.lookup id = some b' := mem_lookup_iff.mpr (by rw [hentries]; simp)
  obtain rfl : b = b' := Option.some.inj (h.symm.trans hb)
  have hrest : (m.erase id).entries = front ++ back := herase
  rw [hrest, hentries]
  exact perm_middle

theorem refsOf_erase (h : streams.lookup id = some sections) :
    (refsOf streams).Perm (sections.flatten ++ refsOf (streams.erase id)) := by
  have hperm := (entries_perm h).map fun s => s.2.flatten
  exact hperm.flatten

theorem erase_eq_self {β : Type} {m : AList fun _ : ℕ => β} (h : m.lookup id = none) :
    m.erase id = m := by
  have hmem : id ∉ m.entries.keys := fun hmem => lookup_eq_none.mp h (mem_keys.mpr hmem)
  exact ext (kerase_of_notMem_keys hmem)

theorem refsOf_push (streams : AList fun _ : ℕ => List (List ℕ)) (id : ℕ) (fields : List ℕ) :
    (refsOf (streams.insert id ((streams.lookup id).getD [] ++ [fields]))).Perm
      (fields ++ refsOf streams) := by
  rw [refsOf_insert]
  cases h : streams.lookup id with
  | none => simp [erase_eq_self h]
  | some sections =>
    simp only [Option.getD_some, flatten_append, flatten_singleton, append_assoc]
    exact (perm_append_comm_assoc _ _ _).trans ((refsOf_erase h).symm.append_left fields)

def blockedCount (known : ℕ) (streams : AList fun _ : ℕ => List (List ℕ)) : ℕ :=
  streams.entries.countP fun s => isBlocked known s.2

theorem blockedCount_insert (known : ℕ) (streams : AList fun _ : ℕ => List (List ℕ)) (id : ℕ)
    (sections : List (List ℕ)) :
    blockedCount known (streams.insert id sections) =
      blockedCount known (streams.erase id) + if isBlocked known sections then 1 else 0 := by
  rw [blockedCount, entries_insert, countP_cons]
  rfl

theorem blockedCount_erase (known : ℕ) (h : streams.lookup id = some sections) :
    blockedCount known streams =
      blockedCount known (streams.erase id) + if isBlocked known sections then 1 else 0 := by
  rw [blockedCount, (entries_perm h).countP_eq, countP_cons]
  rfl

theorem isBlocked_append (known : ℕ) (front back : List (List ℕ)) :
    isBlocked known (front ++ back) = (isBlocked known front || isBlocked known back) := by
  simp [isBlocked]

/-! ### Runs -/

inductive Call where
  | setMaxTableCapacity (maxCap : ℕ)
  | setMaxBlockedStreamSize (maxBlocked : ℕ)
  | setParts (parts : Parts)
  | encode (streamId : ℕ)
  | decoderInstruction (order : List ℕ → List ℕ) (perm : ∀ l, (order l).Perm l)
      (inst : DecoderInstruction)

/-- The encoder after a call; `none` is a panic. -/
def call (e : QpackEncoder) : Call → Option QpackEncoder
  | .setMaxTableCapacity maxCap => some ((e.setMaxTableCapacity maxCap).getD e)
  | .setMaxBlockedStreamSize maxBlocked => some (e.setMaxBlockedStreamSize maxBlocked)
  | .setParts parts => some (e.setParts parts)
  | .encode streamId => (e.encode streamId).map Prod.fst
  | .decoderInstruction order _ inst => e.apply order inst

def insertCountOf (fields : List ℕ) : ℕ := (fields.map (· + 1)).foldr max 0

def ackedAfter (e : QpackEncoder) (acked : ℕ) : DecoderInstruction → ℕ
  | .ack streamId =>
    match e.trackedStream.lookup streamId with
    | some (fields :: _) => max acked (insertCountOf fields)
    | _ => acked
  | .streamCancel _ => acked
  | .insertCountIncrement increment => acked + increment

def acknowledged (e : QpackEncoder) (acked : ℕ) : Call → ℕ
  | .decoderInstruction _ _ inst => e.ackedAfter acked inst
  | _ => acked

/-- The states that calls lead to, each of them permitted, with the number of insertions
that are acknowledged there. -/
inductive Reached (permits : ℕ → QpackEncoder → Call → Prop) : ℕ → QpackEncoder → Prop
  | default : Reached permits 0 .default
  | call {acked : ℕ} {e e' : QpackEncoder} (c : Call) (reached : Reached permits acked e)
      (permitted : permits acked e c) (called : e.call c = some e') :
      Reached permits (e.acknowledged acked c) e'

/-- The questions that a call puts to `can_evict`. -/
def Asks (e : QpackEncoder) (c : Call) (table : DynamicTable) (required : ℕ) : Prop :=
  match c with
  | .encode streamId =>
    (∃ newCap, e.capacityToUpdate = some newCap ∧ newCap < e.table.capacity ∧
      table = e.table ∧ required = e.table.capacity - newCap) ∨
    ∃ e' inst, e.updateMaxDynamicTableCap = some (e', inst) ∧
      ReprEncoder.Asks (e'.allowBlock streamId) (e'.fieldIter.getD []) (e'.startSection inst)
        table required
  | _ => False

/-- Every question of the call is one that `can_evict` answers rightly. -/
def Fits (acked : ℕ) (e : QpackEncoder) (c : Call) : Prop :=
  ∀ table required, e.Asks c table required → LikeOldest acked table required

/-! ### The invariant -/

/-- The entries count the references of the unacknowledged sections, they are within the
capacity, the known received count is that of acknowledged insertions, and no blocked
stream is left out of the count. -/
structure Safe (acked : ℕ) (e : QpackEncoder) : Prop where
  tracks : e.table.Tracks e.refs
  within : e.table.usedCap ≤ e.table.capacity
  known : e.table.knownReceivedCount = 0 ∨ e.table.knownReceivedCount < acked
  blocked : blockedCount e.table.knownReceivedCount e.trackedStream ≤ e.blockedStreamNums

theorem Safe.default : Safe 0 QpackEncoder.default := ⟨.withEmpty, le_rfl, .inl rfl, le_rfl⟩

/-- What setting the capacity leaves alone, and which entries go. -/
structure Resizes (refs : List ℕ) (acked : ℕ) (e e' : QpackEncoder) : Prop where
  trackedStream : e'.trackedStream = e.trackedStream
  blockedStreamNums : e'.blockedStreamNums = e.blockedStreamNums
  maxBlockedStreams : e'.maxBlockedStreams = e.maxBlockedStreams
  known : e'.table.knownReceivedCount = e.table.knownReceivedCount
  insertCount : e'.table.insertCount = e.table.insertCount
  removeCount_le : e.table.removeCount ≤ e'.table.removeCount
  removed : ∀ index, e.table.removeCount ≤ index → index < e'.table.removeCount →
    index ∉ refs ∧ index < acked

theorem Resizes.of_same (htracked : e'.trackedStream = e.trackedStream)
    (hblocked : e'.blockedStreamNums = e.blockedStreamNums)
    (hmax : e'.maxBlockedStreams = e.maxBlockedStreams)
    (hknown : e'.table.knownReceivedCount = e.table.knownReceivedCount)
    (hinsert : e'.table.insertCount = e.table.insertCount)
    (hremove : e'.table.removeCount = e.table.removeCount) : Resizes refs acked e e' :=
  ⟨htracked, hblocked, hmax, hknown, hinsert, hremove.ge, fun _ hlow hhigh => by omega⟩

theorem Safe.updateMaxDynamicTableCap (h : e.Safe acked)
    (hlike : ∀ newCap, e.capacityToUpdate = some newCap → newCap < e.table.capacity →
      LikeOldest acked e.table (e.table.capacity - newCap)) :
    ∃ e' inst, e.updateMaxDynamicTableCap = some (e', inst) ∧ e'.Safe acked ∧
      Resizes e.refs acked e e' := by
  cases hupd : e.capacityToUpdate with
  | none =>
    refine ⟨e, [], by rw [QpackEncoder.updateMaxDynamicTableCap, hupd], h, ?_⟩
    exact .of_same rfl rfl rfl rfl rfl rfl
  | some newCap =>
    by_cases hlt : newCap < e.table.capacity
    · have hcond := hlike newCap hupd hlt
      obtain ⟨answer, hanswer, -⟩ := (evictsRightly_iff h.tracks.sound _).mpr hcond
      cases answer with
      | none =>
        refine ⟨e, [], ?_, h, .of_same rfl rfl rfl rfl rfl rfl⟩
        simp only [QpackEncoder.updateMaxDynamicTableCap, hupd, updateCapacity, hlt, hanswer,
          if_true, Option.map_some, Bool.false_eq_true, if_false]
        rw [← hupd]
      | some m =>
        obtain ⟨hevict, htracks, hroom, hremoved⟩ := h.tracks.evicted hcond hanswer
        refine ⟨{ e with
            table := { e.table.dropped m with capacity := newCap }
            capacityToUpdate := none }, setCap newCap, ?_, ⟨?_, ?_, h.known, h.blocked⟩, ?_⟩
        · simp [QpackEncoder.updateMaxDynamicTableCap, hupd, updateCapacity, hlt, hanswer, hevict]
        · exact ⟨⟨htracks.sound.used, htracks.sound.count⟩, htracks.entry, htracks.live⟩
        · change (e.table.dropped m).usedCap ≤ newCap
          omega
        · exact ⟨rfl, rfl, rfl, rfl, rfl, Nat.le_add_right _ _, hremoved⟩
    · refine ⟨{ e with table := { e.table with capacity := newCap }, capacityToUpdate := none },
        setCap newCap, ?_, ⟨?_, ?_, h.known, h.blocked⟩, .of_same rfl rfl rfl rfl rfl rfl⟩
      · simp [QpackEncoder.updateMaxDynamicTableCap, hupd, updateCapacity, hlt]
      · exact ⟨⟨h.tracks.sound.used, h.tracks.sound.count⟩, h.tracks.entry, h.tracks.live⟩
      · have := h.within
        change e.table.usedCap ≤ newCap
        omega

theorem maxEntries_pos (h : r.Encodes refs) (hmax : r.maxDynamic ≠ 0) :
    2 * r.table.maxEntries ≠ 0 := by
  obtain ⟨hlow, hhigh⟩ := h.tracks.live r.maxDynamic
    (mem_append_left _ (h.largest.max_mem hmax))
  have hcnt := h.tracks.sound.count
  have hused := h.tracks.sound.used
  have hwithin := h.within
  cases hqueue : r.table.queue with
  | nil =>
    rw [hqueue, length_nil] at hcnt
    omega
  | cons field queue =>
    rw [hqueue, fieldsSize_cons, DynamicField.size] at hused
    have : 32 ≤ r.table.capacity := by omega
    rw [DynamicTable.maxEntries]
    omega

theorem getPrefix_isSome (h : r.Encodes refs) :
    ∃ sectionPrefix, r.getPrefix = some sectionPrefix := by
  rw [ReprEncoder.getPrefix]
  by_cases hmax : r.maxDynamic = 0
  · simp [hmax]
  · simp [hmax, maxEntries_pos h hmax]

/-- The entries that go from the table are acknowledged, and no open section refers to them. -/
def SparesHeld (acked : ℕ) (e e' : QpackEncoder) : Prop :=
  ∀ index, e.table.removeCount ≤ index → index < e'.table.removeCount →
    index ∉ e.refs ∧ index ∉ e'.refs ∧ index < acked

theorem refs_afterSection (e : QpackEncoder) (streamId : ℕ) (r : ReprEncoder) :
    (e.afterSection streamId r).refs.Perm (r.refFields ++ e.refs) := by
  rw [refs, afterSection]
  simp only
  split
  · rename_i hnil
    rw [hnil]
    exact .refl _
  · exact refsOf_push e.trackedStream streamId r.refFields

theorem Safe.encode {acked : ℕ} {e : QpackEncoder} (h : e.Safe acked) (streamId : ℕ)
    (hfits : e.Fits acked (.encode streamId)) :
    ∃ e₁ inst r octets, e.updateMaxDynamicTableCap = some (e₁, inst) ∧ e₁.Safe acked ∧
      Resizes e.refs acked e e₁ ∧ r.Encodes e₁.refs ∧
      ReprEncoder.Grows e₁.refs acked (e₁.allowBlock streamId) (e₁.startSection inst) r ∧
      e.encode streamId = some (e₁.afterSection streamId r, octets, r.inst) := by
  obtain ⟨e₁, inst, hupd, hsafe, hresizes⟩ := h.updateMaxDynamicTableCap
    fun newCap hcap hlt => hfits _ _ (.inl ⟨newCap, hcap, hlt, rfl, rfl⟩)
  have hstart : (e₁.startSection inst).Encodes e₁.refs :=
    ⟨hsafe.tracks, hsafe.within, by simp [startSection], by simp [startSection]⟩
  obtain ⟨r, hflds, hencs, hgrows⟩ := hstart.encodeFields (e₁.fieldIter.getD [])
    fun table required hasks => hfits table required (.inr ⟨e₁, inst, hupd, hasks⟩)
  obtain ⟨sectionPrefix, hpre⟩ := getPrefix_isSome hencs
  refine ⟨e₁, inst, r, sectionPrefix ++ r.fields, hupd, hsafe, hresizes, hencs, hgrows, ?_⟩
  simp [QpackEncoder.encode, hupd, hflds, hpre]

theorem blocked_afterSection (hencs : r.Encodes refs)
    (hknown : r.table.knownReceivedCount = e.table.knownReceivedCount)
    (h : blockedCount e.table.knownReceivedCount e.trackedStream ≤ e.blockedStreamNums) :
    blockedCount e.table.knownReceivedCount (e.afterSection streamId r).trackedStream ≤
      (e.afterSection streamId r).blockedStreamNums := by
  simp only [afterSection, hknown]
  by_cases hnil : r.refFields = []
  · simp only [hnil, if_true]
    split <;> omega
  · simp only [hnil, if_false, blockedCount_insert, isBlocked_append]
    have hnew : isBlocked e.table.knownReceivedCount [r.refFields] = true →
        r.maxDynamic > e.table.knownReceivedCount := by
      intro hblocked
      simp only [isBlocked, flatten_singleton, any_eq_true, decide_eq_true_eq] at hblocked
      obtain ⟨index, hmem, hgt⟩ := hblocked
      have := hencs.largest.le_max index hmem
      omega
    cases hget : e.trackedStream.lookup streamId with
    | none =>
      simp only [Option.getD_none, erase_eq_self hget]
      by_cases hblocked : isBlocked e.table.knownReceivedCount [r.refFields] = true
      · simp only [hblocked, Bool.or_true, if_true, hnew hblocked]
        omega
      · simp only [hblocked]
        simp only [isBlocked, flatten_nil, any_nil, Bool.or_self, Bool.false_eq_true, if_false]
        split <;> omega
    | some sections =>
      have hcnt := blockedCount_erase e.table.knownReceivedCount hget
      simp only [Option.getD_some]
      by_cases hblocked : isBlocked e.table.knownReceivedCount [r.refFields] = true
      · simp only [hblocked, Bool.or_true, if_true, hnew hblocked]
        split at hcnt <;> omega
      · simp only [hblocked, Bool.or_false]
        rw [← hcnt]
        split <;> omega

theorem Safe.encoded (h : e.Safe acked) (hfits : e.Fits acked (.encode streamId))
    (he : e.call (.encode streamId) = some e') :
    e'.Safe acked ∧ SparesHeld acked e e' := by
  obtain ⟨e₁, inst, r, octets, -, hsafe, hresizes, hencs, hgrows, henc⟩ := h.encode streamId hfits
  rw [call, henc] at he
  cases he
  have htracks := hencs.tracks.perm (refs_afterSection e₁ streamId r).symm
  have hrefs : e₁.refs = e.refs := by rw [refs, refs, hresizes.trackedStream]
  refine ⟨⟨htracks, hencs.within, ?_, ?_⟩, ?_⟩
  · change r.table.knownReceivedCount = 0 ∨ r.table.knownReceivedCount < acked
    rw [hgrows.known]
    exact hsafe.known
  · change blockedCount r.table.knownReceivedCount _ ≤ _
    rw [hgrows.known]
    exact blocked_afterSection hencs hgrows.known hsafe.blocked
  · intro index hlow hhigh
    have hnew : index ∉ (e₁.afterSection streamId r).refs := by
      intro hmem
      have := (htracks.live index hmem).1
      exact absurd hhigh (Nat.not_lt.mpr this)
    by_cases hlt : index < e₁.table.removeCount
    · obtain ⟨hnot, hacked⟩ := hresizes.removed index hlow hlt
      exact ⟨hnot, hnew, hacked⟩
    · obtain ⟨hnot, hacked⟩ := hgrows.removed index (not_lt.mp hlt) hhigh
      exact ⟨hrefs ▸ hnot, hnew, hacked⟩

/-! ### Decoder instructions -/

theorem raiseKnown_cases (known : ℕ) (indices : List ℕ) :
    raiseKnown known indices = known ∨
      known < raiseKnown known indices ∧ ∃ index ∈ indices, raiseKnown known indices ≤ index := by
  induction indices generalizing known with
  | nil => exact .inl rfl
  | cons index indices ih =>
    rw [raiseKnown, foldl_cons]
    split
    · rename_i hgt
      rcases ih (known + 1) with hsame | ⟨hlt, i, hi, hle⟩
      · rw [raiseKnown] at hsame
        rw [hsame]
        exact .inr ⟨by omega, index, by simp, by omega⟩
      · rw [raiseKnown] at hlt hle
        exact .inr ⟨by omega, i, mem_cons_of_mem _ hi, hle⟩
    · rcases ih known with hsame | ⟨hlt, i, hi, hle⟩
      · exact .inl hsame
      · exact .inr ⟨hlt, i, mem_cons_of_mem _ hi, hle⟩

theorem lt_insertCountOf {index : ℕ} (h : index ∈ fields) :
    index < insertCountOf fields := by
  induction fields with
  | nil => cases h
  | cons field fields ih =>
    simp only [insertCountOf, map_cons, foldr_cons] at ih ⊢
    rcases mem_cons.mp h with rfl | h
    · omega
    · have := ih h
      omega

theorem increaseInsertCount_eq (e : QpackEncoder) (hpos : 0 < increment)
    (hlt : e.table.knownReceivedCount + increment ≤ e.table.insertCount) :
    e.increaseInsertCount increment =
      some (updateBlockedStream { e with
        table := { e.table with
          knownReceivedCount := e.table.knownReceivedCount + (increment - 1) } }) := by
  have hcond : e.table.knownReceivedCount + (increment - 1) < e.table.insertCount := by omega
  simp [increaseInsertCount, increaseKnownReceiveCount,
    checkedSub_of_le (show 1 ≤ increment by omega), hcond]

theorem increaseInsertCount_some (h : e.increaseInsertCount increment = some e') :
    0 < increment ∧ e.table.knownReceivedCount + increment ≤ e.table.insertCount := by
  rw [increaseInsertCount, increaseKnownReceiveCount] at h
  cases hsub : checkedSub increment 1 with
  | none =>
    rw [hsub] at h
    cases h
  | some n =>
    obtain ⟨hle, rfl⟩ := checkedSub_eq_some hsub
    simp only [hsub] at h
    split at h
    · omega
    · cases h

theorem Tracks.known {refs : List ℕ} {table : DynamicTable} (h : table.Tracks refs) (known : ℕ) :
    Tracks refs { table with knownReceivedCount := known } :=
  ⟨⟨h.sound.used, h.sound.count⟩, h.entry, h.live⟩

theorem Safe.increaseInsertCount (h : e.Safe acked) (acked' increment : ℕ) (hpos : 0 < increment)
    (hlt : e.table.knownReceivedCount + increment ≤ e.table.insertCount)
    (hacked : e.table.knownReceivedCount + increment ≤ acked') :
    ∃ e', e.increaseInsertCount increment = some e' ∧ e'.Safe acked' ∧
      e'.table.removeCount = e.table.removeCount := by
  refine ⟨_, increaseInsertCount_eq e hpos hlt, ⟨Tracks.known h.tracks _, h.within, ?_, le_rfl⟩,
    rfl⟩
  right
  change e.table.knownReceivedCount + (increment - 1) < acked'
  omega

theorem refsOf_ack (h : streams.lookup id = some (fields :: sections)) :
    (refsOf streams).Perm (fields ++
      refsOf (if sections = [] then streams.erase id else streams.insert id sections)) := by
  have hperm := refsOf_erase h
  split
  · rename_i hnil
    rw [hnil] at hperm
    simpa using hperm
  · rw [refsOf_insert]
    simpa [append_assoc] using hperm

theorem blockedCount_ack (known : ℕ) (h : streams.lookup id = some (fields :: sections)) :
    blockedCount known (if sections = [] then streams.erase id else streams.insert id sections) ≤
      blockedCount known streams := by
  have hcnt := blockedCount_erase known h
  split
  · omega
  · rw [blockedCount_insert, hcnt, ← singleton_append, isBlocked_append]
    by_cases hblocked : isBlocked known sections = true
    · simp [hblocked]
    · simp [hblocked]

theorem Safe.ack (h : e.Safe acked) (hperm : ∀ l, (order l).Perm l) (streamId : ℕ) :
    ∃ e', e.ack order streamId = some e' ∧
      e'.Safe (e.ackedAfter acked (.ack streamId)) ∧
      e'.table.removeCount = e.table.removeCount := by
  rw [QpackEncoder.ack, ackedAfter]
  cases hget : e.trackedStream.lookup streamId with
  | none => exact ⟨e, rfl, h, rfl⟩
  | some found =>
    cases found with
    | nil =>
      have hperm := refsOf_erase hget
      have hcnt := blockedCount_erase e.table.knownReceivedCount hget
      refine ⟨_, rfl, ⟨h.tracks.perm ?_, h.within, h.known, ?_⟩, rfl⟩
      · simpa [refs] using hperm
      · have hblocked := h.blocked
        change blockedCount e.table.knownReceivedCount (e.trackedStream.erase streamId) ≤
          e.blockedStreamNums
        omega
    | cons fields sections =>
      have hrefs := (refsOf_ack hget).trans ((hperm fields).symm.append_right _)
      obtain ⟨table, huntrack, htracks, hsame⟩ := (h.tracks.perm hrefs).untrackAll
      simp only [huntrack, Option.bind_some]
      have hsafe : Safe (max acked (insertCountOf fields))
          { e with
            trackedStream :=
              if sections = [] then e.trackedStream.erase streamId
              else e.trackedStream.insert streamId sections
            table } := by
        refine ⟨htracks, ?_, ?_, ?_⟩
        · simp only [hsame.usedCap, hsame.capacity, h.within]
        · simp only [hsame.known]
          exact h.known.imp_right fun hlt => lt_of_lt_of_le hlt (le_max_left _ _)
        · simp only [hsame.known]
          exact (blockedCount_ack _ hget).trans h.blocked
      rcases raiseKnown_cases e.table.knownReceivedCount (order fields) with
        hraise | ⟨hraise, index, hmem, hle⟩
      · refine ⟨_, if_neg (by omega), hsafe, hsame.removeCount⟩
      · have hfld := (hperm fields).mem_iff.mp hmem
        have hlive := (h.tracks.live index ((refsOf_ack hget).mem_iff.mpr
          (mem_append_left _ hfld))).2
        have hcnt := lt_insertCountOf hfld
        rw [if_pos (by omega)]
        obtain ⟨e', he', hsafe', hremove⟩ := hsafe.increaseInsertCount
          (max acked (insertCountOf fields))
          (raiseKnown e.table.knownReceivedCount (order fields) - e.table.knownReceivedCount)
          (by omega)
          (by simp only [hsame.known, hsame.insertCount]; omega)
          (by simp only [hsame.known]; omega)
        exact ⟨e', he', hsafe', hremove.trans hsame.removeCount⟩

theorem Safe.cancelStream (h : e.Safe acked) (streamId : ℕ) :
    ∃ e', e.cancelStream streamId = some e' ∧ e'.Safe acked ∧
      e'.table.removeCount = e.table.removeCount := by
  rw [QpackEncoder.cancelStream]
  cases hget : e.trackedStream.lookup streamId with
  | none => exact ⟨e, rfl, h, rfl⟩
  | some sections =>
    obtain ⟨table, huntrack, htracks, hsame⟩ := (h.tracks.perm (refsOf_erase hget)).untrackAll
    have hcnt := blockedCount_erase e.table.knownReceivedCount hget
    have hblocked := h.blocked
    have hwithin : table.usedCap ≤ table.capacity := by
      rw [hsame.usedCap, hsame.capacity]
      exact h.within
    have hknown : table.knownReceivedCount = 0 ∨ table.knownReceivedCount < acked := by
      rw [hsame.known]
      exact h.known
    simp only [huntrack, Option.bind_some, hsame.known]
    split
    · rename_i hstr
      rw [if_pos hstr] at hcnt
      refine ⟨{ e with
          trackedStream := e.trackedStream.erase streamId
          table
          blockedStreamNums := e.blockedStreamNums - 1 },
        by rw [checkedSub_of_le (by omega)]; rfl, ⟨htracks, hwithin, hknown, ?_⟩, hsame.removeCount⟩
      change blockedCount table.knownReceivedCount (e.trackedStream.erase streamId) ≤
        e.blockedStreamNums - 1
      rw [hsame.known]
      omega
    · refine ⟨_, rfl, ⟨htracks, hwithin, hknown, ?_⟩, hsame.removeCount⟩
      change blockedCount table.knownReceivedCount (e.trackedStream.erase streamId) ≤
        e.blockedStreamNums
      rw [hsame.known]
      omega

theorem Safe.apply (h : e.Safe acked) (hperm : ∀ l, (order l).Perm l) {inst : DecoderInstruction}
    (he : e.apply order inst = some e') :
    e'.Safe (e.ackedAfter acked inst) ∧ e'.table.removeCount = e.table.removeCount := by
  cases inst with
  | ack streamId =>
    obtain ⟨e₁, hack, hsafe, hremove⟩ := h.ack hperm streamId
    cases hack.symm.trans he
    exact ⟨hsafe, hremove⟩
  | streamCancel streamId =>
    obtain ⟨e₁, hcancel, hsafe, hremove⟩ := h.cancelStream streamId
    cases hcancel.symm.trans he
    exact ⟨hsafe, hremove⟩
  | insertCountIncrement increment =>
    obtain ⟨hpos, hlt⟩ := increaseInsertCount_some he
    have hacked : e.table.knownReceivedCount + increment ≤ acked + increment := by
      have := h.known
      omega
    obtain ⟨e₁, hinc, hsafe, hremove⟩ :=
      h.increaseInsertCount (acked + increment) increment hpos hlt hacked
    cases hinc.symm.trans he
    exact ⟨hsafe, hremove⟩

theorem Safe.call (h : e.Safe acked) (c : Call) (hfits : e.Fits acked c) (he : e.call c = some e') :
    e'.Safe (e.acknowledged acked c) ∧ SparesHeld acked e e' := by
  have hspares : e'.table.removeCount = e.table.removeCount → SparesHeld acked e e' := by
    intro hsame index hlow hhigh
    omega
  cases c with
  | setMaxTableCapacity maxCap =>
    cases he
    refine ⟨?_, hspares ?_⟩
    · rw [setMaxTableCapacity]
      split
      · exact h
      · exact ⟨h.tracks, h.within, h.known, h.blocked⟩
    · rw [setMaxTableCapacity]
      split <;> rfl
  | setMaxBlockedStreamSize maxBlocked | setParts parts =>
    cases he
    exact ⟨⟨h.tracks, h.within, h.known, h.blocked⟩, hspares rfl⟩
  | encode streamId => exact h.encoded hfits he
  | decoderInstruction order perm inst =>
    obtain ⟨hsafe, hremove⟩ := h.apply perm he
    exact ⟨hsafe, hspares hremove⟩

theorem Reached.safe {permits : ℕ → QpackEncoder → Call → Prop}
    (hpermits : ∀ acked e c, permits acked e c → e.Fits acked c) (h : Reached permits acked e) :
    e.Safe acked := by
  induction h with
  | default => exact .default
  | call c reached permitted called ih => exact (ih.call c (hpermits _ _ c permitted) called).1

end QpackEncoder

end YlongHttp.Qpack
