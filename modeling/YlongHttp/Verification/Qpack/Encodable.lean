import YlongHttp.Verification.Qpack.EncoderRuns

/-! # When the encoder has a field section

`can_evict` may underflow, or name more entries than there are. Nothing else stops the encoder,
in whatever order it is called, but a table that is too small for the entries it still has. -/

namespace YlongHttp.Qpack

open List Option

variable {m index increment streamId : ℕ}

namespace DynamicTable

variable {table table' : DynamicTable}

/-! ## Numbered tables -/

theorem Numbered.withEmpty : withEmpty.Numbered := Tracks.withEmpty.numbered

theorem Numbered.update (h : table.Numbered) (name : NameField) (value : Bytes) :
    (table.update name value).1.Numbered where
  sound := h.sound.update name value
  entry := by
    intro i field hfld
    rcases update_entry h.sound hfld with hfld | ⟨hindex, -, -⟩
    · exact h.entry i field hfld
    · exact hindex

theorem Numbered.dropped (h : table.Numbered) (hm : m ≤ table.queue.length) :
    (table.dropped m).Numbered where
  sound := by
    have hcnt := h.sound.count
    refine ⟨rfl, ?_⟩
    simp only [DynamicTable.dropped, length_drop]
    omega
  entry := by
    intro i field hfld
    simp only [DynamicTable.dropped, getElem?_drop] at hfld ⊢
    rw [h.entry _ field hfld, Nat.add_assoc]

theorem Numbered.modifyField (h : table.Numbered) {f : DynamicField → Option DynamicField}
    (hf : ∀ field field', f field = some field' → field'.index = field.index ∧ field'.size = field.size)
    (hmodify : table.modifyField index f = some table') : table'.Numbered := by
  rw [DynamicTable.modifyField] at hmodify
  cases hsub : checkedSub index table.removeCount with
  | none => simp [hsub] at hmodify
  | some i =>
    cases hfld : table.queue[i]? with
    | none => simp [hsub, hfld] at hmodify
    | some field =>
      simp only [hsub, hfld, map_eq_some_iff] at hmodify
      obtain ⟨field', hchange, rfl⟩ := hmodify
      obtain ⟨hidx, hsize⟩ := hf field field' hchange
      refine ⟨⟨?_, ?_⟩, ?_⟩
      · simp only [fieldsSize_set hfld hsize, h.sound.used]
      · simp only [length_set, h.sound.count]
      · intro j found hfound
        simp only [getElem?_set] at hfound
        by_cases hj : i = j
        · subst hj
          have hlt : i < table.queue.length := (List.getElem?_eq_some_iff.mp hfld).1
          simp only [if_true, hlt, some.injEq] at hfound
          subst hfound
          exact hidx.trans (h.entry i field hfld)
        · simp only [hj, if_false] at hfound
          exact h.entry j found hfound

theorem Numbered.trackField (h : table.Numbered) (hlow : table.removeCount ≤ index)
    (hhigh : index < table.insertCount) :
    ∃ table', table.trackField index = some table' ∧ table'.Numbered := by
  obtain ⟨field, -, hmodify⟩ := modifyField_eq h.sound hlow hhigh
    fun field => some { field with tracked := field.tracked + 1 }
  refine ⟨_, hmodify, h.modifyField ?_ hmodify⟩
  intro field field' hchange
  cases hchange
  exact ⟨rfl, rfl⟩

theorem Numbered.untrackedField (h : table.Numbered)
    (huntrack : table.untrackedField index = some table') : table'.Numbered := by
  apply h.modifyField ?_ huntrack
  intro field field' hchange
  simp only [gt_iff_lt, ite_none_right_eq_some, some.injEq] at hchange
  obtain ⟨-, rfl⟩ := hchange
  exact ⟨rfl, rfl⟩

theorem Numbered.untrackAll (h : table.Numbered) {indices : List ℕ}
    (huntrack : QpackEncoder.untrackAll table indices = some table') : table'.Numbered := by
  induction indices generalizing table with
  | nil =>
    cases huntrack
    exact h
  | cons index indices ih =>
    rw [QpackEncoder.untrackAll, bind_eq_some_iff] at huntrack
    obtain ⟨table₁, hfirst, hrest⟩ := huntrack
    exact ih (h.untrackedField hfirst) hrest

theorem Numbered.increaseKnownReceiveCount (h : table.Numbered)
    (hinc : table.increaseKnownReceiveCount increment = some table') : table'.Numbered := by
  rw [DynamicTable.increaseKnownReceiveCount] at hinc
  cases hsub : checkedSub increment 1 with
  | none => simp [hsub] at hinc
  | some n =>
    simp only [hsub, ite_none_right_eq_some, some.injEq] at hinc
    obtain ⟨-, rfl⟩ := hinc
    exact ⟨⟨h.sound.used, h.sound.count⟩, h.entry⟩

/-! ## Making room -/

/-- `can_evict` returns, and names no more entries than there are. -/
def Answers (table : DynamicTable) (required : ℕ) : Prop :=
  ∃ answer, table.canEvict required = some answer ∧ ∀ m, answer = some m → m ≤ table.queue.length

theorem evictDrained_eq_none (h : table.Sound) (hm : table.queue.length < m) :
    table.evictDrained m = none := by
  induction m generalizing table with
  | zero => simp at hm
  | succ m ih =>
    rw [evictDrained]
    cases hqueue : table.queue with
    | nil => rfl
    | cons field queue =>
      have hused : table.usedCap = field.size + fieldsSize queue := by
        rw [h.used, hqueue, fieldsSize_cons]
      have hcnt := h.count
      simp only [hqueue, length_cons] at hcnt hm
      simp only [checkedSub_of_le (show field.size ≤ table.usedCap by omega)]
      apply ih
      · exact ⟨by simp only; omega, by simp only; omega⟩
      · simpa using hm

theorem Numbered.canEvict_cases (h : table.Numbered) (required : ℕ) :
    (¬table.Answers required ∧ (table.canEvict required = none ∨
        ∃ m, table.canEvict required = some (some m) ∧ table.evictDrained m = none)) ∨
      (table.Answers required ∧ (table.canEvict required = some none ∨
        ∃ m, table.canEvict required = some (some m) ∧
          table.evictDrained m = some (table.dropped m) ∧ (table.dropped m).Numbered)) := by
  cases hanswer : table.canEvict required with
  | none => exact .inl ⟨by simp [Answers, hanswer], .inl rfl⟩
  | some answer =>
    cases answer with
    | none => exact .inr ⟨⟨none, hanswer, by simp⟩, .inl rfl⟩
    | some m =>
      by_cases hm : m ≤ table.queue.length
      · refine .inr ⟨⟨some m, hanswer, ?_⟩, .inr ⟨m, rfl, evictDrained_eq h.sound hm, h.dropped hm⟩⟩
        intro m' hm'
        rwa [← some.inj hm']
      · refine .inl ⟨?_, .inr ⟨m, rfl, evictDrained_eq_none h.sound (by omega)⟩⟩
        rintro ⟨answer, hanswer', hle⟩
        rw [hanswer] at hanswer'
        exact hm (hle m (some.inj hanswer').symm)

end DynamicTable

namespace ReprEncoder

open Qpack.DynamicTable

variable {r : ReprEncoder}

/-! ## Fields -/

theorem numbered_refer (h : r.table.Numbered) {index : ℕ} (hlow : r.table.removeCount ≤ index)
    (hhigh : index < r.table.insertCount) :
    ∃ r', r.refer index = some r' ∧ r'.table.Numbered := by
  by_cases hmem : index ∈ r.refFields
  · exact ⟨_, if_pos hmem, h⟩
  · obtain ⟨table, htrack, hnum⟩ := h.trackField hlow hhigh
    exact ⟨_, by simp only [refer, if_neg hmem, htrack]; rfl, hnum⟩

theorem numbered_referNew (h : r.table.Numbered) {index : ℕ}
    (hlow : r.table.removeCount ≤ index) (hhigh : index < r.table.insertCount) :
    ∃ r', r.referNew index = some r' ∧ r'.table.Numbered := by
  obtain ⟨table, htrack, hnum⟩ := h.trackField hlow hhigh
  exact ⟨_, by rw [referNew, htrack]; rfl, hnum⟩

theorem numbered_addFieldToDynamic (h : r.table.Numbered) (name : NameField) (value : Bytes) :
    (¬r.table.Answers (name.len + value.length + 32) ∧ r.addFieldToDynamic name value = none) ∨
      (r.table.Answers (name.len + value.length + 32) ∧ ∃ r' found,
        r.addFieldToDynamic name value = some (r', found) ∧ r'.table.Numbered ∧
          ∀ index, found = some index →
            r'.table.removeCount ≤ index ∧ index < r'.table.insertCount) := by
  obtain ⟨hnot, hnone | ⟨m, hsome, hevict⟩⟩ | ⟨hanswers, hnone | ⟨m, hsome, hevict, hnum⟩⟩ :=
    h.canEvict_cases (name.len + value.length + 32)
  · exact .inl ⟨hnot, by simp only [addFieldToDynamic, hnone]⟩
  · exact .inl ⟨hnot, by simp only [addFieldToDynamic, hsome, hevict]; rfl⟩
  · exact .inr ⟨hanswers, { r with
      inst := r.inst ++ indexingWithLiteral name.toString value r.isHuffman false }, none,
      by rw [addFieldToDynamic, hnone], h, by simp⟩
  · refine .inr ⟨hanswers, _, _, by simp only [addFieldToDynamic, hsome, hevict]; rfl,
      hnum.update name value, ?_⟩
    intro index hidx
    cases hidx
    have hcnt := hnum.sound.count
    exact ⟨by simp only [DynamicTable.update]; omega, Nat.lt_succ_self _⟩

def FieldAnswers (allowBlock : Bool) (name : NameField) (value : Bytes) (r : ReprEncoder) : Prop :=
  searchFiledFromTable r.table name value allowBlock = .notFound → allowBlock = true →
    r.table.Answers (name.len + value.length + 32)

theorem numbered_encodeField (h : r.table.Numbered) (allowBlock : Bool) (name : NameField) (value : Bytes) :
    (¬FieldAnswers allowBlock name value r ∧ r.encodeField allowBlock name value = none) ∨
      (FieldAnswers allowBlock name value r ∧
        ∃ r', r.encodeField allowBlock name value = some r' ∧ r'.table.Numbered) := by
  have hnames := h.index_names name value allowBlock
  rw [encodeField]
  obtain ⟨i, hi⟩ | ⟨i, hi⟩ | ⟨i, hi, hfound⟩ | ⟨i, hi, hfound⟩ | hi :=
    search_cases r.table name value allowBlock
  · exact .inr ⟨by simp [FieldAnswers, hi], by rw [hi]; exact ⟨_, rfl, h⟩⟩
  · exact .inr ⟨by simp [FieldAnswers, hi], by rw [hi]; exact ⟨_, rfl, h⟩⟩
  · rw [hfound] at hnames
    refine .inr ⟨by simp [FieldAnswers, hi], ?_⟩
    rw [hi]
    exact @numbered_refer (r.write (r.indexedDynamicField i)) h i hnames.1 hnames.2.1
  · rw [hfound] at hnames
    refine .inr ⟨by simp [FieldAnswers, hi], ?_⟩
    rw [hi]
    exact @numbered_refer (r.write (r.indexedNameRefWithLiteralField i value)) h i hnames.1
      hnames.2.1
  · rw [hi]
    cases allowBlock with
    | false => exact .inr ⟨by simp [FieldAnswers], _, rfl, h⟩
    | true =>
      simp only [FieldAnswers, hi, if_true, forall_const]
      obtain ⟨hnot, hadd⟩ | ⟨hanswers, r₁, found, hadd, hnum, hlive⟩ :=
        numbered_addFieldToDynamic h name value
      · exact .inl ⟨hnot, by rw [hadd]⟩
      · refine .inr ⟨hanswers, ?_⟩
        rw [hadd]
        cases found with
        | none => exact ⟨_, rfl, hnum⟩
        | some index =>
          obtain ⟨hlow, hhigh⟩ := hlive index rfl
          exact @numbered_referNew (r₁.write (r₁.indexedDynamicField index)) hnum index
            hlow hhigh

theorem numbered_encodeFields (h : r.table.Numbered) (allowBlock : Bool)
    (iter : List (NameField × Bytes)) :
    (¬(∀ table required, Asks allowBlock iter r table required → table.Answers required) ∧
        encodeFields allowBlock iter r = none) ∨
      ((∀ table required, Asks allowBlock iter r table required → table.Answers required) ∧
        ∃ r', encodeFields allowBlock iter r = some r' ∧ r'.table.Numbered) := by
  induction iter generalizing r with
  | nil => exact .inr ⟨fun _ _ hasks => (by cases hasks), r, rfl, h⟩
  | cons field iter ih =>
    obtain ⟨name, value⟩ := field
    rw [encodeFields]
    obtain ⟨hnot, hnone⟩ | ⟨hfld, r₁, hsome, hnum⟩ := numbered_encodeField h allowBlock name value
    · refine .inl ⟨?_, by rw [hnone]; rfl⟩
      intro hall
      exact hnot fun hsearch hallow => hall _ _ (.here hsearch hallow)
    · rw [hsome, bind_some]
      obtain ⟨hnot, hrest⟩ | ⟨hanswers, hrest⟩ := ih hnum
      · refine .inl ⟨?_, hrest⟩
        intro hall
        exact hnot fun table required hasks => hall table required (.later hsome hasks)
      · refine .inr ⟨?_, hrest⟩
        intro table required hasks
        cases hasks with
        | here notFound allowed => exact hfld notFound allowed
        | later encoded asks =>
          cases hsome.symm.trans encoded
          exact hanswers table required asks

theorem getPrefix_eq_none_iff :
    r.getPrefix = none ↔ ¬(r.maxDynamic ≠ 0 → 32 ≤ r.table.capacity) := by
  have hentries : 2 * r.table.maxEntries = 0 ↔ r.table.capacity < 32 := by
    rw [maxEntries]
    omega
  rw [getPrefix]
  by_cases hmax : r.maxDynamic = 0
  · simp [hmax]
  · by_cases hcapacity : r.table.capacity < 32
    · simp [hmax, hentries.mpr hcapacity, hcapacity]
    · simp [hmax, mt hentries.mp hcapacity, not_lt.mp hcapacity]

end ReprEncoder

namespace QpackEncoder

open Qpack.DynamicTable

variable {e e' : QpackEncoder}

/-! ## Sections -/

theorem numbered_updateMaxDynamicTableCap (h : e.table.Numbered) :
    (¬(∀ newCap, e.capacityToUpdate = some newCap → newCap < e.table.capacity →
          e.table.Answers (e.table.capacity - newCap)) ∧ e.updateMaxDynamicTableCap = none) ∨
      ((∀ newCap, e.capacityToUpdate = some newCap → newCap < e.table.capacity →
          e.table.Answers (e.table.capacity - newCap)) ∧
        ∃ e' inst, e.updateMaxDynamicTableCap = some (e', inst) ∧ e'.table.Numbered) := by
  cases hupd : e.capacityToUpdate with
  | none => exact .inr ⟨by simp, e, [], by rw [updateMaxDynamicTableCap, hupd], h⟩
  | some newCap =>
    simp only [some.injEq, forall_eq']
    by_cases hlt : newCap < e.table.capacity
    · simp only [hlt, forall_const]
      obtain ⟨hnot, hnone | ⟨m, hsome, hevict⟩⟩ |
          ⟨hanswers, hnone | ⟨m, hsome, hevict, hnum⟩⟩ :=
        h.canEvict_cases (e.table.capacity - newCap)
      · refine .inl ⟨hnot, ?_⟩
        simp [updateMaxDynamicTableCap, hupd, updateCapacity, hlt, hnone]
      · refine .inl ⟨hnot, ?_⟩
        simp [updateMaxDynamicTableCap, hupd, updateCapacity, hlt, hsome, hevict]
      · refine .inr ⟨hanswers, e, [], ?_, h⟩
        simp only [updateMaxDynamicTableCap, hupd, updateCapacity, hlt, hnone, if_true,
          map_some, Bool.false_eq_true, if_false]
        rw [← hupd]
      · refine .inr ⟨hanswers, { e with
          table := { e.table.dropped m with capacity := newCap }, capacityToUpdate := none },
          setCap newCap, ?_, ⟨hnum.sound.used, hnum.sound.count⟩, hnum.entry⟩
        simp only [updateMaxDynamicTableCap, hupd, updateCapacity, hlt, hsome, hevict, if_true,
          map_some]
    · refine .inr ⟨fun h => absurd h hlt, { e with
        table := { e.table with capacity := newCap }, capacityToUpdate := none }, setCap newCap,
        ?_, ⟨h.sound.used, h.sound.count⟩, h.entry⟩
      simp [updateMaxDynamicTableCap, hupd, updateCapacity, hlt]

/-- Every question to `can_evict` on the way is answered, and a section that refers to another
entry than entry 0 has a table with a capacity for entries. -/
structure Encodable (e : QpackEncoder) (streamId : ℕ) : Prop where
  answers : ∀ table required, e.Asks (.encode streamId) table required → table.Answers required
  capacity : ∀ e' inst r, e.updateMaxDynamicTableCap = some (e', inst) →
    ReprEncoder.encodeFields (e'.allowBlock streamId) (e'.fieldIter.getD [])
      (e'.startSection inst) = some r → r.maxDynamic ≠ 0 → 32 ≤ r.table.capacity

theorem numbered_encode (h : e.table.Numbered) (streamId : ℕ) :
    (¬e.Encodable streamId ∧ e.encode streamId = none) ∨
      (e.Encodable streamId ∧
        ∃ e' fields inst, e.encode streamId = some (e', fields, inst) ∧ e'.table.Numbered) := by
  rw [encode]
  obtain ⟨hnot, hnone⟩ | ⟨hupdates, e₁, inst, hupd, hnum⟩ := numbered_updateMaxDynamicTableCap h
  · refine .inl ⟨?_, by rw [hnone]; rfl⟩
    intro henc
    exact hnot fun newCap hcap hlt => henc.answers _ _ (.inl ⟨newCap, hcap, hlt, rfl, rfl⟩)
  · rw [hupd, bind_some]
    have hstart : (e₁.startSection inst).table.Numbered := hnum
    dsimp only
    obtain ⟨hnot, hnone⟩ | ⟨hflds, r, hsome, hnum'⟩ :=
      ReprEncoder.numbered_encodeFields hstart (e₁.allowBlock streamId)
        (e₁.fieldIter.getD [])
    · refine .inl ⟨?_, by rw [hnone]; rfl⟩
      intro henc
      exact hnot fun table required hasks =>
        henc.answers table required (.inr ⟨e₁, inst, hupd, hasks⟩)
    · rw [hsome, bind_some]
      by_cases hcap : r.maxDynamic ≠ 0 → 32 ≤ r.table.capacity
      · cases hpre : r.getPrefix with
        | none => exact absurd hcap (ReprEncoder.getPrefix_eq_none_iff.mp hpre)
        | some octets =>
          refine .inr ⟨⟨?_, ?_⟩, _, _, _, rfl, hnum'⟩
          · rintro table required (⟨newCap, hcap, hlt, rfl, rfl⟩ | ⟨e', inst', hupd', hasks⟩)
            · exact hupdates newCap hcap hlt
            · obtain ⟨rfl, rfl⟩ := Prod.mk.inj (some.inj (hupd.symm.trans hupd'))
              exact hflds table required hasks
          · intro e' inst' r' hupd' hr'
            obtain ⟨rfl, rfl⟩ := Prod.mk.inj (some.inj (hupd.symm.trans hupd'))
            cases hsome.symm.trans hr'
            exact hcap
      · refine .inl ⟨fun henc => hcap (henc.capacity _ _ _ hupd hsome), ?_⟩
        rw [ReprEncoder.getPrefix_eq_none_iff.mpr hcap]
        rfl

/-! ## Instructions -/

theorem numbered_increaseInsertCount (h : e.table.Numbered)
    (hinc : e.increaseInsertCount increment = some e') : e'.table.Numbered := by
  rw [increaseInsertCount, map_eq_some_iff] at hinc
  obtain ⟨table, htable, rfl⟩ := hinc
  exact h.increaseKnownReceiveCount htable

theorem numbered_ack (h : e.table.Numbered) {order : List ℕ → List ℕ}
    (hack : e.ack order streamId = some e') : e'.table.Numbered := by
  rw [ack] at hack
  split at hack
  · cases hack
    exact h
  · cases hack
    exact h
  · rw [bind_eq_some_iff] at hack
    obtain ⟨table, htable, hack⟩ := hack
    have hnum := h.untrackAll htable
    dsimp only at hack
    split at hack
    · exact numbered_increaseInsertCount hnum hack
    · cases hack
      exact hnum

theorem numbered_cancelStream (h : e.table.Numbered) (hcancel : e.cancelStream streamId = some e') :
    e'.table.Numbered := by
  rw [cancelStream] at hcancel
  split at hcancel
  · cases hcancel
    exact h
  · rw [bind_eq_some_iff] at hcancel
    obtain ⟨table, htable, hcancel⟩ := hcancel
    have hnum := h.untrackAll htable
    dsimp only at hcancel
    split at hcancel
    · rw [map_eq_some_iff] at hcancel
      obtain ⟨nums, -, rfl⟩ := hcancel
      exact hnum
    · cases hcancel
      exact hnum

theorem numbered_apply (h : e.table.Numbered) {order : List ℕ → List ℕ}
    {inst : DecoderInstruction} (happly : e.apply order inst = some e') : e'.table.Numbered := by
  cases inst with
  | ack streamId => exact numbered_ack h happly
  | streamCancel streamId => exact numbered_cancelStream h happly
  | insertCountIncrement increment => exact numbered_increaseInsertCount h happly

theorem numbered_decodeInsLoop (h : e.table.Numbered) (order : List ℕ → List ℕ) (fuel : ℕ)
    (buf : Bytes) : (decodeInsLoop order fuel e buf).1.table.Numbered := by
  induction fuel generalizing e buf with
  | zero => exact h
  | succ fuel ih =>
    rw [decodeInsLoop]
    split
    · exact h
    · split
      · rename_i state _ _
        exact state.elim
      · exact h
      · split
        · exact h
        · rename_i happly
          exact ih (numbered_apply h happly) _

end QpackEncoder

end YlongHttp.Qpack
