import YlongHttp.Verification.Qpack.References

/-! # Encoding a field section

What encoding one field does to the table, to the references of the section and to the
entries that make room. It is said once here, for a section whose questions to `can_evict`
all meet `LikeOldest`, and whole sections follow by induction over their fields. -/

namespace YlongHttp.Qpack

open List
open Qpack.DynamicTable

/-! ### Looking up -/

/-- The index in a search result, if there is one, satisfies `P`. -/
def TableIndex.Names (P : ℕ → Prop) : TableIndex → Prop
  | .field index => P index
  | .fieldName index => P index
  | .none => True

theorem DynamicTable.indexLoop_names {P : ℕ → Prop} {known : ℕ} {allowBlock : Bool} (name : NameField)
    (value : Bytes) (queue : List DynamicField) (found : TableIndex) (hfound : found.Names P)
    (h : ∀ field ∈ queue, (allowBlock = true ∨ field.index ≤ known) → P field.index) :
    (indexLoop known allowBlock name value queue found).Names P := by
  induction queue generalizing found with
  | nil => exact hfound
  | cons field queue ih =>
    rw [indexLoop]
    split
    · exact hfound
    · rename_i hgo
      have hmay : allowBlock = true ∨ field.index ≤ known := by
        by_cases hallow : allowBlock = true
        · exact .inl hallow
        · simp only [hallow, Bool.not_false, Bool.and_true, decide_eq_true_eq, not_lt,
            gt_iff_lt] at hgo
          exact .inr hgo
      have hfld := h field (by simp) hmay
      refine ih _ ?_ fun field' hmem => h field' (.tail _ hmem)
      split
      · split <;> exact hfld
      · exact hfound

variable {table : DynamicTable}

theorem DynamicTable.Numbered.index_names (h : table.Numbered) (name : NameField) (value : Bytes)
    (allowBlock : Bool) :
    (table.index name value allowBlock).Names fun index =>
      table.removeCount ≤ index ∧ index < table.insertCount ∧
        (allowBlock = true ∨ index ≤ table.knownReceivedCount) := by
  refine indexLoop_names name value table.queue .none trivial ?_
  intro field hmem hmay
  obtain ⟨i, hi, hfld⟩ := mem_iff_getElem.mp hmem
  have hidx := h.entry i field (by rw [getElem?_eq_getElem hi, hfld])
  have hcnt := h.sound.count
  exact ⟨by omega, by omega, hmay⟩

theorem search_cases (table : DynamicTable) (name : NameField) (value : Bytes)
    (allowBlock : Bool) :
    (∃ i, searchFiledFromTable table name value allowBlock = .staticIndex i) ∨
    (∃ i, searchFiledFromTable table name value allowBlock = .staticNameIndex i) ∨
    (∃ i, searchFiledFromTable table name value allowBlock = .dynamicIndex i ∧
      table.index name value allowBlock = .field i) ∨
    (∃ i, searchFiledFromTable table name value allowBlock = .dynamicNameIndex i ∧
      table.index name value allowBlock = .fieldName i) ∨
    searchFiledFromTable table name value allowBlock = .notFound := by
  rw [searchFiledFromTable]
  cases staticIndex name value with
  | field i => exact .inl ⟨i, rfl⟩
  | fieldName i =>
    cases hdynamic : table.index name value allowBlock with
    | field j => exact .inr (.inr (.inl ⟨j, rfl, rfl⟩))
    | fieldName j | none => exact .inr (.inl ⟨i, rfl⟩)
  | none =>
    cases hdynamic : table.index name value allowBlock with
    | field j => exact .inr (.inr (.inl ⟨j, rfl, rfl⟩))
    | fieldName j => exact .inr (.inr (.inr (.inl ⟨j, rfl, rfl⟩)))
    | none => exact .inr (.inr (.inr (.inr rfl)))

/-! ### Making room -/

theorem DynamicTable.need_le_length (bound : ℕ) (queue : List DynamicField) :
    need bound queue ≤ queue.length := Nat.sub_le _ _

variable {index : ℕ}

variable {acked m required : ℕ} {refs : List ℕ}

theorem DynamicTable.Tracks.not_mem_of_free (h : table.Tracks refs) (hm : m ≤ table.queue.length)
    (hfree : ∀ field ∈ table.queue.take m, Free acked field) (hlow : table.removeCount ≤ index)
    (hhigh : index < table.removeCount + m) :
    index ∉ refs ∧ index < acked := by
  have hi : index - table.removeCount < table.queue.length := by omega
  have htake : table.queue[index - table.removeCount] ∈ table.queue.take m := by
    rw [mem_take_iff_getElem]
    exact ⟨index - table.removeCount, by omega, rfl⟩
  obtain ⟨htracked, hacked⟩ := hfree _ htake
  obtain ⟨hidx, hcnt⟩ := h.entry _ _ (getElem?_eq_getElem hi)
  rw [show table.removeCount + (index - table.removeCount) = index by omega] at hidx hcnt
  refine ⟨?_, by omega⟩
  intro hmem
  have hpos : 0 < refs.count index := count_pos_iff.mpr hmem
  simp only [DynamicField.isTracked, gt_iff_lt, decide_eq_false_iff_not, not_lt] at htracked
  omega

theorem DynamicTable.le_capacity_of_canEvict (h : table.canEvict required = some (some m)) :
    required ≤ table.capacity := by
  by_contra hgt
  rw [canEvict, if_pos (by omega)] at h
  cases h

theorem DynamicTable.Tracks.evicted (h : table.Tracks refs)
    (hlike : LikeOldest acked table required) (hm : table.canEvict required = some (some m)) :
    table.evictDrained m = some (table.dropped m) ∧ (table.dropped m).Tracks refs ∧
      (table.dropped m).usedCap + required ≤ table.capacity ∧
      ∀ index, table.removeCount ≤ index → index < table.removeCount + m →
        index ∉ refs ∧ index < acked := by
  obtain ⟨answer, hanswer, hright⟩ := (evictsRightly_iff h.sound required).mpr hlike
  rw [hm] at hanswer
  obtain ⟨hneed, hfree⟩ := hright m (Option.some.inj hanswer).symm
  have hlen : m ≤ table.queue.length := by
    rw [hneed]
    exact need_le_length _ _
  have hroom := (need_le_iff (table.capacity - required) table.queue m).mp hneed.ge
  have hcap := le_capacity_of_canEvict hm
  refine ⟨evictDrained_eq h.sound hlen, h.dropped hlen fun field hf => (hfree field hf).1,
    ?_, fun index => h.not_mem_of_free hlen hfree⟩
  change fieldsSize (table.queue.drop m) + required ≤ table.capacity
  omega

/-! ### One field -/

namespace ReprEncoder

/-- The largest of the references, where they are not only to entry 0. -/
structure Largest (largest : ℕ) (refs : List ℕ) : Prop where
  le_max : ∀ index ∈ refs, index ≤ largest
  max_mem : largest ≠ 0 → largest ∈ refs

theorem Largest.concat {largest : ℕ} {refs : List ℕ} (h : Largest largest refs) (index : ℕ) :
    Largest (max largest index) (refs ++ [index]) := by
  refine ⟨fun i hi => ?_, fun hne => ?_⟩
  · rcases mem_append.mp hi with hi | hi
    · exact (h.le_max i hi).trans (le_max_left _ _)
    · rw [mem_singleton.mp hi]
      exact le_max_right _ _
  · simp only [mem_append, mem_singleton]
    rcases le_total index largest with hle | hle
    · rw [max_eq_left hle] at hne ⊢
      exact .inl (h.max_mem hne)
    · exact .inr (max_eq_right hle)

theorem Largest.again {largest : ℕ} {refs : List ℕ} (h : Largest largest refs)
    (hmem : index ∈ refs) : Largest (max largest index) refs := by
  rwa [max_eq_left (h.le_max index hmem)]

/-- The table counts the references of the section and the older ones, and the section
knows its largest reference. -/
structure Encodes (refs : List ℕ) (r : ReprEncoder) : Prop where
  tracks : r.table.Tracks (r.refFields ++ refs)
  within : r.table.usedCap ≤ r.table.capacity
  largest : Largest r.maxDynamic r.refFields

/-- What encoding does besides keeping `Encodes`: references are added, and entries that
are acknowledged and not referred to may go. -/
structure Grows (refs : List ℕ) (acked : ℕ) (allowBlock : Bool) (r r' : ReprEncoder) : Prop where
  capacity : r'.table.capacity = r.table.capacity
  known : r'.table.knownReceivedCount = r.table.knownReceivedCount
  removeCount_le : r.table.removeCount ≤ r'.table.removeCount
  insertCount_le : r.table.insertCount ≤ r'.table.insertCount
  refs_subset : r.refFields ⊆ r'.refFields
  removed : ∀ index, r.table.removeCount ≤ index → index < r'.table.removeCount →
    index ∉ refs ∧ index < acked
  held : allowBlock = false → ∀ index ∈ r'.refFields,
    index ∈ r.refFields ∨ index ≤ r.table.knownReceivedCount

variable {refs : List ℕ} {acked : ℕ} {allowBlock : Bool} {r r' r'' : ReprEncoder}

theorem Grows.of_same (htable : r'.table = r.table) (hrefs : r'.refFields = r.refFields) :
    Grows refs acked allowBlock r r' := by
  refine ⟨by rw [htable], by rw [htable], by rw [htable], by rw [htable], by rw [hrefs]; exact fun _ h => h, ?_, ?_⟩
  · intro index hlow hhigh
    rw [htable] at hhigh
    omega
  · intro _ index hmem
    rw [hrefs] at hmem
    exact .inl hmem

theorem Grows.trans (h : Grows refs acked allowBlock r r')
    (h' : Grows refs acked allowBlock r' r'') : Grows refs acked allowBlock r r'' where
  capacity := h'.capacity.trans h.capacity
  known := h'.known.trans h.known
  removeCount_le := h.removeCount_le.trans h'.removeCount_le
  insertCount_le := h.insertCount_le.trans h'.insertCount_le
  refs_subset := fun _ hmem => h'.refs_subset (h.refs_subset hmem)
  removed := by
    intro index hlow hhigh
    by_cases hlt : index < r'.table.removeCount
    · exact h.removed index hlow hlt
    · exact h'.removed index (by omega) hhigh
  held := by
    intro hallow index hmem
    rcases h'.held hallow index hmem with hmem | hle
    · exact h.held hallow index hmem
    · exact .inr (h.known ▸ hle)

theorem Encodes.write (h : r.Encodes refs) (octets : Bytes) : (r.write octets).Encodes refs :=
  ⟨h.tracks, h.within, h.largest⟩

theorem Grows.write (octets : Bytes) : Grows refs acked allowBlock r (r.write octets) :=
  .of_same rfl rfl

theorem Encodes.referNew (h : r.Encodes refs) (acked : ℕ) (hlow : r.table.removeCount ≤ index)
    (hhigh : index < r.table.insertCount)
    (hmay : allowBlock = true ∨ index ≤ r.table.knownReceivedCount) :
    ∃ r', r.referNew index = some r' ∧ r'.Encodes refs ∧ Grows refs acked allowBlock r r' := by
  obtain ⟨table, htrack, htracks, hsame⟩ := h.tracks.trackField hlow hhigh
  refine ⟨_, by rw [ReprEncoder.referNew, htrack]; rfl,
    ⟨htracks.perm ?_, ?_, h.largest.concat index⟩, ?_⟩
  · simp only [append_assoc, singleton_append]
    exact perm_middle.symm
  · simp only [hsame.usedCap, hsame.capacity, h.within]
  · refine ⟨hsame.capacity, hsame.known, hsame.removeCount.ge, hsame.insertCount.ge,
      fun i hi => mem_append_left _ hi, ?_, ?_⟩
    · intro i hle hlt
      simp only [hsame.removeCount] at hlt
      omega
    · intro hallow i hi
      rcases mem_append.mp hi with hi | hi
      · exact .inl hi
      · rw [mem_singleton.mp hi]
        rcases hmay with hmay | hmay
        · rw [hallow] at hmay
          cases hmay
        · exact .inr hmay

theorem Encodes.refer (h : r.Encodes refs) (acked : ℕ) (hlow : r.table.removeCount ≤ index)
    (hhigh : index < r.table.insertCount)
    (hmay : allowBlock = true ∨ index ≤ r.table.knownReceivedCount) :
    ∃ r', r.refer index = some r' ∧ r'.Encodes refs ∧ Grows refs acked allowBlock r r' := by
  by_cases hmem : index ∈ r.refFields
  · exact ⟨_, if_pos hmem, ⟨h.tracks, h.within, h.largest.again hmem⟩, .of_same rfl rfl⟩
  · obtain ⟨r', hr', hencs, hgrows⟩ := h.referNew acked hlow hhigh hmay
    refine ⟨r', ?_, hencs, hgrows⟩
    rw [← hr', ReprEncoder.refer, if_neg hmem]
    rfl

theorem Encodes.addFieldToDynamic (h : r.Encodes refs) (allowBlock : Bool) (name : NameField) (value : Bytes)
    (hlike : LikeOldest acked r.table (name.len + value.length + 32)) :
    ∃ r' found, r.addFieldToDynamic name value = some (r', found) ∧ r'.Encodes refs ∧
      Grows refs acked allowBlock r r' ∧
      ∀ index, found = some index →
        r'.table.removeCount ≤ index ∧ index < r'.table.insertCount := by
  obtain ⟨answer, hanswer, -⟩ :=
    (evictsRightly_iff h.tracks.sound (name.len + value.length + 32)).mpr hlike
  cases answer with
  | none =>
    refine ⟨_, _, by rw [ReprEncoder.addFieldToDynamic, hanswer], ?_, ?_, by simp⟩
    · exact ⟨h.tracks, h.within, h.largest⟩
    · exact .of_same rfl rfl
  | some m =>
    obtain ⟨hevict, htracks, hroom, hremoved⟩ := h.tracks.evicted hlike hanswer
    have hcnt := htracks.sound.count
    have hkept : (r.table.dropped m).insertCount = r.table.insertCount := rfl
    refine ⟨{ r with
        table := ((r.table.dropped m).update name value).1
        inst := r.inst ++ insertWithLiteral name.toString value r.isHuffman },
      some r.table.insertCount, ?_, ⟨htracks.update name value, ?_, h.largest⟩, ?_, ?_⟩
    · simp only [ReprEncoder.addFieldToDynamic, hanswer, hevict]
      rfl
    · exact (Nat.add_assoc _ _ _).ge.trans hroom
    · refine ⟨rfl, rfl, Nat.le_add_right _ _, Nat.le_succ _, fun _ hi => hi, ?_, fun _ _ hi => .inl hi⟩
      intro index hlow hhigh
      obtain ⟨hnot, hacked⟩ := hremoved index hlow hhigh
      exact ⟨fun hmem => hnot (mem_append_right _ hmem), hacked⟩
    · intro index hidx
      cases hidx
      exact ⟨by change (r.table.dropped m).removeCount ≤ (r.table.dropped m).insertCount; omega, Nat.lt_succ_self _⟩

/-- The question that encoding a field puts to `can_evict` is one it answers rightly. -/
def FieldFits (acked : ℕ) (allowBlock : Bool) (name : NameField) (value : Bytes)
    (r : ReprEncoder) : Prop :=
  searchFiledFromTable r.table name value allowBlock = .notFound → allowBlock = true →
    LikeOldest acked r.table (name.len + value.length + 32)

theorem Encodes.encodeField (h : r.Encodes refs) (name : NameField) (value : Bytes)
    (hfits : FieldFits acked allowBlock name value r) :
    ∃ r', r.encodeField allowBlock name value = some r' ∧ r'.Encodes refs ∧
      Grows refs acked allowBlock r r' := by
  have hnames := h.tracks.numbered.index_names name value allowBlock
  rw [ReprEncoder.encodeField]
  obtain ⟨i, hi⟩ | ⟨i, hi⟩ | ⟨i, hi, hfound⟩ | ⟨i, hi, hfound⟩ | hi :=
    search_cases r.table name value allowBlock
  · rw [hi]
    exact ⟨_, rfl, h.write _, .write _⟩
  · rw [hi]
    exact ⟨_, rfl, h.write _, .write _⟩
  · rw [hfound] at hnames
    obtain ⟨hlow, hhigh, hmay⟩ := hnames
    obtain ⟨r₁, hrefer, hencs, hgrows⟩ :=
      (h.write (r.indexedDynamicField i)).refer acked hlow hhigh hmay
    rw [hi]
    exact ⟨r₁, hrefer, hencs, .trans (.write _) hgrows⟩
  · rw [hfound] at hnames
    obtain ⟨hlow, hhigh, hmay⟩ := hnames
    obtain ⟨r₁, hrefer, hencs, hgrows⟩ :=
      (h.write (r.indexedNameRefWithLiteralField i value)).refer acked hlow hhigh hmay
    rw [hi]
    exact ⟨r₁, hrefer, hencs, .trans (.write _) hgrows⟩
  · rw [hi]
    by_cases hallow : allowBlock = true
    · subst hallow
      obtain ⟨r₁, found, hadd, hencs, hgrows, hlive⟩ :=
        h.addFieldToDynamic true name value (hfits hi rfl)
      simp only [if_true, hadd]
      cases found with
      | none => exact ⟨_, rfl, hencs.write _, hgrows.trans (.write _)⟩
      | some index =>
        obtain ⟨hlow, hhigh⟩ := hlive index rfl
        obtain ⟨r₂, hrefer, hencs', hgrows'⟩ :=
          (hencs.write (r₁.indexedDynamicField index)).referNew acked hlow hhigh (.inl rfl)
        exact ⟨r₂, hrefer, hencs', (hgrows.trans (.write _)).trans hgrows'⟩
    · simp only [hallow]
      exact ⟨_, rfl, h.write _, .write _⟩

/-- The questions that encoding the fields puts to `can_evict`. -/
inductive Asks (allowBlock : Bool) :
    List (NameField × Bytes) → ReprEncoder → DynamicTable → ℕ → Prop
  | here {name : NameField} {value : Bytes} {iter : List (NameField × Bytes)} {r : ReprEncoder}
      (notFound : searchFiledFromTable r.table name value allowBlock = .notFound)
      (allowed : allowBlock = true) :
      Asks allowBlock ((name, value) :: iter) r r.table (name.len + value.length + 32)
  | later {name : NameField} {value : Bytes} {iter : List (NameField × Bytes)}
      {r r' : ReprEncoder} {table : DynamicTable} {required : ℕ}
      (encoded : r.encodeField allowBlock name value = some r')
      (asks : Asks allowBlock iter r' table required) :
      Asks allowBlock ((name, value) :: iter) r table required

theorem Encodes.encodeFields (h : r.Encodes refs) (iter : List (NameField × Bytes))
    (hfits : ∀ table required, Asks allowBlock iter r table required →
      LikeOldest acked table required) :
    ∃ r', ReprEncoder.encodeFields allowBlock iter r = some r' ∧ r'.Encodes refs ∧
      Grows refs acked allowBlock r r' := by
  induction iter generalizing r with
  | nil => exact ⟨r, rfl, h, .of_same rfl rfl⟩
  | cons field iter ih =>
    obtain ⟨r₁, hfirst, hencs, hgrows⟩ := h.encodeField field.1 field.2
      fun hsearch hallow => hfits _ _ (.here hsearch hallow)
    obtain ⟨r₂, hrest, hencs', hgrows'⟩ := ih hencs
      fun table required hasks => hfits table required (.later hfirst hasks)
    refine ⟨r₂, ?_, hencs', hgrows.trans hgrows'⟩
    rw [ReprEncoder.encodeFields, hfirst]
    exact hrest

theorem Encodes.asks_iff (h : r.Encodes refs) (iter : List (NameField × Bytes)) :
    (∀ table required, Asks allowBlock iter r table required → EvictsRightly acked table required) ↔
      ∀ table required, Asks allowBlock iter r table required →
        LikeOldest acked table required := by
  induction iter generalizing r with
  | nil =>
    constructor
    · intro _ table required hasks
      cases hasks
    · intro _ table required hasks
      cases hasks
  | cons field iter ih =>
    obtain ⟨name, value⟩ := field
    -- both sides give the condition for the first field, and the rest is the hypothesis
    have hhead : (∀ table required, Asks allowBlock ((name, value) :: iter) r table required →
        EvictsRightly acked table required) → FieldFits acked allowBlock name value r := by
      intro hright hsearch hallow
      exact (evictsRightly_iff h.tracks.sound _).mp (hright _ _ (.here hsearch hallow))
    constructor
    · intro hright table required hasks
      obtain ⟨r₁, hfirst, hencs, -⟩ := h.encodeField name value (hhead hright)
      cases hasks with
      | here notFound allowed => exact hhead hright notFound allowed
      | later encoded asks =>
        cases hfirst.symm.trans encoded
        exact (ih hencs).mp (fun t n ha => hright t n (.later hfirst ha)) table required
          asks
    · intro hlike table required hasks
      cases hasks with
      | here notFound allowed =>
        exact (evictsRightly_iff h.tracks.sound _).mpr (hlike _ _ (.here notFound allowed))
      | later encoded asks =>
        have hfits : FieldFits acked allowBlock name value r :=
          fun hsearch hallow => hlike _ _ (.here hsearch hallow)
        obtain ⟨r₁, hfirst, hencs, -⟩ := h.encodeField name value hfits
        cases hfirst.symm.trans encoded
        exact (ih hencs).mpr (fun t n ha => hlike t n (.later hfirst ha)) table required
          asks

end ReprEncoder

end YlongHttp.Qpack
