import YlongHttp.Verification.Qpack.Eviction

/-! # References to the entries of the QPACK encoder's table

Every entry counts the unacknowledged field sections that refer to it. The operations of
the table keep these counts, and with them never run into a panic. -/

namespace YlongHttp.Qpack

open List

namespace DynamicTable

variable {refs refs' : List ℕ} {table : DynamicTable} {i index m : ℕ} {field field' : DynamicField}

/-- The entries bear their absolute indices. -/
structure Numbered (table : DynamicTable) : Prop where
  sound : table.Sound
  entry : ∀ i field, table.queue[i]? = some field → field.index = table.removeCount + i

/-- The table counts the references `refs`, all of which are to entries that it has. -/
structure Tracks (refs : List ℕ) (table : DynamicTable) : Prop where
  sound : table.Sound
  entry : ∀ i field, table.queue[i]? = some field →
    field.index = table.removeCount + i ∧ field.tracked = refs.count (table.removeCount + i)
  live : ∀ r ∈ refs, table.removeCount ≤ r ∧ r < table.insertCount

theorem Tracks.numbered (h : table.Tracks refs) : table.Numbered :=
  ⟨h.sound, fun i field hfld => (h.entry i field hfld).1⟩

/-- All but the entries is the same. -/
structure SameCounts (table table' : DynamicTable) : Prop where
  usedCap : table'.usedCap = table.usedCap
  capacity : table'.capacity = table.capacity
  insertCount : table'.insertCount = table.insertCount
  removeCount : table'.removeCount = table.removeCount
  known : table'.knownReceivedCount = table.knownReceivedCount

theorem SameCounts.refl (table : DynamicTable) : SameCounts table table := ⟨rfl, rfl, rfl, rfl, rfl⟩

theorem SameCounts.trans {table table' table'' : DynamicTable} (h : SameCounts table table')
    (h' : SameCounts table' table'') : SameCounts table table'' :=
  ⟨h'.usedCap.trans h.usedCap, h'.capacity.trans h.capacity, h'.insertCount.trans h.insertCount,
    h'.removeCount.trans h.removeCount, h'.known.trans h.known⟩

theorem Tracks.withEmpty : withEmpty.Tracks [] :=
  ⟨.withEmpty, by simp [DynamicTable.withEmpty], by simp⟩

theorem Tracks.perm (h : table.Tracks refs) (hperm : refs.Perm refs') : table.Tracks refs' where
  sound := h.sound
  entry := by
    intro i field hfld
    rw [← hperm.count_eq]
    exact h.entry i field hfld
  live := fun r hr => h.live r (hperm.mem_iff.mpr hr)

theorem fieldsSize_set {queue : List DynamicField} (h : queue[i]? = some field)
    (hsize : field'.size = field.size) : fieldsSize (queue.set i field') = fieldsSize queue := by
  induction queue generalizing i with
  | nil => rfl
  | cons front queue ih =>
    cases i with
    | zero =>
      obtain rfl : front = field := by simpa using h
      simp [hsize]
    | succ i =>
      have htail : queue[i]? = some field := by simpa using h
      simp [ih htail]

theorem modifyField_eq (h : table.Sound) (hlow : table.removeCount ≤ index)
    (hhigh : index < table.insertCount) (f : DynamicField → Option DynamicField) :
    ∃ field, table.queue[index - table.removeCount]? = some field ∧
      table.modifyField index f =
        (f field).map fun field =>
          { table with queue := table.queue.set (index - table.removeCount) field } := by
  have hlt : index - table.removeCount < table.queue.length := by
    have := h.count
    omega
  refine ⟨table.queue[index - table.removeCount], getElem?_eq_getElem hlt, ?_⟩
  simp [modifyField, checkedSub_of_le hlow, getElem?_eq_getElem hlt]

theorem Tracks.set (h : table.Tracks refs) (hfld : table.queue[i]? = some field)
    (hidx : field'.index = field.index) (hsize : field'.size = field.size)
    (htracked : field'.tracked = refs'.count (table.removeCount + i))
    (hother : ∀ j, j ≠ table.removeCount + i → refs'.count j = refs.count j)
    (hlive : ∀ r ∈ refs', table.removeCount ≤ r ∧ r < table.insertCount) :
    Tracks refs' { table with queue := table.queue.set i field' } where
  sound :=
    { used := by simp only [fieldsSize_set hfld hsize, h.sound.used]
      count := by simp only [length_set, h.sound.count] }
  entry := by
    intro j found hfound
    simp only [getElem?_set] at hfound
    by_cases hj : i = j
    · subst hj
      have hlt : i < table.queue.length := (List.getElem?_eq_some_iff.mp hfld).1
      simp only [if_true, hlt, Option.some.injEq] at hfound
      subst hfound
      exact ⟨hidx.trans (h.entry i field hfld).1, htracked⟩
    · simp only [hj, if_false] at hfound
      obtain ⟨hent, hcnt⟩ := h.entry j found hfound
      refine ⟨hent, ?_⟩
      rw [hcnt, hother (table.removeCount + j) (by omega)]
  live := hlive

theorem Tracks.trackField (h : table.Tracks refs) (hlow : table.removeCount ≤ index)
    (hhigh : index < table.insertCount) :
    ∃ table', table.trackField index = some table' ∧ table'.Tracks (index :: refs) ∧
      SameCounts table table' := by
  obtain ⟨field, hfld, hmodify⟩ := modifyField_eq h.sound hlow hhigh
    fun field => some { field with tracked := field.tracked + 1 }
  refine ⟨_, hmodify, ?_, ⟨rfl, rfl, rfl, rfl, rfl⟩⟩
  have hidx : table.removeCount + (index - table.removeCount) = index := by omega
  have hcnt := (h.entry _ field hfld).2
  rw [hidx] at hcnt
  refine h.set hfld rfl rfl ?_ ?_ ?_
  · simp [hidx, hcnt]
  · intro j hj
    rw [hidx] at hj
    exact count_cons_of_ne (by omega)
  · intro r hr
    rcases mem_cons.mp hr with rfl | hr
    · exact ⟨hlow, hhigh⟩
    · exact h.live r hr

theorem Tracks.untrackedField (h : table.Tracks (index :: refs)) :
    ∃ table', table.untrackedField index = some table' ∧ table'.Tracks refs ∧
      SameCounts table table' := by
  obtain ⟨hlow, hhigh⟩ := h.live index (by simp)
  obtain ⟨field, hfld, hmodify⟩ := modifyField_eq h.sound hlow hhigh
    fun field => if field.tracked > 0 then some { field with tracked := field.tracked - 1 } else none
  have hidx : table.removeCount + (index - table.removeCount) = index := by omega
  have hcnt := (h.entry _ field hfld).2
  rw [hidx, count_cons_self] at hcnt
  rw [if_pos (by omega)] at hmodify
  refine ⟨_, hmodify, ?_, ⟨rfl, rfl, rfl, rfl, rfl⟩⟩
  refine h.set hfld rfl rfl ?_ ?_ ?_
  · simp [hidx, hcnt]
  · intro j hj
    rw [hidx] at hj
    exact (count_cons_of_ne (by omega)).symm
  · intro r hr
    exact h.live r (.tail _ hr)

theorem Tracks.untrackAll {indices : List ℕ} (h : table.Tracks (indices ++ refs)) :
    ∃ table', QpackEncoder.untrackAll table indices = some table' ∧ table'.Tracks refs ∧
      SameCounts table table' := by
  induction indices generalizing table with
  | nil => exact ⟨table, rfl, h, .refl table⟩
  | cons index indices ih =>
    obtain ⟨table₁, hfirst, htracks, hsame⟩ := Tracks.untrackedField h
    obtain ⟨table₂, hrest, htracks', hsame'⟩ := ih htracks
    refine ⟨table₂, ?_, htracks', hsame.trans hsame'⟩
    rw [QpackEncoder.untrackAll, hfirst]
    exact hrest

/-- The entries of before, and a new one that bears the insert count. -/
theorem update_entry (h : table.Sound) {name : NameField} {value : Bytes}
    (hfld : (table.update name value).1.queue[i]? = some field) :
    table.queue[i]? = some field ∨ field.index = table.removeCount + i ∧ field.tracked = 0 ∧
      table.removeCount + i = table.insertCount := by
  simp only [DynamicTable.update, getElem?_append] at hfld
  split at hfld
  · exact .inl hfld
  · rename_i hge
    have hcnt := h.count
    have hlt := (List.getElem?_eq_some_iff.mp hfld).1
    rw [length_singleton] at hlt
    obtain rfl : i = table.queue.length := by omega
    obtain rfl : _ = field := by simpa using hfld
    exact .inr ⟨hcnt, rfl, hcnt.symm⟩

theorem Tracks.update {refs : List ℕ} {table : DynamicTable} (h : table.Tracks refs)
    (name : NameField) (value : Bytes) : (table.update name value).1.Tracks refs where
  sound := h.sound.update name value
  entry := by
    intro i field hfld
    rcases update_entry h.sound hfld with hfld | ⟨hindex, htracked, hnew⟩
    · exact h.entry i field hfld
    · refine ⟨hindex, htracked.trans (count_eq_zero_of_not_mem fun hmem => ?_).symm⟩
      exact (h.live _ hmem).2.ne hnew
  live := by
    intro r hr
    have := h.live r hr
    exact ⟨this.1, Nat.lt_succ_of_lt this.2⟩

/-- The table without its `m` oldest entries. -/
def dropped (table : DynamicTable) (m : ℕ) : DynamicTable :=
  { table with
    queue := table.queue.drop m
    usedCap := fieldsSize (table.queue.drop m)
    removeCount := table.removeCount + m }

theorem evictDrained_eq (h : table.Sound) (hm : m ≤ table.queue.length) :
    table.evictDrained m = some (table.dropped m) := by
  induction m generalizing table with
  | zero =>
    rw [evictDrained, dropped]
    simp [← h.used]
  | succ m ih =>
    cases hqueue : table.queue with
    | nil => simp [hqueue] at hm
    | cons field queue =>
      have hused : table.usedCap = field.size + fieldsSize queue := by
        rw [h.used, hqueue, fieldsSize_cons]
      have hcnt := h.count
      simp only [hqueue, length_cons] at hcnt hm
      rw [evictDrained]
      simp only [hqueue, checkedSub_of_le (show field.size ≤ table.usedCap by omega)]
      rw [ih ⟨by simp only; omega, by simp only; omega⟩ (by simpa using hm)]
      simp only [dropped, hqueue, drop_succ_cons, Option.some.injEq, mk.injEq, true_and, and_true]
      omega

theorem Tracks.dropped (h : table.Tracks refs) (hm : m ≤ table.queue.length)
    (hfree : ∀ field ∈ table.queue.take m, field.isTracked = false) :
    (table.dropped m).Tracks refs where
  sound := by
    have hcnt := h.sound.count
    refine ⟨rfl, ?_⟩
    simp only [DynamicTable.dropped, length_drop]
    omega
  entry := by
    intro i field hfld
    simp only [DynamicTable.dropped, getElem?_drop] at hfld ⊢
    have hent := h.entry _ field hfld
    rwa [← Nat.add_assoc] at hent
  live := by
    intro r hr
    obtain ⟨hlow, hhigh⟩ := h.live r hr
    refine ⟨?_, hhigh⟩
    by_contra hlt
    simp only [DynamicTable.dropped, not_le] at hlt
    have hcnt := h.sound.count
    have hi : r - table.removeCount < table.queue.length := by omega
    have hfld := getElem?_eq_getElem hi
    have htake : table.queue[r - table.removeCount] ∈ table.queue.take m := by
      rw [mem_take_iff_getElem]
      exact ⟨r - table.removeCount, by omega, rfl⟩
    have hzero := hfree _ htake
    have htracked := (h.entry _ _ hfld).2
    rw [show table.removeCount + (r - table.removeCount) = r by omega] at htracked
    have hpos : 0 < refs.count r := count_pos_iff.mpr hr
    simp only [DynamicField.isTracked, gt_iff_lt, decide_eq_false_iff_not, not_lt] at hzero
    omega

end DynamicTable

end YlongHttp.Qpack
