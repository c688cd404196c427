import YlongHttp.Model.Qpack.Encoder
import YlongHttp.Verification.Qpack.Bound

/-! # Making room in the table of the QPACK encoder

`can_evict` looks at the oldest entry in every turn of its loop. It finds the number of
entries that have to go, and that all of them may go, when the entries are like the oldest
one in this respect; the condition is spelled out here. -/

namespace YlongHttp.Qpack

namespace DynamicTable

variable {bound known used : ℕ} {front : DynamicField}

def need (bound : ℕ) (queue : List DynamicField) : ℕ := queue.length - (keep bound queue).length

theorem fieldsSize_drop_le (queue : List DynamicField) (k : ℕ) :
    fieldsSize (queue.drop k) ≤ fieldsSize queue := by
  have h := fieldsSize_append (queue.take k) (queue.drop k)
  rw [List.take_append_drop] at h
  omega

theorem need_le_iff (bound : ℕ) (queue : List DynamicField) (k : ℕ) :
    need bound queue ≤ k ↔ fieldsSize (queue.drop k) ≤ bound := by
  induction queue generalizing k with
  | nil => simp [need, keep]
  | cons field queue ih =>
    have hle := (keep_suffix bound queue).length_le
    by_cases hsize : fieldsSize (field :: queue) > bound
    · have hneed : need bound (field :: queue) = need bound queue + 1 := by
        rw [need, need, keep, if_pos hsize, List.length_cons]
        omega
      cases k with
      | zero => simp only [hneed, List.drop_zero]; omega
      | succ k =>
        rw [hneed, List.drop_succ_cons, ← ih k]
        omega
    · have hneed : need bound (field :: queue) = 0 := by
        rw [need, keep, if_neg hsize]
        omega
      have hdrop := fieldsSize_drop_le (field :: queue) k
      rw [hneed]
      omega

/-- `k` entries of the size `size` take `used` down to the bound, and fewer do not. -/
def Reaches (size bound used k : ℕ) : Prop :=
  k * size ≤ used ∧ used - k * size ≤ bound ∧ ∀ j < k, bound < used - j * size

variable {size fuel n : ℕ}

theorem reaches_zero_iff : Reaches size bound used 0 ↔ used ≤ bound := by simp [Reaches]

theorem reaches_succ_iff {size k : ℕ} :
    Reaches size bound used (k + 1) ↔
      bound < used ∧ size ≤ used ∧ Reaches size bound (used - size) k := by
  have hmul : ∀ j, (j + 1) * size = j * size + size := fun j => Nat.succ_mul j size
  constructor
  · rintro ⟨hle, hroom, hleast⟩
    rw [hmul] at hle hroom
    refine ⟨by simpa using hleast 0 (by omega), by omega, by omega, by omega, ?_⟩
    intro j hj
    have h := hleast (j + 1) (by omega)
    rw [hmul] at h
    omega
  · rintro ⟨hgt, hsize, hle, hroom, hleast⟩
    refine ⟨by rw [hmul]; omega, by rw [hmul]; omega, ?_⟩
    intro j hj
    cases j with
    | zero => omega
    | succ j =>
      have h := hleast j (by omega)
      rw [hmul]
      omega

theorem size_pos (field : DynamicField) : 0 < field.size := by
  rw [DynamicField.size]
  omega

theorem canEvictLoop_eq_some_iff (htracked : front.isTracked = false) (hknown : front.index ≤ known)
    (fuel used n m : ℕ) (hfuel : used < fuel) :
    canEvictLoop front known bound fuel used n = some (some m) ↔
      ∃ k, m = n + k ∧ Reaches front.size bound used k := by
  induction fuel generalizing used n with
  | zero => omega
  | succ fuel ih =>
    have hpos := size_pos front
    rw [canEvictLoop]
    split
    · rename_i hgt
      have hfree : ¬ (front.isTracked = true ∨ front.index > known) := by
        rw [htracked]
        simpa using hknown
      rw [if_neg hfree]
      cases hsub : checkedSub used front.size with
      | none =>
        have hlt : ¬ front.size ≤ used := by
          intro hle
          rw [checkedSub_of_le hle] at hsub
          cases hsub
        constructor
        · intro h
          cases h
        · rintro ⟨k, -, hk⟩
          cases k with
          | zero => exact absurd (reaches_zero_iff.mp hk) (by omega)
          | succ k => exact absurd (reaches_succ_iff.mp hk).2.1 hlt
      | some used' =>
        obtain ⟨hle, rfl⟩ := checkedSub_eq_some hsub
        rw [ih (used - front.size) (n + 1) (by omega)]
        constructor
        · rintro ⟨k, rfl, hk⟩
          exact ⟨k + 1, by omega, reaches_succ_iff.mpr ⟨hgt, hle, hk⟩⟩
        · rintro ⟨k, rfl, hk⟩
          cases k with
          | zero => exact absurd (reaches_zero_iff.mp hk) (by omega)
          | succ k => exact ⟨k, by omega, (reaches_succ_iff.mp hk).2.2⟩
    · rename_i hle
      constructor
      · intro h
        cases Option.some.inj h
        exact ⟨0, rfl, reaches_zero_iff.mpr (by omega)⟩
      · rintro ⟨k, rfl, hk⟩
        cases k with
        | zero => rfl
        | succ k => exact absurd (reaches_succ_iff.mp hk).1 hle

variable (acked : ℕ)

def Free (field : DynamicField) : Prop := field.isTracked = false ∧ field.index < acked

/-- What `can_evict` is to do: return without underflow, and if it returns a number, then
the smallest one that makes room, all of these entries being free. -/
def EvictsRightly (table : DynamicTable) (required : ℕ) : Prop :=
  ∃ answer, table.canEvict required = some answer ∧ ∀ m, answer = some m →
    m = need (table.capacity - required) table.queue ∧ ∀ field ∈ table.queue.take m, Free acked field

/-- When it does. If room has to be made and the test of the oldest entry lets it go, as
many entries of its size make room as there are oldest entries to take off, and all of
these are free. -/
def LikeOldest (table : DynamicTable) (required : ℕ) : Prop :=
  ∀ front rest, table.queue = front :: rest → required ≤ table.capacity →
    table.capacity - required < table.usedCap → front.isTracked = false →
    front.index ≤ table.knownReceivedCount →
    Reaches front.size (table.capacity - required) table.usedCap
        (need (table.capacity - required) table.queue) ∧
      ∀ field ∈ table.queue.take (need (table.capacity - required) table.queue), Free acked field

theorem canEvictLoop_of_le (h : used ≤ bound) :
    canEvictLoop front known bound (fuel + 1) used n = some (some n) := by
  rw [canEvictLoop, if_neg (by omega)]

theorem canEvictLoop_of_held (h : bound < used)
    (hheld : front.isTracked = true ∨ front.index > known) :
    canEvictLoop front known bound (fuel + 1) used n = some none := by
  rw [canEvictLoop, if_pos h, if_pos hheld]

theorem canEvictLoop_ne_held (htracked : front.isTracked = false) (hknown : front.index ≤ known)
    (fuel used n : ℕ) : canEvictLoop front known bound fuel used n ≠ some none := by
  have hfree : ¬ (front.isTracked = true ∨ front.index > known) := by
    rw [htracked]
    simpa using hknown
  induction fuel generalizing used n with
  | zero => simp [canEvictLoop]
  | succ fuel ih =>
    rw [canEvictLoop]
    by_cases hgt : used > bound
    · rw [if_pos hgt, if_neg hfree]
      cases checkedSub used front.size with
      | none => simp
      | some used' => exact ih used' (n + 1)
    · rw [if_neg hgt]
      simp

theorem evictsRightly_iff {acked : ℕ} {table : DynamicTable} (h : table.Sound) (required : ℕ) :
    EvictsRightly acked table required ↔ LikeOldest acked table required := by
  constructor
  · rintro ⟨answer, hanswer, hright⟩ front rest hqueue hcap hfull htracked hknown
    rw [canEvict, if_neg (by omega), hqueue] at hanswer
    cases answer with
    | none => exact absurd hanswer (canEvictLoop_ne_held htracked hknown _ _ _)
    | some m =>
      obtain ⟨hm, hfree⟩ := hright m rfl
      obtain ⟨k, hk, hreaches⟩ :=
        (canEvictLoop_eq_some_iff htracked hknown _ _ _ _ (by omega)).mp hanswer
      obtain rfl : m = k := by omega
      rw [← hm]
      exact ⟨hreaches, hfree⟩
  · intro hlike
    by_cases hcap : required > table.capacity
    · exact ⟨none, by rw [canEvict, if_pos hcap], by simp⟩
    · cases hqueue : table.queue with
      | nil =>
        refine ⟨some 0, by rw [canEvict, if_neg hcap, hqueue], ?_⟩
        intro m hm
        cases hm
        simp [need, keep, hqueue]
      | cons front rest =>
        rw [EvictsRightly, canEvict, if_neg hcap, hqueue]
        simp only
        by_cases hfull : table.capacity - required < table.usedCap
        · by_cases hheld : front.isTracked = true ∨ front.index > table.knownReceivedCount
          · exact ⟨none, canEvictLoop_of_held hfull hheld, by simp⟩
          · obtain ⟨htracked, hknown⟩ := not_or.mp hheld
            have htracked : front.isTracked = false := by simpa using htracked
            obtain ⟨hreaches, hfree⟩ := hlike front rest hqueue (by omega) hfull htracked (by omega)
            rw [hqueue] at hreaches hfree
            refine ⟨some _, (canEvictLoop_eq_some_iff htracked (by omega) _ _ _ _ (by omega)).mpr
              ⟨_, (Nat.zero_add _).symm, hreaches⟩, ?_⟩
            intro m hm
            cases hm
            exact ⟨rfl, hfree⟩
        · have hneed : need (table.capacity - required) (front :: rest) = 0 := by
            rw [need, keep_of_le (by rw [← hqueue, ← h.used]; omega), Nat.sub_self]
          refine ⟨some 0, canEvictLoop_of_le (by omega), ?_⟩
          intro m hm
          cases hm
          simp [hneed]

end DynamicTable

end YlongHttp.Qpack
