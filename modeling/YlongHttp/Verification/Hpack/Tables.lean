import YlongHttp.Model.Hpack.Encoder

/-! # What the tables answer

An index the encoder gets from the tables names a field, or the name of a field, that a
decoder with the same tables finds under it. -/

namespace YlongHttp

variable {h : Header} {v : Bytes} {queue : List Field} {m : ℕ} {found : Option TableIndex}
  {t : DynamicTable}

/-! ## The static table -/

namespace StaticTable

variable {h : Header} {v : Bytes} {i : ℕ}

theorem indexNames_headerName :
    ∀ e ∈ indexNames, headerName e.2 = some (.other e.1) ∧ 0 < e.2 ∧ e.2 ≤ 61 := by
  decide +kernel

theorem index_header (hi : index h v = some (.header i)) :
    header i = some (h, v) ∧ 0 < i ∧ i ≤ 61 := by
  cases h with
  | other s =>
    simp only [index, indexHeaders] at hi
    split at hi
    · rename_i hkey
      obtain ⟨rfl, rfl⟩ := hkey
      obtain rfl : 16 = i := by simpa using hi
      exact ⟨rfl, by decide, by decide⟩
    · simp only [Option.map_eq_some_iff] at hi
      obtain ⟨_, -, hne⟩ := hi
      cases hne
  | authority => cases hi
  | method | path | scheme | status =>
    simp only [index] at hi
    split_ifs at hi <;> cases hi <;> subst_vars <;> exact ⟨rfl, by decide, by decide⟩

theorem index_headerName (hi : index h v = some (.headerName i)) :
    headerName i = some h ∧ 0 < i ∧ i ≤ 61 := by
  cases h with
  | other s =>
    simp only [index, indexHeaders] at hi
    split at hi
    · cases hi
    · simp only [Option.map_eq_some_iff] at hi
      obtain ⟨j, hget, heq⟩ := hi
      obtain rfl : j = i := by simpa using heq
      obtain ⟨l₁, l₂, hnames, -⟩ := List.lookup_eq_some_iff.mp hget
      exact indexNames_headerName (s, j) (by rw [hnames]; simp)
  | authority =>
    cases hi
    exact ⟨rfl, by decide, by decide⟩
  | method | path | scheme | status =>
    simp only [index] at hi
    split_ifs at hi <;> cases hi
    exact ⟨rfl, by decide, by decide⟩

theorem index_none (hi : index h v = none) : ∃ s, h = .other s := by
  cases h with
  | other s => exact ⟨s, rfl⟩
  | authority => cases hi
  | method | path | scheme | status =>
    simp only [index] at hi
    split_ifs at hi

end StaticTable

/-! ## The dynamic table -/

theorem indexLoop_header {n : ℕ} (hfound : ∀ k, found ≠ some (.header k))
    (hm : indexLoop h v queue n found = some (.header m)) :
    ∃ i, m = n + i ∧ queue[i]? = some (h, v) := by
  induction queue generalizing n found with
  | nil => exact absurd hm (hfound m)
  | cons entry queue ih =>
    obtain ⟨h', v'⟩ := entry
    simp only [indexLoop] at hm
    split at hm
    · rename_i hh
      split at hm
      · rename_i hv
        obtain rfl : n = m := by simpa using hm
        exact ⟨0, rfl, by simp [hh, hv]⟩
      · obtain ⟨i, rfl, hi⟩ := ih (by
          intro k
          cases found with
          | none => simp
          | some t => simpa using hfound k) hm
        exact ⟨i + 1, by omega, by simpa using hi⟩
    · obtain ⟨i, rfl, hi⟩ := ih hfound hm
      exact ⟨i + 1, by omega, by simpa using hi⟩

theorem indexLoop_headerName {n : ℕ} (hm : indexLoop h v queue n found = some (.headerName m)) :
    found = some (.headerName m) ∨ ∃ i v', m = n + i ∧ queue[i]? = some (h, v') ∧ v' ≠ v := by
  induction queue generalizing n found with
  | nil => exact .inl hm
  | cons entry queue ih =>
    obtain ⟨h', v'⟩ := entry
    simp only [indexLoop] at hm
    split at hm
    · rename_i hh
      split at hm
      · cases hm
      · rename_i hv
        rcases ih hm with hfound | ⟨i, w, rfl, hi, hne⟩
        · cases found with
          | some t => exact .inl (by simpa using hfound)
          | none =>
            obtain rfl : n = m := by simpa using hfound
            exact .inr ⟨0, v', rfl, by simp [hh], fun heq => hv heq.symm⟩
        · exact .inr ⟨i + 1, w, by omega, by simpa using hi, hne⟩
    · rcases ih hm with hfound | ⟨i, w, rfl, hi, hne⟩
      · exact .inl hfound
      · exact .inr ⟨i + 1, w, by omega, by simpa using hi, hne⟩

theorem DynamicTable.index_header (hm : t.index h v = some (.header m)) :
    t.header m = some (h, v) := by
  obtain ⟨i, rfl, hi⟩ := indexLoop_header (by simp) hm
  simpa [DynamicTable.header] using hi

theorem DynamicTable.index_headerName (hm : t.index h v = some (.headerName m)) :
    ∃ v', t.header m = some (h, v') ∧ v' ≠ v := by
  rcases indexLoop_headerName hm with hnone | ⟨i, v', rfl, hi, hne⟩
  · cases hnone
  · exact ⟨v', by simpa [DynamicTable.header] using hi, hne⟩

/-! ## Sizes -/

/-- The table is no larger than the maximum, the invariant of every operation. -/
def DynamicTable.Fits (t : DynamicTable) : Prop := t.currSize ≤ t.maxSize

theorem evict_le (maxSize : ℕ) (entries : List Field) :
    (evict maxSize entries (fieldsSize entries)).2 ≤ maxSize := by
  induction entries with
  | nil => simp [evict, fieldsSize]
  | cons entry rest ih =>
    have hsub : fieldsSize (entry :: rest) - entry.size = fieldsSize rest := by simp [fieldsSize]
    rw [evict, hsub]
    split
    · exact ih
    · omega

theorem DynamicTable.fitSize_fits (t : DynamicTable) : t.fitSize.Fits := by
  simp only [Fits, fitSize, t.size_eq, ← fieldsSize_reverse t.queue]
  exact evict_le _ _

theorem DynamicTable.withMaxSize_fits (maxSize : ℕ) : (withMaxSize maxSize).Fits :=
  Nat.zero_le maxSize

theorem DynamicTable.update_fits (t : DynamicTable) (h : Header) (v : Bytes) :
    (t.update h v).Fits :=
  DynamicTable.fitSize_fits _

@[simp] theorem DynamicTable.update_maxSize (t : DynamicTable) (h : Header) (v : Bytes) :
    (t.update h v).maxSize = t.maxSize := rfl

@[simp] theorem DynamicTable.updateSize_maxSize (t : DynamicTable) (n : ℕ) :
    (t.updateSize n).maxSize = n := rfl

theorem fieldsSize_ge (fields : List Field) : 32 * fields.length ≤ fieldsSize fields := by
  induction fields with
  | nil => simp
  | cons f fields ih =>
    simp only [fieldsSize, List.map_cons, List.sum_cons, List.length_cons, Field.size] at ih ⊢
    omega

theorem DynamicTable.Fits.index_lt (ht : t.Fits) (hmax : t.maxSize < usizeBound) {i : ℕ} {f : Field}
    (hi : t.header i = some f) : i + 62 < usizeBound := by
  have hlen : i < t.queue.length := (List.getElem?_eq_some_iff.mp hi).1
  have hsize := fieldsSize_ge t.queue
  have heq := t.size_eq
  have hfits : t.currSize ≤ t.maxSize := ht
  have hbound : usizeBound = 2 ^ 64 := rfl
  omega

end YlongHttp
