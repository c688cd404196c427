import YlongHttp.Verification.Qpack.Calls

/-! # The dynamic table of the QPACK decoder stays within its capacity

The decoder keeps `used_cap` equal to the size of its entries and its capacity below the
announced maximum, but `DynamicTable::update` makes no room for the entry it inserts. The
bound of RFC 9204 holds as long as every inserted entry fits beside those that are there. -/

namespace YlongHttp.Qpack

open List Qpack.DynamicTable Except
open Library

/-! ### The table -/

def fieldsSize (queue : List DynamicField) : ℕ := (queue.map DynamicField.size).sum

@[simp]
theorem fieldsSize_nil : fieldsSize [] = 0 := rfl

@[simp]
theorem fieldsSize_cons (field : DynamicField) (queue : List DynamicField) :
    fieldsSize (field :: queue) = field.size + fieldsSize queue := by
  simp [fieldsSize]

@[simp]
theorem fieldsSize_append (front back : List DynamicField) :
    fieldsSize (front ++ back) = fieldsSize front + fieldsSize back := by
  simp [fieldsSize]

theorem checkedSub_of_le {a b : ℕ} (h : b ≤ a) : checkedSub a b = some (a - b) := if_pos h

theorem checkedSub_eq_some {a b c : ℕ} (h : checkedSub a b = some c) : b ≤ a ∧ c = a - b := by
  rw [checkedSub] at h
  split at h
  · exact ⟨by assumption, (Option.some.inj h).symm⟩
  · cases h

namespace DynamicTable

variable {table : DynamicTable}

def keep (capacity : ℕ) (queue : List DynamicField) : List DynamicField :=
  match queue with
  | [] => []
  | field :: queue =>
    if fieldsSize (field :: queue) > capacity then keep capacity queue else field :: queue

theorem keep_suffix (capacity : ℕ) (queue : List DynamicField) : keep capacity queue <:+ queue := by
  induction queue with
  | nil => exact suffix_rfl
  | cons field queue ih =>
    rw [keep]
    split
    · exact ih.trans (suffix_cons field queue)
    · exact suffix_rfl

theorem keep_size (capacity : ℕ) (queue : List DynamicField) :
    fieldsSize (keep capacity queue) ≤ capacity := by
  induction queue with
  | nil => exact Nat.zero_le _
  | cons field queue ih =>
    rw [keep]
    split
    · exact ih
    · omega

theorem keep_of_le {capacity : ℕ} {queue : List DynamicField} (h : fieldsSize queue ≤ capacity) :
    keep capacity queue = queue := by
  cases queue with
  | nil => rfl
  | cons field queue => rw [keep, if_neg (by omega)]

theorem fitSize_eq (capacity : ℕ) (queue : List DynamicField) (removeCount : ℕ) :
    fitSize capacity queue (fieldsSize queue) removeCount =
      some (keep capacity queue, fieldsSize (keep capacity queue),
        removeCount + (queue.length - (keep capacity queue).length)) := by
  induction queue generalizing removeCount with
  | nil => rfl
  | cons field queue ih =>
    have hle : (keep capacity queue).length ≤ queue.length := (keep_suffix capacity queue).length_le
    rw [fitSize, keep]
    split
    · rw [checkedSub_of_le (by simp)]
      have hrest : fieldsSize (field :: queue) - field.size = fieldsSize queue := by simp
      simp only [hrest, ih]
      simp only [length_cons, Option.some.injEq, Prod.mk.injEq, true_and]
      omega
    · simp

/-- The counters of the table say what the queue holds. -/
structure Sound (table : DynamicTable) : Prop where
  used : table.usedCap = fieldsSize table.queue
  count : table.insertCount = table.removeCount + table.queue.length

theorem Sound.withEmpty : withEmpty.Sound := ⟨rfl, rfl⟩

theorem Sound.update {table : DynamicTable} (h : table.Sound) (name : NameField) (value : Bytes) :
    (table.update name value).1.Sound where
  used := by simp [DynamicTable.update, h.used]
  count := by simp [DynamicTable.update, h.count]; omega

def resized (table : DynamicTable) (capacity : ℕ) : DynamicTable :=
  { table with
    queue := keep capacity table.queue
    usedCap := fieldsSize (keep capacity table.queue)
    removeCount := table.removeCount + (table.queue.length - (keep capacity table.queue).length)
    capacity }

theorem Sound.updateSize (h : table.Sound) (capacity : ℕ) :
    table.updateSize capacity = some (table.resized capacity) := by
  rw [DynamicTable.updateSize, h.used, fitSize_eq]
  rfl

theorem Sound.resized (h : table.Sound) (capacity : ℕ) :
    (table.resized capacity).Sound where
  used := rfl
  count := by
    have hle := (keep_suffix capacity table.queue).length_le
    have hcnt := h.count
    simp only [DynamicTable.resized]
    omega

end DynamicTable

/-! ### Instructions -/

namespace Updater

variable {table table' : DynamicTable} {max : ℕ} {inst : EncoderInstruction}

/-- The entry that an instruction inserts, if it inserts one. -/
def entry (table : DynamicTable) : EncoderInstruction → Option (NameField × Bytes)
  | .setCap _ => none
  | .insertWithIndex midBit name value => (getFieldByNameAndValue table midBit name value).toOption
  | .insertWithLiteral midBit name value =>
    (getFieldByNameAndValue table midBit name value).toOption
  | .duplicate index =>
    (checkedSub table.insertCount (index + 1)).bind fun relative => (table.field relative).join

theorem entry_of_updateTable {midBit : MidBit} {name : Name} {value : Bytes}
    (h : updateTable table midBit name value = .ok table') :
    ∃ f v, getFieldByNameAndValue table midBit name value = .ok (f, v) ∧
      table' = (table.update f v).1 := by
  rw [updateTable] at h
  cases hf : getFieldByNameAndValue table midBit name value with
  | error e =>
    rw [hf] at h
    cases h
  | ok field =>
    rw [hf] at h
    exact ⟨field.1, field.2, rfl, (ok.inj h).symm⟩

theorem apply_cases (h : apply max table inst = .ok table') :
    (∃ capacity ≤ max, inst = .setCap capacity ∧ table.updateSize capacity = some table') ∨
      ∃ f v, entry table inst = some (f, v) ∧ table' = (table.update f v).1 := by
  cases inst with
  | setCap capacity =>
    rw [apply] at h
    split at h
    · cases h
    · rename_i hle
      refine .inl ⟨capacity, by omega, rfl, ?_⟩
      cases hs : table.updateSize capacity with
      | none =>
        rw [hs] at h
        cases h
      | some table'' =>
        rw [hs] at h
        rw [ok.inj h]
  | insertWithIndex midBit name value | insertWithLiteral midBit name value =>
    obtain ⟨f, v, hf, rfl⟩ := entry_of_updateTable h
    exact .inr ⟨f, v, by rw [entry, hf]; rfl, rfl⟩
  | duplicate index =>
    rw [apply, duplicate] at h
    cases hr : checkedSub table.insertCount (index + 1) with
    | none =>
      rw [hr] at h
      cases h
    | some relative =>
      cases hf : table.field relative with
      | none => simp [hr, hf, orPanic, bind, Except.bind] at h
      | some found =>
        cases found with
        | none => simp [hr, hf, orPanic, okOr, bind, Except.bind] at h
        | some field =>
          refine .inr ⟨field.1, field.2, by simp [entry, hr, hf], ?_⟩
          simp only [hr, hf, orPanic, okOr, bind, Except.bind, pure, Except.pure,
            Except.ok.injEq] at h
          exact h.symm

theorem apply_of_entry {f : NameField} {v : Bytes} (h : entry table inst = some (f, v)) :
    apply max table inst = .ok (table.update f v).1 := by
  cases inst with
  | setCap capacity => cases h
  | insertWithIndex midBit name value | insertWithLiteral midBit name value =>
    rw [entry] at h
    cases hf : getFieldByNameAndValue table midBit name value with
    | error e =>
      rw [hf] at h
      cases h
    | ok field =>
      rw [hf] at h
      obtain rfl : field = (f, v) := Option.some.inj h
      simp [apply, updateTable, hf, bind, Except.bind, pure, Except.pure]
  | duplicate index =>
    rw [entry] at h
    obtain ⟨relative, hr, hfound⟩ := Option.bind_eq_some_iff.mp h
    cases hf : table.field relative with
    | none =>
      rw [hf] at hfound
      cases hfound
    | some found =>
      rw [hf] at hfound
      obtain rfl : found = some (f, v) := hfound
      simp [apply, duplicate, hr, hf, orPanic, okOr, bind, Except.bind, pure, Except.pure]

def HasRoom (table : DynamicTable) (inst : EncoderInstruction) : Prop :=
  ∀ f v, entry table inst = some (f, v) → table.usedCap + (f.len + v.length + 32) ≤ table.capacity

/-- An insertion as RFC 9204 has it: an entry larger than the capacity is an error of the
encoder stream, and for every other the oldest entries make room. -/
def rfcInsert (table : DynamicTable) (f : NameField) (v : Bytes) :
    Except (Fault QpackError) (List DynamicField) :=
  let size := f.len + v.length + 32
  if size > table.capacity then .error (.error (.connectionError .encoderStreamError))
  else
    .ok (keep (table.capacity - size) table.queue ++
      [{ index := table.insertCount, name := f, value := v, tracked := 0 }])

/-- The instruction does to the entries of the table what the RFC says. -/
def Conforms (max : ℕ) (table : DynamicTable) (inst : EncoderInstruction) : Prop :=
  ∀ f v, entry table inst = some (f, v) → (apply max table inst).map queue = rfcInsert table f v

theorem conforms_iff_hasRoom (h : table.Sound) (inst : EncoderInstruction) :
    Conforms max table inst ↔ HasRoom table inst := by
  constructor
  · intro hc f v hent
    have hqueue := hc f v hent
    rw [apply_of_entry hent] at hqueue
    simp only [rfcInsert] at hqueue
    split at hqueue
    · cases hqueue
    · rename_i hfits
      have hkeep : table.queue = _ := append_cancel_right (ok.inj hqueue)
      have hsize := keep_size
        (table.capacity - (f.len + v.length + 32)) table.queue
      rw [← hkeep, ← h.used] at hsize
      omega
  · intro hroom f v hent
    have hfits := hroom f v hent
    have hle : ¬ f.len + v.length + 32 > table.capacity := by omega
    have hkeep : keep (table.capacity - (f.len + v.length + 32)) table.queue =
        table.queue := keep_of_le (by rw [← h.used]; omega)
    rw [apply_of_entry hent]
    simp only [rfcInsert, if_neg hle, hkeep]
    rfl

end Updater

/-! ### Runs -/

namespace QpackDecoder

variable {max maxBlocked maxCapacity : ℕ} {table : DynamicTable} {d : QpackDecoder}
  {inst : EncoderInstruction}

/-- The entries are those counted, and within the capacity, which is within the maximum. -/
structure Bounded (d : QpackDecoder) : Prop where
  used : d.table.usedCap = fieldsSize d.table.queue
  within : d.table.usedCap ≤ d.table.capacity
  capacity_le : d.table.capacity ≤ d.maxTableCapacity

/-- Every entry that the call inserts has room as the table stands. -/
def Roomy (d : QpackDecoder) (c : Call) : Prop :=
  ∀ table inst, d.Gives c table inst → Updater.HasRoom table inst

/-- The invariant of a table whose insertions all have room. -/
structure Within (max : ℕ) (table : DynamicTable) : Prop where
  sound : table.Sound
  within : table.usedCap ≤ table.capacity
  capacity_le : table.capacity ≤ max

theorem Sound.absorb (h : table.Sound) (inst : EncoderInstruction) :
    (absorb max table inst).1.Sound := by
  rw [QpackDecoder.absorb]
  split
  · rename_i table' happly
    obtain ⟨capacity, -, rfl, hsize⟩ | ⟨f, v, hent, rfl⟩ := Updater.apply_cases happly
    · rw [h.updateSize] at hsize
      cases hsize
      exact h.resized capacity
    · exact h.update f v
  · exact h

theorem Gives.sound {c : Call} (h : d.Gives c table inst) (hd : d.table.Sound) : table.Sound := by
  cases c with
  | decodeIns buf =>
    exact Meets.invariant (P := DynamicTable.Sound) (fun t i ht => Sound.absorb ht i) h hd
  | decodeRepr buf streamId => exact h.elim
  | finish streamId => exact h.elim
  | streamCancel streamId room => exact h.elim
  | finishStream id => exact h.elim
  | setMaxFieldSectionSize size => exact h.elim

theorem Within.absorb (h : Within max table) (hroom : Updater.HasRoom table inst) :
    Within max (absorb max table inst).1 := by
  rw [QpackDecoder.absorb]
  split
  · rename_i table' happly
    obtain ⟨capacity, hmax, rfl, hsize⟩ | ⟨f, v, hent, rfl⟩ := Updater.apply_cases happly
    · rw [h.sound.updateSize] at hsize
      cases hsize
      exact ⟨h.sound.resized capacity, keep_size capacity table.queue, hmax⟩
    · refine ⟨h.sound.update f v, ?_, h.capacity_le⟩
      have hfits := hroom f v hent
      simpa [update, DynamicField.size] using hfits
  · exact h

theorem Reached.maxTableCapacity {permits : QpackDecoder → Call → Prop}
    (h : Reached permits maxBlocked maxCapacity d) : d.maxTableCapacity = maxCapacity := by
  induction h with
  | new => rfl
  | call c _ _ ih => rw [call_maxTableCapacity, ih]

theorem Reached.within (h : Reached Roomy maxBlocked maxCapacity d) :
    Within maxCapacity d.table := by
  induction h with
  | new => exact ⟨.withEmpty, Nat.zero_le _, Nat.zero_le _⟩
  | call c reached permitted ih =>
    refine call_invariant _ c ih ?_
    intro table inst hgives htable
    rw [reached.maxTableCapacity]
    exact htable.absorb (permitted table inst hgives)

/-- In every run of the decoder whose insertions all find room, the table is bounded, and
the next call inserts as the RFC has it exactly if its insertions find room. -/
theorem decoder_table_bounded {maxBlocked maxCapacity : ℕ} {d : QpackDecoder}
    (h : Reached Roomy maxBlocked maxCapacity d) :
    d.Bounded ∧ ∀ c : Call,
      (∀ table inst, d.Gives c table inst → Updater.Conforms maxCapacity table inst) ↔
        d.Roomy c := by
  have hwithin := h.within
  refine ⟨⟨hwithin.sound.used, hwithin.within, ?_⟩, ?_⟩
  · rw [h.maxTableCapacity]
    exact hwithin.capacity_le
  · intro c
    constructor
    · intro hc table inst hgives
      exact (Updater.conforms_iff_hasRoom (hgives.sound hwithin.sound) inst).mp
        (hc table inst hgives)
    · intro hc table inst hgives
      exact (Updater.conforms_iff_hasRoom (hgives.sound hwithin.sound) inst).mpr
        (hc table inst hgives)

/-- The capacity is set to 40 and the field `a` without a value is inserted. -/
theorem decoder_table_bounded_one_field :
    ((QpackDecoder.new 0 100).call (.decodeIns [0x3f, 0x09, 0x41, 0x61, 0x00])).1.Bounded ∧
      ((QpackDecoder.new 0 100).call
        (.decodeIns [0x3f, 0x09, 0x41, 0x61, 0x00])).1.table.usedCap = 33 := by
  have hroomy : Roomy (.new 0 100) (.decodeIns [0x3f, 0x09, 0x41, 0x61, 0x00]) := by
    have hfirst : instStart.decode [0x3f, 0x09, 0x41, 0x61, 0x00] =
        (.decoded (.setCap 40), [0x41, 0x61, 0x00]) := by decide
    have hsec : instStart.decode [0x41, 0x61, 0x00] =
        (.decoded (.insertWithLiteral ⟨none, none, some false⟩ (.literal [0x61]) []), []) := by
      decide
    intro table inst hgives
    rcases (meets_iff (by simp) hfirst).mp hgives with ⟨rfl, rfl⟩ | ⟨table₁, habsorb, hgives⟩
    · intro f v h
      cases h
    · obtain rfl := (Prod.mk.inj habsorb).1
      rcases (meets_iff (by simp) hsec).mp hgives with ⟨rfl, rfl⟩ | ⟨table₂, -, hgives⟩
      · intro f v h
        obtain ⟨rfl, rfl⟩ : NameField.other [0x61] = f ∧ [] = v := Prod.mk.inj (Option.some.inj h)
        decide
      · exact absurd hgives (meets_nil _ _ _ _)
  exact ⟨(decoder_table_bounded (.call _ .new hroomy)).1, by decide⟩

/-- An entry that is larger than the capacity is inserted. -/
theorem decoder_table_overfull :
    ∃ d, Reached (fun _ _ => True) 0 100 d ∧ ¬ d.Bounded ∧ d.table.capacity = 30 ∧
      d.table.usedCap = 33 := by
  refine ⟨_, .call (.decodeIns [0x3e, 0x41, 0x61, 0x00]) .new trivial, ?_, by decide, by decide⟩
  intro h
  exact absurd h.within (by decide)

end QpackDecoder

end YlongHttp.Qpack
