import YlongHttp.Verification.Qpack.EvictionSafety
import YlongHttp.Verification.Qpack.Octets

/-! # Octets of the peer that make QPACK panic

The decoder subtracts the indices it reads from its counters without looking first, and
`Parts::update` unwraps what `Headers` answers; the encoder asserts that an increment is in
range, and lets every other instruction pass. Both are safe from the peer just where the
peer refers to what is there. -/

namespace YlongHttp.Qpack

open Option EncoderInstruction Except
open Library

/-! ### Faults -/

section Faults

variable {α β : Type} {e : QpackError}

variable (x : Except (Fault QpackError) α)

theorem bind_eq_panic (f : α → Except (Fault QpackError) β) :
    (x >>= f) = .error .panic ↔ x = .error .panic ∨ ∃ a, x = .ok a ∧ f a = .error .panic := by
  cases x with
  | error fault | ok a => simp [bind, Except.bind]

theorem map_eq_panic (f : α → β) : x.map f = .error .panic ↔ x = .error .panic := by
  cases x with
  | error fault => simp [Except.map]
  | ok a => simp [Except.map]

theorem fmap_eq_panic (f : α → β) : f <$> x = .error .panic ↔ x = .error .panic :=
  map_eq_panic x f

theorem pure_ne_panic (a : α) : (pure a : Except (Fault QpackError) α) ≠ .error .panic := by
  simp [pure, Except.pure]

variable (o : Option α)

theorem orPanic_eq_panic : orPanic o = .error .panic ↔ o = none := by
  cases o <;> simp [orPanic]

theorem orPanic_eq_ok (a : α) : orPanic o = .ok a ↔ o = some a := by
  cases o <;> simp [orPanic]

theorem okOr_ne_panic : okOr e o ≠ .error .panic := by cases o <;> simp [okOr]

theorem okOr_eq_ok (a : α) : okOr e o = .ok a ↔ o = some a := by
  cases o <;> simp [okOr]

end Faults

theorem checkedSub_eq_none {a b : ℕ} : checkedSub a b = none ↔ a < b := by simp [checkedSub]

variable (table : DynamicTable)

theorem DynamicTable.field_eq_none (i : ℕ) : table.field i = none ↔ i < table.removeCount := by
  simp [DynamicTable.field, checkedSub_eq_none]

theorem DynamicTable.fieldName_eq_none (i : ℕ) :
    table.fieldName i = none ↔ i < table.removeCount := by
  simp [DynamicTable.fieldName, DynamicTable.field_eq_none]

/-! ### Instructions of the encoder -/

/-- The entry that an instruction refers to, counted back from the newest one. -/
def EncoderInstruction.refersTo : EncoderInstruction → Option ℕ
  | .setCap _ => none
  | .insertWithIndex midBit (.index index) _ => if midBit.t = some true then none else some index
  | .insertWithIndex _ (.literal _) _ => none
  | .insertWithLiteral midBit (.index index) _ => if midBit.t = some true then none else some index
  | .insertWithLiteral _ (.literal _) _ => none
  | .duplicate index => some index

def EncoderInstruction.InTable (inst : EncoderInstruction) : Prop :=
  ∀ index, inst.refersTo = some index → index + table.removeCount < table.insertCount

namespace Updater

theorem relative_panics (index : ℕ) {α : Type} (look : ℕ → Option α)
    (hlook : ∀ i, look i = none ↔ i < table.removeCount) :
    (checkedSub table.insertCount (index + 1) = none ∨
      ∃ i, checkedSub table.insertCount (index + 1) = some i ∧ look i = none) ↔
      ¬ index + table.removeCount < table.insertCount := by
  simp only [hlook, checkedSub_eq_none]
  by_cases hle : index + 1 ≤ table.insertCount
  · simp only [checkedSub_of_le hle, some.injEq, exists_eq_left']
    omega
  · simp only [checkedSub, hle, if_false, reduceCtorEq, false_and, exists_false, or_false]
    omega

theorem getFieldByNameAndValue_panics (midBit : MidBit) (name : Name) (value : Bytes) :
    getFieldByNameAndValue table midBit name value = .error .panic ↔
      ¬ (insertWithIndex midBit name value).InTable table := by
  cases name with
  | literal octets =>
    simp [getFieldByNameAndValue, InTable, refersTo,
      bind_eq_panic, map_eq_panic, fmap_eq_panic, okOr_ne_panic]
  | index index =>
    by_cases ht : midBit.t = some true
    · simp [getFieldByNameAndValue, InTable, refersTo, ht,
        bind_eq_panic, fmap_eq_panic, okOr_ne_panic]
    · have hrelative := relative_panics table index table.fieldName table.fieldName_eq_none
      simp only [getFieldByNameAndValue, InTable,
        refersTo, ht, if_false, bind_eq_panic, orPanic_eq_panic, orPanic_eq_ok,
        okOr_ne_panic, pure_ne_panic, and_false, exists_false, or_false, some.injEq, forall_eq']
      exact hrelative

theorem updateTable_panics (midBit : MidBit) (name : Name) (value : Bytes) :
    updateTable table midBit name value = .error .panic ↔
      ¬ (insertWithIndex midBit name value).InTable table := by
  rw [← getFieldByNameAndValue_panics]
  simp [updateTable, fmap_eq_panic]

theorem duplicate_panics (index : ℕ) :
    duplicate table index = .error .panic ↔
      ¬ (EncoderInstruction.duplicate index).InTable table := by
  have hrelative := relative_panics table index table.field table.field_eq_none
  simp only [duplicate, InTable, refersTo, bind_eq_panic,
    orPanic_eq_panic, orPanic_eq_ok, okOr_ne_panic, pure_ne_panic, and_false, exists_false,
    or_false, some.injEq, forall_eq']
  exact hrelative

theorem apply_panics {max : ℕ} {table : DynamicTable} (h : table.Sound)
    (inst : EncoderInstruction) :
    apply max table inst = .error .panic ↔ ¬ inst.InTable table := by
  cases inst with
  | setCap capacity =>
    rw [apply, h.updateSize]
    split <;> simp [orPanic, InTable, refersTo]
  | insertWithIndex midBit name value => exact updateTable_panics table midBit name value
  | insertWithLiteral midBit name value =>
    have hsame : (EncoderInstruction.insertWithLiteral midBit name value).InTable table ↔
        (insertWithIndex midBit name value).InTable table := by
      cases name <;> rfl
    rw [hsame]
    exact updateTable_panics table midBit name value
  | duplicate index => exact duplicate_panics table index

end Updater

/-! ### Field lines -/

/-- The absolute index of the entry that a line refers to, if it refers to one; the inner
`none` is an underflow or an overflow. -/
def Representation.entryIndex (base : ℕ) : Representation → Option (Option ℕ)
  | .fieldSectionPrefix _ _ _ => none
  | .indexed midBit index =>
    if midBit.t = some true then none else some (checkedSub base (index + 1))
  | .indexedWithPostIndex index => some (checkedAdd base index)
  | .literalWithIndexing midBit (.index index) _ =>
    if midBit.t = some true then none else some (checkedSub base (index + 1))
  | .literalWithPostIndexing _ (.index index) _ => some (checkedAdd base index)
  | .literalWithLiteralName _ (.index index) _ => some (checkedAdd base index)
  | .literalWithIndexing _ (.literal _) _ => none
  | .literalWithPostIndexing _ (.literal _) _ => none
  | .literalWithLiteralName _ (.literal _) _ => none

/-- `Headers` takes the field, or it is a pseudo header. -/
def NameField.Accepts (value : Bytes) : NameField → Prop
  | .other name => (HeaderName.fromBytes name).isSome ∧ (HeaderValue.fromBytes value).isSome
  | _ => True

theorem updateParts_eq_none (parts : Parts) (name : NameField) (value : Bytes) :
    updateParts parts name value = none ↔ ¬ name.Accepts value := by
  cases name with
  | other header =>
    simp only [updateParts, Headers.append, NameField.Accepts, map_eq_none_iff]
    cases HeaderName.fromBytes header with
    | none => simp
    | some name => cases HeaderValue.fromBytes value <;> simp
  | _ => simp [updateParts, NameField.Accepts]

namespace Searcher

variable (s : Searcher)

/-- The field that a line stands for, once its entry was found. -/
def lineField : Representation → Option (NameField × Bytes)
  | .fieldSectionPrefix _ _ _ => none
  | .indexed midBit index =>
    if midBit.t = some true then staticField index
    else (checkedSub s.base (index + 1)).bind fun i => (s.table.field i).join
  | .indexedWithPostIndex index => (checkedAdd s.base index).bind fun i => (s.table.field i).join
  | .literalWithIndexing midBit name value =>
    (s.getFieldByNameAndValue midBit name value .literalWithIndexing).toOption
  | .literalWithPostIndexing midBit name value =>
    (s.getFieldByNameAndValue midBit name value .literalWithPostIndexing).toOption
  | .literalWithLiteralName midBit name value =>
    (s.getFieldByNameAndValue midBit name value .literalWithLiteralName).toOption

def Within (f : NameField) (v : Bytes) : Representation → Prop
  | .indexed _ _ => True
  | _ => s.headerSize + (f.len + v.length + 32) ≤ s.maxFieldSectionSize

/-- The entry that the line refers to was not removed, and `Headers` takes its field. -/
structure Harmless (s : Searcher) (repr : Representation) : Prop where
  entry : ∀ found, repr.entryIndex s.base = some found →
    ∃ index, found = some index ∧ s.table.removeCount ≤ index
  accepted : ∀ f v, s.lineField repr = some (f, v) → s.Within f v repr → f.Accepts v

theorem addLine_panics (f : NameField) (v : Bytes) :
    s.addLine f v = .error .panic ↔ ¬ f.Accepts v := by
  simp [addLine, fmap_eq_panic, orPanic_eq_panic, updateParts_eq_none]

theorem counted_panics (f : NameField) (v : Bytes) :
    (s.checkFieldListSize f v >>= fun s => s.addLine f v) = .error .panic ↔
      s.headerSize + (f.len + v.length + 32) ≤ s.maxFieldSectionSize ∧ ¬ f.Accepts v := by
  rw [bind_eq_panic]
  simp only [addLine_panics, checkFieldListSize]
  by_cases hle : s.headerSize + (f.len + v.length + 32) ≤ s.maxFieldSectionSize
  · simp [hle, Nat.not_lt.mpr hle]
  · simp [hle, Nat.lt_of_not_le hle]

theorem lookup_panics {α : Type} (found : Option ℕ) (look : ℕ → Option α)
    (hlook : ∀ i, look i = none ↔ i < s.table.removeCount) :
    (found = none ∨ ∃ i, found = some i ∧ look i = none) ↔
      ¬ ∃ i, found = some i ∧ s.table.removeCount ≤ i := by
  cases found with
  | none => simp
  | some i => simp [hlook]

theorem harmless_iff (repr : Representation) :
    ¬ s.Harmless repr ↔
      (∃ found, repr.entryIndex s.base = some found ∧
        ¬ ∃ index, found = some index ∧ s.table.removeCount ≤ index) ∨
      ∃ f v, s.lineField repr = some (f, v) ∧ s.Within f v repr ∧ ¬ f.Accepts v := by
  constructor
  · intro hharm
    by_contra hnot
    push Not at hnot
    refine hharm ⟨?_, ?_⟩
    · intro found hfound
      exact hnot.1 found hfound
    · intro f v hline hwithin
      exact hnot.2 f v hline hwithin
  · rintro (⟨found, hfound, hnone⟩ | ⟨f, v, hline, hwithin, hnot⟩) hharmless
    · exact hnone (hharmless.entry found hfound)
    · exact hnot (hharmless.accepted f v hline hwithin)

theorem searchIndexed_panics (midBit : MidBit) (index : ℕ) :
    s.searchIndexed midBit index = .error .panic ↔ ¬ s.Harmless (.indexed midBit index) := by
  rw [harmless_iff]
  by_cases ht : midBit.t = some true
  · simp only [searchIndexed, ht, if_true, bind_eq_panic, okOr_ne_panic, okOr_eq_ok, false_or,
      addLine_panics, Representation.entryIndex, lineField, Within, true_and, reduceCtorEq,
      false_and, exists_false, Prod.exists]
  · have hlook := s.lookup_panics (checkedSub s.base (index + 1)) s.table.field
      s.table.field_eq_none
    simp only [searchIndexed, ht, if_false, bind_eq_panic, relative, orPanic_eq_panic,
      orPanic_eq_ok, okOr_ne_panic, okOr_eq_ok, false_or, addLine_panics,
      Representation.entryIndex, lineField, Within, true_and, some.injEq, exists_eq_left',
      Prod.exists]
    rw [← hlook]
    cases checkedSub s.base (index + 1) with
    | none => simp
    | some i =>
      simp only [reduceCtorEq, some.injEq, exists_eq_left', false_or, bind_some]
      cases s.table.field i with
      | none => simp
      | some found => simp

theorem searchPostIndexed_panics (index : ℕ) :
    s.searchPostIndexed index = .error .panic ↔ ¬ s.Harmless (.indexedWithPostIndex index) := by
  rw [harmless_iff]
  have hlook := s.lookup_panics (checkedAdd s.base index) s.table.field s.table.field_eq_none
  simp only [searchPostIndexed, ↓counted_panics, bind_eq_panic, postBase, orPanic_eq_panic,
    orPanic_eq_ok, okOr_ne_panic, okOr_eq_ok, false_or, Representation.entryIndex, lineField,
    Within, some.injEq, exists_eq_left', Prod.exists]
  rw [← hlook]
  cases checkedAdd s.base index with
  | none => simp
  | some i =>
    simp only [reduceCtorEq, some.injEq, exists_eq_left', false_or, bind_some]
    cases s.table.field i with
    | none => simp
    | some found => simp

theorem searchLiteral_panics_iff (midBit : MidBit) (name : Name) (value : Bytes)
    (repr : ReprPrefixBit) :
    s.searchLiteral midBit name value repr = .error .panic ↔
      s.getFieldByNameAndValue midBit name value repr = .error .panic ∨
        ∃ f v, (s.getFieldByNameAndValue midBit name value repr).toOption = some (f, v) ∧
          s.headerSize + (f.len + v.length + 32) ≤ s.maxFieldSectionSize ∧ ¬ f.Accepts v := by
  simp only [searchLiteral, ↓counted_panics, bind_eq_panic, Prod.exists]
  cases s.getFieldByNameAndValue midBit name value repr with
  | error fault | ok field => simp [Except.toOption]

theorem getFieldByNameAndValue_panics (midBit : MidBit) (name : Name) (value : Bytes)
    (repr : ReprPrefixBit) (line : Representation)
    (hliteral : ∀ octets, name = .literal octets → line.entryIndex s.base = none)
    (hidx : ∀ index, name = .index index → line.entryIndex s.base =
      if repr = .literalWithIndexing then
        if midBit.t = some true then none else some (checkedSub s.base (index + 1))
      else some (checkedAdd s.base index)) :
    s.getFieldByNameAndValue midBit name value repr = .error .panic ↔
      ∃ found, line.entryIndex s.base = some found ∧
        ¬ ∃ index, found = some index ∧ s.table.removeCount ≤ index := by
  cases name with
  | literal octets =>
    simp [getFieldByNameAndValue, hliteral octets rfl, bind_eq_panic, map_eq_panic,
      fmap_eq_panic, okOr_ne_panic]
  | index index =>
    rw [hidx index rfl]
    by_cases hrepr : repr = .literalWithIndexing
    · by_cases ht : midBit.t = some true
      · simp [getFieldByNameAndValue, hrepr, ht, bind_eq_panic, fmap_eq_panic, okOr_ne_panic]
      · have hlook := s.lookup_panics (checkedSub s.base (index + 1)) s.table.fieldName
          s.table.fieldName_eq_none
        simp only [getFieldByNameAndValue, hrepr, ht, if_true, if_false, bind_eq_panic, relative,
          orPanic_eq_panic, orPanic_eq_ok, okOr_ne_panic, pure_ne_panic, and_false, exists_false,
          or_false, some.injEq, exists_eq_left']
        exact hlook
    · have hlook := s.lookup_panics (checkedAdd s.base index) s.table.fieldName
        s.table.fieldName_eq_none
      simp only [getFieldByNameAndValue, hrepr, if_false, bind_eq_panic, postBase,
        orPanic_eq_panic, orPanic_eq_ok, okOr_ne_panic, pure_ne_panic, and_false, exists_false,
        or_false, some.injEq, exists_eq_left']
      exact hlook

theorem searchLiteral_panics (midBit : MidBit) (name : Name) (value : Bytes) (repr : ReprPrefixBit)
    (line : Representation)
    (hliteral : ∀ octets, name = .literal octets → line.entryIndex s.base = none)
    (hidx : ∀ index, name = .index index → line.entryIndex s.base =
      if repr = .literalWithIndexing then
        if midBit.t = some true then none else some (checkedSub s.base (index + 1))
      else some (checkedAdd s.base index))
    (hfld : s.lineField line = (s.getFieldByNameAndValue midBit name value repr).toOption)
    (hwithin : ∀ f v, s.Within f v line ↔ s.headerSize + (f.len + v.length + 32) ≤ s.maxFieldSectionSize) :
    s.searchLiteral midBit name value repr = .error .panic ↔ ¬ s.Harmless line := by
  rw [harmless_iff, searchLiteral_panics_iff,
    s.getFieldByNameAndValue_panics midBit name value repr line hliteral hidx, hfld]
  simp only [hwithin]

end Searcher

namespace QpackDecoder

variable {d : QpackDecoder}

def searcher (d : QpackDecoder) (message : ReprMessage) (base : ℕ) : Searcher where
  maxFieldSectionSize := d.maxFieldSectionSize
  table := d.table
  parts := message.parts
  headerSize := message.headerSize
  base := base

def BaseInRange : Representation → Prop
  | .fieldSectionPrefix ric signal deltaBase =>
    ∀ count, requiredInsertCount table ric = .ok count →
      if signal then deltaBase < count else count + deltaBase < usizeBound
  | _ => True

def Harmless (d : QpackDecoder) (message : ReprMessage) (base : ℕ) (repr : Representation) : Prop :=
  BaseInRange d.table repr ∧ (d.searcher message base).Harmless repr

theorem requiredInsertCount_ne_panic (ric : ℕ) : requiredInsertCount table ric ≠ .error .panic := by
  rw [requiredInsertCount]
  split
  · simp
  · simp only
    split
    · simp
    · split
      · split
        · simp
        · split <;> simp
      · split <;> simp

theorem sectionBase_eq_none (count : ℕ) (signal : Bool) (deltaBase : ℕ) :
    sectionBase count signal deltaBase = none ↔
      ¬ if signal then deltaBase < count else count + deltaBase < usizeBound := by
  cases signal with
  | false => simp [sectionBase, checkedAdd]
  | true =>
    simp only [sectionBase, if_true, checkedSub_eq_none]
    omega

theorem handle_panics (d : QpackDecoder) (message : ReprMessage) (base : ℕ) (rest : Bytes)
    (repr : Representation) :
    handle d message base rest repr = .error .panic ↔ ¬ d.Harmless message base repr := by
  cases repr with
  | fieldSectionPrefix ric signal deltaBase =>
    have hsearch : (d.searcher message base).Harmless
        (.fieldSectionPrefix ric signal deltaBase) := by
      constructor
      · intro found hfound
        cases hfound
      · intro f v hline
        cases hline
    simp only [Harmless, BaseInRange, hsearch, and_true, not_forall, exists_prop]
    cases hcnt : requiredInsertCount d.table ric with
    | error fault =>
      have hne := requiredInsertCount_ne_panic d.table ric
      rw [hcnt] at hne
      simpa [handle, hcnt, bind, Except.bind] using hne
    | ok count =>
      simp only [ok.injEq, exists_eq_left', ← sectionBase_eq_none]
      cases hbase : sectionBase count signal deltaBase with
      | none => simp [handle, hcnt, hbase, orPanic, bind, Except.bind]
      | some base' =>
        simp only [handle, hcnt, hbase, orPanic, bind, Except.bind, reduceCtorEq, iff_false]
        split
        · split
          · simp
          · exact pure_ne_panic _
        · exact pure_ne_panic _
  | indexed midBit index =>
    simp only [handle, bind_eq_panic, pure_ne_panic, and_false, exists_false, or_false, Harmless,
      BaseInRange, true_and]
    exact (d.searcher message base).searchIndexed_panics midBit index
  | indexedWithPostIndex index =>
    simp only [handle, bind_eq_panic, pure_ne_panic, and_false, exists_false, or_false, Harmless,
      BaseInRange, true_and]
    exact (d.searcher message base).searchPostIndexed_panics index
  | literalWithIndexing midBit name value =>
    simp only [handle, bind_eq_panic, pure_ne_panic, and_false, exists_false, or_false, Harmless,
      BaseInRange, true_and]
    refine (d.searcher message base).searchLiteral_panics midBit name value .literalWithIndexing
      (.literalWithIndexing midBit name value) ?_ ?_ rfl (fun _ _ => .rfl)
    · rintro octets rfl
      rfl
    · rintro index rfl
      rfl
  | literalWithPostIndexing midBit name value =>
    simp only [handle, bind_eq_panic, pure_ne_panic, and_false, exists_false, or_false, Harmless,
      BaseInRange, true_and]
    refine (d.searcher message base).searchLiteral_panics midBit name value
      .literalWithPostIndexing (.literalWithPostIndexing midBit name value) ?_ ?_ rfl
      (fun _ _ => .rfl)
    · rintro octets rfl
      rfl
    · rintro index rfl
      rfl
  | literalWithLiteralName midBit name value =>
    simp only [handle, bind_eq_panic, pure_ne_panic, and_false, exists_false, or_false, Harmless,
      BaseInRange, true_and]
    refine (d.searcher message base).searchLiteral_panics midBit name value
      .literalWithLiteralName (.literalWithLiteralName midBit name value) ?_ ?_ rfl
      (fun _ _ => .rfl)
    · rintro octets rfl
      rfl
    · rintro index rfl
      rfl

def afterRepr (message : ReprMessage) (rest : Bytes) : ReprMessage :=
  { message with reprState := if rest = [] then none else some (.reprIndex .firstByte) }

/-- The loop over a buffer comes to a representation, with this message and base. -/
inductive Handles (d : QpackDecoder) :
    ReprMessage → ℕ → Bytes → ReprMessage → ℕ → Representation → Prop
  | here {message : ReprMessage} {base : ℕ} {buf rest : Bytes} {repr : Representation}
      (nonempty : buf ≠ [])
      (decoded : (message.reprState.getD .filedSectionPrefix).decode buf = (.decoded repr, rest)) :
      Handles d message base buf (afterRepr message rest) base repr
  | later {message message' message'' : ReprMessage} {base base' base'' : ℕ} {buf rest : Bytes}
      {repr repr' : Representation} (nonempty : buf ≠ [])
      (decoded : (message.reprState.getD .filedSectionPrefix).decode buf = (.decoded repr, rest))
      (handled : handle d (afterRepr message rest) base rest repr = .ok (message', base', .decoded))
      (handles : Handles d message' base' rest message'' base'' repr') :
      Handles d message base buf message'' base'' repr'

theorem Handles.decoded' {message message' : ReprMessage} {base base' : ℕ} {buf : Bytes}
    {repr : Representation} (h : Handles d message base buf message' base' repr) :
    buf ≠ [] ∧ ∃ repr rest,
      (message.reprState.getD .filedSectionPrefix).decode buf = (.decoded repr, rest) := by
  cases h with
  | here nonempty decoded | later nonempty decoded handled handles =>
    exact ⟨nonempty, _, _, decoded⟩

theorem decodeReprLoop_panics (d : QpackDecoder) (fuel : ℕ) (message : ReprMessage) (base : ℕ)
    (buf : Bytes) (hfuel : buf.length ≤ fuel) :
    decodeReprLoop d fuel message base buf = .error .panic ↔
      ∃ message' base' repr, Handles d message base buf message' base' repr ∧
        ¬ d.Harmless message' base' repr := by
  induction fuel generalizing message base buf with
  | zero =>
    obtain rfl : buf = [] := by simpa using hfuel
    simp only [decodeReprLoop, reduceCtorEq, false_iff, not_exists, not_and]
    intro _ _ _ hhandles
    exact absurd rfl hhandles.decoded'.1
  | succ fuel ih =>
    by_cases hbuf : buf = []
    · simp only [decodeReprLoop, hbuf, if_true, reduceCtorEq, false_iff, not_exists, not_and]
      intro _ _ _ hhandles
      exact absurd rfl hhandles.decoded'.1
    · simp only [decodeReprLoop, hbuf, if_false]
      rcases hdec : (message.reprState.getD .filedSectionPrefix).decode buf with
        ⟨repr | state | e, rest⟩
      · have htakes := reprDecodeState_consumes _ _ _ _ hdec
        simp only
        constructor
        · intro hloop
          split at hloop
          · rename_i fault hhandle
            obtain rfl := error.inj hloop
            exact ⟨_, base, repr, .here hbuf hdec, (handle_panics d _ base rest repr).mp hhandle⟩
          · cases hloop
          · rename_i message₁ base₁ hhandle
            obtain ⟨message', base', repr', hhandles, hharm⟩ :=
              (ih message₁ base₁ rest (by omega)).mp hloop
            exact ⟨message', base', repr', .later hbuf hdec hhandle hhandles, hharm⟩
        · rintro ⟨message', base', repr', hhandles, hharm⟩
          cases hhandles with
          | here nonempty decoded =>
            rw [hdec] at decoded
            obtain ⟨hrepr, rfl⟩ := Prod.mk.inj decoded
            obtain rfl := DecResult.decoded.inj hrepr
            have hhandle := (handle_panics d _ base rest repr).mpr hharm
            rw [afterRepr] at hhandle
            rw [hhandle]
          | later nonempty decoded handled handles =>
            rw [hdec] at decoded
            obtain ⟨hrepr, rfl⟩ := Prod.mk.inj decoded
            obtain rfl := DecResult.decoded.inj hrepr
            rw [afterRepr] at handled
            rw [handled]
            exact (ih _ _ rest (by omega)).mpr ⟨message', base', repr', handles, hharm⟩
      · simp only [reduceCtorEq, false_iff, not_exists, not_and]
        intro _ _ _ hhandles
        obtain ⟨-, repr, rest', hdecd⟩ := hhandles.decoded'
        rw [hdec] at hdecd
        cases hdecd
      · simp only [error.injEq, reduceCtorEq, false_iff, not_exists, not_and]
        intro _ _ _ hhandles
        obtain ⟨-, repr, rest', hdecd⟩ := hhandles.decoded'
        rw [hdec] at hdecd
        cases hdecd

def HarmlessBuffer (d : QpackDecoder) (message : ReprMessage) (buf : Bytes) : Prop :=
  ∀ message' base' repr, Handles d message 0 buf message' base' repr →
    d.Harmless message' base' repr

theorem decodeBufferedRepr_panics (d : QpackDecoder) (buf : Bytes) (message : ReprMessage)
    (streamId : ℕ) :
    (d.decodeBufferedRepr buf message streamId).2 = .error .panic ↔
      ¬ d.HarmlessBuffer message buf := by
  have hloop := decodeReprLoop_panics d buf.length message 0 buf le_rfl
  have hcond : ¬ d.HarmlessBuffer message buf ↔
      decodeReprLoop d buf.length message 0 buf = .error .panic := by
    rw [hloop]
    simp only [HarmlessBuffer, not_forall, exists_prop]
  rw [hcond, decodeBufferedRepr]
  split <;> rename_i heq <;> simp [heq]

/-- What a blocked stream had left is harmless, and so is the new buffer after it. -/
def HarmlessSection (d : QpackDecoder) (buf : Bytes) (streamId : ℕ) : Prop :=
  let d' := { d with streams := d.streams.erase streamId }
  let message := (d.streams.lookup streamId).getD .new
  (∀ vec, message.remaining = some vec → d'.HarmlessBuffer { message with remaining := none } vec) ∧
  ∀ d₁ message₁, d'.decodeRemaining message streamId = (d₁, .ok message₁) →
    d₁.HarmlessBuffer message₁ buf

theorem decodeRemaining_panics (d : QpackDecoder) (message : ReprMessage) (streamId : ℕ) :
    (d.decodeRemaining message streamId).2 = .error .panic ↔
      ¬ ∀ vec, message.remaining = some vec →
        d.HarmlessBuffer { message with remaining := none } vec := by
  rw [decodeRemaining]
  cases message.remaining with
  | none => simp
  | some vec =>
    simp only [some.injEq, forall_eq']
    rw [← decodeBufferedRepr_panics d vec _ streamId]
    split <;> rename_i heq <;> simp [heq]

theorem decodeRepr_panics (d : QpackDecoder) (buf : Bytes) (streamId : ℕ) :
    (d.decodeRepr buf streamId).2 = .error .panic ↔
      streamId ∉ d.blocked ∧ ¬ d.HarmlessSection buf streamId := by
  rw [decodeRepr]
  split
  · rename_i hblocked
    simp [hblocked]
  · rename_i hblocked
    have hrem := decodeRemaining_panics { d with streams := d.streams.erase streamId }
      ((d.streams.lookup streamId).getD .new) streamId
    simp only [hblocked, not_false_eq_true, true_and, HarmlessSection, not_and_or, ← hrem]
    rcases hres : decodeRemaining { d with streams := d.streams.erase streamId }
      ((d.streams.lookup streamId).getD .new) streamId with ⟨d₁, fault | message₁⟩
    · simp
    · have hbuffer := decodeBufferedRepr_panics d₁ buf message₁ streamId
      simp only [reduceCtorEq, false_or, Prod.mk.injEq, ok.injEq, not_forall, exists_prop]
      constructor
      · intro hpanic
        refine ⟨d₁, message₁, ⟨rfl, rfl⟩, hbuffer.mp ?_⟩
        split at hpanic <;> rename_i heq
        · rw [heq]
          exact congrArg error (error.inj hpanic)
        · cases hpanic
      · rintro ⟨_, _, ⟨rfl, rfl⟩, hharm⟩
        have hpanic := hbuffer.mpr hharm
        split <;> rename_i heq <;> rw [heq] at hpanic
        · exact congrArg error (error.inj hpanic)
        · cases hpanic

/-- Every reference to the dynamic table that the call meets names an entry that is there. -/
def HarmlessCall (d : QpackDecoder) : Call → Prop
  | .decodeIns buf => ∀ table inst, d.Gives (.decodeIns buf) table inst → inst.InTable table
  | .decodeRepr buf streamId => streamId ∉ d.blocked → d.HarmlessSection buf streamId
  | _ => True

theorem absorb_panics (max : ℕ) (table : DynamicTable) (inst : EncoderInstruction) :
    (absorb max table inst).2 = .error .panic ↔ Updater.apply max table inst = .error .panic := by
  rw [absorb]
  split <;> rename_i heq <;> simp [heq]

theorem decodeIns_panics (h : d.table.Sound) (buf : Bytes) :
    (d.decodeIns buf).2 = .error .panic ↔
      ¬ ∀ table inst, d.Gives (.decodeIns buf) table inst → inst.InTable table := by
  have hdrive := @drive_error_iff _ _ _ _ _ _ _ instStart Fault.error
    (absorb d.maxTableCapacity) instDecodeState_consumes Fault.panic (fun _ => by simp) buf.length
    d.table d.instState buf le_rfl
  rw [← decodeInsLoop_eq_drive] at hdrive
  have hpanic : (d.decodeIns buf).2 = .error .panic ↔
      (decodeInsLoop d.maxTableCapacity buf.length d.table d.instState buf).2.2 =
        .error .panic := by
    rw [decodeIns]
    split <;> rename_i heq <;> simp [heq]
  rw [hpanic, hdrive]
  simp only [not_forall, exists_prop]
  constructor
  · rintro ⟨table, inst, hmeets, hfault⟩
    have hgives : d.Gives (.decodeIns buf) table inst := hmeets
    refine ⟨table, inst, hgives, ?_⟩
    intro hin
    exact (Updater.apply_panics (hgives.sound h) inst).mp ((absorb_panics _ _ _).mp hfault) hin
  · rintro ⟨table, inst, hgives, hout⟩
    refine ⟨table, inst, hgives, (absorb_panics _ _ _).mpr ?_⟩
    exact (Updater.apply_panics (hgives.sound h) inst).mpr hout

theorem call_panics (h : d.table.Sound) (c : Call) :
    (d.call c).2 = .error .panic ↔ ¬ d.HarmlessCall c := by
  cases c with
  | decodeIns buf =>
    simp only [call, map_eq_panic, HarmlessCall]
    exact decodeIns_panics h buf
  | decodeRepr buf streamId =>
    simp only [call, map_eq_panic, HarmlessCall, decodeRepr_panics, Classical.not_imp]
  | finish streamId =>
    simp only [call, map_eq_panic, HarmlessCall, not_true, iff_false, finish]
    split
    · simp
    · split
      · simp
      · split <;> simp
  | streamCancel streamId room =>
    simp only [call, map_eq_panic, HarmlessCall, not_true, iff_false, streamCancel]
    split
    · split <;> simp
    · simp
  | finishStream id =>
    simp only [call, HarmlessCall, not_true, iff_false, finishStream]
    split <;> simp
  | setMaxFieldSectionSize size => simp [call, HarmlessCall]

theorem Reached.sound {permits : QpackDecoder → Call → Prop} {maxBlocked maxCapacity : ℕ}
    (h : Reached permits maxBlocked maxCapacity d) : d.table.Sound := by
  induction h with
  | new => exact .withEmpty
  | call c reached permitted ih =>
    exact call_invariant _ c ih fun table inst _ htable => Sound.absorb htable inst

end QpackDecoder

/-! ### Instructions of the decoder -/

namespace QpackEncoder

variable {order : List ℕ → List ℕ} {acked : ℕ} {inst : DecoderInstruction}

def decInst (_ : Unit) (buf : Bytes) : DecResult DecoderInstruction Unit QpackError × Bytes :=
  match decodeDecInst buf with
  | (.decoded inst, rest) => (.decoded inst, rest)
  | (.needMore state, _) => state.elim
  | (.error e, rest) => (.error e, rest)

def take (order : List ℕ → List ℕ) (t : ℕ × QpackEncoder) (inst : DecoderInstruction) :
    (ℕ × QpackEncoder) × Except (Fault QpackError) Unit :=
  match t.2.apply order inst with
  | some e => ((t.2.ackedAfter t.1 inst, e), .ok ())
  | none => (t, .error .panic)

theorem decInst_consumes : Consumes decInst := by
  intro _ a d r h
  rw [decInst] at h
  split at h
  · rename_i inst rest hdec
    obtain ⟨hinst, rfl⟩ := Prod.mk.inj h
    exact decodeDecInst_takes _ _ _ hdec
  · rename_i state _ _
    exact state.elim
  · cases h

theorem decodeInsLoop_eq_drive (order : List ℕ → List ℕ) (fuel acked : ℕ) (e : QpackEncoder)
    (buf : Bytes) :
    decodeInsLoop order fuel e buf =
      ((drive decInst () Fault.error (take order) fuel (acked, e) none buf).1.2,
        (drive decInst () Fault.error (take order) fuel (acked, e) none buf).2.2) := by
  induction fuel generalizing acked e buf with
  | zero => rfl
  | succ fuel ih =>
    rw [decodeInsLoop, drive]
    split
    · rfl
    · rcases hdec : decodeDecInst buf with ⟨inst | state | err, rest⟩
      · simp only [decInst, hdec, take]
        cases e.apply order inst with
        | none => rfl
        | some e' => exact ih (e.ackedAfter acked inst) e' rest
      · exact state.elim
      · simp only [decInst, hdec]

def Comes (order : List ℕ → List ℕ) (acked : ℕ) (e : QpackEncoder) (buf : Bytes) (acked' : ℕ)
    (e' : QpackEncoder) (inst : DecoderInstruction) : Prop :=
  Library.Meets decInst () (take order) (acked, e) none buf (acked', e') inst

/-- The instruction is valid in the sense of RFC 9204. -/
def Valid (acked : ℕ) (e : QpackEncoder) : DecoderInstruction → Prop
  | .ack streamId => ∃ fields sections, e.trackedStream.lookup streamId = some (fields :: sections)
  | .streamCancel _ => True
  | .insertCountIncrement increment => 0 < increment ∧ acked + increment ≤ e.table.insertCount

/-- `decode_ins` does not panic, and refuses the instructions that are not valid. -/
def Answers (order : List ℕ → List ℕ) (acked : ℕ) (e : QpackEncoder) (buf : Bytes) : Prop :=
  (e.decodeIns order buf).2 ≠ .error .panic ∧
    ∀ acked' e' inst, e.Comes order acked buf acked' e' inst → ¬ e'.Valid acked' inst →
      ∃ err, (take order (acked', e') inst).2 = .error (.error err)

/-- The call fits, and an instruction in it acknowledges only what the encoder has sent. -/
def Heeds (acked : ℕ) (e : QpackEncoder) (c : Call) : Prop :=
  e.Fits acked c ∧ ∀ order perm inst, c = .decoderInstruction order perm inst → e.Valid acked inst

theorem Safe.take {order : List ℕ → List ℕ} (hperm : ∀ l, (order l).Perm l)
    (t : ℕ × QpackEncoder) (inst : DecoderInstruction) (h : t.2.Safe t.1) :
    (take order t inst).1.2.Safe (take order t inst).1.1 := by
  rw [QpackEncoder.take]
  cases happly : t.2.apply order inst with
  | none => exact h
  | some e' => exact (h.apply hperm happly).1

theorem Comes.safe (hperm : ∀ l, (order l).Perm l) {acked' : ℕ} {e e' : QpackEncoder} {buf : Bytes}
    (h : e.Comes order acked buf acked' e' inst) (he : e.Safe acked) : e'.Safe acked' :=
  Meets.invariant (P := fun t => t.2.Safe t.1) (Safe.take hperm) h he

theorem Safe.valid {e : QpackEncoder} (h : e.Safe acked) (hperm : ∀ l, (order l).Perm l)
    (hvalid : e.Valid acked inst) : ∃ e', e.apply order inst = some e' := by
  cases inst with
  | ack streamId =>
    obtain ⟨e', hack, -⟩ := h.ack hperm streamId
    exact ⟨e', hack⟩
  | streamCancel streamId =>
    obtain ⟨e', hcancel, -⟩ := h.cancelStream streamId
    exact ⟨e', hcancel⟩
  | insertCountIncrement increment =>
    obtain ⟨hpos, hle⟩ := hvalid
    have hknown := h.known
    exact ⟨_, increaseInsertCount_eq e hpos (by omega)⟩

theorem decodeIns_panics (order : List ℕ → List ℕ) (acked : ℕ) (e : QpackEncoder) (buf : Bytes) :
    (e.decodeIns order buf).2 = .error .panic ↔
      ∃ acked' e' inst, e.Comes order acked buf acked' e' inst ∧ e'.apply order inst = none := by
  have hdrive := @drive_error_iff _ _ _ _ _ _ _ () Fault.error (take order) decInst_consumes
    Fault.panic (fun _ => by simp) buf.length (acked, e) none buf le_rfl
  rw [decodeIns, decodeInsLoop_eq_drive order buf.length acked, hdrive]
  constructor
  · rintro ⟨⟨acked', e'⟩, inst, hmeets, hfault⟩
    refine ⟨acked', e', inst, hmeets, ?_⟩
    rw [take] at hfault
    cases happly : e'.apply order inst with
    | none => rfl
    | some e'' =>
      simp only [happly] at hfault
      cases hfault
  · rintro ⟨acked', e', inst, hcomes, happly⟩
    refine ⟨(acked', e'), inst, hcomes, ?_⟩
    simp only [take, happly]

theorem Safe.answers_iff {e : QpackEncoder} (h : e.Safe acked) (hperm : ∀ l, (order l).Perm l)
    (buf : Bytes) :
    e.Answers order acked buf ↔
      ∀ acked' e' inst, e.Comes order acked buf acked' e' inst → e'.Valid acked' inst := by
  constructor
  · intro hanswers acked' e' inst hcomes
    by_contra hinvalid
    obtain ⟨err, herr⟩ := hanswers.2 acked' e' inst hcomes hinvalid
    rw [QpackEncoder.take] at herr
    split at herr <;> cases herr
  · intro hvalid
    refine ⟨?_, fun acked' e' inst hcomes hinvalid =>
      absurd (hvalid acked' e' inst hcomes) hinvalid⟩
    intro hpanic
    obtain ⟨acked', e', inst, hcomes, hnone⟩ := (decodeIns_panics order acked e buf).mp hpanic
    obtain ⟨e'', hsome⟩ := (hcomes.safe hperm h).valid hperm (hvalid acked' e' inst hcomes)
    rw [hnone] at hsome
    cases hsome

theorem Reached.decodeIns {permits : ℕ → QpackEncoder → Call → Prop} {e : QpackEncoder}
    (h : Reached permits acked e) (hperm : ∀ l, (order l).Perm l) (buf : Bytes)
    (hpermits : ∀ acked' e' inst, e.Comes order acked buf acked' e' inst →
      permits acked' e' (.decoderInstruction order hperm inst)) :
    ∃ acked', Reached permits acked' (e.decodeIns order buf).1 := by
  rw [QpackEncoder.decodeIns, decodeInsLoop_eq_drive order buf.length acked]
  refine ⟨_, drive_invariant_of_meets (P := fun t => Reached permits t.1 t.2) buf.length
    (acked, e) none buf h ?_⟩
  intro t inst hmeets hreached
  rw [take]
  cases happly : t.2.apply order inst with
  | none => exact hreached
  | some e' => exact .call _ hreached (hpermits _ _ inst hmeets) happly

end QpackEncoder

/-! ### Both sides -/

/-- In every state of the decoder a call does not panic exactly if its octets are harmless.
In every state that the encoder comes to by sections that evict rightly and by valid
instructions, `decode_ins` answers rightly exactly if its instructions are valid, and then
it leads to such a state again. -/
theorem qpack_peer_octets {maxBlocked maxCapacity : ℕ} {d : QpackDecoder}
    (hdecoder : QpackDecoder.Reached (fun _ _ => True) maxBlocked maxCapacity d)
    (c : QpackDecoder.Call) {acked : ℕ} {e : QpackEncoder}
    (hencoder : QpackEncoder.Reached QpackEncoder.Heeds acked e) {order : List ℕ → List ℕ}
    (hperm : ∀ l, (order l).Perm l) (buf : Bytes) :
    ((d.call c).2 ≠ .error .panic ↔ d.HarmlessCall c) ∧
    (e.Answers order acked buf ↔
      ∀ acked' e' inst, e.Comes order acked buf acked' e' inst → e'.Valid acked' inst) ∧
    (e.Answers order acked buf →
      ∃ acked', QpackEncoder.Reached QpackEncoder.Heeds acked' (e.decodeIns order buf).1) := by
  have hsafe := hencoder.safe fun _ _ _ hheeds => hheeds.1
  refine ⟨?_, hsafe.answers_iff hperm buf, ?_⟩
  · rw [ne_eq, QpackDecoder.call_panics hdecoder.sound, not_not]
  · intro hanswers
    have hvalid := (hsafe.answers_iff hperm buf).mp hanswers
    refine hencoder.decodeIns hperm buf ?_
    intro acked' e' inst hcomes
    refine ⟨fun _ _ hasks => hasks.elim, ?_⟩
    intro order' perm' inst' heq
    obtain ⟨rfl, rfl⟩ : order = order' ∧ inst = inst' := by
      simpa using QpackEncoder.Call.decoderInstruction.inj heq
    exact hvalid acked' e' inst hcomes

/-- A decoder with the field `a` in its table. -/
def QpackDecoder.oneField : QpackDecoder :=
  ((QpackDecoder.new 0 100).call (.decodeIns [0x3f, 0x09, 0x41, 0x61, 0x00])).1

/-- An encoder whose section refers to the field that it has inserted. -/
def QpackEncoder.oneSection : QpackEncoder :=
  (QpackEncoder.oneField.call (.encode 1)).get (by decide)

theorem QpackEncoder.oneSection_reached : Reached Heeds 0 oneSection := by
  refine .call (.encode 1) (oneField_reached fun _ _ c hsets => ⟨hsets.fits, ?_⟩)
    ⟨oneField_fits, nofun⟩ (some_get _).symm
  rintro _ _ _ rfl
  exact hsets.elim

/-- A section that refers to the inserted entry, and the acknowledgment of such a section. -/
theorem qpack_peer_octets_plain :
    QpackDecoder.oneField.HarmlessCall (.decodeRepr [0x02, 0x00, 0x80] 4) ∧
      QpackEncoder.oneSection.Answers id 0 [0x81] ∧
      ∃ acked, QpackEncoder.Reached QpackEncoder.Heeds acked
        (QpackEncoder.oneSection.decodeIns id [0x81]).1 := by
  have hack : QpackEncoder.decInst () [0x81] = (.decoded (.ack 1), []) := by decide
  have hdecoder : QpackDecoder.Reached (fun _ _ => True) 0 100 .oneField :=
    .call (.decodeIns [0x3f, 0x09, 0x41, 0x61, 0x00]) .new trivial
  obtain ⟨hharmless, hanswers, hreached⟩ := qpack_peer_octets hdecoder
    (.decodeRepr [0x02, 0x00, 0x80] 4) QpackEncoder.oneSection_reached (fun _ => .refl _) [0x81]
  have hright : QpackEncoder.oneSection.Answers id 0 [0x81] := by
    refine hanswers.mpr ?_
    intro acked' e' inst hcomes
    rcases (meets_iff (by simp) hack).mp hcomes with ⟨heq, rfl⟩ | ⟨t, -, hcomes⟩
    · cases heq
      exact ⟨[0], [], by decide⟩
    · exact absurd hcomes (meets_nil _ _ _ _)
  exact ⟨hharmless.mp (by decide), hright, hreached hright⟩

/-- A duplication of an entry that was never inserted, and an increment by 0. -/
theorem qpack_peer_octets_panic :
    ((QpackDecoder.new 0 100).call (.decodeIns [0x00])).2 = .error .panic ∧
      (QpackEncoder.default.decodeIns id [0x00]).2 = .error .panic := by
  constructor <;> decide

end YlongHttp.Qpack
