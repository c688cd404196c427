import YlongHttp.Verification.Qpack.EvictionSafety

/-! # Blocked streams of the QPACK encoder

The encoder takes its Known Received Count for the index of the last entry that is known,
and adds one to its count of blocked streams for every section that refers to an entry past
it. Its books are right as long as no insertion has been acknowledged, every section with
references refers to an entry other than entry 0, and no stream gets a second one. -/

namespace YlongHttp.Qpack

open List
open Qpack.DynamicTable

variable {table table' : DynamicTable}

/-! ### What encoding a section keeps, whatever the table -/

theorem DynamicTable.modifyField_known {index : ℕ} {f : DynamicField → Option DynamicField}
    (h : table.modifyField index f = some table') :
    table'.knownReceivedCount = table.knownReceivedCount := by
  rw [modifyField] at h
  cases hsub : checkedSub index table.removeCount with
  | none =>
    rw [hsub] at h
    cases h
  | some i =>
    simp only [hsub] at h
    cases hfld : table.queue[i]? with
    | none =>
      rw [hfld] at h
      cases h
    | some field =>
      simp only [hfld, Option.map_eq_some_iff] at h
      obtain ⟨field', -, rfl⟩ := h
      rfl

theorem DynamicTable.evictDrained_known {m : ℕ} (h : table.evictDrained m = some table') :
    table'.knownReceivedCount = table.knownReceivedCount := by
  induction m generalizing table with
  | zero =>
    cases h
    rfl
  | succ m ih =>
    rw [evictDrained] at h
    split at h
    · cases h
    · split at h
      · cases h
      · have hrest := ih h
        exact hrest

theorem DynamicTable.updateCapacity_known {newCap : ℕ} {b : Bool}
    (h : table.updateCapacity newCap = some (table', b)) :
    table'.knownReceivedCount = table.knownReceivedCount := by
  rw [updateCapacity] at h
  split at h
  · split at h
    · cases h
    · obtain ⟨rfl, -⟩ := Prod.mk.inj (Option.some.inj h)
      rfl
    · split at h
      · cases h
      · rename_i hevict
        obtain ⟨rfl, -⟩ := Prod.mk.inj (Option.some.inj h)
        have hknown := evictDrained_known hevict
        exact hknown
  · obtain ⟨rfl, -⟩ := Prod.mk.inj (Option.some.inj h)
    rfl

theorem DynamicTable.index_may (table : DynamicTable) (name : NameField) (value : Bytes)
    (allowBlock : Bool) :
    (table.index name value allowBlock).Names fun index =>
      allowBlock = true ∨ index ≤ table.knownReceivedCount :=
  indexLoop_names name value table.queue .none trivial fun _ _ hmay => hmay

namespace ReprEncoder

variable {index : ℕ} {name : NameField} {value : Bytes}

/-- What a section knows about its references. -/
structure Notes (known : ℕ) (allowBlock : Bool) (r : ReprEncoder) : Prop where
  known_eq : r.table.knownReceivedCount = known
  largest : Largest r.maxDynamic r.refFields
  held : allowBlock = false → ∀ index ∈ r.refFields, index ≤ known

variable {known : ℕ} {allowBlock : Bool} {r r' : ReprEncoder}

theorem Notes.write (h : r.Notes known allowBlock) (octets : Bytes) :
    (r.write octets).Notes known allowBlock :=
  ⟨h.known_eq, h.largest, h.held⟩

theorem Notes.referNew (h : r.Notes known allowBlock) (hmay : allowBlock = true ∨ index ≤ known)
    (hr : r.referNew index = some r') : r'.Notes known allowBlock := by
  rw [ReprEncoder.referNew] at hr
  obtain ⟨table, htrack, rfl⟩ := Option.map_eq_some_iff.mp hr
  refine ⟨(modifyField_known htrack).trans h.known_eq, h.largest.concat index, ?_⟩
  intro hallow i hi
  rcases mem_append.mp hi with hi | hi
  · exact h.held hallow i hi
  · rw [mem_singleton.mp hi]
    simpa [hallow] using hmay

theorem Notes.refer (h : r.Notes known allowBlock) (hmay : allowBlock = true ∨ index ≤ known)
    (hr : r.refer index = some r') : r'.Notes known allowBlock := by
  by_cases hmem : index ∈ r.refFields
  · rw [ReprEncoder.refer, if_pos hmem] at hr
    cases hr
    exact ⟨h.known_eq, h.largest.again hmem, h.held⟩
  · refine h.referNew hmay ?_
    rw [← hr, ReprEncoder.refer, if_neg hmem]
    rfl

theorem Notes.addFieldToDynamic (h : r.Notes known allowBlock) {found : Option ℕ}
    (hr : r.addFieldToDynamic name value = some (r', found)) : r'.Notes known allowBlock := by
  rw [ReprEncoder.addFieldToDynamic] at hr
  split at hr
  · cases hr
  · obtain ⟨table, hevict, heq⟩ := Option.map_eq_some_iff.mp hr
    obtain ⟨rfl, -⟩ := Prod.mk.inj heq
    exact ⟨(evictDrained_known hevict).trans h.known_eq, h.largest, h.held⟩
  · obtain ⟨rfl, -⟩ := Prod.mk.inj (Option.some.inj hr)
    exact ⟨h.known_eq, h.largest, h.held⟩

theorem Notes.encodeField (h : r.Notes known allowBlock)
    (hr : r.encodeField allowBlock name value = some r') : r'.Notes known allowBlock := by
  have hmay := r.table.index_may name value allowBlock
  rw [h.known_eq] at hmay
  rw [ReprEncoder.encodeField] at hr
  obtain ⟨i, hi⟩ | ⟨i, hi⟩ | ⟨i, hi, hfound⟩ | ⟨i, hi, hfound⟩ | hi :=
    search_cases r.table name value allowBlock
  · rw [hi] at hr
    cases hr
    exact h.write _
  · rw [hi] at hr
    cases hr
    exact h.write _
  · rw [hi] at hr
    rw [hfound] at hmay
    exact (h.write _).refer hmay hr
  · rw [hi] at hr
    rw [hfound] at hmay
    exact (h.write _).refer hmay hr
  · rw [hi] at hr
    simp only at hr
    split at hr
    · rename_i hallow
      split at hr
      · cases hr
      · rename_i r₁ index hadd
        exact ((h.addFieldToDynamic hadd).write _).referNew (.inl hallow) hr
      · rename_i r₁ hadd
        cases hr
        exact (h.addFieldToDynamic hadd).write _
    · cases hr
      exact h.write _

theorem Notes.encodeFields (h : r.Notes known allowBlock) {iter : List (NameField × Bytes)}
    (hr : ReprEncoder.encodeFields allowBlock iter r = some r') : r'.Notes known allowBlock := by
  induction iter generalizing r with
  | nil =>
    cases hr
    exact h
  | cons field iter ih =>
    obtain ⟨r₁, hfirst, hrest⟩ := Option.bind_eq_some_iff.mp hr
    exact ih (h.encodeField hfirst) hrest

end ReprEncoder

namespace QpackEncoder

variable {e e' : QpackEncoder} {fields : List ℕ} {acked streamId : ℕ} {sections : List (List ℕ)}
  {order : List ℕ → List ℕ} {c : Call}

theorem updateMaxDynamicTableCap_same {e₁ : QpackEncoder} {inst : Bytes}
    (h : e.updateMaxDynamicTableCap = some (e₁, inst)) :
    e₁.trackedStream = e.trackedStream ∧ e₁.blockedStreamNums = e.blockedStreamNums ∧
      e₁.maxBlockedStreams = e.maxBlockedStreams ∧
      e₁.table.knownReceivedCount = e.table.knownReceivedCount := by
  rw [updateMaxDynamicTableCap] at h
  split at h
  · obtain ⟨rfl, -⟩ := Prod.mk.inj (Option.some.inj h)
    exact ⟨rfl, rfl, rfl, rfl⟩
  · obtain ⟨⟨table, updated⟩, hupd, heq⟩ := Option.map_eq_some_iff.mp h
    have hknown := updateCapacity_known hupd
    cases updated with
    | false | true =>
      obtain ⟨rfl, -⟩ := Prod.mk.inj heq
      exact ⟨rfl, rfl, rfl, hknown⟩

theorem untrackAll_known {indices : List ℕ} (h : untrackAll table indices = some table') :
    table'.knownReceivedCount = table.knownReceivedCount := by
  induction indices generalizing table with
  | nil =>
    cases h
    rfl
  | cons index indices ih =>
    obtain ⟨table₁, hfirst, hrest⟩ := Option.bind_eq_some_iff.mp h
    exact (ih hrest).trans (modifyField_known hfirst)

/-! ### The books -/

def blockable (acked : ℕ) (streams : AList fun _ : ℕ => List (List ℕ)) : ℕ :=
  streams.entries.countP fun s => s.2.any fun fields => acked < insertCountOf fields

/-- What the counts should be. -/
structure BooksRight (acked : ℕ) (e : QpackEncoder) : Prop where
  known : e.table.knownReceivedCount = acked
  blocked : e.blockedStreamNums = blockable acked e.trackedStream

/-- The books are right after the call, and it blocks no more streams than it may. -/
def RightAfter (acked : ℕ) (e : QpackEncoder) (c : Call) (e' : QpackEncoder) : Prop :=
  BooksRight (e.acknowledged acked c) e' ∧
    (∀ streamId, c = .encode streamId →
      blockable acked e'.trackedStream ≤ max (blockable acked e.trackedStream) e.maxBlockedStreams)

def sectionRefs (e : QpackEncoder) (streamId : ℕ) : Option (List ℕ) :=
  e.updateMaxDynamicTableCap.bind fun (e, inst) =>
    (ReprEncoder.encodeFields (e.allowBlock streamId) (e.fieldIter.getD [])
      (e.startSection inst)).map ReprEncoder.refFields

def Books (acked : ℕ) (e : QpackEncoder) (c : Call) : Prop :=
  e.acknowledged acked c = acked ∧
    ∀ streamId refs, c = .encode streamId → e.sectionRefs streamId = some refs → refs ≠ [] →
      ((∃ index ∈ refs, index ≠ 0) ↔ streamId ∉ e.trackedStream)

/-- Nothing is acknowledged, and each stream with an unacknowledged section is counted. -/
structure Untouched (acked : ℕ) (e : QpackEncoder) : Prop where
  acked : acked = 0
  known : e.table.knownReceivedCount = 0
  sections : ∀ s ∈ e.trackedStream.entries,
    (∀ fields ∈ s.2, fields ≠ []) ∧ ∃ index ∈ s.2.flatten, index ≠ 0
  blocked : e.blockedStreamNums = e.trackedStream.entries.length

theorem Untouched.default : Untouched 0 QpackEncoder.default := by
  refine ⟨rfl, rfl, ?_, rfl⟩
  intro s hs
  cases hs

theorem insertCountOf_pos (h : fields ≠ []) : 0 < insertCountOf fields := by
  obtain ⟨index, hmem⟩ := exists_mem_of_ne_nil fields h
  exact Nat.zero_lt_of_lt (lt_insertCountOf hmem)

variable {streams : AList fun _ : ℕ => List (List ℕ)} {r : ReprEncoder}

theorem blockable_zero (h : ∀ s ∈ streams.entries, ∃ fields ∈ s.2, fields ≠ []) :
    blockable 0 streams = streams.entries.length := by
  apply countP_eq_length.mpr
  intro s hs
  obtain ⟨fields, hmem, hne⟩ := h s hs
  simp only [any_eq_true, decide_eq_true_eq]
  exact ⟨fields, hmem, insertCountOf_pos hne⟩

theorem Untouched.nonempty (h : e.Untouched acked) :
    ∀ s ∈ e.trackedStream.entries, ∃ fields ∈ s.2, fields ≠ [] := by
  intro s hs
  obtain ⟨hflds, index, hidx, -⟩ := h.sections s hs
  obtain ⟨fields, hmem, -⟩ := mem_flatten.mp hidx
  exact ⟨fields, hmem, hflds fields hmem⟩

theorem Untouched.booksRight (h : e.Untouched acked) : e.BooksRight acked := by
  obtain rfl := h.acked
  exact ⟨h.known, h.blocked.trans (blockable_zero h.nonempty).symm⟩

theorem length_insert (streams : AList fun _ : ℕ => List (List ℕ)) (id : ℕ)
    (sections : List (List ℕ)) :
    (streams.insert id sections).entries.length =
      streams.entries.length + if id ∈ streams then 0 else 1 := by
  rw [AList.entries_insert, length_cons]
  by_cases hmem : id ∈ streams
  · obtain ⟨b, hb⟩ := Option.isSome_iff_exists.mp (AList.lookup_isSome.mpr hmem)
    have hperm := (entries_perm hb).length_eq
    rw [length_cons] at hperm
    simp only [hmem, if_true]
    exact hperm.symm
  · simp only [hmem, if_false]
    have herase := erase_eq_self (AList.lookup_eq_none.mpr hmem)
    exact congrArg (fun m => m.entries.length + 1) herase

/-! ### Field sections -/

theorem encode_cases (h : e.call (.encode streamId) = some e') :
    ∃ r : ReprEncoder, ∃ allowBlock : Bool,
      allowBlock = e.allowBlock streamId ∧ e.sectionRefs streamId = some r.refFields ∧
      r.Notes e.table.knownReceivedCount allowBlock ∧
      e'.table.knownReceivedCount = e.table.knownReceivedCount ∧
      e'.blockedStreamNums =
        (if r.maxDynamic > e.table.knownReceivedCount then e.blockedStreamNums + 1
         else e.blockedStreamNums) ∧
      e'.trackedStream =
        (if r.refFields = [] then e.trackedStream
         else e.trackedStream.insert streamId
          ((e.trackedStream.lookup streamId).getD [] ++ [r.refFields])) := by
  obtain ⟨⟨_, octets, insts⟩, henc, rfl⟩ := Option.map_eq_some_iff.mp h
  obtain ⟨⟨e₁, inst⟩, hupd, hrest⟩ := Option.bind_eq_some_iff.mp henc
  obtain ⟨r, hflds, hpre⟩ := Option.bind_eq_some_iff.mp hrest
  obtain ⟨sectionPrefix, -, heq⟩ := Option.map_eq_some_iff.mp hpre
  obtain ⟨rfl, -⟩ := Prod.mk.inj heq
  obtain ⟨htracked, hnums, hmax, hknown⟩ := updateMaxDynamicTableCap_same hupd
  have hallow : e₁.allowBlock streamId = e.allowBlock streamId := by
    simp only [allowBlock, streamBlocked, reachMaxBlocked, htracked, hnums, hmax, hknown]
  have hstart : (e₁.startSection inst).Notes e.table.knownReceivedCount (e₁.allowBlock streamId) :=
    ⟨hknown, ⟨by simp [startSection], by simp [startSection]⟩, by simp [startSection]⟩
  have hnotes := hstart.encodeFields hflds
  refine ⟨r, e₁.allowBlock streamId, hallow, ?_, hnotes, hnotes.known_eq, ?_, ?_⟩
  · simp only [sectionRefs, hupd, Option.bind_some, hflds, Option.map_some]
  · simp only [afterSection, hnotes.known_eq, hnums]
  · simp only [afterSection, htracked]

theorem Untouched.room (h : e.Untouched acked) (hnew : streamId ∉ e.trackedStream)
    (hnotes : r.Notes e.table.knownReceivedCount (e.allowBlock streamId))
    (hidx : ∃ index ∈ r.refFields, index ≠ 0) :
    e.trackedStream.entries.length < e.maxBlockedStreams := by
  have hblocked : e.streamBlocked streamId = false := by
    simp only [streamBlocked, AList.lookup_eq_none.mpr hnew]
  cases hallow : e.allowBlock streamId with
  | false =>
    obtain ⟨index, hmem, hne⟩ := hidx
    have hle := hnotes.held hallow index hmem
    have := h.known
    omega
  | true =>
    simp only [allowBlock, hblocked, reachMaxBlocked, Bool.false_or,
      Bool.not_eq_true', decide_eq_false_iff_not, not_le] at hallow
    have := h.blocked
    omega

theorem maxDynamic_pos_iff {known : ℕ} {allowBlock : Bool} (h : r.Notes known allowBlock) :
    0 < r.maxDynamic ↔ ∃ index ∈ r.refFields, index ≠ 0 := by
  constructor
  · intro hpos
    exact ⟨r.maxDynamic, h.largest.max_mem hpos.ne', hpos.ne'⟩
  · rintro ⟨index, hmem, hne⟩
    exact lt_of_lt_of_le (Nat.pos_of_ne_zero hne) (h.largest.le_max index hmem)

theorem sections_insert {P : List (List ℕ) → Prop} {id : ℕ} (h : ∀ s ∈ streams.entries, P s.2)
    (hnew : P sections) :
    ∀ s ∈ (streams.insert id sections).entries, P s.2 := by
  intro s hs
  rw [AList.entries_insert] at hs
  rcases mem_cons.mp hs with rfl | hs
  · exact hnew
  · exact h s (kerase_sublist id streams.entries |>.subset hs)

theorem Untouched.encoded (h : e.Untouched acked) (he : e.call (.encode streamId) = some e') :
    (RightAfter acked e (.encode streamId) e' ↔ e.Books acked (.encode streamId)) ∧
      (e.Books acked (.encode streamId) → e'.Untouched acked) := by
  obtain rfl := h.acked
  obtain ⟨r, allowBlock, rfl, hrefs, hnotes, hknown, hnums, htracked⟩ := encode_cases he
  have hbooks : e.Books 0 (.encode streamId) ↔
      (r.refFields ≠ [] → (0 < r.maxDynamic ↔ streamId ∉ e.trackedStream)) := by
    rw [maxDynamic_pos_iff hnotes]
    constructor
    · intro hbooks hne
      exact hbooks.2 streamId r.refFields rfl hrefs hne
    · intro hcond
      refine ⟨rfl, ?_⟩
      intro id refs hid hrefs' hne
      obtain rfl := Call.encode.inj hid
      cases hrefs'.symm.trans hrefs
      exact hcond hne
  rw [h.known, h.blocked] at hnums
  rw [h.known] at hknown
  rw [hbooks]
  by_cases hnil : r.refFields = []
  · -- nothing is referred to, and nothing changes
    have hzero : ¬ r.maxDynamic > 0 := by
      rw [gt_iff_lt, maxDynamic_pos_iff hnotes]
      simp [hnil]
    rw [if_neg hzero] at hnums
    rw [if_pos hnil] at htracked
    have hsame : e'.Untouched 0 := by
      refine ⟨rfl, hknown, ?_, ?_⟩
      · rw [htracked]
        exact h.sections
      · rw [htracked, hnums]
    refine ⟨⟨fun _ hne => absurd hnil hne, fun _ => ⟨hsame.booksRight, ?_⟩⟩, fun _ => hsame⟩
    intro _ _
    rw [htracked]
    exact le_max_left _ _
  · rw [if_neg hnil] at htracked
    have hentries := length_insert e.trackedStream streamId
      ((e.trackedStream.lookup streamId).getD [] ++ [r.refFields])
    rw [← htracked] at hentries
    have hnonempty : ∀ s ∈ e'.trackedStream.entries, ∃ fields ∈ s.2, fields ≠ [] := by
      rw [htracked]
      apply sections_insert (P := fun sections => ∃ fields ∈ sections, fields ≠ []) h.nonempty
      exact ⟨r.refFields, by simp, hnil⟩
    have hcnt := blockable_zero hnonempty
    constructor
    · constructor
      · intro hright _
        have hblocked := hright.1.blocked
        change _ = blockable 0 _ at hblocked
        rw [hcnt, hnums, hentries] at hblocked
        by_cases hmem : streamId ∈ e.trackedStream
        · simp only [hmem, if_true] at hblocked
          simp only [hmem, not_true, iff_false]
          split at hblocked <;> omega
        · simp only [hmem, if_false] at hblocked
          simp only [hmem, not_false_eq_true, iff_true]
          split at hblocked <;> omega
      · intro hcond
        have hiff := hcond hnil
        refine ⟨⟨hknown, ?_⟩, ?_⟩
        · change _ = blockable 0 _
          rw [hcnt, hnums, hentries]
          by_cases hmem : streamId ∈ e.trackedStream
          · simp [hmem, hiff]
          · simp [hmem, hiff]
        · intro _ _
          rw [hcnt, hentries, blockable_zero h.nonempty]
          by_cases hmem : streamId ∈ e.trackedStream
          · simp [hmem]
          · have hroom := h.room hmem hnotes ((maxDynamic_pos_iff hnotes).mp (hiff.mpr hmem))
            simp only [hmem, if_false]
            omega
    · intro hcond
      have hiff := hcond hnil
      refine ⟨rfl, hknown, ?_, ?_⟩
      · rw [htracked]
        apply sections_insert (P := fun sections =>
          (∀ fields ∈ sections, fields ≠ []) ∧ ∃ index ∈ sections.flatten, index ≠ 0) h.sections
        cases hget : e.trackedStream.lookup streamId with
        | none =>
          have hnew := AList.lookup_eq_none.mp hget
          obtain ⟨index, hmem, hne⟩ := (maxDynamic_pos_iff hnotes).mp (hiff.mpr hnew)
          exact ⟨by simp [hnil], index, by simpa using hmem, hne⟩
        | some sections =>
          have hmem : (⟨streamId, sections⟩ : Sigma fun _ : ℕ => List (List ℕ)) ∈
              e.trackedStream.entries := AList.mem_lookup_iff.mp hget
          obtain ⟨hflds, index, hidx, hne⟩ := h.sections _ hmem
          refine ⟨?_, index, ?_, hne⟩
          · intro fields hmem'
            rcases mem_append.mp hmem' with hmem' | hmem'
            · exact hflds fields hmem'
            · rw [mem_singleton.mp hmem']
              exact hnil
          · rw [Option.getD_some, flatten_append]
            exact mem_append_left _ hidx
      · rw [hnums, hentries]
        by_cases hmem : streamId ∈ e.trackedStream
        · simp [hmem, hiff]
        · simp [hmem, hiff]

/-! ### Decoder instructions -/

theorem increaseInsertCount_known {increment : ℕ} (h : e.increaseInsertCount increment = some e') :
    0 < increment ∧ e'.table.knownReceivedCount = e.table.knownReceivedCount + (increment - 1) := by
  obtain ⟨hpos, hle⟩ := increaseInsertCount_some h
  rw [increaseInsertCount_eq e hpos hle] at h
  cases h
  exact ⟨hpos, rfl⟩

theorem Untouched.ack_known (h : e.Untouched acked) (hperm : ∀ l, (order l).Perm l)
    (hget : e.trackedStream.lookup streamId = some (fields :: sections))
    (he : e.ack order streamId = some e') : e'.table.knownReceivedCount < insertCountOf fields := by
  have hmem : (⟨streamId, fields :: sections⟩ : Sigma fun _ : ℕ => List (List ℕ)) ∈
      e.trackedStream.entries := AList.mem_lookup_iff.mp hget
  have hflds : fields ≠ [] := (h.sections _ hmem).1 fields (by simp)
  have hpos := insertCountOf_pos hflds
  rw [ack, hget] at he
  obtain ⟨table, huntrack, he⟩ := Option.bind_eq_some_iff.mp he
  have hknown := (untrackAll_known huntrack).trans h.known
  simp only at he
  split at he
  · obtain ⟨-, hraised⟩ := increaseInsertCount_known he
    rw [hraised, h.known]
    change table.knownReceivedCount + _ < _
    rcases raiseKnown_cases 0 (order fields) with hraise | ⟨hraise, index, hidx, hle⟩
    · omega
    · have := lt_insertCountOf ((hperm fields).mem_iff.mp hidx)
      omega
  · cases he
    exact hknown.trans_lt hpos

theorem Untouched.canceled (h : e.Untouched acked) (he : e.cancelStream streamId = some e') :
    e'.Untouched acked := by
  rw [cancelStream] at he
  cases hget : e.trackedStream.lookup streamId with
  | none =>
    rw [hget] at he
    cases he
    exact h
  | some sections =>
    rw [hget] at he
    obtain ⟨table, huntrack, he⟩ := Option.bind_eq_some_iff.mp he
    have hknown := (untrackAll_known huntrack).trans h.known
    have hmem : (⟨streamId, sections⟩ : Sigma fun _ : ℕ => List (List ℕ)) ∈
        e.trackedStream.entries := AList.mem_lookup_iff.mp hget
    obtain ⟨-, index, hidx, hne⟩ := h.sections _ hmem
    have hstr : isBlocked 0 sections = true := by
      simp only [isBlocked, any_eq_true, decide_eq_true_eq]
      exact ⟨index, hidx, Nat.pos_of_ne_zero hne⟩
    simp only [hknown, hstr, if_true] at he
    obtain ⟨nums, hsub, rfl⟩ := Option.map_eq_some_iff.mp he
    obtain ⟨-, rfl⟩ := checkedSub_eq_some hsub
    have hperm := (entries_perm hget).length_eq
    rw [length_cons] at hperm
    refine ⟨h.acked, hknown, ?_, ?_⟩
    · intro s hs
      exact h.sections s (kerase_sublist streamId e.trackedStream.entries |>.subset hs)
    · change e.blockedStreamNums - 1 = (e.trackedStream.erase streamId).entries.length
      rw [h.blocked]
      omega

theorem Untouched.applied (h : e.Untouched acked) (hperm : ∀ l, (order l).Perm l)
    {inst : DecoderInstruction} (he : e.apply order inst = some e') :
    (BooksRight (e.ackedAfter acked inst) e' ↔ e.ackedAfter acked inst = acked) ∧
      (e.ackedAfter acked inst = acked → e'.Untouched acked) := by
  have hkept : e'.Untouched acked → e.ackedAfter acked inst = acked →
      (BooksRight (e.ackedAfter acked inst) e' ↔ e.ackedAfter acked inst = acked) ∧
        (e.ackedAfter acked inst = acked → e'.Untouched acked) := by
    intro huntouched hsame
    rw [hsame]
    exact ⟨⟨fun _ => rfl, fun _ => huntouched.booksRight⟩, fun _ => huntouched⟩
  have hwrong : e'.table.knownReceivedCount < e.ackedAfter acked inst →
      e.ackedAfter acked inst ≠ acked →
      (BooksRight (e.ackedAfter acked inst) e' ↔ e.ackedAfter acked inst = acked) ∧
        (e.ackedAfter acked inst = acked → e'.Untouched acked) := by
    intro hlt hne
    refine ⟨⟨?_, fun hsame => absurd hsame hne⟩, fun hsame => absurd hsame hne⟩
    intro hbooks
    exact absurd hbooks.known hlt.ne
  have hacked := h.acked
  cases inst with
  | ack streamId =>
    cases hget : e.trackedStream.lookup streamId with
    | none =>
      rw [apply, ack, hget] at he
      cases he
      exact hkept h (by rw [ackedAfter, hget])
    | some found =>
      have hmem : (⟨streamId, found⟩ : Sigma fun _ : ℕ => List (List ℕ)) ∈
          e.trackedStream.entries := AList.mem_lookup_iff.mp hget
      cases found with
      | nil =>
        obtain ⟨-, index, hidx, -⟩ := h.sections _ hmem
        cases hidx
      | cons fields sections =>
        have hafter : e.ackedAfter acked (.ack streamId) = max acked (insertCountOf fields) := by
          rw [ackedAfter, hget]
        have hpos := insertCountOf_pos ((h.sections _ hmem).1 fields (by simp))
        have hknown := h.ack_known hperm hget he
        exact hwrong (by omega) (by omega)
  | streamCancel streamId => exact hkept (h.canceled he) rfl
  | insertCountIncrement increment =>
    obtain ⟨hpos, hknown⟩ := increaseInsertCount_known he
    have hafter : e.ackedAfter acked (.insertCountIncrement increment) = acked + increment := rfl
    have := h.known
    exact hwrong (by omega) (by omega)

/-! ### Runs -/

theorem Untouched.call (h : e.Untouched acked) (c : Call) (he : e.call c = some e') :
    (RightAfter acked e c e' ↔ e.Books acked c) ∧ (e.Books acked c → e'.Untouched acked) := by
  have hother : e'.Untouched acked → e.acknowledged acked c = acked →
      (∀ streamId, c ≠ .encode streamId) →
      (RightAfter acked e c e' ↔ e.Books acked c) ∧ (e.Books acked c → e'.Untouched acked) := by
    intro huntouched hsame hne
    refine ⟨⟨fun _ => ⟨hsame, ?_⟩, fun _ => ⟨?_, ?_⟩⟩, fun _ => huntouched⟩
    · intro streamId _ hc
      exact absurd hc (hne streamId)
    · rw [hsame]
      exact huntouched.booksRight
    · intro streamId hc
      exact absurd hc (hne streamId)
  cases c with
  | setMaxTableCapacity maxCap =>
    cases he
    refine hother ?_ rfl (by simp)
    rw [setMaxTableCapacity]
    split
    · exact h
    · exact ⟨h.acked, h.known, h.sections, h.blocked⟩
  | setMaxBlockedStreamSize maxBlocked | setParts parts =>
    cases he
    exact hother ⟨h.acked, h.known, h.sections, h.blocked⟩ rfl (by simp)
  | encode streamId => exact h.encoded he
  | decoderInstruction order perm inst =>
    obtain ⟨hiff, hkept⟩ := h.applied perm he
    constructor
    · constructor
      · intro hright
        refine ⟨hiff.mp hright.1, ?_⟩
        intro _ _ hc
        cases hc
      · intro hbooks
        refine ⟨hiff.mpr hbooks.1, ?_⟩
        intro _ hc
        cases hc
    · intro hbooks
      exact hkept hbooks.1

theorem Reached.untouched (h : Reached Books acked e) : e.Untouched acked := by
  induction h with
  | default => exact .default
  | call c reached permitted called ih =>
    rw [permitted.1]
    exact (ih.call c called).2 permitted

/-- In every run whose calls meet the condition the books are right, and the next call
leaves them right exactly if it meets the condition. -/
theorem encoder_books_right {acked : ℕ} {e : QpackEncoder} (h : Reached Books acked e) :
    e.BooksRight acked ∧
      ∀ c e', e.call c = some e' → (RightAfter acked e c e' ↔ e.Books acked c) := by
  have huntouched := h.untouched
  exact ⟨huntouched.booksRight, fun c e' he => (huntouched.call c he).1⟩

/-! ### Runs with one and with two entries -/

def Compliant (acked : ℕ) (e : QpackEncoder) : Call → Prop
  | .decoderInstruction _ _ (.ack streamId) => streamId ∈ e.trackedStream
  | .decoderInstruction _ _ (.insertCountIncrement increment) =>
    0 < increment ∧ acked + increment ≤ e.table.insertCount
  | _ => True

theorem Call.Sets.compliant (h : c.Sets) : e.Compliant acked c := by
  cases c with
  | encode streamId => trivial
  | decoderInstruction order perm inst => exact h.elim
  | _ => trivial

theorem Call.Sets.books (h : c.Sets) : e.Books acked c := by
  cases c with
  | encode streamId => exact h.elim
  | decoderInstruction order perm inst => exact h.elim
  | _ => exact ⟨rfl, by simp⟩

/-- The parts with the header fields `a` and `b`, without values. -/
def twoHeaders : Parts :=
  { Parts.new with
    map := ((oneHeader "a").map.append (str "b") []).getD Headers.new }

/-- An encoder with room for two entries, about to encode the fields `a` and `b`. -/
def twoFields : QpackEncoder :=
  { default with
    maxBlockedStreams := 1
    fieldIter := some (partsFields twoHeaders)
    capacityToUpdate := some 80 }

theorem twoFields_refs : twoFields.sectionRefs 1 = some [0, 1] := by decide

theorem encoder_books_right_two_fields :
    ∃ e', Reached Books 0 e' ∧ e'.blockedStreamNums = 1 ∧
      e'.blockedStreamNums = blockable 0 e'.trackedStream := by
  have hblocked : Reached Books 0 (default.setMaxBlockedStreamSize 1) :=
    .call (.setMaxBlockedStreamSize 1) .default (Call.Sets.books trivial) rfl
  have hparts : Reached Books 0 ((default.setMaxBlockedStreamSize 1).setParts twoHeaders) :=
    .call (.setParts twoHeaders) hblocked (Call.Sets.books trivial) rfl
  have hcap : Reached Books 0 twoFields :=
    .call (.setMaxTableCapacity 80) hparts (Call.Sets.books trivial) rfl
  have hbooks : twoFields.Books 0 (.encode 1) := by
    refine ⟨rfl, ?_⟩
    intro id refs hid hrefs _
    obtain rfl := Call.encode.inj hid
    cases hrefs.symm.trans twoFields_refs
    decide
  have hencoded : Reached Books 0 ((twoFields.call (.encode 1)).get (by decide)) :=
    .call (.encode 1) hcap hbooks (Option.some_get _).symm
  exact ⟨_, hencoded, by decide, (encoder_books_right hencoded).1.blocked⟩

/-- The first insertion is acknowledged, and the encoder still knows of none. -/
theorem encoder_known_short :
    ∃ e, Reached Compliant 1 e ∧ e.table.insertCount = 1 ∧ ¬ BooksRight 1 e := by
  have hfirst : Reached Compliant 0 ((oneField.call (.encode 1)).get (by decide)) :=
    .call (.encode 1) (oneField_reached fun _ _ _ hsets => hsets.compliant) trivial
      (Option.some_get _).symm
  have hincreased : Reached Compliant 1
      ((((oneField.call (.encode 1)).get (by decide)).increaseInsertCount 1).get
        (by decide)) :=
    .call (.decoderInstruction id (fun _ => .refl _) (.insertCountIncrement 1)) hfirst
      ⟨by decide, by decide⟩ (Option.some_get _).symm
  refine ⟨_, hincreased, by decide, ?_⟩
  intro hbooks
  have hknown := hbooks.known
  revert hknown
  decide

end QpackEncoder

end YlongHttp.Qpack
