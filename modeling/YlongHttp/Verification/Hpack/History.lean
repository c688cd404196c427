import YlongHttp.Model.Hpack.Decoder
import YlongHttp.Verification.Hpack.Tables

/-! # The dynamic table and the insertions into it

The table holds the newest insertions that have fitted all along. -/

namespace YlongHttp

open List DynamicTable HpackDecoder Updater

variable {k n room : ℕ} {l : List Field} {d : HpackDecoder}

/-- What is done to a table. -/
inductive TableOp where
  | insert (f : Field)
  | resize (maxSize : ℕ)

def DynamicTable.apply (self : DynamicTable) : TableOp → DynamicTable
  | .insert f => self.update f.1 f.2
  | .resize maxSize => self.updateSize maxSize

/-! ## The newest that fit -/

def newest : ℕ → List Field → List Field
  | _, [] => []
  | room, f :: rest => if f.size ≤ room then f :: newest (room - f.size) rest else []

theorem newest_initial (room : ℕ) (l : List Field) : newest room l <+: l := by
  induction l generalizing room with
  | nil => exact prefix_rfl
  | cons f l ih =>
    rw [newest]
    split
    · exact cons_prefix_cons.mpr ⟨rfl, ih _⟩
    · exact List.nil_prefix

theorem newest_fits (room : ℕ) (l : List Field) : fieldsSize (newest room l) ≤ room := by
  induction l generalizing room with
  | nil => exact Nat.zero_le _
  | cons f l ih =>
    rw [newest]
    split
    · next hle =>
        have hrest := ih (room - f.size)
        rw [fieldsSize, map_cons, sum_cons]
        rw [fieldsSize] at hrest
        omega
    · exact Nat.zero_le _

theorem newest_longest (hk : k ≤ l.length) (hfits : fieldsSize (l.take k) ≤ room) :
    k ≤ (newest room l).length := by
  induction l generalizing room k with
  | nil => exact hk
  | cons f l ih =>
    cases k with
    | zero => exact Nat.zero_le _
    | succ k =>
      rw [take_succ_cons, fieldsSize, map_cons, sum_cons] at hfits
      rw [newest, if_pos (by omega), length_cons]
      refine Nat.succ_le_succ (ih (Nat.le_of_succ_le_succ hk) ?_)
      rw [fieldsSize]
      omega

theorem newest_of_fits (h : fieldsSize l ≤ room) : newest room l = l := by
  have hlen : l.length ≤ (newest room l).length := newest_longest le_rfl (by rwa [take_length])
  exact (newest_initial room l).eq_of_length_le hlen

theorem newest_append_of_gt {f : Field} (h : room < fieldsSize (l ++ [f])) :
    newest room (l ++ [f]) = newest room l := by
  induction l generalizing room with
  | nil =>
    have hgt : ¬f.size ≤ room := by simpa [fieldsSize] using h
    simp [newest, hgt]
  | cons x l ih =>
    rw [cons_append, fieldsSize, map_cons, sum_cons] at h
    rw [cons_append, newest, newest]
    split
    · rw [ih (by rw [fieldsSize]; omega)]
    · rfl

theorem evict_eq_newest (maxSize : ℕ) (queue : List Field) :
    (evict maxSize queue.reverse (fieldsSize queue)).1.reverse = newest maxSize queue := by
  induction queue using reverseRecOn with
  | nil => rfl
  | append_singleton queue f ih =>
    have hsub : fieldsSize (queue ++ [f]) - f.size = fieldsSize queue := by simp [fieldsSize]
    rw [reverse_append, reverse_singleton, singleton_append, evict, hsub]
    split
    · next hgt => rw [ih, newest_append_of_gt hgt]
    · next hle =>
        rw [newest_of_fits (Nat.le_of_not_lt hle)]
        simp

theorem newest_newest {room' : ℕ} (h : room ≤ room') :
    newest room (newest room' l) = newest room l := by
  induction l generalizing room room' with
  | nil => rfl
  | cons f l ih =>
    rw [newest, newest]
    by_cases hle : f.size ≤ room
    · rw [if_pos (hle.trans h), if_pos hle, newest, if_pos hle, ih (by omega)]
    · rw [if_neg hle]
      split
      · rw [newest, if_neg hle]
      · rfl

namespace DynamicTable

variable (t : DynamicTable)

theorem fitSize_newest : t.fitSize.queue = newest t.maxSize t.queue := by
  simp only [fitSize, t.size_eq]
  exact evict_eq_newest t.maxSize t.queue

theorem apply_insert_queue (f : Field) :
    (t.apply (.insert f)).queue = newest t.maxSize (f :: t.queue) :=
  fitSize_newest _

theorem apply_resize_queue (maxSize : ℕ) :
    (t.apply (.resize maxSize)).queue = newest maxSize t.queue :=
  fitSize_newest _

theorem apply_fits (op : TableOp) : (t.apply op).Fits := by
  cases op <;> exact fitSize_fits _

def after (n : ℕ) (past : List TableOp) : DynamicTable :=
  past.foldr (fun op t => t.apply op) (.withMaxSize n)

end DynamicTable

/-! ## Histories -/

def inserted : List TableOp → List Field
  | [] => []
  | .insert f :: past => f :: inserted past
  | .resize _ :: past => inserted past

def sizeAfter (n : ℕ) : List TableOp → ℕ
  | [] => n
  | .insert _ :: past => sizeAfter n past
  | .resize maxSize :: _ => maxSize

def sinceResize (n : ℕ) : List TableOp → List Field
  | [] => []
  | .insert f :: past => f :: sinceResize n past
  | .resize maxSize :: past => newest maxSize (newest (sizeAfter n past) (sinceResize n past))

/-- The newest `k` insertions have fitted at every moment so far. -/
def HaveFitted (n : ℕ) : List TableOp → ℕ → Prop
  | [], _ => True
  | .insert f :: past, k =>
    fieldsSize ((f :: inserted past).take k) ≤ sizeAfter n past ∧ HaveFitted n past (k - 1)
  | .resize maxSize :: past, k =>
    fieldsSize ((inserted past).take k) ≤ maxSize ∧ HaveFitted n past k

/-- `stored` is the longest beginning of the history for which `fits` holds. -/
structure Longest (history : List Field) (fits : ℕ → Prop) (stored : List Field) : Prop where
  queue : stored = history.take stored.length
  longest : IsGreatest {k | k ≤ history.length ∧ fits k} stored.length

theorem longest_newest (room : ℕ) (l : List Field) :
    Longest l (fun k => fieldsSize (l.take k) ≤ room) (newest room l) where
  queue := prefix_iff_eq_take.mp (newest_initial room l)
  longest := by
    refine ⟨⟨(newest_initial room l).length_le, ?_⟩, fun k hk => newest_longest hk.1 hk.2⟩
    rw [← prefix_iff_eq_take.mp (newest_initial room l)]
    exact newest_fits room l

theorem fieldsSize_take_le {j : ℕ} (h : j ≤ k) : fieldsSize (l.take j) ≤ fieldsSize (l.take k) := by
  have hsub : (l.take j).Sublist (l.take k) := (take_sublist_take_left h)
  exact List.Sublist.sum_le_sum (hsub.map _) (fun _ _ => Nat.zero_le _)

variable {past : List TableOp}

theorem HaveFitted.mono {j : ℕ} (h : HaveFitted n past k) (hjk : j ≤ k) : HaveFitted n past j := by
  induction past generalizing j k with
  | nil => trivial
  | cons op past ih =>
    cases op with
    | insert f => exact ⟨(fieldsSize_take_le hjk).trans h.1, ih h.2 (by omega)⟩
    | resize maxSize => exact ⟨(fieldsSize_take_le hjk).trans h.1, ih h.2 hjk⟩

theorem after_maxSize (n : ℕ) (past : List TableOp) :
    (DynamicTable.after n past).maxSize = sizeAfter n past := by
  induction past with
  | nil => rfl
  | cons op past ih =>
    cases op with
    | insert f => exact ih
    | resize maxSize => rfl

theorem after_newest (n : ℕ) (past : List TableOp) :
    (DynamicTable.after n past).queue = newest (sizeAfter n past) (sinceResize n past) := by
  induction past with
  | nil => rfl
  | cons op past ih =>
    change ((DynamicTable.after n past).apply op).queue = _
    cases op with
    | insert f =>
      rw [apply_insert_queue, after_maxSize, ih, sizeAfter, sinceResize, newest, newest]
      split
      · rw [newest_newest (Nat.sub_le _ _)]
      · rfl
    | resize maxSize =>
      rw [apply_resize_queue, ih, sizeAfter, sinceResize, newest_newest le_rfl]

theorem Longest.cons {history stored : List Field} {fits : ℕ → Prop} (h : Longest history fits stored)
    (f : Field) : Longest (f :: history) (fun k => fits (k - 1)) (f :: stored) where
  queue := by rw [length_cons, take_succ_cons, ← h.queue]
  longest := by
    obtain ⟨⟨hle, hfits⟩, hmost⟩ := h.longest
    refine ⟨⟨Nat.succ_le_succ hle, hfits⟩, fun k hk => ?_⟩
    have hone : k ≤ history.length + 1 := hk.1
    have hless := hmost ⟨by omega, hk.2⟩
    rw [length_cons]
    omega

theorem Longest.newest {history stored : List Field} {fits : ℕ → Prop}
    (h : Longest history fits stored) (hmono : ∀ j k, fits k → j ≤ k → fits j) (room : ℕ) :
    Longest history (fun k => fieldsSize (history.take k) ≤ room ∧ fits k) (newest room stored) := by
  obtain ⟨⟨hle, hfits⟩, hmost⟩ := h.longest
  obtain ⟨htake, ⟨hlen, hroom⟩, hlongest⟩ := longest_newest room stored
  have hsame : ∀ j ≤ stored.length, history.take j = stored.take j := by
    intro j hj
    rw [h.queue, take_take, Nat.min_eq_left hj]
  refine ⟨?_, ⟨⟨hlen.trans hle, ?_, hmono _ _ hfits hlen⟩, ?_⟩⟩
  · rw [hsame _ hlen]
    exact htake
  · rw [hsame _ hlen]
    exact hroom
  · rintro k ⟨hk, hkroom, hkfits⟩
    have hless := hmost ⟨hk, hkfits⟩
    rw [hsame k hless] at hkroom
    exact hlongest ⟨hless, hkroom⟩

theorem after_haveFitted (n : ℕ) (past : List TableOp) :
    Longest (inserted past) (HaveFitted n past) (DynamicTable.after n past).queue := by
  have hmono : ∀ past j k, HaveFitted n past k → j ≤ k → HaveFitted n past j :=
    fun past j k h hjk => h.mono hjk
  induction past with
  | nil => exact ⟨rfl, ⟨Nat.le_refl 0, trivial⟩, fun k hk => hk.1⟩
  | cons op past ih =>
    change Longest _ _ ((DynamicTable.after n past).apply op).queue
    cases op with
    | insert f =>
      rw [apply_insert_queue, after_maxSize]
      exact (ih.cons f).newest (fun j k h hjk => hmono past _ _ h (by omega)) _
    | resize maxSize =>
      rw [apply_resize_queue]
      exact ih.newest (hmono past) maxSize

/-! ## Calls -/

/-- What a representation does to the table. A field that exceeds the limit of the list is not
inserted. -/
def Updater.changes (self : Updater) : Representation → List TableOp
  | .literalWithIndexing n v =>
    match self.getHeaderByName n with
    | none => []
    | some h =>
      if self.lines.headerSize + (h.len + v.length + 32) > self.headerListSize then []
      else [.insert (h, v)]
  | .sizeUpdate maxSize => [.resize maxSize]
  | _ => []

/-- What the loop of `decode` does to the table, behind the past. -/
def HpackDecoder.record : ℕ → Updater → ReprDecoder → List TableOp → List TableOp
  | 0, _, _, past => past
  | fuel + 1, updater, decoder, past =>
    match decoder.decode with
    | (_, .error _) => past
    | (_, .ok none) => past
    | (decoder, .ok (some repr)) =>
      match updater.update repr with
      | (next, .ok ()) => record fuel next decoder (updater.changes repr ++ past)
      | (_, .error _) => updater.changes repr ++ past

theorem Updater.addLine_table (u : Updater) (table : DynamicTable) (h : Header) (v : Bytes) :
    (u.addLine table h v).1.table =
      if u.lines.headerSize + (h.len + v.length + 32) > u.headerListSize then u.table
      else table := by
  simp only [addLine]
  split
  · rfl
  · split <;> rfl

theorem Updater.update_table {u : Updater} (h : u.table = DynamicTable.after n past)
    (repr : Representation) :
    (u.update repr).1.table = DynamicTable.after n (u.changes repr ++ past) := by
  have hstays : ∀ hd v, (u.addLine u.table hd v).1.table = DynamicTable.after n past := by
    intro hd v
    rw [addLine_table, ite_self, h]
  have hliteral : ∀ name v,
      (u.updateLiteralWithoutIndexing name v).1.table = DynamicTable.after n past := by
    intro name v
    rw [updateLiteralWithoutIndexing]
    split
    · exact h
    · exact hstays _ _
  cases repr with
  | indexed index =>
    change (u.updateIndexed index).1.table = DynamicTable.after n past
    rw [updateIndexed]
    split
    · exact h
    · exact hstays _ _
  | literalWithIndexing name v =>
    change (u.updateLiteralWithIndexing name v).1.table = _
    rw [updateLiteralWithIndexing, changes]
    cases u.getHeaderByName name with
    | none => exact h
    | some hd =>
      dsimp only
      rw [addLine_table]
      split
      · exact h
      · rw [h]
        rfl
  | literalWithoutIndexing name v | literalNeverIndexed name v => exact hliteral name v
  | sizeUpdate maxSize =>
    change u.table.updateSize maxSize = _
    rw [h]
    rfl

theorem HpackDecoder.decodeLoop_table {n fuel : ℕ} {past : List TableOp} {u : Updater}
    {decoder : ReprDecoder} (h : u.table = DynamicTable.after n past) :
    (HpackDecoder.decodeLoop fuel u decoder).1.table =
      DynamicTable.after n (HpackDecoder.record fuel u decoder past) := by
  induction fuel generalizing u decoder past with
  | zero => exact h
  | succ fuel ih =>
    rw [decodeLoop, record]
    rcases decoder.decode with ⟨decoder', _ | _ | repr⟩
    · exact h
    · exact h
    · dsimp only
      have hstep := update_table h repr
      rcases hupd : u.update repr with ⟨next, _ | _⟩
      · rw [hupd] at hstep
        exact hstep
      · rw [hupd] at hstep
        exact ih hstep

inductive TableCall where
  | update (h : Header) (v : Bytes)
  | updateSize (maxSize : ℕ)
  | decode (buf : Bytes)
  | finish
  | updateHeaderListSize (size : ℕ)

def HpackDecoder.call (d : HpackDecoder) (past : List TableOp) :
    TableCall → HpackDecoder × List TableOp
  | .update h v => ({ d with table := d.table.update h v }, .insert (h, v) :: past)
  | .updateSize maxSize => ({ d with table := d.table.updateSize maxSize }, .resize maxSize :: past)
  | .decode buf =>
    ((d.decode buf).1, HpackDecoder.record (buf.length + 1)
      { headerListSize := d.headerListSize, table := d.table, lines := d.lines }
      { buf, state := d.holder } past)
  | .finish => (d.finish.1, past)
  | .updateHeaderListSize size => ({ d with headerListSize := size }, past)

def HpackDecoder.calls (d : HpackDecoder) (past : List TableOp) :
    List TableCall → HpackDecoder × List TableOp
  | [] => (d, past)
  | call :: later => calls (d.call past call).1 (d.call past call).2 later

theorem HpackDecoder.call_table (h : d.table = DynamicTable.after n past) (call : TableCall) :
    (d.call past call).1.table = DynamicTable.after n (d.call past call).2 := by
  cases call with
  | update hd v =>
    change d.table.update hd v = _
    rw [h]
    rfl
  | updateSize maxSize =>
    change d.table.updateSize maxSize = _
    rw [h]
    rfl
  | decode buf =>
    have hloop := @HpackDecoder.decodeLoop_table n (buf.length + 1) past
      { headerListSize := d.headerListSize, table := d.table, lines := d.lines }
      { buf, state := d.holder } h
    refine Eq.trans ?_ hloop
    change (d.decode buf).1.table = _
    rw [decode]
    rcases decodeLoop _ _ _ with ⟨updater, decoder, _ | _⟩ <;> rfl
  | finish =>
    change d.finish.1.table = _
    rw [finish]
    split <;> exact h
  | updateHeaderListSize size => exact h

theorem HpackDecoder.calls_table (h : d.table = DynamicTable.after n past) (calls : List TableCall)
    : (d.calls past calls).1.table = DynamicTable.after n (d.calls past calls).2 := by
  induction calls generalizing d past with
  | nil => exact h
  | cons call later ih => exact ih (call_table h call)

structure DynamicTable.Keeps (t : DynamicTable) (n : ℕ) (past : List TableOp) : Prop where
  size : t.currSize = (t.queue.map fun f => f.1.len + f.2.length + 32).sum
  fits : t.currSize ≤ t.maxSize
  maxSize : t.maxSize = sizeAfter n past
  newest : Longest (sinceResize n past)
    (fun k => fieldsSize ((sinceResize n past).take k) ≤ t.maxSize) t.queue
  fitted : Longest (inserted past) (HaveFitted n past) t.queue
  header : ∀ i, t.header i = if i < t.queue.length then (inserted past)[i]? else none

theorem DynamicTable.after_keeps (n : ℕ) (past : List TableOp) : (after n past).Keeps n past where
  size := (after n past).size_eq
  fits := by
    cases past with
    | nil => exact withMaxSize_fits n
    | cons op past => exact apply_fits _ op
  maxSize := after_maxSize n past
  newest := by
    rw [after_maxSize, after_newest]
    exact longest_newest _ _
  fitted := after_haveFitted n past
  header := by
    intro i
    have hqueue := (after_haveFitted n past).queue
    rw [header]
    split
    · next hi => rw [hqueue, getElem?_take, if_pos hi]
    · next hi => exact getElem?_eq_none (Nat.le_of_not_lt hi)

/-- Whatever is called, the table holds the newest insertions that fit, and its size is theirs. -/
theorem hpack_table_invariant (tableSize listSize : ℕ) (calls : List TableCall) :
    (((HpackDecoder.withMaxSize tableSize listSize).calls [] calls).1.table).Keeps tableSize
      ((HpackDecoder.withMaxSize tableSize listSize).calls [] calls).2 := by
  rw [calls_table (rfl : _ = DynamicTable.after tableSize [])]
  exact after_keeps tableSize _

end YlongHttp
