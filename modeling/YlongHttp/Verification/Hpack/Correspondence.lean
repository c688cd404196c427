import YlongHttp.Verification.Hpack.Syntax
import YlongHttp.Verification.Hpack.Tables

/-! # One representation, in the decoder and in RFC 7541

The decoder treats representations as the reference does, with three exceptions: an
indexed entry of the static table that has no value is refused, a table size above the
configured one is accepted, and a field that the header map does not take makes it
panic. -/

namespace YlongHttp

open List Option DynamicTable TableSearcher
open Rfc7541 (Context entrySize fit)

variable {i room : ℕ} {l : List (Bytes × Bytes)} {t : DynamicTable} {c : Context} {s v : Bytes}
  {f : Field} {hd : Header} {u : Updater}

/-! ## Tables -/

def entryOf (f : Field) : Bytes × Bytes := (f.1.intoString, f.2)

theorem Header.intoString_length (h : Header) : h.intoString.length = h.len := by
  cases h with
  | other s => rfl
  | authority | method | path | scheme | status => decide

theorem entrySize_entryOf (f : Field) : entrySize (entryOf f) = f.size := by
  simp [entrySize, entryOf, Field.size, f.1.intoString_length]

theorem fit_of_le (h : (l.map entrySize).sum ≤ room) : fit room l = l := by
  induction l generalizing room with
  | nil => rfl
  | cons e l ih =>
    simp only [map_cons, sum_cons] at h
    rw [fit, if_pos (by omega), ih (by omega)]

theorem fit_append_gt {e : Bytes × Bytes} (h : room < ((l ++ [e]).map entrySize).sum) :
    fit room (l ++ [e]) = fit room l := by
  induction l generalizing room with
  | nil =>
    have hgt : ¬ entrySize e ≤ room := by simpa using h
    simp [fit, hgt]
  | cons x l ih =>
    simp only [cons_append, map_cons, sum_cons] at h
    simp only [cons_append, fit]
    split
    · rw [ih (by omega)]
    · rfl

theorem evict_eq_fit (maxSize : ℕ) (queue : List Field) :
    (evict maxSize queue.reverse (fieldsSize queue)).1.reverse.map entryOf =
      fit maxSize (queue.map entryOf) := by
  induction queue using reverseRecOn with
  | nil => rfl
  | append_singleton queue f ih =>
    have hsum : ((queue.map entryOf ++ [entryOf f]).map entrySize).sum =
        fieldsSize (queue ++ [f]) := by
      simp [fieldsSize, entrySize_entryOf, Function.comp_def]
    have hsub : fieldsSize (queue ++ [f]) - f.size = fieldsSize queue := by simp [fieldsSize]
    rw [reverse_append, reverse_singleton, singleton_append, evict, hsub, map_append, map_singleton]
    split
    · rename_i hgt
      rw [ih, fit_append_gt (by rw [hsum]; exact hgt)]
    · rename_i hle
      rw [fit_of_le (by rw [hsum]; omega)]
      simp

theorem evict_subset (maxSize : ℕ) (entries : List Field) (currSize : ℕ) :
    (evict maxSize entries currSize).1 ⊆ entries := by
  induction entries generalizing currSize with
  | nil => exact List.Subset.refl _
  | cons e entries ih =>
    rw [evict]
    split
    · exact fun f hf => mem_cons_of_mem _ (ih _ hf)
    · exact List.Subset.refl _

theorem DynamicTable.fitSize_queue (t : DynamicTable) :
    t.fitSize.queue.map entryOf = fit t.maxSize (t.queue.map entryOf) := by
  simp only [fitSize, t.size_eq]
  exact evict_eq_fit t.maxSize t.queue

theorem DynamicTable.fitSize_subset (t : DynamicTable) : t.fitSize.queue ⊆ t.queue := by
  intro f hf
  simp only [fitSize, mem_reverse] at hf
  exact mem_reverse.mp (evict_subset _ _ _ hf)

/-- The reference's table is the decoder's. -/
structure Represents (t : DynamicTable) (c : Context) : Prop where
  entries : c.entries = t.queue.map entryOf
  maxSize : c.maxSize = t.maxSize

theorem Represents.insert (h : Represents t c) (hd : Header) (v : Bytes) :
    Represents (t.update hd v) (c.insert (hd.intoString, v)) where
  entries := by
    rw [update, fitSize_queue]
    simp only [Context.insert, h.entries, h.maxSize, map_cons, entryOf, fit]
  maxSize := h.maxSize

theorem Represents.resize (h : Represents t c) (n : ℕ) :
    Represents (t.updateSize n) (c.resize n) where
  entries := by
    rw [updateSize, fitSize_queue]
    simp only [Context.resize, h.entries]
  maxSize := rfl

/-! ## Looking up -/

theorem staticTable_entries :
    ∀ i < 61, (Rfc7541.staticTable[i]?).map Prod.fst =
        (StaticTable.headerName (i + 1)).map Header.intoString ∧
      (StaticTable.header (i + 1)).map entryOf =
        (Rfc7541.staticTable[i]?).filter fun e => e.2 ≠ [] := by
  decide +kernel

theorem Represents.lookup_name (h : Represents t c) (i : ℕ) :
    (searchHeaderName t i).map Header.intoString = (c.lookup i).map Prod.fst := by
  have hlen : Rfc7541.staticTable.length = 61 := by decide
  simp only [searchHeaderName, Context.lookup]
  rcases Nat.eq_zero_or_pos i with rfl | hpos
  · rfl
  · rw [if_neg (by omega : ¬ i = 0)]
    split
    · rename_i hle
      obtain ⟨hname, -⟩ := staticTable_entries (i - 1) (by omega)
      rw [show i - 1 + 1 = i by omega] at hname
      rw [← hname, getElem?_append_left (by omega)]
    · rename_i hgt
      rw [getElem?_append_right (by omega), hlen, h.entries, getElem?_map,
        show i - 1 - 61 = i - 62 by omega, headerName, Option.map_map, Option.map_map]
      rfl

theorem Represents.lookup_field (h : Represents t c) (i : ℕ) :
    (searchHeader t i).map entryOf =
      (c.lookup i).filter fun e => 61 < i ∨ e.2 ≠ [] := by
  have hlen : Rfc7541.staticTable.length = 61 := by decide
  rcases Nat.eq_zero_or_pos i with rfl | hpos
  · rfl
  · simp only [searchHeader, Context.lookup]
    rw [if_neg (by omega : ¬ i = 0)]
    split
    · rename_i hle
      obtain ⟨-, hfld⟩ := staticTable_entries (i - 1) (by omega)
      rw [show i - 1 + 1 = i by omega] at hfld
      rw [hfld, getElem?_append_left (by omega)]
      simp [Nat.not_lt.mpr hle]
    · rename_i hgt
      rw [getElem?_append_right (by omega), hlen, h.entries, getElem?_map,
        show i - 1 - 61 = i - 62 by omega, header]
      cases t.queue[i - 62]? with
      | none => rfl
      | some f => simp [Option.filter, Nat.lt_of_not_le hgt]

/-! ## The fields the header map takes -/

def headerOf (name : Bytes) : Header :=
  if name = str ":authority" then .authority
  else if name = str ":method" then .method
  else if name = str ":path" then .path
  else if name = str ":scheme" then .scheme
  else if name = str ":status" then .status
  else .other name

def partsOf (parts : Parts) (fields : List (Bytes × Bytes)) : Option Parts :=
  fields.foldlM (fun parts e => parts.update (headerOf e.1) e.2) parts

def Field.taken (f : Field) : Bool :=
  match f.1 with
  | .other s => (normalize s).isSome && f.2.all isValidValueByte
  | _ => true

theorem headerOf_normal (h : (normalize s).isSome = true) : headerOf s = .other s := by
  have hne : ∀ t, normalize t = none → s ≠ t := by
    rintro t ht rfl
    simp [ht] at h
  rw [headerOf, if_neg (hne _ (by decide)), if_neg (hne _ (by decide)), if_neg (hne _ (by decide)),
    if_neg (hne _ (by decide)), if_neg (hne _ (by decide))]

theorem headerOf_intoString (h : f.taken = true) : headerOf f.1.intoString = f.1 := by
  obtain ⟨hd, v⟩ := f
  cases hd with
  | other s => exact headerOf_normal (Bool.and_eq_true_iff.mp h).1
  | authority | method | path | scheme | status => rfl

theorem Parts.update_taken (h : f.taken = true) (parts : Parts) :
    ∃ parts', parts.update f.1 f.2 = some parts' := by
  obtain ⟨hd, v⟩ := f
  cases hd with
  | other s =>
    obtain ⟨hname, hval⟩ := Bool.and_eq_true_iff.mp h
    simp only [Parts.update, Headers.append, HeaderName.fromBytes, HeaderValue.fromBytes]
    split
    · rename_i hnone
      simp [hnone] at hname
    · rw [bind_some, dif_pos hval]
      exact ⟨_, rfl⟩
  | authority | method | path | scheme | status => exact ⟨_, rfl⟩

/-- The decoder's table is the reference's, and its fields can be received again. -/
structure Follows (t : DynamicTable) (c : Context) : Prop where
  represents : Represents t c
  taken : ∀ f ∈ t.queue, f.taken = true

theorem Follows.insert (h : Follows t c) (hf : Field.taken (hd, v) = true) :
    Follows (t.update hd v) (c.insert (hd.intoString, v)) where
  represents := h.represents.insert hd v
  taken := by
    intro g hg
    rcases mem_cons.mp (fitSize_subset _ hg) with rfl | hg
    · exact hf
    · exact h.taken g hg

theorem Follows.resize (h : Follows t c) (n : ℕ) :
    Follows (t.updateSize n) (c.resize n) where
  represents := h.represents.resize n
  taken := fun g hg => h.taken g (fitSize_subset { t with maxSize := n } hg)

theorem staticTable_taken :
    ∀ i < 62, (StaticTable.header i).all Field.taken = true ∧
      (StaticTable.headerName i).all (fun h => Field.taken (h, [])) = true := by
  decide +kernel

theorem Follows.searchHeader_taken (h : Follows t c) (hf : searchHeader t i = some f)
    : f.taken = true := by
  simp only [searchHeader] at hf
  split at hf
  · obtain ⟨hfld, -⟩ := staticTable_taken i (by omega)
    rw [hf] at hfld
    simpa using hfld
  · exact h.taken f (mem_of_getElem? hf)

theorem Follows.searchHeaderName_normal (h : Follows t c)
    (hf : searchHeaderName t i = some (.other s)) : (normalize s).isSome = true := by
  simp only [searchHeaderName] at hf
  split at hf
  · obtain ⟨-, hempty⟩ := staticTable_taken i (by omega)
    rw [hf] at hempty
    simpa [Field.taken] using hempty
  · simp only [headerName, map_eq_some_iff] at hf
    obtain ⟨⟨hd, v⟩, hget, rfl⟩ := hf
    exact (Bool.and_eq_true_iff.mp (h.taken _ (mem_of_getElem? hget))).1

/-! ## One representation -/

def pseudoNames : List Bytes :=
  [str ":authority", str ":method", str ":path", str ":scheme", str ":status"]

def RegularLiteral (name : Name) (n v : Bytes) : Prop :=
  match name with
  | .index _ => n ∈ pseudoNames ∨ v.all isValidValueByte = true
  | .literal s => (normalize s).isSome = true ∧ v.all isValidValueByte = true

/-- A representation on which the decoder does not part from the reference. `room` is what
is left of the header list limit. -/
def Regular (limit room : ℕ) (c : Context) : Representation → Prop
  | .indexed i => ∀ e, c.lookup i = some e → entrySize e ≤ room → i ≤ 61 → e.2 ≠ []
  | .literalWithIndexing nm v | .literalWithoutIndexing nm v | .literalNeverIndexed nm v =>
    ∀ n, c.nameOf nm = some n → entrySize (n, v) ≤ room → RegularLiteral nm n v
  | .sizeUpdate n => n ≤ limit

theorem Follows.getHeaderByName (h : Follows u.table c) (nm : Name) :
    (u.getHeaderByName nm).map Header.intoString = c.nameOf nm := by
  cases nm with
  | index i => exact h.represents.lookup_name i
  | literal s => rfl

theorem Follows.getHeaderByName_taken (h : Follows u.table c) {nm : Name}
    (hhd : u.getHeaderByName nm = some hd) (hreg : RegularLiteral nm hd.intoString v) :
    Field.taken (hd, v) = true := by
  cases nm with
  | literal s =>
    cases hhd
    exact Bool.and_eq_true_iff.mpr hreg
  | index i =>
    cases hd with
    | other s =>
      have hnormal := h.searchHeaderName_normal hhd
      have hpseudo : s ∉ pseudoNames := by
        intro hs
        have hnone : ∀ t ∈ pseudoNames, normalize t = none := by decide
        simp [hnone s hs] at hnormal
      exact Bool.and_eq_true_iff.mpr ⟨hnormal, hreg.resolve_left hpseudo⟩
    | authority | method | path | scheme | status => rfl

theorem Updater.addLine_taken (u : Updater) (table : DynamicTable) (hf : Field.taken (hd, v) = true)
    (hsize : u.lines.headerSize + entrySize (hd.intoString, v) ≤ u.headerListSize) :
    ∃ parts, u.lines.parts.update (headerOf hd.intoString) v = some parts ∧
      u.addLine table hd v =
        ({ u with
          table
          lines :=
            { parts
              headerSize := u.lines.headerSize + entrySize (hd.intoString, v) } }, .ok ()) := by
  obtain ⟨parts, hparts⟩ := u.lines.parts.update_taken hf
  have hent : entrySize (hd.intoString, v) = hd.len + v.length + 32 := entrySize_entryOf (hd, v)
  rw [hent] at hsize ⊢
  have hhd : headerOf hd.intoString = hd := headerOf_intoString hf
  refine ⟨parts, by rw [hhd]; exact hparts, ?_⟩
  have hle : ¬ u.lines.headerSize + (hd.len + v.length + 32) > u.headerListSize := by omega
  simp only [addLine, hle, if_false, hparts]

theorem Updater.addLine_exceeds (u : Updater) (table : DynamicTable)
    (hsize : u.headerListSize < u.lines.headerSize + entrySize (hd.intoString, v)) :
    (u.addLine table hd v).2 = .error (.error (.connectionError .connectError)) := by
  have hent : entrySize (hd.intoString, v) = hd.len + v.length + 32 := entrySize_entryOf (hd, v)
  rw [hent] at hsize
  simp only [addLine, gt_iff_lt, hsize, if_true]

/-- What the decoder does with a regular representation, by what the reference does. -/
inductive Mirrors (u : Updater) :
    Option (Context × Option (Bytes × Bytes)) → Updater × Except (Fault H2Error) Unit → Prop
  | refused (u' : Updater) (e : H2Error) : Mirrors u none (u', .error (.error e))
  | applied {table : DynamicTable} {c : Context} (follows : Follows table c) :
      Mirrors u (some (c, none)) ({ u with table }, .ok ())
  | field {table : DynamicTable} {c : Context} {e : Bytes × Bytes} {parts : Parts}
      (follows : Follows table c)
      (fits : u.lines.headerSize + entrySize e ≤ u.headerListSize)
      (update : u.lines.parts.update (headerOf e.1) e.2 = some parts) :
      Mirrors u (some (c, some e))
        ({ u with table, lines := { parts, headerSize := u.lines.headerSize + entrySize e } },
          .ok ())
  | exceeds {c : Context} {e : Bytes × Bytes} {u' : Updater} {err : H2Error}
      (exceeds : u.headerListSize < u.lines.headerSize + entrySize e) :
      Mirrors u (some (c, some e)) (u', .error (.error err))

theorem Mirrors.addLine {table : DynamicTable}
    (hf : u.lines.headerSize + entrySize (hd.intoString, v) ≤ u.headerListSize →
      Field.taken (hd, v) = true ∧ Follows table c) :
    Mirrors u (some (c, some (hd.intoString, v))) (u.addLine table hd v) := by
  rcases Nat.lt_or_ge u.headerListSize (u.lines.headerSize + entrySize (hd.intoString, v)) with
    hlt | hle
  · have herr := u.addLine_exceeds table hlt
    rw [← Prod.mk.eta (p := u.addLine table hd v), herr]
    exact .exceeds hlt
  · obtain ⟨htaken, hfollows⟩ := hf hle
    obtain ⟨parts, hparts, hadd⟩ := u.addLine_taken table htaken hle
    rw [hadd]
    exact .field hfollows hle hparts

theorem Mirrors.literal {u : Updater} {c : Context} {room : ℕ} (h : Follows u.table c)
    (hroom : u.lines.headerSize + room = u.headerListSize) {nm : Name} {v : Bytes} (add : Bool)
    (hreg : ∀ n, c.nameOf nm = some n → entrySize (n, v) ≤ room → RegularLiteral nm n v)
    (result : Updater × Except (Fault H2Error) Unit)
    (hnone : u.getHeaderByName nm = none → ∃ e, result = (u, .error (.error e)))
    (hsome : ∀ hd, u.getHeaderByName nm = some hd →
      result = u.addLine (if add then u.table.update hd v else u.table) hd v) :
    Mirrors u
      ((c.nameOf nm).map fun n => (if add then c.insert (n, v) else c, some (n, v))) result := by
  have hname := h.getHeaderByName nm
  cases hhd : u.getHeaderByName nm with
  | none =>
    rw [hhd] at hname
    obtain ⟨e, rfl⟩ := hnone hhd
    rw [← hname]
    exact .refused u e
  | some hd =>
    rw [hhd] at hname
    rw [hsome hd hhd, ← hname]
    apply Mirrors.addLine
    intro hle
    have htaken := h.getHeaderByName_taken hhd (hreg _ hname.symm (by omega))
    refine ⟨htaken, ?_⟩
    cases add with
    | true => exact h.insert htaken
    | false => exact h

theorem Updater.update_mirrors {limit : ℕ} {r : Representation} (h : Follows u.table c)
    (hroom : u.lines.headerSize + room = u.headerListSize) (hreg : Regular limit room c r) :
    Mirrors u (c.apply limit r) (u.update r) := by
  cases r with
  | indexed i =>
    have hfld := h.represents.lookup_field i
    simp only [Context.apply, update, updateIndexed]
    cases hf : searchHeader u.table i with
    | some f =>
      rw [hf, map_some, eq_comm, filter_eq_some_iff] at hfld
      rw [hfld.1]
      exact Mirrors.addLine fun _ => ⟨h.searchHeader_taken hf, h⟩
    | none =>
      rw [hf, map_none, eq_comm, filter_eq_none_iff] at hfld
      cases he : c.lookup i with
      | none => exact .refused u compressionError
      | some e =>
        -- An entry without a value: the reference finds no room for it.
        have hempty := hfld e he
        refine .exceeds ?_
        by_contra hle
        have hval := hreg e he (by omega)
        rcases Nat.lt_or_ge 61 i with hi | hi
        · exact hempty (by simp [hi])
        · exact hempty (by simp [hval hi])
  | literalWithIndexing nm v =>
    refine Mirrors.literal h hroom true hreg _ ?_ ?_
    · intro hnone
      exact ⟨compressionError, by simp only [update, updateLiteralWithIndexing, hnone]⟩
    · intro hd hhd
      simp only [update, updateLiteralWithIndexing, hhd, if_true]
  | literalWithoutIndexing nm v | literalNeverIndexed nm v =>
    refine Mirrors.literal h hroom false hreg _ ?_ ?_
    · intro hnone
      exact ⟨compressionError, by simp only [update, updateLiteralWithoutIndexing, hnone]⟩
    · intro hd hhd
      simp only [update, updateLiteralWithoutIndexing, hhd, Bool.false_eq_true, if_false]
  | sizeUpdate n =>
    have hle : n ≤ limit := hreg
    simp only [Context.apply, hle, if_true]
    exact .applied (h.resize n)

end YlongHttp
