import YlongHttp.Verification.Hpack.Literals
import YlongHttp.Verification.Hpack.Tables

/-! # What a decoder receives of an encoded block

A decoder with the encoder's table reads back the fields of a block, except that a field
of which the encoder found only the name in the dynamic table comes back with the value
of the entry it was found in. The tables stay the same in any case. -/

namespace YlongHttp

open List TableSearcher Updater DynamicTable

/-! ## One field -/

variable (table : DynamicTable)

def NameOnly (f : Field) : Prop :=
  StaticTable.index f.1 f.2 = none ∧ ∃ i, table.index f.1 f.2 = some (.headerName i)

/-- The field that a decoder reads when `f` is encoded. -/
def sentField (f : Field) : Field :=
  match StaticTable.index f.1 f.2, table.index f.1 f.2 with
  | none, some (.headerName i) => (table.header i).getD f
  | _, _ => f

theorem sentField_name (f : Field) : (sentField table f).1 = f.1 := by
  simp only [sentField]
  split
  · rename_i i _ hi
    obtain ⟨v', hv', -⟩ := index_headerName hi
    simp [hv']
  · rfl

theorem sentField_eq_iff (f : Field) : sentField table f = f ↔ ¬ NameOnly table f := by
  obtain ⟨h, v⟩ := f
  simp only [sentField, NameOnly]
  split
  · rename_i i hs hi
    obtain ⟨v', hv', hne⟩ := index_headerName hi
    simp [hv', hne, hs, hi]
  · rename_i hno
    refine ⟨fun _ => ?_, fun _ => rfl⟩
    rintro ⟨hs, i, hi⟩
    exact hno i hs hi

/-- The representations that a field is sent as: an index of what is received, which leaves
the table alone, or a literal, which is added to it. -/
inductive Spells (table : DynamicTable) (useHuffman : Bool) (h : Header) (v : Bytes) :
    Representation → Prop
  | indexed {i : ℕ} (found : searchHeader table i = some (sentField table (h, v)))
      (same : (encodeField table useHuffman h v).2 = table) :
      Spells table useHuffman h v (.indexed i)
  | named {i : ℕ} (found : searchHeaderName table i = some h)
      (sent : sentField table (h, v) = (h, v))
      (added : (encodeField table useHuffman h v).2 = table.update h v) :
      Spells table useHuffman h v (.literalWithIndexing (.index i) v)
  | literal {s : Bytes} (other : h = .other s) (sent : sentField table (h, v) = (h, v))
      (added : (encodeField table useHuffman h v).2 = table.update h v) :
      Spells table useHuffman h v (.literalWithIndexing (.literal s) v)

theorem encodeField_spells (useHuffman : Bool) (h : Header) (v : Bytes) (hfits : table.Fits)
    (hmax : table.maxSize < usizeBound) (hname : h.len < 2 ^ 62) (hval : v.length < 2 ^ 62) :
    ∃ repr,
      (∀ rest, (ReprDecodeState.index .firstByte).decode
        ((encodeField table useHuffman h v).1.octets ++ rest) = (.decoded repr, rest)) ∧
      Spells table useHuffman h v repr := by
  have hsmall : ∀ i, i ≤ 61 → i < usizeBound := by
    intro i hi
    have : usizeBound = 2 ^ 64 := rfl
    omega
  have henc := encodeField.eq_def table useHuffman h v
  have hsent := sentField.eq_def table (h, v)
  rw [TableSearcher.index.eq_def] at henc
  cases hs : StaticTable.index h v with
  | some found =>
    simp only [hs] at henc hsent
    cases found with
    | header i =>
      obtain ⟨hi, hpos, hle⟩ := StaticTable.index_header hs
      simp only at henc
      rw [henc]
      refine ⟨.indexed i, decode_indexed hpos (hsmall i hle), .indexed ?_ (by rw [henc])⟩
      simp only [searchHeader, hle, if_true, hi, hsent]
    | headerName i =>
      obtain ⟨hi, hpos, hle⟩ := StaticTable.index_headerName hs
      have hfound : searchHeaderName table i = some h := by
        simp only [searchHeaderName, hle, if_true, hi]
      cases hd : table.index h v with
      | none =>
        simp only [hd] at henc
        rw [henc]
        exact ⟨.literalWithIndexing (.index i) v, fun rest =>
          decode_indexing hpos (hsmall i hle) useHuffman v rest hval,
          .named hfound hsent (by rw [henc])⟩
      | some found =>
        cases found with
        | header m =>
          have hm := index_header hd
          simp only [hd] at henc
          rw [henc]
          refine ⟨.indexed (m + 62), decode_indexed (by omega) (hfits.index_lt hmax hm),
            .indexed ?_ (by rw [henc])⟩
          simp [searchHeader, hm, hsent]
        | headerName m =>
          simp only [hd] at henc
          rw [henc]
          exact ⟨.literalWithIndexing (.index i) v, fun rest =>
            decode_indexing hpos (hsmall i hle) useHuffman v rest hval,
            .named hfound hsent (by rw [henc])⟩
  | none =>
    cases hd : table.index h v with
    | none =>
      obtain ⟨s, rfl⟩ := StaticTable.index_none hs
      simp only [hs, hd] at henc hsent
      rw [henc]
      exact ⟨.literalWithIndexing (.literal s) v, fun rest =>
        decode_indexingWithName useHuffman s v rest hname hval, .literal rfl hsent (by rw [henc])⟩
    | some found =>
      cases found with
      | header m =>
        have hm := index_header hd
        simp only [hs, hd] at henc hsent
        rw [henc]
        refine ⟨.indexed (m + 62), decode_indexed (by omega) (hfits.index_lt hmax hm),
          .indexed ?_ (by rw [henc])⟩
        simp [searchHeader, hm, hsent]
      | headerName m =>
        obtain ⟨v', hv', -⟩ := index_headerName hd
        simp only [hs, hd] at henc hsent
        rw [henc]
        refine ⟨.indexed (m + 62), decode_indexed (by omega) (hfits.index_lt hmax hv'),
          .indexed ?_ (by rw [henc])⟩
        simp [searchHeader, hv', hsent]

theorem encodeField_received (u : Updater) (useHuffman : Bool) (h : Header) (v : Bytes)
    (hfits : u.table.Fits) (hmax : u.table.maxSize < usizeBound)
    (hname : h.len < 2 ^ 62) (hval : v.length < 2 ^ 62) :
    ∃ repr,
      (∀ rest, (ReprDecodeState.index .firstByte).decode
        ((encodeField u.table useHuffman h v).1.octets ++ rest) = (.decoded repr, rest)) ∧
      u.update repr = u.addLine (encodeField u.table useHuffman h v).2
        (sentField u.table (h, v)).1 (sentField u.table (h, v)).2 := by
  obtain ⟨repr, hdec, hspells⟩ := encodeField_spells u.table useHuffman h v hfits hmax hname hval
  refine ⟨repr, hdec, ?_⟩
  cases hspells with
  | indexed found same => simp [Updater.update, updateIndexed, found, same]
  | named found sent added =>
    simp [Updater.update, updateLiteralWithIndexing, getHeaderByName, found, sent, added]
  | literal other sent added =>
    subst other
    simp [Updater.update, updateLiteralWithIndexing, getHeaderByName, sent, added]

theorem encodeField_fits (useHuffman : Bool) (h : Header) (v : Bytes) (hfits : table.Fits) :
    (encodeField table useHuffman h v).2.Fits ∧
      (encodeField table useHuffman h v).2.maxSize = table.maxSize := by
  simp only [encodeField]
  split
  · exact ⟨hfits, rfl⟩
  · exact ⟨table.update_fits h v, rfl⟩
  · exact ⟨table.update_fits h v, rfl⟩

/-! ## A list of fields -/

/-- The fields that a decoder reads when `fields` are encoded. -/
def sentFields (useHuffman : Bool) (table : DynamicTable) : List Field → List Field
  | [] => []
  | f :: rest =>
    sentField table f :: sentFields useHuffman (encodeField table useHuffman f.1 f.2).2 rest

/-- What the fields do to the decoder's table and lines. -/
def Updater.receive (useHuffman : Bool) (u : Updater) :
    List Field → Updater × Except (Fault H2Error) Unit
  | [] => (u, .ok ())
  | f :: rest =>
    match u.addLine (encodeField u.table useHuffman f.1 f.2).2 (sentField u.table f).1
        (sentField u.table f).2 with
    | (u', .ok ()) => Updater.receive useHuffman u' rest
    | (u', .error e) => (u', .error e)

theorem Updater.addLine_ok {u u' : Updater} {table : DynamicTable} {h : Header} {v : Bytes}
    (hok : u.addLine table h v = (u', .ok ())) :
    ∃ parts, u.lines.parts.update h v = some parts ∧
      u' = { u with
        table
        lines := { parts, headerSize := u.lines.headerSize + Field.size (h, v) } } := by
  simp only [addLine] at hok
  split at hok
  · cases hok
  · split at hok
    · cases hok
    · rename_i parts hparts
      obtain ⟨rfl, -⟩ := Prod.mk.inj hok
      exact ⟨parts, hparts, rfl⟩

theorem HpackDecoder.drive_encodeFields (useHuffman : Bool) (fields : List Field) (u : Updater)
    (fuel : ℕ) (hfits : u.table.Fits) (hmax : u.table.maxSize < usizeBound)
    (hsize : ∀ f ∈ fields, f.size < 2 ^ 62)
    (hfuel : (encodeFields useHuffman u.table fields).1.length ≤ fuel) :
    HpackDecoder.drive fuel u none (encodeFields useHuffman u.table fields).1 =
      ((u.receive useHuffman fields).1, none, (u.receive useHuffman fields).2) := by
  induction fields generalizing u with
  | nil => cases fuel <;> rfl
  | cons f rest ih =>
    obtain ⟨h, v⟩ := f
    have hf : h.len + v.length + 32 < 2 ^ 62 := hsize (h, v) (.head _)
    obtain ⟨repr, hdec, hupd⟩ := encodeField_received u useHuffman h v hfits hmax
      (by omega) (by omega)
    simp only [encodeFields, length_append] at hfuel ⊢
    rw [HpackDecoder.drive, Library.drive_decoded reprDecodeState_consumes (hdec _)
      (by rw [length_append]; exact hfuel), hupd, receive]
    cases hadd : u.addLine (encodeField u.table useHuffman h v).2
        (sentField u.table (h, v)).1 (sentField u.table (h, v)).2 with
    | mk u' res =>
      cases res with
      | error e => rfl
      | ok =>
        obtain ⟨parts, -, hu'⟩ := addLine_ok hadd
        have htable : u'.table = (encodeField u.table useHuffman h v).2 := by rw [hu']
        obtain ⟨hfits', hmax'⟩ := encodeField_fits u.table useHuffman h v hfits
        have hlater := ih u' (by rw [htable]; exact hfits')
          (by rw [htable, hmax']; exact hmax)
          (fun f hf => hsize f (.tail _ hf)) (by rw [htable]; omega)
        rw [htable] at hlater
        exact hlater

theorem Updater.receive_ok {useHuffman : Bool} {fields : List Field} {u u' : Updater}
    (hok : u.receive useHuffman fields = (u', .ok ())) :
    u'.table = (encodeFields useHuffman u.table fields).2 ∧
      (sentFields useHuffman u.table fields).foldlM (fun p f => p.update f.1 f.2)
        u.lines.parts = some u'.lines.parts := by
  induction fields generalizing u with
  | nil =>
    obtain ⟨rfl, -⟩ := Prod.mk.inj hok
    exact ⟨rfl, rfl⟩
  | cons f rest ih =>
    rw [receive] at hok
    split at hok
    · rename_i u₁ hadd
      obtain ⟨parts, hparts, rfl⟩ := addLine_ok hadd
      obtain ⟨htable, hfold⟩ := ih hok
      exact ⟨htable, by simpa [sentFields, foldlM_cons, hparts] using hfold⟩
    · cases hok

theorem Updater.receive_of_collect (useHuffman : Bool) (fields : List Field) (u : Updater)
    (parts : Parts)
    (hsize : u.lines.headerSize + fieldsSize (sentFields useHuffman u.table fields) ≤
      u.headerListSize)
    (hparts : (sentFields useHuffman u.table fields).foldlM (fun p f => p.update f.1 f.2)
      u.lines.parts = some parts) :
    u.receive useHuffman fields =
      ({ u with
        table := (encodeFields useHuffman u.table fields).2
        lines :=
          { parts
            headerSize := u.lines.headerSize +
              fieldsSize (sentFields useHuffman u.table fields) } }, .ok ()) := by
  induction fields generalizing u with
  | nil =>
    cases hparts
    rfl
  | cons f rest ih =>
    simp only [sentFields, fieldsSize, map_cons, sum_cons] at hsize
    simp only [sentFields, foldlM_cons, Option.bind_eq_bind, Option.bind_eq_some_iff]
      at hparts
    obtain ⟨parts₁, hfirst, hrest⟩ := hparts
    have hadd : u.addLine (encodeField u.table useHuffman f.1 f.2).2 (sentField u.table f).1
        (sentField u.table f).2 =
        ({ u with
          table := (encodeField u.table useHuffman f.1 f.2).2
          lines :=
            { parts := parts₁
              headerSize := u.lines.headerSize + (sentField u.table f).size } }, .ok ()) := by
      have hle : ¬ u.lines.headerSize + (sentField u.table f).size > u.headerListSize := by omega
      simp only [Field.size] at hle
      simp only [addLine, hle, if_false, hfirst, Field.size]
    rw [receive, hadd]
    simp only
    rw [ih _ (by simp only [fieldsSize]; omega) hrest]
    simp only [encodeFields, sentFields, fieldsSize, map_cons, sum_cons, Nat.add_assoc]

end YlongHttp
