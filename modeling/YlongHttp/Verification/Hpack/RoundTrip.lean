import YlongHttp.Verification.Hpack.Blocks

/-! # Header blocks survive a connection

An encoder and a decoder with tables of the same size exchange one header block after
another. The decoder gets every block back exactly as it was, and both tables stay the
same, as long as the encoder never finds just the name of a field in the dynamic table:
then it writes the index of the whole entry. -/

namespace YlongHttp

open List

variable {parts parts' received : Parts} {useHuffman : Bool} {table : DynamicTable}
  {e : HpackEncoder} {limit : ℕ}

/-! ## The fields of a block are a header map -/

theorem HeaderName.fromBytes_name (n : HeaderName) : HeaderName.fromBytes n.name = some n := by
  obtain ⟨name, normal⟩ := n
  simp only [HeaderName.fromBytes]
  split
  · rename_i h
    rw [normal] at h
    cases h
  · rename_i name' h
    obtain rfl : name = name' := Option.some.inj (normal.symm.trans h)
    rfl

theorem HeaderValue.fromBytes_toString {bytes : Bytes} {v : HeaderValue}
    (h : HeaderValue.fromBytes bytes = some v) : v.toString = bytes := by
  simp only [HeaderValue.fromBytes] at h
  split at h
  · cases h
    simp [HeaderValue.toString]
  · cases h

theorem HeaderValue.toString_valid (v : HeaderValue) : v.toString.all isValidValueByte = true := by
  have hsep : (str ", ").all isValidValueByte = true := by decide
  obtain ⟨inner, isSensitive, valid⟩ := v
  simp only [HeaderValue.toString]
  induction inner with
  | nil => rfl
  | cons value inner ih =>
    have hval := valid value (.head _)
    have hrest := ih fun w hw => valid w (.tail _ hw)
    cases inner with
    | nil => simpa using hval
    | cons next inner =>
      rw [intersperse_cons_cons, flatten_cons, flatten_cons, all_append,
        all_append, hval, hsep, hrest]
      rfl

theorem HeaderValue.fromBytes_valid (v : HeaderValue) :
    ∃ w, HeaderValue.fromBytes v.toString = some w := by
  simp [HeaderValue.fromBytes, v.toString_valid]

theorem appendEntry_new {name : HeaderName} {value : HeaderValue}
    {entries : List (HeaderName × HeaderValue)} (h : name ∉ entries.map Prod.fst) :
    appendEntry name value entries = entries ++ [(name, value)] := by
  induction entries with
  | nil => rfl
  | cons entry rest ih =>
    obtain ⟨n, v⟩ := entry
    simp only [map_cons, mem_cons, not_or] at h
    have hne : ¬ n = name := fun heq => h.1 heq.symm
    simp [appendEntry, hne, ih h.2]

theorem Parts.update_other {n : HeaderName} {v : Bytes} (hnew : n ∉ parts.map.entries.map Prod.fst)
    (h : parts.update (.other n.name) v = some parts') :
    parts'.pseudo = parts.pseudo ∧
      parts'.map.entries.map Prod.fst = parts.map.entries.map Prod.fst ++ [n] ∧
      mapFields parts'.map.entries = mapFields parts.map.entries ++ [(.other n.name, v)] := by
  simp only [update, Headers.append, n.fromBytes_name, Option.bind_some, Option.map_map,
    Option.map_eq_some_iff] at h
  obtain ⟨value, hval, rfl⟩ := h
  simp [appendEntry_new hnew, mapFields, HeaderValue.fromBytes_toString hval]

theorem collect_others (names : List HeaderName) {fields : List Field}
    (hnames : fields.map Prod.fst = names.map fun n => .other n.name) (hnodup : names.Nodup)
    (hnew : ∀ n ∈ names, n ∉ parts.map.entries.map Prod.fst)
    (h : fields.foldlM (fun p f => p.update f.1 f.2) parts = some parts') :
    parts'.pseudo = parts.pseudo ∧
      mapFields parts'.map.entries = mapFields parts.map.entries ++ fields := by
  induction names generalizing fields parts with
  | nil =>
    obtain rfl : fields = [] := by simpa using hnames
    cases h
    simp
  | cons n names ih =>
    obtain ⟨f, rest, rfl⟩ : ∃ f rest, fields = f :: rest := by
      cases fields with
      | nil => cases hnames
      | cons f rest => exact ⟨f, rest, rfl⟩
    obtain ⟨h', v⟩ := f
    simp only [map_cons, cons.injEq] at hnames
    obtain ⟨rfl, hrest⟩ := hnames
    simp only [foldlM_cons, Option.bind_eq_bind, Option.bind_eq_some_iff] at h
    obtain ⟨parts₁, hfirst, hlater⟩ := h
    obtain ⟨hpseudo, hkeys, hflds⟩ := Parts.update_other (hnew n (.head _)) hfirst
    obtain ⟨hn, hnodup'⟩ := nodup_cons.mp hnodup
    obtain ⟨hpseudo', hflds'⟩ := ih hrest hnodup' (by
      intro m hm
      rw [hkeys, mem_append, not_or]
      refine ⟨hnew m (.tail _ hm), ?_⟩
      intro hmn
      obtain rfl := mem_singleton.mp hmn
      exact hn hm) hlater
    refine ⟨hpseudo'.trans hpseudo, ?_⟩
    rw [hflds', hflds, append_assoc, singleton_append]

theorem collect_mapFields (entries : List (HeaderName × HeaderValue)) (parts : Parts) :
    ∃ parts', (mapFields entries).foldlM (fun p f => p.update f.1 f.2) parts = some parts' := by
  induction entries generalizing parts with
  | nil => exact ⟨parts, rfl⟩
  | cons entry entries ih =>
    obtain ⟨n, v⟩ := entry
    obtain ⟨w, hw⟩ := v.fromBytes_valid
    obtain ⟨parts₁, hfirst⟩ : ∃ p, parts.update (.other n.name) v.toString = some p := by
      simp [Parts.update, Headers.append, n.fromBytes_name, hw]
    obtain ⟨parts', hlater⟩ := ih parts₁
    exact ⟨parts', by simpa [mapFields, foldlM_cons, hfirst] using hlater⟩

def pseudoFields (p : PseudoHeaders) : List Field :=
  pseudoField .method p.method ++ pseudoField .status p.status ++ pseudoField .scheme p.scheme ++
    pseudoField .path p.path ++ pseudoField .authority p.authority

theorem Parts.fields_eq (parts : Parts) :
    parts.fields = pseudoFields parts.pseudo ++ mapFields parts.map.entries := by
  simp [Parts.fields, PartsIter.fields, PartsIter.new, pseudoFields]

theorem collect_pseudoFields (p : PseudoHeaders) :
    (pseudoFields p).foldlM (fun p f => Parts.update p f.1 f.2) Parts.new =
      some { pseudo := p, map := Headers.new } := by
  obtain ⟨authority, method, path, scheme, status⟩ := p
  cases authority <;> cases method <;> cases path <;> cases scheme <;> cases status <;> rfl

/-! ## Fields sent -/

theorem sentFields_append (useHuffman : Bool) (table : DynamicTable) (a b : List Field) :
    sentFields useHuffman table (a ++ b) =
      sentFields useHuffman table a ++
        sentFields useHuffman (encodeFields useHuffman table a).2 b := by
  induction a generalizing table with
  | nil => rfl
  | cons f a ih => simp [sentFields, encodeFields, ih]

theorem sentFields_names (useHuffman : Bool) (table : DynamicTable) (fields : List Field) :
    (sentFields useHuffman table fields).map Prod.fst = fields.map Prod.fst := by
  induction fields generalizing table with
  | nil => rfl
  | cons f fields ih => simp [sentFields, sentField_name, ih]

def NoNameOnly (useHuffman : Bool) (table : DynamicTable) : List Field → Prop
  | [] => True
  | f :: rest =>
    ¬ NameOnly table f ∧ NoNameOnly useHuffman (encodeField table useHuffman f.1 f.2).2 rest

theorem sentFields_eq_iff (useHuffman : Bool) (table : DynamicTable) (fields : List Field) :
    sentFields useHuffman table fields = fields ↔ NoNameOnly useHuffman table fields := by
  induction fields generalizing table with
  | nil => simp [sentFields, NoNameOnly]
  | cons f fields ih => simp [sentFields, NoNameOnly, sentField_eq_iff, ih]

theorem sentFields_pseudoFields (useHuffman : Bool) (table : DynamicTable) (p : PseudoHeaders) :
    sentFields useHuffman table (pseudoFields p) = pseudoFields p := by
  have hall : ∀ fields : List Field, (∀ f ∈ fields, ∀ s, f.1 ≠ .other s) → ∀ table,
      NoNameOnly useHuffman table fields := by
    intro fields
    induction fields with
    | nil => exact fun _ _ => trivial
    | cons f fields ih =>
      intro hf table
      refine ⟨?_, ih (fun g hg => hf g (.tail _ hg)) _⟩
      rintro ⟨hs, -⟩
      obtain ⟨s, hs'⟩ := StaticTable.index_none hs
      exact hf f (.head _) s hs'
  rw [sentFields_eq_iff]
  apply hall
  intro f hf s
  simp only [pseudoFields, pseudoField, mem_append, mem_map, Option.mem_toList] at hf
  rcases hf with ((((⟨v, -, rfl⟩ | ⟨v, -, rfl⟩) | ⟨v, -, rfl⟩) | ⟨v, -, rfl⟩) | ⟨v, -, rfl⟩) <;>
    simp

/-! ## One block -/

def Parts.Same (received sent : Parts) : Prop :=
  received.pseudo = sent.pseudo ∧ mapFields received.map.entries = mapFields sent.map.entries

theorem collect_sent
    (h : (sentFields useHuffman table parts.fields).foldlM (fun p f => Parts.update p f.1 f.2)
      Parts.new = some received) :
    received.Same parts ↔ NoNameOnly useHuffman table parts.fields := by
  rw [← sentFields_eq_iff]
  rw [Parts.fields_eq, sentFields_append, sentFields_pseudoFields] at h ⊢
  rw [foldlM_append, collect_pseudoFields, Option.bind_eq_bind, Option.bind_some] at h
  obtain ⟨hpseudo, hmap⟩ := collect_others (parts.map.entries.map Prod.fst)
    (by rw [sentFields_names]; simp [mapFields]) parts.map.nodup (by simp [Headers.new]) h
  rw [show mapFields Headers.new.entries = [] from rfl, nil_append] at hmap
  rw [append_cancel_left_eq, ← hmap]
  exact ⟨fun hsame => hsame.2, fun hflds => ⟨hpseudo, hflds⟩⟩

theorem collect_parts (parts : Parts) :
    ∃ received, parts.fields.foldlM (fun p f => Parts.update p f.1 f.2) Parts.new =
      some received := by
  obtain ⟨received, h⟩ := collect_mapFields parts.map.entries
    { pseudo := parts.pseudo, map := Headers.new }
  refine ⟨received, ?_⟩
  rw [Parts.fields_eq, foldlM_append, collect_pseudoFields]
  exact h

/-! ## Connections -/

/-- The calls of `encode` until the block is finished, at most `k`, with the octets each of
them wrote; the buffer of the `i`-th call has `caps i` octets. -/
def HpackEncoder.encodeAll (caps : ℕ → ℕ) : ℕ → HpackEncoder → List Bytes × HpackEncoder
  | 0, e => ([], e)
  | k + 1, e =>
    if e.isFinished then ([], e)
    else
      let first := e.encode (caps 0)
      let later := HpackEncoder.encodeAll (fun i => caps (i + 1)) k first.2
      (first.1 :: later.1, later.2)

/-- The calls of `decode` with one fragment after another, up to the first error. -/
def HpackDecoder.decodeAll : HpackDecoder → List Bytes → HpackDecoder × Except (Fault H2Error) Unit
  | d, [] => (d, .ok ())
  | d, fragment :: fragments =>
    match d.decode fragment with
    | (d', .ok ()) => HpackDecoder.decodeAll d' fragments
    | (d', .error e) => (d', .error e)

/-- Every block of the list is encoded, in finitely many calls whatever the buffers, and
read back as it was, and both tables hold the same entries after it. -/
inductive RoundTrips : HpackEncoder → HpackDecoder → List (Parts × (ℕ → ℕ)) → Prop
  | nil (e : HpackEncoder) (d : HpackDecoder) : RoundTrips e d []
  | cons {e e' : HpackEncoder} {d d₁ d' : HpackDecoder} {parts received : Parts}
      {caps : ℕ → ℕ} {k : ℕ} {fragments : List Bytes} {blocks : List (Parts × (ℕ → ℕ))}
      (encoded : (e.setParts parts).encodeAll caps k = (fragments, e'))
      (finished : e'.isFinished = true)
      (decoded : d.decodeAll fragments = (d₁, .ok ()))
      (read : d₁.finish = (d', .ok received))
      (same : received.Same parts)
      (tables : e'.table.queue = d'.table.queue)
      (later : RoundTrips e' d' blocks) :
      RoundTrips e d ((parts, caps) :: blocks)

theorem HpackDecoder.decodeAll_flatten (d : HpackDecoder) (fragments : List Bytes) :
    d.decodeAll fragments = d.decode fragments.flatten := by
  induction fragments generalizing d with
  | nil => rfl
  | cons fragment fragments ih =>
    rw [decodeAll, flatten_cons, decode_append]
    cases d.decode fragment with
    | mk d' res =>
      cases res with
      | error e => rfl
      | ok u => exact ih d'

theorem HpackEncoder.pending_of_isFinished (h : e.isFinished = true) :
    e.pending = ([], e.table) := by
  obtain ⟨table, iter, state, useHuffman⟩ := e
  simp only [isFinished, Bool.and_eq_true, Option.isNone_iff_eq_none] at h
  obtain ⟨rfl, rfl⟩ := h
  rfl

theorem HpackEncoder.encodeAll_spec (caps : ℕ → ℕ) (hcaps : ∀ i, 0 < caps i) (k : ℕ)
    (e : HpackEncoder) :
    ((e.encodeAll caps k).2.isFinished = true →
      (e.encodeAll caps k).1.flatten = e.pending.1 ∧
        (e.encodeAll caps k).2.table = e.pending.2 ∧
        (e.encodeAll caps k).2.useHuffman = e.useHuffman) ∧
      (e.pending.1.length < k → (e.encodeAll caps k).2.isFinished = true) := by
  induction k generalizing caps e with
  | zero =>
    refine ⟨?_, by omega⟩
    intro h
    have hpend : e.pending = ([], e.table) := pending_of_isFinished h
    simp [encodeAll, hpend]
  | succ k ih =>
    obtain ⟨hout, hpend, hhuff, hfin⟩ := e.encode_spec (caps 0) (hcaps 0)
    have hpos := hcaps 0
    by_cases hstart : e.isFinished = true
    · simp [encodeAll, hstart, pending_of_isFinished hstart]
    · obtain ⟨hdone, hends⟩ := ih (fun i => caps (i + 1)) (fun i => hcaps (i + 1))
        (e.encode (caps 0)).2
      rw [hpend, hhuff] at hdone
      rw [hpend, length_drop] at hends
      simp only [encodeAll, hstart]
      refine ⟨?_, ?_⟩
      · intro h
        obtain ⟨hflat, htable, hhuff'⟩ := hdone h
        refine ⟨?_, htable, hhuff'⟩
        simp only [Bool.false_eq_true, if_false, flatten_cons, hflat, hout, take_append_drop]
      · intro h
        simp only [Bool.false_eq_true, if_false]
        rcases Nat.lt_or_ge (caps 0) e.pending.1.length with hlt | hge
        · exact hends (by omega)
        · -- The last call finishes the block: no later one is made.
          have hlast := hfin.mpr hge
          cases k with
          | zero => exact hlast
          | succ k => simp [encodeAll, hlast]

def HpackEncoder.idle (table : DynamicTable) (useHuffman : Bool) : HpackEncoder :=
  { table, iter := none, state := none, useHuffman }

theorem HpackEncoder.eq_idle (h : e.isFinished = true) : e = idle e.table e.useHuffman := by
  obtain ⟨table, iter, state, useHuffman⟩ := e
  simp only [isFinished, Bool.and_eq_true, Option.isNone_iff_eq_none] at h
  obtain ⟨rfl, rfl⟩ := h
  rfl

theorem HpackEncoder.idle_pending (table : DynamicTable) (useHuffman : Bool) (parts : Parts) :
    ((idle table useHuffman).setParts parts).pending =
      encodeFields useHuffman table parts.fields := rfl

theorem HpackDecoder.idle_decode (limit : ℕ) (table : DynamicTable) (useHuffman : Bool)
    (parts : Parts) (hfits : table.Fits) (hmax : table.maxSize < usizeBound)
    (hsize : fieldsSize parts.fields < 2 ^ 62) :
    (idle limit table).decode (encodeFields useHuffman table parts.fields).1 =
      ({ idle limit table with
          table := ((idle limit table).updater.receive useHuffman parts.fields).1.table
          lines := ((idle limit table).updater.receive useHuffman parts.fields).1.lines },
        ((idle limit table).updater.receive useHuffman parts.fields).2) := by
  have hflds : ∀ f ∈ parts.fields, f.size < 2 ^ 62 := by
    intro f hf
    have hle : f.size ≤ fieldsSize parts.fields := single_le_sum (by simp) _ (mem_map_of_mem hf)
    omega
  have hdrive := drive_encodeFields useHuffman parts.fields (idle limit table).updater _ hfits
    hmax hflds le_rfl
  rw [show (idle limit table).updater.table = table from rfl] at hdrive
  rw [decode_eq_drive _ _ _ le_rfl, show (idle limit table).holder = none from rfl, hdrive]
  cases hr : (idle limit table).updater.receive useHuffman parts.fields with
  | mk u res =>
    cases res with
    | ok => rfl
    | error e => rfl

theorem encodeFields_fits (useHuffman : Bool) (table : DynamicTable) (fields : List Field)
    (hfits : table.Fits) :
    (encodeFields useHuffman table fields).2.Fits ∧
      (encodeFields useHuffman table fields).2.maxSize = table.maxSize := by
  induction fields generalizing table with
  | nil => exact ⟨hfits, rfl⟩
  | cons f fields ih =>
    obtain ⟨hfits', hmax⟩ := encodeField_fits table useHuffman f.1 f.2 hfits
    obtain ⟨hlater, hmax'⟩ := ih (encodeField table useHuffman f.1 f.2).2 hfits'
    exact ⟨hlater, hmax'.trans hmax⟩

theorem HpackDecoder.idle_decode_ok (hfits : table.Fits) (hmax : table.maxSize < usizeBound)
    (hsize : fieldsSize parts.fields < 2 ^ 62) {d₁ d' : HpackDecoder}
    (hdec : (idle limit table).decode (encodeFields useHuffman table parts.fields).1 =
      (d₁, .ok ())) (hfin : d₁.finish = (d', .ok received)) :
    d' = idle limit (encodeFields useHuffman table parts.fields).2 ∧
      (received.Same parts ↔ NoNameOnly useHuffman table parts.fields) := by
  rw [idle_decode limit table useHuffman parts hfits hmax hsize] at hdec
  cases hr : (idle limit table).updater.receive useHuffman parts.fields with
  | mk u res =>
    rw [hr] at hdec
    cases hdec
    obtain ⟨htable, hfold⟩ := Updater.receive_ok hr
    obtain ⟨hd', hrecv⟩ := Prod.mk.inj hfin
    obtain rfl : u.lines.parts = received := Except.ok.inj hrecv
    refine ⟨?_, collect_sent hfold⟩
    rw [← hd', htable]
    rfl

theorem HpackDecoder.idle_decode_plain (hfits : table.Fits) (hmax : table.maxSize < usizeBound)
    (hsize : fieldsSize parts.fields < 2 ^ 62) (hlimit : fieldsSize parts.fields ≤ limit)
    (hplain : NoNameOnly useHuffman table parts.fields) :
    ∃ d₁ received,
      (idle limit table).decode (encodeFields useHuffman table parts.fields).1 = (d₁, .ok ()) ∧
        d₁.finish = (idle limit (encodeFields useHuffman table parts.fields).2, .ok received) ∧
        received.Same parts := by
  obtain ⟨received, hcollect⟩ := collect_parts parts
  have hsent := (sentFields_eq_iff useHuffman table parts.fields).mpr hplain
  have hsame : received.Same parts := (collect_sent (by rw [hsent]; exact hcollect)).mpr hplain
  have hreceive := Updater.receive_of_collect useHuffman parts.fields (idle limit table).updater
    received
    (by
      change 0 + fieldsSize (sentFields useHuffman table parts.fields) ≤ limit
      rw [hsent, Nat.zero_add]
      exact hlimit)
    (by
      change (sentFields useHuffman table parts.fields).foldlM _ Parts.new = some received
      rw [hsent]
      exact hcollect)
  have hdec := idle_decode limit table useHuffman parts hfits hmax hsize
  rw [hreceive] at hdec
  exact ⟨_, received, hdec, rfl, hsame⟩

theorem roundTrips_cons {caps : ℕ → ℕ} (hfits : table.Fits) (hmax : table.maxSize < usizeBound)
    (hcaps : ∀ i, 0 < caps i) (hsize : fieldsSize parts.fields < 2 ^ 62)
    (hlimit : fieldsSize parts.fields ≤ limit) (blocks : List (Parts × (ℕ → ℕ))) :
    RoundTrips (.idle table useHuffman) (.idle limit table) ((parts, caps) :: blocks) ↔
      NoNameOnly useHuffman table parts.fields ∧
        RoundTrips (.idle (encodeFields useHuffman table parts.fields).2 useHuffman)
          (.idle limit (encodeFields useHuffman table parts.fields).2) blocks := by
  have hspec := fun k => HpackEncoder.encodeAll_spec caps hcaps k
    ((HpackEncoder.idle table useHuffman).setParts parts)
  simp only [HpackEncoder.idle_pending] at hspec
  constructor
  · intro hround
    cases hround with
    | cons encoded finished decoded read same tables later =>
      rename_i e' d₁ d' received k fragments
      obtain ⟨hdone, -⟩ := hspec k
      rw [encoded] at hdone
      obtain ⟨hflat, htable, hhuff⟩ := hdone finished
      rw [HpackDecoder.decodeAll_flatten] at decoded
      simp only at hflat
      rw [hflat] at decoded
      obtain ⟨rfl, hiff⟩ := HpackDecoder.idle_decode_ok hfits hmax hsize decoded read
      refine ⟨hiff.mp same, ?_⟩
      rw [HpackEncoder.eq_idle finished] at later
      simp only at htable hhuff
      rw [htable, hhuff] at later
      exact later
  · rintro ⟨hplain, hlater⟩
    obtain ⟨d₁, received, hdec, hread, hsame⟩ :=
      HpackDecoder.idle_decode_plain hfits hmax hsize hlimit hplain
    obtain ⟨hdone, hends⟩ := hspec ((encodeFields useHuffman table parts.fields).1.length + 1)
    have hfinished := hends (by omega)
    obtain ⟨hflat, htable, hhuff⟩ := hdone hfinished
    refine RoundTrips.cons rfl hfinished ?_ hread hsame ?_ ?_
    · rw [HpackDecoder.decodeAll_flatten, hflat]
      exact hdec
    · rw [htable]
      rfl
    · rw [HpackEncoder.eq_idle hfinished, htable, hhuff]
      exact hlater

def NoNameOnlyBlocks (useHuffman : Bool) : DynamicTable → List (Parts × (ℕ → ℕ)) → Prop
  | _, [] => True
  | table, (parts, _) :: blocks =>
    NoNameOnly useHuffman table parts.fields ∧
      NoNameOnlyBlocks useHuffman (encodeFields useHuffman table parts.fields).2 blocks

theorem roundTrips_iff {blocks : List (Parts × (ℕ → ℕ))} (hfits : table.Fits)
    (hmax : table.maxSize < usizeBound) (hcaps : ∀ block ∈ blocks, ∀ i, 0 < block.2 i)
    (hsize : ∀ block ∈ blocks, fieldsSize block.1.fields < 2 ^ 62)
    (hlimit : ∀ block ∈ blocks, fieldsSize block.1.fields ≤ limit) :
    RoundTrips (.idle table useHuffman) (.idle limit table) blocks ↔
      NoNameOnlyBlocks useHuffman table blocks := by
  induction blocks generalizing table with
  | nil => exact ⟨fun _ => trivial, fun _ => .nil _ _⟩
  | cons block blocks ih =>
    obtain ⟨parts, caps⟩ := block
    obtain ⟨hfits', hmax'⟩ := encodeFields_fits useHuffman table parts.fields hfits
    rw [roundTrips_cons hfits hmax (hcaps (parts, caps) (.head _))
      (hsize (parts, caps) (.head _)) (hlimit (parts, caps) (.head _)),
      ih hfits' (by rw [hmax']; exact hmax) (fun b hb => hcaps b (.tail _ hb))
        (fun b hb => hsize b (.tail _ hb))
        (fun b hb => hlimit b (.tail _ hb))]
    rfl

/-- Over a whole connection, every block survives exactly when no field has just its name
in the dynamic table when it is encoded. -/
theorem hpack_connection_roundTrips_iff (tableSize limit : ℕ) (useHuffman : Bool)
    (blocks : List (Parts × (ℕ → ℕ))) (htable : tableSize < usizeBound)
    (hcaps : ∀ block ∈ blocks, ∀ i, 0 < block.2 i)
    (hsize : ∀ block ∈ blocks, fieldsSize block.1.fields < 2 ^ 62)
    (hlimit : ∀ block ∈ blocks, fieldsSize block.1.fields ≤ limit) :
    RoundTrips (.new tableSize useHuffman) (.withMaxSize tableSize limit) blocks ↔
      NoNameOnlyBlocks useHuffman (.withMaxSize tableSize) blocks :=
  roundTrips_iff (DynamicTable.withMaxSize_fits tableSize) htable hcaps hsize hlimit

theorem valid_singleton {value : Bytes} (valid : value.all isValidValueByte = true) :
    ∀ v ∈ [value], v.all isValidValueByte = true := by
  simpa using valid

/-- A block with the single field `foo`. -/
def fooBlock (value : Bytes) (valid : value.all isValidValueByte = true) : Parts where
  pseudo := .new
  map :=
    { entries := [({ name := str "foo", normal := by decide },
        { inner := [value], isSensitive := false, valid := valid_singleton valid })]
      nodup := by simp }

/-- The same field twice: the second time the whole field is in the dynamic table. -/
theorem hpack_connection_same_field :
    RoundTrips (.new 4096 true) (.withMaxSize 4096 65536)
      [(fooBlock (str "bar") (by decide), fun _ => 1),
        (fooBlock (str "bar") (by decide), fun i => i + 1)] := by
  refine (hpack_connection_roundTrips_iff 4096 65536 true _ (by decide) ?_ ?_ ?_).mpr ?_
  · simp
  · decide
  · decide
  · refine ⟨⟨?_, trivial⟩, ⟨?_, trivial⟩, trivial⟩
    · rintro ⟨-, i, hi⟩
      rw [show DynamicTable.index _ _ _ = none by decide] at hi
      cases hi
    · rintro ⟨-, i, hi⟩
      rw [show DynamicTable.index _ _ _ = some (.header 0) by decide] at hi
      cases hi

/-- The same name with another value: the decoder gets the first value again. -/
theorem hpack_connection_second_value_lost :
    ¬ RoundTrips (.new 4096 true) (.withMaxSize 4096 65536)
      [(fooBlock (str "bar") (by decide), fun _ => 64),
        (fooBlock (str "baz") (by decide), fun _ => 64)] := by
  intro h
  have hplain := (roundTrips_iff (DynamicTable.withMaxSize_fits 4096) (by decide) (by simp)
    (by decide) (by decide)).mp h
  obtain ⟨-, ⟨hfld, -⟩, -⟩ := hplain
  exact hfld ⟨by decide, 0, by decide⟩

end YlongHttp
