import YlongHttp.Library.Bits
import YlongHttp.Verification.Http1.Heads

/-! # A head that is written and read back

The head is read by the automaton token by token, and its fields by the lines they stand in. -/

namespace YlongHttp

open List

/-! ## A value that is appended to a header map -/

theorem find?_appendEntry (name name' : HeaderName) (value : HeaderValue)
    (entries : List (HeaderName × HeaderValue)) :
    (((appendEntry name value entries).find? fun e => e.1 = name').map (·.2)).map (·.inner) =
      if name' = name then
        some ((((entries.find? fun e => e.1 = name').map (·.2)).map (·.inner)).getD [] ++ value.inner)
      else ((entries.find? fun e => e.1 = name').map (·.2)).map (·.inner) := by
  induction entries with
  | nil =>
    by_cases hname : name' = name
    · simp [appendEntry, hname]
    · simp [appendEntry, hname, Ne.symm hname]
  | cons entry rest ih =>
    obtain ⟨n, v⟩ := entry
    rw [appendEntry]
    by_cases hn : n = name
    · subst hn
      by_cases hname : name' = n
      · simp [hname, HeaderValue.append]
      · simp [hname, Ne.symm hname]
    · rw [if_neg hn]
      by_cases hnn : n = name'
      · subst hnn
        simp [hn]
      · simpa [hnn] using ih

theorem Headers.inner_append {self headers : Headers} {name value : Bytes} {n : HeaderName}
    (hn : HeaderName.fromBytes name = some n) (h : self.append name value = some headers)
    (n' : HeaderName) :
    (headers.find n').map (·.inner) =
      if n' = n then some (((self.find n').map (·.inner)).getD [] ++ [value])
      else (self.find n').map (·.inner) := by
  rw [Headers.append, hn, Option.bind_some, Option.map_eq_some_iff] at h
  obtain ⟨v, hv, rfl⟩ := h
  have hinner : v.inner = [value] := by
    rw [HeaderValue.fromBytes] at hv
    split at hv
    · cases hv
      rfl
    · cases hv
  rw [← hinner]
  exact find?_appendEntry n n' v self.entries

namespace Http1

open Client (Version)
open HeadState

variable {b : UInt8} {digits name text value : Bytes} {version : Version} {code : ℕ}

/-! ## The text of a head -/

def fieldLine (field : Bytes × Bytes) : Bytes :=
  field.1 ++ ':'.toUInt8 :: ' '.toUInt8 :: (field.2 ++ [cr, lf])

def headText (version digits reason : Bytes) (fields : List (Bytes × Bytes)) : Bytes :=
  version ++ ' '.toUInt8 :: (digits ++ ' '.toUInt8 :: (reason ++ cr :: lf ::
    (fields.flatMap fieldLine ++ [cr, lf])))

def IsToken (name : Bytes) : Prop := name ≠ [] ∧ ∀ b ∈ name, isHeaderNameByte b = true

/-- Without spaces and tabs in front and behind. -/
structure Trimmed (value : Bytes) : Prop where
  front : ∀ b ∈ value.head?, isOws b = false
  back : ∀ b ∈ value.getLast?, isOws b = false

/-- The values that a name is given, in their order; `none` is a name that is not there. -/
def fieldValues (fields : List (Bytes × Bytes)) (name : Bytes) : Option (List Bytes) :=
  match (fields.filter fun field => eqIgnoreAsciiCase name field.1).map (·.2) with
  | [] => none
  | values => some values

/-- The octets are read as a head of these fields, with `rest` behind it. -/
def Reads (text rest : Bytes) (version : Version) (code : ℕ) (fields : List (Bytes × Bytes)) :
    Prop :=
  ∃ decoder headers, ResponseDecoder.new.decode (text ++ rest) =
      .ok (decoder, some (⟨version, code, headers⟩, rest)) ∧
    ∀ name, IsToken name → (headers.get name).map (·.inner) = fieldValues fields name

/-! ## Names -/

theorem nameByte_lower (h : isHeaderNameByte b = true) :
    headerChar b = toAsciiLowercase b ∧ toAsciiLowercase b ≠ 0 ∧ isEol b = false ∧
      b ≠ ':'.toUInt8 := by
  revert h
  exact Library.forall_octet (by decide +kernel) b

theorem normalize_token (h : ∀ b ∈ name, isHeaderNameByte b = true) :
    normalize name = some (name.map toAsciiLowercase) := by
  induction name with
  | nil => rfl
  | cons b name ih =>
    obtain ⟨hchar, hzero, -⟩ := nameByte_lower (h b (.head _))
    have htail := ih fun c hc => h c (.tail b hc)
    rw [normalize] at htail ⊢
    rw [mapM_cons, hchar, if_neg hzero, htail]
    rfl

theorem fromBytes_of_normalize {bytes : Bytes} (h : normalize bytes = some name) :
    ∃ n, HeaderName.fromBytes bytes = some n ∧ n.name = name := by
  rw [HeaderName.fromBytes]
  split
  · next hnone => cases hnone.symm.trans h
  · next name' hsome =>
      cases hsome.symm.trans h
      exact ⟨_, rfl, rfl⟩

theorem fromBytes_token (h : IsToken name) :
    ∃ n, HeaderName.fromBytes name = some n ∧
      HeaderName.fromBytes (name.map toAsciiLowercase) = some n ∧
        n.name = name.map toAsciiLowercase := by
  have hnormal := normalize_token h.2
  obtain ⟨n, hn, hname⟩ := fromBytes_of_normalize hnormal
  obtain ⟨n', hn', hname'⟩ := fromBytes_of_normalize (normalize_normalize hnormal)
  have heq : n' = n := by
    obtain ⟨name, normal⟩ := n
    obtain ⟨name', normal'⟩ := n'
    cases hname
    cases hname'
    rfl
  exact ⟨n, hn, heq ▸ hn', hname⟩

theorem valueByte_valid (h : ∀ b ∈ value, isHeaderValueByte b = true) :
    value.all isValidValueByte = true := by
  refine all_eq_true.mpr fun b hb => ?_
  have hb := h b hb
  simp only [isHeaderValueByte, Bool.or_eq_true, Bool.and_eq_true, decide_eq_true_eq,
    bne_iff_ne] at hb
  simp only [isValidValueByte, Bool.or_eq_true, Bool.and_eq_true, decide_eq_true_eq]
  tauto

theorem headerInsert_get (headers : Headers) (hname : IsToken name)
    (hval : ∀ b ∈ value, isHeaderValueByte b = true) :
    ∃ headers', headerInsert name value headers = some headers' ∧
      ∀ name', IsToken name' → (headers'.get name').map (·.inner) =
        if eqIgnoreAsciiCase name' name then
          some (((headers.get name').map (·.inner)).getD [] ++ [value])
        else (headers.get name').map (·.inner) := by
  obtain ⟨n, -, hlower, hn⟩ := fromBytes_token hname
  obtain ⟨headers', hinsert⟩ : ∃ headers', headerInsert name value headers = some headers' := by
    rw [headerInsert, Headers.append, hlower, HeaderValue.fromBytes, dif_pos (valueByte_valid hval)]
    exact ⟨_, rfl⟩
  refine ⟨headers', hinsert, fun name' hname' => ?_⟩
  obtain ⟨n', hfrom, -, hn'⟩ := fromBytes_token hname'
  have hsame : n' = n ↔ eqIgnoreAsciiCase name' name = true := by
    rw [eqIgnoreAsciiCase, beq_iff_eq, ← hn, ← hn']
    constructor
    · rintro rfl
      rfl
    · intro heq
      obtain ⟨name, normal⟩ := n
      obtain ⟨name', normal'⟩ := n'
      cases heq
      rfl
  rw [Headers.get, Headers.get, hfrom, Option.bind_some, Option.bind_some,
    Headers.inner_append hlower hinsert n']
  simp only [hsame]

/-! ## Field lines -/

/-- A field whose name is a token and whose value is written as it is. -/
structure IsField (field : Bytes × Bytes) : Prop where
  token : IsToken field.1
  octets : ∀ b ∈ field.2, isHeaderValueByte b = true
  trimmed : Trimmed field.2

theorem isEol_of_valueByte (h : isHeaderValueByte b = true) : isEol b = false := by
  rw [← Bool.not_eq_true]
  intro heol
  rcases isEol_iff.mp heol with rfl | rfl
  · revert h
    decide
  · revert h
    decide

theorem trimOws_value {rest : Bytes} (h : Trimmed value) :
    trimOws (' '.toUInt8 :: (value ++ cr :: rest)) = some (value ++ cr :: rest) := by
  have hspace : isOws ' '.toUInt8 = true := by decide
  have hval : (value ++ cr :: rest).dropWhile isOws = value ++ cr :: rest := by
    cases value with
    | nil => rfl
    | cons b value => exact dropWhile_cons_of_neg (by simp [h.front b rfl])
  rw [trimOws, dropWhile_cons_of_pos hspace, hval]
  cases value <;> rfl

theorem trimEnd_value (h : Trimmed value) : trimEnd value = value := by
  have hreverse : value.reverse.dropWhile isOws = value.reverse := by
    cases hrev : value.reverse with
    | nil => rfl
    | cons b back =>
      refine dropWhile_cons_of_neg ?_
      have hlast : value.getLast? = some b := by
        rw [getLast?_eq_head?_reverse, hrev]
        rfl
      simp [h.back b hlast]
  rw [trimEnd, hreverse, reverse_reverse]

variable {part : ResponsePart} {field : Bytes × Bytes} {fields : List (Bytes × Bytes)}
  {rest : Bytes}

theorem run_fieldLine (h : IsField field) :
    ∃ headers, headerInsert field.1 field.2 part.headers = some headers ∧
      (line part).run (fieldLine field ++ rest) =
        (line { part with headers }).run rest := by
  obtain ⟨headers, hinsert, -⟩ := headerInsert_get part.headers h.token h.octets
  refine ⟨headers, hinsert, ?_⟩
  have hline : fieldLine field ++ rest =
      field.1 ++ ':'.toUInt8 :: ' '.toUInt8 :: (field.2 ++ cr :: lf :: rest) := by
    simp [fieldLine]
  have hname : getHeaderName (field.1 ++ ':'.toUInt8 :: ' '.toUInt8 :: (field.2 ++ cr :: lf :: rest)) =
      some (some (field.1, ' '.toUInt8 :: (field.2 ++ cr :: lf :: rest))) := by
    rw [getHeaderName, scan_append _ _ _ (fun b hb => ?_) (decide_eq_true rfl)]
    · rfl
    · exact ⟨decide_eq_false (nameByte_lower (h.token.2 b hb)).2.2.2, h.token.2 b hb⟩
  have hval : getHeaderValue (field.2 ++ cr :: lf :: rest) = some (some (field.2, cr :: lf :: rest)) :=
    scan_append _ _ _ (fun b hb => ⟨isEol_of_valueByte (h.octets b hb), h.octets b hb⟩) rfl
  have hstart : (line part).run (fieldLine field ++ rest) =
      (name part []).run (fieldLine field ++ rest) := by
    obtain ⟨b, name, hcons⟩ := exists_cons_of_ne_nil h.token.1
    have hb := (nameByte_lower (h.token.2 b (by simp [hcons]))).2.2.1
    rw [hline, hcons]
    exact run_line_of_not_isEol hb
  rw [hstart, hline, run_name, hname]
  dsimp only
  rw [nil_append, run_ows, trimOws_value h.trimmed]
  dsimp only
  rw [run_value, hval]
  dsimp only
  rw [nil_append, trimEnd_value h.trimmed, hinsert]
  dsimp only
  rw [eolRun, if_pos rfl, run, octet, if_pos rfl]
  rfl

def addValues (name : Bytes) (values : Option (List Bytes)) (field : Bytes × Bytes) :
    Option (List Bytes) :=
  if eqIgnoreAsciiCase name field.1 then some (values.getD [] ++ [field.2]) else values

theorem foldl_addValues (name : Bytes) (fields : List (Bytes × Bytes)) (values : Option (List Bytes)) :
    fields.foldl (addValues name) values =
      match fieldValues fields name with
      | none => values
      | some more => some (values.getD [] ++ more) := by
  induction fields generalizing values with
  | nil => rfl
  | cons field fields ih =>
    rw [foldl_cons, ih, addValues, fieldValues, fieldValues, filter_cons]
    by_cases hsame : eqIgnoreAsciiCase name field.1 = true
    · rw [if_pos hsame, if_pos hsame, map_cons]
      cases (fields.filter fun field => eqIgnoreAsciiCase name field.1).map (·.2) <;> simp
    · rw [if_neg hsame, if_neg hsame]

theorem run_fieldLines (hflds : ∀ field ∈ fields, IsField field) :
    ∃ headers, (line part).run (fields.flatMap fieldLine ++ cr :: lf :: rest) =
        .ok (.inr ({ part with headers }, rest)) ∧
      ∀ name, IsToken name → (headers.get name).map (·.inner) =
        fields.foldl (addValues name) ((part.headers.get name).map (·.inner)) := by
  induction fields generalizing part with
  | nil => exact ⟨part.headers, rfl, fun _ _ => rfl⟩
  | cons field fields ih =>
    have hfld := hflds field (.head _)
    obtain ⟨headers, hinsert, hrun⟩ := @run_fieldLine part field
      (fields.flatMap fieldLine ++ cr :: lf :: rest) hfld
    obtain ⟨headers', hinsert', hget⟩ := headerInsert_get part.headers hfld.token hfld.octets
    cases hinsert.symm.trans hinsert'
    obtain ⟨last, hlast, hvalues⟩ := @ih { part with headers }
      fun f hf => hflds f (.tail field hf)
    refine ⟨last, ?_, fun name hname => ?_⟩
    · rw [flatMap_cons, append_assoc, hrun, hlast]
    · rw [hvalues name hname, foldl_cons, addValues, ← hget name hname]

/-! ## The status line -/

theorem versionOfBytes_octets (h : versionOfBytes text = some version) :
    ∀ b ∈ text, decide (b = ' '.toUInt8) = false ∧ isValidByte b = true := by
  rw [versionOfBytes] at h
  split at h
  · next htext =>
      subst htext
      exact forall_mem_of_all (by decide)
  · split at h
    · next htext =>
        subst htext
        exact forall_mem_of_all (by decide)
    · cases h

theorem digit_octets (h : ¬9 < (b - 48).toNat) :
    decide (b = ' '.toUInt8) = false ∧ isValidByte b = true := by
  revert h
  exact Library.forall_octet (by decide +kernel) b

theorem statusOfBytes_octets (h : statusOfBytes digits = some code) :
    ∀ b ∈ digits, decide (b = ' '.toUInt8) = false ∧ isValidByte b = true := by
  rw [statusOfBytes.eq_def] at h
  split at h
  · next x y z =>
      dsimp only at h
      split at h
      · cases h
      · next hrange =>
          rw [not_or, not_or, not_or] at hrange
          obtain ⟨-, hx, hy, hz⟩ := hrange
          intro b hb
          simp only [mem_cons, not_mem_nil, or_false] at hb
          rcases hb with rfl | rfl | rfl
          · exact digit_octets hx
          · exact digit_octets hy
          · exact digit_octets hz
  · cases h

theorem isEol_of_reasonByte (h : isLegalReasonByte b = true) : isEol b = false := by
  rw [← Bool.not_eq_true]
  intro heol
  rcases isEol_iff.mp heol with rfl | rfl
  · revert h
    decide
  · revert h
    decide

theorem run_statusLine {reason : Bytes} (hver : versionOfBytes text = some version)
    (hstat : statusOfBytes digits = some code)
    (hreason : ∀ b ∈ reason, isLegalReasonByte b = true) :
    init.run (text ++ ' '.toUInt8 :: (digits ++ ' '.toUInt8 :: (reason ++ cr :: lf :: rest))) =
      (line ⟨version, code, .new⟩).run rest := by
  have htext : statusToken
      (text ++ ' '.toUInt8 :: (digits ++ ' '.toUInt8 :: (reason ++ cr :: lf :: rest))) =
        some (some (text, digits ++ ' '.toUInt8 :: (reason ++ cr :: lf :: rest))) := by
    rw [statusToken, scan_append _ _ _ (versionOfBytes_octets hver) (decide_eq_true rfl)]
    rfl
  have hdigits : statusToken (digits ++ ' '.toUInt8 :: (reason ++ cr :: lf :: rest)) =
      some (some (digits, reason ++ cr :: lf :: rest)) := by
    rw [statusToken, scan_append _ _ _ (statusOfBytes_octets hstat) (decide_eq_true rfl)]
    rfl
  have hphrase : decodeReason (reason ++ cr :: lf :: rest) = some (some (cr :: lf :: rest)) := by
    rw [decodeReason, scan_append isEol isLegalReasonByte _
      (fun b hb => ⟨isEol_of_reasonByte (hreason b hb), hreason b hb⟩) rfl]
    rfl
  rw [init, run_version, htext]
  dsimp only
  rw [nil_append, hver]
  dsimp only
  rw [run_status, hdigits]
  dsimp only
  rw [nil_append, hstat]
  dsimp only
  rw [run_reason, hphrase]
  dsimp only
  rw [statusEolRun, if_pos rfl, run, octet, if_pos rfl]
  rfl

/-- A head that is written is read in one call, up to its end. -/
theorem head_read_back {text digits reason : Bytes} {version : Version} {code : ℕ}
    (hversion : versionOfBytes text = some version) (hstatus : statusOfBytes digits = some code)
    (hreason : ∀ b ∈ reason, isLegalReasonByte b = true)
    (hfields : ∀ field ∈ fields, IsField field) (rest : Bytes) :
    Reads (headText text digits reason fields) rest version code fields := by
  have hsplit : headText text digits reason fields ++ rest =
      text ++ ' '.toUInt8 :: (digits ++ ' '.toUInt8 :: (reason ++ cr :: lf ::
        (fields.flatMap fieldLine ++ cr :: lf :: rest))) := by
    simp [headText]
  have hne : headText text digits reason fields ++ rest ≠ [] := by
    rw [hsplit]
    exact append_ne_nil_of_right_ne_nil _ (cons_ne_nil _ _)
  have hinit : HeadState.init.Represented .new := ⟨.initial, .inl rfl, rfl⟩
  obtain ⟨headers, hrun, hvalues⟩ := @run_fieldLines ⟨version, code, .new⟩ fields rest hfields
  have hagrees := decode_agrees hinit hne
  have hstrip : HeadState.init.strip (headText text digits reason fields ++ rest) =
      headText text digits reason fields ++ rest := rfl
  rw [hstrip, hsplit, run_statusLine hversion hstatus hreason, hrun] at hagrees
  obtain ⟨decoder, hdec⟩ := hagrees
  refine ⟨decoder, headers, by rw [hsplit, hdec], fun name hname => ?_⟩
  obtain ⟨n, hn, -⟩ := fromBytes_token hname
  rw [hvalues name hname, foldl_addValues, Headers.get, hn]
  cases fieldValues fields name <;> rfl

theorem head_read_back_twice :
    Reads (headText (str "HTTP/1.1") (str "200") (str "OK") [(str "a", str "b"), (str "A", [])])
      (str "x") .http1_1 200 [(str "a", str "b"), (str "A", [])] := by
  refine head_read_back rfl rfl (forall_mem_of_all (by decide)) (fun field hfld => ?_) _
  rcases mem_cons.mp hfld with rfl | hfld
  · have hb : ∀ b ∈ some 'b'.toUInt8, isOws b = false := by
      intro b hb
      obtain rfl := Option.mem_some_iff.mp hb
      decide
    exact ⟨⟨by decide, forall_mem_of_all (by decide)⟩, forall_mem_of_all (by decide), hb, hb⟩
  · rw [mem_singleton.mp hfld]
    exact ⟨⟨by decide, forall_mem_of_all (by decide)⟩, nofun, nofun, nofun⟩

/-- A control octet is no octet of a reason phrase. -/
theorem head_not_read_back :
    ¬∀ (text digits reason : Bytes) (version : Version) (code : ℕ) (fields : List (Bytes × Bytes))
      (rest : Bytes), versionOfBytes text = some version → statusOfBytes digits = some code →
      (cr ∉ reason ∧ lf ∉ reason) → (∀ field ∈ fields, IsToken field.1 ∧ Trimmed field.2) →
      Reads (headText text digits reason fields) rest version code fields := by
  intro h
  obtain ⟨decoder, headers, hdec, -⟩ := h (str "HTTP/1.1") (str "200") [0x01] .http1_1 200 [] []
    rfl rfl (by decide) (by nofun)
  have herror : ResponseDecoder.new.decode
      (headText (str "HTTP/1.1") (str "200") [0x01] [] ++ []) = invalid := by rfl
  cases hdec.symm.trans herror

end Http1

end YlongHttp
