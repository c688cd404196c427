import YlongHttp.Verification.Requests.References

/-! # URIs that are written and read again -/

namespace YlongHttp

open List Option
open Library (of_bind_ok)
open Library.Reference (upTo beyond upTo_append_beyond not_mem_upTo upTo_eq)
open Client (authorityStops pathStops Written schemeToken_ok authorityScan_ok hostPort_ok
  authorityToken_split tokenScan_iff pathToken_split validityCheck_ok fromBytes_ok beyond_head
  head_path)

variable {a p q tail text front back : Bytes} {i : ℕ} {scan scan' : AuthorityScan} {uri : Uri}

/-! ## Octets -/

def queryByte (b : UInt8) : Bool :=
  b = 0x3F || b = 0x60 || b = 0x7B || b = 0x7D || inTable pathAndQueryBytes b

def authorityByte (b : UInt8) : Bool :=
  inTable uriValueBytes b && b ≠ '@'.toUInt8 && !authorityStops.contains b

theorem octets_read (b : UInt8) : (inTable pathAndQueryBytes b = true → b ∉ pathStops) ∧
    (queryByte b = true → b ∉ ['#'.toUInt8] ∧ b < 0x80) ∧ (authorityByte b = true → b < 0x80) := by
  revert b
  exact Library.forall_octet (by decide +kernel)

variable {b : UInt8}

theorem pathByte_not_stop (h : inTable pathAndQueryBytes b = true) :
    b ∉ pathStops := (octets_read b).1 h

theorem queryByte_not_stop (h : queryByte b = true) : b ∉ ['#'.toUInt8] :=
  ((octets_read b).2.1 h).1

theorem ascii_of_queryByte (h : queryByte b = true) : b < 0x80 :=
  ((octets_read b).2.1 h).2

theorem ascii_of_authorityByte (h : authorityByte b = true) : b < 0x80 :=
  (octets_read b).2.2 h

/-! ## Schemes -/

theorem schemeToken_asStr (scheme : Scheme) (rest : Bytes) :
    schemeToken (scheme.asStr ++ str "://" ++ rest) = .ok (some scheme, rest) := by
  cases scheme
  · rfl
  · rfl

theorem schemeToken_none (hhead : text.head? ≠ some ':'.toUInt8)
    (h : ∀ front back, text = front ++ ':'.toUInt8 :: '/'.toUInt8 :: '/'.toUInt8 :: back →
      ':'.toUInt8 ∈ front) : schemeToken text = .ok (none, text) := by
  rw [schemeToken]
  cases hfind : text.findIdx? (· == ':'.toUInt8) with
  | none => rfl
  | some pos =>
    obtain ⟨hlt, hcolon, hbefore⟩ := findIdx?_eq_some_iff_getElem.mp hfind
    have hdrop : text.drop pos = ':'.toUInt8 :: text.drop (pos + 1) := by
      rw [← cons_getElem_drop_succ (h := hlt), eq_of_beq hcolon]
    have hne : pos ≠ 0 := by
      rintro rfl
      rw [drop_zero] at hdrop
      rw [hdrop] at hhead
      exact hhead rfl
    have hslashes : (text.drop (pos + 1)).take 2 ≠ str "//" := by
      intro hslashes
      have htext : text = text.take pos ++ ':'.toUInt8 :: '/'.toUInt8 :: '/'.toUInt8 ::
          (text.drop (pos + 1)).drop 2 := by
        have hback := take_append_drop 2 (text.drop (pos + 1))
        rw [hslashes] at hback
        conv_lhs => rw [← take_append_drop pos text, hdrop, ← hback]
        rfl
      obtain ⟨j, hj, hjcolon⟩ := mem_take_iff_getElem.mp (h _ _ htext)
      have := hbefore j (by omega)
      simp [hjcolon] at this
    dsimp only
    rw [if_neg fun hsch => hslashes hsch.2.2, if_neg hne]

/-! ## Authorities -/

theorem authorityScan_append (ha : ∀ b ∈ a, b ∉ authorityStops)
    (htail : ∀ b ∈ tail.head?, b ∈ authorityStops) :
    authorityScan i scan (a ++ tail) = authorityScan i scan a := by
  induction a generalizing i scan with
  | nil =>
    cases tail with
    | nil => rfl
    | cons b tail => exact if_pos (by simpa using htail b rfl)
  | cons b a ih => simp only [cons_append, authorityScan, ih fun c hc => ha c (.tail b hc)]

variable {stop : ℕ}

theorem authorityScan_stop (ha : ∀ b ∈ a, b ∉ authorityStops)
    (h : authorityScan 0 scan a = .ok (stop, scan')) : stop = a.length := by
  have hfront : upTo authorityStops (a ++ []) = a := (upTo_eq ha (by simp)).1
  rw [append_nil] at hfront
  rw [authorityScan_ok h, hfront, Nat.zero_add]

variable {authority : Authority}

theorem authorityToken_append (ha : ∀ b ∈ a, b ∉ authorityStops)
    (htail : ∀ b ∈ tail.head?, b ∈ authorityStops) :
    authorityToken (a ++ tail) = .ok (some authority, tail) ↔
      authorityToken a = .ok (some authority, []) := by
  rw [authorityToken_some_iff, authorityToken_some_iff, authorityScan_append ha htail]
  refine exists_congr fun stop => exists_congr fun scan => and_congr_right fun hscan => ?_
  rw [authorityScan_stop ha hscan, take_left, drop_left, take_length, drop_length]
  simp

theorem authorityScan_colon (ha : ∀ b ∈ a, b ∉ authorityStops) :
    authorityScan i scan (a ++ [':'.toUInt8]) = (authorityScan i scan a).map fun read =>
      (read.1 + 1, { read.2 with colonNum := read.2.colonNum + 1 }) := by
  induction a generalizing i scan with
  | nil => rfl
  | cons b a ih =>
    have hb : ¬(b = '/'.toUInt8 ∨ b = '?'.toUInt8 ∨ b = '#'.toUInt8) := by
      simpa using ha b (.head _)
    simp only [cons_append, authorityScan, if_neg hb, ih fun c hc => ha c (.tail b hc)]
    split_ifs <;> rfl

theorem authorityToken_toStr (ha : ∀ b ∈ a, b ∉ authorityStops) (hwritten : Written authority a)
    (h : authorityToken a = .ok (some authority, [])) :
    authorityToken authority.toStr = .ok (some authority, []) := by
  rcases hwritten with rfl | ⟨hport, rfl⟩
  · exact h
  · obtain ⟨host, port⟩ := authority
    obtain rfl : port = none := hport
    change authorityToken host = _
    have hhost : ∀ b ∈ host, b ∉ authorityStops := fun b hb => ha b (mem_append_left _ hb)
    obtain ⟨stop, scan, hscan, -, hbrackets, hcolons, hparse, -⟩ := authorityToken_some_iff.mp h
    rw [authorityScan_colon hhost] at hscan
    obtain ⟨stop', scan', hscan', hread⟩ : ∃ stop' scan',
        authorityScan 0 unscanned host = .ok (stop', scan') ∧
        (stop' + 1, { scan' with colonNum := scan'.colonNum + 1 }) = (stop, scan) := by
      cases hscan' : authorityScan 0 unscanned host with
      | error e =>
        rw [hscan'] at hscan
        cases hscan
      | ok read =>
        rw [hscan'] at hscan
        exact ⟨read.1, read.2, rfl, Except.ok.inj hscan⟩
    cases hread
    have hstop := authorityScan_stop hhost hscan'
    have hzero : scan'.colonNum = 0 := by
      have hle : scan'.colonNum + 1 ≤ 1 := hcolons
      omega
    refine authorityToken_some_iff.mpr ⟨stop', scan', hscan', ?_, hbrackets, by omega, ?_, ?_⟩
    · rintro rfl
      obtain rfl := eq_nil_of_length_eq_zero hstop.symm
      rw [hzero] at hparse
      cases hparse
    · rw [hstop, take_length, hzero]
      rfl
    · rw [hstop, drop_length]

theorem authorityScan_allowed (ha : ∀ b ∈ a, b ∉ authorityStops)
    (h : authorityScan i scan a = .ok (stop, scan')) : ∀ b ∈ a, authorityByte b = true := by
  induction a generalizing i scan with
  | nil => simp
  | cons c a ih =>
    have hc := ha c (.head _)
    have hrest : ∀ b ∈ a, b ∉ authorityStops := fun b hb => ha b (.tail c hb)
    rw [authorityScan, if_neg (by simpa using hc)] at h
    refine forall_mem_cons.mpr ?_
    split_ifs at h with hleft _ _ hright _ _ hat hcolon hplain
    · exact ⟨by rw [hleft]; decide, ih hrest h⟩
    · exact ⟨by rw [hleft]; decide, ih hrest h⟩
    · exact ⟨by rw [hright]; decide, ih hrest h⟩
    · exact ⟨by rw [hright]; decide, ih hrest h⟩
    · exact ⟨by rw [hcolon]; decide, ih hrest h⟩
    · exact ⟨by simp [authorityByte, hplain, hat, hc], ih hrest h⟩

/-! ## Paths and queries -/

theorem pathToken_iff {path : Option Bytes} (hp : ∀ b ∈ p, b ∉ pathStops)
    (htail : ∀ b ∈ tail.head?, b ∈ pathStops) :
    pathToken (p ++ tail) = .ok (path, tail) ↔
      (∀ b ∈ p, inTable pathAndQueryBytes b = true) ∧ path = Client.optional p := by
  have hiff {stop : ℕ} := @tokenScan_iff _ p tail (inTable pathAndQueryBytes) 0 stop hp htail
  have hoptional : (if p.length ≠ 0 then some p else none) = Client.optional p := by
    rw [Client.optional]
    cases p <;> simp
  rw [pathToken]
  cases hscan : tokenScan ['?'.toUInt8, '#'.toUInt8] (inTable pathAndQueryBytes) 0 (p ++ tail) with
  | error e =>
    refine iff_of_false (by simp) fun h => ?_
    exact absurd (hscan.symm.trans (hiff.mpr ⟨h.1, rfl⟩)) (by simp)
  | ok stop =>
    obtain ⟨hvalid, rfl⟩ := hiff.mp hscan
    simp only [bind, Except.bind, pure, Except.pure, Nat.zero_add, take_left, drop_left, hoptional]
    exact ⟨fun h => ⟨hvalid, (Prod.mk.inj (Except.ok.inj h)).1.symm⟩, fun h => by rw [h.2]⟩

theorem afterPath_iff {query : Option Bytes} (hq : ∀ b ∈ q, b ∉ ['#'.toUInt8])
    (htail : ∀ b ∈ tail.head?, b ∈ ['#'.toUInt8]) :
    Uri.afterPath ('?'.toUInt8 :: (q ++ tail)) = .ok query ↔
      (∀ b ∈ q, queryByte b = true) ∧ query = Client.optional q := by
  have hiff {stop : ℕ} := @tokenScan_iff _ q tail queryByte 0 stop hq htail
  have hoptional : (if q.length = 0 then none else some q) = Client.optional q := by
    rw [Client.optional]
    cases q <;> simp
  rw [Uri.afterPath, if_pos rfl, queryToken]
  split_ifs with hnil
  · obtain ⟨rfl, rfl⟩ := append_eq_nil_iff.mp hnil
    exact ⟨fun h => ⟨(by simp), (Except.ok.inj h).symm⟩, fun h => congrArg Except.ok h.2.symm⟩
  · change (tokenScan ['#'.toUInt8] queryByte 0 (q ++ tail) >>= _) = _ ↔ _
    cases hscan : tokenScan ['#'.toUInt8] queryByte 0 (q ++ tail) with
    | error e =>
      refine iff_of_false (by simp) fun h => ?_
      exact absurd (hscan.symm.trans (hiff.mpr ⟨h.1, rfl⟩)) (by simp)
    | ok stop =>
      obtain ⟨hvalid, rfl⟩ := hiff.mp hscan
      simp only [bind, Except.bind, pure, Except.pure, Nat.zero_add, take_left, hoptional]
      exact ⟨fun h => ⟨hvalid, (Except.ok.inj h).symm⟩, fun h => by rw [h.2]⟩

/-! ## What is written -/

/-- The parts that `Uri::from_bytes` reads. -/
structure Lawful (uri : Uri) : Prop where
  authority : ∀ a ∈ uri.authority, (∀ b ∈ a.toStr, b ∉ authorityStops) ∧
    authorityToken a.toStr = .ok (some a, [])
  path : ∀ p ∈ uri.path, p ≠ [] ∧ ∀ b ∈ p, inTable pathAndQueryBytes b = true
  query : ∀ q ∈ uri.query, q ≠ [] ∧ ∀ b ∈ q, queryByte b = true

variable (query : Option Bytes)

def queryText : Bytes := (query.map ('?'.toUInt8 :: ·)).getD []

def authorityText (uri : Uri) : Bytes := (uri.authority.map (·.toStr)).getD []

theorem toString_eq (uri : Uri) : uri.toString =
    (uri.scheme.map (·.asStr ++ str "://")).getD [] ++
      (authorityText uri ++ (uri.path.getD [] ++ queryText uri.query)) := by
  rw [Uri.toString, authorityText, queryText, Uri.host, Uri.port]
  cases uri.authority with
  | none => simp
  | some a =>
    obtain ⟨host, port⟩ := a
    cases port <;> simp [Authority.toStr]

theorem authorityToken_none (htail : ∀ b ∈ tail.head?, b ∈ authorityStops) :
    authorityToken tail = .ok (none, tail) := by
  rw [authorityToken, ← nil_append tail, authorityScan_append (by simp) htail]
  rfl

theorem optional_getD {part : Option Bytes} (h : ∀ p ∈ part, p ≠ []) :
    Client.optional (part.getD []) = part := by
  cases part with
  | none => rfl
  | some p => exact if_neg (h p rfl)

theorem getD_optional (p : Bytes) : (Client.optional p).getD [] = p := by
  rw [Client.optional]
  split_ifs with hnil
  · exact hnil.symm
  · rfl

theorem queryText_head : ∀ b ∈ (queryText query).head?, b = '?'.toUInt8 := by
  cases query with
  | none => exact nofun
  | some q => exact fun b hb => (some.inj hb).symm

theorem tail_head (hroot : ∀ p ∈ uri.path, p.head? = some '/'.toUInt8) :
    ∀ b ∈ (uri.path.getD [] ++ queryText uri.query).head?, b ∈ authorityStops := by
  intro b hb
  cases hpath : uri.path with
  | none =>
    rw [hpath] at hb
    rw [queryText_head _ b hb]
    decide
  | some p =>
    rw [hpath, getD_some, head?_append, hroot p hpath] at hb
    cases hb
    decide

theorem fromBytes_toString (h : Lawful uri) (hvalid : uri.validityCheck = .ok uri)
    (hlen : uri.toString.length ≤ Uri.maxUriLen)
    (hroot : ∀ p ∈ uri.path, p.head? = some '/'.toUInt8)
    (hsch : uri.scheme = none → schemeToken uri.toString = .ok (none, uri.toString)) :
    Uri.fromBytes uri.toString = .ok uri := by
  have htext := toString_eq uri
  have hne : uri.toString ≠ [] := by
    intro hnil
    rw [hnil, eq_comm, append_eq_nil_iff, append_eq_nil_iff, append_eq_nil_iff]
      at htext
    obtain ⟨hs, ha, hp, hq⟩ := htext
    obtain ⟨-, -, -, hsome⟩ := validityCheck_ok hvalid
    have hsnone : uri.scheme = none := by
      cases hsch : uri.scheme with
      | none => rfl
      | some scheme =>
        rw [hsch] at hs
        cases scheme <;> cases hs
    have hanone : uri.authority = none := by
      cases hauthority : uri.authority with
      | none => rfl
      | some a =>
        rw [authorityText, hauthority] at ha
        have hread := (h.authority a hauthority).2
        rw [show a.toStr = [] from ha] at hread
        cases hread
    rcases hsome hsnone hanone with hpath | hquery
    · obtain ⟨p, hp'⟩ := ne_none_iff_exists'.mp hpath
      rw [hp'] at hp
      exact (h.path p hp').1 hp
    · obtain ⟨q, hq'⟩ := ne_none_iff_exists'.mp hquery
      rw [hq'] at hq
      cases hq
  have htail := tail_head hroot
  have hs : schemeToken uri.toString = .ok (uri.scheme,
      authorityText uri ++ (uri.path.getD [] ++ queryText uri.query)) := by
    cases hs : uri.scheme with
    | none =>
      rw [hs] at htext
      rw [hsch hs, htext]
      rfl
    | some scheme =>
      rw [htext, hs]
      exact schemeToken_asStr scheme _
  have ha : authorityToken (authorityText uri ++ (uri.path.getD [] ++ queryText uri.query)) =
      .ok (uri.authority, uri.path.getD [] ++ queryText uri.query) := by
    rw [authorityText]
    cases ha : uri.authority with
    | none => exact authorityToken_none htail
    | some a =>
      obtain ⟨hplain, hread⟩ := h.authority a ha
      exact (authorityToken_append hplain htail).mpr hread
  have hp : pathToken (uri.path.getD [] ++ queryText uri.query) =
      .ok (uri.path, queryText uri.query) := by
    have hvalid : ∀ b ∈ uri.path.getD [], inTable pathAndQueryBytes b = true := by
      cases hpath : uri.path with
      | none => exact nofun
      | some p => exact (h.path p hpath).2
    refine (pathToken_iff (fun b hb => pathByte_not_stop (hvalid b hb)) fun b hb => ?_).mpr
      ⟨hvalid, (optional_getD fun p hp => (h.path p hp).1).symm⟩
    rw [queryText_head _ b hb]
    decide
  have hq : Uri.afterPath (queryText uri.query) = .ok uri.query := by
    cases hquery : uri.query with
    | none => rfl
    | some q =>
      obtain ⟨hqne, hvalid⟩ := h.query q hquery
      have hiff := @afterPath_iff q [] (some q) (fun b hb => queryByte_not_stop (hvalid b hb)) nofun
      rw [append_nil] at hiff
      exact hiff.mpr ⟨hvalid, (if_neg hqne).symm⟩
  rw [Uri.fromBytes, if_neg (Nat.not_lt.mpr hlen), if_neg hne]
  simp only [hs, ha, hp, hq, bind, Except.bind]
  exact hvalid

/-! ## Texts that are read -/

/-- Each part consists of octets that its table allows. -/
def Allowed (uri : Uri) : Prop :=
  (∀ a ∈ uri.authority, ∀ b ∈ a.toStr, authorityByte b = true ∧ b < 0x80) ∧
    (∀ p ∈ uri.path, ∀ b ∈ p, inTable pathAndQueryBytes b = true ∧ b < 0x80) ∧
    ∀ q ∈ uri.query, ∀ b ∈ q, queryByte b = true ∧ b < 0x80

/-- The URI is written as the text with the scheme in lower case, and without the fragment, the
colon of an empty port and the mark of an empty query. -/
def Canonical (uri : Uri) (text : Bytes) : Prop :=
  ∃ scheme colon mark fragment : Bytes,
    text = scheme ++ (authorityText uri ++ (colon ++ (uri.path.getD [] ++
      (queryText uri.query ++ (mark ++ fragment))))) ∧
    uri.toString = scheme.map toAsciiLowercase ++ (authorityText uri ++ (uri.path.getD [] ++
      queryText uri.query)) ∧
    (colon = [] ∨ colon = str ":" ∧ uri.authority.isSome ∧ uri.port = none) ∧
    (mark = [] ∨ mark = str "?" ∧ uri.query = none) ∧ ∀ b ∈ fragment.head?, b = '#'.toUInt8

theorem authority_read (ha : ∀ b ∈ a, b ∉ authorityStops) (hwritten : Written authority a)
    (h : authorityToken a = .ok (some authority, [])) :
    (∀ b ∈ authority.toStr, b ∉ authorityStops) ∧
      (∀ b ∈ authority.toStr, authorityByte b = true) ∧
      authorityToken authority.toStr = .ok (some authority, []) := by
  have hread := authorityToken_toStr ha hwritten h
  have hplain : ∀ b ∈ authority.toStr, b ∉ authorityStops := by
    rcases hwritten with rfl | ⟨hport, rfl⟩
    · exact ha
    · rw [Authority.toStr, hport]
      exact fun b hb => ha b (mem_append_left _ hb)
  obtain ⟨stop, scan, hscan, -⟩ := authorityToken_some_iff.mp hread
  exact ⟨hplain, authorityScan_allowed hplain hscan, hread⟩

theorem afterPath_spec {query : Option Bytes} (h : Uri.afterPath text = .ok query) :
    (∀ q ∈ query, q ≠ [] ∧ ∀ b ∈ q, queryByte b = true) ∧ ∃ mark fragment : Bytes,
      text = queryText query ++ (mark ++ fragment) ∧ (mark = [] ∨ mark = str "?" ∧ query = none) ∧
      ∀ b ∈ fragment.head?, b = '#'.toUInt8 := by
  cases text with
  | nil =>
    cases h
    exact ⟨nofun, [], [], rfl, .inl rfl, nofun⟩
  | cons c rest =>
    by_cases hc : c = '?'.toUInt8
    · subst hc
      have htext := upTo_append_beyond ['#'.toUInt8] rest
      have htail := beyond_head ['#'.toUInt8] rest
      rw [← htext] at h ⊢
      obtain ⟨hvalid, rfl⟩ := (afterPath_iff (fun b hb => not_mem_upTo hb) htail).mp h
      simp only [mem_singleton] at htail
      rw [Client.optional]
      split_ifs with hnil
      · rw [hnil]
        exact ⟨nofun, str "?", beyond ['#'.toUInt8] rest, rfl, .inr ⟨rfl, rfl⟩, htail⟩
      · refine ⟨fun q hq => ?_, [], beyond ['#'.toUInt8] rest, rfl, .inl rfl, htail⟩
        cases hq
        exact ⟨hnil, hvalid⟩
    · rw [Uri.afterPath, if_neg hc] at h
      split_ifs at h with hhash
      cases h
      refine ⟨nofun, [], c :: rest, rfl, .inl rfl, fun b hb => ?_⟩
      rw [← hhash]
      exact (some.inj hb).symm

theorem fromBytes_read (h : Uri.fromBytes text = .ok uri) :
    Lawful uri ∧ uri.validityCheck = .ok uri ∧ Allowed uri ∧ Canonical uri text ∧
      (∀ p ∈ uri.path, p.head? = some '/'.toUInt8) ∧
      (uri.scheme = none → text.head? ≠ some ':'.toUInt8 ∧ ∀ front back,
        text = front ++ ':'.toUInt8 :: '/'.toUInt8 :: '/'.toUInt8 :: back →
          ':'.toUInt8 ∈ front) := by
  obtain ⟨rest, rest', rest'', hsch, hauthority, hpath, hquery, hvalid⟩ := fromBytes_ok h
  obtain ⟨rfl, hsplit⟩ := authorityToken_split hauthority
  obtain ⟨hpath', rfl⟩ := pathToken_split hpath
  have hrest := upTo_append_beyond authorityStops rest
  have hrest' := upTo_append_beyond pathStops (beyond authorityStops rest)
  have hpvalid := ((pathToken_iff (fun b hb => not_mem_upTo hb) (beyond_head _ _)).mp
    (by rw [hrest']; exact hpath)).1
  obtain ⟨hqvalid, mark, fragment, hback, hmark, hfragment⟩ := afterPath_spec hquery
  have hgetD : uri.path.getD [] = upTo pathStops (beyond authorityStops rest) := by
    rw [hpath', getD_optional]
  have hp : ∀ p ∈ uri.path, p ≠ [] ∧ p = upTo pathStops (beyond authorityStops rest) := by
    intro p hp
    rw [hpath', Client.optional] at hp
    split_ifs at hp with hnil
    · cases hp
    · exact ⟨some.inj hp ▸ hnil, (some.inj hp).symm⟩
  -- The authority, written without the colon of an empty port.
  have hauth : ∃ colon : Bytes, upTo authorityStops rest = authorityText uri ++ colon ∧
      (colon = [] ∨ colon = str ":" ∧ uri.authority.isSome ∧ uri.port = none) ∧
      ∀ a ∈ uri.authority, (∀ b ∈ a.toStr, b ∉ authorityStops) ∧
        (∀ b ∈ a.toStr, authorityByte b = true) ∧ authorityToken a.toStr = .ok (some a, []) := by
    rcases hsplit with ⟨hnone, hnil⟩ | ⟨a, hsome, -, hwritten⟩
    · exact ⟨[], by rw [authorityText, hnone, hnil]; rfl, .inl rfl, by simp [hnone]⟩
    · have hplain : ∀ b ∈ upTo authorityStops rest, b ∉ authorityStops :=
        fun b hb => not_mem_upTo hb
      have hread := authority_read hplain hwritten
        ((authorityToken_append hplain (beyond_head _ _)).mp (by rw [hrest, hauthority, hsome]))
      simp only [authorityText, hsome, mem_some_iff, forall_eq', map_some,
        getD_some, true_and, isSome_some, Uri.port, bind_some]
      rcases hwritten with hsame | ⟨hport, hcolon⟩
      · exact ⟨[], by rw [hsame, append_nil], .inl rfl, hread⟩
      · refine ⟨str ":", ?_, .inr ⟨rfl, hport⟩, hread⟩
        rw [hcolon, Authority.toStr, hport]
        rfl
  obtain ⟨colon, hfront, hcolon, hlawful⟩ := hauth
  refine ⟨⟨fun a ha => ⟨(hlawful a ha).1, (hlawful a ha).2.2⟩, fun p hp' => ⟨(hp p hp').1, ?_⟩,
    hqvalid⟩, hvalid, ⟨fun a ha b hb => ?_, fun p hp' b hb => ?_, fun q hq b hb => ?_⟩, ?_, ?_, ?_⟩
  · rw [(hp p hp').2]
    exact hpvalid
  · have hallowed := (hlawful a ha).2.1 b hb
    exact ⟨hallowed, ascii_of_authorityByte hallowed⟩
  · rw [(hp p hp').2] at hb
    exact ⟨hpvalid b hb, ascii_of_queryByte (by simp [queryByte, hpvalid b hb])⟩
  · have hallowed := (hqvalid q hq).2 b hb
    exact ⟨hallowed, ascii_of_queryByte hallowed⟩
  · have htext : rest = authorityText uri ++ (colon ++ (uri.path.getD [] ++ (queryText uri.query ++
        (mark ++ fragment)))) := by
      rw [hgetD, ← hback, hrest', ← append_assoc, ← hfront, hrest]
    have hwrite := toString_eq uri
    rcases schemeToken_ok hsch with ⟨scheme, front, hs, hbytes, hsame⟩ | ⟨hs, rfl, -⟩
    · refine ⟨front ++ str "://", colon, mark, fragment, ?_, ?_, hcolon, hmark, hfragment⟩
      · rw [hbytes, ← htext, append_assoc]
        rfl
      · have hlower : scheme.asStr.map toAsciiLowercase = scheme.asStr := by
          cases scheme <;> decide
        rw [hwrite, hs, map_append, eq_of_beq hsame, hlower]
        rfl
    · rw [hs] at hwrite
      exact ⟨[], colon, mark, fragment, htext, hwrite, hcolon, hmark, hfragment⟩
  · intro p hp'
    obtain ⟨hne, rfl⟩ := hp p hp'
    obtain ⟨b, path, hcons⟩ := exists_cons_of_ne_nil hne
    have hhead := head_path rest b
    rw [hcons] at hhead ⊢
    exact congrArg some (hhead rfl)
  · intro hnone
    rcases schemeToken_ok hsch with ⟨s, scheme, hs, -⟩ | ⟨-, -, hhead, hslashes⟩
    · rw [hs] at hnone
      cases hnone
    · exact ⟨hhead, hslashes⟩

theorem fromBytes_length (h : Uri.fromBytes text = .ok uri) : text.length ≤ Uri.maxUriLen := by
  rw [Uri.fromBytes] at h
  split_ifs at h with hlong
  exact Nat.not_lt.mp hlong

/-- Whatever `Uri::from_bytes` accepts is made of allowed octets, written as it was read, and read
again as it was. -/
theorem uri_canonical (h : Uri.fromBytes text = .ok uri) :
    Allowed uri ∧ Canonical uri text ∧ Uri.fromBytes uri.toString = .ok uri := by
  obtain ⟨hlawful, hvalid, hallowed, hcanonical, hroot, hnone⟩ := fromBytes_read h
  refine ⟨hallowed, hcanonical, fromBytes_toString hlawful hvalid ?_ hroot fun hs => ?_⟩
  all_goals obtain ⟨scheme, colon, mark, fragment, htext, hwrite, hcolon, -, -⟩ := hcanonical
  · refine le_trans ?_ (fromBytes_length h)
    rw [hwrite, htext]
    simp only [length_append, length_map]
    omega
  · obtain ⟨hhead, hslashes⟩ := hnone hs
    have hempty : scheme = [] := by
      have hsame := hwrite.symm.trans (toString_eq uri)
      rw [hs] at hsame
      simpa using append_cancel_right hsame
    rw [hempty, nil_append] at htext
    have hplain := toString_eq uri
    rw [hs, map_none, getD_none, nil_append] at hplain
    refine schemeToken_none (fun hc => ?_) fun front back hfront => ?_
    · cases hauthority : authorityText uri with
      | nil =>
        rw [hplain, hauthority, nil_append] at hc
        exact absurd (tail_head hroot _ hc) (by decide)
      | cons c authority =>
        rw [hplain, hauthority] at hc
        rw [htext, hauthority] at hhead
        exact hhead hc
    · rcases hcolon with rfl | ⟨-, hsome, -⟩
      · have htext' : text = uri.toString ++ (mark ++ fragment) := by
          rw [htext, hplain]
          simp only [nil_append, append_assoc]
        refine hslashes front (back ++ (mark ++ fragment)) ?_
        rw [htext', hfront, append_assoc]
        rfl
      · obtain ⟨a, ha⟩ := isSome_iff_exists.mp hsome
        obtain ⟨hpath, hquery⟩ := (validityCheck_ok hvalid).2.2.1 hs hsome
        rw [authorityText, ha, hpath, hquery] at hplain
        have hslash : '/'.toUInt8 ∈ a.toStr := by
          have hmem : '/'.toUInt8 ∈ uri.toString := by
            rw [hfront]
            simp
          rw [hplain] at hmem
          simpa [queryText] using hmem
        exact absurd (.head _) ((hlawful.authority a ha).1 _ hslash)

theorem uri_canonical_mixed :
    Allowed { scheme := some .http, authority := some { host := str "a.b", port := none }
              path := some (str "/c"), query := none } ∧
    Canonical { scheme := some .http, authority := some { host := str "a.b", port := none }
                path := some (str "/c"), query := none } (str "HTTP://a.b:/c?#d") ∧
    Uri.fromBytes (str "http://a.b/c") =
      .ok { scheme := some .http, authority := some { host := str "a.b", port := none }
            path := some (str "/c"), query := none } :=
  uri_canonical rfl

/-! ## URIs that are built -/

theorem authorityScan_colons (ha : ∀ b ∈ a, b ∉ authorityStops) (hi : i ≠ 0)
    (hleft : scan.leftBracket = false) (h : authorityScan i scan a = .ok (stop, scan')) :
    scan'.colonNum = scan.colonNum + a.count ':'.toUInt8 := by
  induction a generalizing i scan with
  | nil =>
    cases h
    rfl
  | cons c a ih =>
    have hc := ha c (.head _)
    have hstep {scan : AuthorityScan} := @ih (i + 1) scan
      (fun b hb => ha b (.tail c hb)) i.succ_ne_zero
    rw [authorityScan, if_neg (by simpa using hc)] at h
    simp only [hleft, hi, Bool.false_eq_true, if_false] at h
    rw [count_cons]
    split_ifs at h with hopen hclose hat hcolon hplain
    · rw [hstep hleft h, hopen]
      rfl
    · rw [hstep hleft h, hclose]
      rfl
    · rw [hstep (by rfl) h, hcolon]
      simp only [beq_self_eq_true, if_true]
      omega
    · rw [hstep hleft h, if_neg (by simpa using hcolon), Nat.add_zero]

theorem authorityToken_head (ha : ∀ b ∈ a, b ∉ authorityStops)
    (h : authorityToken a = .ok (some authority, [])) : a.head? ≠ some ':'.toUInt8 := by
  intro hhead
  obtain ⟨back, rfl⟩ := head?_eq_some_iff.mp hhead
  obtain ⟨stop, scan, hscan, -, -, hcolons, hparse, -⟩ := authorityToken_some_iff.mp h
  have hstop := authorityScan_stop ha hscan
  have hcnt := authorityScan_colons (fun b hb => ha b (.tail _ hb)) one_ne_zero
    rfl (hscan : authorityScan 1 { unscanned with colonNum := 1 } back = _)
  have hback : ':'.toUInt8 ∉ back := by
    refine count_eq_zero.mp ?_
    change scan.colonNum = 1 + _ at hcnt
    omega
  have hsplit : rsplitOnce ':'.toUInt8 (':'.toUInt8 :: back) = some ([], back) :=
    @rsplitOnce_append _ [] _ hback
  rw [hstop, take_length, hostPort, if_pos (by rw [hcnt]; simp), hsplit] at hparse
  cases hparse

theorem setter_lawful {setter : Uri.Setter} {uri' : Uri} (h : Lawful uri)
    (hset : setter.apply uri = .ok uri') : Lawful uri' := by
  cases setter with
  | scheme text =>
    obtain ⟨scheme, -, hset⟩ := of_bind_ok hset
    cases hset
    exact ⟨h.authority, h.path, h.query⟩
  | authority text =>
    obtain ⟨authority, hread, hset⟩ := of_bind_ok hset
    cases hset
    have htoken := Authority.fromBytes_ok hread
    obtain ⟨hrest, hnone | ⟨parsed, hparsed, -, hwritten⟩⟩ := authorityToken_split htoken
    · cases hnone.1
    · cases hparsed
      have htext := upTo_append_beyond authorityStops text
      rw [← hrest, append_nil] at htext
      rw [htext] at hwritten
      obtain ⟨hplain, -, htoken'⟩ :=
        authority_read (fun b hb => not_mem_upTo (htext.symm ▸ hb)) hwritten htoken
      exact ⟨fun a ha => some.inj ha ▸ ⟨hplain, htoken'⟩, h.path, h.query⟩
  | path text =>
    obtain ⟨path, hread, hset⟩ := of_bind_ok hset
    cases hset
    obtain ⟨⟨token, rest⟩, htoken, hread⟩ := of_bind_ok hread
    cases token with
    | none => cases rest <;> cases hread
    | some token =>
      cases rest with
      | cons b rest => cases hread
      | nil =>
        cases hread
        obtain ⟨hpath, hrest⟩ := pathToken_split htoken
        have htext := upTo_append_beyond pathStops text
        rw [← hrest, append_nil] at htext
        rw [htext, Client.optional] at hpath
        split_ifs at hpath with hnil
        cases hpath
        have hiff := @pathToken_iff text [] (some text)
          (fun b hb => not_mem_upTo (htext.symm ▸ hb)) (by simp)
        rw [append_nil] at hiff
        exact ⟨h.authority, fun p hp => some.inj hp ▸ ⟨hnil, (hiff.mp htoken).1⟩, h.query⟩
  | query text =>
    obtain ⟨query, hread, hset⟩ := of_bind_ok hset
    cases hset
    obtain ⟨token, htoken, hread⟩ := of_bind_ok hread
    cases token with
    | none => cases hread
    | some token =>
      cases hread
      have hafter : Uri.afterPath ('?'.toUInt8 :: text) = .ok (some query) := htoken
      exact ⟨h.authority, h.path, (afterPath_spec hafter).1⟩

theorem build_lawful {setters : List Uri.Setter} (h : Uri.build setters = .ok uri) :
    Lawful uri ∧ uri.validityCheck = .ok uri := by
  obtain ⟨built, hbuilt, hvalid⟩ := of_bind_ok h
  obtain rfl := (validityCheck_ok hvalid).1
  refine ⟨?_, hvalid⟩
  have hrun : ∀ (setters : List Uri.Setter) (start : Uri), Lawful start →
      setters.foldlM Uri.Setter.apply start = .ok uri → Lawful uri := by
    intro setters
    induction setters with
    | nil =>
      intro start hstart hrun
      cases hrun
      exact hstart
    | cons setter setters ih =>
      intro start hstart hrun
      obtain ⟨next, hset, hrun⟩ := of_bind_ok hrun
      exact ih next (setter_lawful hstart hset) hrun
  exact hrun setters _ ⟨by simp, by simp, by simp⟩ hbuilt

def partsLength (uri : Uri) : ℕ :=
  (uri.scheme.map (·.asStr.length + 3)).getD 0 + (authorityText uri).length +
    (uri.path.getD []).length + (uri.query.map (·.length + 1)).getD 0

/-- The path begins at the root, nothing before the first colon can be taken for a scheme, and the
parts are not too long. -/
structure Rereadable (uri : Uri) : Prop where
  root : ∀ p ∈ uri.path, p.head? = some '/'.toUInt8
  slashes : uri.scheme = none → uri.authority = none → ∀ front back,
    uri.path.getD [] ++ queryText uri.query =
      front ++ ':'.toUInt8 :: '/'.toUInt8 :: '/'.toUInt8 :: back → ':'.toUInt8 ∈ front
  length : partsLength uri ≤ Uri.maxUriLen

theorem toString_length (uri : Uri) : uri.toString.length = partsLength uri := by
  obtain ⟨scheme, authority, path, query⟩ := uri
  rw [toString_eq, partsLength]
  have hslashes : (str "://").length = 3 := rfl
  cases scheme <;> cases query <;> simp [queryText, hslashes] <;> omega

/-- A URI that is built is read back as it was built just when it is `Rereadable`. -/
theorem built_uri_reread_iff {setters : List Uri.Setter} (h : Uri.build setters = .ok uri) :
    Uri.fromBytes uri.toString = .ok uri ↔ Rereadable uri := by
  obtain ⟨hlawful, hvalid⟩ := build_lawful h
  have htext := toString_eq uri
  constructor
  · intro hread
    obtain ⟨-, -, -, -, hroot, hnone⟩ := fromBytes_read hread
    refine ⟨hroot, fun hs ha => ?_, toString_length uri ▸ fromBytes_length hread⟩
    rw [hs, authorityText, ha] at htext
    exact fun front back hslashes => (hnone hs).2 front back (htext.trans hslashes)
  · rintro ⟨hroot, hslashes, hlen⟩
    refine fromBytes_toString hlawful hvalid (toString_length uri ▸ hlen) hroot fun hs => ?_
    rw [hs, map_none, getD_none, nil_append] at htext
    cases ha : uri.authority with
    | none =>
      rw [authorityText, ha, map_none, getD_none, nil_append] at htext
      rw [htext]
      exact schemeToken_none (fun hc => absurd (tail_head hroot _ hc) (by decide)) (hslashes hs ha)
    | some a =>
      obtain ⟨hplain, htoken⟩ := hlawful.authority a ha
      obtain ⟨hpath, hquery⟩ := (validityCheck_ok hvalid).2.2.1 hs (by rw [ha]; rfl)
      have hwhole : uri.toString = a.toStr := by
        rw [htext, authorityText, ha, hpath, hquery]
        simp [queryText]
      rw [hwhole]
      refine schemeToken_none (authorityToken_head hplain htoken) fun front back hfront => ?_
      exact absurd (by decide) (hplain '/'.toUInt8 (by rw [hfront]; simp))

theorem built_uri_reread_rooted :
    Uri.fromBytes (str "http://a.b/c?//@d") =
        .ok { scheme := some .http, authority := some { host := str "a.b", port := none }
              path := some (str "/c"), query := some (str "//@d") } ↔
      Rereadable { scheme := some .http, authority := some { host := str "a.b", port := none }
                   path := some (str "/c"), query := some (str "//@d") } :=
  @built_uri_reread_iff ⟨some .http, some ⟨str "a.b", none⟩, some (str "/c"), some (str "//@d")⟩
    [.scheme (str "http"), .authority (str "a.b"), .path (str "/c"), .query (str "//@d")]
    rfl

/-- A path without a slash is taken for the end of the host. -/
theorem built_uri_misread : ¬∀ (setters : List Uri.Setter) (uri : Uri),
    Uri.build setters = .ok uri → Uri.fromBytes uri.toString = .ok uri := by
  intro h
  have hread := h [.scheme (str "http"), .authority (str "a.b"), .path (str "c")]
    { scheme := some .http, authority := some { host := str "a.b", port := none }
      path := some (str "c"), query := none } rfl
  have hother : Uri.fromBytes (str "http://a.bc") =
      .ok { scheme := some .http, authority := some { host := str "a.bc", port := none }
            path := none, query := none } := rfl
  cases hother.symm.trans hread

end YlongHttp
