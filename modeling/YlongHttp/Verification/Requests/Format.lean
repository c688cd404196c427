import YlongHttp.Library.Bits
import YlongHttp.Library.Except
import YlongHttp.Model.Redirect

/-! # Formatted URIs

A formatted URI names its scheme and its port. The formatter leaves it as it is. -/

namespace YlongHttp

open List
open Library

variable {bound i n : ℕ} {bytes ds port : Bytes} {scan : AuthorityScan} {authority : Authority}

/-! ## Numbers of ports -/

theorem parseDigits_lt {acc : ℕ} (hacc : acc < bound) (h : parseDigits bound acc ds = some n) :
    n < bound := by
  induction ds generalizing acc with
  | nil => exact Option.some.inj h ▸ hacc
  | cons d ds ih =>
    rw [parseDigits] at h
    split at h
    · rename_i hd
      exact ih hd.2 h
    · cases h

theorem parseUnsigned_lt {s : Bytes} (hbound : 0 < bound) (h : parseUnsigned bound s = some n) :
    n < bound := by
  cases s with
  | nil => cases h
  | cons b rest =>
    rw [parseUnsigned] at h
    split at h
    · exact parseDigits_lt hbound h
    · exact parseDigits_lt hbound h

theorem asU16_decimal (h : n < 2 ^ 16) : asU16 (decimal n) = some n := parseUnsigned_decimal h

/-! ## Authorities -/

/-- The octets that `authority_token` looks for. -/
def authorityMarks : List UInt8 :=
  ['/'.toUInt8, '?'.toUInt8, '#'.toUInt8, '['.toUInt8, ']'.toUInt8, '@'.toUInt8, ':'.toUInt8]

/-- An octet that `authority_token` passes over. -/
def PlainByte (b : UInt8) : Prop := b ∉ authorityMarks ∧ inTable uriValueBytes b = true

theorem plainByte_digit {b : UInt8} (h : isAsciiDigit b = true) : PlainByte b := by
  revert h
  unfold PlainByte
  exact Library.forall_octet (by decide +kernel) b

theorem isAsciiDigit_of_parseDigits {acc : ℕ} (h : parseDigits bound acc ds = some n) :
    ∀ b ∈ ds, isAsciiDigit b = true := by
  induction ds generalizing acc with
  | nil => exact fun b hb => absurd hb not_mem_nil
  | cons d ds ih =>
    rw [parseDigits] at h
    split at h
    · rename_i hd
      intro b hb
      rcases mem_cons.mp hb with rfl | hb
      · exact hd.1
      · exact ih h b hb
    · cases h

theorem plainByte_of_asU16 (h : asU16 port = some n) : ∀ b ∈ port, PlainByte b := by
  cases port with
  | nil => exact fun b hb => absurd hb not_mem_nil
  | cons c rest =>
    rw [asU16, parseUnsigned] at h
    split at h
    · rename_i hplus
      intro b hb
      rcases mem_cons.mp hb with rfl | hb
      · rw [hplus.1]
        exact ⟨by decide, by decide⟩
      · exact plainByte_digit (isAsciiDigit_of_parseDigits h b hb)
    · exact fun b hb => plainByte_digit (isAsciiDigit_of_parseDigits h b hb)

theorem colon_not_mem_of_asU16 (h : asU16 port = some n) : ':'.toUInt8 ∉ port :=
  fun hmem => absurd (plainByte_of_asU16 h _ hmem).1 (by decide)

theorem authorityScan_plain (h : ∀ b ∈ bytes, PlainByte b) :
    authorityScan i scan bytes = .ok (i + bytes.length, scan) := by
  induction bytes generalizing i with
  | nil => rfl
  | cons d bytes ih =>
    obtain ⟨hplain, htable⟩ := h d (.head _)
    have hrest := ih (i := i + 1) fun b hb => h b (.tail d hb)
    simp only [authorityMarks, mem_cons, not_mem_nil, or_false, not_or] at hplain
    obtain ⟨hslash, hquery, hhash, hleft, hright, hat, hcolon⟩ := hplain
    simp only [authorityScan, hslash, hquery, hhash, hleft, hright, hat, hcolon, htable, or_self,
      if_false, if_true, hrest, length_cons]
    rw [Nat.add_assoc, Nat.add_comm 1]

theorem colonNum_of_authorityScan {stop : ℕ} {scan' : AuthorityScan} {front back : Bytes}
    (hback : ∀ b ∈ back, PlainByte b)
    (h : authorityScan i scan (front ++ ':'.toUInt8 :: back) = .ok (stop, scan'))
    (hstop : i + (front ++ ':'.toUInt8 :: back).length ≤ stop) : scan'.colonNum ≠ 0 := by
  induction front generalizing i scan with
  | nil =>
    have hplain : authorityScan (i + 1) { scan with colonNum := scan.colonNum + 1 } back = _ :=
      authorityScan_plain hback
    have hcolon : authorityScan i scan (':'.toUInt8 :: back) =
        authorityScan (i + 1) { scan with colonNum := scan.colonNum + 1 } back := by
      rw [authorityScan]
      rfl
    rw [nil_append, hcolon, hplain] at h
    cases h
    exact Nat.succ_ne_zero _
  | cons b front ih =>
    have hlen : i + (b :: front ++ ':'.toUInt8 :: back).length =
        i + 1 + (front ++ ':'.toUInt8 :: back).length := by
      simp only [cons_append, length_cons]
      omega
    rw [hlen] at hstop
    rw [cons_append, authorityScan] at h
    split at h
    · cases h
      omega
    · split_ifs at h
      all_goals exact ih h hstop

abbrev unscanned : AuthorityScan := { colonNum := 0, leftBracket := false, rightBracket := false }

theorem authorityToken_some_iff {text tail : Bytes} :
    authorityToken text = .ok (some authority, tail) ↔ ∃ stop scan,
      authorityScan 0 unscanned text =
        .ok (stop, scan) ∧ stop ≠ 0 ∧ (scan.leftBracket ^^ scan.rightBracket) = false ∧
      scan.colonNum ≤ 1 ∧ hostPort (text.take stop) scan.colonNum = .ok authority ∧
      tail = text.drop stop := by
  rw [authorityToken]
  cases authorityScan 0 unscanned text with
  | error e => exact iff_of_false nofun (by simp)
  | ok read =>
    obtain ⟨stop, scan⟩ := read
    simp only [bind, Except.bind, authorityParse, pure, Except.pure, throw, throwThe,
      MonadExceptOf.throw]
    split_ifs with hstop hbrackets hcolons
    · refine iff_of_false nofun ?_
      rintro ⟨_, _, ⟨⟩, h, -⟩
      exact h hstop
    · refine iff_of_false nofun ?_
      rintro ⟨_, _, ⟨⟩, -, h, -⟩
      cases h.symm.trans hbrackets
    · refine iff_of_false nofun ?_
      rintro ⟨_, _, ⟨⟩, -, -, h, -⟩
      omega
    · constructor
      · intro h
        cases hparse : hostPort (text.take stop) scan.colonNum with
        | error e =>
          rw [hparse] at h
          cases h
        | ok parsed =>
          rw [hparse] at h
          cases h
          exact ⟨stop, scan, rfl, hstop, by simpa using hbrackets, by omega, hparse, rfl⟩
      · rintro ⟨_, _, ⟨⟩, -, -, -, hparse, rfl⟩
        rw [hparse]

theorem Authority.fromBytes_ok (h : Authority.fromBytes bytes = .ok authority) :
    authorityToken bytes = .ok (some authority, []) := by
  rw [Authority.fromBytes] at h
  split_ifs at h
  · cases h
  · obtain ⟨⟨parsed, rest⟩, hparsed, h⟩ := of_bind_ok h
    rw [hparsed]
    cases parsed with
    | none => cases h
    | some parsed =>
      cases rest with
      | nil =>
        cases h
        rfl
      | cons b rest => cases h

theorem Authority.fromBytes_hostPort {host : Bytes} (hport : asU16 port = some n)
    (h : Authority.fromBytes (host ++ ':'.toUInt8 :: port) = .ok authority) :
    authority = { host, port := some port } := by
  have hne : port ≠ [] := by
    rintro rfl
    cases hport
  obtain ⟨stop, scan, hscan, -, -, -, hparse, hrest⟩ :=
    authorityToken_some_iff.mp (Authority.fromBytes_ok h)
  have hstop : (host ++ ':'.toUInt8 :: port).length ≤ stop := drop_eq_nil_iff.mp hrest.symm
  have hcolons := colonNum_of_authorityScan (plainByte_of_asU16 hport) hscan (by rwa [Nat.zero_add])
  rw [take_of_length_le hstop, hostPort, if_pos hcolons,
    rsplitOnce_append (colon_not_mem_of_asU16 hport)] at hparse
  dsimp only at hparse
  rw [if_neg hne, hport] at hparse
  split_ifs at hparse with hhost
  cases hparse
  rfl

namespace Client

variable {B : Type} {defaultScheme : Scheme}
variable {uri uri' : Uri} {host : Bytes} {n : ℕ}

/-! ## URIs -/

def portNumber (uri : Uri) (scheme : Scheme) : ℕ := (uri.port.bind asU16).getD scheme.defaultPort

theorem portNumber_lt (uri : Uri) (scheme : Scheme) : portNumber uri scheme < 2 ^ 16 := by
  rw [portNumber]
  cases hport : uri.port.bind asU16 with
  | none => cases scheme <;> decide
  | some n =>
    obtain ⟨port, -, hn⟩ := Option.bind_eq_some_iff.mp hport
    exact parseUnsigned_lt (by decide) hn

theorem formatUri_ok (h : formatUri defaultScheme uri = .ok uri') :
    ∃ host, uri.host = some host ∧ uri' =
      { scheme := some (uri.scheme.getD defaultScheme)
        authority := some { host := host
                            port := some (decimal (portNumber uri (uri.scheme.getD defaultScheme))) }
        path := some (uri.path.getD (str "/"))
        query := uri.query } := by
  rw [formatUri] at h
  cases hhost : uri.host with
  | none =>
    rw [hhost] at h
    cases h
  | some host =>
    refine ⟨host, rfl, ?_⟩
    rw [hhost] at h
    dsimp only at h
    split at h
    · rename_i built hbuilt
      cases h
      obtain ⟨authority, hauth, hvalid⟩ := of_bind_ok hbuilt
      cases hvalid
      rw [Authority.fromBytes_hostPort (asU16_decimal (portNumber_lt _ _)) hauth]
    · cases h

def origin (defaultScheme : Scheme) (uri : Uri) : Option (Scheme × Bytes × ℕ) :=
  uri.host.map fun host =>
    let scheme := uri.scheme.getD defaultScheme
    (scheme, host.map toAsciiLowercase, portNumber uri scheme)

theorem portNumber_eq (hn : n < 2 ^ 16)
    (hauth : uri.authority = some { host, port := some (decimal n) }) (scheme : Scheme) :
    portNumber uri scheme = n := by
  rw [portNumber, Uri.port, hauth, Option.bind_some, Option.bind_some, asU16_decimal hn,
    Option.getD_some]

theorem origin_eq {scheme : Scheme} (hn : n < 2 ^ 16) (hsch : uri.scheme = some scheme)
    (hauth : uri.authority = some { host, port := some (decimal n) }) :
    origin defaultScheme uri = some (scheme, host.map toAsciiLowercase, n) := by
  rw [origin, Uri.host, hsch, hauth]
  simp [portNumber_eq hn hauth]

theorem origin_formatUri (h : formatUri defaultScheme uri = .ok uri') :
    origin defaultScheme uri' = origin defaultScheme uri := by
  obtain ⟨host, hhost, rfl⟩ := formatUri_ok h
  rw [origin_eq (portNumber_lt uri _) rfl rfl, origin, hhost]
  rfl

def Formatted (uri : Uri) : Prop :=
  ∃ scheme host n path, n < 2 ^ 16 ∧ uri =
    { scheme := some scheme, authority := some { host, port := some (decimal n) },
      path := some path, query := uri.query }

theorem formatted_of_formatUri (h : formatUri defaultScheme uri = .ok uri') : Formatted uri' := by
  obtain ⟨host, -, rfl⟩ := formatUri_ok h
  exact ⟨_, host, _, _, portNumber_lt _ _, rfl⟩

theorem formatUri_formatted (hformatted : Formatted uri)
    (h : formatUri defaultScheme uri = .ok uri') : uri' = uri := by
  obtain ⟨scheme, host, n, path, hn, huri⟩ := hformatted
  have hauth : uri.authority = some { host, port := some (decimal n) } := by rw [huri]
  obtain ⟨host', hhost, rfl⟩ := formatUri_ok h
  rw [Uri.host, hauth] at hhost
  cases hhost
  rw [portNumber_eq hn hauth, huri]
  rfl

/-! ## Requests -/

theorem Request.format_ok {request request' : Request B}
    (h : request.format defaultScheme = .ok request') :
    formatUri defaultScheme request.uri = .ok request'.uri ∧ request'.body = request.body ∧
      ∀ name, HeaderName.fromBytes name ≠ HeaderName.fromBytes (str "Accept") →
        HeaderName.fromBytes name ≠ HeaderName.fromBytes (str "Host") →
        request'.headers.get name = request.headers.get name := by
  have hinsert : ∀ (headers : Headers) (field value name : Bytes),
      HeaderName.fromBytes name ≠ HeaderName.fromBytes field →
      ((headers.insert field value).getD headers).get name = headers.get name := by
    intro headers field value name hne
    cases hinsert : headers.insert field value with
    | none => rfl
    | some headers' => exact Headers.get_insert hinsert hne
  rw [Request.format] at h
  by_cases hver : request.version = .http1_0 ∧ request.method = .connect
  · rw [if_pos hver] at h
    cases h
  · rw [if_neg hver] at h
    obtain ⟨uri, huri, h⟩ := of_bind_ok h
    obtain ⟨hostValue, -, h⟩ := of_bind_ok h
    cases h
    refine ⟨huri, rfl, fun name haccept hhost => ?_⟩
    dsimp only
    rw [hinsert _ _ _ _ hhost]
    split_ifs
    · exact hinsert _ _ _ _ haccept
    · rfl

end Client

end YlongHttp
