import YlongHttp.Model.PercentEncoder
import YlongHttp.Verification.Requests.Uris

/-! # Percent encoding loses nothing, and what it writes is accepted -/

namespace YlongHttp.PercentEncoder

open List
open Client (authorityStops pathStops authorityToken_split)
open Library.Reference (upTo_eq upTo_append_beyond not_mem_upTo)

variable {set text scheme a path : Bytes} {query fragment : Option Bytes}

/-! ## Decoding -/

variable (b : UInt8)

def hexValue : Option UInt8 :=
  if '0'.toUInt8 ≤ b ∧ b ≤ '9'.toUInt8 then some (b - '0'.toUInt8)
  else if 'a'.toUInt8 ≤ b ∧ b ≤ 'f'.toUInt8 then some (b - 'a'.toUInt8 + 10)
  else if 'A'.toUInt8 ≤ b ∧ b ≤ 'F'.toUInt8 then some (b - 'A'.toUInt8 + 10)
  else none

def percentDecode : Bytes → Bytes
  | b :: c :: d :: rest =>
    match b == '%'.toUInt8, hexValue c, hexValue d with
    | true, some high, some low => (16 * high + low) :: percentDecode rest
    | _, _, _ => b :: percentDecode (c :: d :: rest)
  | text => text

def encode (set : Bytes) (text : Bytes) : Bytes := text.flatMap (percentEncodingPush set)

def kept (text : Bytes) : Bytes := text.filter (!isDropped ·)

def Keeps (set : Bytes) : Prop :=
  ∀ b, b = '%'.toUInt8 ∨ (hexValue b).isSome → percentEncodingPush set b = [b]

theorem percentHex_digits : (match percentHex b with
    | [c, d] => match hexValue c, hexValue d with
      | some high, some low => 16 * high + low == b
      | _, _ => false
    | _ => false) = true := by
  revert b
  exact Library.forall_octet (by decide +kernel)

theorem sets_kept :
    (b = '%'.toUInt8 ∨ (hexValue b).isSome → percentEncodingPush pathSet b = [b] ∧
      percentEncodingPush querySet b = [b] ∧ percentEncodingPush fragmentSet b = [b]) ∧
    (percentEncodingPush pathSet b).all (inTable pathAndQueryBytes) = true ∧
    (percentEncodingPush querySet b).all queryByte = true := by
  revert b
  exact Library.forall_octet (by decide +kernel)

theorem octets_sorted :
    isAuthorityByte b = (!authorityStops.contains b) ∧ isPathByte b = (!pathStops.contains b) ∧
    decide (b ≠ '#'.toUInt8) = (!(['#'.toUInt8] : Bytes).contains b) ∧
    (authorityByte b = true → b ∉ authorityStops ∧ b ≠ '@'.toUInt8 ∧ push b = [b]) ∧
    (if b = '/'.toUInt8 then push b else percentEncodingPush pathSet b) =
      percentEncodingPush pathSet b ∧
    (toAsciiLowercase b ∈ str "https" → isSchemeByte b = true) := by
  revert b
  exact Library.forall_octet (by decide +kernel)

theorem percentEncodingPush_cases (set : Bytes) (b : UInt8) :
    isDropped b = true ∧ percentEncodingPush set b = [] ∨
    isDropped b = false ∧ percentEncodingPush set b = [b] ∨
    isDropped b = false ∧ ∃ c d high low, percentEncodingPush set b = ['%'.toUInt8, c, d] ∧
      hexValue c = some high ∧ hexValue d = some low ∧ 16 * high + low = b := by
  have hdigits : ∃ c d high low, percentHex b = [c, d] ∧ hexValue c = some high ∧
      hexValue d = some low ∧ 16 * high + low = b := by
    have hall := percentHex_digits b
    rw [percentHex] at hall ⊢
    dsimp only at hall
    split at hall
    · rename_i high low hhigh hlow
      exact ⟨_, _, high, low, rfl, hhigh, hlow, eq_of_beq hall⟩
    · cases hall
  rw [percentEncodingPush]
  cases hdropped : isDropped b with
  | true => exact .inl ⟨rfl, rfl⟩
  | false =>
    rw [if_neg Bool.false_ne_true]
    split_ifs
    · obtain ⟨c, d, high, low, hhex, hrest⟩ := hdigits
      exact .inr (.inr ⟨rfl, c, d, high, low, by rw [hhex], hrest⟩)
    · exact .inr (.inl ⟨rfl, rfl⟩)

theorem percentDecode_cons (text : Bytes) :
    percentDecode (b :: text) =
      match b == '%'.toUInt8, (text[0]?).bind hexValue, (text[1]?).bind hexValue with
      | true, some high, some low => (16 * high + low) :: percentDecode (text.drop 2)
      | _, _, _ => b :: percentDecode text := by
  rcases text with _ | ⟨c, _ | ⟨d, rest⟩⟩
  · cases b == '%'.toUInt8 <;> rfl
  · cases b == '%'.toUInt8 <;> cases h : hexValue c <;> simp [percentDecode, h]
  · rfl

theorem encode_cons (set : Bytes) (b : UInt8) (text : Bytes) :
    encode set (b :: text) = percentEncodingPush set b ++ encode set text := rfl

theorem encode_kept (set text : Bytes) : encode set text = encode set (kept text) := by
  induction text with
  | nil => rfl
  | cons b text ih =>
    rw [encode_cons, ih]
    cases hb : isDropped b with
    | true => simp [percentEncodingPush, kept, hb]
    | false => simp [kept, hb, encode_cons]

theorem head_encode (hset : Keeps set) (htext : ∀ b ∈ text, isDropped b = false) :
    (encode set text)[0]?.bind hexValue = text[0]?.bind hexValue := by
  cases text with
  | nil => rfl
  | cons b text =>
    rw [encode_cons]
    rcases percentEncodingPush_cases set b with ⟨hb, -⟩ | ⟨-, hpush⟩ | ⟨-, c, d, _, _, hpush, -⟩
    · rw [htext b mem_cons_self] at hb
      cases hb
    · rw [hpush]
      rfl
    · have hnone : hexValue b = none := by
        cases hb : hexValue b with
        | none => rfl
        | some value =>
          rw [hset b (.inr (by rw [hb]; rfl))] at hpush
          cases hpush
      rw [hpush]
      exact hnone.symm

theorem percentDecode_encode (hset : Keeps set) (text : Bytes) :
    percentDecode (encode set text) = percentDecode (kept text) := by
  have hall : ∀ n (text : Bytes), text.length ≤ n → (∀ b ∈ text, isDropped b = false) →
      percentDecode (encode set text) = percentDecode text := by
    intro n
    induction n with
    | zero =>
      intro text hlen _
      rw [length_eq_zero_iff.mp (Nat.le_zero.mp hlen)]
      rfl
    | succ n ih =>
      intro text hlen hkept
      cases text with
      | nil => rfl
      | cons b text =>
        obtain ⟨hb, htext⟩ := forall_mem_cons.mp hkept
        have hrest := ih text (Nat.le_of_succ_le_succ hlen) htext
        rw [encode_cons, percentDecode_cons b text]
        by_cases hpercent : b = '%'.toUInt8
        · -- What is behind the percent sign are two digits before and after, or not.
          rw [hset b (.inl hpercent), singleton_append, percentDecode_cons,
            head_encode hset htext, hrest]
          cases hhigh : text[0]?.bind hexValue with
          | none => cases b == '%'.toUInt8 <;> rfl
          | some high =>
            obtain ⟨c, text, rfl⟩ : ∃ c text', text = c :: text' := by
              cases text with
              | nil => cases hhigh
              | cons c text => exact ⟨c, text, rfl⟩
            have hc : percentEncodingPush set c = [c] :=
              hset c (.inr (Option.isSome_iff_exists.mpr ⟨high, hhigh⟩))
            have hsec : (encode set (c :: text))[1]?.bind hexValue =
                (c :: text)[1]?.bind hexValue := by
              rw [encode_cons, hc]
              exact head_encode hset (forall_mem_cons.mp htext).2
            rw [hsec]
            cases hlow : (c :: text)[1]?.bind hexValue with
            | none => cases b == '%'.toUInt8 <;> rfl
            | some low =>
              obtain ⟨d, text, rfl⟩ : ∃ d text', text = d :: text' := by
                cases text with
                | nil => cases hlow
                | cons d text => exact ⟨d, text, rfl⟩
              have hd : percentEncodingPush set d = [d] :=
                hset d (.inr (Option.isSome_iff_exists.mpr ⟨low, hlow⟩))
              have htail := ih text (by simp only [length_cons] at hlen; omega)
                fun b hb => htext b (by simp [hb])
              rw [encode_cons, encode_cons, hc, hd]
              cases b == '%'.toUInt8 with
              | true => exact congrArg (_ :: ·) htail
              | false => rfl
        · have hfalse : (b == '%'.toUInt8) = false := by simpa using hpercent
          rw [hfalse]
          rcases percentEncodingPush_cases set b with
            ⟨hdropped, -⟩ | ⟨-, hpush⟩ | ⟨-, c, d, high, low, hpush, hhigh, hlow, hval⟩
          · rw [hb] at hdropped
            cases hdropped
          · rw [hpush, singleton_append, percentDecode_cons, hfalse, hrest]
          · rw [hpush, ← hrest, ← hval]
            simp [percentDecode, hhigh, hlow]
  rw [encode_kept]
  exact hall _ _ le_rfl fun b hb => by simpa using (mem_filter.mp hb).2

theorem encode_append (set front back : Bytes) :
    encode set (front ++ back) = encode set front ++ encode set back := List.flatMap_append

theorem encode_encode (hset : Keeps set) (text : Bytes) :
    encode set (encode set text) = encode set text := by
  induction text with
  | nil => rfl
  | cons b text ih =>
    rw [encode_cons, encode_append, ih]
    congr 1
    rcases percentEncodingPush_cases set b with
      ⟨-, hpush⟩ | ⟨-, hpush⟩ | ⟨-, c, d, _, _, hpush, hc, hd, -⟩
    · rw [hpush]
      rfl
    · rw [hpush, encode_cons, hpush]
      rfl
    · have hsign := hset '%'.toUInt8 (.inl rfl)
      have hc := hset c (.inr (by rw [hc]; rfl))
      have hd := hset d (.inr (by rw [hd]; rfl))
      rw [hpush, encode_cons, encode_cons, encode_cons, hsign, hc, hd]
      rfl

theorem keeps_pathSet : Keeps pathSet := fun b h => ((sets_kept b).1 h).1

theorem keeps_querySet : Keeps querySet := fun b h => ((sets_kept b).1 h).2.1

theorem keeps_fragmentSet : Keeps fragmentSet := fun b h => ((sets_kept b).1 h).2.2

/-! ## What is written is accepted -/

theorem encode_valid {valid : UInt8 → Bool}
    (h : ∀ b, (percentEncodingPush set b).all valid = true) :
    ∀ b ∈ encode set text, valid b = true := by
  intro b hb
  obtain ⟨c, -, hc⟩ := mem_flatMap.mp hb
  exact all_eq_true.mp (h c) b hc

theorem encode_path_valid : ∀ b ∈ encode pathSet text, inTable pathAndQueryBytes b = true :=
  encode_valid fun b => (sets_kept b).2.1

theorem encode_query_valid : ∀ b ∈ encode querySet text, queryByte b = true :=
  encode_valid fun b => (sets_kept b).2.2

def fragmentText (fragment : Option Bytes) : Bytes := (fragment.map ('#'.toUInt8 :: ·)).getD []

def assembled (scheme authority path : Bytes) (query fragment : Option Bytes) : Bytes :=
  scheme ++ (str "://" ++ (authority ++ (path ++ (queryText query ++ fragmentText fragment))))

theorem parseScheme_append {scheme : Bytes} (h : ∀ b ∈ scheme, isSchemeByte b = true)
    (rest : Bytes) : parseScheme (scheme ++ ':'.toUInt8 :: rest) =
      .ok (scheme.map toAsciiLowercase ++ [':'.toUInt8], rest) := by
  induction scheme with
  | nil => rfl
  | cons b scheme ih =>
    obtain ⟨hb, hsch⟩ := forall_mem_cons.mp h
    rw [cons_append, parseScheme, if_pos hb, ih hsch]
    rfl

theorem isAuthorityByte_eq : isAuthorityByte = (!authorityStops.contains ·) :=
  funext fun b => (octets_sorted b).1

theorem isPathByte_eq : isPathByte = (!pathStops.contains ·) :=
  funext fun b => (octets_sorted b).2.1

theorem encode_path (path : Bytes) : (path.flatMap fun b =>
    if b = '/'.toUInt8 then push b else percentEncodingPush pathSet b) = encode pathSet path := by
  have hpush : ∀ b, (if b = '/'.toUInt8 then push b else percentEncodingPush pathSet b) =
      percentEncodingPush pathSet b := fun b => (octets_sorted b).2.2.2.2.1
  simp only [hpush]
  rfl

theorem flatMap_push (h : ∀ b ∈ text, authorityByte b = true) : text.flatMap push = text := by
  induction text with
  | nil => rfl
  | cons b text ih =>
    obtain ⟨hb, htext⟩ := forall_mem_cons.mp h
    rw [flatMap_cons, ((octets_sorted b).2.2.2.1 hb).2.2, ih htext]
    rfl

theorem fragmentText_head (fragment : Option Bytes) :
    ∀ b ∈ (fragmentText fragment).head?, b = '#'.toUInt8 := by
  cases fragment with
  | none => exact nofun
  | some f =>
    rintro b ⟨⟩
    rfl

theorem parseQueryAndFragment_eq (hquery : ∀ q ∈ query, '#'.toUInt8 ∉ q) :
    parseQueryAndFragment (queryText query ++ fragmentText fragment) =
      .ok (queryText (query.map (encode querySet)) ++
        fragmentText (fragment.map (encode fragmentSet))) := by
  cases query with
  | none =>
    cases fragment
    · rfl
    · rfl
  | some q =>
    have hq : ∀ b ∈ q, b ∉ ['#'.toUInt8] := by
      rintro b hb (_ | ⟨_, ⟨⟩⟩)
      exact hquery q rfl hb
    have hfront : (q ++ fragmentText fragment).takeWhile (· ≠ '#'.toUInt8) = q := by
      have hsame : (fun b : UInt8 => decide (b ≠ '#'.toUInt8)) =
          (!(['#'.toUInt8] : Bytes).contains ·) :=
        funext fun b => (octets_sorted b).2.2.1
      rw [hsame]
      exact (upTo_eq hq fun b hb => by simp [fragmentText_head fragment b hb]).1
    change (parseQuery (q ++ fragmentText fragment) |> fun read : Bytes × Bytes =>
      Except.ok ('?'.toUInt8 :: read.1 ++ parseFragment read.2)) = _
    rw [parseQuery, hfront, drop_left]
    cases fragment with
    | none => simp [fragmentText, queryText, encode, parseFragment]
    | some f =>
      have hpush : push '#'.toUInt8 = ['#'.toUInt8] := rfl
      simp [fragmentText, queryText, encode, parseFragment, hpush]

theorem rest_head (query fragment : Option Bytes) :
    ∀ b ∈ (queryText query ++ fragmentText fragment).head?, b ∈ pathStops := by
  intro b hb
  cases query with
  | none =>
    rw [fragmentText_head fragment b hb]
    decide
  | some q =>
    cases hb
    decide

theorem path_head {rest : Bytes} (hroot : ∀ b ∈ path.head?, b = '/'.toUInt8)
    (hrest : ∀ b ∈ rest.head?, b ∈ pathStops) :
    ∀ b ∈ (path ++ rest).head?, b ∈ authorityStops := by
  intro b hb
  cases path with
  | nil => exact .tail _ (hrest b hb)
  | cons c path =>
    rw [hroot b hb]
    decide

theorem encode_head (hroot : ∀ b ∈ path.head?, b = '/'.toUInt8) :
    ∀ b ∈ (encode pathSet path).head?, b = '/'.toUInt8 := by
  cases path with
  | nil => exact nofun
  | cons c path =>
    obtain rfl := hroot c rfl
    rintro b ⟨⟩
    rfl

theorem scheme_read {target : Scheme} (h : Scheme.fromBytes scheme = .ok target) :
    scheme.map toAsciiLowercase = target.asStr ∧ ∀ b ∈ scheme, isSchemeByte b = true := by
  have hlower : scheme.map toAsciiLowercase = target.asStr := by
    rw [Scheme.fromBytes] at h
    split_ifs at h with hhttp hhttps
    · cases h
      exact eq_of_beq hhttp
    · cases h
      exact eq_of_beq hhttps
  refine ⟨hlower, fun b hb => ?_⟩
  have hmem : toAsciiLowercase b ∈ target.asStr := hlower ▸ mem_map_of_mem hb
  refine (octets_sorted b).2.2.2.2.2 ?_
  cases target with
  | http => exact mem_append_left (str "s") hmem
  | https => exact hmem

variable {authority : Authority}

theorem authority_bytes (h : Authority.fromBytes a = .ok authority) :
    a ≠ [] ∧ ∀ b ∈ a, authorityByte b = true := by
  have htoken := Authority.fromBytes_ok h
  have htext := upTo_append_beyond authorityStops a
  rw [← (authorityToken_split htoken).1, append_nil] at htext
  obtain ⟨stop, scan, hscan, -⟩ := authorityToken_some_iff.mp htoken
  refine ⟨?_, authorityScan_allowed (fun b hb => not_mem_upTo (htext.symm ▸ hb)) hscan⟩
  rintro rfl
  cases h

theorem authorityByte_plain {b : UInt8} (h : authorityByte b = true) :
    b ∉ authorityStops ∧ b ≠ '@'.toUInt8 :=
  ⟨((octets_sorted b).2.2.2.1 h).1, ((octets_sorted b).2.2.2.1 h).2.1⟩

theorem parse_authority {tail : Bytes} (hne : a ≠ []) (ha : ∀ b ∈ a, authorityByte b = true)
    (htail : ∀ b ∈ tail.head?, b ∈ authorityStops) :
    parseDoubleSlash (str "//" ++ (a ++ tail)) = .ok (str "//", a ++ tail) ∧
      parseUserinfo (a ++ tail) = .ok ([], a ++ tail) ∧ parseAuthority (a ++ tail) = (a, tail) := by
  have hsplit := upTo_eq (fun b hb => (authorityByte_plain (ha b hb)).1) htail
  have hfront : (a ++ tail).takeWhile isAuthorityByte = a := isAuthorityByte_eq ▸ hsplit.1
  have hback : (a ++ tail).dropWhile isAuthorityByte = tail := isAuthorityByte_eq ▸ hsplit.2
  refine ⟨?_, ?_, ?_⟩
  · obtain ⟨b, a, rfl⟩ := exists_cons_of_ne_nil hne
    have hb : b ≠ '/'.toUInt8 := by
      rintro rfl
      exact (authorityByte_plain (ha _ (.head _))).1 (by decide)
    change parseDoubleSlash ('/'.toUInt8 :: '/'.toUInt8 :: b :: _) = _
    simp [parseDoubleSlash, hb]
    rfl
  · rw [parseUserinfo, hfront, rsplitOnce_none fun hat => (authorityByte_plain (ha _ hat)).2 rfl]
  · rw [parseAuthority, hfront, hback, flatMap_push ha]

theorem parse_assembled (hsch : ∀ b ∈ scheme, isSchemeByte b = true) (hne : a ≠ [])
    (ha : ∀ b ∈ a, authorityByte b = true) (hpath : ∀ b ∈ path, b ∉ pathStops)
    (hroot : ∀ b ∈ path.head?, b = '/'.toUInt8) (hquery : ∀ q ∈ query, '#'.toUInt8 ∉ q) :
    parse (assembled scheme a path query fragment) =
      .ok (assembled (scheme.map toAsciiLowercase) a (encode pathSet path)
        (query.map (encode querySet)) (fragment.map (encode fragmentSet))) := by
  have hrest := rest_head query fragment
  obtain ⟨hslashes, huser, hauth⟩ := parse_authority hne ha (path_head hroot hrest)
  obtain ⟨hfront, hback⟩ := upTo_eq hpath hrest
  have hpath' : parsePath (path ++ (queryText query ++ fragmentText fragment)) =
      (encode pathSet path, queryText query ++ fragmentText fragment) := by
    rw [parsePath, isPathByte_eq]
    exact Prod.ext ((congrArg _ hfront).trans (encode_path path)) hback
  have hread : parseScheme (assembled scheme a path query fragment) = _ := parseScheme_append hsch _
  rw [parse, hread]
  change (parseDoubleSlash (str "//" ++ _) >>= _) = _
  simp only [hslashes, huser, hauth, hpath', parseQueryAndFragment_eq hquery, bind,
    Except.bind, pure, Except.pure, assembled, append_nil, append_assoc]
  rfl

theorem fromBytes_assembled {scheme : Scheme} (hauth : Authority.fromBytes a = .ok authority)
    (hpath : ∀ b ∈ path, inTable pathAndQueryBytes b = true)
    (hroot : ∀ b ∈ path.head?, b = '/'.toUInt8) (hquery : ∀ q ∈ query, ∀ b ∈ q, queryByte b = true)
    (hlen : (assembled scheme.asStr a path query fragment).length ≤ Uri.maxUriLen) :
    Uri.fromBytes (assembled scheme.asStr a path query fragment) =
      .ok { scheme := some scheme, authority := some authority, path := Client.optional path
            query := query.bind Client.optional } := by
  have hrest := rest_head query fragment
  have hread : schemeToken (assembled scheme.asStr a path query fragment) =
      .ok (some scheme, a ++ (path ++ (queryText query ++ fragmentText fragment))) := by
    rw [assembled, ← append_assoc]
    exact schemeToken_asStr scheme _
  have ha : ∀ b ∈ a, b ∉ authorityStops :=
    fun b hb => (authorityByte_plain ((authority_bytes hauth).2 b hb)).1
  have hauth' := (authorityToken_append ha (path_head hroot hrest)).mpr
    (Authority.fromBytes_ok hauth)
  have hpath' := (pathToken_iff (fun b hb => pathByte_not_stop (hpath b hb)) hrest).mpr ⟨hpath, rfl⟩
  have hquery' : Uri.afterPath (queryText query ++ fragmentText fragment) =
      .ok (query.bind Client.optional) := by
    cases query with
    | none =>
      cases fragment
      · rfl
      · rfl
    | some q =>
      exact (afterPath_iff (fun b hb => queryByte_not_stop (hquery q rfl b hb)) fun b hb => by
        simp [fragmentText_head fragment b hb]).mpr ⟨hquery q rfl, rfl⟩
  have hne : assembled scheme.asStr a path query fragment ≠ [] := by cases scheme <;> exact nofun
  rw [Uri.fromBytes, if_neg (Nat.not_lt.mpr hlen), if_neg hne]
  simp only [hread, hauth', hpath', hquery', bind, Except.bind]
  rfl

/-- What is encoded is accepted, decoded to what was given without tabs and line breaks, and left
alone from then on. -/
theorem percent_encoding_lossless {target : Scheme} {authority : Authority}
    (hscheme : Scheme.fromBytes scheme = .ok target)
    (hauthority : Authority.fromBytes a = .ok authority) (hpath : ∀ b ∈ path, b ∉ pathStops)
    (hroot : ∀ b ∈ path.head?, b = '/'.toUInt8) (hquery : ∀ q ∈ query, '#'.toUInt8 ∉ q)
    (hlength : ∀ out, parse (assembled scheme a path query fragment) = .ok out →
      out.length ≤ Uri.maxUriLen) :
    ∃ out uri, parse (assembled scheme a path query fragment) = .ok out ∧
      Uri.fromBytes out = .ok uri ∧ uri.scheme = some target ∧ uri.authority = some authority ∧
      percentDecode (uri.path.getD []) = percentDecode (kept path) ∧
      percentDecode (uri.query.getD []) = percentDecode (kept (query.getD [])) ∧
      parse out = .ok out := by
  obtain ⟨hlower, hbytes⟩ := scheme_read hscheme
  obtain ⟨hne, ha⟩ := authority_bytes hauthority
  have hroot' := encode_head hroot
  have hquery' : ∀ q ∈ query.map (encode querySet), ∀ b ∈ q, queryByte b = true := by
    intro q hq
    obtain ⟨q, -, rfl⟩ := Option.map_eq_some_iff.mp hq
    exact encode_query_valid
  have hparse := @parse_assembled _ _ _ _ fragment hbytes hne ha hpath hroot hquery
  rw [hlower] at hparse
  have hread := fromBytes_assembled hauthority encode_path_valid hroot' hquery'
    (hlength _ hparse)
  refine ⟨_, _, hparse, hread, rfl, rfl, ?_, ?_, ?_⟩
  · rw [getD_optional, percentDecode_encode keeps_pathSet]
  · rw [← percentDecode_encode keeps_querySet]
    cases query with
    | none => rfl
    | some q => exact congrArg percentDecode (getD_optional (encode querySet q))
  · have htarget := @scheme_read target.asStr target (by cases target <;> rfl)
    have hagain := @parse_assembled _ _ _ _ (fragment.map (encode fragmentSet)) htarget.2 hne ha
      (fun b hb => pathByte_not_stop (encode_path_valid b hb)) hroot' fun q hq hhash =>
        queryByte_not_stop (hquery' q hq _ hhash) (.head _)
    rw [hagain, htarget.1, encode_encode keeps_pathSet, Option.map_map, Option.map_map]
    simp only [Function.comp_def, encode_encode keeps_querySet, encode_encode keeps_fragmentSet]

theorem percent_encoding_lossless_spaced :
    ∃ out uri, parse (assembled (str "HTTP") (str "a.b:80") (str "/c d\t%41") (some (str "e'<"))
        (some (str "f g"))) = .ok out ∧
      Uri.fromBytes out = .ok uri ∧ uri.scheme = some .http ∧
      uri.authority = some { host := str "a.b", port := some (str "80") } ∧
      percentDecode (uri.path.getD []) = percentDecode (kept (str "/c d\t%41")) ∧
      percentDecode (uri.query.getD []) = percentDecode (kept (str "e'<")) ∧
      parse out = .ok out := by
  have hread : Scheme.fromBytes (str "HTTP") = .ok .http ∧
      Authority.fromBytes (str "a.b:80") = .ok { host := str "a.b", port := some (str "80") } ∧
      (∀ b ∈ str "/c d\t%41", b ∉ pathStops) ∧ (∀ b ∈ (str "/c d\t%41").head?, b = '/'.toUInt8) ∧
      (∀ q ∈ some (str "e'<"), '#'.toUInt8 ∉ q) ∧
      (str "http://a.b:80/c%20d%41?e%27%3C#f%20g").length ≤ Uri.maxUriLen ∧
      parse (assembled (str "HTTP") (str "a.b:80") (str "/c d\t%41") (some (str "e'<"))
        (some (str "f g"))) = .ok (str "http://a.b:80/c%20d%41?e%27%3C#f%20g") := by
    decide +kernel
  obtain ⟨hsch, hauth, hpath, hroot, hquery, hlen, hparse⟩ := hread
  refine percent_encoding_lossless hsch hauth hpath hroot hquery fun out hout => ?_
  cases hparse.symm.trans hout
  exact hlen

end YlongHttp.PercentEncoder
