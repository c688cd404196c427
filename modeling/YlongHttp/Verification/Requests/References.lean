import YlongHttp.Library.Reference
import YlongHttp.Model.Http1.RequestEncoder
import YlongHttp.Verification.Requests.Format

/-! # Where a redirect goes

The URI of the next request beside the target that RFC 3986 gives to the `Location`. -/

namespace YlongHttp.Client

open Option
open Library (Reference of_bind_ok)
open Library.Reference (upTo beyond upTo_append_beyond not_mem_upTo head_beyond upTo_eq upTo_upTo
  splitScheme splitAuthority splitQuery HasDots merge removeDotSegments resolve
  removeDotSegments_spec removeDotSegments_length hasDots_single hasDots_slash)
variable {bytes front rest : Bytes} {stops : List UInt8}

/-! ## References that are read -/

abbrev authorityStops : Bytes := ['/'.toUInt8, '?'.toUInt8, '#'.toUInt8]

abbrev pathStops : Bytes := ['?'.toUInt8, '#'.toUInt8]

def Written (authority : Authority) (text : Bytes) : Prop :=
  text = authority.toStr ∨ (authority.port = none ∧ text = authority.host ++ [':'.toUInt8])

def optional (text : Bytes) : Option Bytes := if text = [] then none else some text

/-- How `Uri::from_bytes` reads a reference. -/
inductive Reads (uri : Uri) (reference : Reference) : Prop
  | absolute (scheme : Scheme) (authority : Authority) (s a : Bytes)
      (hscheme : uri.scheme = some scheme) (hauthority : uri.authority = some authority)
      (hs : reference.scheme = some s) (hsame : eqIgnoreAsciiCase s scheme.asStr = true)
      (ha : reference.authority = some a) (hwritten : Written authority a)
      (hhead : ∀ b ∈ reference.path.head?, b = '/'.toUInt8)
      (hpath : uri.path = optional reference.path)
      (hquery : uri.query = reference.query.bind optional)
  /-- A network path is read as the path of the same server. -/
  | network (a : Bytes) (hscheme : uri.scheme = none) (hs : reference.scheme = none)
      (ha : reference.authority = some a)
      (hpath : uri.path = some ('/'.toUInt8 :: '/'.toUInt8 :: a ++ reference.path))
  | rooted (hscheme : uri.scheme = none) (hs : reference.scheme = none)
      (ha : reference.authority = none) (hhead : ∀ b ∈ reference.path.head?, b = '/'.toUInt8)
      (hpath : uri.path = optional reference.path)
      (hquery : uri.query = reference.query.bind optional)
      (hsome : uri.path ≠ none ∨ uri.query ≠ none)
  /-- A scheme that no authority follows is read as an authority. -/
  | rootless (hscheme : uri.scheme = none) (hs : reference.scheme.isSome)
      (ha : reference.authority = none)
  /-- A relative path is read as an authority. -/
  | relative (hscheme : uri.scheme = none) (hs : reference.scheme = none)
      (ha : reference.authority = none) (hne : reference.path ≠ [])
      (hhead : reference.path.head? ≠ some '/'.toUInt8) (hpath : uri.path = none)
      (hquery : uri.query = none) (hnone : reference.query.bind optional = none)

theorem eqIgnoreAsciiCase_length {a b : Bytes} (h : eqIgnoreAsciiCase a b = true) :
    a.length = b.length := by
  have hmap := congrArg List.length (eq_of_beq h)
  rwa [List.length_map, List.length_map] at hmap

theorem schemeToken_ok {scheme : Option Scheme} (h : schemeToken bytes = .ok (scheme, rest)) :
    (∃ s text, scheme = some s ∧ bytes = text ++ ':'.toUInt8 :: '/'.toUInt8 :: '/'.toUInt8 :: rest ∧
      eqIgnoreAsciiCase text s.asStr = true) ∨
    (scheme = none ∧ rest = bytes ∧ bytes.head? ≠ some ':'.toUInt8 ∧
      ∀ front back, bytes = front ++ ':'.toUInt8 :: '/'.toUInt8 :: '/'.toUInt8 :: back →
        ':'.toUInt8 ∈ front) := by
  by_cases hcolon : ':'.toUInt8 ∈ bytes
  · obtain ⟨front, back, rfl, hfront⟩ := List.eq_append_cons_of_mem hcolon
    have hidx : (front ++ ':'.toUInt8 :: back).findIdx? (· == ':'.toUInt8) = some front.length := by
      have hnone : front.findIdx? (· == ':'.toUInt8) = none := by
        rw [List.findIdx?_eq_none_iff]
        exact fun b hb => beq_false_of_ne fun h => hfront (h ▸ hb)
      rw [List.findIdx?_append, hnone, List.findIdx?_cons, beq_self_eq_true]
      simp
    have hdrop : (front ++ ':'.toUInt8 :: back).drop (front.length + 1) = back := by simp
    rw [schemeToken, hidx] at h
    simp only [List.take_left, List.drop_left, hdrop] at h
    by_cases hslashes : front.length ≠ 0 ∧ 2 < (':'.toUInt8 :: back).length ∧ back.take 2 = str "//"
    · rw [if_pos hslashes] at h
      obtain ⟨rest', rfl⟩ : ∃ rest', back = '/'.toUInt8 :: '/'.toUInt8 :: rest' := by
        refine ⟨back.drop 2, ?_⟩
        have hback := List.take_append_drop 2 back
        rw [hslashes.2.2] at hback
        exact hback.symm
      refine .inl ?_
      split_ifs at h with hhttp hhttps
      · have hlen := eqIgnoreAsciiCase_length hhttp
        cases h
        refine ⟨.http, front, rfl, ?_, hhttp⟩
        rw [List.drop_append, List.drop_eq_nil_of_le (by rw [hlen]; decide), hlen]
        rfl
      · have hlen := eqIgnoreAsciiCase_length hhttps
        cases h
        refine ⟨.https, front, rfl, ?_, hhttps⟩
        rw [List.drop_append, List.drop_eq_nil_of_le (by rw [hlen]; decide), hlen]
        rfl
    · rw [if_neg hslashes] at h
      split_ifs at h with hempty
      cases h
      refine .inr ⟨rfl, rfl, ?_, ?_⟩
      · cases front with
        | nil => exact absurd rfl hempty
        | cons b front =>
          intro hb
          exact hfront (by simp [some.inj hb])
      · intro front' back' heq
        by_contra hfront'
        have hplain {front : Bytes} (h : ':'.toUInt8 ∉ front) : ∀ b ∈ front, b ∉ [':'.toUInt8] :=
          fun b hb hmem => h (List.mem_singleton.mp hmem ▸ hb)
        have hone : _ ∧ beyond [':'.toUInt8] (front ++ ':'.toUInt8 :: back) = _ :=
          upTo_eq (hplain hfront) (by simp)
        have htwo : _ ∧ beyond [':'.toUInt8] (front' ++ ':'.toUInt8 :: '/'.toUInt8 ::
            '/'.toUInt8 :: back') = _ := upTo_eq (hplain hfront') (by simp)
        rw [heq] at hone
        have hback := (List.cons.inj (hone.2.symm.trans htwo.2)).2
        exact hslashes ⟨hempty, by simp [hback], by rw [hback]; rfl⟩
  · have hnone : bytes.findIdx? (· == ':'.toUInt8) = none := by
      rw [List.findIdx?_eq_none_iff]
      exact fun b hb => beq_false_of_ne fun h => hcolon (h ▸ hb)
    rw [schemeToken, hnone] at h
    cases h
    refine .inr ⟨rfl, rfl, fun h => hcolon (List.mem_of_head? h), ?_⟩
    rintro front back rfl
    exact absurd (by simp) hcolon

theorem authorityScan_ok : ∀ {i : ℕ} {scan : AuthorityScan} {stop : ℕ}
    {scan' : AuthorityScan}, authorityScan i scan bytes = .ok (stop, scan') →
    stop = i + (upTo authorityStops bytes).length := by
  induction bytes with
  | nil =>
    intro i scan stop scan' h
    cases h
    rfl
  | cons b rest ih =>
    intro i scan stop scan' h
    have hstep (hb : b ∉ authorityStops) {j : ℕ}
        (hstop : j = i + 1 + (upTo authorityStops rest).length) :
        j = i + (upTo authorityStops (b :: rest)).length := by
      rw [upTo, List.takeWhile_cons_of_pos (by simpa using hb), List.length_cons, ← upTo]
      omega
    rw [authorityScan] at h
    split_ifs at h with hend
    · have hmem : b ∈ authorityStops := by simpa using hend
      cases h
      rw [upTo, List.takeWhile_cons_of_neg (by simp [hmem])]
      rfl
    all_goals exact hstep (by simpa using hend) (ih h)

variable {back text s : Bytes} {path query : Option Bytes} {uri base : Uri}
  {previous previous' : List Uri} {strategy : Strategy}

theorem rsplitOnce_eq {sep : UInt8} (h : rsplitOnce sep text = some (front, back)) :
    text = front ++ sep :: back := by
  induction text generalizing front with
  | nil => cases h
  | cons b rest ih =>
    rw [rsplitOnce] at h
    cases hrest : rsplitOnce sep rest with
    | some found =>
      obtain ⟨front', back'⟩ := found
      rw [hrest] at h
      cases h
      rw [ih hrest, List.cons_append]
    | none =>
      rw [hrest] at h
      simp only at h
      split_ifs at h with hb
      cases h
      rw [hb, List.nil_append]

theorem hostPort_ok {colonNum : ℕ} {authority : Authority}
    (h : hostPort text colonNum = .ok authority) : Written authority text := by
  rw [hostPort] at h
  split_ifs at h with hcolon
  · cases hsplit : rsplitOnce ':'.toUInt8 text with
    | none =>
      rw [hsplit] at h
      cases h
    | some found =>
      obtain ⟨host, port⟩ := found
      have htext := rsplitOnce_eq hsplit
      rw [hsplit] at h
      simp only at h
      split_ifs at h with hhost hport
      · cases h
        exact .inr ⟨rfl, by rw [htext, hport]⟩
      · cases hread : asU16 port with
        | none =>
          rw [hread] at h
          cases h
        | some n =>
          rw [hread] at h
          cases h
          exact .inl htext
  · cases h
    exact .inl rfl

theorem authorityToken_split {authority : Option Authority}
    (h : authorityToken bytes = .ok (authority, rest)) :
    rest = beyond authorityStops bytes ∧
      ((authority = none ∧ upTo authorityStops bytes = []) ∨
        ∃ a, authority = some a ∧ upTo authorityStops bytes ≠ [] ∧
          Written a (upTo authorityStops bytes)) := by
  have htext := upTo_append_beyond authorityStops bytes
  cases authority with
  | none =>
    obtain ⟨⟨stop, scan⟩, hscan, h⟩ := of_bind_ok h
    have hstop := authorityScan_ok hscan
    rw [Nat.zero_add] at hstop
    simp only [authorityParse, bind, Except.bind, pure, Except.pure, throw, throwThe,
      MonadExceptOf.throw] at h
    split_ifs at h with hzero
    · cases h
      have hnil := List.eq_nil_of_length_eq_zero (hstop.symm.trans hzero)
      rw [hnil, List.nil_append] at htext
      exact ⟨htext.symm, .inl ⟨rfl, hnil⟩⟩
    · cases hparse : hostPort (bytes.take stop) scan.colonNum <;> rw [hparse] at h <;> cases h
  | some a =>
    obtain ⟨stop, scan, hscan, hzero, -, -, hparse, rfl⟩ := authorityToken_some_iff.mp h
    have hstop := authorityScan_ok hscan
    rw [Nat.zero_add] at hstop
    have htake : bytes.take stop = upTo authorityStops bytes := by
      conv_lhs => rw [← htext]
      rw [hstop, List.take_left]
    have hdrop : bytes.drop stop = beyond authorityStops bytes := by
      conv_lhs => rw [← htext]
      rw [hstop, List.drop_left]
    rw [htake] at hparse
    refine ⟨hdrop, .inr ⟨a, rfl, fun hnil => hzero ?_, hostPort_ok hparse⟩⟩
    rw [hstop, hnil, List.length_nil]

theorem beyond_head (stops text : Bytes) : ∀ b ∈ (beyond stops text).head?, b ∈ stops := by
  intro b hb
  cases hrest : beyond stops text with
  | nil =>
    rw [hrest] at hb
    cases hb
  | cons c rest =>
    rw [hrest] at hb
    exact some.inj hb ▸ head_beyond hrest

theorem tokenScan_iff {p tail : Bytes} {valid : UInt8 → Bool} {i stop : ℕ}
    (hp : ∀ b ∈ p, b ∉ stops) (htail : ∀ b ∈ tail.head?, b ∈ stops) :
    tokenScan stops valid i (p ++ tail) = .ok stop ↔
      (∀ b ∈ p, valid b = true) ∧ stop = i + p.length := by
  induction p generalizing i with
  | nil =>
    have hnil : tokenScan stops valid i tail = .ok i := by
      cases tail with
      | nil => rfl
      | cons b tail => exact if_pos (htail b rfl)
    rw [List.nil_append, hnil]
    exact ⟨fun h => ⟨by simp, (Except.ok.inj h).symm⟩, fun h => congrArg Except.ok h.2.symm⟩
  | cons b p ih =>
    rw [List.cons_append, tokenScan, if_neg (hp b (.head _)), List.forall_mem_cons,
      List.length_cons]
    by_cases hb : valid b = true
    · rw [if_pos hb, ih fun c hc => hp c (.tail b hc), Nat.add_assoc, Nat.add_comm 1]
      simp [hb]
    · rw [if_neg hb]
      exact iff_of_false (fun h => by cases h) fun h => hb h.1.1

theorem tokenScan_split {valid : UInt8 → Bool} {stop : ℕ}
    (h : tokenScan stops valid 0 bytes = .ok stop) :
    (if stop ≠ 0 then some (bytes.take stop) else none) = optional (upTo stops bytes) ∧
      bytes.drop stop = beyond stops bytes := by
  have htext := upTo_append_beyond stops bytes
  have hstop := ((tokenScan_iff (fun b hb => not_mem_upTo hb) (beyond_head stops bytes)).mp
    (htext.symm ▸ h)).2
  rw [Nat.zero_add] at hstop
  have htake : bytes.take stop = upTo stops bytes := by
    conv_lhs => rw [← htext]
    rw [hstop, List.take_left]
  have hdrop : bytes.drop stop = beyond stops bytes := by
    conv_lhs => rw [← htext]
    rw [hstop, List.drop_left]
  refine ⟨?_, hdrop⟩
  rw [optional, htake]
  by_cases hnil : upTo stops bytes = []
  · rw [if_pos hnil, if_neg]
    rw [hstop, hnil]
    exact not_not.mpr rfl
  · rw [if_neg hnil, if_pos]
    rw [hstop]
    exact fun hzero => hnil (List.eq_nil_of_length_eq_zero hzero)

theorem pathToken_split (h : pathToken bytes = .ok (path, rest)) :
    path = optional (upTo pathStops bytes) ∧ rest = beyond pathStops bytes := by
  obtain ⟨stop, hscan, h⟩ := of_bind_ok h
  obtain ⟨htake, hdrop⟩ := tokenScan_split hscan
  cases h
  exact ⟨htake, hdrop⟩

theorem afterPath_split (h : Uri.afterPath rest = .ok query) :
    query = (splitQuery rest).bind optional := by
  cases rest with
  | nil =>
    cases h
    rfl
  | cons b rest =>
    rw [Uri.afterPath] at h
    rw [splitQuery]
    split_ifs at h ⊢ with hquery hhash
    · rw [queryToken] at h
      split_ifs at h with hempty
      · cases h
        rw [hempty]
        rfl
      · obtain ⟨stop, hscan, h⟩ := of_bind_ok h
        have htake := (tokenScan_split hscan).1
        cases h
        rw [bind_some, ← htake, ite_not]
    · cases h
      rfl

theorem validityCheck_ok {uri' : Uri} (h : Uri.validityCheck uri = .ok uri') :
    uri' = uri ∧ (uri.scheme.isSome → uri.authority.isSome) ∧
      (uri.scheme = none → uri.authority.isSome → uri.path = none ∧ uri.query = none) ∧
      (uri.scheme = none → uri.authority = none → uri.path ≠ none ∨ uri.query ≠ none) := by
  obtain ⟨scheme, authority, path, query⟩ := uri
  rw [Uri.validityCheck] at h
  cases scheme <;> cases authority <;> cases path <;> cases query <;> cases h <;> simp

theorem fromBytes_ok (h : Uri.fromBytes text = .ok uri) :
    ∃ rest rest' rest'', schemeToken text = .ok (uri.scheme, rest) ∧
      authorityToken rest = .ok (uri.authority, rest') ∧
      pathToken rest' = .ok (uri.path, rest'') ∧ Uri.afterPath rest'' = .ok uri.query ∧
      Uri.validityCheck uri = .ok uri := by
  rw [Uri.fromBytes] at h
  split_ifs at h
  obtain ⟨⟨scheme, rest⟩, hscheme, h⟩ := of_bind_ok h
  obtain ⟨⟨authority, rest'⟩, hauthority, h⟩ := of_bind_ok h
  obtain ⟨⟨path, rest''⟩, hpath, h⟩ := of_bind_ok h
  obtain ⟨query, hquery, h⟩ := of_bind_ok h
  obtain rfl := (validityCheck_ok h).1
  exact ⟨rest, rest', rest'', hscheme, hauthority, hpath, hquery, h⟩

theorem scheme_plain {scheme : Scheme} (h : eqIgnoreAsciiCase s scheme.asStr = true) :
    s ≠ [] ∧ ∀ b ∈ s, b ∉ [':'.toUInt8, '/'.toUInt8, '?'.toUInt8, '#'.toUInt8] := by
  have hlower : ∀ b ∈ s, toAsciiLowercase b ∈ scheme.asStr.map toAsciiLowercase := by
    intro b hb
    rw [← eq_of_beq h]
    exact List.mem_map_of_mem hb
  refine ⟨?_, fun b hb hstop => ?_⟩
  · rintro rfl
    cases scheme <;> exact absurd h (by decide)
  · have hmem := hlower b hb
    simp only [List.mem_cons, List.not_mem_nil, or_false] at hstop
    rcases hstop with rfl | rfl | rfl | rfl <;> cases scheme <;>
      exact absurd hmem (by decide)

theorem splitScheme_some (hne : s ≠ [])
    (hplain : ∀ b ∈ s, b ∉ [':'.toUInt8, '/'.toUInt8, '?'.toUInt8, '#'.toUInt8]) (back : Bytes) :
    splitScheme (s ++ ':'.toUInt8 :: back) = (some s, back) := by
  have hsplit := upTo_eq hplain (show ∀ b ∈ (':'.toUInt8 :: back).head?,
    b ∈ [':'.toUInt8, '/'.toUInt8, '?'.toUInt8, '#'.toUInt8] by simp)
  obtain ⟨b, s', rfl⟩ := List.exists_cons_of_ne_nil hne
  rw [splitScheme, hsplit.1, hsplit.2]
  simp

theorem head_path (text : Bytes) :
    ∀ b ∈ (upTo pathStops (beyond authorityStops text)).head?, b = '/'.toUInt8 := by
  intro b hb
  cases hrest : beyond authorityStops text with
  | nil =>
    rw [hrest] at hb
    cases hb
  | cons c rest =>
    have hstop := head_beyond hrest
    have hmem := not_mem_upTo (List.mem_of_mem_head? hb)
    have hsame : b = c := by
      have happ := upTo_append_beyond pathStops (beyond authorityStops text)
      have hhead := congrArg List.head? happ
      rw [List.head?_append, mem_def.mp hb, hrest] at hhead
      exact some.inj hhead
    subst hsame
    simp only [List.mem_cons, List.not_mem_nil, or_false] at hstop hmem
    tauto

theorem splitAuthority_slashes (text : Bytes) :
    splitAuthority ('/'.toUInt8 :: '/'.toUInt8 :: text) =
      (some (upTo authorityStops text), beyond authorityStops text) := by
  rw [splitAuthority, if_pos ⟨rfl, rfl⟩]

theorem splitAuthority_none (h : ∀ rest, text ≠ '/'.toUInt8 :: '/'.toUInt8 :: rest) :
    splitAuthority text = (none, text) := by
  rcases text with _ | ⟨b, _ | ⟨c, rest⟩⟩
  · rfl
  · rfl
  · rw [splitAuthority, if_neg]
    rintro ⟨rfl, rfl⟩
    exact h rest rfl

theorem splitScheme_none (hfront : ∀ b ∈ front, b ∉ authorityStops) (hcolon : ':'.toUInt8 ∉ front)
    (hback : ∀ b ∈ back.head?, b ∈ authorityStops) :
    splitScheme (front ++ back) = (none, front ++ back) := by
  have hsplit := upTo_eq (show ∀ b ∈ front,
      b ∉ [':'.toUInt8, '/'.toUInt8, '?'.toUInt8, '#'.toUInt8] from fun b hb hmem =>
        (List.mem_cons.mp hmem).elim (fun h => hcolon (h ▸ hb)) (hfront b hb))
    (show ∀ b ∈ back.head?, b ∈ [':'.toUInt8, '/'.toUInt8, '?'.toUInt8, '#'.toUInt8] from
      fun b hb => List.mem_cons_of_mem _ (hback b hb))
  rw [splitScheme, hsplit.1, hsplit.2]
  cases front with
  | nil => rfl
  | cons b front =>
    cases back with
    | nil => rfl
    | cons c back =>
      have hc : c ≠ ':'.toUInt8 := by
        rintro rfl
        exact absurd (hback _ rfl) (by decide)
      exact if_neg hc

theorem pathStops_subset : pathStops ⊆ authorityStops := List.subset_cons_self _ _

theorem reads_authority (hscheme : uri.scheme = none) (hne : upTo authorityStops text ≠ [])
    (hcolon : text.head? ≠ some ':'.toUInt8)
    (hslashes : ∀ front back, text = front ++ ':'.toUInt8 :: '/'.toUInt8 :: '/'.toUInt8 :: back →
      ':'.toUInt8 ∈ front) (hpath : uri.path = none) (hquery : uri.query = none)
    (hpath' : upTo pathStops (beyond authorityStops text) = [])
    (hquery' : (splitQuery (beyond pathStops (beyond authorityStops text))).bind optional = none) :
    Reads uri (Reference.parse text) := by
  have htext := upTo_append_beyond authorityStops text
  have hplain : ∀ b ∈ upTo authorityStops text, b ∉ authorityStops := fun b hb => not_mem_upTo hb
  by_cases hmem : ':'.toUInt8 ∈ upTo authorityStops text
  · obtain ⟨front, back, hsplit, hfront⟩ := List.eq_append_cons_of_mem hmem
    have htext' : text = front ++ ':'.toUInt8 :: (back ++ beyond authorityStops text) := by
      conv_lhs => rw [← htext, hsplit]
      rw [List.append_assoc, List.cons_append]
    have hempty : front ≠ [] := by
      rintro rfl
      rw [htext'] at hcolon
      exact hcolon rfl
    have hstops : ∀ b ∈ front, b ∉ [':'.toUInt8, '/'.toUInt8, '?'.toUInt8, '#'.toUInt8] := by
      intro b hb hstop
      rcases List.mem_cons.mp hstop with h | h
      · exact hfront (h ▸ hb)
      · exact hplain b (by rw [hsplit]; exact List.mem_append_left _ hb) h
    have hauthority : splitAuthority (back ++ beyond authorityStops text) =
        (none, back ++ beyond authorityStops text) := by
      refine splitAuthority_none fun rest hrest => hfront (hslashes front rest ?_)
      rw [← hrest]
      exact htext'
    have hparse : (Reference.parse text).scheme = some front ∧
        (Reference.parse text).authority = none := by
      conv_lhs => rw [htext']
      conv_rhs => rw [htext']
      simp only [Reference.parse, splitScheme_some hempty hstops, hauthority, and_self]
    exact .rootless hscheme (by rw [hparse.1]; rfl) hparse.2
  · have hnone := splitScheme_none hplain hmem (beyond_head authorityStops text)
    rw [htext] at hnone
    have hhead : text.head? ≠ some '/'.toUInt8 := by
      obtain ⟨b, front, hfront⟩ := List.exists_cons_of_ne_nil hne
      rw [← htext, hfront]
      intro h
      have hb : b = '/'.toUInt8 := some.inj h
      exact hplain b (by rw [hfront]; exact (.head _)) (by rw [hb]; decide)
    have hauthority : splitAuthority text = (none, text) := by
      refine splitAuthority_none fun rest hrest => hhead ?_
      rw [hrest]
      rfl
    obtain ⟨hwhole, hrest⟩ := upTo_upTo pathStops_subset text
    rw [hpath', List.append_nil] at hwhole
    have hparse : Reference.parse text =
        { scheme := none, authority := none, path := upTo authorityStops text
          query := splitQuery (beyond pathStops (beyond authorityStops text)) } := by
      simp only [Reference.parse, hnone, hauthority, hwhole, hrest]
    rw [hparse]
    refine .relative hscheme rfl rfl hne ?_ hpath hquery hquery'
    rw [← htext, List.head?_append] at hhead
    intro h
    rw [show (upTo authorityStops text).head? = some '/'.toUInt8 from h] at hhead
    exact hhead rfl

theorem reads_rooted (hscheme : uri.scheme = none) (hnil : upTo authorityStops text = [])
    (hpath : uri.path = optional (upTo pathStops (beyond authorityStops text)))
    (hquery : uri.query =
      (splitQuery (beyond pathStops (beyond authorityStops text))).bind optional)
    (hsome : uri.path ≠ none ∨ uri.query ≠ none) : Reads uri (Reference.parse text) := by
  have htext := upTo_append_beyond authorityStops text
  rw [hnil, List.nil_append] at htext
  have hnone : splitScheme ([] ++ beyond authorityStops text) = _ :=
    splitScheme_none nofun nofun (beyond_head authorityStops text)
  rw [htext, List.nil_append] at hnone
  by_cases hslashes : ∃ rest, text = '/'.toUInt8 :: '/'.toUInt8 :: rest
  · obtain ⟨rest, rfl⟩ := hslashes
    have hparse : Reference.parse ('/'.toUInt8 :: '/'.toUInt8 :: rest) =
        { scheme := none, authority := some (upTo authorityStops rest)
          path := upTo pathStops (beyond authorityStops rest)
          query := splitQuery (beyond pathStops (beyond authorityStops rest)) } := by
      simp only [Reference.parse, hnone, splitAuthority_slashes]
    have hwhole : upTo pathStops ('/'.toUInt8 :: '/'.toUInt8 :: rest) =
        '/'.toUInt8 :: '/'.toUInt8 :: upTo authorityStops rest ++
          upTo pathStops (beyond authorityStops rest) := by
      rw [List.cons_append, List.cons_append, ← (upTo_upTo pathStops_subset rest).1]
      rfl
    rw [hparse]
    rw [htext, hwhole] at hpath
    exact .network _ hscheme rfl rfl hpath
  · have hauthority : splitAuthority text = (none, text) :=
      splitAuthority_none fun rest hrest => hslashes ⟨rest, hrest⟩
    have hhead := head_path text
    rw [htext] at hpath hquery hhead
    have hparse : Reference.parse text =
        { scheme := none, authority := none, path := upTo pathStops text
          query := splitQuery (beyond pathStops text) } := by
      simp only [Reference.parse, hnone, hauthority]
    rw [hparse]
    exact .rooted hscheme rfl rfl hhead hpath hquery hsome

theorem reads_of_fromBytes (h : Uri.fromBytes text = .ok uri) :
    Reads uri (Reference.parse text) := by
  obtain ⟨rest, rest', rest'', htoken, htoken', htoken'', hafter, hvalid⟩ := fromBytes_ok h
  obtain ⟨-, hneeds, halone, hsome⟩ := validityCheck_ok hvalid
  obtain ⟨hpath, rfl⟩ := pathToken_split htoken''
  have hquery := afterPath_split hafter
  obtain ⟨rfl, hsplit⟩ := authorityToken_split htoken'
  rcases schemeToken_ok htoken with ⟨scheme, s, hscheme, rfl, hsame⟩ |
    ⟨hscheme, rfl, hcolon, hslashes⟩
  · rcases hsplit with ⟨hnone, -⟩ | ⟨authority, hauthority, hne, hwritten⟩
    · have hsome := hneeds (by rw [hscheme]; rfl)
      rw [hnone] at hsome
      cases hsome
    · obtain ⟨hs, hplain⟩ := scheme_plain hsame
      have hparse : Reference.parse (s ++ ':'.toUInt8 :: '/'.toUInt8 :: '/'.toUInt8 :: rest) =
          { scheme := some s, authority := some (upTo authorityStops rest)
            path := upTo pathStops (beyond authorityStops rest)
            query := splitQuery (beyond pathStops (beyond authorityStops rest)) } := by
        simp only [Reference.parse, splitScheme_some hs hplain, splitAuthority_slashes]
      rw [hparse]
      exact .absolute scheme authority s _ hscheme hauthority rfl hsame rfl hwritten
        (head_path rest) hpath hquery
  · rcases hsplit with ⟨hauthority, hnil⟩ | ⟨authority, hauthority, hne, hwritten⟩
    · exact reads_rooted hscheme hnil hpath hquery (hsome hscheme hauthority)
    · obtain ⟨hpath', hquery'⟩ := halone hscheme (by rw [hauthority]; rfl)
      rw [hpath'] at hpath
      rw [hquery'] at hquery
      refine reads_authority hscheme hne hcolon hslashes hpath' hquery' ?_ hquery.symm
      by_contra hsome
      rw [optional, if_neg hsome] at hpath
      cases hpath

/-! ## Targets -/

def asReference (uri : Uri) : Reference :=
  { scheme := uri.scheme.map Scheme.asStr, authority := uri.authority.map Authority.toStr
    path := uri.path.getD [], query := uri.query }

def normalPath (path : Bytes) : Bytes := if path = [] then str "/" else path

structure Names (uri : Uri) (target : Reference) : Prop where
  scheme : ∃ scheme s, uri.scheme = some scheme ∧ target.scheme = some s ∧
    eqIgnoreAsciiCase s scheme.asStr = true
  authority : ∃ authority a, uri.authority = some authority ∧ target.authority = some a ∧
    Written authority a
  path : normalPath (uri.path.getD []) = normalPath target.path
  query : uri.query = target.query

/-- The URI of a request that is sent to a server. -/
structure IsBase (uri : Uri) : Prop where
  scheme : uri.scheme ≠ none
  authority : uri.authority ≠ none
  path : ∀ b ∈ (uri.path.getD []).head?, b = '/'.toUInt8

-- Two of the examples of the RFC.
example : resolve (Reference.parse (str "http://a/b/c/d;p?q")) (Reference.parse (str "../../g")) =
    Reference.parse (str "http://a/g") := by decide +kernel

example : resolve (Reference.parse (str "http://a/b/c/d;p?q")) (Reference.parse (str "g?y/../x")) =
    Reference.parse (str "http://a/b/c/g?y/../x") := by decide +kernel

/-- The references that are resolved as they should be: whole URIs and absolute paths without dot
segments, and what leads to the root of the server. An empty query is never kept. -/
def Followed (base : Uri) (reference : Reference) : Prop :=
  reference.query ≠ some [] ∧
    match reference.scheme, reference.authority with
    | some _, some _ => ¬HasDots reference.path
    | none, none =>
      if reference.path = [] then normalPath (base.path.getD []) = str "/"
      else if reference.path.head? = some '/'.toUInt8 then ¬HasDots reference.path
      else normalPath (removeDotSegments (merge (base.path.getD []) reference.path)) = str "/"
    | _, _ => False

theorem normalPath_iff (path : Bytes) :
    normalPath path = normalPath (removeDotSegments path) ↔ ¬HasDots path := by
  rcases removeDotSegments_spec path with ⟨hnot, h⟩ | ⟨hdots, hlen⟩
  · rw [h]
    exact iff_of_true rfl hnot
  · refine iff_of_false (fun h => ?_) (not_not.mpr hdots)
    have hne : path ≠ [] := by
      rintro rfl
      exact absurd hlen (Nat.not_lt_zero _)
    rw [normalPath, if_neg hne, normalPath] at h
    split_ifs at h with hempty
    · rw [h] at hdots
      have hroot := (hasDots_slash []).mp hdots
      rw [hasDots_single List.not_mem_nil] at hroot
      exact absurd hroot (by decide)
    · rw [← h] at hlen
      exact absurd hlen (Nat.lt_irrefl _)

theorem optional_getD (text : Bytes) : (optional text).getD [] = text := by
  rw [optional]
  split_ifs with h
  · exact h.symm
  · rfl

theorem bind_optional_iff (query : Option Bytes) :
    query.bind optional = query ↔ query ≠ some [] := by
  cases query with
  | none => exact iff_of_true rfl nofun
  | some query =>
    rw [bind_some, optional]
    split_ifs with h
    · exact iff_of_false nofun (not_not.mpr (congrArg some h))
    · exact iff_of_true rfl fun heq => h (some.inj heq)

theorem names_base (hbase : IsBase base) {target : Reference}
    (hscheme : target.scheme = (asReference base).scheme)
    (hauthority : target.authority = (asReference base).authority) :
    Names { base with path, query } target ↔
      normalPath (path.getD []) = normalPath target.path ∧ query = target.query := by
  obtain ⟨scheme, hs⟩ := ne_none_iff_exists'.mp hbase.scheme
  obtain ⟨authority, ha⟩ := ne_none_iff_exists'.mp hbase.authority
  rw [asReference, hs] at hscheme
  rw [asReference, ha] at hauthority
  refine ⟨fun h => ⟨h.path, h.query⟩, fun h => ⟨?_, ?_, h.1, h.2⟩⟩
  · exact ⟨scheme, _, hs, hscheme, beq_self_eq_true _⟩
  · exact ⟨authority, _, ha, hauthority, .inl rfl⟩

/-- What `redirect` makes of the location. -/
def completed (base location : Uri) : Uri :=
  if location.scheme.isNone ∨ location.authority.isNone then
    { location with scheme := base.scheme, authority := base.authority }
  else location

theorem completed_base {location : Uri} (h : location.scheme = none) :
    completed base location = { base with path := location.path, query := location.query } := by
  rw [completed, if_pos (.inl (by rw [h]; rfl))]

theorem names_completed_iff {location : Uri} {reference : Reference} (hbase : IsBase base)
    (hreads : Reads location reference) :
    Names (completed base location) (resolve (asReference base) reference) ↔
      Followed base reference := by
  cases hreads with
  | absolute scheme authority s a hscheme hauthority hs hsame ha hwritten hhead hpath hquery =>
    have hcompleted : completed base location = location := by
      rw [completed, if_neg]
      simp [hscheme, hauthority]
    have htarget : resolve (asReference base) reference =
        { reference with path := removeDotSegments reference.path } := by
      rw [resolve, if_pos (by rw [hs]; rfl)]
    rw [hcompleted, Followed, hs, ha, ← normalPath_iff, ← bind_optional_iff, ← hquery, htarget]
    constructor
    · intro h
      have hnormal := h.path
      rw [hpath, optional_getD] at hnormal
      exact ⟨h.query, hnormal⟩
    · rintro ⟨hsameQuery, hnormal⟩
      refine ⟨⟨scheme, s, hscheme, ?_, hsame⟩, ⟨authority, a, hauthority, ?_, hwritten⟩, ?_,
        hsameQuery⟩
      · exact hs
      · exact ha
      rw [hpath, optional_getD]
      exact hnormal
  | network a hscheme hs ha hpath =>
    have htarget : (resolve (asReference base) reference).path =
        removeDotSegments reference.path := by
      rw [resolve, if_neg (by rw [hs]; exact nofun), if_pos (by rw [ha]; rfl)]
    rw [completed_base hscheme]
    refine iff_of_false (fun h => ?_) fun h => ?_
    · -- The path that is asked for is longer than that of the target.
      have hnormal := congrArg List.length h.path
      have hle := removeDotSegments_length reference.path
      have hlong : normalPath ('/'.toUInt8 :: '/'.toUInt8 :: a ++ reference.path) = _ :=
        if_neg (List.cons_ne_nil _ _)
      rw [htarget, hpath, getD_some, hlong, normalPath, List.length_append,
        List.length_cons, List.length_cons] at hnormal
      split_ifs at hnormal with hempty
      · rw [show (str "/").length = 1 from rfl] at hnormal
        omega
      · omega
    · rw [Followed, hs, ha] at h
      exact h.2
  | rooted hscheme hs ha hhead hpath hquery hsome =>
    rw [completed_base hscheme, Followed, hs, ha, ← bind_optional_iff, ← hquery]
    by_cases hempty : reference.path = []
    · have htarget : resolve (asReference base) reference =
          { asReference base with query := reference.query.or (asReference base).query } := by
        rw [resolve, if_neg (by rw [hs]; exact nofun), if_neg (by rw [ha]; exact nofun),
          if_pos hempty]
      have hnone : location.path = none := by rw [hpath, hempty]; rfl
      have hmine := hsome.resolve_left (not_not.mpr hnone)
      have hkept : reference.query.or (asReference base).query = reference.query := by
        cases hq : reference.query with
        | none =>
          rw [hquery, hq] at hmine
          exact absurd rfl hmine
        | some query => rfl
      rw [names_base hbase (by rw [htarget])
        (by rw [htarget]), htarget, hkept, hnone, and_comm, if_pos hempty]
      exact and_congr_right fun _ => eq_comm
    · have hslash : reference.path.head? = some '/'.toUInt8 := by
        obtain ⟨b, path, hb⟩ := List.exists_cons_of_ne_nil hempty
        rw [hb, List.head?_cons, hhead b (by rw [hb]; rfl)]
      have htarget : resolve (asReference base) reference =
          { asReference base with
            path := removeDotSegments reference.path, query := reference.query } := by
        rw [resolve, if_neg (by rw [hs]; exact nofun), if_neg (by rw [ha]; exact nofun),
          if_neg hempty, if_pos hslash]
      rw [names_base hbase (by rw [htarget])
        (by rw [htarget]), htarget, hpath, optional_getD, normalPath_iff,
        and_comm, if_neg hempty, if_pos hslash]
  | rootless hscheme hs ha =>
    obtain ⟨s, hs'⟩ := isSome_iff_exists.mp hs
    refine iff_of_false (fun h => ?_) fun h => ?_
    · obtain ⟨authority, a, -, htarget, -⟩ := h.authority
      rw [resolve, if_pos hs] at htarget
      cases ha.symm.trans htarget
    · rw [Followed, hs', ha] at h
      exact h.2
  | relative hscheme hs ha hne hhead hpath hquery hnone =>
    have htarget : resolve (asReference base) reference =
        { asReference base with
          path := removeDotSegments (merge (asReference base).path reference.path)
          query := reference.query } := by
      rw [resolve, if_neg (by rw [hs]; exact nofun), if_neg (by rw [ha]; exact nofun),
        if_neg hne, if_neg hhead]
    rw [completed_base hscheme, names_base hbase (by rw [htarget])
      (by rw [htarget]), htarget, Followed, hs, ha, ← bind_optional_iff, hnone,
      hpath, hquery, and_comm, if_neg hne, if_neg hhead]
    exact and_congr_right fun _ => eq_comm

variable {B : Type} {request request' : Request B} {response : Response}

theorem location_eq {value : HeaderValue}
    (hval : response.headers.get (str "Location") = some value) :
    location request response =
      match Uri.fromBytes value.toString with
      | .error _ => none
      | .ok found => some (completed request.uri found) := by
  rw [location, hval, bind_some]
  cases Uri.fromBytes value.toString with
  | error e => rfl
  | ok found =>
    simp only [completed]
    split_ifs <;> rfl

theorem Strategy.follow_nextLink
    (h : strategy.follow request response previous = (request', previous', .ok .nextLink)) :
    location request response = some request'.uri := by
  rw [Strategy.follow] at h
  cases hloc : location request response with
  | none =>
    rw [hloc] at h
    cases h
  | some loc =>
    rw [hloc] at h
    cases htrigger : strategy.trigger (previous ++ [request.uri]).length with
    | error e =>
      simp only [htrigger] at h
      cases h
    | ok trigger =>
      simp only [htrigger] at h
      cases trigger with
      | stop => cases h
      | nextLink =>
        cases h
        rfl

theorem Strategy.redirect_nextLink
    (h : strategy.redirect request response previous = (request', previous', .ok .nextLink)) :
    location request response = some request'.uri := by
  rw [Strategy.redirect] at h
  split_ifs at h
  · have hsame : location request.rewrite response = some request'.uri := follow_nextLink h
    exact hsame
  · exact follow_nextLink h
  · cases h

theorem Strategy.follow_limitTimes (hloc : location request response = some uri) :
    ∃ request' previous', Strategy.follow (.limitTimes 2) request response [] =
      (request', previous', .ok .nextLink) := by
  have htrigger : Strategy.trigger (.limitTimes 2) ([] ++ [request.uri]).length =
      .ok .nextLink := rfl
  rw [Strategy.follow, hloc]
  simp only [htrigger]
  exact ⟨_, _, rfl⟩

theorem Strategy.redirect_limitTimes (hloc : location request response = some uri)
    (hstat : rewrites response.status = true ∨ preserves response.status = true) :
    ∃ request' previous', Strategy.redirect (.limitTimes 2) request response [] =
      (request', previous', .ok .nextLink) := by
  rw [Strategy.redirect]
  split_ifs with hrewrites hpres
  · have hsame : location request.rewrite response = some uri := hloc
    exact follow_limitTimes hsame
  · exact follow_limitTimes hloc
  · exact absurd hstat (not_or.mpr ⟨hrewrites, hpres⟩)

/-- Exactly the references that are read as what they are lead to the resource that they name. -/
theorem redirect_target_iff (hbase : IsBase request.uri)
    (hstatus : rewrites response.status = true ∨ preserves response.status = true)
    {value : HeaderValue} (hvalue : response.headers.get (str "Location") = some value) :
    (∀ (strategy : Strategy) (previous previous' : List Uri) (request' : Request B),
      strategy.redirect request response previous = (request', previous', .ok .nextLink) →
        Names request'.uri
          (resolve (asReference request.uri) (Reference.parse value.toString))) ↔
      ∀ uri, Uri.fromBytes value.toString = .ok uri →
        Followed request.uri (Reference.parse value.toString) := by
  have hloc : location request response = _ := location_eq hvalue
  constructor
  · intro h uri huri
    rw [huri] at hloc
    obtain ⟨request', previous', hredirect⟩ := Strategy.redirect_limitTimes hloc hstatus
    have hnames := h _ _ _ _ hredirect
    rw [← some.inj (hloc.symm.trans (Strategy.redirect_nextLink hredirect))] at hnames
    exact (names_completed_iff hbase (reads_of_fromBytes huri)).mp hnames
  · intro h strategy previous previous' request' hredirect
    have hnext := Strategy.redirect_nextLink hredirect
    cases huri : Uri.fromBytes value.toString with
    | error e =>
      rw [huri, hnext] at hloc
      cases hloc
    | ok uri =>
      rw [huri, hnext] at hloc
      rw [some.inj hloc]
      exact (names_completed_iff hbase (reads_of_fromBytes huri)).mpr (h uri huri)

/-- A request for `http://example.com/a/b`. -/
def getAB : Request Unit :=
  { method := .get, version := .http1_1, headers := .new, body := ()
    uri := { scheme := some .http, authority := some { host := str "example.com", port := none }
             path := some (str "/a/b"), query := none } }

def movedTo (location : Bytes) : Response :=
  { status := 302, headers := (Headers.new.insert (str "Location") location).getD .new }

/-- The value `c`. -/
def relativeC : HeaderValue := { inner := [str "c"], isSensitive := false, valid := by decide }

theorem getAB_isBase : IsBase getAB.uri := ⟨nofun, nofun, by decide +kernel⟩

theorem movedTo_location : (movedTo (str "c")).headers.get (str "Location") = some relativeC := by
  decide +kernel

theorem redirect_target_iff_relative :
    (∀ (strategy : Strategy) (previous previous' : List Uri) (request' : Request Unit),
      strategy.redirect getAB (movedTo (str "c")) previous = (request', previous', .ok .nextLink) →
        Names request'.uri
          (resolve (asReference getAB.uri) (Reference.parse relativeC.toString))) ↔
      ∀ uri, Uri.fromBytes relativeC.toString = .ok uri →
        Followed getAB.uri (Reference.parse relativeC.toString) :=
  redirect_target_iff getAB_isBase (.inl rfl) movedTo_location

/-- The relative path `c` leads to the root of the server. -/
theorem redirect_astray :
    ¬∀ (request : Request Unit) (response : Response) (value : HeaderValue), IsBase request.uri →
      response.headers.get (str "Location") = some value →
      ∀ (strategy : Strategy) (previous previous' : List Uri) (request' : Request Unit),
        strategy.redirect request response previous = (request', previous', .ok .nextLink) →
          Names request'.uri
            (resolve (asReference request.uri) (Reference.parse value.toString)) := by
  intro h
  have huri : Uri.fromBytes relativeC.toString =
      .ok { scheme := none, authority := some { host := str "c", port := none }, path := none
            query := none } := by
    decide +kernel
  have hloc : location getAB (movedTo (str "c")) = _ := location_eq movedTo_location
  rw [huri] at hloc
  obtain ⟨request', previous', hredirect⟩ := Strategy.redirect_limitTimes hloc (.inl rfl)
  have hnames := h _ _ _ getAB_isBase movedTo_location _ _ _ _ hredirect
  rw [← some.inj (hloc.symm.trans (Strategy.redirect_nextLink hredirect))] at hnames
  have hpath := hnames.path
  have htarget : (resolve (asReference getAB.uri) (Reference.parse relativeC.toString)).path =
      str "/a/c" := by
    decide +kernel
  rw [htarget] at hpath
  exact absurd hpath (by decide)

end YlongHttp.Client
