import YlongHttp.Model.Pins
import YlongHttp.Verification.Requests.Format

/-! # Public-key pins and the origins they are for

A pin is kept under the text of its host and port, and looked up under the text that the formatter
makes of those of the request. -/

namespace YlongHttp.Client

open List Option
open Library

variable {calls : List PinCall} {call : PinCall} {pins : PubKeyPins} {bytes host port : Bytes}
  {authority : Authority} {uri : Uri} {p : PinCall → Bool}

/-! ## What is kept under a key -/

def PinCall.key (self : PinCall) : Option Bytes := (parseUri self.uri).toOption

/-- The last of the calls that satisfy `p`. -/
def lastCall (p : PinCall → Bool) (calls : List PinCall) : Option PinCall :=
  (calls.filter p).getLast?

theorem lastCall_concat (p : PinCall → Bool) (calls : List PinCall) (call : PinCall) :
    lastCall p (calls ++ [call]) = if p call then some call else lastCall p calls := by
  rw [lastCall, lastCall, filter_append]
  by_cases hp : p call = true
  · simp [hp]
  · simp [hp]

theorem buildPins_concat (h : buildPins (calls ++ [call]) = .ok pins) :
    ∃ keys auth, buildPins calls = .ok keys ∧ call.key = some auth ∧
      pins = keys.insert auth call.info := by
  rw [buildPins, foldl_append] at h
  obtain ⟨keys, hkeys, h⟩ := of_bind_ok h
  obtain ⟨auth, hauth, h⟩ := of_bind_ok h
  cases h
  refine ⟨keys, auth, hkeys, ?_, rfl⟩
  rw [PinCall.key, hauth]
  rfl

theorem getPin_buildPins (h : buildPins calls = .ok pins) (domain : Bytes) :
    getPin pins domain = (lastCall (·.key = some domain) calls).map (·.info) := by
  induction calls using reverseRecOn generalizing pins with
  | nil =>
    cases h
    rfl
  | append_singleton calls call ih =>
    obtain ⟨keys, auth, hkeys, hkey, rfl⟩ := buildPins_concat h
    rw [lastCall_concat, getPin, hkey]
    by_cases hdomain : domain = auth
    · subst hdomain
      simp
    · have hne : ¬auth = domain := fun heq => hdomain heq.symm
      have hbefore := ih hkeys
      rw [getPin] at hbefore
      rw [AList.lookup_insert_ne hdomain]
      simpa [hne] using hbefore

/-! ## The origin of a pin -/

def PinCall.origin (self : PinCall) : Option (Bytes × ℕ) :=
  match Uri.fromBytes self.uri with
  | .error _ => none
  | .ok uri => uri.host.map fun host => (host.map toAsciiLowercase, portNumber uri .https)

def domainOrigin (domain : Bytes) : Option (Bytes × ℕ) :=
  (rsplitOnce ':'.toUInt8 domain).bind fun (host, port) =>
    (asU16 port).map fun n => (host.map toAsciiLowercase, n)

theorem domainOrigin_append {n : ℕ} (h : asU16 port = some n) :
    domainOrigin (host ++ ':'.toUInt8 :: port) = some (host.map toAsciiLowercase, n) := by
  rw [domainOrigin, rsplitOnce_append (colon_not_mem_of_asU16 h), bind_some]
  dsimp only
  rw [h, map_some]

theorem asU16_of_hostPort {auth : Bytes} {colonNum : ℕ} (h : hostPort auth colonNum = .ok authority)
    (hport : authority.port = some port) : ∃ n, asU16 port = some n := by
  rw [hostPort] at h
  split at h
  · split at h
    · split_ifs at h
      · cases h
        cases hport
      · split at h
        · cases h
        · rename_i n hn
          cases h
          cases hport
          exact ⟨n, hn⟩
    · cases h
  · cases h
    cases hport

theorem asU16_of_authorityToken {rest : Bytes}
    (h : authorityToken bytes = .ok (some authority, rest)) (hport : authority.port = some port) :
    ∃ n, asU16 port = some n := by
  obtain ⟨_, _, -, -, -, -, hparse, -⟩ := authorityToken_some_iff.mp h
  exact asU16_of_hostPort hparse hport

theorem asU16_of_fromBytes (h : Uri.fromBytes bytes = .ok uri) (hport : uri.port = some port) :
    ∃ n, asU16 port = some n := by
  rw [Uri.fromBytes] at h
  split_ifs at h
  obtain ⟨⟨scheme, rest⟩, -, h⟩ := of_bind_ok h
  obtain ⟨⟨authority, rest⟩, hauthority, h⟩ := of_bind_ok h
  obtain ⟨⟨path, rest⟩, -, h⟩ := of_bind_ok h
  obtain ⟨query, -, h⟩ := of_bind_ok h
  have huri : uri = { scheme, authority, path, query } := by
    rw [Uri.validityCheck] at h
    split at h <;> cases h
    rfl
  rw [huri, Uri.port, bind_eq_some_iff] at hport
  obtain ⟨parsed, rfl, hport⟩ := hport
  exact asU16_of_authorityToken hauthority hport

theorem PinCall.origin_of_key {domain : Bytes} (h : call.key = some domain) :
    call.origin = domainOrigin domain ∧ call.origin.isSome := by
  rw [PinCall.key, parseUri] at h
  rw [PinCall.origin]
  cases hparsed : Uri.fromBytes call.uri with
  | error e => simp [hparsed, Except.toOption] at h
  | ok uri =>
    rw [hparsed] at h
    dsimp only at h ⊢
    cases hhost : uri.host with
    | none => simp [hhost, Except.toOption] at h
    | some host =>
      refine ⟨?_, rfl⟩
      cases hport : uri.port with
      | none =>
        rw [hhost, hport] at h
        cases h
        rw [show str ":443" = ':'.toUInt8 :: decimal 443 by decide,
          domainOrigin_append (asU16_decimal (by decide)), portNumber, hport]
        rfl
      | some port =>
        rw [hhost, hport] at h
        cases h
        obtain ⟨n, hn⟩ := asU16_of_fromBytes hparsed hport
        rw [domainOrigin_append hn, portNumber, hport, bind_some, hn]
        rfl

/-! ## The pin of a request -/

theorem lastCall_eq_none : lastCall p calls = none ↔ ∀ call ∈ calls, p call = false := by
  rw [lastCall, getLast?_eq_none_iff, filter_eq_nil_iff]
  simp

theorem lastCall_eq_some (h : lastCall p calls = some call) : p call = true :=
  (mem_filter.mp (mem_of_getLast? h)).2

theorem lastCall_of_imp {q : PinCall → Bool} (h : lastCall q calls = some call) (hp : p call = true)
    (himp : ∀ c ∈ calls, p c = true → q c = true) : lastCall p calls = some call := by
  induction calls using reverseRecOn with
  | nil => cases h
  | append_singleton calls c ih =>
    rw [lastCall_concat] at h ⊢
    by_cases hq : q c = true
    · rw [if_pos hq] at h
      cases h
      rw [if_pos hp]
    · rw [if_neg hq] at h
      have hpc : ¬p c = true := fun hpc => hq (himp c (by simp) hpc)
      rw [if_neg hpc]
      exact ih h fun c hc => himp c (by simp [hc])

/-- The last pin of the origin is spelled like the domain, or the last pin that is says the same;
and no pin is spelled like the domain if there is none for the origin. -/
def Spelled (calls : List PinCall) (origin : Bytes × ℕ) (domain : Bytes) : Prop :=
  match lastCall (·.origin = some origin) calls with
  | some call => call.key = some domain ∨
      ∃ call', lastCall (·.key = some domain) calls = some call' ∧ call'.info = call.info
  | none => ∀ call ∈ calls, call.key ≠ some domain

theorem getPin_eq_last (hbuild : buildPins calls = .ok pins) (origin : Bytes × ℕ) (domain : Bytes) :
    getPin pins domain = (lastCall (·.origin = some origin) calls).map (·.info) ↔
      Spelled calls origin domain := by
  rw [getPin_buildPins hbuild, Spelled]
  cases hlast : lastCall (·.origin = some origin) calls with
  | none =>
    rw [map_none, map_eq_none_iff, lastCall_eq_none]
    simp
  | some call =>
    rw [map_some, map_eq_some_iff]
    refine ⟨.inr, ?_⟩
    rintro (hkey | h)
    · have hcall : call.origin = some origin := of_decide_eq_true (lastCall_eq_some hlast)
      refine ⟨call, lastCall_of_imp hlast (decide_eq_true hkey) fun c _ hc => ?_, rfl⟩
      have hc := (PinCall.origin_of_key (of_decide_eq_true hc)).1
      have hdomain := (PinCall.origin_of_key hkey).1
      exact decide_eq_true (hc.trans (hdomain.symm.trans hcall))
    · exact h

def ConnPath.spelling (self : ConnPath) (host : Bytes) (port : ℕ) : Bytes :=
  match self with
  | .quic (some altSvc) => altSvc.host.getD host ++ ':'.toUInt8 :: altSvc.port
  | _ => host ++ ':'.toUInt8 :: decimal port

theorem domain_eq_spelling {defaultScheme : Scheme} {uri' : Uri} {path : ConnPath}
    (hfmt : formatUri defaultScheme uri = .ok uri')
    (hhttps : uri.scheme.getD defaultScheme = .https) (hhost : uri.host = some host)
    (hurl : (path.url uri').isSome) :
    path.domain uri' = some (path.spelling host (portNumber uri .https)) := by
  obtain ⟨host', hhost', rfl⟩ := formatUri_ok hfmt
  obtain rfl : host = host' := some.inj (hhost.symm.trans hhost')
  rw [hhttps] at hurl ⊢
  cases path with
  | direct => rfl
  | proxied => rfl
  | quic altSvc =>
    cases altSvc with
    | none => rfl
    | some altSvc =>
      rw [ConnPath.url] at hurl
      rw [ConnPath.domain, ConnPath.url]
      split at hurl
      · cases hurl
      · rename_i authority hauthority
        obtain ⟨n, hn⟩ := isSome_iff_exists.mp altSvc.valid
        have hparts := Authority.fromBytes_hostPort hn hauthority
        rw [hparts]
        rfl

/-- The pin that is looked up for a request is the last that was added for its host and port if and
only if this is spelled as the domain of the connection is. -/
theorem pin_of_origin {calls : List PinCall} {pins : PubKeyPins} {defaultScheme : Scheme}
    {uri uri' : Uri} {host : Bytes} {path : ConnPath} (hbuild : buildPins calls = .ok pins)
    (hformat : formatUri defaultScheme uri = .ok uri')
    (hhttps : uri.scheme.getD defaultScheme = .https) (hhost : uri.host = some host)
    (hurl : (path.url uri').isSome) :
    (path.domain uri').bind (getPin pins) = (lastCall
        (·.origin = some (host.map toAsciiLowercase, portNumber uri .https)) calls).map (·.info) ↔
      Spelled calls (host.map toAsciiLowercase, portNumber uri .https)
        (path.spelling host (portNumber uri .https)) := by
  rw [domain_eq_spelling hformat hhttps hhost hurl, bind_some]
  exact getPin_eq_last hbuild _ _

theorem buildPins_single {uri key : Bytes} (info : PinsVerifyInfo) (h : parseUri uri = .ok key) :
    buildPins [⟨uri, info⟩] = .ok ((∅ : PubKeyPins).insert key info) := by
  simp [buildPins, addPin, h, bind, Except.bind, pure, Except.pure]

/-- The pin of `https://a` is looked up for a request to `https://a:0443`, through a proxy. -/
theorem pin_of_origin_decimal :
    ∃ (calls : List PinCall) (pins : PubKeyPins) (uri uri' : Uri),
      buildPins calls = .ok pins ∧ formatUri .https uri = .ok uri' ∧
      uri.port = some (str "0443") ∧
      ((ConnPath.proxied.domain uri').bind (getPin pins) =
          (lastCall (·.origin = some ((str "a").map toAsciiLowercase, portNumber uri .https))
            calls).map (·.info) ↔
        Spelled calls ((str "a").map toAsciiLowercase, portNumber uri .https)
          (ConnPath.proxied.spelling (str "a") (portNumber uri .https))) := by
  let uri : Uri :=
    { scheme := some .https, authority := some { host := str "a", port := some (str "0443") },
      path := some (str "/"), query := none }
  let uri' : Uri :=
    { scheme := some .https, authority := some { host := str "a", port := some (str "443") },
      path := some (str "/"), query := none }
  let info : PinsVerifyInfo := ⟨.leafCertificate, str "d"⟩
  have hkey : parseUri (str "https://a") = .ok (str "a:443") := by decide
  have hbuild := buildPins_single info hkey
  have hfmt : formatUri .https uri = .ok uri' := by decide
  refine ⟨_, _, uri, uri', hbuild, hfmt, rfl, ?_⟩
  exact pin_of_origin hbuild hfmt rfl rfl rfl

/-- The pin of `https://A` is not looked up for `https://a`. -/
theorem pin_of_other_spelling :
    ∃ (calls : List PinCall) (pins : PubKeyPins) (uri uri' : Uri),
      buildPins calls = .ok pins ∧ formatUri .https uri = .ok uri' ∧
      uri.host = some (str "a") ∧ portNumber uri .https = 443 ∧
      (ConnPath.direct.domain uri').bind (getPin pins) = none ∧
      ((lastCall (·.origin = some (str "a", 443)) calls).map (·.info)).isSome := by
  let uri : Uri :=
    { scheme := some .https, authority := some { host := str "a", port := none },
      path := some (str "/"), query := none }
  let uri' : Uri :=
    { scheme := some .https, authority := some { host := str "a", port := some (str "443") },
      path := some (str "/"), query := none }
  let info : PinsVerifyInfo := ⟨.leafCertificate, str "d"⟩
  have hkey : parseUri (str "https://A") = .ok (str "A:443") := by decide
  have hbuild := buildPins_single info hkey
  have hfmt : formatUri .https uri = .ok uri' := by decide
  refine ⟨_, _, uri, uri', hbuild, hfmt, rfl, rfl, ?_, by decide⟩
  have hdomain : ConnPath.direct.domain uri' = some (str "a:443") := by decide
  rw [hdomain, bind_some, getPin, AList.lookup_insert_ne (by decide)]
  rfl

end YlongHttp.Client
