import YlongHttp.Verification.Requests.Runs

/-! # Credentials on redirects

The fields that are sensitive are removed where the authority changes. The scheme is not looked
at. -/

namespace YlongHttp.Client

open Option

variable {B : Type} {config : ClientConfig} {reuse : B → B}
variable {defaultScheme : Scheme} {request request' : Request B} {loc uri' : Uri} {s s' : Sending B}

def Request.Credentials (self : Request B) : Prop :=
  ∃ name ∈ sensitiveHeaders, (self.headers.get name).isSome

/-! ## One redirect -/

theorem sensitive_distinct {name : Bytes} (h : name ∈ sensitiveHeaders) :
    HeaderName.fromBytes name ≠ HeaderName.fromBytes (str "Accept") ∧
      HeaderName.fromBytes name ≠ HeaderName.fromBytes (str "Host") ∧
      HeaderName.fromBytes name ∉ updatedHeaders.map HeaderName.fromBytes := by
  revert name
  decide

theorem credentials_format (h : request.format defaultScheme = .ok request') :
    request'.Credentials ↔ request.Credentials := by
  obtain ⟨-, -, hget⟩ := Request.format_ok h
  refine exists_congr fun name => and_congr_right fun hname => ?_
  obtain ⟨haccept, hhost, -⟩ := sensitive_distinct hname
  rw [hget name haccept hhost]

theorem credentials_rewrite (request : Request B) :
    request.rewrite.Credentials ↔ request.Credentials := by
  refine exists_congr fun name => and_congr_right fun hname => ?_
  rw [Request.rewrite, Headers.get_removes, if_neg (sensitive_distinct hname).2.2]

theorem not_credentials_removes (request : Request B) (uri : Uri) :
    ¬Request.Credentials { request with
      headers := sensitiveHeaders.foldl Headers.remove request.headers, uri } := by
  rintro ⟨name, hname, hsome⟩
  rw [Headers.get_removes, if_pos (List.mem_map_of_mem hname)] at hsome
  cases hsome

def followed (strategy : Strategy) (request : Request B) (previous : List Uri)
    (response : Response) : Option Uri :=
  if rewrites response.status || preserves response.status then
    if strategy.trigger (previous.length + 1) = .ok .nextLink then location request response
    else none
  else none

/-- What a request is made into after a response. -/
def Successor (request : Request B) (followed : Option Uri) (request' : Request B) : Prop :=
  match followed with
  | none => request'.uri = request.uri ∧ (request'.Credentials ↔ request.Credentials)
  | some location => request'.uri = location ∧
      (request'.Credentials ↔ request.Credentials ∧ location.authority = request.uri.authority)

theorem Successor.of_rewrite {followed : Option Uri}
    (h : Successor request.rewrite followed request') : Successor request followed request' := by
  cases followed with
  | none => exact ⟨h.1, h.2.trans (credentials_rewrite request)⟩
  | some loc => exact ⟨h.1, h.2.trans (and_congr_left fun _ => credentials_rewrite request)⟩

theorem Strategy.follow_successor (self : Strategy) (request : Request B) (response : Response)
    (previous : List Uri) :
    Successor request
      (if self.trigger (previous.length + 1) = .ok .nextLink then location request response else none)
      (self.follow request response previous).1 := by
  have hlen : (previous ++ [request.uri]).length = previous.length + 1 := by simp
  rw [Strategy.follow, hlen]
  cases hloc : location request response with
  | none =>
    rw [ite_self]
    exact ⟨rfl, Iff.rfl⟩
  | some loc =>
    cases htrigger : self.trigger (previous.length + 1) with
    | error e => exact ⟨rfl, Iff.rfl⟩
    | ok trigger =>
      cases trigger with
      | stop => exact ⟨rfl, Iff.rfl⟩
      | nextLink =>
        rw [if_pos rfl]
        refine ⟨rfl, ?_⟩
        simp only [List.getLast?_concat]
        by_cases hauth : loc.authority = request.uri.authority
        · rw [if_neg (not_not_intro hauth)]
          exact (and_iff_left hauth).symm
        · rw [if_pos hauth]
          exact iff_of_false (not_credentials_removes request loc) fun h => hauth h.2

theorem Strategy.redirect_successor (self : Strategy) (request : Request B) (response : Response)
    (previous : List Uri) :
    Successor request (followed self request previous response)
      (self.redirect request response previous).1 := by
  rw [Strategy.redirect, followed]
  by_cases hrewrites : rewrites response.status = true
  · rw [if_pos hrewrites, hrewrites, Bool.true_or, if_pos rfl]
    exact (self.follow_successor request.rewrite response previous).of_rewrite
  · by_cases hpres : preserves response.status = true
    · rw [if_neg hrewrites, if_pos hpres, hpres, Bool.or_true, if_pos rfl]
      exact self.follow_successor request response previous
    · rw [if_neg hrewrites, if_neg hpres, if_neg (by simp [hrewrites, hpres])]
      exact ⟨rfl, Iff.rfl⟩

/-! ## Chains of redirects -/

variable (self : Sending B)

def Sending.next (strategy : Strategy) : Option Uri :=
  match self.event.answer with
  | .response response => followed strategy self.request self.previous response
  | _ => none

theorem Sending.after_successor (strategy : Strategy) :
    Successor self.request (self.next strategy) (self.after strategy) := by
  rw [Sending.next, Sending.after]
  cases self.event.answer with
  | response response => exact strategy.redirect_successor self.request response self.previous
  | refused | error => exact ⟨rfl, Iff.rfl⟩

theorem Resent.credentials (h : Resent defaultScheme reuse request request') :
    request'.Credentials ↔ request.Credentials := by
  induction h with
  | sent hfmt => exact credentials_format hfmt
  | refused hfmt _ ih =>
    have hbefore := credentials_format hfmt
    exact ih.trans hbefore

theorem isSome_scheme_location {response : Response} (hreq : request.uri.scheme.isSome)
    (h : location request response = some loc) : loc.scheme.isSome := by
  rw [location, bind_eq_some_iff] at h
  obtain ⟨value, -, h⟩ := h
  split at h
  · cases h
  · rename_i parsed _
    split at h
    · cases h
      exact hreq
    · rename_i hsome
      cases h
      rw [not_or, Bool.not_eq_true, isNone_eq_false_iff] at hsome
      exact hsome.1

theorem isSome_scheme_next {strategy : Strategy} (hsch : s.request.uri.scheme.isSome)
    (h : s.next strategy = some loc) : loc.scheme.isSome := by
  rw [Sending.next] at h
  split at h
  · rename_i response _
    rw [followed] at h
    split_ifs at h
    exact isSome_scheme_location hsch h
  · cases h

/-- A redirect takes credentials to the same authority under another scheme. -/
def Sending.Downgrade (strategy : Strategy) : Prop :=
  self.request.Credentials ∧ ∃ loc, self.next strategy = some loc ∧
    loc.authority = self.request.uri.authority ∧ loc.scheme ≠ self.request.uri.scheme

theorem origin_congr {uri : Uri} (hsch : uri'.scheme = uri.scheme)
    (hauth : uri'.authority = uri.authority) :
    origin defaultScheme uri' = origin defaultScheme uri := by
  rw [origin, origin, Uri.host, Uri.host, hsch, hauth]
  simp only [portNumber, Uri.port, hauth]

theorem scheme_of_origin {uri : Uri} (hhost : uri.authority.isSome)
    (h : origin defaultScheme uri' = origin defaultScheme uri) :
    uri'.scheme.getD defaultScheme = uri.scheme.getD defaultScheme := by
  obtain ⟨authority, hauth⟩ := isSome_iff_exists.mp hhost
  rw [origin, origin, Uri.host, Uri.host, hauth] at h
  cases hauth' : uri'.authority with
  | none =>
    rw [hauth'] at h
    cases h
  | some authority' =>
    rw [hauth'] at h
    exact congrArg Prod.fst (some.inj h)

theorem Sending.Hop.stays (h : s.Hop config reuse s') (hcred : s'.request.Credentials)
    (hkept : ¬s.Downgrade config.redirect) : s.request.Credentials ∧
      origin config.defaultScheme s'.request.uri = origin config.defaultScheme s.request.uri := by
  have hafter := s.after_successor config.redirect
  have huri := Resent.uri h
  have hbefore := (Resent.credentials h).mp hcred
  cases hnext : s.next config.redirect with
  | none =>
    rw [hnext] at hafter
    refine ⟨hafter.2.mp hbefore, ?_⟩
    rw [origin_formatUri huri]
    exact congrArg _ hafter.1
  | some loc =>
    rw [hnext] at hafter
    obtain ⟨hsensitive, hauth⟩ := hafter.2.mp hbefore
    refine ⟨hsensitive, ?_⟩
    have hsch : loc.scheme = s.request.uri.scheme := by
      by_contra hne
      exact hkept ⟨hsensitive, loc, hnext, hauth, hne⟩
    rw [origin_formatUri huri]
    exact (congrArg _ hafter.1).trans (origin_congr hsch hauth)

theorem Sending.Hop.downgrade (h : s.Hop config reuse s') (hformatted : Formatted s.request.uri)
    (hdowngrade : s.Downgrade config.redirect) :
    s'.request.Credentials ∧
      origin config.defaultScheme s'.request.uri ≠ origin config.defaultScheme s.request.uri := by
  obtain ⟨hsensitive, loc, hnext, hauth, hsch⟩ := hdowngrade
  have hafter := s.after_successor config.redirect
  rw [hnext] at hafter
  have huri := Resent.uri h
  refine ⟨(Resent.credentials h).mpr (hafter.2.mpr ⟨hsensitive, hauth⟩), fun heq => hsch ?_⟩
  obtain ⟨scheme, host, n, path, -, hmade⟩ := hformatted
  have hsome : s.request.uri.authority.isSome := by
    rw [hmade]
    rfl
  have hisSome : s.request.uri.scheme.isSome := by
    rw [hmade]
    rfl
  rw [origin_formatUri huri] at heq
  have heq' := scheme_of_origin hsome heq
  dsimp only at heq'
  rw [hafter.1] at heq'
  obtain ⟨scheme₁, hsch₁⟩ := isSome_iff_exists.mp hisSome
  obtain ⟨scheme₂, hsch₂⟩ := isSome_iff_exists.mp (isSome_scheme_next hisSome hnext)
  rw [hsch₁, hsch₂] at heq'
  rw [hsch₁, hsch₂]
  exact congrArg some heq'

/-- The sensitive fields stay at the origin of the request if and only if no redirect of a request
that has one names its authority with the other scheme. -/
theorem credentials_stay (config : ClientConfig) (reuse : B → B) (request : Request B)
    (events : List Event) :
    (∀ (i : ℕ) (s : Sending B), (config.request reuse request events)[i]? = some s →
      s.request.Credentials → ∀ j ≤ i, ∀ s' : Sending B, (config.request reuse request events)[j]? = some s' →
        origin config.defaultScheme s'.request.uri = origin config.defaultScheme request.uri) ↔
    ∀ (k : ℕ) (s s' : Sending B), (config.request reuse request events)[k]? = some s →
      (config.request reuse request events)[k + 1]? = some s' → ¬s.Downgrade config.redirect := by
  have hsends : Sends config reuse request (config.request reuse request events) :=
    request_sends request events
  generalize config.request reuse request events = sendings at hsends ⊢
  constructor
  · intro hstay k s s' hs hs' hdowngrade
    obtain ⟨hcred, horigin⟩ := (hsends.hop hs hs').downgrade (hsends.formatted hs) hdowngrade
    have hfirst := hstay (k + 1) s' hs' hcred k (Nat.le_succ k) s hs
    have hsec := hstay (k + 1) s' hs' hcred (k + 1) (Nat.le_refl _) s' hs'
    exact horigin (hsec.trans hfirst.symm)
  · intro hkept i
    induction i with
    | zero =>
      intro s hs _ j hj s' hs'
      rw [Nat.le_zero.mp hj] at hs'
      exact origin_formatUri (hsends.first hs').uri
    | succ i ih =>
      intro s' hs' hcred j hj t ht
      have hlt : i < sendings.length := Nat.lt_of_succ_lt (List.getElem?_eq_some_iff.mp hs').1
      have hs : sendings[i]? = some sendings[i] := List.getElem?_eq_getElem hlt
      obtain ⟨hbefore, horigin⟩ := (hsends.hop hs hs').stays hcred
        (hkept i _ _ hs hs')
      rcases Nat.le_or_eq_of_le_succ hj with hj | rfl
      · exact ih _ hs hbefore j hj t ht
      · obtain rfl : s' = t := some.inj (hs'.symm.trans ht)
        exact horigin.trans (ih _ hs hbefore i (Nat.le_refl _) _ hs)

/-- A request for HTTPS is redirected to the same host and port without TLS. The second request
has the `Authorization` of the first. -/
theorem credentials_leave :
    ∃ (config : ClientConfig) (request : Request Unit) (events : List Event) (s : Sending Unit),
      (config.request id request events)[1]? = some s ∧ s.request.Credentials ∧
        origin config.defaultScheme s.request.uri ≠ origin config.defaultScheme request.uri := by
  let headers := (Headers.new.insert (str "Authorization") (str "Basic b2s=")).getD .new
  let location := (Headers.new.insert (str "Location") (str "http://a:443/")).getD .new
  let config : ClientConfig := { defaultScheme := .https, redirect := .limitTimes 10, retry := 0 }
  let request : Request Unit :=
    { method := .get, version := .http1_1, headers, body := ()
      uri := { scheme := some .https, authority := some { host := str "a", port := none },
               path := some (str "/"), query := none } }
  let events : List Event :=
    [{ reads := [], answer := .response { status := 302, headers := location },
       redirectReuse := true, retryReuse := true },
     { reads := [], answer := .error, redirectReuse := true, retryReuse := true }]
  have hsent : ((config.request id request events)[1]?.map fun s =>
      ((s.request.headers.get (str "authorization")).isSome,
        decide (origin .https s.request.uri ≠ origin .https request.uri))) = some (true, true) := by
    decide
  rw [map_eq_some_iff] at hsent
  obtain ⟨s, hs, hsent⟩ := hsent
  obtain ⟨hcred, horigin⟩ := Prod.mk.inj hsent
  exact ⟨config, request, events, s, hs, ⟨_, by decide, hcred⟩, of_decide_eq_true horigin⟩

end YlongHttp.Client
