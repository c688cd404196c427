import YlongHttp.Model.Attempts
import YlongHttp.Verification.Requests.Format

/-! # How often a request is redirected and repeated -/

namespace YlongHttp.Client

open List Option Strategy Headers Nat
open Library

variable {B : Type} {defaultScheme : Scheme} {source : BodySource B}
variable {headers : Headers} {name : Bytes} {ahead n : ℕ}
  {first formatted request request' : Request B} {exchange : Exchange} {sent : List (Request B)}
  {response : Response} {free run : Attempt B} {exchanges : List Exchange}
  {answer : Except SendError Response} {content : B → Bytes} {strategy : Strategy} {body : B}

/-! ## Decisions -/

def Request.Unaffected (self : Request B) : Prop :=
  (self.method = .get ∨ self.method = .head) ∧ ∀ name ∈ updatedHeaders, self.headers.get name = none

theorem remove_absent (h : headers.get name = none) : headers.remove name = headers := by
  rw [Headers.remove]
  rw [Headers.get] at h
  cases hname : HeaderName.fromBytes name with
  | none => rfl
  | some name =>
    rw [hname, bind_some, find, map_eq_none_iff, find?_eq_none] at h
    obtain ⟨entries, nodup⟩ := headers
    have hkept : entries.filter (fun e => e.1 ≠ name) = entries :=
      filter_eq_self.mpr fun e he => by simpa using h e he
    simp only [removeName, hkept]

theorem rewrite_eq_iff (request : Request B) :
    request.rewrite = request ↔ request.Unaffected := by
  constructor
  · intro h
    have hmethod := congrArg Request.method h
    have hheaders := congrArg Request.headers h
    constructor
    · by_contra hne
      rw [Request.rewrite, if_neg hne] at hmethod
      exact hne (.inl hmethod.symm)
    · intro name hname
      rw [← hheaders, Request.rewrite, get_removes, if_pos (mem_map_of_mem hname)]
  · rintro ⟨hmethod, habsent⟩
    have hheaders : ∀ names ⊆ updatedHeaders,
        names.foldl remove request.headers = request.headers := by
      intro names
      induction names with
      | nil => exact fun _ => rfl
      | cons name names ih =>
        intro hsub
        rw [foldl_cons, remove_absent (habsent name (hsub (.head _)))]
        exact ih fun n hn => hsub (.tail name hn)
    rw [Request.rewrite, if_pos hmethod, hheaders _ (List.Subset.refl _)]

def unlimited : Redirecting B := fun request response previous =>
  (limitTimes (previous.length + 2)).redirect request response previous

def limitError : HttpClientError := ⟨.build, .msg "Over redirect max limit"⟩

theorem redirect_limited (n : ℕ) (request : Request B) (response : Response) (previous : List Uri) :
    let free := unlimited request response previous
    let run := (limitTimes n).redirect request response previous
    (free.2.2 ≠ .ok .nextLink ∧ run = free) ∨
    (free.2.2 = .ok .nextLink ∧ free.2.1.length = previous.length + 1 ∧
      if previous.length + 1 < n then run = free
      else run.2.2 = .error limitError) := by
  have hfollow (request : Request B) :
      let free := (limitTimes (previous.length + 2)).follow request response previous
      let run := (limitTimes n).follow request response previous
      (free.2.2 ≠ .ok .nextLink ∧ run = free) ∨
      (free.2.2 = .ok .nextLink ∧ free.2.1.length = previous.length + 1 ∧
        if previous.length + 1 < n then run = free else run.2.2 = .error limitError) := by
    simp only [follow, trigger, length_append, length_singleton,
      show previous.length + 1 < previous.length + 2 by omega, if_true]
    cases location request response with
    | none => exact .inl ⟨nofun, rfl⟩
    | some uri =>
      refine .inr ⟨rfl, by simp, ?_⟩
      by_cases hlt : previous.length + 1 < n
      · simp only [hlt, if_true]
      · simp only [hlt, if_false]
        rfl
  simp only [unlimited, redirect]
  by_cases hrewrites : rewrites response.status = true
  · simp only [hrewrites, if_true]
    exact hfollow request.rewrite
  · by_cases hpreserves : preserves response.status = true
    · simp only [hrewrites, hpreserves, if_true]
      exact hfollow request
    · simp only [hrewrites, hpreserves]
      exact .inl ⟨nofun, rfl⟩

/-! ## The limit -/

/-- An attempt that follows at most `n` redirects, beside one without a limit. What is sent for
them is the same; `ahead` requests were sent before. -/
structure Capped (n ahead : ℕ) (free run : Attempt B) : Prop where
  below : free.followed ≤ n → run = free
  result : n < free.followed → run.result = some (.error (.client limitError))
  followed : n < free.followed → run.followed = n
  sent : n < free.followed → run.sent = free.sent.take (n + ahead)

theorem Capped.same {attempt : Attempt B} (h : attempt.followed ≤ n) :
    Capped n ahead attempt attempt where
  below _ := rfl
  result hlt := absurd h (Nat.not_le_of_lt hlt)
  followed hlt := absurd h (Nat.not_le_of_lt hlt)
  sent hlt := absurd h (Nat.not_le_of_lt hlt)

theorem sendUnformatted_ok
    (h : sendUnformatted defaultScheme source request exchange = (request', sent, .ok response)) :
    ∃ formatted, request.format defaultScheme = .ok formatted ∧ sent = [formatted] ∧
      exchange.answer = .response response ∧
      request' = { formatted with body := source.read exchange.read formatted.body } := by
  rw [sendUnformatted] at h
  cases hformat : request.format defaultScheme with
  | error e => simp [hformat] at h
  | ok formatted =>
    cases hanswer : exchange.answer with
    | refused | error => simp [hformat, hanswer] at h
    | response response' =>
      simp only [hformat, hanswer, Prod.mk.injEq, Except.ok.injEq] at h
      obtain ⟨rfl, rfl, rfl⟩ := h
      exact ⟨formatted, rfl, rfl, rfl, rfl⟩

theorem Capped.decided (h : Capped n ahead free run) (decision : Decision B) :
    Capped n ahead (free.decided decision) (run.decided decision) where
  below hle := by rw [h.below hle]
  result := h.result
  followed := h.followed
  sent := h.sent

theorem Capped.behind (h : Capped n ahead free run) (request : Request B) :
    Capped n (ahead + 1) (free.behind [request]) (run.behind [request]) where
  below hle := by rw [h.below hle]
  result := h.result
  followed := h.followed
  sent hlt := by
    change [request] ++ run.sent = ([request] ++ free.sent).take (n + ahead + 1)
    rw [h.sent hlt]
    rfl

theorem Capped.follows (h : Capped n 1 free run) :
    Capped (n + 1) 0 free.follows run.follows where
  below hle := by rw [h.below (le_of_succ_le_succ hle)]
  result hlt := h.result (lt_of_succ_lt_succ hlt)
  followed hlt := congrArg (· + 1) (h.followed (lt_of_succ_lt_succ hlt))
  sent hlt := h.sent (lt_of_succ_lt_succ hlt)

theorem redirectLoop_round (n : ℕ) (ih : ∀ exchange rest, exchanges = exchange :: rest →
      ∀ (request : Request B) (previous : List Uri) (response : Response),
        Capped (n - 1 - previous.length) 0
          (redirectLoop defaultScheme source unlimited rest request previous response)
          (redirectLoop defaultScheme source (limitTimes n).redirect rest request
            previous response)) (request : Request B) (previous : List Uri) (response : Response) :
    Capped (n - 1 - previous.length) 0
      (redirectLoop defaultScheme source unlimited exchanges request previous response)
      (redirectLoop defaultScheme source (limitTimes n).redirect exchanges request
        previous response) := by
  rw [redirectLoop, redirectLoop]
  refine Capped.decided ?_ _
  rcases redirect_limited n request response previous with
    ⟨hstop, hrun⟩ | ⟨hnext, hlength, hrun⟩
  · rw [hrun]
    generalize unlimited request response previous = free at hstop
    obtain ⟨request, previous', e | _ | _⟩ := free
    · exact .same (zero_le _)
    · exact absurd rfl hstop
    · exact .same (zero_le _)
  · generalize unlimited request response previous = free at hnext hlength hrun
    obtain ⟨request', previous', answer⟩ := free
    simp only at hnext hlength
    subst hnext
    by_cases hlt : previous.length + 1 < n
    · -- The redirect is followed under the limit, too.
      rw [if_pos hlt] at hrun
      rw [hrun, show n - 1 - previous.length = n - 1 - previous'.length + 1 by omega]
      refine Capped.follows ?_
      cases source.reuse request'.body with
      | none => exact .same (zero_le _)
      | some body =>
        cases exchanges with
        | nil => exact .same (zero_le _)
        | cons exchange rest =>
          simp only
          split
          · exact .same (zero_le _)
          · split
            · exact .same (zero_le _)
            · rename_i hsent
              obtain ⟨formatted, -, rfl, -, rfl⟩ := sendUnformatted_ok hsent
              exact (ih exchange rest rfl _ _ _).behind formatted
    · rw [if_neg hlt] at hrun
      generalize (limitTimes n).redirect _ response previous = run at hrun
      obtain ⟨request'', previous'', answer⟩ := run
      simp only at hrun
      subst hrun
      rw [show n - 1 - previous.length = 0 by omega]
      exact ⟨fun h => absurd h (not_succ_le_zero _), fun _ => rfl, fun _ => rfl, fun _ => rfl⟩

theorem redirectLoop_capped (n : ℕ) (exchanges : List Exchange) :
    ∀ (request : Request B) (previous : List Uri) (response : Response),
      Capped (n - 1 - previous.length) 0
        (redirectLoop defaultScheme source unlimited exchanges request previous response)
        (redirectLoop defaultScheme source (limitTimes n).redirect exchanges request
          previous response) := by
  induction exchanges with
  | nil => exact redirectLoop_round n nofun
  | cons exchange exchanges ih =>
    refine redirectLoop_round n fun exchange' rest h => ?_
    obtain ⟨-, rfl⟩ := cons.inj h
    exact ih

theorem sendRequest_capped (n : ℕ) (request : Request B) (exchanges : List Exchange) :
    Capped (n - 1) 1 (sendRequest defaultScheme source unlimited request exchanges)
      (sendRequest defaultScheme source (limitTimes n).redirect request exchanges) := by
  cases exchanges with
  | nil => exact .same (zero_le _)
  | cons exchange exchanges =>
    rw [sendRequest, sendRequest]
    split
    · exact .same (zero_le _)
    · rename_i hsent
      obtain ⟨formatted, -, rfl, -, rfl⟩ := sendUnformatted_ok hsent
      exact (redirectLoop_capped n exchanges _ [] _).behind formatted

/-! ## No redirects -/

/-- The only request is the first, and its response is returned with the request as it was sent. -/
structure ReturnsFirst (defaultScheme : Scheme) (source : BodySource B) (request : Request B)
    (exchanges : List Exchange) (run : Attempt B) : Prop where
  followed : run.followed = 0
  sent : run.sent.length ≤ 1
  response : ∀ exchange ∈ exchanges.head?, ∀ formatted response,
    request.format defaultScheme = .ok formatted → exchange.answer = .response response →
      run.result = some (.ok response) ∧
        run.request = { formatted with body := source.read exchange.read formatted.body }

def ReturnedAsIs (request : Request B) (response : Response) : Prop :=
  (rewrites response.status = true → request.Unaffected) ∧
    (rewrites response.status = true ∨ preserves response.status = true →
      location request response ≠ none)

theorem redirect_none (request : Request B) (response : Response) (previous : List Uri) :
    let run := noRedirect.redirect request response previous
    run.2.2 ≠ .ok .nextLink ∧
      (run.2.2 = .ok .stop ∧ run.1 = request ↔ ReturnedAsIs request response) := by
  have hfollow (request' : Request B) (huri : request'.uri = request.uri) :
      let run := noRedirect.follow request' response previous
      run.1 = request' ∧ run.2.2 ≠ .ok .nextLink ∧
        (run.2.2 = .ok .stop ↔ location request response ≠ none) := by
    have hlocation : location request' response = location request response := by
      rw [location, location, huri]
    simp only [follow, hlocation, trigger]
    cases location request response with
    | none => exact ⟨rfl, nofun, nofun, fun h => absurd rfl h⟩
    | some uri => exact ⟨rfl, nofun, fun _ => nofun, fun _ => rfl⟩
  simp only [redirect, ReturnedAsIs]
  by_cases hrewrites : rewrites response.status = true
  · obtain ⟨hrequest, hnext, hstop⟩ := hfollow request.rewrite rfl
    simp only [hrewrites, if_true, true_or, forall_const, hrequest, rewrite_eq_iff]
    exact ⟨hnext, by rw [hstop, and_comm]⟩
  · by_cases hpreserves : preserves response.status = true
    · obtain ⟨hrequest, hnext, hstop⟩ := hfollow request rfl
      have hno : rewrites response.status = false := by simpa using hrewrites
      simp only [hno, hpreserves, Bool.false_eq_true, if_false, if_true, or_true, forall_const]
      exact ⟨hnext, by simpa [hrequest] using hstop⟩
    · simp [hrewrites, hpreserves]

theorem sendUnformatted_sent
    (h : sendUnformatted defaultScheme source request exchange = (request', sent, answer)) :
    sent.length ≤ 1 := by
  rw [sendUnformatted] at h
  split at h
  · cases h
    exact zero_le 1
  · split at h <;> cases h <;> simp

theorem sendRequest_none_iff (request : Request B) (exchanges : List Exchange) :
    ReturnsFirst defaultScheme source request exchanges
        (sendRequest defaultScheme source noRedirect.redirect request exchanges) ↔
      ∀ exchange ∈ exchanges.head?, ∀ formatted response,
        request.format defaultScheme = .ok formatted → exchange.answer = .response response →
          ReturnedAsIs formatted response := by
  cases exchanges with
  | nil => exact ⟨fun _ => nofun, fun _ => ⟨rfl, zero_le _, nofun⟩⟩
  | cons exchange exchanges =>
    have hhead : ∀ {P : Exchange → Prop}, (∀ e ∈ (exchange :: exchanges).head?, P e) ↔
        P exchange := by simp
    rw [hhead, sendRequest]
    split
    · -- There is no response.
      rename_i request' sent e hsent
      have hnone : ∀ {P : Request B → Response → Prop}, ∀ formatted response,
          request.format defaultScheme = .ok formatted →
            exchange.answer = .response response → P formatted response := by
        intro P formatted response hformat hanswer
        rw [sendUnformatted, hformat, hanswer] at hsent
        simp at hsent
      refine iff_of_true ⟨rfl, ?_, hhead.mpr hnone⟩ hnone
      change (sent ++ []).length ≤ 1
      rw [append_nil]
      exact sendUnformatted_sent hsent
    · rename_i request' sent response hsent
      obtain ⟨formatted, hformat, rfl, hanswer, rfl⟩ := sendUnformatted_ok hsent
      obtain ⟨hnext, hstop⟩ := redirect_none
        { formatted with body := source.read exchange.read formatted.body } response []
      have hone : ∀ {P : Request B → Response → Prop}, (∀ formatted response,
          request.format defaultScheme = .ok formatted →
            exchange.answer = .response response → P formatted response) ↔
          P formatted response := by
        intro P
        constructor
        · exact fun h => h formatted response hformat hanswer
        · intro h formatted' response' hformat' hanswer'
          rw [hformat] at hformat'
          rw [hanswer] at hanswer'
          cases hformat'
          cases hanswer'
          exact h
      rw [hone, redirectLoop]
      refine Iff.trans ?_ hstop
      generalize noRedirect.redirect _ response [] = run at hnext
      obtain ⟨request', previous, e | _ | _⟩ := run
      · exact iff_of_false (fun h => absurd (hone.mp (hhead.mp h.response)).1 nofun)
          fun h => absurd h.1 nofun
      · exact absurd rfl hnext
      · constructor
        · exact fun h => ⟨rfl, (hone.mp (hhead.mp h.response)).2⟩
        · exact fun h => ⟨rfl, le_refl 1, hhead.mpr (hone.mpr ⟨rfl, h.2⟩)⟩

/-! ## The settings -/

/-- What a setting says of an attempt. -/
def Strategy.Kept (self : Strategy) (defaultScheme : Scheme) (source : BodySource B)
    (request : Request B) (exchanges : List Exchange) : Prop :=
  let run := sendRequest defaultScheme source self.redirect request exchanges
  match self with
  | .limitTimes n =>
    Capped n 1 (sendRequest defaultScheme source unlimited request exchanges) run
  | .noRedirect => ReturnsFirst defaultScheme source request exchanges run

/-- The chain has fewer redirects than the limit, or none is allowed; without redirects, the first
response leaves the request as it is. -/
def Strategy.Respected (self : Strategy) (defaultScheme : Scheme) (source : BodySource B)
    (request : Request B) (exchanges : List Exchange) : Prop :=
  match self with
  | .limitTimes n =>
    n = 0 ∨ (sendRequest defaultScheme source unlimited request exchanges).followed < n
  | .noRedirect =>
    ∀ exchange ∈ exchanges.head?, ∀ formatted response,
      request.format defaultScheme = .ok formatted → exchange.answer = .response response →
        ReturnedAsIs formatted response

theorem redirect_kept_iff (strategy : Strategy) (defaultScheme : Scheme) (source : BodySource B)
    (request : Request B) (exchanges : List Exchange) :
    strategy.Kept defaultScheme source request exchanges ↔
      strategy.Respected defaultScheme source request exchanges := by
  cases strategy with
  | noRedirect => exact sendRequest_none_iff request exchanges
  | limitTimes n =>
    have hcapped := @sendRequest_capped B defaultScheme source n request exchanges
    simp only [Strategy.Kept, Strategy.Respected]
    generalize sendRequest defaultScheme source unlimited request exchanges = free at hcapped
    generalize sendRequest defaultScheme source _ request exchanges = run at hcapped
    constructor
    · intro h
      by_contra hnot
      obtain ⟨hn, hle⟩ := not_or.mp hnot
      have hfollowed := hcapped.followed (by omega)
      rcases lt_or_ge n free.followed with hlt | hge
      · have hexact := h.followed hlt
        omega
      · have hsame := h.below hge
        rw [hsame] at hfollowed
        omega
    · rintro (rfl | hlt)
      · exact hcapped
      · rw [hcapped.below (by omega)]
        exact .same hlt.le

def emptyBody : BodySource Unit := { read := fun _ body => body, reuse := some }

def getA : Request Unit :=
  { method := .get, version := .http1_1, headers := .new, body := ()
    uri := { scheme := some .http, authority := some { host := str "a", port := none }
             path := some (str "/"), query := none } }

def found (location : Bytes) : Exchange :=
  { read := 0, timeout := false
    answer := .response { status := 302
                          headers := (new.insert (str "Location") location).getD .new } }

def okay : Exchange :=
  { read := 0, timeout := false, answer := .response { status := 200, headers := .new } }

/-- One redirect is more than `Redirect::limited(1)` follows. -/
theorem redirect_not_kept :
    ¬∀ (strategy : Strategy) (request : Request Unit) (exchanges : List Exchange),
      strategy.Kept .http emptyBody request exchanges := by
  intro h
  have hkept := h (.limitTimes 1) getA [found (str "http://a/b"), okay]
  have hfree : (sendRequest .http emptyBody unlimited getA
      [found (str "http://a/b"), okay]).followed = 1 := by decide
  have hrun : (sendRequest .http emptyBody (limitTimes 1).redirect getA
      [found (str "http://a/b"), okay]).followed = 0 := by decide
  have hsame := congrArg Attempt.followed (hkept.below hfree.le)
  rw [hfree, hrun] at hsame
  cases hsame

/-! ## Bodies that can be used again -/

/-- What becomes of a body when it is read and used again. -/
inductive Used (source : BodySource B) (body : B) : B → Prop
  | fresh : Used source body body
  | read {used : B} (n : ℕ) : Used source body used → Used source body (source.read n used)
  | reuse {used again : B} : Used source body used → source.reuse used = some again →
      Used source body again

/-- A body that has been read in part can be made to give its content again. -/
def Reusable (source : BodySource B) (content : B → Bytes) (body : B) : Prop :=
  ∀ used, Used source body used → ∃ again, source.reuse used = some again ∧
    content again = content body

theorem slice_reusable (bytes : Bytes) :
    Reusable Slice.source Slice.content { bytes, position := 0 } := by
  have hbytes : ∀ used, Used Slice.source { bytes, position := 0 } used → used.bytes = bytes := by
    intro used h
    induction h with
    | fresh => rfl
    | read n _ ih => exact ih
    | reuse _ hreuse ih =>
      cases hreuse
      exact ih
  exact fun used h => ⟨_, rfl, congrArg (drop 0) (hbytes used h)⟩

/-! ## What a request is formatted to -/

theorem insertName_again (headers : Headers) (name : HeaderName) (value : HeaderValue) :
    (headers.insertName name value).insertName name value = headers.insertName name value := by
  have hentries : ((headers.insertName name value).insertName name value).entries =
      (headers.insertName name value).entries := by
    simp [insertName, removeName, filter_append]
  generalize (headers.insertName name value).insertName name value = again at hentries
  obtain ⟨entries, nodup⟩ := again
  simp only at hentries
  subst hentries
  rfl

/-- `insert`, where an invalid field is left out. -/
def put (headers : Headers) (name value : Bytes) : Headers :=
  (headers.insert name value).getD headers

theorem put_again (headers : Headers) (name value : Bytes) :
    put (put headers name value) name value = put headers name value := by
  cases hname : HeaderName.fromBytes name with
  | none => simp [put, Headers.insert, hname]
  | some name' =>
    cases hvalue : HeaderValue.fromBytes value with
    | none => simp [put, Headers.insert, hname, hvalue]
    | some value' => simp [put, Headers.insert, hname, hvalue, insertName_again]

theorem get_put {name' : Bytes} (value : Bytes)
    (hne : HeaderName.fromBytes name' ≠ HeaderName.fromBytes name) :
    (put headers name value).get name' = headers.get name' := by
  rw [put]
  cases hinsert : headers.insert name value with
  | none => rfl
  | some headers' => exact get_insert hinsert hne

theorem get_accept (headers : Headers) :
    ((put headers (str "Accept") (str "*/*")).get (str "Accept")).isSome := by
  obtain ⟨name, hname⟩ := isSome_iff_exists.mp
    (show (HeaderName.fromBytes (str "Accept")).isSome by decide)
  obtain ⟨value, hvalue⟩ := isSome_iff_exists.mp
    (show (HeaderValue.fromBytes (str "*/*")).isSome by decide)
  simp [put, Headers.insert, Headers.get, hname, hvalue, Headers.find_insertName]

def formatHeaders (headers : Headers) (hostValue : Bytes) : Headers :=
  put (if (headers.get (str "Accept")).isNone then put headers (str "Accept") (str "*/*")
    else headers) (str "Host") hostValue

theorem formatHeaders_again (headers : Headers) (hostValue : Bytes) :
    formatHeaders (formatHeaders headers hostValue) hostValue =
      formatHeaders headers hostValue := by
  have haccept : ((formatHeaders headers hostValue).get (str "Accept")).isNone = false := by
    rw [formatHeaders, get_put _ (by decide)]
    split_ifs with h
    · simp [get_accept headers]
    · simpa [← ne_none_iff_isSome] using h
  generalize hformatted : formatHeaders headers hostValue = formatted at haccept
  rw [formatHeaders, haccept, ← hformatted]
  exact put_again _ _ _

theorem format_eq_ok_iff :
    request.format defaultScheme = .ok formatted ↔
      ¬(request.version = .http1_0 ∧ request.method = .connect) ∧
        ∃ uri hostValue, formatUri defaultScheme request.uri = .ok uri ∧
          formatHostValue uri = .ok hostValue ∧
          formatted = { request with uri, headers := formatHeaders request.headers hostValue } := by
  rw [Request.format]
  by_cases hversion : request.version = .http1_0 ∧ request.method = .connect
  · rw [if_pos hversion]
    exact iff_of_false (fun h => by cases h) fun h => h.1 hversion
  · rw [if_neg hversion, and_iff_right hversion]
    constructor
    · intro h
      obtain ⟨uri, huri, h⟩ := of_bind_ok h
      obtain ⟨hostValue, hhost, h⟩ := of_bind_ok h
      cases h
      exact ⟨uri, hostValue, huri, hhost, rfl⟩
    · rintro ⟨uri, hostValue, huri, hhost, rfl⟩
      exact Except.bind_eq_ok_iff.mpr ⟨uri, huri, Except.bind_eq_ok_iff.mpr
        ⟨hostValue, hhost, rfl⟩⟩

theorem formatUri_again {uri uri' : Uri} (h : formatUri defaultScheme uri = .ok uri') :
    formatUri defaultScheme uri' = .ok uri' := by
  obtain ⟨host, hhost, huri⟩ := formatUri_ok h
  have hport := @portNumber_eq uri' _ _ (portNumber_lt uri (uri.scheme.getD defaultScheme))
    (by rw [huri]) (uri.scheme.getD defaultScheme)
  have hhost' : uri'.host = some host := by rw [huri]; rfl
  have hsame : formatUri defaultScheme uri' = formatUri defaultScheme uri := by
    rw [portNumber] at hport
    rw [formatUri, formatUri, hhost, hhost']
    simp only [huri, getD_some] at hport ⊢
    rw [hport, portNumber]
  rw [hsame, h]

theorem format_format (h : request.format defaultScheme = .ok formatted) :
    formatted.format defaultScheme = .ok formatted := by
  obtain ⟨hversion, uri, hostValue, huri, hhost, rfl⟩ := format_eq_ok_iff.mp h
  refine format_eq_ok_iff.mpr ⟨hversion, uri, hostValue, formatUri_again huri, hhost, ?_⟩
  simp only [formatHeaders_again]

/-! ## Attempts -/

def Request.head (self : Request B) : Request Unit :=
  { method := self.method, uri := self.uri, version := self.version, headers := self.headers
    body := () }

theorem format_head (h : request.format defaultScheme = .ok formatted) :
    request.head.format defaultScheme = .ok formatted.head := by
  obtain ⟨hversion, uri, hostValue, huri, hhost, rfl⟩ := format_eq_ok_iff.mp h
  exact format_eq_ok_iff.mpr ⟨hversion, uri, hostValue, huri, hhost, rfl⟩

def Request.Alike (defaultScheme : Scheme) (self other : Request B) : Prop :=
  other.head = self.head ∨ self.head.format defaultScheme = .ok other.head

theorem Request.Alike.trans {first second third : Request B}
    (h : first.Alike defaultScheme second) (h' : second.Alike defaultScheme third) :
    first.Alike defaultScheme third := by
  rcases h with h | h
  · rwa [Request.Alike, h] at h'
  · rcases h' with h' | h'
    · exact .inr (by rw [h', h])
    · rw [format_format h] at h'
      exact .inr (by rw [h, Except.ok.inj h'])

/-- What a retried attempt begins with: what is sent for it, and the octets of the body, are those
of the first. -/
structure Request.StartsAs (defaultScheme : Scheme) (content : B → Bytes)
    (retried first : Request B) : Prop where
  method : retried.method = first.method
  formatted : retried.head.format defaultScheme = first.head.format defaultScheme
  content : content retried.body = content first.body

theorem Request.Alike.startsAs {self : Request B} (h : first.Alike defaultScheme self)
    (hcontent : content self.body = content first.body) :
    self.StartsAs defaultScheme content first := by
  have hmethod {other : Request Unit} (hhead : self.head = other) : self.method = other.method :=
    hhead ▸ rfl
  rcases h with h | h
  · exact ⟨hmethod h, by rw [h], hcontent⟩
  · obtain ⟨-, uri, hostValue, -, -, hhead⟩ := format_eq_ok_iff.mp h
    exact ⟨hmethod hhead, (format_format h).trans h.symm, hcontent⟩

/-- A redirect response leaves the request as it is. -/
def Decision.Harmless (strategy : Strategy) (self : Decision B) : Prop :=
  (rewrites self.response.status = true → self.request.Unaffected) ∧
    (rewrites self.response.status = true ∨ preserves self.response.status = true →
      strategy.trigger (self.previous.length + 1) = .ok .nextLink →
        ∀ uri ∈ location self.request self.response, uri = self.request.uri)

theorem redirect_harmless {previous : List Uri}
    (h : Decision.Harmless strategy { request, response, previous }) :
    (strategy.redirect request response previous).1 = request := by
  obtain ⟨hunaffected, huri⟩ := h
  simp only at hunaffected huri
  have hfollow (hstatus : rewrites response.status = true ∨ preserves response.status = true) :
      (strategy.follow request response previous).1 = request := by
    specialize huri hstatus
    rw [follow]
    simp only [length_append, length_singleton]
    cases hlocation : location request response with
    | none => rfl
    | some uri =>
      cases htrigger : strategy.trigger (previous.length + 1) with
      | error e => rfl
      | ok trigger =>
        cases trigger with
        | stop => rfl
        | nextLink =>
          obtain rfl := huri htrigger uri hlocation
          simp
  rw [redirect]
  by_cases hrewrites : rewrites response.status = true
  · rw [if_pos hrewrites, (rewrite_eq_iff request).mpr (hunaffected hrewrites)]
    exact hfollow (.inl hrewrites)
  · rw [if_neg hrewrites]
    by_cases hpreserves : preserves response.status = true
    · rw [if_pos hpreserves]
      exact hfollow (.inr hpreserves)
    · rw [if_neg hpreserves]

/-- What an attempt may make of a request: it is formatted, and its body is read and used again. -/
structure Kept (defaultScheme : Scheme) (source : BodySource B) (body : B)
    (request request' : Request B) : Prop where
  alike : request.Alike defaultScheme request'
  used : Used source body request'.body

theorem sendUnformatted_kept (hused : Used source body request.body)
    (h : sendUnformatted defaultScheme source request exchange = (request', sent, answer)) :
    Kept defaultScheme source body request request' := by
  rw [sendUnformatted] at h
  cases hformat : request.format defaultScheme with
  | error e =>
    rw [hformat] at h
    cases h
    exact ⟨.inl rfl, hused⟩
  | ok formatted =>
    have hhead := format_head hformat
    obtain ⟨-, uri, hostValue, -, -, rfl⟩ := format_eq_ok_iff.mp hformat
    rw [hformat] at h
    cases hanswer : exchange.answer with
    | refused =>
      rw [hanswer] at h
      cases h
      exact ⟨.inr hhead, hused⟩
    | error | response response =>
      rw [hanswer] at h
      cases h
      exact ⟨.inr hhead, .read _ hused⟩

def LoopKeeps (defaultScheme : Scheme) (source : BodySource B) (strategy : Strategy) (body : B)
    (exchanges : List Exchange) : Prop :=
  ∀ (request : Request B) (previous : List Uri) (response : Response),
    Used source body request.body →
    (∀ d ∈ (redirectLoop defaultScheme source strategy.redirect exchanges request previous
      response).decisions, d.Harmless strategy) →
    Kept defaultScheme source body request
      (redirectLoop defaultScheme source strategy.redirect exchanges request previous
        response).request

theorem LoopKeeps.round (ih : ∀ exchange rest, exchanges = exchange :: rest →
      LoopKeeps defaultScheme source strategy body rest) :
    LoopKeeps defaultScheme source strategy body exchanges := by
  intro request previous response hused hharmless
  rw [redirectLoop] at hharmless ⊢
  have hfirst := redirect_harmless (hharmless _ (.head _))
  replace hharmless := fun d hd => hharmless d (.tail _ hd)
  generalize strategy.redirect request response previous = decided at hfirst hharmless
  obtain ⟨request', previous', answer⟩ := decided
  simp only at hfirst
  subst hfirst
  rcases answer with e | _ | _
  · exact ⟨.inl rfl, hused⟩
  · simp only at hharmless ⊢
    cases hreuse : source.reuse request'.body with
    | none => exact ⟨.inl rfl, hused⟩
    | some body' =>
      have hagain : Kept defaultScheme source body request' { request' with body := body' } :=
        ⟨.inl rfl, hused.reuse hreuse⟩
      rw [hreuse] at hharmless
      clear hreuse
      cases exchanges with
      | nil => exact hagain
      | cons exchange rest =>
        simp only at hharmless ⊢
        split
        · exact hagain
        · rename_i htimeout
          rw [if_neg htimeout] at hharmless
          split
          · rename_i hsent
            have hkept := sendUnformatted_kept hagain.used hsent
            exact ⟨hagain.alike.trans hkept.alike, hkept.used⟩
          · rename_i hsent
            have hkept := sendUnformatted_kept hagain.used hsent
            rw [hsent] at hharmless
            have hrest := ih exchange rest rfl _ _ _ hkept.used hharmless
            exact ⟨(hagain.alike.trans hkept.alike).trans hrest.alike, hrest.used⟩
  · exact ⟨.inl rfl, hused⟩

theorem redirectLoop_kept (exchanges : List Exchange) :
    LoopKeeps defaultScheme source strategy body exchanges := by
  induction exchanges with
  | nil => exact .round nofun
  | cons exchange exchanges ih =>
    refine .round fun exchange' rest h => ?_
    obtain ⟨-, rfl⟩ := cons.inj h
    exact ih

theorem sendRequest_kept (hused : Used source body request.body)
    (hharmless : ∀ d ∈ (sendRequest defaultScheme source strategy.redirect request
      exchanges).decisions, d.Harmless strategy) :
    Kept defaultScheme source body request
      (sendRequest defaultScheme source strategy.redirect request exchanges).request := by
  cases exchanges with
  | nil => exact ⟨.inl rfl, hused⟩
  | cons exchange exchanges =>
    rw [sendRequest] at hharmless ⊢
    split
    · rename_i hsent
      exact sendUnformatted_kept hused hsent
    · rename_i hsent
      have hkept := sendUnformatted_kept hused hsent
      rw [hsent] at hharmless
      have hrest := redirectLoop_kept exchanges _ _ _ hkept.used hharmless
      exact ⟨hkept.alike.trans hrest.alike, hrest.used⟩

/-! ## Retries -/

variable {config : ClientConfig}

theorem tries_cases (retries : ℕ) (start : Request B) (exchanges : List Exchange) :
    let attempt :=
      sendRequest config.defaultScheme source config.redirect.redirect start exchanges
    config.tries source retries start exchanges = [{ start, attempt }] ∨
    ∃ retries' body, retries = retries' + 1 ∧ source.reuse attempt.request.body = some body ∧
      config.tries source retries start exchanges = { start, attempt } ::
        config.tries source retries' { attempt.request with body } attempt.exchanges := by
  intro attempt
  cases retries with
  | zero => exact .inl (by rw [ClientConfig.tries])
  | succ retries =>
    rw [ClientConfig.tries]
    simp only
    rcases hresult : attempt.result with _ | e | response
    · exact .inl rfl
    · cases hreuse : source.reuse attempt.request.body with
      | none => exact .inl rfl
      | some body => exact .inr ⟨retries, body, rfl, rfl, rfl⟩
    · exact .inl rfl

theorem tries_length (retries : ℕ) :
    ∀ (start : Request B) (exchanges : List Exchange),
      (config.tries source retries start exchanges).length ≤ retries + 1 := by
  induction retries with
  | zero =>
    intro start exchanges
    rcases tries_cases 0 start exchanges with h | ⟨retries', body, h, -⟩
    · rw [h]
      rfl
    · exact absurd h (succ_ne_zero retries').symm
  | succ retries ih =>
    intro start exchanges
    rcases tries_cases (retries + 1) start exchanges with h | ⟨retries', body, heq, -, h⟩
    · rw [h]
      exact le_add_left 1 (retries + 1)
    · obtain rfl := succ.inj heq
      rw [h, length_cons]
      exact succ_le_succ (ih _ _)

theorem tries_alike (hreusable : Reusable source content first.body) (retries : ℕ) :
    ∀ {start : Request B} {exchanges : List Exchange}, first.Alike config.defaultScheme start →
      Used source first.body start.body → content start.body = content first.body →
      (∀ t ∈ (config.tries source retries start exchanges).dropLast,
        ∀ d ∈ t.attempt.decisions, d.Harmless config.redirect) →
      ∀ t ∈ config.tries source retries start exchanges,
        t.start.StartsAs config.defaultScheme content first := by
  induction retries with
  | zero =>
    intro start exchanges halike _ hcontent _ t ht
    rcases @tries_cases B source config 0 start exchanges with h | ⟨retries', body, h, -⟩
    · rw [h, mem_singleton] at ht
      rw [ht]
      exact halike.startsAs hcontent
    · exact absurd h (succ_ne_zero retries').symm
  | succ retries ih =>
    intro start exchanges halike hused hcontent hharmless t ht
    rcases @tries_cases B source config (retries + 1) start exchanges with
      h | ⟨retries', body, heq, hreuse, h⟩
    · rw [h, mem_singleton] at ht
      rw [ht]
      exact halike.startsAs hcontent
    · obtain rfl := succ.inj heq
      rw [h] at ht hharmless
      rcases mem_cons.mp ht with rfl | ht
      · exact halike.startsAs hcontent
      · have hne := ne_nil_of_mem ht
        rw [dropLast_cons_of_ne_nil hne] at hharmless
        have hkept := @sendRequest_kept B _ source _ _ _ first.body hused
          (hharmless _ (.head _))
        obtain ⟨again, hagain, hcontent'⟩ := hreusable _ hkept.used
        rw [hreuse] at hagain
        cases hagain
        have halike' : first.Alike config.defaultScheme
            { (sendRequest config.defaultScheme source config.redirect.redirect start
                exchanges).request with body } := halike.trans hkept.alike
        exact ih halike' (hkept.used.reuse hreuse) hcontent'
          (fun t ht => hharmless t (.tail _ ht)) t ht

/-- A request with a body that can be used again is tried once more than there are retries at
most, and as long as no redirect changes it in an attempt that is repeated, each attempt begins
as the first. -/
theorem tries_start_alike (config : ClientConfig) (source : BodySource B) {content : B → Bytes}
    {request : Request B} (hreusable : Reusable source content request.body)
    (exchanges : List Exchange) :
    let tries := config.tries source config.retry request exchanges
    tries.length ≤ config.retry + 1 ∧
      ((∀ t ∈ tries.dropLast, ∀ d ∈ t.attempt.decisions, d.Harmless config.redirect) →
        ∀ t ∈ tries, t.start.StartsAs config.defaultScheme content request) :=
  ⟨tries_length _ _ _, tries_alike hreusable _ (.inl rfl) .fresh rfl⟩

def postA : Request Slice :=
  { method := .post, version := .http1_1, headers := .new
    body := { bytes := str "ab", position := 0 }
    uri := { scheme := some .http, authority := some { host := str "a", port := none }
             path := some (str "/"), query := none } }

def retryOnce : ClientConfig := { defaultScheme := .http, redirect := .limitTimes 10, retry := 1 }

def refuse : Exchange := { read := 0, answer := .refused, timeout := false }

/-- The whole body is taken, and the answer is a redirect to the resource itself. -/
def turned : Exchange :=
  { read := 2, timeout := false
    answer := .response { status := 307
                          headers := (new.insert (str "Location") (str "/")).getD .new } }

theorem tries_start_alike_turned :
    let tries := retryOnce.tries Slice.source 1 postA [turned, refuse, okay]
    tries.length = 2 ∧
      ∀ t ∈ tries, t.start.StartsAs .http Slice.content postA := by
  have hall := @tries_start_alike _ retryOnce Slice.source _ postA (slice_reusable (str "ab"))
    [turned, refuse, okay]
  refine ⟨by decide, hall.2 fun t ht d hd => ?_⟩
  have hsame : ((retryOnce.tries Slice.source 1 postA [turned, refuse, okay]).dropLast.all
      fun t => t.attempt.decisions.all fun d => d.response.status = 307 ∧
        location d.request d.response = some d.request.uri) = true := by decide
  obtain ⟨hstatus, huri⟩ :=
    of_decide_eq_true (all_eq_true.mp (all_eq_true.mp hsame t ht) d hd)
  refine ⟨fun hrewrites => ?_, fun _ _ uri hmem => ?_⟩
  · rw [hstatus] at hrewrites
    cases hrewrites
  · exact some.inj (hmem.symm.trans huri)

/-- A POST is redirected, and the connection for the redirect fails: it is tried again as a GET
of the other resource. -/
theorem retry_not_alike :
    ¬∀ exchanges : List Exchange,
      let tries := retryOnce.tries Slice.source retryOnce.retry postA exchanges
      tries.length ≤ retryOnce.retry + 1 ∧
        ∀ t ∈ tries, t.start.StartsAs .http Slice.content postA := by
  intro h
  have hall := (h [found (str "http://a/b"), refuse]).2
  have hmethods : (retryOnce.tries Slice.source retryOnce.retry postA
      [found (str "http://a/b"), refuse]).map (fun t => t.start.method) = [.post, .get] := by decide
  obtain ⟨t, ht, hget⟩ := mem_map.mp
    (show Method.get ∈ (retryOnce.tries Slice.source retryOnce.retry postA
      [found (str "http://a/b"), refuse]).map (fun t => t.start.method) by
        rw [hmethods]
        decide)
  exact absurd ((hall t ht).method.symm.trans hget) (by decide)

end YlongHttp.Client
