import Mathlib.Data.List.Chain
import YlongHttp.Verification.Requests.Format

/-! # The requests that a client sends -/

namespace YlongHttp.Client

variable {B : Type} {defaultScheme : Scheme} {reuse : B → B}
variable {request request' : Request B} {sendings : List (Sending B)} {k : ℕ} {s : Sending B}

/-- What is left of a request when it is formatted, again and again as long as there is no
connection, and sent. -/
inductive Resent (defaultScheme : Scheme) (reuse : B → B) : Request B → Request B → Prop
  | sent {request request' : Request B} : request.format defaultScheme = .ok request' →
      Resent defaultScheme reuse request request'
  | refused {request request' request'' : Request B} :
      request.format defaultScheme = .ok request' →
      Resent defaultScheme reuse { request' with body := reuse request'.body } request'' →
      Resent defaultScheme reuse request request''

theorem Resent.uri (h : Resent defaultScheme reuse request request') :
    formatUri defaultScheme request.uri = .ok request'.uri := by
  induction h with
  | sent hfmt => exact (Request.format_ok hfmt).1
  | refused hfmt _ ih =>
    have huri := (Request.format_ok hfmt).1
    rw [huri, formatUri_formatted (formatted_of_formatUri huri) ih]

theorem Resent.get (h : Resent defaultScheme reuse request request') {name : Bytes}
    (haccept : HeaderName.fromBytes name ≠ HeaderName.fromBytes (str "Accept"))
    (hhost : HeaderName.fromBytes name ≠ HeaderName.fromBytes (str "Host")) :
    request'.headers.get name = request.headers.get name := by
  induction h with
  | sent hfmt => exact (Request.format_ok hfmt).2.2 name haccept hhost
  | refused hfmt _ ih => exact ih.trans ((Request.format_ok hfmt).2.2 name haccept hhost)

def Sending.after (self : Sending B) (strategy : Strategy) : Request B :=
  match self.event.answer with
  | .response response => (strategy.redirect self.request response self.previous).1
  | _ => self.request

def Sending.Hop (config : ClientConfig) (reuse : B → B) (self next : Sending B) : Prop :=
  let after := self.after config.redirect
  Resent config.defaultScheme reuse { after with body := reuse after.body } next.request

variable {config : ClientConfig}

/-- The first request is the one that was given, and each of the others comes from the one
before. -/
structure Sends (config : ClientConfig) (reuse : B → B) (request : Request B)
    (sendings : List (Sending B)) : Prop where
  head : ∀ s ∈ sendings.head?, Resent config.defaultScheme reuse request s.request
  chain : sendings.IsChain (Sending.Hop config reuse)

theorem Sends.nil {request : Request B} : Sends config reuse request [] where
  head s hs := absurd hs (by simp)
  chain := List.IsChain.nil

theorem Sends.cons {request : Request B} {s : Sending B} {sendings : List (Sending B)}
    (hfmt : request.format config.defaultScheme = .ok s.request)
    (h : Sends config reuse { s.after config.redirect with
      body := reuse (s.after config.redirect).body } sendings) :
    Sends config reuse request (s :: sendings) := by
  refine ⟨?_, List.isChain_cons.mpr ⟨h.head, h.chain⟩⟩
  rintro s' hs'
  obtain rfl : s = s' := Option.some.inj hs'
  exact .sent hfmt

theorem Sends.refused (hfmt : request.format config.defaultScheme = .ok request')
    (h : Sends config reuse { request' with body := reuse request'.body } sendings) :
    Sends config reuse request sendings :=
  ⟨fun s hs => .refused hfmt (h.head s hs), h.chain⟩

theorem send_sends (retries : ℕ) (previous : List Uri) (request : Request B)
    (events : List Event) :
    Sends config reuse request (config.send reuse retries previous request events) := by
  induction events generalizing retries previous request with
  | nil => exact .nil
  | cons event events ih =>
    rw [ClientConfig.send]
    cases hfmt : request.format config.defaultScheme with
    | error e => exact .nil
    | ok formatted =>
      have hretry : ∀ request' : Request B,
          Sends config reuse { request' with body := reuse request'.body }
            (if 0 < retries ∧ event.retryReuse then
              config.send reuse (retries - 1) []
                { request' with body := reuse request'.body } events
            else []) := by
        intro request'
        split
        · exact ih _ _ _
        · exact .nil
      dsimp only
      cases hanswer : event.answer with
      | refused => exact .refused hfmt (hretry formatted)
      | error =>
        refine .cons hfmt ?_
        simp only [Sending.after, hanswer]
        exact hretry formatted
      | response response =>
        refine .cons hfmt ?_
        simp only [Sending.after, hanswer]
        rcases config.redirect.redirect formatted response previous with
          ⟨request', previous', result⟩
        cases result with
        | error e => exact hretry request'
        | ok trigger =>
          cases trigger with
          | stop => exact .nil
          | nextLink =>
            dsimp only
            split
            · exact ih _ _ _
            · exact hretry request'

theorem request_sends (request : Request B) (events : List Event) :
    Sends config reuse request (config.request reuse request events) :=
  send_sends _ _ _ _

theorem Sends.hop (h : Sends config reuse request sendings) {s' : Sending B}
    (hs : sendings[k]? = some s) (hs' : sendings[k + 1]? = some s') : s.Hop config reuse s' := by
  obtain ⟨hk, rfl⟩ := List.getElem?_eq_some_iff.mp hs
  obtain ⟨hk', rfl⟩ := List.getElem?_eq_some_iff.mp hs'
  exact List.isChain_iff_getElem.mp h.chain k hk'

theorem Sends.first (h : Sends config reuse request sendings) (hs : sendings[0]? = some s) :
    Resent config.defaultScheme reuse request s.request :=
  h.head s (by rwa [← List.head?_eq_getElem?] at hs)

theorem Sends.formatted (h : Sends config reuse request sendings) (hs : sendings[k]? = some s) :
    Formatted s.request.uri := by
  cases k with
  | zero => exact formatted_of_formatUri (h.first hs).uri
  | succ k =>
    have hlt : k < sendings.length := Nat.lt_of_succ_lt (List.getElem?_eq_some_iff.mp hs).1
    have hbefore : sendings[k]? = some sendings[k] := List.getElem?_eq_getElem hlt
    exact formatted_of_formatUri (h.hop hbefore hs).uri

end YlongHttp.Client
