import YlongHttp.Model.Redirect

/-! # The attempts of a request (`async_impl/client.rs`)

All attempts and redirects change one request. What the servers do is given from outside, one
`Exchange` for each call of `send_unformatted_request`; where they end, an answer is waited for.
There is no interceptor. -/

namespace YlongHttp.Client

/-- The body of a request. -/
structure BodySource (B : Type) where
  /-- The body when so many octets more have been read. -/
  read : ℕ → B → B
  /-- `Body::reuse`. -/
  reuse : B → Option B

structure Slice where
  bytes : Bytes
  position : ℕ

namespace Slice

def source : BodySource Slice where
  read n body := { body with position := min (body.position + n) body.bytes.length }
  reuse body := some { body with position := 0 }

/-- What is still to be read. -/
def content (body : Slice) : Bytes := body.bytes.drop body.position

end Slice

/-- What happens in a call of `send_unformatted_request`. -/
structure Exchange where
  /-- How much of the body is read, if the request is sent. -/
  read : ℕ
  answer : Answer
  /-- Whether the total timeout strikes before, when the body is used again. -/
  timeout : Bool

inductive SendError where
  | client (error : HttpClientError)
  /-- No connection, or an error of the connection. -/
  | connection
  /-- The body cannot be used again for a redirect. -/
  | reuse
  | timeout

/-- A call of `Redirect::redirect`: the request and the response that it sees. -/
structure Decision (B : Type) where
  request : Request B
  response : Response
  previous : List Uri

/-- What is left by a call of `send_request`, or by a part of it. -/
structure Attempt (B : Type) where
  /-- None while an answer is waited for. -/
  result : Option (Except SendError Response)
  request : Request B
  /-- The requests that are sent. -/
  sent : List (Request B)
  decisions : List (Decision B)
  /-- How often `Trigger::NextLink` is followed. -/
  followed : ℕ
  exchanges : List Exchange

variable {B : Type}

namespace Attempt

/-- Where a part of an attempt ends. -/
def ends (result : Option (Except SendError Response)) (request : Request B)
    (exchanges : List Exchange) : Attempt B :=
  { result, request, sent := [], decisions := [], followed := 0, exchanges }

variable (self : Attempt B)

/-- What stands before a part of an attempt: requests that are sent, and a decision. -/
def behind (sent : List (Request B)) : Attempt B :=
  { self with sent := sent ++ self.sent }

def decided (decision : Decision B) : Attempt B :=
  { self with decisions := decision :: self.decisions }

def follows : Attempt B := { self with followed := self.followed + 1 }

end Attempt

variable (defaultScheme : Scheme)

/-- `send_unformatted_request`: the request, whether it is sent, and the response. -/
def sendUnformatted (source : BodySource B) (request : Request B) (exchange : Exchange) :
    Request B × List (Request B) × Except SendError Response :=
  match request.format defaultScheme with
  | .error e => (request, [], .error (.client e))
  | .ok request =>
    match exchange.answer with
    | .refused => (request, [], .error .connection)
    | .error =>
      ({ request with body := source.read exchange.read request.body }, [request],
        .error .connection)
    | .response response =>
      ({ request with body := source.read exchange.read request.body }, [request], .ok response)

/-- `Redirect::redirect` of one strategy. -/
abbrev Redirecting (B : Type) :=
  Request B → Response → List Uri → Request B × List Uri × Except HttpClientError Trigger

/-- `Client::redirect`. -/
def redirectLoop (defaultScheme : Scheme) (source : BodySource B) (redirect : Redirecting B)
    (exchanges : List Exchange) (request : Request B) (previous : List Uri)
    (response : Response) : Attempt B :=
  Attempt.decided
    (match redirect request response previous with
    | (request, _, .error e) => .ends (some (.error (.client e))) request exchanges
    | (request, _, .ok .stop) => .ends (some (.ok response)) request exchanges
    | (request, previous, .ok .nextLink) =>
      Attempt.follows
        (match source.reuse request.body, exchanges with
        | none, exchanges => .ends (some (.error .reuse)) request exchanges
        | some body, [] => .ends none { request with body } []
        | some body, exchange :: exchanges =>
          if exchange.timeout then .ends (some (.error .timeout)) { request with body } exchanges
          else
            match sendUnformatted defaultScheme source { request with body } exchange with
            | (request, sent, .error e) =>
              (Attempt.ends (some (.error e)) request exchanges).behind sent
            | (request, sent, .ok response) =>
              (redirectLoop defaultScheme source redirect exchanges request previous
                response).behind sent))
    { request, response, previous }

def sendRequest (source : BodySource B) (redirect : Redirecting B) (request : Request B) :
    List Exchange → Attempt B
  | [] => .ends none request []
  | exchange :: exchanges =>
    match sendUnformatted defaultScheme source request exchange with
    | (request, sent, .error e) => (Attempt.ends (some (.error e)) request exchanges).behind sent
    | (request, sent, .ok response) =>
      (redirectLoop defaultScheme source redirect exchanges request [] response).behind sent

/-- An attempt, with the request that it begins with. -/
structure Try (B : Type) where
  start : Request B
  attempt : Attempt B

/-- `Client::request`: the attempts, in order. -/
def ClientConfig.tries (self : ClientConfig) (source : BodySource B) :
    ℕ → Request B → List Exchange → List (Try B)
  | retries, start, exchanges =>
    let attempt := sendRequest self.defaultScheme source self.redirect.redirect start exchanges
    { start, attempt } ::
      match retries with
      | 0 => []
      | retries + 1 =>
        match attempt.result with
        | some (.error _) =>
          match source.reuse attempt.request.body with
          | some body => self.tries source retries { attempt.request with body } attempt.exchanges
          | none => []
        | _ => []

end YlongHttp.Client
