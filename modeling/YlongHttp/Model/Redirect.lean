import YlongHttp.Model.HeaderMap
import YlongHttp.Model.Uri

/-! # Requests that are redirected and repeated (`normalizer.rs`, `redirect.rs`, `async_impl/client.rs`)

What the servers and the readers of the bodies do is given from outside, one `Event` for each time
that a request is sent. There is no interceptor. -/

namespace YlongHttp.Client

inductive Method where
  | get | head | post | put | delete | connect | options | trace
deriving DecidableEq

inductive Version where
  | http1_0 | http1_1 | http2 | http3
deriving DecidableEq

/-- The kinds of `HttpClientError` that are used here. -/
inductive ErrorKind where
  | build | redirect | request
deriving DecidableEq

inductive Cause where
  | msg (text : String)
  | uri (error : InvalidUri)
deriving DecidableEq

structure HttpClientError where
  kind : ErrorKind
  cause : Cause
deriving DecidableEq

/-- A request with its body. -/
structure Request (B : Type) where
  method : Method
  uri : Uri
  version : Version
  headers : Headers
  body : B

structure Response where
  status : ℕ
  headers : Headers

/-! ## Formatting -/

/-- `UriFormatter::format`. The default scheme is that of the features the client is built with:
HTTPS where `__tls` is one of them. -/
def formatUri (defaultScheme : Scheme) (uri : Uri) : Except HttpClientError Uri :=
  match uri.host with
  | none => .error ⟨.request, .msg "No host in url"⟩
  | some host =>
    let scheme := uri.scheme.getD defaultScheme
    let port := (uri.port.bind asU16).getD scheme.defaultPort
    let built := do
      let authority ← Authority.fromBytes (host ++ ':'.toUInt8 :: decimal port)
      Uri.validityCheck
        { scheme := some scheme, authority := some authority,
          path := some (uri.path.getD (str "/")), query := uri.query }
    match built with
    | .ok uri => .ok uri
    | .error _ => .error ⟨.request, .msg "Normalize url failed"⟩

def formatHostValue (uri : Uri) : Except HttpClientError Bytes :=
  match uri.authority with
  | none => .error ⟨.request, .msg "Request Uri lack host"⟩
  | some authority =>
    match authority.port with
    | none => .ok authority.host
    | some port =>
      match asU16 port with
      | none => .error ⟨.request, .uri .invalidPort⟩
      | some n =>
        if n = (uri.scheme.getD .http).defaultPort then .ok authority.host
        else .ok authority.toStr

def Request.format {B : Type} (self : Request B) (defaultScheme : Scheme) :
    Except HttpClientError (Request B) := do
  if self.version = .http1_0 ∧ self.method = .connect then
    throw ⟨.request, .msg "Unknown METHOD in HTTP/1.0"⟩
  let uri ← formatUri defaultScheme self.uri
  let hostValue ← formatHostValue uri
  let headers := if (self.headers.get (str "Accept")).isNone then
      (self.headers.insert (str "Accept") (str "*/*")).getD self.headers
    else self.headers
  return { self with uri, headers := (headers.insert (str "Host") hostValue).getD headers }

/-! ## Redirects -/

def updatedHeaders : List Bytes :=
  [str "transfer-encoding", str "content-encoding", str "content-type", str "content-length",
    str "content-language", str "content-location", str "digest", str "last-modified"]

def sensitiveHeaders : List Bytes :=
  [str "authorization", str "cookie", str "cookie2", str "proxy-authorization",
    str "www-authenticate"]

inductive Trigger where
  | nextLink | stop
deriving DecidableEq

/-- `Strategy`, the setting of a `Redirect`. -/
inductive Strategy where
  | limitTimes (max : ℕ)
  | noRedirect

variable (self : Strategy)

/-- `Strategy::trigger`, for as many previous URIs. -/
def Strategy.trigger (previous : ℕ) : Except HttpClientError Trigger :=
  match self with
  | .limitTimes max =>
    if previous < max then .ok .nextLink else .error ⟨.build, .msg "Over redirect max limit"⟩
  | .noRedirect => .ok .stop

variable (status : ℕ)

/-- The status codes for which the method is changed: 301, 302 and 303. -/
def rewrites : Bool := status = 301 || status = 302 || status = 303

/-- The status codes for which the method is kept: 307 and 308. -/
def preserves : Bool := status = 307 || status = 308

/-- The URI of the `Location` header, completed from that of the request. -/
def location {B : Type} (request : Request B) (response : Response) : Option Uri :=
  (response.headers.get (str "Location")).bind fun value =>
    match Uri.fromBytes value.toString with
    | .error _ => none
    | .ok location =>
      if location.scheme.isNone ∨ location.authority.isNone then
        some { location with scheme := request.uri.scheme, authority := request.uri.authority }
      else some location

def Request.rewrite {B : Type} (self : Request B) : Request B :=
  { self with
    headers := updatedHeaders.foldl Headers.remove self.headers
    method := if self.method = .get ∨ self.method = .head then self.method else .get }

/-- `Redirect::redirect` from where the URI of the request is pushed. -/
def Strategy.follow {B : Type} (request : Request B) (response : Response) (previous : List Uri) :
    Request B × List Uri × Except HttpClientError Trigger :=
  let previous := previous ++ [request.uri]
  match location request response with
  | none => (request, previous, .error ⟨.redirect, .msg "Illegal location header in response"⟩)
  | some location =>
    match self.trigger previous.length with
    | .error e => (request, previous, .error e)
    | .ok .stop => (request, previous, .ok .stop)
    | .ok .nextLink =>
      let headers := match previous.getLast? with
        | some last =>
          if location.authority ≠ last.authority then
            sensitiveHeaders.foldl Headers.remove request.headers
          else request.headers
        | none => request.headers
      ({ request with headers, uri := location }, previous, .ok .nextLink)

/-- `Redirect::redirect`. The request may be changed in every case. -/
def Strategy.redirect {B : Type} (request : Request B) (response : Response) (previous : List Uri) :
    Request B × List Uri × Except HttpClientError Trigger :=
  if rewrites response.status then self.follow request.rewrite response previous
  else if preserves response.status then self.follow request response previous
  else (request, previous, .ok .stop)

/-! ## The client -/

inductive Answer where
  /-- There is no connection, so that nothing is sent. -/
  | refused
  /-- An error while the request is sent, or no response in time. -/
  | error
  | response (response : Response)

/-- What happens when a request is sent. -/
structure Event where
  /-- The parts in which the reader of the body yields it. -/
  reads : List Bytes
  answer : Answer
  /-- Whether the body can be used again for a redirect. -/
  redirectReuse : Bool
  /-- Whether the body can be used again for a retry. -/
  retryReuse : Bool

/-- The settings of a `Client`. -/
structure ClientConfig where
  defaultScheme : Scheme
  redirect : Strategy
  retry : ℕ

/-- A request as it is sent. -/
structure Sending (B : Type) where
  request : Request B
  /-- The `RedirectInfo` of that time. -/
  previous : List Uri
  event : Event

/-- `Client::request`, from where the request is formatted: the requests that are sent, in order.
`reuse` is what `Body::reuse` does where it succeeds. -/
def ClientConfig.send {B : Type} (self : ClientConfig) (reuse : B → B) (retries : ℕ)
    (previous : List Uri) (request : Request B) : List Event → List (Sending B)
  | [] => []
  | event :: events =>
    match request.format self.defaultScheme with
    -- A request that cannot be formatted is not changed, and a retry meets the same error.
    | .error _ => []
    | .ok request =>
      let retry (request : Request B) :=
        if 0 < retries ∧ event.retryReuse then
          self.send reuse (retries - 1) [] { request with body := reuse request.body } events
        else []
      match event.answer with
      | .refused => retry request
      | .error => { request, previous, event } :: retry request
      | .response response =>
        { request, previous, event } ::
          match self.redirect.redirect request response previous with
          | (_, _, .ok .stop) => []
          | (request, previous, .ok .nextLink) =>
            if event.redirectReuse then
              self.send reuse retries previous { request with body := reuse request.body } events
            else retry request
          | (request, _, .error _) => retry request

def ClientConfig.request {B : Type} (self : ClientConfig) (reuse : B → B) (request : Request B)
    (events : List Event) : List (Sending B) :=
  self.send reuse self.retry [] request events

end YlongHttp.Client
