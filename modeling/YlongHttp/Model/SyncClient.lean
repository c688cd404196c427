import YlongHttp.Model.Redirect

/-! # The blocking client (`sync_impl/client.rs`, `sync_impl/conn/http1.rs`)

The body of a request is a reader that is used up: what one message has read of it the next ones
do not get. The octets of the request line and the headers are those of `RequestRefEncoder`, which
fills the buffer it is given; they are an argument here. -/

namespace YlongHttp.Client.Sync

def tempBufSize : ℕ := 16 * 1024

/-- What the connection and the reader of the body do while one message is sent. -/
structure Attempt where
  connects : Bool
  /-- The results of `write_all`, one after another. Where they end, it succeeds. -/
  writes : List Bool
  /-- The results of `Body::data`, one after another: an error, or so many octets besides the
  first. Where they end, the reader gives what there is room for. -/
  reads : List (Option ℕ)
  /-- The response, if there is one that can be read. -/
  response : Option Response

/-! ## One message -/

structure Conn where
  written : Bytes
  writes : List Bool

/-- `write_all`. After an error nothing more is written. -/
def Conn.writeAll (self : Conn) (octets : Bytes) : Option Conn :=
  match self.writes with
  | [] => some { self with written := self.written ++ octets }
  | true :: writes => some { written := self.written ++ octets, writes }
  | false :: _ => none

/-- `Body::data`, with what is left of the body and of the results of the reader. -/
def data (body : Bytes) (reads : List (Option ℕ)) (room : ℕ) :
    Option (Bytes × Bytes × List (Option ℕ)) :=
  match reads with
  | [] => some (body.take room, body.drop room, [])
  | some n :: reads => some (body.take (min (n + 1) room), body.drop (min (n + 1) room), reads)
  | none :: _ => none

/-- A full buffer is written. -/
def flush (conn : Conn) (buf : Bytes) : Option (Conn × Bytes) :=
  if buf.length = tempBufSize then (conn.writeAll buf).map fun conn => (conn, [])
  else some (conn, buf)

/-- The loop over the request line and the headers. -/
def encodePart : ℕ → Conn → Bytes → Bytes → Option (Conn × Bytes)
  | 0, conn, buf, _ => some (conn, buf)
  | fuel + 1, conn, buf, part =>
    match flush conn buf with
    | none => none
    | some (conn, buf) =>
      let size := min part.length (tempBufSize - buf.length)
      if size = 0 then some (conn, buf)
      else encodePart fuel conn (buf ++ part.take size) (part.drop size)

/-- The loop over the body, with what it leaves of the body. -/
def encodeBody : ℕ → Conn → Bytes → List (Option ℕ) → Bytes → Option (Conn × Bytes) × Bytes
  | 0, _, _, _, body => (none, body)
  | fuel + 1, conn, buf, reads, body =>
    if buf.length < tempBufSize then
      match data body reads (tempBufSize - buf.length) with
      | none => (none, body)
      | some (octets, body, reads) =>
        match flush conn (buf ++ octets) with
        | none => (none, body)
        | some (conn, buf) =>
          if octets = [] then (some (conn, buf), body) else encodeBody fuel conn buf reads body
    else
      match flush conn buf with
      | none => (none, body)
      | some (conn, buf) => encodeBody fuel conn buf reads body

/-- What is written of the message at the end. -/
def Conn.finish (conn : Conn) (buf : Bytes) : Option Bytes :=
  if buf.length ≠ 0 then (conn.writeAll buf).map Conn.written else some conn.written

/-- `conn::request` up to the response: the message, if all of it is written, and what is left of
the body. -/
def write (attempt : Attempt) (part body : Bytes) : Option Bytes × Bytes :=
  if attempt.connects then
    match encodePart (part.length + 2) { written := [], writes := attempt.writes } [] part with
    | none => (none, body)
    | some (conn, buf) =>
      match encodeBody (body.length + 2) conn buf attempt.reads body with
      | (none, body) => (none, body)
      | (some (conn, buf), body) => (conn.finish buf, body)
  else (none, body)

/-! ## The client -/

/-- A message the client begins to send. -/
structure Sending where
  request : Request Bytes
  attempt : Attempt
  /-- All octets of it, if all of it is written. -/
  written : Option Bytes

/-- `retry_send_request`, `send_request_retryable` and `redirect_request`. `part` is what the
request line and the headers are encoded as. -/
def send (config : ClientConfig) (part : Request Bytes → Bytes) (retries : ℕ) (previous : List Uri)
    (request : Request Bytes) : List Attempt → List Sending
  | [] => []
  | attempt :: attempts =>
    let (written, body) := write attempt (part request) request.body
    let sending : Sending := { request, attempt, written }
    let request := { request with body }
    let retry (request : Request Bytes) :=
      if retries = 0 then [] else send config part (retries - 1) [] request attempts
    match written, attempt.response with
    | some _, some response =>
      sending ::
        match config.redirect.redirect request response previous with
        | (_, _, .ok .stop) => []
        | (request, previous, .ok .nextLink) =>
          match request.format config.defaultScheme with
          | .ok request => send config part retries previous request attempts
          | .error _ => retry request
        | (request, _, .error _) => retry request
    | _, _ => sending :: retry request

def request (config : ClientConfig) (part : Request Bytes → Bytes) (request : Request Bytes)
    (attempts : List Attempt) : List Sending :=
  match request.format config.defaultScheme with
  | .error _ => []
  | .ok request => send config part config.retry [] request attempts

end YlongHttp.Client.Sync
