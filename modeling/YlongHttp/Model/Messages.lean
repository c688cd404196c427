import YlongHttp.Model.ChunkBody
import YlongHttp.Model.Redirect

/-! # The bodies of HTTP/1 requests (`async_impl/request.rs`, `async_impl/conn/http1.rs`) -/

namespace YlongHttp.Client

inductive Body where
  | empty
  | slice (data : Bytes) (position : ℕ)
  | stream
  | multipart (boundary : Bytes) (totalBytes : Option ℕ)

namespace Body

/-- `Body::slice`. -/
def ofSlice (data : Bytes) : Body := .slice data 0

def isEmpty : Body → Bool
  | .empty => true
  | .slice data position => data.length = position
  | _ => false

/-- `Body::reuse`, where it succeeds. -/
def reuse : Body → Body
  | .slice data _ => .slice data 0
  | body => body

/-- What the reads of a body yield. Those of a stream and of a multipart are given from outside. -/
def reader (self : Body) (reads : List Bytes) : Reader :=
  match self with
  | .empty => []
  | .slice data position => [data.drop position]
  | .stream => reads
  | .multipart _ _ => reads

/-- The headers that `RequestBuilder::body` sets; `none` is a value that is not valid. -/
def headers (self : Body) (headers : Headers) : Option Headers :=
  match self with
  | .slice data _ => headers.insert (str "Content-Length") (decimal data.length)
  | .multipart boundary totalBytes => do
    let headers ← headers.insert (str "Content-Type")
      (str "multipart/form-data; boundary=" ++ boundary)
    match totalBytes with
    | some size => headers.insert (str "Content-Length") (decimal size)
    | none => return headers
  | _ => some headers

end Body

/-- The `content_length` of a message. -/
def contentLength (headers : Headers) : Option ℕ :=
  (headers.get (str "Content-Length")).bind fun value => parseUnsigned (2 ^ 64) value.toString

/-- The `transfer_encoding` of a message. -/
def transferEncoding (headers : Headers) : Bool :=
  match headers.get (str "Transfer-Encoding") with
  | some value => str "chunked" <:+: value.toString
  | none => false

/-- `encode_various_body`: the octets that are written after the headers. The length that the
headers give makes no difference. -/
def encodeVariousBody (fuel : ℕ) (request : Request Body) (reads : List Bytes) : Option Bytes :=
  if request.body.isEmpty then some []
  else
    let reader := request.body.reader reads
    if transferEncoding request.headers then
      (ChunkBody.fromAsyncReader reader).written fuel 0
    else textWritten fuel reader 0

end YlongHttp.Client
