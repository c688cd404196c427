import YlongHttp.Model.Http1.ResponseDecoder
import YlongHttp.Model.HttpBody

/-! # The body of an HTTP/1 response (`async_impl/http_body.rs`, `normalizer.rs`)

The octets read ahead with the head are delivered first, then those of the connection. The timers
of `HttpBody` are left out. -/

namespace YlongHttp.Http1

open Client (Method HttpClientError)

/-! ## Its length -/

inductive BodyLength where
  | chunk
  | length (len : ℕ)
  | empty
  | untilClose
deriving DecidableEq

variable (status : ℕ)

def isInformational : Bool := 100 ≤ status && status < 200

def isSuccessful : Bool := 200 ≤ status && status < 300

structure BodyLengthParser where
  reqMethod : Method
  part : ResponsePart

def BodyLengthParser.parse (self : BodyLengthParser) : Except HttpClientError BodyLength :=
  if isInformational self.part.status || self.part.status = 204 || self.part.status = 304 then
    .ok .empty
  else if self.reqMethod = .connect && isSuccessful self.part.status || self.reqMethod = .head then
    .ok .empty
  else
    match self.part.headers.get (str "Transfer-Encoding") with
    | some value =>
      if self.part.version = .http1_0 then
        .error ⟨.request, .msg "Illegal Transfer-Encoding in HTTP/1.0"⟩
      else if str "chunked" <:+: value.toString then .ok .chunk
      else .ok .untilClose
    | none =>
      match self.part.headers.get (str "Content-Length") with
      | some value =>
        match parseUnsigned (2 ^ 64) value.toString with
        | some 0 => .ok .empty
        | some len => .ok (.length len)
        | none => .error ⟨.request, .msg "Invalid response content-length"⟩
      | none => .ok .untilClose

/-! ## The connection -/

/-- What a poll of the connection meets. A delay or an error of the speed limits is one of its
own. -/
inductive Arrival where
  | pending
  | octets (more : ℕ)
  | error (kind : IoErrorKind)

/-- The other side of the connection: what it still sends before it closes, and when. Where the
arrivals end, nothing has come. -/
structure Socket where
  incoming : Bytes
  arrivals : List Arrival
  closed : Bool

def Socket.new (incoming : Bytes) (arrivals : List Arrival) : Socket :=
  { incoming, arrivals, closed := false }

/-- `Http1Conn`, whose stream is the socket. -/
structure Http1Conn where

namespace Http1Conn

/-- `poll_read` into a buffer with room. No octets are the end of the stream. -/
def pollRead (_ : Http1Conn) (room : ℕ) (socket : Socket) :
    Poll (Except IoErrorKind Bytes) × Socket :=
  match socket.arrivals with
  | [] => (.pending, socket)
  | .pending :: arrivals => (.pending, { socket with arrivals })
  | .error kind :: arrivals => (.ready (.error kind), { socket with arrivals })
  | .octets more :: arrivals =>
    let size := min room (more + 1)
    (.ready (.ok (socket.incoming.take size)),
      { incoming := socket.incoming.drop size, arrivals, closed := socket.incoming.isEmpty })

/-- HTTP1 can close the "stream" after reading the data. -/
def isStreamClosable (_ : Http1Conn) : Bool := true

end Http1Conn

/-! ## The octets read ahead -/

structure PreRead where
  bytes : Bytes
  pos : ℕ

namespace PreRead

def new (bytes : Bytes) : Option PreRead := if bytes.isEmpty then none else some { bytes, pos := 0 }

def readInto (self : PreRead) (room : ℕ) : Bytes × PreRead :=
  let available := self.bytes.length - self.pos
  let len := min available room
  if len = 0 then ([], self)
  else ((self.bytes.drop self.pos).take len, { self with pos := self.pos + len })

end PreRead

/-- What a call of `data` leaves: its result, the octets at the front of the buffer, and whether
it shut the connection down. -/
structure Polled (σ : Type) where
  result : Poll (Except BodyError ℕ)
  body : σ
  octets : Bytes
  socket : Socket
  shutdown : Bool

/-! ## Bodies that the end of the connection ends -/

structure UntilClose where
  pre : Option PreRead
  io : Option Http1Conn

variable (intercept : Interceptor)

namespace UntilClose

def new (pre : Bytes) (io : Http1Conn) : UntilClose := { pre := PreRead.new pre, io := some io }

/-- `poll_read_io`, with the connection taken out of the body and `front` in the buffer. -/
def pollReadIo (self : UntilClose) (io : Http1Conn) (front : Bytes) (room : ℕ) (socket : Socket) :
    Polled UntilClose :=
  let (result, socket) := io.pollRead room socket
  match result with
  | .ready (.ok filled) =>
    if filled.length = 0 then
      if io.isStreamClosable then
        { result := .ready (.ok 0), body := self, octets := front, socket, shutdown := false }
      else
        { result := .ready (.ok front.length), body := self, octets := front, socket
          shutdown := true }
    else
      match intercept filled with
      | .error () =>
        { result := .ready (.error .interceptor), body := self, octets := front ++ filled, socket
          shutdown := false }
      | .ok () =>
        { result := .ready (.ok (front.length + filled.length)), body := { self with io := some io }
          octets := front ++ filled, socket, shutdown := false }
  | .pending =>
    if front.length ≠ 0 then
      { result := .ready (.ok front.length), body := { self with io := some io }, octets := front
        socket, shutdown := false }
    else
      { result := .pending, body := { self with io := some io }, octets := front, socket
        shutdown := false }
  | .ready (.error e) =>
    { result := .ready (.error (.bodyTransferIo e)), body := self, octets := front, socket
      shutdown := true }

/-- What the caller has once the octets read ahead are in the buffer. -/
def readIo (self : UntilClose) (front : Bytes) (capacity : ℕ) (socket : Socket) :
    Polled UntilClose :=
  match self.io with
  | some io =>
    if front.length < capacity then
      pollReadIo intercept { self with io := none } io front (capacity - front.length) socket
    else
      { result := .ready (.ok front.length), body := self, octets := front, socket
        shutdown := false }
  | none =>
    { result := .ready (.ok front.length), body := self, octets := front, socket
      shutdown := false }

def data (intercept : Interceptor) (self : UntilClose) (capacity : ℕ) (socket : Socket) :
    Polled UntilClose :=
  if capacity = 0 then
    { result := .ready (.ok 0), body := self, octets := [], socket, shutdown := false }
  else
    match self.pre with
    | none => readIo intercept self [] capacity socket
    | some pre =>
      let (front, pre) := pre.readInto capacity
      if front.length = 0 then readIo intercept { self with pre := none } [] capacity socket
      else readIo intercept { self with pre := some pre } front capacity socket

end UntilClose

/-! ## Bodies of a known length -/

structure Text where
  decoder : TextBodyDecoder
  pre : Option PreRead
  io : Option Http1Conn

namespace Text

def new (len : ℕ) (pre : Bytes) (io : Http1Conn) : Text :=
  { decoder := { left := len }, pre := PreRead.new pre, io := some io }

/-- `poll_read_io`, with the connection taken out of the body and `front` in the buffer. -/
def pollReadIo (self : Text) (io : Http1Conn) (front : Bytes) (room : ℕ) (socket : Socket) :
    Polled Text :=
  let (result, socket) := io.pollRead room socket
  match result with
  | .ready (.ok filled) =>
    if filled.length = 0 then
      let (text, decoder) := self.decoder.decode []
      if io.isStreamClosable && text.isComplete then
        { result := .ready (.ok 0), body := { self with decoder }, octets := front, socket
          shutdown := false }
      else
        { result := .ready (.error (.bodyDecode "Response body incomplete"))
          body := { self with decoder }, octets := front, socket, shutdown := true }
    else
      let (text, decoder) := self.decoder.decode filled
      let octets := front ++ filled
      let read := front.length + filled.length
      match intercept filled with
      | .error () =>
        { result := .ready (.error .interceptor), body := { self with decoder }, octets, socket
          shutdown := false }
      | .ok () =>
        if text.isComplete && !text.rem.isEmpty then
          { result := .ready (.error (.bodyDecode "Not eof")), body := { self with decoder }
            octets, socket, shutdown := true }
        else if text.isComplete && io.isStreamClosable then
          { result := .ready (.ok read), body := { self with decoder }, octets, socket
            shutdown := false }
        else
          { result := .ready (.ok read), body := { self with decoder, io := some io }, octets
            socket, shutdown := false }
  | .pending =>
    if front.length ≠ 0 then
      { result := .ready (.ok front.length), body := { self with io := some io }, octets := front
        socket, shutdown := false }
    else
      { result := .pending, body := { self with io := some io }, octets := front, socket
        shutdown := false }
  | .ready (.error e) =>
    { result := .ready (.error (.bodyDecodeIo e)), body := self, octets := front, socket
      shutdown := true }

/-- What the caller has once the octets read ahead are in the buffer. -/
def readIo (self : Text) (front : Bytes) (capacity : ℕ) (socket : Socket) : Polled Text :=
  match self.io with
  | some io =>
    if front.length < capacity then
      pollReadIo intercept { self with io := none } io front (capacity - front.length) socket
    else
      { result := .ready (.ok front.length), body := self, octets := front, socket
        shutdown := false }
  | none =>
    { result := .ready (.ok front.length), body := self, octets := front, socket
      shutdown := false }

/-- `read_remaining`: the answer where the body ends in the octets read ahead, and the body with
its decoder behind them. -/
def readRemaining (self : Text) (front : Bytes) (socket : Socket) : Option (Polled Text) × Text :=
  let (text, decoder) := self.decoder.decode front
  if text.isComplete && !text.rem.isEmpty then
    let body := { self with decoder, io := none }
    (some { result := .ready (.error (.bodyDecode "Not eof")), body, octets := front, socket
            shutdown := self.io.isSome }, body)
  else if text.isComplete then
    -- Where the stream is not closed yet, the fin is waited for.
    let body := { self with decoder, io := self.io.filter fun io => !io.isStreamClosable }
    (some { result := .ready (.ok front.length), body, octets := front, socket
            shutdown := false }, body)
  else (none, { self with decoder })

def data (intercept : Interceptor) (self : Text) (capacity : ℕ) (socket : Socket) : Polled Text :=
  if capacity = 0 then
    { result := .ready (.ok 0), body := self, octets := [], socket, shutdown := false }
  else
    match self.pre with
    | none => readIo intercept self [] capacity socket
    | some pre =>
      let (front, pre) := pre.readInto capacity
      if front.length = 0 then readIo intercept { self with pre := none } [] capacity socket
      else
        match readRemaining { self with pre := some pre } front socket with
        | (some polled, _) => polled
        | (none, self) => readIo intercept self front capacity socket

end Text

/-! ## A caller -/

/-- What the caller of `data` has, and how that ended: with `Ok(0)`, or with an error. -/
structure Received (σ : Type) where
  body : σ
  socket : Socket
  delivered : Bytes
  ended : Option (Except BodyError Unit)

variable {σ : Type}

/-- Nothing has been read. -/
def Received.start (body : σ) (socket : Socket) : Received σ :=
  { body, socket, delivered := [], ended := none }

def Polled.received (polled : Polled σ) (delivered : Bytes) : Received σ :=
  let received (delivered : Bytes) (ended : Option (Except BodyError Unit)) : Received σ :=
    { body := polled.body, socket := polled.socket, delivered, ended }
  match polled.result with
  | .pending => received delivered none
  | .ready (.error e) => received delivered (some (.error e))
  | .ready (.ok n) =>
    if n = 0 then received delivered (some (.ok ()))
    else received (delivered ++ polled.octets.take n) none

/-- Calls with buffers of the capacities, until the first `Ok(0)` or error. -/
def Received.readAll (data : σ → ℕ → Socket → Polled σ) : List ℕ → Received σ → Received σ
  | [], received => received
  | capacity :: capacities, received =>
    match received.ended with
    | some _ => received
    | none =>
      readAll data capacities
        ((data received.body capacity received.socket).received received.delivered)

end YlongHttp.Http1
