import YlongHttp.Model.TextIo

/-! # Bodies without chunks (`async_impl/http_body.rs`, `body/text.rs`)

`Text` and `UntilClose` over the reader of a stream: nothing has been read ahead then, so that
`pre` is none. The timers of `HttpBody` are left out. -/

namespace YlongHttp

inductive BodyError where
  | bodyDecode (text : String)
  | bodyDecodeIo (kind : IoErrorKind)
  | bodyTransferIo (kind : IoErrorKind)
  | interceptor
deriving DecidableEq

/-- `Interceptors::intercept_output`. -/
abbrev Interceptor := Bytes → Except Unit Unit

variable {φ μ : Type}

/-- What a call of `data` leaves: its result, the octets in the buffer, and whether it shut the
connection down. -/
structure BodyPolled (σ μ : Type) where
  result : Poll (Except BodyError ℕ)
  body : σ
  octets : Bytes
  shutdown : Bool
  answers : List (Poll (Option μ))

/-! ## Bodies of a known length -/

structure TextBodyDecoder where
  left : ℕ

/-- The text decoded from the buffer, with what is left behind it. -/
structure DecodedText where
  isComplete : Bool
  rem : Bytes

def TextBodyDecoder.decode (self : TextBodyDecoder) (buf : Bytes) : DecodedText × TextBodyDecoder :=
  if self.left = 0 then ({ isComplete := true, rem := buf }, self)
  else
    let size := min self.left buf.length
    let left := self.left - size
    ({ isComplete := left = 0, rem := buf.drop size }, { left })

structure Text (φ : Type) where
  decoder : TextBodyDecoder
  io : Option (TextIo φ)

variable (reader : BodyReader φ μ)

namespace Text

def new (len : ℕ) (io : TextIo φ) : Text φ := { decoder := { left := len }, io := some io }

/-- `poll_read_io`, with the reader taken out of the body. -/
def pollReadIo (intercept : Interceptor) (speed : SpeedController) (self : Text φ) (io : TextIo φ)
    (capacity : ℕ) (answers : List (Poll (Option μ))) : BodyPolled (Text φ) μ :=
  let polled := io.pollRead reader speed (.new capacity) answers
  let octets := polled.buf.filled
  let answers := polled.answers
  match polled.result with
  | .ready (.ok ()) =>
    if octets.length = 0 then
      let (text, decoder) := self.decoder.decode []
      if polled.io.isStreamClosable && text.isComplete then
        { result := .ready (.ok 0), body := { self with decoder }, octets, shutdown := false
          answers }
      else
        { result := .ready (.error (.bodyDecode "Response body incomplete"))
          body := { self with decoder }, octets, shutdown := true, answers }
    else
      let (text, decoder) := self.decoder.decode octets
      match intercept octets with
      | .error () =>
        { result := .ready (.error .interceptor), body := { self with decoder }, octets
          shutdown := false, answers }
      | .ok () =>
        if text.isComplete && !text.rem.isEmpty then
          { result := .ready (.error (.bodyDecode "Not eof")), body := { self with decoder }
            octets, shutdown := true, answers }
        else if text.isComplete && polled.io.isStreamClosable then
          { result := .ready (.ok octets.length), body := { self with decoder }, octets
            shutdown := false, answers }
        else
          { result := .ready (.ok octets.length), body := { decoder, io := some polled.io }
            octets, shutdown := false, answers }
  | .pending =>
    { result := .pending, body := { self with io := some polled.io }, octets, shutdown := false
      answers }
  | .ready (.error e) =>
    { result := .ready (.error (.bodyDecodeIo e)), body := self, octets, shutdown := true, answers }

def data (reader : BodyReader φ μ) (intercept : Interceptor) (speed : SpeedController)
    (self : Text φ) (capacity : ℕ) (answers : List (Poll (Option μ))) : BodyPolled (Text φ) μ :=
  match self.io with
  | none => { result := .ready (.ok 0), body := self, octets := [], shutdown := false, answers }
  | some io =>
    if capacity = 0 then
      { result := .ready (.ok 0), body := self, octets := [], shutdown := false, answers }
    else pollReadIo reader intercept speed { self with io := none } io capacity answers

end Text

/-! ## Bodies that the end of the stream ends -/

structure UntilClose (φ : Type) where
  io : Option (TextIo φ)

namespace UntilClose

def new (io : TextIo φ) : UntilClose φ := { io := some io }

def pollReadIo (intercept : Interceptor) (speed : SpeedController) (io : TextIo φ) (capacity : ℕ)
    (answers : List (Poll (Option μ))) : BodyPolled (UntilClose φ) μ :=
  let polled := io.pollRead reader speed (.new capacity) answers
  let octets := polled.buf.filled
  let answers := polled.answers
  match polled.result with
  | .ready (.ok ()) =>
    if octets.length = 0 then
      { result := .ready (.ok 0), body := { io := none }, octets
        shutdown := !polled.io.isStreamClosable, answers }
    else
      match intercept octets with
      | .error () =>
        { result := .ready (.error .interceptor), body := { io := none }, octets
          shutdown := false, answers }
      | .ok () =>
        { result := .ready (.ok octets.length), body := { io := some polled.io }, octets
          shutdown := false, answers }
  | .pending =>
    { result := .pending, body := { io := some polled.io }, octets, shutdown := false, answers }
  | .ready (.error e) =>
    { result := .ready (.error (.bodyTransferIo e)), body := { io := none }, octets
      shutdown := true, answers }

def data (reader : BodyReader φ μ) (intercept : Interceptor) (speed : SpeedController)
    (self : UntilClose φ) (capacity : ℕ) (answers : List (Poll (Option μ))) :
    BodyPolled (UntilClose φ) μ :=
  match self.io with
  | none => { result := .ready (.ok 0), body := self, octets := [], shutdown := false, answers }
  | some io =>
    if capacity = 0 then
      { result := .ready (.ok 0), body := self, octets := [], shutdown := false, answers }
    else pollReadIo reader intercept speed io capacity answers

end UntilClose

end YlongHttp
