import YlongHttp.Library.WriteLoop
import YlongHttp.Model.Http1.ResponseDecoder

/-! # The head of a request (`h1/request/encoder.rs`)

The two encoders have one state machine. They differ in the parts that write the URI and the
header lines. -/

namespace YlongHttp

open Client (Method Version)

def Client.Method.asStr : Method → Bytes
  | .get => str "GET"
  | .head => str "HEAD"
  | .post => str "POST"
  | .put => str "PUT"
  | .delete => str "DELETE"
  | .options => str "OPTIONS"
  | .trace => str "TRACE"
  | .connect => str "CONNECT"

def Client.Version.asStr : Version → Bytes
  | .http1_0 => str "HTTP/1.0"
  | .http1_1 => str "HTTP/1.1"
  | .http2 => str "HTTP/2.0"
  | .http3 => str "HTTP/3.0"

def Scheme.asStr : Scheme → Bytes
  | .http => str "http"
  | .https => str "https"

namespace Uri

def pathAndQuery (self : Uri) : Option Bytes :=
  let builder := self.path.getD [] ++ (self.query.map ('?'.toUInt8 :: ·)).getD []
  if builder = [] then none else some builder

def toString (self : Uri) : Bytes :=
  (self.scheme.map (·.asStr ++ str "://")).getD [] ++ self.host.getD [] ++
    (self.port.map (':'.toUInt8 :: ·)).getD [] ++ self.path.getD [] ++
      (self.query.map ('?'.toUInt8 :: ·)).getD []

end Uri

def HeaderValue.toVec (self : HeaderValue) : Bytes := (self.inner.intersperse (str ", ")).flatten

namespace Http1

structure RequestPart where
  uri : Uri
  method : Method
  version : Version
  headers : Headers

/-- `TokenStatus`, with the octets that are written in place of their number, and the part after
it. -/
structure Written (σ : Type) where
  complete : Bool
  out : Bytes
  next : σ

def Written.map {σ τ : Type} (f : σ → τ) (self : Written σ) : Written τ :=
  { complete := self.complete, out := self.out, next := f self.next }

abbrev TokenResult (σ : Type) := Except (Fault HttpError) (Written σ)

/-- Goes on after a token that is complete. -/
def Written.andThen {σ : Type} (self : Written σ) (later : σ → TokenResult σ) : TokenResult σ :=
  if self.complete then
    (later self.next).map fun w => { w with out := self.out ++ w.out }
  else .ok self

/-- `WriteData::write`, with the index after it. -/
def writeData (src : Bytes) (srcIdx room : ℕ) : TokenResult ℕ :=
  if src.length < srcIdx then .error .panic
  else if src.length - srcIdx ≤ room then
    .ok { complete := true, out := src.drop srcIdx, next := srcIdx }
  else .ok { complete := false, out := (src.drop srcIdx).take room, next := srcIdx + room }

/-! ## The parts of both encoders -/

/-- `EncodeMethod` and `EncodeMethodRef`. -/
structure EncodeMethod where
  inner : Method
  srcIdx : ℕ

def EncodeMethod.encode (self : EncodeMethod) (room : ℕ) : TokenResult EncodeMethod :=
  (writeData self.inner.asStr self.srcIdx room).map (·.map fun srcIdx => { self with srcIdx })

/-- `EncodeVersion` and `EncodeVersionRef`. -/
structure EncodeVersion where
  inner : Version
  srcIdx : ℕ

def EncodeVersion.encode (self : EncodeVersion) (room : ℕ) : TokenResult EncodeVersion :=
  (writeData self.inner.asStr self.srcIdx room).map (·.map fun srcIdx => { self with srcIdx })

structure EncodeSp where
  srcIdx : ℕ

def EncodeSp.new : EncodeSp := ⟨0⟩

def EncodeSp.encode (self : EncodeSp) (room : ℕ) : TokenResult EncodeSp :=
  (writeData (str " ") self.srcIdx room).map (·.map EncodeSp.mk)

structure EncodeCrlf where
  srcIdx : ℕ

def EncodeCrlf.new : EncodeCrlf := ⟨0⟩

def EncodeCrlf.encode (self : EncodeCrlf) (room : ℕ) : TokenResult EncodeCrlf :=
  (writeData (str "\r\n") self.srcIdx room).map (·.map EncodeCrlf.mk)

inductive HeaderStatus where
  | name | colon | value
  | crlf (crlf : EncodeCrlf)
  | emptyHeader

/-! ## The URI -/

structure EncodeUri where
  absolute : Bytes
  origin : Bytes
  srcIdx : ℕ
  isAbsolute : Bool

namespace EncodeUri

def new (uri : Uri) (isAbsolute : Bool) : EncodeUri where
  absolute := uri.toString
  origin := uri.pathAndQuery.getD (str "/")
  srcIdx := 0
  isAbsolute := isAbsolute

def encode (self : EncodeUri) (room : ℕ) : TokenResult EncodeUri :=
  let uri := if self.isAbsolute then self.absolute else self.origin
  (writeData uri self.srcIdx room).map (·.map fun srcIdx => { self with srcIdx })

end EncodeUri

structure EncodeUriRef where
  inner : Uri
  absolute : Option Bytes
  origin : Option Bytes
  srcIdx : ℕ
  isAbsolute : Bool

namespace EncodeUriRef

def new (uri : Uri) (isAbsolute : Bool) : EncodeUriRef where
  inner := uri
  absolute := none
  origin := none
  srcIdx := 0
  isAbsolute := isAbsolute

def encode (self : EncodeUriRef) (room : ℕ) : TokenResult EncodeUriRef :=
  if self.isAbsolute then
    let absolute := self.absolute.getD self.inner.toString
    (writeData absolute self.srcIdx room).map
      (·.map fun srcIdx => { self with absolute := some absolute, srcIdx })
  else
    let origin := self.origin.getD (self.inner.pathAndQuery.getD (str "/"))
    (writeData origin self.srcIdx room).map
      (·.map fun srcIdx => { self with origin := some origin, srcIdx })

end EncodeUriRef

/-! ## The header lines -/

/-- A token that is not the last of its header line. -/
def token {σ : Type} (src : Bytes) (srcIdx room : ℕ) (stay : ℕ → σ) (complete : σ) :
    TokenResult σ :=
  (writeData src srcIdx room).map fun w =>
    { complete := false, out := w.out, next := if w.complete then complete else stay w.next }

/-- The end of a header line, after which there is another line or none. -/
def endLine {σ : Type} (crlf : EncodeCrlf) (room : ℕ) (inner : List (HeaderName × HeaderValue))
    (stay : EncodeCrlf → σ) (line : HeaderName → HeaderValue → List (HeaderName × HeaderValue) → σ)
    (last : σ) : TokenResult σ :=
  (crlf.encode room).map fun w =>
    if w.complete then
      match inner with
      | (name, value) :: inner => { complete := false, out := w.out, next := line name value inner }
      | [] => { complete := true, out := w.out, next := last }
    else { complete := false, out := w.out, next := stay w.next }

structure EncodeHeader where
  inner : List (HeaderName × HeaderValue)
  status : Option HeaderStatus
  name : HeaderName
  value : Bytes
  nameIdx : ℕ
  colonIdx : ℕ
  valueIdx : ℕ

variable (name : HeaderName)

namespace EncodeHeader

/-- `HeaderName::from_bytes(b" ")`. -/
def space : HeaderName := { name := str " ", normal := rfl }

/-- Before a header line. -/
def line (value : HeaderValue) (inner : List (HeaderName × HeaderValue)) :
    EncodeHeader where
  inner := inner
  status := some .name
  name := name
  value := value.toVec
  nameIdx := 0
  colonIdx := 0
  valueIdx := 0

def new (headers : Headers) : EncodeHeader :=
  match headers.entries with
  | (name, value) :: inner => line name value inner
  | [] =>
    { inner := [], status := some .emptyHeader, name := space, value := [], nameIdx := 0
      colonIdx := 0, valueIdx := 0 }

def encodeName (self : EncodeHeader) (room : ℕ) : TokenResult EncodeHeader :=
  token self.name.name self.nameIdx room
    (fun nameIdx => { self with status := some .name, nameIdx }) { self with status := some .colon }

def encodeColon (self : EncodeHeader) (room : ℕ) : TokenResult EncodeHeader :=
  token (str ":") self.colonIdx room (fun colonIdx => { self with status := some .colon, colonIdx })
    { self with status := some .value }

def encodeValue (self : EncodeHeader) (room : ℕ) : TokenResult EncodeHeader :=
  token self.value self.valueIdx room
    (fun valueIdx => { self with status := some .value, valueIdx })
    { self with status := some (.crlf .new) }

def encodeCrlf (self : EncodeHeader) (room : ℕ) (crlf : EncodeCrlf) : TokenResult EncodeHeader :=
  endLine crlf room self.inner (fun crlf => { self with status := some (.crlf crlf) }) line self

def encode (self : EncodeHeader) (room : ℕ) : TokenResult EncodeHeader :=
  -- `self.status.take().unwrap()`
  let taken := { self with status := none }
  match self.status with
  | none => .error .panic
  | some .name => taken.encodeName room
  | some .colon => taken.encodeColon room
  | some .value => taken.encodeValue room
  | some (.crlf crlf) => taken.encodeCrlf room crlf
  | some .emptyHeader => .ok { complete := true, out := [], next := taken }

end EncodeHeader

structure EncodeHeaderRef where
  inner : List (HeaderName × HeaderValue)
  status : Option HeaderStatus
  name : Option HeaderName
  valueIter : Option (List Bytes)
  valuePart : Option Bytes
  nameIdx : ℕ
  colonIdx : ℕ
  valueIdx : ℕ
  valueSeparatorIdx : ℕ
  valuePartsWritten : ℕ
  valueNeedsSeparator : Bool

namespace EncodeHeaderRef

/-- Before a header line. -/
def line (value : HeaderValue) (inner : List (HeaderName × HeaderValue)) :
    EncodeHeaderRef where
  inner := inner
  status := some .name
  name := some name
  valueIter := some value.inner
  valuePart := none
  nameIdx := 0
  colonIdx := 0
  valueIdx := 0
  valueSeparatorIdx := 0
  valuePartsWritten := 0
  valueNeedsSeparator := false

def new (headers : Headers) : EncodeHeaderRef :=
  match headers.entries with
  | (name, value) :: inner => line name value inner
  | [] =>
    { inner := [], status := some .emptyHeader, name := none, valueIter := none
      valuePart := none, nameIdx := 0, colonIdx := 0, valueIdx := 0, valueSeparatorIdx := 0
      valuePartsWritten := 0, valueNeedsSeparator := false }

variable (self : EncodeHeaderRef)

def encodeName (room : ℕ) : TokenResult EncodeHeaderRef :=
  match self.name with
  | none => .error .panic
  | some name =>
    token name.name self.nameIdx room (fun nameIdx => { self with status := some .name, nameIdx })
      { self with status := some .colon }

def encodeColon (room : ℕ) : TokenResult EncodeHeaderRef :=
  token (str ":") self.colonIdx room (fun colonIdx => { self with status := some .colon, colonIdx })
    { self with status := some .value }

/-- The next part of the value, where none is being written; `none` is the end of the value. -/
def nextPart : Option EncodeHeaderRef :=
  match self.valuePart, self.valueIter with
  | some _, _ => some self
  | none, some (part :: rest) =>
    some { self with
      valueIter := some rest
      valuePart := some part
      valueIdx := 0
      valueSeparatorIdx := 0
      valueNeedsSeparator := self.valuePartsWritten ≠ 0 }
  | none, _ => none

/-- The separator before a part, where there is one. -/
def writeSeparator (room : ℕ) : TokenResult EncodeHeaderRef :=
  if self.valueNeedsSeparator then
    (writeData (str ", ") self.valueSeparatorIdx room).map fun w =>
      if w.complete then
        { complete := true, out := w.out
          next := { self with valueNeedsSeparator := false, valueSeparatorIdx := 0 } }
      else
        { complete := false, out := w.out
          next := { self with status := some .value, valueSeparatorIdx := w.next } }
  else .ok { complete := true, out := [], next := self }

def writePart (room : ℕ) : TokenResult EncodeHeaderRef :=
  match self.valuePart with
  | none => .error .panic
  | some value =>
    (writeData value self.valueIdx room).map fun w =>
      if w.complete then
        { complete := true, out := w.out
          next := { self with
            valuePart := none, valueIdx := 0, valuePartsWritten := self.valuePartsWritten + 1 } }
      else
        { complete := false, out := w.out
          next := { self with status := some .value, valueIdx := w.next } }

/-- The loop of `encode_value`. The fuel is for the parts of the value; a want of it is answered
like a panic. -/
def encodeValue : ℕ → EncodeHeaderRef → ℕ → TokenResult EncodeHeaderRef
  | 0, _, _ => .error .panic
  | fuel + 1, self, room =>
    match self.nextPart with
    | none =>
      .ok { complete := false, out := [], next := { self with status := some (.crlf .new) } }
    | some self =>
      (self.writeSeparator room).bind fun separator => separator.andThen fun self =>
        (self.writePart (room - separator.out.length)).bind fun part => part.andThen fun self =>
          encodeValue fuel self (room - separator.out.length - part.out.length)

def encodeCrlf (room : ℕ) (crlf : EncodeCrlf) : TokenResult EncodeHeaderRef :=
  endLine crlf room self.inner (fun crlf => { self with status := some (.crlf crlf) }) line self

def encode (self : EncodeHeaderRef) (room : ℕ) : TokenResult EncodeHeaderRef :=
  let taken := { self with status := none }
  match self.status with
  | none => .error .panic
  | some .name => taken.encodeName room
  | some .colon => taken.encodeColon room
  | some .value => taken.encodeValue ((self.valueIter.getD []).length + 2) room
  | some (.crlf crlf) => taken.encodeCrlf room crlf
  | some .emptyHeader => .ok { complete := true, out := [], next := taken }

end EncodeHeaderRef

/-! ## The encoders -/

inductive EncodeState where
  | method | methodSp | uri | uriSp | version | versionCrlf | header | headerCrlf | encodeFinished

/-- The fields of both encoders, over the parts for the URI and for the headers. -/
structure Encoder (υ η : Type) where
  encodeStatus : EncodeState
  methodPart : EncodeMethod
  methodSpPart : EncodeSp
  uriPart : υ
  uriSpPart : EncodeSp
  versionPart : EncodeVersion
  versionCrlfPart : EncodeCrlf
  headersPart : η
  headersCrlfPart : EncodeCrlf
  isAbsoluteUri : Bool

/-- What the encoders do with the parts in which they differ. -/
structure DifferentParts (υ η : Type) where
  setAbsolute : Bool → υ → υ
  uriEncode : υ → ℕ → TokenResult υ
  headersEncode : η → ℕ → TokenResult η

namespace Encoder

variable {υ η : Type}

def new (part : RequestPart) (uriPart : υ) (headersPart : η) : Encoder υ η where
  encodeStatus := .method
  methodPart := ⟨part.method, 0⟩
  methodSpPart := .new
  uriPart := uriPart
  uriSpPart := .new
  versionPart := ⟨part.version, 0⟩
  versionCrlfPart := .new
  headersPart := headersPart
  headersCrlfPart := .new
  isAbsoluteUri := false

def absoluteUri (self : Encoder υ η) (isAbsolute : Bool) : Encoder υ η :=
  { self with isAbsoluteUri := isAbsolute }

/-- A round of the loop of `encode`; `none` is the end. -/
def round (parts : DifferentParts υ η) (self : Encoder υ η) (room : ℕ) :
    Except (Fault HttpError) (Option (Bytes × Encoder υ η)) :=
  match self.encodeStatus with
  | .method => do
    let w ← self.methodPart.encode room
    return some (w.out, { self with
      methodPart := w.next, encodeStatus := if w.complete then .methodSp else .method })
  | .methodSp => do
    let w ← self.methodSpPart.encode room
    return some (w.out, { self with
      methodSpPart := w.next
      uriPart :=
        if w.complete then parts.setAbsolute self.isAbsoluteUri self.uriPart else self.uriPart
      encodeStatus := if w.complete then .uri else .methodSp })
  | .uri => do
    let w ← parts.uriEncode self.uriPart room
    return some (w.out, { self with
      uriPart := w.next, encodeStatus := if w.complete then .uriSp else .uri })
  | .uriSp => do
    let w ← self.uriSpPart.encode room
    return some (w.out, { self with
      uriSpPart := w.next, encodeStatus := if w.complete then .version else .uriSp })
  | .version => do
    let w ← self.versionPart.encode room
    return some (w.out, { self with
      versionPart := w.next, encodeStatus := if w.complete then .versionCrlf else .version })
  | .versionCrlf => do
    let w ← self.versionCrlfPart.encode room
    return some (w.out, { self with
      versionCrlfPart := w.next, encodeStatus := if w.complete then .header else .versionCrlf })
  | .header => do
    let w ← parts.headersEncode self.headersPart room
    return some (w.out, { self with
      headersPart := w.next, encodeStatus := if w.complete then .headerCrlf else .header })
  | .headerCrlf => do
    let w ← self.headersCrlfPart.encode room
    return some (w.out, { self with
      headersCrlfPart := w.next
      encodeStatus := if w.complete then .encodeFinished else .headerCrlf })
  | .encodeFinished => return none

/-- A round for `fill`, to which a panic is like a want of fuel. -/
def step (parts : DifferentParts υ η) (_fuel : ℕ) (self : Encoder υ η) (room : ℕ) :
    Option (Option (Bytes × Encoder υ η)) :=
  (round parts self room).toOption

/-- `encode` on a buffer of this size, with the octets that are written in place of their number.
An empty buffer is refused before the loop. -/
def encode (parts : DifferentParts υ η) (fuel : ℕ) (self : Encoder υ η) (room : ℕ) :
    Option (Bytes × Encoder υ η) :=
  Library.fill (step parts) fuel self room

end Encoder

abbrev RequestEncoder := Encoder EncodeUri EncodeHeader

namespace RequestEncoder

def parts : DifferentParts EncodeUri EncodeHeader where
  setAbsolute isAbsolute self := { self with isAbsolute }
  uriEncode := EncodeUri.encode
  headersEncode := EncodeHeader.encode

def new (part : RequestPart) : RequestEncoder :=
  Encoder.new part (.new part.uri false) (.new part.headers)

end RequestEncoder

abbrev RequestRefEncoder := Encoder EncodeUriRef EncodeHeaderRef

namespace RequestRefEncoder

def parts : DifferentParts EncodeUriRef EncodeHeaderRef where
  setAbsolute isAbsolute self := { self with isAbsolute }
  uriEncode := EncodeUriRef.encode
  headersEncode := EncodeHeaderRef.encode

def new (part : RequestPart) : RequestRefEncoder :=
  Encoder.new part (.new part.uri false) (.new part.headers)

end RequestRefEncoder

end Http1

end YlongHttp
