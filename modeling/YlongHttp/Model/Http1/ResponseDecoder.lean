import YlongHttp.Model.Redirect

/-! # The head of a response (`h1/response/decoder.rs`) -/

namespace YlongHttp.Http1

open Client (Version)

inductive HttpError where
  /-- `H1Error::InvalidResponse`. -/
  | invalidResponse
  | invalidInput

structure ResponsePart where
  version : Version
  status : ℕ
  headers : Headers

inductive HeaderStage where
  | start | key | owsBefore | value | crlf | endCrlf

inductive ParseStage where
  | initial | version | statusCode | reason | statusCrlf
  | header (stage : HeaderStage)
  | blankLine

structure ResponseDecoder where
  stage : ParseStage
  version : Option Version
  statusCode : Option ℕ
  headers : Option Headers
  headKey : Bytes
  rest : Bytes
  newLine : Bool

/-- What is answered to a buffer, with the decoder after it; `none` is a want of more octets. -/
abbrev Answer (α : Type) := Except (Fault HttpError) (ResponseDecoder × Option α)

def invalid {α : Type} : Except (Fault HttpError) α := .error (.error .invalidResponse)

/-! ## Tokens -/

def cr : UInt8 := '\r'.toUInt8
def lf : UInt8 := '\n'.toUInt8

variable (b : UInt8)

def isOws : Bool := b = ' '.toUInt8 || b = '\t'.toUInt8

def isEol : Bool := b = cr || b = lf

def isValidByte : Bool := 0x1F < b && b < 0x7F

def isLegalReasonByte : Bool :=
  b = 0x09 || b = 0x20 || (0x21 ≤ b && b ≤ 0x7E) || 0x80 ≤ b

/-- `HEADER_NAME_BYTES`. -/
def isHeaderNameByte : Bool :=
  ('0'.toUInt8 ≤ b && b ≤ '9'.toUInt8) || ('A'.toUInt8 ≤ b && b ≤ 'Z'.toUInt8) ||
    ('a'.toUInt8 ≤ b && b ≤ 'z'.toUInt8) || (str "!#$%&'*+-.^_\x60|~").contains b

/-- `HEADER_VALUE_BYTES`. -/
def isHeaderValueByte : Bool := b = 0x09 || (0x20 ≤ b && b != 0x7F)

/-- The loop that `status_token`, `decode_reason`, `get_header_name` and `get_header_value` share:
the octets before the first that ends the token, and the buffer from there; `none` is a buffer
without an end. -/
def scan (stop valid : UInt8 → Bool) : Bytes → Option (Option (Bytes × Bytes))
  | [] => some none
  | b :: rest =>
    if stop b then some (some ([], b :: rest))
    else if valid b then
      (scan stop valid rest).map (·.map fun (token, unparsed) => (b :: token, unparsed))
    else none

variable (buffer : Bytes)

def statusToken : Option (Option (Bytes × Bytes)) :=
  (scan (· = ' '.toUInt8) isValidByte buffer).map (·.map fun (token, rest) => (token, rest.tail))

def decodeReason : Option (Option Bytes) :=
  (scan isEol isLegalReasonByte buffer).map (·.map Prod.snd)

def getHeaderName : Option (Option (Bytes × Bytes)) :=
  (scan (· = ':'.toUInt8) isHeaderNameByte buffer).map
    (·.map fun (token, rest) => (token, rest.tail))

def getHeaderValue : Option (Option (Bytes × Bytes)) :=
  scan isEol isHeaderValueByte buffer

def trimOws : Option Bytes :=
  match buffer.dropWhile isOws with
  | [] => none
  | rest => some rest

inductive CrlfStatus where
  | complete (unparsed : Bytes)
  /-- `Partial` in the source. -/
  | incomplete (step : ℕ)

def consumeCrlf (crMeet : Bool) : Option CrlfStatus :=
  match buffer with
  | [] => some (.incomplete 0)
  | b :: rest =>
    if b = cr then
      if crMeet then none
      else
        match rest with
        | [] => some (.incomplete 1)
        | b' :: rest => if b' = lf then some (.complete rest) else none
    else if b = lf then some (.complete rest)
    else none

/-- `StatusCode::from_bytes`. -/
def statusOfBytes : Bytes → Option ℕ
  | [x, y, z] =>
    let a := (x - 48).toNat
    let b := (y - 48).toNat
    let c := (z - 48).toNat
    if a = 0 ∨ 9 < a ∨ 9 < b ∨ 9 < c then none else some (a * 100 + b * 10 + c)
  | _ => none

def versionOfBytes (bytes : Bytes) : Option Version :=
  if bytes = str "HTTP/1.0" then some .http1_0
  else if bytes = str "HTTP/1.1" then some .http1_1
  else none

/-- The end of `decode_value`: the value without the spaces and tabs behind it. -/
def trimEnd (value : Bytes) : Bytes := (value.reverse.dropWhile isOws).reverse

def headerInsert (name value : Bytes) (headers : Headers) : Option Headers :=
  headers.append (name.map toAsciiLowercase) value

namespace ResponseDecoder

def new : ResponseDecoder where
  stage := .initial
  version := none
  statusCode := none
  headers := none
  headKey := []
  rest := []
  newLine := false

variable (self : ResponseDecoder)

def takeValue (value : Bytes) : Bytes × ResponseDecoder :=
  (self.rest ++ value, { self with rest := [] })

/-! ## Field lines -/

def decodeKey (buffer : Bytes) : Answer Bytes :=
  let self := { self with stage := .header .key }
  match getHeaderName buffer with
  | none => invalid
  | some (some (key, unparsed)) =>
    let (headKey, self) := self.takeValue key
    .ok ({ self with headKey }, some unparsed)
  | some none => .ok ({ self with rest := self.rest ++ buffer }, none)

def decodeOws (buffer : Bytes) : Answer Bytes :=
  .ok ({ self with stage := .header .owsBefore }, trimOws buffer)

def decodeValue (buffer : Bytes) : Answer Bytes :=
  let self := { self with stage := .header .value }
  match getHeaderValue buffer with
  | none => invalid
  | some (some (value, unparsed)) =>
    let (completeValue, self) := self.takeValue value
    match self.headers with
    | none => .error .panic
    | some headers =>
      match headerInsert self.headKey (trimEnd completeValue) headers with
      | none => .error (.error .invalidInput)
      | some headers => .ok ({ self with headKey := [], headers := some headers }, some unparsed)
  | some none => .ok ({ self with rest := self.rest ++ buffer }, none)

def decodeCrlf (crMeet : Bool) (buffer : Bytes) : Answer Bytes :=
  let self := { self with stage := .header .crlf }
  match consumeCrlf buffer crMeet with
  | none => invalid
  | some (.complete unparsed) => .ok ({ self with newLine := false }, some unparsed)
  | some (.incomplete step) =>
    .ok ({ self with newLine := if step = 1 then true else self.newLine }, none)

/-- The loops of `decode_header_from_key` and its likes, from the step that the decoder goes on
with. The fuel is for the steps. -/
def decodeHeaderFrom : ℕ → HeaderStage → ResponseDecoder → Bytes → Answer Bytes
  | 0, _, self, _ => .ok (self, none)
  | fuel + 1, stage, self, buffer =>
    match stage with
    | .start =>
      match buffer with
      | [] => .ok (self, none)
      | b :: _ => if isEol b then .ok (self, some buffer) else decodeHeaderFrom fuel .key self buffer
    | .key =>
      match self.decodeKey buffer with
      | .ok (self, some buffer) => decodeHeaderFrom fuel .owsBefore self buffer
      | answer => answer
    | .owsBefore =>
      match self.decodeOws buffer with
      | .ok (self, some buffer) => decodeHeaderFrom fuel .value self buffer
      | answer => answer
    | .value =>
      match self.decodeValue buffer with
      | .ok (self, some buffer) => decodeHeaderFrom fuel .crlf self buffer
      | answer => answer
    | .crlf =>
      match self.decodeCrlf false buffer with
      | .ok (self, some buffer) => decodeHeaderFrom fuel .endCrlf self buffer
      | answer => answer
    | .endCrlf =>
      -- `detect_blank_and_return!`
      match buffer with
      | [] => .ok ({ self with stage := .header .endCrlf }, none)
      | b :: _ => if isEol b then .ok (self, some buffer) else decodeHeaderFrom fuel .key self buffer

def decodeHeader (buffer : Bytes) : Answer Bytes :=
  match self.stage with
  | .header stage => decodeHeaderFrom (4 * buffer.length + 4) stage self buffer
  | _ => invalid

/-! ## The phases -/

def decodeStatusCrlf (buffer : Bytes) : Answer Bytes :=
  match consumeCrlf buffer self.newLine with
  | none => invalid
  | some (.complete unparsed) => .ok ({ self with newLine := false }, some unparsed)
  | some (.incomplete 0) => .ok ({ self with newLine := false }, none)
  | some (.incomplete 1) => .ok ({ self with newLine := true }, none)
  | some (.incomplete _) => invalid

def blankLinePhase (buffer : Bytes) : Answer (ResponsePart × Bytes) :=
  let self := { self with stage := .blankLine }
  match self.decodeStatusCrlf buffer with
  | .error e => .error e
  | .ok (self, none) => .ok (self, none)
  | .ok (self, some unparsed) =>
    match self.version, self.statusCode, self.headers with
    | some version, some status, some headers =>
      .ok ({ self with version := none, statusCode := none, headers := none },
        some ({ version, status, headers }, unparsed))
    | _, _, _ => .error .panic

def headerPhase (buffer : Bytes) : Answer (ResponsePart × Bytes) :=
  match self.decodeHeader buffer with
  | .error e => .error e
  | .ok (self, none) => .ok (self, none)
  | .ok (self, some unparsed) => self.blankLinePhase unparsed

def headerPhaseWithInit (buffer : Bytes) : Answer (ResponsePart × Bytes) :=
  let self := { self with headers := some .new }
  match buffer with
  | [] => .ok ({ self with stage := .header .start }, none)
  | b :: _ =>
    if isEol b then self.blankLinePhase buffer
    else ResponseDecoder.headerPhase { self with stage := .header .key } buffer

def statusCrlfPhase (buffer : Bytes) : Answer (ResponsePart × Bytes) :=
  let self := { self with stage := .statusCrlf }
  match self.decodeStatusCrlf buffer with
  | .error e => .error e
  | .ok (self, none) => .ok (self, none)
  | .ok (self, some unparsed) => self.headerPhaseWithInit unparsed

def reasonPhase (buffer : Bytes) : Answer (ResponsePart × Bytes) :=
  let self := { self with stage := .reason }
  match decodeReason buffer with
  | none => invalid
  | some none => .ok (self, none)
  | some (some unparsed) => self.statusCrlfPhase unparsed

def statusCodePhase (buffer : Bytes) : Answer (ResponsePart × Bytes) :=
  let self := { self with stage := .statusCode }
  match statusToken buffer with
  | none => invalid
  | some none => .ok ({ self with rest := self.rest ++ buffer }, none)
  | some (some (code, unparsed)) =>
    let (code, self) := self.takeValue code
    match statusOfBytes code with
    | none => invalid
    | some status => { self with statusCode := some status }.reasonPhase unparsed

def versionPhase (buffer : Bytes) : Answer (ResponsePart × Bytes) :=
  let self := { self with stage := .version }
  match statusToken buffer with
  | none => invalid
  | some none => .ok ({ self with rest := self.rest ++ buffer }, none)
  | some (some (version, unparsed)) =>
    let (version, self) := self.takeValue version
    match versionOfBytes version with
    | none => invalid
    | some version => { self with version := some version }.statusCodePhase unparsed

def decode (self : ResponseDecoder) (buffer : Bytes) : Answer (ResponsePart × Bytes) :=
  match self.stage with
  | .initial => self.versionPhase buffer
  | .version => self.versionPhase buffer
  | .statusCode => self.statusCodePhase buffer
  | .reason => self.reasonPhase buffer
  | .statusCrlf => self.statusCrlfPhase buffer
  | .header _ => self.headerPhase buffer
  | .blankLine => self.blankLinePhase buffer

end ResponseDecoder

/-! ## The loop of the blocking client (`sync_impl/conn/http1.rs`) -/

/-- The loop over the response head in `request`, after the reads that are left: the head, the
octets that came with it, and the reads after it. Every read after those is empty. The fuel is for
the reads. -/
def awaitHead : ℕ → ResponseDecoder → List Bytes →
    Option (Except (Fault HttpError) (ResponsePart × Bytes × List Bytes))
  | 0, _, _ => none
  | fuel + 1, decoder, reads =>
    match decoder.decode (reads.headD []) with
    | .error e => some (.error e)
    | .ok (decoder, none) => awaitHead fuel decoder reads.tail
    | .ok (_, some (part, pre)) => some (.ok (part, pre, reads.tail))

end YlongHttp.Http1
