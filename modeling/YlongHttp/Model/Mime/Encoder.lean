import YlongHttp.Library.WriteLoop
import YlongHttp.Model.Mime.Basic

/-! # The encoder of MIME messages (`body/mime/encode`) -/

namespace YlongHttp.Mime

/-- `data_copy`: what is copied of `src` from `idx` on, and whether that is all. -/
def dataCopy (src : Bytes) (idx room : ℕ) : Bytes × Bool :=
  ((src.drop idx).take room, src.length - idx ≤ room)

inductive HeaderStatus where
  | start | name | colon | value | crlf | done
deriving DecidableEq

structure EncodeHeaders where
  stage : HeaderStatus
  intoIter : List (HeaderName × HeaderValue)
  value : Option HeaderValue
  src : Bytes
  srcIdx : ℕ
deriving DecidableEq

namespace EncodeHeaders

def new (headers : Headers) : EncodeHeaders where
  stage := .start
  intoIter := headers.entries
  value := none
  src := []
  srcIdx := 0

def checkNext (self : EncodeHeaders) : EncodeHeaders :=
  match self.stage with
  | .start =>
    match self.intoIter with
    | (name, value) :: rest =>
      { stage := .name, intoIter := rest, value := some value, src := name.name, srcIdx := 0 }
    | [] => { self with stage := .done }
  | .name => { self with stage := .colon, src := [':'.toUInt8], srcIdx := 0 }
  | .colon =>
    { self with
      stage := .value
      src := (self.value.map HeaderValue.toString).getD []
      value := none
      srcIdx := 0 }
  | .value => { self with stage := .crlf, src := crlf, srcIdx := 0 }
  | .crlf => { self with stage := .start }
  | .done => self

/-- `encode`: what is written, and whether that is the end. -/
def encode (self : EncodeHeaders) (room : ℕ) : Bytes × Bool × EncodeHeaders :=
  match self.stage with
  | .start => ([], false, self.checkNext)
  | .done => ([], true, self)
  | _ =>
    match dataCopy self.src self.srcIdx room with
    | (out, true) =>
      (out, false, EncodeHeaders.checkNext { self with srcIdx := self.srcIdx + out.length })
    | (out, false) => (out, false, { self with srcIdx := self.srcIdx + out.length })

end EncodeHeaders

inductive PartStatus where
  | start | headers | crlf | body | done
deriving DecidableEq

structure MimePartEncoder where
  stage : PartStatus
  headersEncode : EncodeHeaders
  /-- The octets of the body and the index of `MixFrom`. -/
  body : Option (Bytes × ℕ)
  src : Bytes
  srcIdx : ℕ
deriving DecidableEq

/-- What the asynchronous readers of the bodies answer when they are polled: `none` is
`Poll::Pending`, and a number says how many octets there are at most after the first. Where the
list ends, the readers fill the buffer. -/
abbrev Answers := List (Option ℕ)

/-- What is left of a buffer for the next answer. -/
def Answers.room (answers : Answers) (room : ℕ) : ℕ :=
  match answers with
  | some k :: _ => min (k + 1) room
  | _ => room

variable (fuel : ℕ)

namespace MimePartEncoder

def fromPart (part : MimePart) : MimePartEncoder where
  stage := .start
  headersEncode := .new part.headers
  body := if part.body.isEmpty then none else some (part.body, 0)
  src := []
  srcIdx := 0

variable (self : MimePartEncoder)

def checkNext : MimePartEncoder :=
  match self.stage with
  | .start => { self with stage := .headers, src := [], srcIdx := 0 }
  | .headers =>
    { self with stage := .crlf, src := if self.body.isSome then Mime.crlf else [], srcIdx := 0 }
  | .crlf => { self with stage := .body, srcIdx := 0 }
  | .body => { self with stage := .done, srcIdx := 0 }
  | .done => { self with src := [], srcIdx := 0 }

/-- One round of the loop of `data`; `none` is the end. -/
def step (self : MimePartEncoder) (room : ℕ) : Option (Bytes × MimePartEncoder) :=
  match self.stage with
  | .start => some ([], self.checkNext)
  | .headers =>
    match self.headersEncode.encode room with
    | (out, false, headersEncode) => some (out, { self with headersEncode })
    | (out, true, headersEncode) => some (out, checkNext { self with headersEncode })
  | .crlf =>
    match dataCopy self.src self.srcIdx room with
    | (out, true) => some (out, checkNext { self with srcIdx := self.srcIdx + out.length })
    | (out, false) => some (out, { self with srcIdx := self.srcIdx + out.length })
  | .body =>
    match self.body with
    | none => some ([], self.checkNext)
    | some (bytes, index) =>
      let (out, _) := dataCopy bytes index room
      let self := { self with body := some (bytes, index + out.length) }
      some (out, if out.length = 0 then self.checkNext else self)
  | .done => none

/-- `data`. The fuel is for the rounds of the loop. -/
def data (fuel : ℕ) (self : MimePartEncoder) (room : ℕ) : Option (Bytes × MimePartEncoder) :=
  Library.fill (fun _ self room => some (self.step room)) fuel self room

/-- `poll_mime_body`; without octets it is `Poll::Pending`. -/
def pollMimeBody (answers : Answers) (room : ℕ) : Option Bytes × MimePartEncoder × Answers :=
  match self.body, answers with
  | none, _ => (some [], self.checkNext, answers)
  | some _, none :: answers => (none, self, answers)
  | some (bytes, index), _ =>
    let (out, _) := dataCopy bytes index (answers.room room)
    let self := { self with body := some (bytes, index + out.length) }
    (some out, if out.length = 0 then self.checkNext else self, answers.tail)

/-- One round of the loop of `poll_data`; `none` is the end. -/
def pollStep (self : MimePartEncoder × Answers) (room : ℕ) :
    Option (Option Bytes × MimePartEncoder × Answers) :=
  match self.1.stage with
  | .body => some (pollMimeBody self.1 self.2 room)
  | _ => (self.1.step room).map fun (out, next) => (some out, next, self.2)

def pollData (self : MimePartEncoder × Answers) (room : ℕ) :
    Option (Option Bytes × MimePartEncoder × Answers) :=
  Library.pollFill (fun _ self room => some (pollStep self room)) fuel self room

end MimePartEncoder

inductive MultiStage where
  | mimePart (encoder : MimePartEncoder)
  | crlf
  | dash
  | boundary (boundary : Bytes)
  | headers (encoder : EncodeHeaders)
deriving DecidableEq

/-- `MimeMultiEncoder`, without the headers of the outermost message, which it does not encode. -/
structure MimeMultiEncoder where
  stages : List MultiStage
  src : Bytes
  srcIdx : ℕ
deriving DecidableEq

variable (boundary : Bytes)

/-- `push_first_boundary`. -/
def firstBoundary : List MultiStage := [.dash, .boundary boundary, .crlf]

/-- `push_middle_boundary`. -/
def middleBoundary : List MultiStage := .crlf :: firstBoundary boundary

/-- `push_end_boundary`. -/
def endBoundary : List MultiStage :=
  [.crlf, .dash, .boundary boundary, .dash, .crlf]

mutual

/-- The stages that `push_list_to_stages` pushes for one part, or `push_multi_as_part`. -/
def stagesOf : XPart → List MultiStage
  | .part part => [.mimePart (.fromPart part)]
  | .multi headers boundary list =>
    .headers (.new headers) :: .crlf ::
      (firstBoundary boundary ++
        match list with
        | [] => endBoundary boundary
        | x :: rest => stagesOf x ++ stagesOfRest boundary rest)

/-- The parts after the first, each after a middle boundary, and the end boundary. -/
def stagesOfRest (boundary : Bytes) : List XPart → List MultiStage
  | [] => endBoundary boundary
  | x :: rest => middleBoundary boundary ++ stagesOf x ++ stagesOfRest boundary rest

end

/-- `push_list_to_stages`. -/
def stagesOfList (boundary : Bytes) : List XPart → List MultiStage
  | [] => firstBoundary boundary ++ endBoundary boundary
  | x :: rest => firstBoundary boundary ++ (stagesOf x ++ stagesOfRest boundary rest)

namespace MimeMultiEncoder

def fromMulti (multi : MimeMulti) : MimeMultiEncoder where
  stages := stagesOfList multi.boundary multi.list
  src := []
  srcIdx := 0

/-- `crlf_encode`, `dash_encode` and `boundary_encode`. -/
def copy (self : MimeMultiEncoder) (src : Bytes) (stage : MultiStage) (room : ℕ) :
    Bytes × MimeMultiEncoder :=
  match dataCopy src self.srcIdx room with
  | (out, true) => (out, { self with src := [], srcIdx := 0 })
  | (out, false) => (out, { self with
      stages := stage :: self.stages
      srcIdx := self.srcIdx + out.length })

/-- One round of the loop of `data`, with the fuel for the loop of a part; an answer of `none` is
the end. -/
def step (fuel : ℕ) (self : MimeMultiEncoder) (room : ℕ) :
    Option (Option (Bytes × MimeMultiEncoder)) :=
  match self.stages with
  | [] => some none
  | stage :: stages =>
    let self := { self with stages }
    match stage with
    | .crlf => some (some (copy { self with src := Mime.crlf } Mime.crlf stage room))
    | .dash => some (some (copy { self with src := str "--" } (str "--") stage room))
    | .boundary boundary => some (some (self.copy boundary stage room))
    | .headers encoder =>
      match encoder.encode room with
      | (out, false, encoder) => some (some (out, { self with stages := .headers encoder :: stages }))
      | (out, true, _) => some (some (out, { self with src := [], srcIdx := 0 }))
    | .mimePart encoder =>
      (encoder.data fuel room).map fun (out, encoder) =>
        some (out, if out.length ≠ 0 then { self with stages := .mimePart encoder :: stages }
          else { self with src := [], srcIdx := 0 })

/-- `data`. The fuel is for the rounds of the loops. -/
def data (fuel : ℕ) (self : MimeMultiEncoder) (room : ℕ) : Option (Bytes × MimeMultiEncoder) :=
  Library.fill step fuel self room

/-- One round of the loop of `poll_data`. A part that has to wait is not put back. -/
def pollStep (self : MimeMultiEncoder × Answers) (room : ℕ) :
    Option (Option (Option Bytes × MimeMultiEncoder × Answers)) :=
  match self.1.stages with
  | .mimePart encoder :: stages =>
    (MimePartEncoder.pollData fuel (encoder, self.2) room).map fun (size, encoder, answers) =>
      some (size, match size with
        | some out =>
          if out.length ≠ 0 then { self.1 with stages := .mimePart encoder :: stages }
          else { stages, src := [], srcIdx := 0 }
        | none => { self.1 with stages }, answers)
  | _ => (self.1.step fuel room).map (Option.map fun (out, next) => (some out, next, self.2))

def pollData (self : MimeMultiEncoder × Answers) (room : ℕ) :
    Option (Option Bytes × MimeMultiEncoder × Answers) :=
  Library.pollFill pollStep fuel self room

end MimeMultiEncoder

end YlongHttp.Mime
