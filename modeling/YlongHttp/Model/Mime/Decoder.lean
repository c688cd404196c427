import YlongHttp.Model.Http1.ResponseDecoder
import YlongHttp.Model.Mime.Encoder

/-! # The decoder of MIME messages (`body/mime/decode`) -/

namespace YlongHttp.Mime

open Http1 (isHeaderNameByte isHeaderValueByte)

abbrev Decoded (α : Type) := Except (Fault HttpError) α

def invalid {α : Type} : Decoded α := .error (.error .invalidInput)

structure DecodeHeaders where
  stage : HeaderStatus
  nameSrc : Bytes
  src : Bytes
  headers : Headers
deriving DecidableEq

namespace DecodeHeaders

def new : DecodeHeaders where
  stage := .start
  nameSrc := []
  src := []
  headers := .new

variable (self : DecodeHeaders)

def checkNext : DecodeHeaders :=
  match self.stage with
  | .start => { self with stage := .name }
  | .name => { self with stage := .value }
  | .colon => self
  | .value => { self with stage := .crlf }
  | .crlf => { self with stage := .start, src := [] }
  | .done => self

def isCrMeet : Bool := self.src = [cr]

def startDecode (buf : Bytes) : Decoded (DecodeHeaders × Bytes) :=
  let buf := if self.src.isEmpty then trimFrontLwsp buf else buf
  match buf with
  | [] => .error .panic
  | b :: rest =>
    if b = cr then
      if self.isCrMeet then invalid
      else
        match rest with
        | [] => .ok ({ self with src := self.src ++ [cr] }, [])
        | b' :: rest => if b' = lf then .ok ({ self with stage := .done }, rest) else invalid
    else if b = lf then .ok ({ self with stage := .done }, rest)
    else if self.isCrMeet then invalid
    else .ok (self.checkNext, buf)

/-- The loop of `get_header_name` and `get_header_value`: the octets before the first that ends
the token, and the buffer from there. -/
def token (stop valid : UInt8 → Bool) (buf : Bytes) : Decoded (Option (Bytes × Bytes)) :=
  match Http1.scan stop valid buf with
  | none => invalid
  | some result => .ok result

def nameDecode (buf : Bytes) : Decoded (DecodeHeaders × Bytes) :=
  let buf := if self.src.isEmpty then trimFrontLwsp buf else buf
  match token (· = ':'.toUInt8) isHeaderNameByte buf with
  | .error e => .error e
  | .ok none => .ok ({ self with src := self.src ++ buf }, [])
  | .ok (some (src, unparsed)) =>
    .ok (checkNext { self with nameSrc := self.src ++ src, src := [] }, unparsed.tail)

def valueDecode (buf : Bytes) : Decoded (DecodeHeaders × Bytes) :=
  let buf := if self.src.isEmpty then trimFrontLwsp buf else buf
  match token (fun b => b = cr || b = lf) isHeaderValueByte buf with
  | .error e => .error e
  | .ok none => .ok ({ self with src := self.src ++ buf }, [])
  | .ok (some (src, unparsed)) =>
    match self.headers.insert (trimFrontLwsp self.nameSrc) (trimFrontLwsp (self.src ++ src)) with
    | none => invalid
    | some headers => .ok (checkNext { self with nameSrc := [], src := [], headers }, unparsed)

/-- `consume_crlf`; `none` is a want of more octets. -/
def consumeCrlf (buf : Bytes) (crMeet : Bool) : Decoded (Option Bytes) :=
  match Http1.consumeCrlf buf crMeet with
  | none => invalid
  | some (.complete unparsed) => .ok (some unparsed)
  | some (.incomplete _) => .ok none

def crlfDecode (buf : Bytes) : Decoded (DecodeHeaders × Bytes) :=
  match consumeCrlf buf self.isCrMeet with
  | .error e => .error e
  | .ok none => .ok (self, [])
  | .ok (some unparsed) => .ok (self.checkNext, unparsed)

def round (remains : Bytes) : Decoded (DecodeHeaders × Bytes) :=
  match self.stage with
  | .start => self.startDecode remains
  | .name => self.nameDecode remains
  | .value => self.valueDecode remains
  | .crlf => self.crlfDecode remains
  | _ => .ok (self, remains)

/-- The loop of `decode`. The fuel is for its rounds. -/
def decodeLoop : ℕ → DecodeHeaders → Bytes → Decoded (DecodeHeaders × Option Headers × Bytes)
  | 0, self, remains => .ok (self, none, remains)
  | fuel + 1, self, remains =>
    if self.stage = .done then .ok ({ self with headers := .new }, some self.headers, remains)
    else
      match self.round remains with
      | .error e => .error e
      | .ok (self, rest) =>
        if rest.isEmpty ∧ self.stage ≠ .done then .ok (self, none, rest)
        else decodeLoop fuel self rest

def decode (self : DecodeHeaders) (buf : Bytes) :
    Decoded (DecodeHeaders × Option Headers × Bytes) :=
  if buf.isEmpty then invalid else self.decodeLoop (4 * buf.length + 4) buf

end DecodeHeaders

inductive BoundaryTag where
  | init | first | middle | last
deriving DecidableEq

structure MimePartDecoder where
  stage : PartStatus
  headersDecoder : DecodeHeaders
  part : MimePart
  boundary : Bytes
  tag : BoundaryTag
  srcIdx : ℕ
deriving DecidableEq

/-- `MimePart::body_trim_crlf_once`. -/
def trimCrlfOnce (body : Bytes) : Bytes :=
  let body := if body.getLast? = some lf then body.dropLast else body
  if body.getLast? = some cr then body.dropLast else body

namespace MimePartDecoder

def new : MimePartDecoder where
  stage := .start
  headersDecoder := .new
  part := { headers := .new, body := [] }
  boundary := str "-"
  tag := .init
  srcIdx := 0

def initFromMulti (headers : Headers) (boundary : Bytes) : MimePartDecoder :=
  { new with part := { headers, body := [] }, boundary, stage := .body }

def startDecode (self : MimePartDecoder) (buf : Bytes) : MimePartDecoder × Bytes :=
  ({ self with stage := .headers }, trimFrontLwsp buf)

def headersDecode (self : MimePartDecoder) (buf : Bytes) : Decoded (MimePartDecoder × Bytes) :=
  match self.headersDecoder.decode buf with
  | .error e => .error e
  | .ok (headersDecoder, none, rest) => .ok ({ self with headersDecoder }, rest)
  | .ok (headersDecoder, some headers, rest) =>
    .ok ({ self with headersDecoder, part := { self.part with headers }, stage := .body }, rest)

def whenIsEnd (self : MimePartDecoder) : MimePartDecoder :=
  { self with
    stage := .done
    part := { self.part with body := trimCrlfOnce (self.part.body.take self.srcIdx) } }

def bodyDecode (self : MimePartDecoder) (buf : Bytes) : MimePartDecoder × Bytes :=
  match getCrlfContain buf with
  | none => ({ self with part := { self.part with body := self.part.body ++ buf } }, [])
  | some (src, unparsed) =>
    let body := self.part.body ++ src
    let self := { self with part := { self.part with body } }
    let trimLine := trimBackLwspIfEndWithLf (body.drop self.srcIdx)
    if trimLine = str "--" ++ self.boundary then
      (whenIsEnd { self with tag := .middle }, unparsed)
    else if trimLine = str "--" ++ self.boundary ++ str "--" then
      (whenIsEnd { self with tag := .last }, unparsed)
    else ({ self with srcIdx := body.length }, unparsed)

def round (self : MimePartDecoder) (remains : Bytes) : Decoded (MimePartDecoder × Bytes) :=
  match self.stage with
  | .start => .ok (self.startDecode remains)
  | .headers => self.headersDecode remains
  | .body => .ok (self.bodyDecode remains)
  | _ => .ok (self, remains)

/-- The loop of `decode`. The fuel is for its rounds. -/
def decodeLoop : ℕ → MimePartDecoder → Bytes → Decoded (MimePartDecoder × Option MimePart × Bytes)
  | 0, self, remains => .ok (self, none, remains)
  | fuel + 1, self, remains =>
    if self.stage = .done then
      .ok ({ self with part := { headers := .new, body := [] } }, some self.part, remains)
    else
      match self.round remains with
      | .error e => .error e
      | .ok (self, rest) =>
        if rest.isEmpty ∧ self.stage ≠ .done then .ok (self, none, rest)
        else decodeLoop fuel self rest

def decode (self : MimePartDecoder) (buf : Bytes) :
    Decoded (MimePartDecoder × Option MimePart × Bytes) :=
  if buf.isEmpty then invalid else self.decodeLoop (buf.length + 4) buf

end MimePartDecoder

/-- The rest after a character of `White_Space` in front. -/
def whitespaceAtFront : Bytes → Option Bytes
  | [] => none
  | b :: rest =>
    if (9 ≤ b ∧ b ≤ 13) ∨ b = 32 then some rest
    else
      match rest with
      | c :: rest =>
        if b = 0xC2 ∧ (c = 0x85 ∨ c = 0xA0) then some rest
        else
          match rest with
          | d :: rest =>
            if (b = 0xE1 ∧ c = 0x9A ∧ d = 0x80) ∨
                (b = 0xE2 ∧ c = 0x80 ∧ ((0x80 ≤ d ∧ d ≤ 0x8A) ∨ d = 0xA8 ∨ d = 0xA9 ∨ d = 0xAF)) ∨
                (b = 0xE2 ∧ c = 0x81 ∧ d = 0x9F) ∨ (b = 0xE3 ∧ c = 0x80 ∧ d = 0x80) then some rest
            else none
          | [] => none
      | [] => none

/-- The same at the end of a text, which is given from its end on. -/
def whitespaceAtBack : Bytes → Option Bytes
  | [] => none
  | d :: rest =>
    if (9 ≤ d ∧ d ≤ 13) ∨ d = 32 then some rest
    else
      match rest with
      | c :: rest' =>
        if c = 0xC2 ∧ (d = 0x85 ∨ d = 0xA0) then some rest'
        else
          match rest' with
          | b :: rest'' =>
            if (b = 0xE1 ∧ c = 0x9A ∧ d = 0x80) ∨
                (b = 0xE2 ∧ c = 0x80 ∧ ((0x80 ≤ d ∧ d ≤ 0x8A) ∨ d = 0xA8 ∨ d = 0xA9 ∨ d = 0xAF)) ∨
                (b = 0xE2 ∧ c = 0x81 ∧ d = 0x9F) ∨ (b = 0xE3 ∧ c = 0x80 ∧ d = 0x80) then some rest''
            else none
          | [] => none
      | [] => none

def dropSpaces (space : Bytes → Option Bytes) : ℕ → Bytes → Bytes
  | 0, text => text
  | fuel + 1, text =>
    match space text with
    | none => text
    | some rest => dropSpaces space fuel rest

/-- `str::trim`. -/
def trimStr (text : Bytes) : Bytes :=
  let text := dropSpaces whitespaceAtFront text.length text
  (dropSpaces whitespaceAtBack text.length text.reverse).reverse

structure DecodeData where
  isFinishFirstBoundary : Bool
  isOutermost : Bool
  boundary : Bytes
  tag : BoundaryTag
  src : Bytes
  srcIdx : ℕ
deriving DecidableEq

namespace DecodeData

def new : DecodeData where
  isFinishFirstBoundary := false
  isOutermost := true
  boundary := []
  tag := .init
  src := []
  srcIdx := 0

def newAsPart (boundary : Bytes) : DecodeData := { new with isOutermost := false, boundary }

def whenIsFirstBoundary (self : DecodeData) : DecodeData :=
  { self with isFinishFirstBoundary := true, tag := .first, src := [], srcIdx := 0 }

/-- `outermost_first_boundary`: the boundary if it is found, and the rest. -/
def outermostFirstBoundary (self : DecodeData) (buf : Bytes) : DecodeData × Option Bytes × Bytes :=
  match getCrlfContain buf with
  | none => ({ self with src := self.src ++ buf }, none, [])
  | some (src, unparsed) =>
    let s := trimStr (self.src ++ src)
    if (str "--").isPrefixOf s then
      (whenIsFirstBoundary { self with boundary := s.drop 2 }, some (s.drop 2), unparsed)
    -- What is behind the line is dropped with it.
    else ({ self with src := [], srcIdx := 0 }, none, [])

/-- `inner_first_boundary`: the rest. -/
def innerFirstBoundary (self : DecodeData) (buf : Bytes) : DecodeData × Bytes :=
  match getCrlfContain buf with
  | none => ({ self with src := self.src ++ buf }, [])
  | some (src, unparsed) =>
    let src := self.src ++ src
    if trimBackLwspIfEndWithLf (src.drop self.srcIdx) = str "--" ++ self.boundary then
      (self.whenIsFirstBoundary, unparsed)
    else ({ self with src, srcIdx := src.length }, unparsed)

/-- `middle_or_end_boundary`: whether a boundary is found, and the rest. -/
def middleOrEndBoundary (self : DecodeData) (buf : Bytes) : DecodeData × Bool × Bytes :=
  match getCrlfContain buf with
  | none => ({ self with src := self.src ++ buf }, false, [])
  | some (src, unparsed) =>
    let src := self.src ++ src
    let trimLine := trimBackLwspIfEndWithLf (src.drop self.srcIdx)
    if trimLine = str "--" ++ self.boundary then
      ({ self with tag := .middle, src := [], srcIdx := 0 }, true, unparsed)
    else if trimLine = str "--" ++ self.boundary ++ str "--" then
      ({ self with tag := .last, src := [], srcIdx := 0 }, true, unparsed)
    else ({ self with src, srcIdx := src.length }, false, unparsed)

end DecodeData

inductive DecodeStage where
  | unknown (decoder : DecodeHeaders)
  | part (decoder : MimePartDecoder)
  | multi (data : DecodeData)
  /-- `End`. -/
  | done
deriving DecidableEq

/-- The stacks have their tops in front. -/
structure MimeMultiDecoder where
  stages : List DecodeStage
  multis : List MimeMulti

namespace MimeMultiDecoder

def new : MimeMultiDecoder where
  stages := [.multi .new]
  multis := [.new]

def push (self : MimeMultiDecoder) (stage : DecodeStage) : MimeMultiDecoder :=
  { self with stages := stage :: self.stages }

def tempMultiEnd (self : MimeMultiDecoder) (byPart : Bool) : Decoded MimeMultiDecoder :=
  if self.multis.length = 1 then .ok { self with stages := [.done] }
  else if byPart ∧ self.stages = [] then invalid
  else
    match self.multis with
    | multi :: last :: multis =>
      .ok { stages := if byPart then self.stages.tail else self.stages
            multis := last.addMulti multi :: multis }
    | _ => invalid

def unknownDecode (self : MimeMultiDecoder) (decoder : DecodeHeaders) (buf : Bytes) :
    Decoded (MimeMultiDecoder × Bytes) :=
  match decoder.decode buf with
  | .error e => .error e
  | .ok (decoder, none, rest) => .ok (self.push (.unknown decoder), rest)
  | .ok (_, some headers, rest) =>
    match getContentTypeBoundary headers with
    | some boundary =>
      .ok ({ stages := .multi (.newAsPart boundary) :: self.stages
             multis := { MimeMulti.new with headers, boundary } :: self.multis }, rest)
    | none =>
      match self.multis with
      | [] => invalid
      | last :: _ => .ok (self.push (.part (.initFromMulti headers last.boundary)), rest)

def partDecode (self : MimeMultiDecoder) (decoder : MimePartDecoder) (buf : Bytes) :
    Decoded (MimeMultiDecoder × Bytes) :=
  match decoder.decode buf with
  | .error e => .error e
  | .ok (decoder, none, rest) => .ok (self.push (.part decoder), rest)
  | .ok (decoder, some part, rest) =>
    match self.multis with
    | [] => invalid
    | last :: multis =>
      let self := { self with multis := last.addPart part :: multis }
      -- `is_last_part`
      if decoder.tag = .last then (self.tempMultiEnd true).map fun self => (self, rest)
      else .ok (self.push (.unknown .new), rest)

def multiDecode (self : MimeMultiDecoder) (data : DecodeData) (buf : Bytes) :
    Decoded (MimeMultiDecoder × Bytes) :=
  if data.isFinishFirstBoundary then
    match data.middleOrEndBoundary buf with
    | (data, false, rest) => .ok (self.push (.multi data), rest)
    | (data, true, rest) =>
      match data.tag with
      | .middle => .ok ((self.push (.multi data)).push (.unknown .new), rest)
      | .last => (self.tempMultiEnd false).map fun self => (self, rest)
      | _ => .ok (self, rest)
  else if data.isOutermost then
    match data.outermostFirstBoundary buf with
    | (data, none, rest) => .ok (self.push (.multi data), rest)
    | (data, some boundary, rest) =>
      match self.multis.getLast? with
      | none => invalid
      | some first =>
        let multis := self.multis.dropLast ++ [{ first with boundary }]
        .ok (({ self with multis }.push (.multi data)).push (.unknown .new), rest)
  else
    match data.innerFirstBoundary buf with
    -- The stage is left in either case.
    | (data, rest) => .ok ((self.push (.multi data)).push (.unknown .new), rest)

/-- A round of the loop of `decode`, for a stage that is popped. -/
def round (self : MimeMultiDecoder) (stage : DecodeStage) (remains : Bytes) :
    Decoded (MimeMultiDecoder × Bytes) :=
  match stage with
  | .unknown decoder => self.unknownDecode decoder remains
  | .part decoder => self.partDecode decoder remains
  | .multi data => self.multiDecode data remains
  | .done => .ok (self, remains)

/-- The loop of `decode`. The fuel is for its rounds. -/
def decodeLoop : ℕ → MimeMultiDecoder → Bytes →
    Option (Decoded (MimeMultiDecoder × Option MimeMulti × Bytes))
  | 0, _, _ => none
  | fuel + 1, self, remains =>
    match self.stages with
    | [] => some (.ok (self, none, remains))
    | stage :: stages =>
      if stage = .done then
        match self.multis with
        | [] => some invalid
        | multi :: multis => some (.ok ({ stages, multis }, some multi, remains))
      else
        match round { self with stages } stage remains with
        | .error e => some (.error e)
        | .ok (self, rest) =>
          if rest.isEmpty then
            match self.stages with
            | [] => some invalid
            | .done :: _ => decodeLoop fuel self rest
            | _ => some (.ok (self, none, rest))
          else decodeLoop fuel self rest

/-- `decode`: the decoder after it, the message where it is complete, and the rest. -/
def decode (fuel : ℕ) (self : MimeMultiDecoder) (buf : Bytes) :
    Option (Decoded (MimeMultiDecoder × Option MimeMulti × Bytes)) :=
  if buf.isEmpty then some invalid else self.decodeLoop fuel buf

end MimeMultiDecoder

end YlongHttp.Mime
