import YlongHttp.Model.HeaderMap
import YlongHttp.Model.Numeral

/-! # MIME messages (`body/mime/common`) -/

namespace YlongHttp.Mime

inductive HttpError where
  | invalidInput

/-- A part with its body in memory. Whether it owns the body or borrows it makes no difference
here. -/
structure MimePart where
  headers : Headers
  body : Bytes
deriving DecidableEq

/-- A part, or a `MimeMulti` as a part. -/
inductive XPart where
  | part (part : MimePart)
  | multi (headers : Headers) (boundary : Bytes) (list : List XPart)

structure MimeMulti where
  headers : Headers
  boundary : Bytes
  list : List XPart

namespace MimeMulti

def new : MimeMulti where
  headers := .new
  boundary := str "-"
  list := []

def addPart (self : MimeMulti) (part : MimePart) : MimeMulti :=
  { self with list := self.list ++ [.part part] }

def addMulti (self multi : MimeMulti) : MimeMulti :=
  { self with list := self.list ++ [.multi multi.headers multi.boundary multi.list] }

end MimeMulti

def cr : UInt8 := '\r'.toUInt8
def lf : UInt8 := '\n'.toUInt8
def crlf : Bytes := [cr, lf]

/-- `LWSP-char`. -/
def isLwsp (b : UInt8) : Bool := b = ' '.toUInt8 || b = '\t'.toUInt8

variable (buf bytes : Bytes)

def trimFrontLwsp : Bytes := buf.dropWhile isLwsp

def trimBackLwsp : Bytes := (buf.reverse.dropWhile isLwsp).reverse

/-- The `[..len - 1]` of a slice that is not empty, and without a CR then at its end. -/
def trimBackLwspIfEndWithLf : Bytes :=
  let temp := buf.dropLast
  trimBackLwsp (if temp.getLast? = some cr then temp.dropLast else temp)

/-- The first line with its LF, and what follows; `none` is a buffer without a LF. -/
def getCrlfContain : Bytes → Option (Bytes × Bytes)
  | [] => none
  | b :: rest =>
    if b = lf then some ([b], rest)
    else (getCrlfContain rest).map fun (line, unparsed) => (b :: line, unparsed)

def isAsciiWhitespace (b : UInt8) : Bool := b = 0x20 || b = 0x09 || b = 0x0A || b = 0x0C || b = 0x0D

def trimAsciiStart : Bytes := bytes.dropWhile isAsciiWhitespace

def trimAscii : Bytes :=
  ((trimAsciiStart bytes).reverse.dropWhile isAsciiWhitespace).reverse

def quote : UInt8 := '"'.toUInt8

def getContentTypeBoundary (headers : Headers) : Option Bytes :=
  (headers.get (str "Content-Type")).bind fun value =>
    let text := trimAscii value.toString
    if (str "multipart").isPrefixOf text then
      let parameter := ((text.splitOn ';'.toUInt8).map trimAscii).find?
        fun s => (str "boundary=").isPrefixOf s
      parameter.bind fun s =>
        let boundary := trimAsciiStart (s.drop 9)
        if 2 < boundary.length ∧ boundary.head? = some quote ∧ boundary.getLast? = some quote then
          some boundary.tail.dropLast
        else if boundary ≠ [] then some boundary
        else none
    else none

end YlongHttp.Mime
