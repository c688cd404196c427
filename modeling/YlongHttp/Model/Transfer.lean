import YlongHttp.Model.Messages

/-! # Progress of transfers (`async_impl/downloader/mod.rs`, `async_impl/uploader/mod.rs`)

The futures go on from one answer of the body, the operator or the reader to the next. A count that
does not fit a `u64` is a panic. Instants are counted from any one of them. -/

namespace YlongHttp.Client

/-! ## Downloads -/

structure DownloadInfo where
  startTime : ℕ
  downloadedBytes : ℕ
  totalBytes : Option ℕ

structure Downloader where
  headers : Headers
  timeout : Option ℕ

/-- What `download` is waiting for. -/
inductive Awaited where
  /-- It has not been called, or it has returned, with the result. -/
  | idle (ok : Bool)
  /-- The progress before the first read. -/
  | start
  | data
  /-- The progress after the last read. -/
  | finish
  /-- The operator, to which `data[size..]` is offered. -/
  | download (data : Bytes) (size : ℕ)
  /-- The progress after that. -/
  | progress (data : Bytes) (size : ℕ)
  | panicked
deriving DecidableEq

/-- A call of `progress`, with the number of octets that the operator had accepted. -/
structure Report where
  downloaded : ℕ
  total : Option ℕ
  accepted : ℕ
deriving DecidableEq

/-- The state of the downloader, and what it has read and handed on so far. -/
structure Download where
  info : Option DownloadInfo
  awaited : Awaited
  clock : ℕ
  read : Bytes
  accepted : Bytes
  reports : List Report

inductive DownloadAnswer where
  /-- `download` is called. -/
  | call
  | progress (ok : Bool)
  /-- What `Body::data` has put into the buffer; none is an error. -/
  | data (octets : Option Bytes)
  /-- How many octets the operator has accepted; none is an error. -/
  | download (size : Option ℕ)

namespace Downloader

def bufSize : ℕ := 16 * 1024

variable (self : Downloader)

/-- The total is looked for in a header `Content`. -/
def newInfo (now : ℕ) : DownloadInfo where
  startTime := now
  downloadedBytes := 0
  totalBytes := (self.headers.get (str "Content")).bind fun value =>
    parseUnsigned (2 ^ 64) value.toString

def new : Download where
  info := none
  awaited := .idle true
  clock := 0
  read := []
  accepted := []
  reports := []

/-- `check_timeout`, that of an info whose time is up. -/
def isTimeout (info : DownloadInfo) (now : ℕ) : Bool :=
  match self.timeout with
  | some timeout => timeout ≤ now - info.startTime
  | none => false

/-- The head of the loop over the data that was read. -/
def offer (s : Download) (info : DownloadInfo) (data : Bytes) (size : ℕ) : Awaited :=
  if size = data.length then .data
  else if self.isTimeout info s.clock then .idle false
  else .download data size

def report (s : Download) (info : DownloadInfo) : Download :=
  { s with
    reports := s.reports ++
      [{ downloaded := info.downloadedBytes, total := info.totalBytes
         accepted := s.accepted.length }] }

/-- `download` and `limited_download`, from one answer to the next. -/
def step (self : Downloader) (s : Download) : DownloadAnswer → Option Download
  | .call =>
    match s.awaited with
    | .idle _ => some { s with info := some (s.info.getD (self.newInfo s.clock)), awaited := .start }
    | _ => none
  | .progress ok => s.info.bind fun info =>
    match s.awaited with
    | .start =>
      some { report s info with
        awaited := if ok && !self.isTimeout info s.clock then .data else .idle false }
    | .finish => some { report s info with awaited := .idle ok }
    | .progress data size =>
      some { report s info with awaited := if ok then self.offer s info data size else .idle false }
    | _ => none
  | .data none => if s.awaited = .data then some { s with awaited := .idle false } else none
  | .data (some octets) => s.info.bind fun info =>
    if s.awaited = .data ∧ octets.length ≤ bufSize then
      some { s with
        read := s.read ++ octets
        awaited := if octets = [] then .finish else self.offer s info octets 0 }
    else none
  | .download none =>
    match s.awaited with
    | .download _ _ => some { s with awaited := .idle false }
    | _ => none
  | .download (some size) => s.info.bind fun info =>
    match s.awaited with
    | .download data start =>
      if start + size ≤ data.length then
        let accepted := s.accepted ++ (data.drop start).take size
        let downloadedBytes := info.downloadedBytes + data.length
        some (if downloadedBytes < 2 ^ 64 then
          { s with info := some { info with downloadedBytes }, accepted
                   awaited := .progress data (start + size) }
        else { s with accepted, awaited := .panicked })
      else none
    | _ => none

/-- The answers, each with the time that has passed before it. -/
def run (answers : List (ℕ × DownloadAnswer)) : Option Download :=
  answers.foldlM (fun s (wait, answer) => self.step { s with clock := s.clock + wait } answer) new

end Downloader

/-! ## Uploads -/

/-- The count of the `info`, if there is one, and for the statements what the reader has produced
since `reuse` and each count that was reported, with what had been produced then. -/
structure Upload where
  uploadedBytes : Option ℕ
  produced : ℕ
  reports : List (ℕ × ℕ)

inductive UploadCall where
  /-- `poll_read` into a buffer with so many octets. The progress and the reader may not be ready
  or fail; the reader puts so many octets behind those of the buffer. -/
  | pollRead (filled : ℕ) (progress : Bool) (reader : Option ℕ)
  | reuse

namespace Uploader

/-- A call; `none` is the panic of the count. -/
def step (s : Upload) : UploadCall → Option Upload
  | .reuse => some { s with uploadedBytes := none, produced := 0 }
  | .pollRead filled progress reader =>
    let uploadedBytes := s.uploadedBytes.getD 0
    let reports := s.reports ++ [(uploadedBytes, s.produced)]
    match progress, reader with
    | true, some size =>
      -- The reader has put its octets into the buffer: `buf.filled()` is all there is in it.
      if uploadedBytes + (filled + size) < 2 ^ 64 then
        some { uploadedBytes := some (uploadedBytes + (filled + size))
               produced := s.produced + size, reports }
      else none
    | _, _ => some { s with uploadedBytes := some uploadedBytes, reports }

def run (calls : List UploadCall) : Option Upload :=
  calls.foldlM step { uploadedBytes := none, produced := 0, reports := [] }

end Uploader

end YlongHttp.Client
