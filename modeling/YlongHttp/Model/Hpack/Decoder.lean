import YlongHttp.Model.Hpack.Representation
import YlongHttp.Model.Hpack.Table

/-! # Decoding of header blocks (`h2/hpack/decoder.rs`) -/

namespace YlongHttp

/-- The fields decoded so far, and their size. -/
structure HeaderLines where
  parts : Parts
  headerSize : ℕ
deriving DecidableEq

structure HpackDecoder where
  headerListSize : ℕ
  table : DynamicTable
  lines : HeaderLines
  holder : Option ReprDecodeState

def HpackDecoder.withMaxSize (headerTableSize maxHeaderListSize : ℕ) : HpackDecoder where
  headerListSize := maxHeaderListSize
  table := .withMaxSize headerTableSize
  lines := { parts := .new, headerSize := 0 }
  holder := none

/-- The table and the lines while a buffer is decoded. -/
structure Updater where
  headerListSize : ℕ
  table : DynamicTable
  lines : HeaderLines
deriving DecidableEq

namespace Updater

variable (self : Updater)

/-- `check_header_list_size` and, within the limit, the update of the parts. -/
def addLine (table : DynamicTable) (h : Header) (v : Bytes) :
    Updater × Except (Fault H2Error) Unit :=
  let headerSize := self.lines.headerSize + (h.len + v.length + 32)
  if headerSize > self.headerListSize then
    ({ self with lines := { self.lines with headerSize } },
      .error (.error (.connectionError .connectError)))
  else
    match self.lines.parts.update h v with
    | none => ({ self with table, lines := { self.lines with headerSize } }, .error .panic)
    | some parts => ({ self with table, lines := { parts, headerSize } }, .ok ())

def updateIndexed (index : ℕ) : Updater × Except (Fault H2Error) Unit :=
  match TableSearcher.searchHeader self.table index with
  | none => (self, .error (.error compressionError))
  | some (h, v) => self.addLine self.table h v

def getHeaderByName : Name → Option Header
  | .index index => TableSearcher.searchHeaderName self.table index
  | .literal octets => some (.other octets)

def updateLiteralWithIndexing (name : Name) (value : Bytes) :
    Updater × Except (Fault H2Error) Unit :=
  match self.getHeaderByName name with
  | none => (self, .error (.error compressionError))
  | some h => self.addLine (self.table.update h value) h value

/-- Also `update_literal_never_indexing`. -/
def updateLiteralWithoutIndexing (name : Name) (value : Bytes) :
    Updater × Except (Fault H2Error) Unit :=
  match self.getHeaderByName name with
  | none => (self, .error (.error compressionError))
  | some h => self.addLine self.table h value

def update (self : Updater) : Representation → Updater × Except (Fault H2Error) Unit
  | .indexed index => self.updateIndexed index
  | .literalWithIndexing n v => self.updateLiteralWithIndexing n v
  | .literalWithoutIndexing n v => self.updateLiteralWithoutIndexing n v
  | .literalNeverIndexed n v => self.updateLiteralWithoutIndexing n v
  | .sizeUpdate maxSize => ({ self with table := self.table.updateSize maxSize }, .ok ())

end Updater

/-- The loop of `HpackDecoder::decode`. Every representation takes an octet, so that the
fuel, one more than the octets, is never used up. -/
def HpackDecoder.decodeLoop :
    ℕ → Updater → ReprDecoder → Updater × ReprDecoder × Except (Fault H2Error) Unit
  | 0, updater, decoder => (updater, decoder, .ok ())
  | fuel + 1, updater, decoder =>
    match decoder.decode with
    | (decoder, .error e) => (updater, decoder, .error (.error e))
    | (decoder, .ok none) => (updater, decoder, .ok ())
    | (decoder, .ok (some repr)) =>
      match updater.update repr with
      | (updater, .ok ()) => decodeLoop fuel updater decoder
      | (updater, .error e) => (updater, decoder, .error e)

/-- `HpackDecoder::decode`. The saved state is taken out of the holder at the start and
put back only when the buffer ends inside a representation. -/
def HpackDecoder.decode (self : HpackDecoder) (buf : Bytes) :
    HpackDecoder × Except (Fault H2Error) Unit :=
  match decodeLoop (buf.length + 1)
      { headerListSize := self.headerListSize, table := self.table, lines := self.lines }
      { buf, state := self.holder } with
  | (updater, decoder, .ok ()) =>
    ({ self with table := updater.table, lines := updater.lines, holder := decoder.state }, .ok ())
  | (updater, _, .error e) =>
    ({ self with table := updater.table, lines := updater.lines, holder := none }, .error e)

def HpackDecoder.finish (self : HpackDecoder) : HpackDecoder × Except H2Error Parts :=
  if self.holder.isSome then (self, .error compressionError)
  else ({ self with lines := { parts := .new, headerSize := 0 } }, .ok self.lines.parts)

end YlongHttp
