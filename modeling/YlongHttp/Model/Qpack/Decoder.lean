import Mathlib.Data.List.AList
import YlongHttp.Model.Qpack.Format

/-! # The QPACK decoder (`h3/qpack/decoder.rs`, `h3/parts.rs`)

Functions of the source that can panic answer with a `Fault`. -/

namespace YlongHttp.Qpack

open Library (DecResult)

def fromUtf8 (octets : Bytes) : Option Bytes :=
  if ByteArray.validateUTF8 ⟨octets.toArray⟩ then some octets else none

/-- `Parts::update`; `none` is the `unwrap` of a field that `Headers` does not take. -/
def updateParts (parts : Parts) (name : NameField) (value : Bytes) : Option Parts :=
  match name with
  | .authority => some { parts with pseudo := { parts.pseudo with authority := some value } }
  | .method => some { parts with pseudo := { parts.pseudo with method := some value } }
  | .path => some { parts with pseudo := { parts.pseudo with path := some value } }
  | .scheme => some { parts with pseudo := { parts.pseudo with scheme := some value } }
  | .status => some { parts with pseudo := { parts.pseudo with status := some value } }
  | .other header => (parts.map.append header value).map fun map => { parts with map }

/-- A value whose absence is an error. -/
def okOr {α : Type} (e : QpackError) : Option α → Except (Fault QpackError) α
  | some a => .ok a
  | none => .error (.error e)

/-- A value whose absence is a panic. -/
def orPanic {α : Type} : Option α → Except (Fault QpackError) α
  | some a => .ok a
  | none => .error .panic

/-- The octets that `Integer::encode` pushes once the prefix is full. -/
def integerTail (i : ℕ) : Bytes :=
  if h : i ≥ 128 then (UInt8.ofNat (i &&& 0x7f) ||| 0x80) :: integerTail (i >>> 7)
  else [UInt8.ofNat (i &&& 0x7f)]
termination_by i
decreasing_by
  rw [Nat.shiftRight_eq_div_pow]
  omega

/-- `Integer::index(pre, index, mask).encode(dst)`. -/
def integerOctets (pre : UInt8) (index : ℕ) (mask : UInt8) : Bytes :=
  if index < mask.toNat then [pre ||| UInt8.ofNat index]
  else (pre ||| mask) :: integerTail (index - mask.toNat)

/-! ## The encoder stream -/

variable (table : DynamicTable)

namespace Updater

def getFieldByNameAndValue (midBit : MidBit) (name : Name) (value : Bytes) :
    Except (Fault QpackError) (NameField × Bytes) := do
  let h ← match name with
    | .index index =>
      if midBit.t = some true then
        okOr (.connectionError .encoderStreamError) (staticFieldName index)
      else do
        let relative ← orPanic (checkedSub table.insertCount (index + 1))
        let found ← orPanic (table.fieldName relative)
        okOr (.connectionError .encoderStreamError) found
    | .literal octets => (okOr (.connectionError .encoderStreamError) (fromUtf8 octets)).map .other
  let v ← okOr (.connectionError .encoderStreamError) (fromUtf8 value)
  return (h, v)

def updateTable (midBit : MidBit) (name : Name) (value : Bytes) :
    Except (Fault QpackError) DynamicTable := do
  let (f, v) ← getFieldByNameAndValue table midBit name value
  return (table.update f v).1

def duplicate (index : ℕ) : Except (Fault QpackError) DynamicTable := do
  let relative ← orPanic (checkedSub table.insertCount (index + 1))
  let found ← orPanic (table.field relative)
  let (f, v) ← okOr (.connectionError .encoderStreamError) found
  return (table.update f v).1

/-- What `decode_ins` does with an instruction. -/
def apply (maxTableCapacity : ℕ) (table : DynamicTable) :
    EncoderInstruction → Except (Fault QpackError) DynamicTable
  | .setCap capacity =>
    if capacity > maxTableCapacity then .error (.error decompressionFailed)
    else orPanic (table.updateSize capacity)
  | .insertWithIndex midBit name value => updateTable table midBit name value
  | .insertWithLiteral midBit name value => updateTable table midBit name value
  | .duplicate index => duplicate table index

end Updater

structure ReprMessage where
  requireInsertCount : ℕ
  base : ℕ
  reprState : Option ReprDecodeState
  remaining : Option Bytes
  parts : Parts
  headerSize : ℕ

def ReprMessage.new : ReprMessage where
  requireInsertCount := 0
  base := 0
  reprState := none
  remaining := none
  parts := .new
  headerSize := 0

structure QpackDecoder where
  table : DynamicTable
  instState : Option InstDecodeState
  streams : AList fun _ : ℕ => ReprMessage
  blocked : AList fun _ : ℕ => ℕ
  maxBlockedStreams : ℕ
  maxTableCapacity : ℕ
  maxFieldSectionSize : ℕ

def retain {β : Type} (keep : β → Bool) (m : AList fun _ : ℕ => β) : AList fun _ : ℕ => β where
  entries := m.entries.filter fun entry => keep entry.2
  nodupKeys := m.nodupKeys.sublist List.filter_sublist

variable (d : QpackDecoder)

namespace QpackDecoder

def new (maxBlockedStreams maxTableCapacity : ℕ) : QpackDecoder where
  table := .withEmpty
  instState := none
  streams := ∅
  blocked := ∅
  maxBlockedStreams := maxBlockedStreams
  maxTableCapacity := maxTableCapacity
  maxFieldSectionSize := 2 ^ 62 - 1

/-- The loop of `decode_ins`: the table and the saved state after it, and the error, if
there is one. -/
def decodeInsLoop (maxTableCapacity : ℕ) : ℕ → DynamicTable → Option InstDecodeState → Bytes →
    DynamicTable × Option InstDecodeState × Except (Fault QpackError) Unit
  | 0, table, state, _ => (table, state, .ok ())
  | fuel + 1, table, state, buf =>
    if buf = [] then (table, state, .ok ())
    else
      match (state.getD (.encInstIndex .firstByte)).decode buf with
      | (.needMore state, _) => (table, some state, .ok ())
      | (.error e, _) => (table, none, .error (.error e))
      | (.decoded inst, buf) =>
        match Updater.apply maxTableCapacity table inst with
        | .ok table => decodeInsLoop maxTableCapacity fuel table none buf
        | .error e => (table, none, .error e)

/-- `decode_ins`, with the streams that are unblocked. -/
def decodeIns (buf : Bytes) : QpackDecoder × Except (Fault QpackError) (List ℕ) :=
  match decodeInsLoop d.maxTableCapacity buf.length d.table d.instState buf with
  | (table, instState, .error e) => ({ d with table, instState }, .error e)
  | (table, instState, .ok ()) =>
    ({ d with table, instState, blocked := retain (· > table.insertCount) d.blocked },
      .ok (retain (· ≤ table.insertCount) d.blocked).keys)

end QpackDecoder

/-! ## Field sections -/

/-- `Searcher`, with the lines it writes to. -/
structure Searcher where
  maxFieldSectionSize : ℕ
  table : DynamicTable
  parts : Parts
  headerSize : ℕ
  base : ℕ

namespace Searcher

variable (s : Searcher)

/-- `base - index - 1`. -/
def relative (index : ℕ) : Except (Fault QpackError) ℕ :=
  orPanic (checkedSub s.base (index + 1))

/-- `base + index`. -/
def postBase (index : ℕ) : Except (Fault QpackError) ℕ :=
  orPanic (checkedAdd s.base index)

def checkFieldListSize (key : NameField) (value : Bytes) : Except (Fault QpackError) Searcher :=
  let s := { s with headerSize := s.headerSize + (key.len + value.length + 32) }
  if s.headerSize > s.maxFieldSectionSize then .error (.error decompressionFailed) else .ok s

def addLine (name : NameField) (value : Bytes) : Except (Fault QpackError) Searcher := do
  let parts ← orPanic (updateParts s.parts name value)
  return { s with parts }

/-- `search_indexed`. It does not count the line. -/
def searchIndexed (midBit : MidBit) (index : ℕ) : Except (Fault QpackError) Searcher := do
  if midBit.t = some true then
    let (f, v) ← okOr decompressionFailed (staticField index)
    s.addLine f v
  else
    let found ← orPanic (s.table.field (← s.relative index))
    let (f, v) ← okOr decompressionFailed found
    s.addLine f v

def searchPostIndexed (index : ℕ) : Except (Fault QpackError) Searcher := do
  let found ← orPanic (s.table.field (← s.postBase index))
  let (f, v) ← okOr decompressionFailed found
  let s ← s.checkFieldListSize f v
  s.addLine f v

def getFieldByNameAndValue (midBit : MidBit) (name : Name) (value : Bytes) (repr : ReprPrefixBit) :
    Except (Fault QpackError) (NameField × Bytes) := do
  let h ← match name with
    | .index index =>
      if repr = .literalWithIndexing then
        if midBit.t = some true then okOr decompressionFailed (staticFieldName index)
        else do
          let found ← orPanic (s.table.fieldName (← s.relative index))
          okOr decompressionFailed found
      else do
        let found ← orPanic (s.table.fieldName (← s.postBase index))
        okOr decompressionFailed found
    | .literal octets => (okOr decompressionFailed (fromUtf8 octets)).map .other
  let v ← okOr decompressionFailed (fromUtf8 value)
  return (h, v)

/-- `search_literal_with_indexing`, `search_literal_with_post_indexing` and
`search_listeral_with_literal`, which differ in `repr` only. -/
def searchLiteral (midBit : MidBit) (name : Name) (value : Bytes) (repr : ReprPrefixBit) :
    Except (Fault QpackError) Searcher := do
  let (f, v) ← s.getFieldByNameAndValue midBit name value repr
  let s ← s.checkFieldListSize f v
  s.addLine f v

end Searcher

namespace QpackDecoder

/-- The Required Insert Count that the prefix stands for; the division is by `2 * max_entries`,
which is not 0 there. -/
def requiredInsertCount (ric : ℕ) : Except (Fault QpackError) ℕ :=
  if ric = 0 then .ok 0
  else
    let fullRange := 2 * table.maxEntries
    if ric > fullRange then .error (.error decompressionFailed)
    else
      let maxValue := table.insertCount + table.maxEntries
      let count := maxValue / fullRange * fullRange + ric - 1
      if count > maxValue then
        if count ≤ fullRange then .error (.error decompressionFailed)
        else if count - fullRange = 0 then .error (.error decompressionFailed)
        else .ok (count - fullRange)
      else if count = 0 then .error (.error decompressionFailed)
      else .ok count

/-- The base; `none` is an underflow or an overflow. -/
def sectionBase (count : ℕ) (signal : Bool) (deltaBase : ℕ) : Option ℕ :=
  if signal then checkedSub count (deltaBase + 1) else checkedAdd count deltaBase

inductive FieldDecodeState where
  | blocked
  | decoded

/-- What the loop of `decode_buffered_repr` does with a representation: the message and the
base go on, or the stream is blocked. `rest` is what follows the representation. -/
def handle (message : ReprMessage) (base : ℕ) (rest : Bytes) (repr : Representation) :
    Except (Fault QpackError) (ReprMessage × ℕ × FieldDecodeState) := do
  let s : Searcher :=
    { maxFieldSectionSize := d.maxFieldSectionSize, table := d.table, parts := message.parts,
      headerSize := message.headerSize, base }
  let searched (s : Searcher) : ReprMessage × ℕ × FieldDecodeState :=
    ({ message with parts := s.parts, headerSize := s.headerSize }, base, .decoded)
  match repr with
  | .fieldSectionPrefix ric signal deltaBase =>
    let count ← requiredInsertCount d.table ric
    let base ← orPanic (sectionBase count signal deltaBase)
    let message := { message with requireInsertCount := count, base }
    if count > d.table.insertCount then
      if d.blocked.keys.length > d.maxBlockedStreams then .error (.error decompressionFailed)
      else return ({ message with remaining := some rest }, base, .blocked)
    else return (message, base, .decoded)
  | .indexed midBit index => return searched (← s.searchIndexed midBit index)
  | .indexedWithPostIndex index => return searched (← s.searchPostIndexed index)
  | .literalWithIndexing midBit name value =>
    return searched (← s.searchLiteral midBit name value .literalWithIndexing)
  | .literalWithPostIndexing midBit name value =>
    return searched (← s.searchLiteral midBit name value .literalWithPostIndexing)
  | .literalWithLiteralName midBit name value =>
    return searched (← s.searchLiteral midBit name value .literalWithLiteralName)

/-- The loop of `decode_buffered_repr`. The state that `ReprDecoder::decode` leaves behind a
representation is that of the next field line, or none at the end of the buffer. -/
def decodeReprLoop (d : QpackDecoder) : ℕ → ReprMessage → ℕ → Bytes →
    Except (Fault QpackError) (ReprMessage × FieldDecodeState)
  | 0, message, _, _ => .ok (message, .decoded)
  | fuel + 1, message, base, buf =>
    if buf = [] then .ok (message, .decoded)
    else
      match (message.reprState.getD .filedSectionPrefix).decode buf with
      | (.needMore state, _) => .ok ({ message with reprState := some state }, .decoded)
      | (.error e, _) => .error (.error e)
      | (.decoded repr, rest) =>
        let state := if rest = [] then none else some (.reprIndex .firstByte)
        match handle d { message with reprState := state } base rest repr with
        | .error e => .error e
        | .ok (message, _, .blocked) => .ok (message, .blocked)
        | .ok (message, base, .decoded) => decodeReprLoop d fuel message base rest

/-- `decode_buffered_repr`. The searcher begins with the base 0. -/
def decodeBufferedRepr (buf : Bytes) (message : ReprMessage) (streamId : ℕ) :
    QpackDecoder × Except (Fault QpackError) (ReprMessage × FieldDecodeState) :=
  match decodeReprLoop d buf.length message 0 buf with
  | .error e => (d, .error e)
  | .ok (message, .decoded) => (d, .ok (message, .decoded))
  | .ok (message, .blocked) =>
    ({ d with blocked := d.blocked.insert streamId message.requireInsertCount },
      .ok (message, .blocked))

/-- The part of `decode_repr` that goes on with what a blocked stream had left. -/
def decodeRemaining (message : ReprMessage) (streamId : ℕ) :
    QpackDecoder × Except (Fault QpackError) ReprMessage :=
  match message.remaining with
  | none => (d, .ok message)
  | some vec =>
    match d.decodeBufferedRepr vec { message with remaining := none } streamId with
    | (d, .error e) => (d, .error e)
    | (d, .ok (message, _)) => (d, .ok message)

def decodeRepr (buf : Bytes) (streamId : ℕ) :
    QpackDecoder × Except (Fault QpackError) FieldDecodeState :=
  if streamId ∈ d.blocked then (d, .error (.error .streamBlocked))
  else
    let message := (d.streams.lookup streamId).getD .new
    match { d with streams := d.streams.erase streamId }.decodeRemaining message streamId with
    | (d, .error e) => (d, .error e)
    | (d, .ok message) =>
      match d.decodeBufferedRepr buf message streamId with
      | (d, .error e) => (d, .error e)
      | (d, .ok (message, state)) =>
        ({ d with streams := d.streams.insert streamId message }, .ok state)

/-- `finish`: the parts, and the Section Acknowledgment that is written. -/
def finish (d : QpackDecoder) (streamId : ℕ) :
    QpackDecoder × Except (Fault QpackError) (Parts × Bytes) :=
  let d' := { d with streams := d.streams.erase streamId }
  match d.streams.lookup streamId with
  | none => (d', .error (.error decompressionFailed))
  | some message =>
    if message.reprState.isSome then (d', .error (.error decompressionFailed))
    else if message.requireInsertCount > 0 then
      (d', .ok (message.parts, integerOctets 0x80 streamId 0x7f))
    else (d', .ok (message.parts, []))

/-- `stream_cancel`, into a buffer of `room` octets. -/
def streamCancel (streamId room : ℕ) : QpackDecoder × Except (Fault QpackError) Bytes :=
  if d.table.capacity > 0 then
    let d := { d with blocked := d.blocked.erase streamId, streams := d.streams.erase streamId }
    let res := integerOctets 0x40 streamId 0x3f
    if res.length > room then (d, .error (.error decompressionFailed)) else (d, .ok res)
  else (d, .ok [])

def finishStream (id : ℕ) : QpackDecoder × Except (Fault QpackError) Unit :=
  if id ∈ d.blocked then (d, .error (.error (.connectionError .decoderStreamError)))
  else ({ d with streams := d.streams.erase id }, .ok ())

def setMaxFieldSectionSize (size : ℕ) : QpackDecoder :=
  { d with maxFieldSectionSize := size }

end QpackDecoder

end YlongHttp.Qpack
