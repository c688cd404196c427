import YlongHttp.Model.Qpack.Decoder

/-! # The QPACK encoder (`h3/qpack/encoder.rs`, `h3/qpack/format/encoder.rs`)

The set of the entries that a field section refers to is a list; the order in which the
iterator of the source's `HashSet` yields it is a parameter of the functions that depend
on it. `none` is a panic. -/

namespace YlongHttp.Qpack

/-! ## What is written -/

/-- A string: its length and its octets, `Octets::new` and `Integer::length`. -/
def stringOctets (value : Bytes) (isHuffman : Bool) : Bytes :=
  let octets := if isHuffman then huffmanEncode value else value
  integerOctets (if isHuffman then 0x80 else 0) octets.length 0x7f ++ octets

def indexAndValue (pre : UInt8) (index : ℕ) (mask : UInt8) (value : Bytes) (isHuffman : Bool) :
    Bytes :=
  integerOctets pre index mask ++ stringOctets value isHuffman

/-- `NameAndValue`. The length before the name is that of the name as it is, also where its
Huffman code is written. -/
def nameAndValue (pre : UInt8) (name value : Bytes) (isHuffman : Bool) : Bytes :=
  integerOctets pre name.length 0x1f ++ (if isHuffman then huffmanEncode name else name) ++
    stringOctets value isHuffman

def setCap (capacity : ℕ) : Bytes := integerOctets 0x20 capacity 0x1f

def indexed (index : ℕ) (isStatic : Bool) : Bytes :=
  integerOctets (if isStatic then 0xc0 else 0x80) index 0x3f

variable (index known : ℕ)

def indexedWithPost : Bytes := integerOctets 0x10 index 0x0f

def insertWithName (value : Bytes) (isHuffman isStatic : Bool) : Bytes :=
  indexAndValue (if isStatic then 0xc0 else 0x80) index 0x3f value isHuffman

def indexingWithName (value : Bytes) (isHuffman isStatic noPermit : Bool) : Bytes :=
  let pre : UInt8 :=
    match noPermit, isStatic with
    | true, true => 0x70
    | true, false => 0x60
    | false, true => 0x50
    | false, false => 0x40
  indexAndValue pre index 0x0f value isHuffman

def indexingWithPostName (value : Bytes) (isHuffman noPermit : Bool) : Bytes :=
  indexAndValue (if noPermit then 0x08 else 0x00) index 0x0f value isHuffman

def indexingWithLiteral (name value : Bytes) (isHuffman noPermit : Bool) : Bytes :=
  let pre : UInt8 :=
    match noPermit, isHuffman with
    | true, true => 0x38
    | true, false => 0x30
    | false, true => 0x28
    | false, false => 0x20
  nameAndValue pre name value isHuffman

def insertWithLiteral (name value : Bytes) (isHuffman : Bool) : Bytes :=
  nameAndValue (if isHuffman then 0x60 else 0x40) name value isHuffman

/-! ## Field sections -/

inductive SearchResult where
  | staticIndex (index : ℕ)
  | staticNameIndex (index : ℕ)
  | dynamicIndex (index : ℕ)
  | dynamicNameIndex (index : ℕ)
  | notFound

def searchFiledFromTable (table : DynamicTable) (h : NameField) (v : Bytes) (allowBlock : Bool) :
    SearchResult :=
  match staticIndex h v, table.index h v allowBlock with
  | .field index, _ => .staticIndex index
  | _, .field index => .dynamicIndex index
  | .fieldName index, _ => .staticNameIndex index
  | .none, .fieldName index => .dynamicNameIndex index
  | .none, .none => .notFound

/-- `ReprEncoder`, with what `iterate_encode_fields` collects. -/
structure ReprEncoder where
  base : ℕ
  isHuffman : Bool
  table : DynamicTable
  refFields : List ℕ
  maxDynamic : ℕ
  fields : Bytes
  inst : Bytes

namespace ReprEncoder

def indexedDynamicField (e : ReprEncoder) (index : ℕ) : Bytes :=
  if index ≥ e.base then indexedWithPost (index - e.base) else indexed (e.base - index - 1) false

def indexedNameRefWithLiteralField (e : ReprEncoder) (index : ℕ) (value : Bytes) : Bytes :=
  if index ≥ e.base then indexingWithPostName (index - e.base) value e.isHuffman false
  else insertWithName (e.base - index - 1) value e.isHuffman false

/-- `ref_fields.insert(index)`, `track_field` if the index is new, and the `max` of the
caller. -/
def refer (e : ReprEncoder) (index : ℕ) : Option ReprEncoder :=
  let e := { e with maxDynamic := max e.maxDynamic index }
  if index ∈ e.refFields then some e
  else
    (e.table.trackField index).map fun table =>
      { e with table, refFields := e.refFields ++ [index] }

/-- The same for an entry that was just inserted, which is tracked in any case. -/
def referNew (e : ReprEncoder) (index : ℕ) : Option ReprEncoder :=
  (e.table.trackField index).map fun table =>
    { e with table, refFields := e.refFields ++ [index], maxDynamic := max e.maxDynamic index }

/-- `add_field_to_dynamic`. Where there is no room, a field line is written to the encoder
stream. -/
def addFieldToDynamic (e : ReprEncoder) (h : NameField) (v : Bytes) :
    Option (ReprEncoder × Option ℕ) :=
  match e.table.canEvict (h.len + v.length + 32) with
  | none => none
  | some (some len) =>
    (e.table.evictDrained len).map fun table =>
      let (table, index) := table.update h v
      ({ e with table, inst := e.inst ++ insertWithLiteral h.toString v e.isHuffman }, some index)
  | some none =>
    some ({ e with inst := e.inst ++ indexingWithLiteral h.toString v e.isHuffman false }, none)

/-- Writes to the field section. -/
def write (e : ReprEncoder) (octets : Bytes) : ReprEncoder :=
  { e with fields := e.fields ++ octets }

def encodeField (e : ReprEncoder) (allowBlock : Bool) (h : NameField) (v : Bytes) :
    Option ReprEncoder :=
  match searchFiledFromTable e.table h v allowBlock with
  | .staticIndex index => some (e.write (indexed index true))
  | .staticNameIndex index => some (e.write (indexingWithName index v e.isHuffman true false))
  | .dynamicIndex index => (e.write (e.indexedDynamicField index)).refer index
  | .dynamicNameIndex index => (e.write (e.indexedNameRefWithLiteralField index v)).refer index
  | .notFound =>
    if allowBlock then
      match e.addFieldToDynamic h v with
      | none => none
      | some (e, some index) => (e.write (e.indexedDynamicField index)).referNew index
      | some (e, none) => some (e.write (indexingWithLiteral h.toString v e.isHuffman false))
    else some (e.write (indexingWithLiteral h.toString v e.isHuffman false))

/-- The loop of `iterate_encode_fields`. -/
def encodeFields (allowBlock : Bool) : List (NameField × Bytes) → ReprEncoder → Option ReprEncoder
  | [], e => some e
  | (h, v) :: iter, e => (e.encodeField allowBlock h v).bind (encodeFields allowBlock iter)

/-- `get_prefix`; `none` is the division by 0. A section that refers to nothing but entry 0
gets the prefix of one without references. -/
def getPrefix (e : ReprEncoder) : Option Bytes :=
  let requiredInsertCount := e.maxDynamic + 1
  if e.maxDynamic ≠ 0 then
    if 2 * e.table.maxEntries = 0 then none
    else
      let wireRic := requiredInsertCount % (2 * e.table.maxEntries) + 1
      some (integerOctets 0x00 wireRic 0xff ++
        if e.base ≥ requiredInsertCount then
          integerOctets 0x00 (e.base - requiredInsertCount) 0x7f
        else integerOctets 0x80 (requiredInsertCount - e.base - 1) 0x7f)
  else some (integerOctets 0x00 0 0xff ++ integerOctets 0x00 0 0x7f)

end ReprEncoder

/-- The fields that `PartsIter` yields. -/
def partsFields (parts : Parts) : List (NameField × Bytes) :=
  (parts.pseudo.method.map fun v => (NameField.method, v)).toList ++
  (parts.pseudo.status.map fun v => (NameField.status, v)).toList ++
  (parts.pseudo.scheme.map fun v => (NameField.scheme, v)).toList ++
  (parts.pseudo.path.map fun v => (NameField.path, v)).toList ++
  (parts.pseudo.authority.map fun v => (NameField.authority, v)).toList ++
  parts.map.entries.map fun (h, v) => (.other h.name, v.toString)

/-! ## The encoder -/

structure QpackEncoder where
  maxBlockedStreams : ℕ
  blockedStreamNums : ℕ
  capacityToUpdate : Option ℕ
  trackedStream : AList fun _ : ℕ => List (List ℕ)
  table : DynamicTable
  isHuffman : Bool
  fieldIter : Option (List (NameField × Bytes))

namespace QpackEncoder

def default : QpackEncoder where
  maxBlockedStreams := 0
  blockedStreamNums := 0
  capacityToUpdate := none
  trackedStream := ∅
  table := .withEmpty
  isHuffman := true
  fieldIter := none

variable (e : QpackEncoder)

/-- `set_max_table_capacity`; `none` is the error. -/
def setMaxTableCapacity (maxCap : ℕ) : Option QpackEncoder :=
  if maxCap > 2 ^ 30 - 1 then none else some { e with capacityToUpdate := some maxCap }

def setMaxBlockedStreamSize (maxBlocked : ℕ) : QpackEncoder :=
  { e with maxBlockedStreams := maxBlocked }

def setParts (parts : Parts) : QpackEncoder :=
  { e with fieldIter := some (partsFields parts) }

/-- `update_max_dynamic_table_cap`, with what it writes. -/
def updateMaxDynamicTableCap : Option (QpackEncoder × Bytes) :=
  match e.capacityToUpdate with
  | none => some (e, [])
  | some newCap =>
    (e.table.updateCapacity newCap).map fun (table, updated) =>
      if updated then ({ e with table, capacityToUpdate := none }, setCap newCap)
      else ({ e with table }, [])

/-- Whether a stream has a section that refers to an entry past the known ones. -/
def isBlocked (sections : List (List ℕ)) : Bool :=
  sections.flatten.any fun index => index > known

def updateBlockedStream : QpackEncoder :=
  { e with
    blockedStreamNums :=
      e.trackedStream.entries.countP fun s => isBlocked e.table.knownReceivedCount s.2 }

def increaseInsertCount (increment : ℕ) : Option QpackEncoder :=
  (e.table.increaseKnownReceiveCount increment).map fun table =>
    updateBlockedStream { e with table }

/-- `untracked_field` of every index. -/
def untrackAll (table : DynamicTable) : List ℕ → Option DynamicTable
  | [] => some table
  | index :: indices => (table.untrackedField index).bind fun table => untrackAll table indices

/-- The loop of `ack` over the indices, on the known received count. -/
def raiseKnown (indices : List ℕ) : ℕ :=
  indices.foldl (fun known index => if index > known then known + 1 else known) known

/-- `ack`; `order` is the order in which the set of the section is gone through. -/
def ack (order : List ℕ → List ℕ) (e : QpackEncoder) (streamId : ℕ) : Option QpackEncoder :=
  match e.trackedStream.lookup streamId with
  | none => some e
  | some [] => some { e with trackedStream := e.trackedStream.erase streamId }
  | some (unacked :: sections) =>
    let trackedStream :=
      if sections = [] then e.trackedStream.erase streamId
      else e.trackedStream.insert streamId sections
    let known := e.table.knownReceivedCount
    let increment := raiseKnown known (order unacked) - known
    (untrackAll e.table (order unacked)).bind fun table =>
      let e := { e with trackedStream, table }
      if increment > 0 then e.increaseInsertCount increment else some e

def cancelStream (streamId : ℕ) : Option QpackEncoder :=
  match e.trackedStream.lookup streamId with
  | none => some e
  | some sections =>
    (untrackAll e.table sections.flatten).bind fun table =>
      let e := { e with trackedStream := e.trackedStream.erase streamId, table }
      if isBlocked e.table.knownReceivedCount sections then
        (checkedSub e.blockedStreamNums 1).map fun blockedStreamNums => { e with blockedStreamNums }
      else some e

/-- What `decode_ins` does with an instruction. -/
def apply (order : List ℕ → List ℕ) (e : QpackEncoder) : DecoderInstruction → Option QpackEncoder
  | .ack streamId => e.ack order streamId
  | .streamCancel streamId => e.cancelStream streamId
  | .insertCountIncrement increment => e.increaseInsertCount increment

/-- `decode_ins`; an instruction that the buffer does not hold whole is an error. -/
def decodeInsLoop (order : List ℕ → List ℕ) : ℕ → QpackEncoder → Bytes →
    QpackEncoder × Except (Fault QpackError) Unit
  | 0, e, _ => (e, .ok ())
  | fuel + 1, e, buf =>
    if buf = [] then (e, .ok ())
    else
      match decodeDecInst buf with
      | (.needMore state, _) => state.elim
      | (.error err, _) => (e, .error (.error err))
      | (.decoded inst, buf) =>
        match e.apply order inst with
        | none => (e, .error .panic)
        | some e => decodeInsLoop order fuel e buf

def decodeIns (order : List ℕ → List ℕ) (e : QpackEncoder) (buf : Bytes) :
    QpackEncoder × Except (Fault QpackError) Unit :=
  decodeInsLoop order buf.length e buf

def reachMaxBlocked : Bool := e.blockedStreamNums ≥ e.maxBlockedStreams

/-- Whether the stream has a section whose largest reference is past the known ones. -/
def streamBlocked (streamId : ℕ) : Bool :=
  match e.trackedStream.lookup streamId with
  | none => false
  | some sections =>
    match sections.flatten.max? with
    | none => false
    | some index => index > e.table.knownReceivedCount

/-- The `ReprEncoder` that `encode` begins with. -/
def startSection (inst : Bytes) : ReprEncoder where
  base := e.table.insertCount
  isHuffman := e.isHuffman
  table := e.table
  refFields := []
  maxDynamic := 0
  fields := []
  inst := inst

/-- Whether entries may be inserted, or referred to before they are acknowledged. -/
def allowBlock (streamId : ℕ) : Bool :=
  e.streamBlocked streamId || !e.reachMaxBlocked

/-- The encoder after a field section. -/
def afterSection (streamId : ℕ) (r : ReprEncoder) : QpackEncoder :=
  { e with
    table := r.table
    fieldIter := none
    blockedStreamNums :=
      if r.maxDynamic > r.table.knownReceivedCount then e.blockedStreamNums + 1
      else e.blockedStreamNums
    trackedStream :=
      if r.refFields = [] then e.trackedStream
      else
        e.trackedStream.insert streamId
          ((e.trackedStream.lookup streamId).getD [] ++ [r.refFields]) }

/-- `encode`: the field section and the instructions. -/
def encode (e : QpackEncoder) (streamId : ℕ) : Option (QpackEncoder × Bytes × Bytes) :=
  e.updateMaxDynamicTableCap.bind fun (e, inst) =>
    (ReprEncoder.encodeFields (e.allowBlock streamId) (e.fieldIter.getD [])
        (e.startSection inst)).bind fun r =>
      r.getPrefix.map fun sectionPrefix =>
        (e.afterSection streamId r, sectionPrefix ++ r.fields, r.inst)

end QpackEncoder

end YlongHttp.Qpack
