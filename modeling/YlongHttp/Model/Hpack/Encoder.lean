import YlongHttp.Library.Writer
import YlongHttp.Model.Hpack.Integer
import YlongHttp.Model.Hpack.Table
import YlongHttp.Model.Huffman.Codec

/-! # Encoding of header blocks (`h2/hpack/encoder.rs`, `h2/hpack/representation/encoder.rs`)

A part of a representation is written into a buffer of `n` octets. The answer is what was
written and, when the buffer was too small, the part to go on with: the `Err(self)` of
the source, which always has filled the buffer. -/

namespace YlongHttp

open Library (writeThen writeOption)

def IntegerEncoder.encode : IntegerEncoder → ℕ → Bytes × Option IntegerEncoder
  | int, 0 => ([], if int.state = .finish then none else some int)
  | int, n + 1 =>
    match int.nextByte with
    | none => ([], none)
    | some (byte, int) =>
      let later := IntegerEncoder.encode int n
      (byte :: later.1, later.2)

structure Octets where
  src : Bytes
  idx : ℕ
deriving DecidableEq

def Octets.new (src : Bytes) (isHuffman : Bool) : Octets :=
  { src := if isHuffman then huffmanEncode src else src, idx := 0 }

def Octets.encode (self : Octets) (n : ℕ) : Bytes × Option Octets :=
  let input := self.src.drop self.idx
  if input.length ≤ n then (input, none)
  else (input.take n, some { self with idx := self.idx + n })

def preMask (isHuffman : Bool) : UInt8 := if isHuffman then 0x80 else 0

/-- `Integer::length`. -/
def lengthInteger (length : ℕ) (isHuffman : Bool) : IntegerEncoder :=
  .new length 0x7f (preMask isHuffman)

structure IndexAndValue where
  index : Option IntegerEncoder
  valueLength : Option IntegerEncoder
  valueOctets : Option Octets
deriving DecidableEq

/-- `IndexAndValue::new` with `set_index` and `set_value`. -/
def IndexAndValue.new (index : ℕ) (mask pre : UInt8) (value : Bytes) (isHuffman : Bool) :
    IndexAndValue :=
  let octets := Octets.new value isHuffman
  { index := some (.new index mask pre)
    valueLength := some (lengthInteger octets.src.length isHuffman)
    valueOctets := some octets }

def IndexAndValue.encode (self : IndexAndValue) : ℕ → Bytes × Option IndexAndValue :=
  writeThen (fun index => { self with index := some index })
    (writeThen (fun length => { self with index := none, valueLength := some length })
      (fun n =>
        let octets := writeOption Octets.encode self.valueOctets n
        (octets.1, octets.2.map fun octets =>
          { index := none, valueLength := none, valueOctets := some octets }))
      (writeOption IntegerEncoder.encode self.valueLength))
    (writeOption IntegerEncoder.encode self.index)

structure NameAndValue where
  index : Option IntegerEncoder
  nameLength : Option IntegerEncoder
  nameOctets : Option Octets
  valueLength : Option IntegerEncoder
  valueOctets : Option Octets
deriving DecidableEq

/-- `NameAndValue::new` with `set_index` and `set_name_and_value`. -/
def NameAndValue.new (mask pre : UInt8) (name value : Bytes) (isHuffman : Bool) : NameAndValue :=
  let nameOctets := Octets.new name isHuffman
  let valueOctets := Octets.new value isHuffman
  { index := some (.new 0 mask pre)
    nameLength := some (lengthInteger nameOctets.src.length isHuffman)
    nameOctets := some nameOctets
    valueLength := some (lengthInteger valueOctets.src.length isHuffman)
    valueOctets := some valueOctets }

def NameAndValue.encode (self : NameAndValue) : ℕ → Bytes × Option NameAndValue :=
  writeThen (fun index => { self with index := some index })
    (writeThen (fun length => { self with index := none, nameLength := some length })
      (writeThen
        (fun octets => { self with index := none, nameLength := none, nameOctets := some octets })
        (writeThen
          (fun length =>
            { self with
              index := none, nameLength := none, nameOctets := none, valueLength := some length })
          (fun n =>
            let octets := writeOption Octets.encode self.valueOctets n
            (octets.1, octets.2.map fun octets =>
              { index := none, nameLength := none, nameOctets := none, valueLength := none
                valueOctets := some octets }))
          (writeOption IntegerEncoder.encode self.valueLength))
        (writeOption Octets.encode self.nameOctets))
      (writeOption IntegerEncoder.encode self.nameLength))
    (writeOption IntegerEncoder.encode self.index)

/-- The representations the encoder produces. -/
inductive ReprEncodeState where
  | indexed (index : IntegerEncoder)
  | indexing (inner : IndexAndValue)
  | indexingWithName (inner : NameAndValue)
deriving DecidableEq

def ReprEncodeState.encode : ReprEncodeState → ℕ → Bytes × Option ReprEncodeState
  | .indexed index, n =>
    let r := index.encode n
    (r.1, r.2.map .indexed)
  | .indexing inner, n =>
    let r := inner.encode n
    (r.1, r.2.map .indexing)
  | .indexingWithName inner, n =>
    let r := inner.encode n
    (r.1, r.2.map .indexingWithName)

/-! ## The fields of a block -/

inductive PartsIterDirection where
  | authority
  | method
  | path
  | scheme
  | status
  | other
deriving DecidableEq

structure PartsIter where
  pseudo : PseudoHeaders
  map : List (HeaderName × HeaderValue)
  nextType : PartsIterDirection
deriving DecidableEq

def PartsIter.new (parts : Parts) : PartsIter :=
  { pseudo := parts.pseudo, map := parts.map.entries, nextType := .method }

namespace PartsIter

variable (self : PartsIter)

def nextOther : Option (Field × PartsIter) :=
  match self.map with
  | [] => none
  | (h, v) :: map => some ((.other h.name, v.toString), { self with map, nextType := .other })

def nextAuthority : Option (Field × PartsIter) :=
  match self.pseudo.authority with
  | some value =>
    some ((.authority, value),
      { self with pseudo := { self.pseudo with authority := none }, nextType := .authority })
  | none => self.nextOther

def nextPath : Option (Field × PartsIter) :=
  match self.pseudo.path with
  | some value =>
    some ((.path, value),
      { self with pseudo := { self.pseudo with path := none }, nextType := .path })
  | none => self.nextAuthority

def nextScheme : Option (Field × PartsIter) :=
  match self.pseudo.scheme with
  | some value =>
    some ((.scheme, value),
      { self with pseudo := { self.pseudo with scheme := none }, nextType := .scheme })
  | none => self.nextPath

def nextStatus : Option (Field × PartsIter) :=
  match self.pseudo.status with
  | some value =>
    some ((.status, value),
      { self with pseudo := { self.pseudo with status := none }, nextType := .status })
  | none => self.nextScheme

def nextMethod : Option (Field × PartsIter) :=
  match self.pseudo.method with
  | some value =>
    some ((.method, value),
      { self with pseudo := { self.pseudo with method := none }, nextType := .method })
  | none => self.nextStatus

/-- `PartsIter::next`: the loop falls through the directions in this order and leaves
`next_type` at the one that had a field. -/
def next : Option (Field × PartsIter) :=
  match self.nextType with
  | .method => self.nextMethod
  | .status => self.nextStatus
  | .scheme => self.nextScheme
  | .path => self.nextPath
  | .authority => self.nextAuthority
  | .other => self.nextOther

end PartsIter

/-! ## The encoder -/

/-- What `ReprEncoder::encode` writes for a field, and the table after it. -/
def encodeField (table : DynamicTable) (useHuffman : Bool) (h : Header) (v : Bytes) :
    ReprEncodeState × DynamicTable :=
  match TableSearcher.index table h v with
  | some (.header index) => (.indexed (.new index 0x7f 0x80), table)
  | some (.headerName index) => (.indexing (.new index 0x3f 0x40 v useHuffman), table.update h v)
  | none => (.indexingWithName (.new 0x3f 0x40 h.intoString v useHuffman), table.update h v)

structure ReprEncoder where
  table : DynamicTable
  iter : Option PartsIter
  state : Option ReprEncodeState
deriving DecidableEq

/-- The loop of `ReprEncoder::encode` over the fields. The iterator yields at most five
pseudo headers and the entries of the map, so that the fuel is never used up. -/
def ReprEncoder.encodeLoop (useHuffman : Bool) :
    ℕ → DynamicTable → PartsIter → ℕ → Bytes × ReprEncoder
  | 0, table, _, _ => ([], { table, iter := none, state := none })
  | fuel + 1, table, iter, n =>
    match iter.next with
    | none => ([], { table, iter := none, state := none })
    | some ((h, v), iter) =>
      let (repr, table) := encodeField table useHuffman h v
      match repr.encode n with
      | (out, some state) => (out, { table, iter := some iter, state := some state })
      | (out, none) =>
        let later := encodeLoop useHuffman fuel table iter (n - out.length)
        (out ++ later.1, later.2)

/-- The part of `ReprEncoder::encode` that encodes the fields of the iterator. -/
def ReprEncoder.encodeIter (useHuffman : Bool) (table : DynamicTable) :
    Option PartsIter → ℕ → Bytes × ReprEncoder
  | none, _ => ([], { table, iter := none, state := none })
  | some iter, n => encodeLoop useHuffman (iter.map.length + 6) table iter n

/-- `ReprEncoder::encode` with a buffer of `n` octets. -/
def ReprEncoder.encode (self : ReprEncoder) (n : ℕ) (useHuffman : Bool) : Bytes × ReprEncoder :=
  if n = 0 then ([], self)
  else
    match self.state with
    | none => encodeIter useHuffman self.table self.iter n
    | some state =>
      match state.encode n with
      | (out, some state) => (out, { self with state := some state })
      | (out, none) =>
        let later := encodeIter useHuffman self.table self.iter (n - out.length)
        (out ++ later.1, later.2)

structure HpackEncoder where
  table : DynamicTable
  iter : Option PartsIter
  state : Option ReprEncodeState
  useHuffman : Bool

def HpackEncoder.new (maxSize : ℕ) (useHuffman : Bool) : HpackEncoder :=
  { table := .withMaxSize maxSize, iter := none, state := none, useHuffman }

/-- `update_max_dynamic_table_size`, which does nothing. -/
def HpackEncoder.updateMaxDynamicTableSize (self : HpackEncoder) (_maxSize : ℕ) : HpackEncoder :=
  self

def HpackEncoder.setParts (self : HpackEncoder) (parts : Parts) : HpackEncoder :=
  { self with iter := some (.new parts) }

/-- `HpackEncoder::encode` with a buffer of `n` octets. The states are taken out of the
holder at the start and put back only when the buffer was filled. -/
def HpackEncoder.encode (self : HpackEncoder) (n : ℕ) : Bytes × HpackEncoder :=
  let r := ReprEncoder.encode { table := self.table, iter := self.iter, state := self.state }
    n self.useHuffman
  if r.1.length = n then
    (r.1, { self with table := r.2.table, iter := r.2.iter, state := r.2.state })
  else (r.1, { self with table := r.2.table, iter := none, state := none })

def HpackEncoder.isFinished (self : HpackEncoder) : Bool := self.iter.isNone && self.state.isNone

end YlongHttp
