import YlongHttp.Model.H2.Error

/-! # Prefix integers (`h2/hpack/integer.rs`) -/

namespace YlongHttp

/-- The state of an integer that does not fit in its prefix: the value so far, and one
more than the weight, in bits, of the next octet. -/
structure IntegerDecoder where
  index : ℕ
  shift : ℕ
  shift_pos : 0 < shift
deriving DecidableEq

/-- `first_byte`; the decoder itself is returned when more octets follow. -/
def IntegerDecoder.firstByte (byte mask : UInt8) : Except IntegerDecoder ℕ :=
  let index := byte &&& mask
  if index < mask then .ok index.toNat
  else .error { index := index.toNat, shift := 1, shift_pos := Nat.one_pos }

/-- `1usize.checked_shl(by)`. -/
def checkedShl (shift : ℕ) : Option ℕ := if shift < 64 then some (2 ^ shift) else none

def checkedMul (a b : ℕ) : Option ℕ := if a * b < usizeBound then some (a * b) else none

def checkedAdd (a b : ℕ) : Option ℕ := if a + b < usizeBound then some (a + b) else none

/-- `next_byte`: the decoder after this octet and, after the last one, the integer. -/
def IntegerDecoder.nextByte (self : IntegerDecoder) (byte : UInt8) :
    Except H2Error (IntegerDecoder × Option ℕ) :=
  match (checkedShl (self.shift - 1)).bind fun weight =>
      (checkedMul weight (byte &&& 0x7f).toNat).bind fun part => checkedAdd part self.index with
  | none => .error (.connectionError .compressionError)
  | some index =>
    .ok ({ index, shift := self.shift + 7, shift_pos := by omega },
      if byte &&& 0x80 = 0 then some index else none)

inductive IntegerEncodeState where
  | first
  | other
  | finish
deriving DecidableEq

structure IntegerEncoder where
  i : ℕ
  mask : UInt8
  pre : UInt8
  state : IntegerEncodeState
deriving DecidableEq

def IntegerEncoder.new (i : ℕ) (mask pre : UInt8) : IntegerEncoder :=
  { i, mask, pre, state := .first }

/-- `next_byte`, with the encoder after it. -/
def IntegerEncoder.nextByte (self : IntegerEncoder) : Option (UInt8 × IntegerEncoder) :=
  match self.state with
  | .first =>
    if self.i < self.mask.toNat then
      some (self.pre ||| UInt8.ofNat self.i, { self with state := .finish })
    else
      some (self.pre ||| self.mask, { self with i := self.i - self.mask.toNat, state := .other })
  | .other =>
    if self.i ≥ 128 then
      some (UInt8.ofNat (self.i &&& 0x7f) ||| 0x80, { self with i := self.i >>> 7 })
    else
      some (UInt8.ofNat (self.i &&& 0x7f), { self with state := .finish })
  | .finish => none

end YlongHttp
