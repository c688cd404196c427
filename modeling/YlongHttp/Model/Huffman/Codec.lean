import YlongHttp.Model.Huffman.Tables

/-! # Huffman coding of string literals (`huffman/mod.rs`) -/

namespace YlongHttp

def toBeBytes (v : ℕ) : Bytes := (List.range 8).map fun i => UInt8.ofNat (v >>> (56 - 8 * i))

/-- `u64::MAX`. -/
def u64Max : ℕ := 2 ^ 64 - 1

def rotateRight (v k : ℕ) : ℕ := (v >>> k) ||| ((v <<< (64 - k)) % 2 ^ 64)

/-- The local variables of `huffman_encode`: the octets already written, the 64-bit
window being filled from the left, and the number of its bits not filled yet. -/
structure HuffmanEncoder where
  dst : Bytes
  state : ℕ
  unfilled : ℕ

/-- The body of the loop of `huffman_encode`. -/
def HuffmanEncoder.push (acc : HuffmanEncoder) (byte : UInt8) : HuffmanEncoder :=
  let (nbits, code) := huffmanEncodeTable.getD byte.toNat (0, 0)
  if nbits < acc.unfilled then
    { acc with
      state := acc.state ||| ((code <<< (acc.unfilled - nbits)) % 2 ^ 64)
      unfilled := acc.unfilled - nbits }
  else if acc.unfilled = nbits then
    { dst := acc.dst ++ toBeBytes (acc.state ||| code), state := 0, unfilled := 64 }
  else
    -- The code does not fit: its high bits complete the window, the low ones start the next.
    let rotate := rotateRight code (nbits - acc.unfilled)
    let mask := u64Max >>> (64 - acc.unfilled)
    { dst := acc.dst ++ toBeBytes (acc.state ||| (rotate &&& mask))
      state := rotate &&& (u64Max - mask)
      unfilled := 64 - (nbits - acc.unfilled) }

/-- The octets still in the window, the last one filled up with ones. -/
def HuffmanEncoder.flush (acc : HuffmanEncoder) : Bytes :=
  if acc.unfilled ≠ 64 then
    let state := acc.state ||| (u64Max >>> (64 - acc.unfilled))
    acc.dst ++ (toBeBytes state).take (8 - (acc.unfilled >>> 3))
  else acc.dst

def huffmanEncode (src : Bytes) : Bytes :=
  (src.foldl HuffmanEncoder.push { dst := [], state := 0, unfilled := 64 }).flush

structure HuffmanDecoder where
  state : ℕ
  flags : ℕ
  vec : Bytes
deriving DecidableEq

def HuffmanDecoder.new : HuffmanDecoder := { state := 0, flags := 0, vec := [] }

/-- One look-up in `HUFFMAN_DECODE`; `none` is `InvalidHuffmanCode`. -/
def HuffmanDecoder.step (d : HuffmanDecoder) (nibble : ℕ) : Option HuffmanDecoder :=
  let (state, result, flags) := (huffmanDecodeTable.getD d.state []).getD nibble (0, 0, 0)
  if flags &&& 4 = 4 then none
  else
    some
      { state, flags
        vec := if flags &&& 2 = 2 then d.vec ++ [UInt8.ofNat result] else d.vec }

/-- The body of the loop of `huffman_decode_inner`: the left and then the right half of
an octet. -/
def HuffmanDecoder.octet (d : HuffmanDecoder) (byte : UInt8) : Option HuffmanDecoder :=
  (d.step (byte.toNat >>> 4)).bind fun d' => d'.step (byte.toNat &&& 0xf)

def HuffmanDecoder.decode (d : HuffmanDecoder) (src : Bytes) : Option HuffmanDecoder :=
  src.foldlM HuffmanDecoder.octet d

/-- `huffman_decode`, which appends to `dst`. -/
def huffmanDecode (src dst : Bytes) : Option Bytes :=
  (HuffmanDecoder.decode { state := 0, flags := 0, vec := dst } src).bind fun d =>
    if d.state ≠ 0 ∧ d.flags &&& 1 = 0 then none else some d.vec

def HuffmanDecoder.finish (d : HuffmanDecoder) : Option Bytes :=
  if d.state ≠ 0 ∧ d.flags &&& 1 = 0 then none else some d.vec

end YlongHttp
