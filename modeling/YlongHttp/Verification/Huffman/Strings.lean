import YlongHttp.Verification.Huffman.Correctness

/-! # Strings that are coded at one time and in segments -/

namespace YlongHttp

open List
open Library

theorem octetBits_injective {a b : Bytes} (h : octetBits a = octetBits b) : a = b := by
  induction a generalizing b with
  | nil =>
    have hlen := congrArg length h
    rw [octetBits_length, octetBits_length, length_nil, Nat.mul_zero] at hlen
    exact (length_eq_zero_iff.mp (by omega)).symm
  | cons x a ih =>
    cases b with
    | nil =>
      have hlen := congrArg length h
      rw [octetBits_length, octetBits_length, length_nil, length_cons] at hlen
      omega
    | cons y b =>
      rw [octetBits_cons, octetBits_cons] at h
      obtain ⟨hfirst, hrest⟩ := append_inj h (by simp)
      have hxy : x.toNat = y.toNat := bitsOf_injective x.toNat_lt y.toNat_lt hfirst
      rw [UInt8.toNat_inj.mp hxy, ih hrest]

theorem spelling_unique {a b out : Bytes} {j k : ℕ} (hj : j ≤ 7) (hk : k ≤ 7)
    (ha : octetBits a = codeBits out ++ List.replicate j true)
    (hb : octetBits b = codeBits out ++ List.replicate k true) : a = b := by
  have hlen := congrArg length ha
  have hlen' := congrArg length hb
  simp only [octetBits_length, length_append, length_replicate] at hlen hlen'
  obtain rfl : j = k := by omega
  exact octetBits_injective (ha.trans hb.symm)

def HuffmanDecoder.decodeSegments (d : HuffmanDecoder) : List Bytes → Option HuffmanDecoder
  | [] => some d
  | segment :: segments => (d.decode segment).bind fun d => decodeSegments d segments

theorem HuffmanDecoder.decodeSegments_eq (d : HuffmanDecoder) (segments : List Bytes) :
    d.decodeSegments segments = d.decode segments.flatten := by
  induction segments generalizing d with
  | nil => rfl
  | cons segment segments ih =>
    rw [decodeSegments, flatten_cons, decode_append]
    cases d.decode segment with
    | none => rfl
    | some d' => exact ih d'

theorem huffmanDecode_nil (src : Bytes) :
    huffmanDecode src [] = (HuffmanDecoder.new.decode src).bind HuffmanDecoder.finish := rfl

/-- What is encoded is decoded; a string is decoded exactly if it is a sequence of codes with at
most seven ones behind them, and is then the only one that is decoded to its result; segments are
decoded as the whole. -/
theorem huffman_coding :
    (∀ s, huffmanDecode (huffmanEncode s) [] = some s) ∧
      (∀ src out, huffmanDecode src [] = some out ↔
        ∃ k ≤ 7, octetBits src = codeBits out ++ List.replicate k true) ∧
      (∀ src out, huffmanDecode src [] = some out → huffmanEncode out = src) ∧
      ∀ segments, (HuffmanDecoder.new.decodeSegments segments).bind HuffmanDecoder.finish =
        huffmanDecode segments.flatten [] := by
  refine ⟨huffmanDecode_huffmanEncode, huffmanDecode_iff, ?_, ?_⟩
  · intro src out h
    obtain ⟨k, hk, hsrc⟩ := (huffmanDecode_iff src out).mp h
    obtain ⟨j, hj, hout⟩ := octetBits_huffmanEncode out
    exact spelling_unique hj hk hout hsrc
  · intro segments
    rw [HuffmanDecoder.decodeSegments_eq, huffmanDecode_nil]

end YlongHttp
