import YlongHttp.Library.Bits
import YlongHttp.Library.PrefixCode
import YlongHttp.Model.Huffman.Codec

/-! # The Huffman code and its decoding automaton

The codes of `huffmanEncodeTable` form a prefix code over the 256 octets and the
end-of-string symbol. A state of `huffmanDecodeTable` stands for the bits read since
the last complete code, its path; the table is checked against the paths once, row by
row, and everything else is derived from that check. -/

namespace YlongHttp

open List
open Library

def huffmanCode (sym : ℕ) : List Bool :=
  bitsOf (huffmanEncodeTable.getD sym (0, 0)).1 (huffmanEncodeTable.getD sym (0, 0)).2

def symbolCode (sym : Fin 257) : List Bool := huffmanCode sym.val

/-- Length and value of the path of every state, and a symbol whose code continues it. -/
def huffmanPaths : List (ℕ × ℕ × ℕ) := [
  (0,0), (1,32), (2,48), (3,48), (4,48), (4,50), (3,99), (4,99), (4,105), (2,32), (3,32), (4,115),
  (4,32), (5,32), (5,45), (3,47), (4,47), (5,47), (5,52), (4,54), (5,54), (5,56), (1,0), (2,58),
  (3,61), (4,61), (5,61), (5,95), (4,100), (5,100), (5,103), (3,58), (4,108), (5,108), (5,110),
  (4,58), (5,114), (5,58), (6,58), (6,67), (2,0), (3,69), (4,69), (5,69), (6,69), (6,71), (5,73),
  (6,73), (6,75), (4,77), (5,77), (6,77), (6,79), (5,81), (6,81), (6,83), (3,0), (4,85), (5,85),
  (6,85), (6,87), (5,106), (6,106), (6,113), (4,0), (5,119), (6,119), (6,121), (5,0), (6,38),
  (7,38), (7,44), (6,0), (7,88), (7,0), (8,33), (9,33), (9,40), (8,0), (9,39), (10,39), (9,0),
  (10,35), (11,35), (10,0), (11,0), (12,0), (12,64), (11,1), (12,93), (12,1), (13,94), (13,1),
  (14,60), (14,1), (15,1), (16,92), (17,92), (18,92), (18,128), (19,128), (17,131), (18,131),
  (19,131), (19,184), (18,153), (19,224), (19,153), (20,153), (20,167), (16,1), (17,129), (18,176),
  (19,176), (20,176), (20,179), (19,216), (20,216), (20,227), (18,129), (19,129), (20,129),
  (21,129), (20,133), (21,133), (21,136), (19,154), (20,154), (21,154), (21,160), (20,164),
  (21,164), (21,170), (17,1), (18,1), (19,178), (20,178), (21,178), (21,185), (20,187), (21,187),
  (21,190), (19,1), (20,198), (21,198), (21,232), (20,1), (21,1), (22,1), (22,137), (21,139),
  (22,139), (22,141), (18,2), (19,147), (20,147), (21,147), (22,147), (22,150), (21,152), (22,152),
  (22,157), (20,165), (21,165), (22,165), (22,168), (21,175), (22,175), (22,182), (19,2), (20,9),
  (21,188), (22,188), (22,197), (21,9), (22,9), (23,9), (22,144), (23,144), (23,148), (20,2),
  (21,171), (22,171), (23,171), (23,215), (22,199), (23,236), (23,199), (24,199), (24,234), (21,2),
  (22,192), (23,192), (24,192), (25,192), (25,200), (24,202), (25,202), (25,210), (23,203),
  (24,218), (25,218), (25,238), (24,203), (25,242), (25,203), (26,203), (22,2), (23,211), (24,211),
  (25,211), (26,211), (26,214), (25,222), (26,222), (26,241), (24,245), (25,245), (26,245),
  (26,247), (25,250), (26,250), (26,252), (23,2), (24,2), (25,2), (26,2), (27,2), (26,4), (27,4),
  (27,6), (25,8), (26,8), (27,8), (27,12), (26,15), (27,15), (27,17), (24,10), (25,19), (26,19),
  (27,19), (27,21), (26,24), (27,24), (27,26), (25,10), (26,28), (27,28), (27,30), (26,10),
  (27,127), (27,10), (28,10), (29,10), (29,22)].map fun (length, sym) =>
    let code := huffmanEncodeTable.getD sym (0, 0)
    (length, code.2 >>> (code.1 - length), sym)

def statePath (state : ℕ) : List Bool :=
  bitsOf (huffmanPaths.getD state (0, 0, 0)).1 (huffmanPaths.getD state (0, 0, 0)).2.1

/-! ## The checks on the tables -/

def codeFits (entry : ℕ × ℕ) : Bool :=
  Nat.blt entry.2 (2 ^ entry.1) && Nat.ble 5 entry.1 && Nat.ble entry.1 30

/-- The code `a` is not a prefix of the code `b`. -/
def codesApart (a b : ℕ × ℕ) : Bool := Nat.blt b.1 a.1 || !Nat.beq (b.2 >>> (b.1 - a.1)) a.2

def codesPairwise : List (ℕ × ℕ) → Bool
  | [] => true
  | a :: rest => (rest.all fun b => codesApart a b && codesApart b a) && codesPairwise rest

def pathInside (path : ℕ × ℕ × ℕ) : Bool :=
  let code := huffmanEncodeTable.getD path.2.2 (0, 0)
  Nat.blt path.2.2 257 && Nat.blt path.2.1 (2 ^ path.1) && Nat.blt path.1 code.1 &&
    Nat.beq (code.2 / 2 ^ (code.1 - path.1)) path.2.1

/-- What one entry of the decoding table must say, for a state with the given path. -/
def entryMatches (path : ℕ × ℕ × ℕ) (nibble : ℕ) (entry : ℕ × ℕ × ℕ) : Bool :=
  let next := huffmanPaths.getD entry.1 (0, 0, 0)
  let bits := path.2.1 * 16 + nibble
  bif Nat.beq (entry.2.2 &&& 4) 4 then
    -- The end-of-string code was completed.
    Nat.ble 30 (path.1 + 4) && Nat.beq (bits / 2 ^ (path.1 + 4 - 30)) (2 ^ 30 - 1)
  else
    Nat.blt entry.1 256 &&
    ((Nat.beq (entry.2.2 &&& 1) 0 == (Nat.blt 7 next.1 || !Nat.beq (next.2.1 + 1) (2 ^ next.1))) ||
      Nat.beq entry.1 0) &&
    bif Nat.beq (entry.2.2 &&& 2) 2 then
      let code := huffmanEncodeTable.getD entry.2.1 (0, 0)
      Nat.blt entry.2.1 256 && Nat.beq (code.1 + next.1) (path.1 + 4) &&
        Nat.beq bits (code.2 * 2 ^ next.1 + next.2.1)
    else Nat.beq next.1 (path.1 + 4) && Nat.beq next.2.1 bits

def rowMatches (path : ℕ × ℕ × ℕ) : ℕ → List (ℕ × ℕ × ℕ) → Bool
  | nibble, [] => Nat.beq nibble 16
  | nibble, entry :: row => entryMatches path nibble entry && rowMatches path (nibble + 1) row

def rowsMatch : List (ℕ × ℕ × ℕ) → List (List (ℕ × ℕ × ℕ)) → Bool
  | [], [] => true
  | path :: paths, row :: rows => rowMatches path 0 row && rowsMatch paths rows
  | _, _ => false

def codeTable : { table : List (ℕ × ℕ) //
    table.length = 257 ∧ table.all codeFits = true ∧ codesPairwise table = true ∧
      bitsOf (table.getD 256 (0, 0)).1 (table.getD 256 (0, 0)).2 = List.replicate 30 true } :=
  ⟨huffmanEncodeTable, by decide +kernel⟩

def pathTable : { paths : List (ℕ × ℕ × ℕ) //
    paths.length = 256 ∧ paths.all pathInside = true ∧ rowsMatch paths huffmanDecodeTable = true } :=
  ⟨huffmanPaths, by decide +kernel⟩

theorem huffmanEncodeTable_length : huffmanEncodeTable.length = 257 := codeTable.2.1

theorem huffmanEncodeTable_fits : huffmanEncodeTable.all codeFits = true := codeTable.2.2.1

theorem huffmanEncodeTable_pairwise : codesPairwise huffmanEncodeTable = true := codeTable.2.2.2.1

theorem huffmanPaths_length : huffmanPaths.length = 256 := pathTable.2.1

theorem huffmanPaths_inside : huffmanPaths.all pathInside = true := pathTable.2.2.1

theorem huffmanDecodeTable_matches : rowsMatch huffmanPaths huffmanDecodeTable = true :=
  pathTable.2.2.2

/-! ## The codes as a prefix code -/

theorem huffmanEncodeTable_entry {sym : ℕ} (h : sym < 257) :
    codeFits (huffmanEncodeTable.getD sym (0, 0)) = true := by
  have hlen : sym < huffmanEncodeTable.length := by
    rw [huffmanEncodeTable_length]
    exact h
  rw [getD_eq_getElem _ _ hlen]
  exact all_eq_true.mp huffmanEncodeTable_fits _ (getElem_mem hlen)

theorem huffmanCode_fits {sym : ℕ} (h : sym < 257) :
    (huffmanEncodeTable.getD sym (0, 0)).2 < 2 ^ (huffmanEncodeTable.getD sym (0, 0)).1 ∧
      5 ≤ (huffmanEncodeTable.getD sym (0, 0)).1 ∧
      (huffmanEncodeTable.getD sym (0, 0)).1 ≤ 30 := by
  have hfit := huffmanEncodeTable_entry h
  simp only [codeFits, Bool.and_eq_true, Nat.blt_eq, Nat.ble_eq] at hfit
  exact ⟨hfit.1.1, hfit.1.2, hfit.2⟩

theorem codesPairwise_apart (l : List (ℕ × ℕ)) (h : codesPairwise l = true) (i j : ℕ)
    (hi : i < l.length) (hj : j < l.length) (hne : i ≠ j) :
    codesApart l[i] l[j] = true := by
  induction l generalizing i j with
  | nil => simp at hi
  | cons a rest ih =>
    simp only [codesPairwise, Bool.and_eq_true, all_eq_true] at h
    obtain ⟨hhead, hrest⟩ := h
    cases i with
    | zero =>
      cases j with
      | zero => exact absurd rfl hne
      | succ j => exact (hhead _ (getElem_mem _)).1
    | succ i =>
      cases j with
      | zero => exact (hhead _ (getElem_mem _)).2
      | succ j => exact ih hrest i j (by simpa using hi) (by simpa using hj) (by omega)

theorem huffmanCode_prefixFree : PrefixFree symbolCode := by
  intro a b h
  by_contra hne
  have ha := huffmanCode_fits a.isLt
  have hb := huffmanCode_fits b.isLt
  have hla : a.val < huffmanEncodeTable.length := by
    rw [huffmanEncodeTable_length]
    exact a.isLt
  have hlb : b.val < huffmanEncodeTable.length := by
    rw [huffmanEncodeTable_length]
    exact b.isLt
  have hapart := codesPairwise_apart _ huffmanEncodeTable_pairwise a.val b.val hla hlb
    fun hv => hne (Fin.ext hv)
  rw [← getD_eq_getElem _ (0, 0) hla, ← getD_eq_getElem _ (0, 0) hlb] at hapart
  obtain ⟨hle, hdiv⟩ := bitsOf_prefix ha.1 hb.1 h
  simp only [codesApart, Nat.shiftRight_eq_div_pow, hdiv, Bool.or_eq_true, Nat.blt_eq] at hapart
  rcases hapart with hlt | hbeq
  · omega
  · simp at hbeq

theorem statePath_inside {state : ℕ} (h : state < 256) : Inside symbolCode (statePath state) := by
  have hlen : state < huffmanPaths.length := by
    rw [huffmanPaths_length]
    exact h
  have hcheck := all_eq_true.mp huffmanPaths_inside _ (getElem_mem hlen)
  rw [← getD_eq_getElem _ (0, 0, 0) hlen] at hcheck
  simp only [pathInside, Bool.and_eq_true, Nat.blt_eq, Nat.beq_eq] at hcheck
  obtain ⟨⟨⟨hsym, hval⟩, hlt⟩, hdiv⟩ := hcheck
  refine ⟨⟨_, hsym⟩, ?_, ?_⟩
  · rw [prefix_iff_eq_take]
    simp only [statePath, symbolCode, huffmanCode, bitsOf_length]
    rw [bitsOf_take _ _ _ hlt.le, hdiv]
  · intro heq
    have hl := congrArg length heq
    simp only [statePath, symbolCode, huffmanCode, bitsOf_length] at hl
    omega

theorem statePath_zero : statePath 0 = [] := rfl

theorem huffmanCode_eos : huffmanCode 256 = List.replicate 30 true := codeTable.2.2.2.2

theorem ones_inside {k : ℕ} (hk : k ≤ 7) : Inside symbolCode (List.replicate k true) := by
  refine ⟨⟨256, by omega⟩, ?_, ?_⟩
  · rw [symbolCode, huffmanCode_eos, show 30 = k + (30 - k) by omega, ← replicate_append_replicate]
    exact prefix_append _ _
  · intro heq
    have hl := congrArg length heq
    rw [symbolCode, huffmanCode_eos, length_replicate, length_replicate] at hl
    omega

end YlongHttp
