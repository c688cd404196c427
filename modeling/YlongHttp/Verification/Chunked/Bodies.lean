import YlongHttp.Verification.Chunked.Octets

/-! # The chunks of a body, one after the other -/

namespace YlongHttp.Chunked

open List BodyState
open Client (hex crlf)

/-! ## Sizes -/

/-- The value of the digits behind those of `acc`. -/
def sizeValue : ℕ → Bytes → ℕ
  | acc, [] => acc
  | acc, b :: rest => sizeValue (acc * 16 + (digit b).getD 0) rest

theorem sizeValue_eq (acc : ℕ) (ds : Bytes) :
    sizeValue acc ds = acc * 16 ^ ds.length + sizeValue 0 ds := by
  induction ds generalizing acc with
  | nil => simp [sizeValue]
  | cons d ds ih =>
    rw [sizeValue, sizeValue, ih, ih (0 * 16 + _), length_cons, pow_succ]
    ring

theorem sizeValue_append (acc : ℕ) (ds ds' : Bytes) :
    sizeValue acc (ds ++ ds') = sizeValue (sizeValue acc ds) ds' := by
  induction ds generalizing acc with
  | nil => rfl
  | cons d ds ih => exact ih _

theorem run_digits {acc : ℕ} {ds rest : Bytes} (hds : ∀ b ∈ ds, digit b ≠ none)
    (hacc : acc < 2 ^ 63) :
    (size acc).run (ds ++ rest) =
      if sizeValue acc ds < 2 ^ 63 then (size (sizeValue acc ds)).run rest
      else .error .invalidInput := by
  induction ds generalizing acc with
  | nil => exact (if_pos hacc).symm
  | cons d ds ih =>
    obtain ⟨v, hv⟩ := Option.ne_none_iff_exists'.mp (hds d (.head _))
    rw [cons_append, ChunkBodyDecoder.run_digit hv, hexToDecimal, sizeValue, hv, Option.getD_some]
    by_cases hlt : acc * 16 + v < 2 ^ 63
    · rw [if_pos hlt]
      exact ih (fun b hb => hds b (.tail d hb)) hlt
    · rw [if_neg hlt, if_neg]
      · rfl
      · rw [sizeValue_eq]
        have hone : 1 ≤ 16 ^ ds.length := Nat.one_le_pow _ _ (by decide)
        have hmul : acc * 16 + v ≤ (acc * 16 + v) * 16 ^ ds.length := Nat.le_mul_of_pos_right _ hone
        omega

theorem digit_digitChar {n : ℕ} (h : n < 16) : digit n.digitChar.toUInt8 = some n := by
  interval_cases n <;> decide

theorem hex_of_lt {n : ℕ} (h : n < 16) : hex n = [n.digitChar.toUInt8] := by
  rw [hex, Nat.toDigits_of_lt_base h]
  rfl

theorem hex_append {n d : ℕ} (hn : 0 < n) (hd : d < 16) :
    hex (16 * n + d) = hex n ++ [d.digitChar.toUInt8] := by
  rw [hex, ← Nat.toDigits_append_toDigits (by decide) hn hd, map_append, Nat.toDigits_of_lt_base hd]
  rfl

theorem digit_of_mem_hex {n : ℕ} {b : UInt8} (h : b ∈ hex n) : digit b ≠ none := by
  induction n using Nat.base_induction 16 (by decide) with
  | single m hm =>
    rw [hex_of_lt hm, mem_singleton] at h
    rw [h, digit_digitChar hm]
    nofun
  | digit m k hk hm ih =>
    rw [hex_append hm hk, mem_append, mem_singleton] at h
    rcases h with h | h
    · exact ih h
    · rw [h, digit_digitChar hk]
      nofun

theorem sizeValue_hex (n : ℕ) : sizeValue 0 (hex n) = n := by
  induction n using Nat.base_induction 16 (by decide) with
  | single m hm =>
    rw [hex_of_lt hm, sizeValue, digit_digitChar hm]
    simp [sizeValue]
  | digit m k hk hm ih =>
    rw [hex_append hm hk, sizeValue_append, ih, sizeValue, digit_digitChar hk]
    simp [sizeValue, Nat.mul_comm]

/-! ## One chunk -/

theorem digit_cr : digit cr = none := by decide

theorem run_sizeEnd (n : ℕ) (rest : Bytes) :
    (size n).run (crlf ++ rest) =
      (if n = 0 then dataCr n else data n n).run rest := by
  have hcr : (size n).octet cr = .ok (some (.sizeLf n)) := by
    rw [octet, digit_cr]
    exact if_pos rfl
  have hlf : (sizeLf n).octet lf =
      .ok (some (if n = 0 then .dataCr n else .data n n)) := by rw [octet, if_pos rfl]
  change (size n).run (cr :: lf :: rest) = _
  rw [run_step hcr rfl, run_step hlf rfl]

theorem run_dataEnd (n : ℕ) (rest : Bytes) :
    (dataCr n).run (crlf ++ rest) = .ok ([], .inr (n, rest)) := by
  have hcr : (dataCr n).octet cr = .ok (some (.dataLf n)) := by
    rw [octet, if_pos rfl]
  change (dataCr n).run (cr :: lf :: rest) = _
  rw [run_step hcr rfl]
  rfl

/-! ## The loop -/

namespace ChunkBodyDecoder

def more (chunk : Chunk) : Except HttpError (ChunkBodyDecoder × List Chunk × Bytes) →
    Except HttpError (ChunkBodyDecoder × List Chunk × Bytes)
  | .error e => .error e
  | .ok (self, chunks, rest) => .ok (self, chunk :: chunks, rest)

theorem not_chunkTrailer {d : ChunkBodyDecoder} {s : BodyState} (h : Represents d s) :
    d.isChunkTrailer = false := by
  obtain ⟨num, f, g, h⟩ := h
  cases s with
  | data n left =>
    obtain ⟨-, -, rfl⟩ := h
    rfl
  | dataCr n => rcases h with rfl | rfl <;> rfl
  | size | ext | sizeLf | dataLf =>
    subst h
    rfl

theorem represents_chunkNum {d : ChunkBodyDecoder} {count : ℕ} (h : Represents d (.size count))
    (num : ℕ) : Represents { d with chunkNum := num } (.size count) := by
  obtain ⟨_, f, g, rfl⟩ := h
  exact ⟨num, f, g, rfl⟩

theorem represents_new : Represents new (.size 0) := ⟨0, false, false, rfl⟩

variable {d : ChunkBodyDecoder} {s : BodyState} {buf data rest : Bytes} {n : ℕ}

theorem decodeLoop_chunk (h : Represents d s) (hrun : s.run buf = .ok (data, .inr (n, rest)))
    (hn : n ≠ 0) :
    ∃ next chunk, Represents next (.size 0) ∧ chunk.data = data ∧ chunk.size = n ∧
      ∀ fuel, decodeLoop (fuel + 1) d buf = if rest.isEmpty then some (.ok (next, [chunk], rest))
        else (decodeLoop fuel next rest).map (more chunk) := by
  have hround := round_agrees h buf
  rw [hrun] at hround
  obtain ⟨next, chunk, hanswer, hnext, hlast, hdata, htrailer, hcomp, hsize⟩ := hround
  rw [decide_eq_false hn] at hlast
  have hsame : { next with isLastChunk := false } = next := by rw [← hlast]
  rw [hsame] at hnext
  refine ⟨_, { chunk with id := next.chunkNum }, represents_chunkNum hnext (next.chunkNum + 1),
    hdata, hsize, fun fuel => ?_⟩
  have hmatch : matchDecodeResult next { chunk with id := next.chunkNum } rest =
      ({ next with chunkNum := next.chunkNum + 1 }, rest.isEmpty) := by
    have hdone : ({ chunk with id := next.chunkNum } : Chunk).isComplete = true := hcomp
    rw [matchDecodeResult, hdone, hlast]
  rw [decodeLoop, hanswer]
  dsimp only
  rw [htrailer]
  dsimp only
  rw [htrailer] at hmatch
  rw [hmatch]
  cases rest.isEmpty <;> rfl

theorem decodeLoop_last (h : Represents d s) (hrun : s.run buf = .ok (data, .inr (0, rest))) :
    ∃ next chunk, Represents next (.size 0) ∧ chunk.data = data ∧ chunk.size = 0 ∧
      chunk.state = .finish ∧
      ∀ fuel, decodeLoop (fuel + 1) d buf = some (.ok (next, [chunk], rest)) := by
  have hround := round_agrees h buf
  rw [hrun] at hround
  obtain ⟨next, chunk, hanswer, hnext, hlast, hdata, htrailer, hcomp, hsize⟩ := hround
  rw [decide_eq_true rfl] at hlast
  refine ⟨_, { chunk with id := next.chunkNum }, represents_chunkNum hnext 0, hdata, hsize,
    of_decide_eq_true hcomp, fun fuel => ?_⟩
  have hmatch : matchDecodeResult next { chunk with id := next.chunkNum } rest =
      ({ next with isLastChunk := false, chunkNum := 0 }, true) := by
    have hdone : ({ chunk with id := next.chunkNum } : Chunk).isComplete = true := hcomp
    rw [matchDecodeResult, hdone, hlast]
  rw [decodeLoop, hanswer]
  dsimp only
  rw [htrailer]
  dsimp only
  rw [htrailer] at hmatch
  rw [hmatch]

theorem decodeLoop_open {s' : BodyState} (h : Represents d s)
    (hrun : s.run buf = .ok (data, .inl s')) :
    ∃ next chunk, Represents next s' ∧ chunk.data = data ∧ chunk.size = s'.total ∧
      chunk.isComplete = false ∧
      ∀ fuel, decodeLoop (fuel + 1) d buf = some (.ok (next, [chunk], [])) := by
  have hround := round_agrees h buf
  rw [hrun] at hround
  obtain ⟨next, chunk, hanswer, hnext, hdata, htrailer, hcomp, hsize⟩ := hround
  refine ⟨next, { chunk with id := next.chunkNum }, hnext, hdata, hsize, hcomp, fun fuel => ?_⟩
  have hmatch : matchDecodeResult next { chunk with id := next.chunkNum } [] = (next, true) := by
    have hopen : ({ chunk with id := next.chunkNum } : Chunk).isComplete = false := hcomp
    rw [matchDecodeResult, hopen, not_chunkTrailer hnext]
    exact if_neg (by nofun)
  rw [decodeLoop, hanswer]
  dsimp only
  rw [htrailer]
  dsimp only
  rw [htrailer] at hmatch
  rw [hmatch]

theorem decodeLoop_error {e : HttpError} (h : Represents d s) (hrun : s.run buf = .error e)
    (fuel : ℕ) : decodeLoop (fuel + 1) d buf = some (.error .invalidInput) := by
  have hround := round_agrees h buf
  rw [hrun] at hround
  have hanswer : d.round buf = invalid := hround
  rw [decodeLoop, hanswer]
  rfl

end ChunkBodyDecoder

end YlongHttp.Chunked
