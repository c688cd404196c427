import YlongHttp.Verification.Chunked.Grammar
import YlongHttp.Verification.Chunked.Writing

/-! # Chunked bodies from a reader

A reader is read in parts of `CHUNK_SIZE`; the first part that is not full is taken for the last
one. -/

namespace YlongHttp.Chunked

open List Nat
open Client Client.ChunkBody Library
open ChunkBodyDecoder (Decodes decodes_iff)

/-! ## The body that is written, as it is read -/

theorem isExt_nil : IsExt [] := ⟨(by rintro _ ⟨⟩), (by rintro _ ⟨⟩)⟩

theorem digits_hex (n : ℕ) : Digits (hex n) := fun _ hb => digit_of_mem_hex hb

variable {data : Bytes}

theorem isChunk_chunkText (hne : data ≠ []) (hlen : data.length ≤ chunkSize) :
    IsChunk (2 ^ 63) (chunkText data) data where
  size := ⟨hex data.length, [], digits_hex _, isExt_nil, sizeValue_hex _, rfl⟩
  some_data := hne
  fits := lt_of_le_of_lt hlen (by decide)

theorem chunks_reads {reader : Reader} {chunks : List Bytes} {last : Bytes}
    (h : ChunkReads reader chunks last) :
    Chunks (2 ^ 63) (chunks.flatMap chunkText) chunks.flatten := by
  induction h with
  | last => exact .nil
  | @full reader rest data tail chunks _ hfull _ ih =>
    have hne : data ≠ [] := by
      rintro rfl
      exact absurd hfull (by decide)
    rw [flatMap_cons, flatten_cons]
    exact .cons (isChunk_chunkText hne hfull.le) ih

theorem isLast_zero : IsLast (fun ds => ∀ b ∈ ds, b = zero) (str "0\r\n\r\n") := by
  refine ⟨[zero], [], ?_, isExt_nil, by decide⟩
  rintro b hb
  exact mem_singleton.mp hb

theorem body_last (rest : Bytes) :
    (BodyState.size 0).body (str "0\r\n\r\n" ++ rest) = .ok ([], .inr rest) := by
  rw [BodyState.body_eq, run_isLast isLast_zero]
  rfl

theorem body_lastText {last : Bytes} (hlen : last.length < chunkSize) (hne : last ≠ []) :
    (BodyState.size 0).body (lastText last) = .ok (last, .inr []) := by
  have htext : lastText last = chunkText last ++ (str "0\r\n\r\n" ++ []) := by
    simp only [lastText, behindSize, chunkText, append_assoc, append_nil]
  have hchunks : Chunks (2 ^ 63) (chunkText last ++ []) (last ++ []) :=
    .cons (isChunk_chunkText hne hlen.le) .nil
  rw [append_nil, append_nil] at hchunks
  rw [htext, body_chunks hchunks, body_last]
  exact congrArg (fun data => Except.ok (data, _)) (append_nil last)

theorem body_lastText_nil :
    (BodyState.size 0).body (lastText []) = .ok ([], .inr (str "0\r\n\r\n")) := by
  have htext : lastText [] = str "0\r\n\r\n" ++ str "0\r\n\r\n" := by decide
  rw [htext, body_last]

/-! ## A size that is begun anew -/

variable {n m : ℕ}

theorem hex_head (h : 0 < n) : ∃ b rest v, hex n = b :: rest ∧ digit b = some v ∧ 0 < v := by
  induction n using base_induction 16 (by decide) with
  | single m hm => exact ⟨_, [], m, hex_of_lt hm, digit_digitChar hm, h⟩
  | digit m k hk hm ih =>
    obtain ⟨b, rest, v, hhex, hdigit, hv⟩ := ih hm
    exact ⟨b, rest ++ [k.digitChar.toUInt8], v, by rw [hex_append hm hk, hhex]; rfl, hdigit, hv⟩

theorem sizeValue_vain {vain : Bytes} (hlen : 2 ≤ (hex n).length) (hvain : vain ≠ [])
    (hhead : ∀ b ∈ vain.head?, b ∈ (hex n).head?) : n + 256 ≤ sizeValue 0 (vain ++ hex n) := by
  have hn : 0 < n := by
    rcases Nat.eq_zero_or_pos n with rfl | hpos
    · exact absurd hlen (by decide)
    · exact hpos
  obtain ⟨b, rest, v, hhex, hdigit, hv⟩ := hex_head hn
  obtain ⟨d, vain, rfl⟩ := exists_cons_of_ne_nil hvain
  obtain rfl : b = d := by
    have hmem := hhead d rfl
    rw [hhex] at hmem
    exact Option.some.inj hmem
  have htail : n ≤ sizeValue 0 (vain ++ hex n) := by
    rw [sizeValue_append, sizeValue_eq, sizeValue_hex]
    exact Nat.le_add_left _ _
  have hpow : 16 ^ 2 ≤ 16 ^ (vain ++ hex n).length := by
    refine Nat.pow_le_pow_right (by decide) ?_
    rw [length_append]
    omega
  rw [cons_append, sizeValue, sizeValue_eq, hdigit, Option.getD_some, Nat.zero_mul, Nat.zero_add]
  calc n + 256 ≤ sizeValue 0 (vain ++ hex n) + 1 * 16 ^ (vain ++ hex n).length := by omega
    _ ≤ sizeValue 0 (vain ++ hex n) + v * 16 ^ (vain ++ hex n).length :=
      Nat.add_le_add_left (Nat.mul_le_mul_right _ hv) _
    _ = v * 16 ^ (vain ++ hex n).length + sizeValue 0 (vain ++ hex n) := add_comm _ _

theorem body_vain {last vain : Bytes} (hmem : ∀ b ∈ vain, b ∈ hex last.length)
    (hval : last.length + 256 ≤ sizeValue 0 (vain ++ hex last.length)) (content : Bytes) :
    (BodyState.size 0).body (vain ++ lastText last) ≠ .ok (content, .inr []) := by
  have hdigits : Digits (vain ++ hex last.length) := by
    intro b hb
    rcases mem_append.mp hb with hb | hb
    · exact digit_of_mem_hex (hmem b hb)
    · exact digit_of_mem_hex hb
  have htext : vain ++ lastText last =
      (vain ++ hex last.length) ++ ([] ++ (crlf ++ (last ++ (crlf ++ str "0\r\n\r\n")))) := by
    simp only [lastText, behindSize, append_assoc, nil_append]
  have hzero : (str "0\r\n\r\n").length = 5 := by decide
  have hcrlf : crlf.length = 2 := by decide
  rw [htext, BodyState.body_eq, run_line hdigits isExt_nil]
  by_cases hfits : sizeValue 0 (vain ++ hex last.length) < 2 ^ 63
  · rw [if_pos hfits, BodyState.behind, if_neg (by omega), ChunkBodyDecoder.run_data (by omega),
      if_neg]
    · simp
    · rw [length_append, length_append, hzero, hcrlf]
      omega
  · rw [if_neg hfits]
    simp

/-! ## The reads -/

theorem read_flatten {reader rest : Reader} {room : ℕ} (h : reader.read room = (data, rest)) :
    reader.flatten = data ++ rest.flatten ∧ data.length ≤ room := by
  cases reader with
  | nil =>
    cases h
    exact ⟨rfl, zero_le _⟩
  | cons part parts =>
    rw [Reader.read] at h
    cases h
    refine ⟨?_, length_take_le _ _⟩
    split
    · next hle => rw [take_of_length_le hle, flatten_cons]
    · rw [flatten_cons, flatten_cons, ← append_assoc, take_append_drop]

theorem chunkReads_exists (reader : Reader) : ∃ chunks last, ChunkReads reader chunks last := by
  induction hlen : reader.flatten.length using Nat.strong_induction_on generalizing reader with
  | _ k ih =>
    subst hlen
    rcases hread : reader.read chunkSize with ⟨data, rest⟩
    by_cases hfull : data.length = chunkSize
    · have hcontent := (read_flatten hread).1
      obtain ⟨chunks, last, hrest⟩ := ih rest.flatten.length (by
        rw [hcontent, length_append, hfull]
        exact Nat.lt_add_of_pos_left (by decide)) rest rfl
      exact ⟨_, last, .full hread hfull hrest⟩
    · refine ⟨[], data, .last hread (lt_of_le_of_ne ?_ hfull)⟩
      exact (read_flatten hread).2

theorem chunkReads_last_lt {reader : Reader} {chunks : List Bytes} {last : Bytes}
    (h : ChunkReads reader chunks last) : last.length < chunkSize := by
  induction h with
  | last _ hlast => exact hlast
  | full _ _ _ ih => exact ih

theorem chunkReads_length {reader : Reader} {chunks : List Bytes} {last : Bytes}
    (h : ChunkReads reader chunks last) :
    (chunks.flatMap chunkText).length = chunks.length * fullLength := by
  have hcrlf : crlf.length = 2 := by decide
  induction h with
  | last => rfl
  | @full _ _ data _ chunks _ hfull _ ih =>
    have hchunk : (chunkText data).length = fullLength := by
      simp only [chunkText, length_append, hfull, hcrlf, hex_chunkSize_length, fullLength]
      omega
    rw [flatMap_cons, length_append, ih, hchunk, length_cons, succ_mul, add_comm]

def Delivers (reader : Reader) (rooms : ℕ → ℕ) (content : Bytes) : Prop :=
  ∃ n out, Drains dataStep (fromAsyncReader reader) ((List.range n).map rooms) out ∧
    Decodes out content

/-- A buffer ends inside the size of the last chunk. -/
def CutsSize (rooms : ℕ → ℕ) (chunks : List Bytes) (last : Bytes) : Prop :=
  ∃ n, chunks.length * fullLength < ((List.range n).map rooms).sum ∧
    ((List.range n).map rooms).sum < chunks.length * fullLength + (hex last.length).length

theorem owes_fromAsyncReader {reader : Reader} {chunks : List Bytes} {last : Bytes}
    (h : ChunkReads reader chunks last) :
    Owes last (fromAsyncReader reader) (text chunks last) 1 :=
  owes_reads h rfl

theorem sum_range_le (rooms : ℕ → ℕ) (h : n ≤ m) :
    ((List.range n).map rooms).sum ≤ ((List.range m).map rooms).sum := by
  obtain ⟨k, rfl⟩ := Nat.exists_eq_add_of_le h
  rw [range_add, map_append, sum_append_nat]
  exact Nat.le_add_right _ _

theorem take_range (rooms : ℕ → ℕ) (h : n ≤ m) :
    ((List.range m).map rooms).take n = (List.range n).map rooms := by
  rw [← List.map_take, List.take_range, min_eq_left h]

variable {reader : Reader} {rooms : ℕ → ℕ} {chunks : List Bytes} {last : Bytes}

theorem drains_vain (h : ChunkReads reader chunks last) (hrooms : ∀ i, 0 < rooms i) {out : Bytes}
    (hdrains : Drains dataStep (fromAsyncReader reader) ((List.range n).map rooms) out) :
    ∃ vain, out = chunks.flatMap chunkText ++ (vain ++ lastText last) ∧
      (∀ b ∈ vain, b ∈ hex last.length) ∧ (∀ b ∈ vain.head?, b ∈ (hex last.length).head?) ∧
      (vain = [] ↔ ¬CutsSize rooms chunks last) := by
  have hpos : ∀ room ∈ (range n).map rooms, 0 < room := by
    intro room hroom
    obtain ⟨i, -, rfl⟩ := mem_map.mp hroom
    exact hrooms i
  have hpours := ((paysBack last).drains_iff (owes_fromAsyncReader h) hpos).mp hdrains
  obtain ⟨vain, hout, hmem, hhead, hcut⟩ := @Pours.anew _ _ _ (chunks.flatMap chunkText) _ _ _ hpours rfl
  have hfront := chunkReads_length h
  refine ⟨vain, hout, hmem, hhead, hcut.trans ⟨?_, ?_⟩⟩
  · rintro hnone ⟨m, hlt, hgt⟩
    by_cases hm : m ≤ n
    · refine hnone m (by simpa using hm) ?_
      rw [take_range rooms hm, hfront]
      exact ⟨hlt, hgt⟩
    · -- All calls together have room for the whole of it.
      have hlen := hpours.length_le
      have hle := sum_range_le rooms (Nat.le_of_not_le hm)
      rw [hout] at hlen
      simp only [length_append, hfront] at hlen
      omega
  · intro hnone m hm hbetween
    rw [length_map, length_range] at hm
    rw [take_range rooms hm, hfront] at hbetween
    exact hnone ⟨m, hbetween⟩

theorem drains_text (h : ChunkReads reader chunks last) (hrooms : ∀ i, 0 < rooms i)
    (hcut : ¬CutsSize rooms chunks last) :
    ∃ n, Drains dataStep (fromAsyncReader reader) ((List.range n).map rooms) (text chunks last) := by
  have hfront := chunkReads_length h
  obtain ⟨n, hn⟩ := @pours_total _ (anew (hex last.length) (behindSize last)) (text chunks last)
    rooms hrooms fun n => by
      rw [anew, if_neg]
      rintro ⟨hlt, hgt⟩
      refine hcut ⟨n, ?_⟩
      simp only [text, lastText, length_drop, length_append, hfront] at hlt hgt
      omega
  refine ⟨n, ((paysBack last).drains_iff (owes_fromAsyncReader h) ?_).mpr hn⟩
  intro room hroom
  obtain ⟨i, -, rfl⟩ := mem_map.mp hroom
  exact hrooms i

theorem delivers_iff_reads (h : ChunkReads reader chunks last) (hrooms : ∀ i, 0 < rooms i)
    (content : Bytes) :
    Delivers reader rooms content ↔
      last ≠ [] ∧ chunks.flatten ++ last = content ∧ ¬CutsSize rooms chunks last := by
  have hlt := chunkReads_last_lt h
  constructor
  · rintro ⟨n, out, hdrains, hdecodes⟩
    obtain ⟨vain, rfl, hmem, hhead, hcut⟩ := drains_vain h hrooms hdrains
    rw [decodes_iff, body_chunks (chunks_reads h)] at hdecodes
    have huncut : vain = [] := by
      by_contra hvain
      have hlen : 2 ≤ (hex last.length).length := by
        obtain ⟨m, hm⟩ := not_not.mp fun hnone => hvain (hcut.mpr hnone)
        omega
      have hlarge := body_vain hmem (sizeValue_vain hlen hvain hhead)
      rcases hbody : (BodyState.size 0).body (vain ++ lastText last) with e | ⟨later, s | rest⟩
      · rw [hbody] at hdecodes
        cases hdecodes
      · rw [hbody] at hdecodes
        cases hdecodes
      · rw [hbody] at hdecodes
        cases hdecodes
        exact hlarge later hbody
    rw [huncut, nil_append] at hdecodes
    by_cases hne : last = []
    · subst hne
      rw [body_lastText_nil] at hdecodes
      have hrest : str "0\r\n\r\n" = [] := Sum.inr.inj (Prod.mk.inj (Except.ok.inj hdecodes)).2
      exact absurd hrest (by decide)
    · rw [body_lastText hlt hne] at hdecodes
      cases hdecodes
      exact ⟨hne, rfl, hcut.mp huncut⟩
  · rintro ⟨hne, rfl, hcut⟩
    obtain ⟨n, hdrains⟩ := drains_text h hrooms hcut
    refine ⟨n, _, hdrains, decodes_iff.mpr ?_⟩
    rw [text, body_chunks (chunks_reads h), body_lastText hlt hne]
    rfl

/-- A body from a reader arrives as it is exactly if all reads but the last one are full, the last
one yields something, and no buffer ends in its size. -/
theorem reader_delivered {rooms : ℕ → ℕ} (hrooms : ∀ i, 0 < rooms i) (reader : Reader) :
    Delivers reader rooms reader.flatten ↔ ∃ chunks last, ChunkReads reader chunks last ∧
      last ≠ [] ∧ chunks.flatten ++ last = reader.flatten ∧ ¬CutsSize rooms chunks last := by
  constructor
  · intro hdelivers
    obtain ⟨chunks, last, h⟩ := chunkReads_exists reader
    exact ⟨chunks, last, h, (delivers_iff_reads h hrooms _).mp hdelivers⟩
  · rintro ⟨chunks, last, h, hcondition⟩
    exact (delivers_iff_reads h hrooms _).mpr hcondition

theorem reader_delivered_ab : Delivers [str "ab"] (fun _ => 64) (str "ab") := by
  refine (reader_delivered (fun _ => by decide) [str "ab"]).mpr
    ⟨[], str "ab", .last rfl (by decide), by decide, by decide, ?_⟩
  rintro ⟨n, hlt, hgt⟩
  have hhex : (hex (str "ab").length).length = 1 := by decide
  rw [hhex, length_nil] at hgt
  omega

/-- A short read ends the body. -/
theorem shortRead_not_delivered :
    ¬∀ reader : Reader, (∀ part ∈ reader, part ≠ []) → ∀ rooms : ℕ → ℕ, (∀ i, 0 < rooms i) →
      Delivers reader rooms reader.flatten := by
  intro h
  have hreads : ChunkReads [str "ab", str "cd"] [] (str "ab") := .last rfl (by decide)
  have hdelivers := h [str "ab", str "cd"] (by decide) (fun _ => 64) (fun _ => by decide)
  obtain ⟨-, hcontent, -⟩ := (delivers_iff_reads hreads (fun _ => by decide) _).mp hdelivers
  exact absurd hcontent (by decide)

end YlongHttp.Chunked
