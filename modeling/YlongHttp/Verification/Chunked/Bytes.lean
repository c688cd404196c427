import YlongHttp.Verification.Chunked.Readers

/-! # Chunked bodies from bytes

A body of less than two full chunks is written like one from a reader. With two full chunks it
has no end: the second of them is begun again and again. -/

namespace YlongHttp.Chunked

open List
open Client Client.ChunkBody Library
open ChunkBodyDecoder (Decodes)

/-! ## A reader of the same bytes -/

def readerAt (bytes : Bytes) : ℕ → Reader
  | 0 => [bytes]
  | count + 1 => ((readerAt bytes count).read chunkSize).2

def chunkAt (bytes : Bytes) (count : ℕ) : Bytes := (bytes.drop (count * chunkSize)).take chunkSize

theorem read_single (part : Bytes) :
    Reader.read [part] chunkSize =
      (part.take chunkSize, if part.length ≤ chunkSize then [] else [part.drop chunkSize]) := rfl

theorem readerAt_read {bytes : Bytes} {count : ℕ} (hcnt : count ≤ 1) :
    (readerAt bytes count).read chunkSize = (chunkAt bytes count, readerAt bytes (count + 1)) := by
  refine Prod.ext ?_ rfl
  rcases Nat.le_one_iff_eq_zero_or_eq_one.mp hcnt with rfl | rfl
  · rw [chunkAt, Nat.zero_mul, drop_zero]
    rfl
  · rw [readerAt, readerAt, read_single, chunkAt, Nat.one_mul]
    dsimp only
    split
    · next hshort =>
        rw [drop_of_length_le hshort, take_nil]
        rfl
    · rw [read_single]

def Agree (body : BytesBody) (self : ChunkBody) : Prop :=
  ∃ reader chunk, body.encoder = { self with reader, chunk }

/-- A chunk is in turn in both, or is in turn with the next load. -/
structure InTurn (bytes : Bytes) (body : BytesBody) (chunks : ChunkBody) (n : ℕ) : Prop where
  few : n ≤ 1
  inside : n * chunkSize ≤ bytes.length
  count : body.chunkCount = n
  fresh : chunks.readFlag = false → chunks.reader = readerAt bytes n
  loaded : chunks.readFlag = true → chunks.reader = readerAt bytes (n + 1) ∧
    chunks.chunk = chunkAt bytes n ∧ body.chunkLast = min (bytes.length - n * chunkSize) chunkSize

structure Same (bytes : Bytes) (body : BytesBody) (chunks : ChunkBody) : Prop where
  source : body.source = bytes
  agree : Agree body chunks
  inTurn : chunks.dataState = .encoding → chunks.chunkState ≠ .finish →
    ∃ n, InTurn bytes body chunks n

theorem same_fromBytes (bytes : Bytes) :
    Same bytes (.fromBytes bytes) (fromAsyncReader [bytes]) where
  source := rfl
  agree := ⟨[], [], rfl⟩
  inTurn _ _ := ⟨0, Nat.zero_le 1, Nat.zero_le _, rfl, fun _ => rfl, nofun⟩

/-! ## A round of both -/

section Round

variable {bytes : Bytes} {body : BytesBody} {self : ChunkBody} {count room : ℕ}

theorem chunkAt_eq (bytes : Bytes) (count : ℕ) :
    (bytes.drop (count * chunkSize)).take (min (bytes.length - count * chunkSize) chunkSize) =
      chunkAt bytes count := by
  rw [chunkAt, Nat.min_comm, ← take_take, ← length_drop, take_length]

theorem chunkAt_length (bytes : Bytes) (count : ℕ) :
    (chunkAt bytes count).length = min chunkSize (bytes.length - count * chunkSize) := by
  rw [chunkAt, length_take, length_drop]

theorem load_read (h : body.encoder.readFlag = true) : body.load = { body with
    encoder := { body.encoder with
      chunk := (body.source.drop (body.chunkCount * chunkSize)).take body.chunkLast } } := by
  simp only [BytesBody.load, h, if_true]

theorem load_fresh (h : body.encoder.readFlag = false) : body.load = { body with
    chunkLast := min (body.source.length - body.chunkCount * chunkSize) chunkSize
    encoder := { body.encoder with
      readFlag := true
      chunkIdx := 0
      chunk := chunkAt body.source body.chunkCount } } := by
  simp only [BytesBody.load, h, Bool.false_eq_true, if_false, chunkAt_eq]

theorem load_inTurn {reader : Reader} {chunk : Bytes} (hsource : body.source = bytes)
    (hagree : body.encoder = { self with reader, chunk }) (h : InTurn bytes body self count) :
    body.load.encoder = { self.load with reader } ∧ self.load.readFlag = true ∧
      InTurn bytes body.load self.load count := by
  have hsame : body.encoder.readFlag = self.readFlag := by rw [hagree]
  cases hflag : self.readFlag with
  | true =>
    obtain ⟨hreader, hchunk, hlast⟩ := h.loaded hflag
    have hload : self.load = self := by rw [load, if_pos hflag]
    have hbody : body.load.encoder = { self with reader } := by
      rw [load_read (hsame.trans hflag), hsource, h.count, hlast, chunkAt_eq, hagree, ← hchunk]
    have hrest : InTurn bytes body.load self count := by
      rw [load_read (hsame.trans hflag)]
      exact ⟨h.few, h.inside, h.count, h.fresh, h.loaded⟩
    rw [hload]
    exact ⟨hbody, hflag, hrest⟩
  | false =>
    have hload : self.load = { self with
        reader := readerAt bytes (count + 1), chunk := chunkAt bytes count
        readFlag := true, chunkIdx := 0 } := by
      rw [load, hflag, if_neg (by simp), h.fresh hflag, readerAt_read h.few]
    rw [hload, load_fresh (hsame.trans hflag), hsource, h.count, hagree]
    exact ⟨rfl, rfl, h.few, h.inside, rfl, (by simp), fun _ => ⟨rfl, rfl, rfl⟩⟩

theorem encode_reader (self : ChunkBody) (reader : Reader) (room : ℕ) :
    ({ self with reader } : ChunkBody).encode room =
      ((self.encode room).1, { (self.encode room).2 with reader }) := by
  cases hst : self.chunkState with
  | metaExt => simp only [encode, hst]
  | metaSize =>
    simp only [encode, hst, metaSizeEncode]
    split <;> split <;> simp only [hst]
  | metaCrlf =>
    simp only [encode, hst, metaCrlfEncode]
    split <;> rfl
  | data =>
    simp only [encode, hst, dataEncode]
    split <;> rfl
  | dataCrlf =>
    simp only [encode, hst, dataCrlfEncode]
    split <;> rfl
  | finish =>
    simp only [encode, hst, finishEncode]
    split <;> rfl

theorem encode_finish (hst : self.chunkState = .finish) (reader : Reader) (chunk : Bytes)
    (room : ℕ) :
    ({ self with reader, chunk } : ChunkBody).encode room =
      ((self.encode room).1, { (self.encode room).2 with reader, chunk }) ∧
    (self.encode room).2.chunkState = .finish := by
  simp only [encode, hst, finishEncode]
  split <;> exact ⟨rfl, rfl⟩

theorem load_state (self : ChunkBody) : self.load.chunkState = self.chunkState := by
  rw [load]
  split <;> rfl

theorem load_agree (hagree : Agree body self) :
    Agree body.load self.load ∧ body.load.source = body.source := by
  obtain ⟨reader, chunk, hagree⟩ := hagree
  have hsame : body.encoder.readFlag = self.readFlag := by rw [hagree]
  cases hflag : self.readFlag with
  | true =>
    have hload : self.load = self := by rw [load, if_pos hflag]
    rw [hload, load_read (hsame.trans hflag), hagree]
    exact ⟨⟨reader, _, rfl⟩, rfl⟩
  | false =>
    rw [load, hflag, if_neg (by simp), load_fresh (hsame.trans hflag), hagree]
    exact ⟨⟨reader, _, rfl⟩, rfl⟩

theorem InTurn.keep {next : ChunkBody} {encoder : ChunkBody} (h : InTurn bytes body self count)
    (hreader : next.reader = self.reader) (hchunk : next.chunk = self.chunk)
    (hflag : next.readFlag = self.readFlag) :
    InTurn bytes { body with encoder } next count where
  few := h.few
  inside := h.inside
  count := h.count
  fresh hfresh := by
    rw [hreader]
    exact h.fresh (hflag ▸ hfresh)
  loaded hloaded := by
    rw [hreader, hchunk]
    exact h.loaded (hflag ▸ hloaded)

theorem encode_inTurn (hshort : bytes.length < 2 * chunkSize) (h : InTurn bytes body self count)
    (hflag : self.readFlag = true) (encoder : ChunkBody)
    (hnext : (self.encode room).2.chunkState ≠ .finish) (hstart : self.chunkState ≠ .finish) :
    ∃ n, InTurn bytes
      { body with encoder, chunkCount := (self.statusCount room).getD body.chunkCount }
      (self.encode room).2 n := by
  rw [encode] at hnext ⊢
  rw [statusCount]
  cases hst : self.chunkState with
  | metaExt => exact ⟨count, h.keep rfl rfl rfl⟩
  | metaSize =>
    dsimp only
    rw [metaSizeEncode]
    refine ⟨count, ?_⟩
    split
    · split <;> exact h.keep rfl rfl rfl
    · split <;> exact h.keep rfl rfl rfl
  | metaCrlf =>
    dsimp only
    rw [metaCrlfEncode]
    refine ⟨count, ?_⟩
    split <;> exact h.keep rfl rfl rfl
  | dataCrlf =>
    dsimp only
    rw [dataCrlfEncode]
    refine ⟨count, ?_⟩
    split <;> exact h.keep rfl rfl rfl
  | finish => exact absurd hst hstart
  | data =>
    rw [hst] at hnext
    dsimp only at hnext ⊢
    rw [dataEncode] at hnext ⊢
    generalize writeData self.chunk self.chunkIdx room = w at hnext ⊢
    obtain ⟨out, all⟩ := w
    cases all with
    | false => exact ⟨count, h.keep rfl rfl rfl⟩
    | true =>
      dsimp only at hnext ⊢
      by_cases hfull : self.chunk.length = chunkSize
      · obtain ⟨hreader, hchunk, -⟩ := h.loaded hflag
        have hlen := chunkAt_length bytes count
        rw [← hchunk, hfull] at hlen
        have hzero : count = 0 := by
          have hfew := h.few
          have hsize : chunkSize = 1024 := rfl
          rcases Nat.le_one_iff_eq_zero_or_eq_one.mp hfew with hzero | rfl
          · exact hzero
          · omega
        subst hzero
        refine ⟨1, le_rfl, by omega, ?_, fun _ => hreader, (by simp)⟩
        dsimp only
        rw [if_pos rfl, if_pos hfull]
        rfl
      · rw [if_neg hfull] at hnext
        exact absurd rfl hnext

theorem lockstep (hshort : bytes.length < 2 * chunkSize) :
    Lockstep BytesBody.step dataStep (Same bytes) := by
  intro fuel body self room hsame hroom
  obtain ⟨reader, chunk, hagree⟩ := hsame.agree
  have hst : body.encoder.dataState = self.dataState := by rw [hagree]
  rw [BytesBody.step, dataStep, hst]
  cases hdata : self.dataState with
  | finish =>
    rw [if_pos rfl]
    exact .some .none
  | complete =>
    rw [if_neg (by simp), step, hdata]
    refine .some (.some ?_)
    dsimp only
    rw [BytesBody.trailerEncode, hagree, ChunkBody.trailerEncode, ChunkBody.trailerEncode]
    dsimp only
    generalize writeData (str "0\r\n\r\n") self.trailerIdx room = w
    obtain ⟨out, all⟩ := w
    cases all with
    | true => exact ⟨rfl, hsame.source, ⟨reader, chunk, rfl⟩, (by simp)⟩
    | false =>
      refine ⟨rfl, hsame.source, ⟨reader, chunk, rfl⟩, fun hencoding => ?_⟩
      cases hdata.symm.trans hencoding
  | encoding =>
    rw [if_neg (by simp), step, hdata]
    refine .some (.some ?_)
    dsimp only
    rw [BytesBody.bytesEncode, BytesBody.chunkEncode]
    obtain ⟨⟨reader', chunk', hload⟩, hsource⟩ := load_agree hsame.agree
    have hsource := hsource.trans hsame.source
    by_cases hfinish : self.chunkState = .finish
    · obtain ⟨henc, hnext⟩ :=
        encode_finish ((load_state self).trans hfinish) reader' chunk' room
      rw [hload, henc]
      exact ⟨rfl, hsource, ⟨reader', chunk', rfl⟩, fun _ hst => absurd hnext hst⟩
    · obtain ⟨count, hturn⟩ := hsame.inTurn hdata hfinish
      obtain ⟨hencoder, hflag, hloaded⟩ := load_inTurn hsame.source hagree hturn
      rw [hencoder, encode_reader]
      exact ⟨rfl, hsource, ⟨reader, (self.load.encode room).2.chunk, rfl⟩, fun _ hnext =>
        encode_inTurn hshort hloaded hflag _ hnext (by rwa [load_state])⟩

end Round

/-! ## Two full chunks and more -/

/-- Full chunks are written, and none of their parts is at its end. -/
structure Filling (chunks : ChunkBody) : Prop where
  encoding : chunks.dataState = .encoding
  state : chunks.chunkState ≠ .metaExt ∧ chunks.chunkState ≠ .finish
  hexIdx : chunks.hexIdx < (hex chunkSize).length
  metaCrlfIdx : chunks.metaCrlfIdx < crlf.length
  dataCrlfIdx : chunks.dataCrlfIdx < crlf.length
  chunkIdx : chunks.readFlag = true → chunks.chunkIdx < chunkSize

structure Endless (bytes : Bytes) (body : BytesBody) : Prop where
  source : body.source = bytes
  few : body.chunkCount ≤ 1
  filling : Filling body.encoder
  loaded : body.encoder.readFlag = true → body.chunkLast = chunkSize

theorem writeData_some {src : Bytes} {i room : ℕ} (hi : i < src.length) (hroom : 0 < room) :
    ∃ out all, writeData src i room = (out, all) ∧ out ≠ [] ∧
      (all = false → i + out.length < src.length) := by
  refine ⟨_, _, rfl, ?_, fun hall => ?_⟩
  · rw [ne_eq, take_eq_nil_iff, drop_eq_nil_iff]
    omega
  · have hall := of_decide_eq_false hall
    rw [length_take, length_drop]
    omega

theorem Filling.encode {self : ChunkBody} {room : ℕ} (h : Filling self)
    (hflag : self.readFlag = true) (hchunk : self.chunk.length = chunkSize) (hroom : 0 < room) :
    (self.encode room).1 ≠ [] ∧ Filling (self.encode room).2 ∧
      (∀ count ∈ self.statusCount room, count = 1) := by
  have hzero : 0 < crlf.length := by decide
  have hidx : self.chunkIdx < self.chunk.length := by
    rw [hchunk]
    exact h.chunkIdx hflag
  rw [ChunkBody.encode, statusCount]
  cases hst : self.chunkState with
  | metaExt => exact absurd hst h.state.1
  | finish => exact absurd hst h.state.2
  | metaSize =>
    obtain ⟨out, all, hwrite, hout, hall⟩ := writeData_some h.hexIdx hroom
    dsimp only
    rw [metaSizeEncode, if_pos hchunk, hwrite]
    cases all with
    | true =>
      exact ⟨hout, ⟨h.encoding, ⟨(by simp), (by simp)⟩, hex_length_pos _, h.metaCrlfIdx,
        h.dataCrlfIdx, h.chunkIdx⟩, (by simp)⟩
    | false =>
      exact ⟨hout, ⟨h.encoding, h.state, hall rfl, h.metaCrlfIdx, h.dataCrlfIdx, h.chunkIdx⟩, (by simp)⟩
  | metaCrlf =>
    obtain ⟨out, all, hwrite, hout, hall⟩ := writeData_some h.metaCrlfIdx hroom
    dsimp only
    rw [metaCrlfEncode, hwrite]
    cases all with
    | true =>
      exact ⟨hout, ⟨h.encoding, ⟨(by simp), (by simp)⟩, h.hexIdx, hzero, h.dataCrlfIdx, h.chunkIdx⟩, (by simp)⟩
    | false =>
      exact ⟨hout, ⟨h.encoding, h.state, h.hexIdx, hall rfl, h.dataCrlfIdx, h.chunkIdx⟩, (by simp)⟩
  | dataCrlf =>
    obtain ⟨out, all, hwrite, hout, hall⟩ := writeData_some h.dataCrlfIdx hroom
    dsimp only
    rw [dataCrlfEncode, hwrite]
    cases all with
    | true =>
      exact ⟨hout, ⟨h.encoding, ⟨(by simp), (by simp)⟩, h.hexIdx, h.metaCrlfIdx, hzero, h.chunkIdx⟩, (by simp)⟩
    | false =>
      exact ⟨hout, ⟨h.encoding, h.state, h.hexIdx, h.metaCrlfIdx, hall rfl, h.chunkIdx⟩, (by simp)⟩
  | data =>
    obtain ⟨out, all, hwrite, hout, hall⟩ := writeData_some hidx hroom
    dsimp only
    rw [dataEncode, hwrite, if_pos hchunk]
    cases all with
    | true =>
      refine ⟨hout, ⟨h.encoding, ⟨(by simp), (by simp)⟩, h.hexIdx, h.metaCrlfIdx, h.dataCrlfIdx, (by simp)⟩, ?_⟩
      intro count hcnt
      rw [if_pos hchunk] at hcnt
      exact (Option.some.inj hcnt).symm
    | false =>
      have hlt := hall rfl
      rw [hchunk] at hlt
      exact ⟨hout, ⟨h.encoding, h.state, h.hexIdx, h.metaCrlfIdx, h.dataCrlfIdx, fun _ => hlt⟩,
        (by simp)⟩

variable {bytes : Bytes}

theorem Endless.load {body : BytesBody} (h : Endless bytes body)
    (hlong : 2 * chunkSize ≤ bytes.length) :
    Endless bytes body.load ∧ body.load.encoder.readFlag = true ∧
      body.load.encoder.chunk.length = chunkSize := by
  obtain ⟨source, chunkCount, chunkLast, encoder⟩ := body
  obtain rfl : source = bytes := h.source
  have hstart := Nat.mul_le_mul_right chunkSize h.few
  dsimp only at hstart
  rw [BytesBody.load]
  dsimp only
  split
  · next hflag =>
      obtain rfl : chunkLast = chunkSize := h.loaded hflag
      refine ⟨⟨rfl, h.few, ?_, fun _ => rfl⟩, hflag, ?_⟩
      · exact ⟨h.filling.encoding, h.filling.state, h.filling.hexIdx, h.filling.metaCrlfIdx,
          h.filling.dataCrlfIdx, h.filling.chunkIdx⟩
      · dsimp only
        rw [length_take, length_drop]
        omega
  · have hlast : min (source.length - chunkCount * chunkSize) chunkSize = chunkSize := by omega
    rw [hlast]
    refine ⟨⟨rfl, h.few, ?_, fun _ => rfl⟩, rfl, ?_⟩
    · exact ⟨h.filling.encoding, h.filling.state, h.filling.hexIdx, h.filling.metaCrlfIdx,
        h.filling.dataCrlfIdx, fun _ => Nat.succ_pos 1023⟩
    · dsimp only
      rw [length_take, length_drop]
      omega

theorem endless_step (hlong : 2 * chunkSize ≤ bytes.length) (fuel : ℕ) (body : BytesBody) (room : ℕ)
    (h : Endless bytes body) (hroom : 0 < room) :
    ∃ out next, body.step fuel room = some (some (out, next)) ∧ out ≠ [] ∧ Endless bytes next := by
  obtain ⟨hload, hflag, hchunk⟩ := h.load hlong
  obtain ⟨hout, hfilling, hcnt⟩ := hload.filling.encode hflag hchunk hroom
  have hstep : body.step fuel room = some (some (body.bytesEncode room)) := by
    rw [BytesBody.step, h.filling.encoding]
  refine ⟨_, _, hstep, hout, hload.source, ?_, hfilling, fun _ => hload.loaded hflag⟩
  change (body.load.encoder.statusCount room).getD body.load.chunkCount ≤ 1
  cases hstat : body.load.encoder.statusCount room with
  | none => exact hload.few
  | some n => exact (hcnt n hstat).le

theorem endless_fromBytes (hlong : 2 * chunkSize ≤ bytes.length) {rooms : List ℕ}
    (hrooms : ∀ room ∈ rooms, 0 < room) (out : Bytes) :
    ¬Drains BytesBody.step (.fromBytes bytes) rooms out := by
  have hzero : 0 < crlf.length := by decide
  exact not_drains (endless_step hlong) ⟨rfl, Nat.zero_le 1,
    ⟨rfl, ⟨nofun, nofun⟩, hex_length_pos _, hzero, hzero, nofun⟩, nofun⟩ hrooms

/-! ## The round trip -/

/-- What the buffers get is the bytes, coded. -/
def DeliversBytes (bytes : Bytes) (rooms : ℕ → ℕ) : Prop :=
  ∃ n out, Drains BytesBody.step (.fromBytes bytes) ((List.range n).map rooms) out ∧
    Decodes out bytes

def fullChunks (bytes : Bytes) : List Bytes :=
  if bytes.length < chunkSize then [] else [bytes.take chunkSize]

def lastChunk (bytes : Bytes) : Bytes := bytes.drop ((fullChunks bytes).length * chunkSize)

theorem fullChunks_append (bytes : Bytes) :
    (fullChunks bytes).flatten ++ lastChunk bytes = bytes := by
  rw [lastChunk, fullChunks]
  split
  · exact drop_zero
  · rw [flatten_singleton, length_singleton, Nat.one_mul, take_append_drop]

theorem chunkReads_bytes (hshort : bytes.length < 2 * chunkSize) :
    ChunkReads [bytes] (fullChunks bytes) (lastChunk bytes) := by
  rw [lastChunk, fullChunks]
  split
  · next hone =>
      have hread := read_single bytes
      rw [take_of_length_le hone.le] at hread
      rw [length_nil, Nat.zero_mul, drop_zero]
      exact .last hread hone
  · next hone =>
      have hrest : (bytes.drop (1 * chunkSize)).length < chunkSize := by
        rw [length_drop]
        omega
      have hsec := @readerAt_read bytes 1 le_rfl
      rw [chunkAt, take_of_length_le hrest.le] at hsec
      rw [length_singleton]
      exact .full (read_single bytes) (length_take_of_le (Nat.le_of_not_lt hone))
        (.last hsec hrest)

theorem lastChunk_nil (hshort : bytes.length < 2 * chunkSize) :
    lastChunk bytes = [] ↔ chunkSize ∣ bytes.length := by
  have hsize : chunkSize = 1024 := rfl
  rw [lastChunk, drop_eq_nil_iff, fullChunks]
  split
  · next hone =>
      rw [hsize] at hone ⊢
      rw [length_nil]
      omega
  · next hone =>
      rw [hsize] at hone hshort ⊢
      rw [length_singleton]
      omega

/-- Bytes arrive as they are exactly if they have less than two full chunks and something behind
them, and no buffer ends in the size of the last chunk. -/
theorem bytes_delivered {rooms : ℕ → ℕ} (hrooms : ∀ i, 0 < rooms i) (bytes : Bytes) :
    DeliversBytes bytes rooms ↔ bytes.length < 2 * chunkSize ∧ ¬chunkSize ∣ bytes.length ∧
      ¬CutsSize rooms (fullChunks bytes) (lastChunk bytes) := by
  by_cases hshort : bytes.length < 2 * chunkSize
  · have hreads := delivers_iff_reads (chunkReads_bytes hshort) hrooms bytes
    have hsame : DeliversBytes bytes rooms ↔ Delivers [bytes] rooms bytes := by
      constructor
      · rintro ⟨n, out, hdrains, hdecodes⟩
        exact ⟨n, out, (lockstep hshort).drains (same_fromBytes bytes) hdrains, hdecodes⟩
      · rintro ⟨n, out, hdrains, hdecodes⟩
        exact ⟨n, out, ((lockstep hshort).drains_iff (same_fromBytes bytes)).mpr hdrains, hdecodes⟩
    rw [hsame, hreads, ← lastChunk_nil hshort]
    exact ⟨fun h => ⟨hshort, h.1, h.2.2⟩, fun h => ⟨h.2.1, fullChunks_append bytes, h.2.2⟩⟩
  · refine ⟨fun h => ?_, fun h => absurd h.1 hshort⟩
    obtain ⟨n, out, hdrains, -⟩ := h
    refine absurd hdrains (endless_fromBytes (Nat.le_of_not_lt hshort) ?_ out)
    intro room hroom
    obtain ⟨i, -, rfl⟩ := mem_map.mp hroom
    exact hrooms i

theorem bytes_delivered_ab : DeliversBytes (str "ab") fun _ => 64 := by
  refine (bytes_delivered (fun _ => by decide) (str "ab")).mpr ⟨by decide, by decide, ?_⟩
  rintro ⟨n, hlt, hgt⟩
  have hhex : (hex (lastChunk (str "ab")).length).length = 1 := by decide
  have hchunks : (fullChunks (str "ab")).length = 0 := by decide
  rw [hhex, hchunks] at hgt
  rw [hchunks] at hlt
  omega

/-- Two full chunks have no end. -/
theorem twoChunks_not_delivered :
    ¬∀ bytes : Bytes, ∀ rooms : ℕ → ℕ, (∀ i, 0 < rooms i) → DeliversBytes bytes rooms := by
  intro h
  have hlen : (replicate (2 * chunkSize) (0 : UInt8)).length = 2 * chunkSize := length_replicate
  have hdelivers := h (replicate (2 * chunkSize) 0) (fun _ => 64) fun _ => by decide
  obtain ⟨n, out, hdrains, -⟩ := hdelivers
  refine endless_fromBytes hlen.ge ?_ out hdrains
  intro room hroom
  obtain ⟨i, -, rfl⟩ := mem_map.mp hroom
  exact (by decide : 0 < 64)

end YlongHttp.Chunked
