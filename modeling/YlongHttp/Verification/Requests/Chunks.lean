import YlongHttp.Model.ChunkBody

/-! # The chunks of a body

A reader is read in parts of `CHUNK_SIZE`, up to the first that is not full. That one is the last
chunk; it must not be empty, and its size must not be cut by the end of the buffer. -/

namespace YlongHttp.Client

open List

/-- A body in the chunked coding of RFC 9112, without extensions and trailers, and its content. -/
inductive ChunkCoded : Bytes → Bytes → Prop
  | last : ChunkCoded [] (str "0\r\n\r\n")
  | chunk {data rest coded : Bytes} : data ≠ [] → ChunkCoded rest coded →
      ChunkCoded (data ++ rest) (hex data.length ++ crlf ++ data ++ crlf ++ coded)

/-- What the reads of `CHUNK_SIZE` yield: the full ones, and the first that is not. -/
inductive ChunkReads : Reader → List Bytes → Bytes → Prop
  | last {reader rest : Reader} {data : Bytes} : reader.read chunkSize = (data, rest) →
      data.length < chunkSize → ChunkReads reader [] data
  | full {reader rest : Reader} {data tail : Bytes} {chunks : List Bytes} :
      reader.read chunkSize = (data, rest) → data.length = chunkSize →
      ChunkReads rest chunks tail → ChunkReads reader (data :: chunks) tail

namespace ChunkBody

variable {self : ChunkBody} {last src : Bytes} {i room : ℕ} {chunks : List Bytes}

/-- From one state to another with so much in the buffer, and what is written. -/
inductive Writes : ChunkBody → ℕ → Bytes → ChunkBody → ℕ → Prop
  | refl (self : ChunkBody) (filled : ℕ) : Writes self filled [] self filled
  | step {self next last : ChunkBody} {filled filled' : ℕ} {out out' : Bytes} :
      self.dataState ≠ .finish → self.step (tempBufSize - filled) = (out, next) →
      Writes next ((filled + out.length) % tempBufSize) out' last filled' →
      Writes self filled (out ++ out') last filled'

theorem Writes.trans {self next last : ChunkBody} {filled filled' filled'' : ℕ} {out out' : Bytes}
    (h : Writes self filled out next filled') (h' : Writes next filled' out' last filled'') :
    Writes self filled (out ++ out') last filled'' := by
  induction h with
  | refl => exact h'
  | step hst hstep _ ih =>
    rw [append_assoc]
    exact .step hst hstep (ih h')

theorem Writes.written {self last : ChunkBody} {filled filled' : ℕ} {out : Bytes}
    (h : Writes self filled out last filled') (hlast : last.dataState = .finish) :
    ∃ fuel, self.written fuel filled = some out := by
  induction h with
  | refl self filled => exact ⟨1, by rw [ChunkBody.written, if_pos hlast]⟩
  | step hst hstep _ ih =>
    obtain ⟨fuel, hfuel⟩ := ih hlast
    refine ⟨fuel + 1, ?_⟩
    rw [ChunkBody.written, if_neg hst, hstep]
    simp only [hfuel, Option.map_some]

theorem Writes.of_step_eq {self' last : ChunkBody} {filled filled' : ℕ} {out : Bytes}
    (h : Writes self filled out last filled') (hself : self.dataState ≠ .finish)
    (hlast : last.dataState = .finish) (hself' : self'.dataState ≠ .finish)
    (hstep : ∀ room, self'.step room = self.step room) : Writes self' filled out last filled' := by
  cases h with
  | refl => exact absurd hlast hself
  | step _ hone hrest => exact .step hself' ((hstep _).trans hone) hrest

/-! ## The parts of a write -/

theorem writeData_all (h : src.length - i ≤ room) : writeData src i room = (src.drop i, true) := by
  rw [writeData, take_of_length_le (by rwa [length_drop])]
  simp [h]

theorem writeData_zero (h : src.length ≤ room) : writeData src 0 room = (src, true) :=
  writeData_all (by rwa [Nat.sub_zero])

theorem writeData_part (h : room < src.length) : writeData src 0 room = (src.take room, false) := by
  simp [writeData, h]

theorem add_length_drop (h : i ≤ src.length) : i + (src.drop i).length = src.length := by
  rw [length_drop]
  omega

theorem Writes.piece {text : Bytes} {filled : ℕ} (state next : ℕ → ChunkBody)
    (hfill : filled < tempBufSize) (htext : text.length ≤ tempBufSize)
    (hself : self.dataState ≠ .finish) (hst : ∀ i, (state i).dataState ≠ .finish)
    (hfirst : ∀ room, self.step room = (state 0).step room)
    (hstep : ∀ i room, (state i).step room = match writeData text i room with
      | (out, true) => (out, next (i + out.length))
      | (out, false) => (out, state (i + out.length))) :
    Writes self filled text (next text.length) ((filled + text.length) % tempBufSize) := by
  by_cases hroom : text.length ≤ tempBufSize - filled
  · have hone := (hfirst _).trans (hstep 0 (tempBufSize - filled))
    rw [writeData_zero hroom] at hone
    simpa using Writes.step hself hone (.refl _ _)
  · have hlt : tempBufSize - filled < text.length := Nat.lt_of_not_le hroom
    have hlen : (text.take (tempBufSize - filled)).length = tempBufSize - filled := by
      rw [length_take, Nat.min_eq_left hlt.le]
    have hone := (hfirst _).trans (hstep 0 (tempBufSize - filled))
    rw [writeData_part hlt] at hone
    dsimp only at hone
    rw [hlen, Nat.zero_add] at hone
    have hzero : (filled + (text.take (tempBufSize - filled)).length) % tempBufSize = 0 := by
      rw [hlen, Nat.add_sub_cancel' hfill.le, Nat.mod_self]
    have htwo := hstep (tempBufSize - filled) (tempBufSize - 0)
    rw [writeData_all (by omega)] at htwo
    dsimp only at htwo
    rw [add_length_drop hlt.le] at htwo
    have hend : (0 + (text.drop (tempBufSize - filled)).length) % tempBufSize =
        (filled + text.length) % tempBufSize := by
      rw [length_drop]
      have hsum : filled + text.length =
          0 + (text.length - (tempBufSize - filled)) + tempBufSize := by omega
      rw [hsum, Nat.add_mod_right]
    have hsec := Writes.step (hst _) htwo (.refl _ _)
    rw [append_nil, hend] at hsec
    have hwrites := Writes.step hself hone (hzero ▸ hsec)
    rwa [take_append_drop] at hwrites

/-! ## The states between the parts of a chunk -/

def loaded (reader : Reader) (chunk : Bytes) : ChunkBody :=
  { fromAsyncReader reader with chunk, readFlag := true }

def sent (reader : Reader) (chunk : Bytes) (state : ChunkState) : ChunkBody :=
  { loaded reader chunk with
    chunkState := state
    chunkIdx := chunk.length
    readFlag := false }

variable {reader rest : Reader} {data next : Bytes} {filled : ℕ}

theorem step_fromAsyncReader (hread : reader.read chunkSize = (data, rest)) (room : ℕ) :
    (fromAsyncReader reader).step room = (loaded rest data).step room := by
  change ((fromAsyncReader reader).load).encode room = ((loaded rest data).load).encode room
  congr 1
  simp only [load, fromAsyncReader, hread, loaded]
  rfl

theorem step_sent (state : ChunkState) (hread : reader.read chunkSize = (next, rest)) (room : ℕ) :
    (sent reader data state).step room =
      ({ loaded rest next with chunkState := state } : ChunkBody).step room := by
  change ((sent reader data state).load).encode room = encode { loaded rest next with chunkState := state } room
  congr 1
  simp only [load, sent, loaded, fromAsyncReader, hread]
  rfl

theorem writes_size_full (hfull : data.length = chunkSize) (hfill : filled < tempBufSize) :
    Writes (loaded rest data) filled (hex chunkSize)
      { loaded rest data with chunkState := .metaCrlf }
      ((filled + (hex chunkSize).length) % tempBufSize) := by
  refine Writes.piece (fun i => { loaded rest data with hexIdx := i })
    (fun _ => { loaded rest data with chunkState := .metaCrlf }) hfill (by decide) nofun
    (fun _ => nofun) (fun _ => rfl) fun i room => ?_
  change metaSizeEncode { loaded rest data with hexIdx := i } room = _
  rw [metaSizeEncode]
  exact if_pos hfull

theorem writes_size_last (hlast : data.length < chunkSize)
    (hroom : (hex data.length).length ≤ tempBufSize - filled) :
    Writes (loaded rest data) filled (hex data.length)
      { loaded rest data with chunkState := .metaCrlf }
      ((filled + (hex data.length).length) % tempBufSize) := by
  have hstep : (loaded rest data).step (tempBufSize - filled) =
      (hex data.length, { loaded rest data with chunkState := .metaCrlf }) := by
    change metaSizeEncode (loaded rest data) (tempBufSize - filled) = _
    rw [metaSizeEncode]
    refine (if_neg (Nat.ne_of_lt hlast)).trans ?_
    have hwrite : writeData (hex (loaded rest data).chunk.length) 0 (tempBufSize - filled) =
        (hex data.length, true) := writeData_zero hroom
    rw [hwrite]
  have hunfinished : (loaded rest data).dataState ≠ .finish := nofun
  simpa using Writes.step hunfinished hstep (.refl _ _)

theorem writes_metaCrlf (hfill : filled < tempBufSize) :
    Writes { loaded rest data with chunkState := .metaCrlf } filled crlf
      { loaded rest data with chunkState := .data } ((filled + crlf.length) % tempBufSize) :=
  Writes.piece (fun i => { loaded rest data with chunkState := .metaCrlf, metaCrlfIdx := i })
    (fun _ => { loaded rest data with chunkState := .data }) hfill (by decide) nofun
    (fun _ => nofun) (fun _ => rfl) fun _ _ => rfl

theorem writes_data {state : ChunkState}
    (hst : state = if data.length = chunkSize then .dataCrlf else .finish)
    (hfill : filled < tempBufSize) (hdata : data.length ≤ tempBufSize) :
    Writes { loaded rest data with chunkState := .data } filled data (sent rest data state)
      ((filled + data.length) % tempBufSize) := by
  refine Writes.piece (fun i => { loaded rest data with chunkState := .data, chunkIdx := i })
    (fun i => { sent rest data state with chunkIdx := i }) hfill hdata nofun (fun _ => nofun)
    (fun _ => rfl) fun i room => ?_
  rw [hst]
  rfl

theorem writes_dataCrlf (hread : reader.read chunkSize = (next, rest))
    (hfill : filled < tempBufSize) :
    Writes (sent reader data .dataCrlf) filled crlf (loaded rest next)
      ((filled + crlf.length) % tempBufSize) :=
  Writes.piece (fun i => { loaded rest next with chunkState := .dataCrlf, dataCrlfIdx := i })
    (fun _ => loaded rest next) hfill (by decide) nofun (fun _ => nofun)
    (step_sent .dataCrlf hread) fun _ _ => rfl

theorem writes_finish (hread : reader.read chunkSize = (next, rest))
    (hfill : filled < tempBufSize) :
    Writes (sent reader data .finish) filled crlf
      { loaded rest next with chunkState := .finish, dataState := .complete, finishCrlfIdx := 2 }
      ((filled + crlf.length) % tempBufSize) :=
  Writes.piece (fun i => { loaded rest next with chunkState := .finish, finishCrlfIdx := i })
    (fun i => { loaded rest next with
      chunkState := .finish, dataState := .complete, finishCrlfIdx := i }) hfill (by decide) nofun
    (fun _ => nofun) (step_sent .finish hread) fun _ _ => rfl

theorem writes_trailer (hself : self.dataState = .complete) (hidx : self.trailerIdx = 0)
    (hfill : filled < tempBufSize) :
    Writes self filled (str "0\r\n\r\n") { self with dataState := .finish, trailerIdx := 5 }
      ((filled + (str "0\r\n\r\n").length) % tempBufSize) := by
  have hunfinished : self.dataState ≠ .finish := by
    rw [hself]
    nofun
  refine Writes.piece (fun i => { self with trailerIdx := i })
    (fun i => { self with dataState := .finish, trailerIdx := i }) hfill (by decide) hunfinished
    (fun _ => hunfinished) (fun room => ?_) fun i room => ?_
  · rw [← hidx]
  · rw [ChunkBody.step]
    simp only [hself]
    rfl

/-! ## Chunks -/

def fullLength : ℕ := chunkSize + 7

theorem writes_full (hdata : data.length = chunkSize) (hread : reader.read chunkSize = (next, rest))
    (hfill : filled < tempBufSize) :
    Writes (loaded reader data) filled (hex data.length ++ crlf ++ data ++ crlf) (loaded rest next)
      ((filled + fullLength) % tempBufSize) := by
  have hlt : ∀ n, n % tempBufSize < tempBufSize := fun n => Nat.mod_lt _ (by decide)
  have hwrites := (((writes_size_full hdata hfill).trans
    (writes_metaCrlf (hlt _))).trans
      (writes_data (by rw [if_pos hdata]) (hlt _) (by rw [hdata]; decide))).trans
        (writes_dataCrlf hread (hlt _))
  have hlen : ((((filled + (hex chunkSize).length) % tempBufSize + crlf.length) % tempBufSize +
      data.length) % tempBufSize + crlf.length) % tempBufSize =
        (filled + fullLength) % tempBufSize := by
    simp only [Nat.mod_add_mod, hdata, Nat.add_assoc]
    rfl
  rw [hlen] at hwrites
  rwa [hdata]

theorem writes_last (hdata : data.length < chunkSize)
    (hroom : (hex data.length).length ≤ tempBufSize - filled) :
    ∃ last filled', Writes (loaded reader data) filled
      (hex data.length ++ crlf ++ data ++ crlf ++ str "0\r\n\r\n") last filled' ∧
        last.dataState = .finish := by
  have hlt : ∀ n, n % tempBufSize < tempBufSize := fun n => Nat.mod_lt _ (by decide)
  rcases hread : reader.read chunkSize with ⟨next, rest⟩
  exact ⟨_, _, ((((writes_size_last hdata hroom).trans
    (writes_metaCrlf (hlt _))).trans
      (writes_data (by rw [if_neg (Nat.ne_of_lt hdata)]) (hlt _)
        (hdata.le.trans (by decide)))).trans (writes_finish hread (hlt _))).trans
          (writes_trailer rfl rfl (hlt _)), rfl⟩

theorem writes_chunks (h : ChunkReads reader chunks last) (hne : last ≠ [])
    (hfill : filled < tempBufSize) (hroom : (hex last.length).length ≤
      tempBufSize - (filled + chunks.length * fullLength) % tempBufSize) :
    ∃ out self filled', Writes (loaded (reader.read chunkSize).2 (reader.read chunkSize).1) filled
      out self filled' ∧ self.dataState = .finish ∧ ChunkCoded (chunks.flatten ++ last) out := by
  induction h generalizing filled with
  | @last reader rest data hread hdata =>
    have hroom' : (hex data.length).length ≤ tempBufSize - filled := by
      rwa [length_nil, Nat.zero_mul, Nat.add_zero, Nat.mod_eq_of_lt hfill] at hroom
    obtain ⟨self, filled', hwrites, hself⟩ := writes_last hdata hroom'
    have hcoded := ChunkCoded.chunk hne .last
    rw [append_nil] at hcoded
    exact ⟨_, self, filled', by rwa [hread], hself, hcoded⟩
  | @full reader rest data last chunks hread hdata _ ih =>
    have hfill' : (filled + fullLength) % tempBufSize < tempBufSize := Nat.mod_lt _ (by decide)
    have hroom' : (hex last.length).length ≤ tempBufSize -
        ((filled + fullLength) % tempBufSize + chunks.length * fullLength) % tempBufSize := by
      rw [Nat.mod_add_mod, Nat.add_assoc, Nat.add_comm fullLength, ← Nat.succ_mul]
      exact hroom
    obtain ⟨out, self, filled', hwrites, hself, hcoded⟩ := ih hne hfill' hroom'
    have hfull : Writes (loaded rest data) filled _ _ _ := writes_full hdata rfl hfill
    have hdata' : data ≠ [] := by
      rintro rfl
      exact absurd hdata (by decide)
    refine ⟨hex data.length ++ crlf ++ data ++ crlf ++ out, self, filled', ?_, hself, ?_⟩
    · rw [hread]
      exact hfull.trans hwrites
    · rw [flatten_cons, append_assoc]
      exact .chunk hdata' hcoded

theorem written_coded (h : ChunkReads reader chunks last) (hne : last ≠ [])
    (hroom : (hex last.length).length ≤ tempBufSize - (chunks.length * fullLength) % tempBufSize) :
    ∃ fuel out, (fromAsyncReader reader).written fuel 0 = some out ∧
      ChunkCoded (chunks.flatten ++ last) out := by
  obtain ⟨out, self, filled', hwrites, hself, hcoded⟩ :=
    writes_chunks h hne (by decide : 0 < tempBufSize) (by rwa [Nat.zero_add])
  have hfirst : Writes (fromAsyncReader reader) 0 out self filled' :=
    hwrites.of_step_eq nofun hself nofun (step_fromAsyncReader rfl)
  obtain ⟨fuel, hwritten⟩ := hfirst.written hself
  exact ⟨fuel, out, hwritten, hcoded⟩

end ChunkBody

end YlongHttp.Client
