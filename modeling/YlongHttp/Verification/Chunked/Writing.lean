import YlongHttp.Verification.Requests.Chunks

/-! # What a chunked body writes into any buffers

The full chunks and the last one, whose size is begun anew where the buffer ends in it. -/

namespace YlongHttp.Client.ChunkBody

open List Nat
open Library (anew)

def chunkText (data : Bytes) : Bytes := hex data.length ++ (crlf ++ (data ++ crlf))

def behindSize (last : Bytes) : Bytes := crlf ++ (last ++ (crlf ++ str "0\r\n\r\n"))

def lastText (last : Bytes) : Bytes := hex last.length ++ behindSize last

def text (chunks : List Bytes) (last : Bytes) : Bytes := chunks.flatMap chunkText ++ lastText last

def between (reader : Reader) (state : ChunkState) : ChunkBody :=
  { loaded (reader.read chunkSize).2 (reader.read chunkSize).1 with chunkState := state }

/-- A state, what it has to write, and 1 as long as the data of the last chunk is not written. -/
inductive Owes (last : Bytes) : ChunkBody → Bytes → ℕ → Prop
  | size {s : ChunkBody} {rest : Reader} {data : Bytes} {chunks : List Bytes} {i : ℕ} :
      data.length = chunkSize → ChunkReads rest chunks last → i < 3 →
      s.load = { loaded rest data with hexIdx := i } →
      Owes last s ((hex chunkSize).drop i ++ (crlf ++ (data ++ (crlf ++ text chunks last)))) 1
  | sizeEnd {s : ChunkBody} {rest : Reader} {data : Bytes} {chunks : List Bytes} {i : ℕ} :
      data.length = chunkSize → ChunkReads rest chunks last → i < 2 →
      s.load = { loaded rest data with chunkState := .metaCrlf, metaCrlfIdx := i } →
      Owes last s (crlf.drop i ++ (data ++ (crlf ++ text chunks last))) 1
  | data {s : ChunkBody} {rest : Reader} {data : Bytes} {chunks : List Bytes} {i : ℕ} :
      data.length = chunkSize → ChunkReads rest chunks last → i < data.length →
      s.load = { loaded rest data with chunkState := .data, chunkIdx := i } →
      Owes last s (data.drop i ++ (crlf ++ text chunks last)) 1
  | dataEnd {s : ChunkBody} {reader : Reader} {chunks : List Bytes} {i : ℕ} :
      ChunkReads reader chunks last → i < 2 →
      s.load = { between reader .dataCrlf with dataCrlfIdx := i } →
      Owes last s (crlf.drop i ++ text chunks last) 1
  | lastSize {s : ChunkBody} {rest : Reader} : last.length < chunkSize →
      s.load = loaded rest last → Owes last s (lastText last) 1
  | lastSizeEnd {s : ChunkBody} {rest : Reader} {i : ℕ} : last.length < chunkSize → i < 2 →
      s.load = { loaded rest last with chunkState := .metaCrlf, metaCrlfIdx := i } →
      Owes last s (crlf.drop i ++ (last ++ (crlf ++ str "0\r\n\r\n"))) 1
  | lastData {s : ChunkBody} {rest : Reader} {i : ℕ} : last.length < chunkSize → i ≤ last.length →
      s.load = { loaded rest last with chunkState := .data, chunkIdx := i } →
      Owes last s (last.drop i ++ (crlf ++ str "0\r\n\r\n")) 1
  | finish {s : ChunkBody} {reader : Reader} {i : ℕ} : i < 2 →
      s.load = { between reader .finish with finishCrlfIdx := i } →
      Owes last s (crlf.drop i ++ str "0\r\n\r\n") 0
  | trailer {s : ChunkBody} {i : ℕ} : i < 5 → s.dataState = .complete → s.trailerIdx = i →
      Owes last s ((str "0\r\n\r\n").drop i) 0
  | done {s : ChunkBody} : s.dataState = .finish → Owes last s [] 0

variable {last : Bytes} {s : ChunkBody} {l : Bytes} {r room : ℕ}

theorem step_of_load {loading : ChunkBody} (hs : s.load = loading)
    (hst : loading.dataState = .encoding) (fuel : ℕ) :
    s.dataStep fuel room = some (some (loading.encode room)) := by
  have hsame : s.load.dataState = s.dataState := by
    rw [load]
    split <;> rfl
  have henc : s.dataState = .encoding := by rw [← hsame, hs, hst]
  rw [dataStep, if_neg (by rw [henc]; simp), step, henc]
  dsimp only
  rw [hs]

theorem hex_length_pos (n : ℕ) : 0 < (hex n).length := by
  rw [hex, length_map]
  exact length_toDigits_pos

theorem hex_chunkSize_length : (hex chunkSize).length = 3 := by decide

theorem Owes.settled (h : Owes last s l r) : anew (hex last.length) (behindSize last) l = l := by
  have hlong : ∀ front chunks, anew (hex last.length) (behindSize last)
      (front ++ text chunks last) = front ++ text chunks last := by
    intro front chunks
    rw [anew, if_neg]
    simp only [text, lastText, length_append]
    omega
  have hshort : ∀ l : Bytes, l.length ≤ (behindSize last).length →
      anew (hex last.length) (behindSize last) l = l := by
    intro l hl
    rw [anew, if_neg]
    omega
  cases h with
  | size | sizeEnd | data =>
    simp only [← append_assoc]
    exact hlong _ _
  | dataEnd => exact hlong _ _
  | lastSize => exact hlong [] []
  | lastSizeEnd | lastData | finish | trailer =>
    refine hshort _ ?_
    simp only [behindSize, length_append, length_drop]
    omega
  | done => exact hshort [] (zero_le _)

/-- A step pays some of what is owed. -/
def Pays (last : Bytes) (answer : Option (Option (Bytes × ChunkBody))) (room : ℕ) (l : Bytes)
    (r : ℕ) : Prop :=
  ∃ out next l' r', answer = some (some (out, next)) ∧
    Owes last next (anew (hex last.length) (behindSize last) l') r' ∧ l = out ++ l' ∧
    out.length ≤ room ∧
    (out.length < room → anew (hex last.length) (behindSize last) l' = l') ∧
    l'.length + r' < l.length + r

theorem pays_piece {src later : Bytes} {i r' : ℕ} {answer : Option (Option (Bytes × ChunkBody))}
    (state next : ℕ → ChunkBody) (hi : i ≤ src.length) (hroom : 0 < room)
    (hanswer : answer = some (some (match writeData src i room with
      | (out, true) => (out, next (i + out.length))
      | (out, false) => (out, state (i + out.length)))))
    (hst : ∀ j < src.length, Owes last (state j) (src.drop j ++ later) r)
    (hnext : Owes last (next src.length) later r') (hrank : r' ≤ r)
    (hpos : i < src.length ∨ r' < r) : Pays last answer room (src.drop i ++ later) r := by
  subst hanswer
  by_cases hall : src.length - i ≤ room
  · rw [writeData_all hall]
    dsimp only
    rw [add_length_drop hi]
    refine ⟨_, _, later, r', rfl, ?_, rfl, by rwa [length_drop], fun _ => hnext.settled, ?_⟩
    · rwa [hnext.settled]
    · rw [length_append, length_drop]
      omega
  · have hwrite : writeData src i room = ((src.drop i).take room, false) := by
      simp [writeData, hall]
    have hlen : ((src.drop i).take room).length = room := by
      rw [length_take, length_drop]
      omega
    have howes := hst (i + room) (by omega)
    rw [hwrite]
    dsimp only
    rw [hlen]
    refine ⟨_, _, src.drop (i + room) ++ later, r, rfl, ?_, ?_, hlen.le, fun _ => howes.settled, ?_⟩
    · rwa [howes.settled]
    · rw [← append_assoc, ← drop_drop, take_append_drop]
    · rw [length_append, length_append, length_drop, length_drop]
      omega

variable {reader rest : Reader} {data : Bytes} {chunks : List Bytes} {i : ℕ}

theorem owes_reads (h : ChunkReads reader chunks last)
    (hs : s.load = between reader .metaSize) : Owes last s (text chunks last) 1 := by
  cases h with
  | last hread hlast =>
    rw [between, hread] at hs
    exact .lastSize hlast hs
  | full hread hfull hrest =>
    rw [between, hread] at hs
    have howes : Owes last s _ 1 := .size (i := 0) hfull hrest succ_pos' hs
    rw [drop_zero, ← hfull] at howes
    simpa [text, chunkText, append_assoc] using howes

theorem size_pays (hdata : data.length = chunkSize) (hrest : ChunkReads rest chunks last) (hi : i < 3)
    (hs : s.load = { loaded rest data with hexIdx := i }) (hroom : 0 < room) (fuel : ℕ) :
    Pays last (s.dataStep fuel room) room
      ((hex chunkSize).drop i ++ (crlf ++ (data ++ (crlf ++ text chunks last)))) 1 := by
  have hlen := hex_chunkSize_length
  refine pays_piece (fun i => { loaded rest data with hexIdx := i })
    (fun _ => { loaded rest data with chunkState := .metaCrlf }) (by omega) hroom ?_
    (fun j hj => .size hdata hrest (by omega) rfl) (.sizeEnd hdata hrest two_pos rfl) le_rfl
    (.inl (by omega))
  rw [step_of_load hs rfl]
  change some (some (metaSizeEncode { loaded rest data with hexIdx := i } room)) = _
  rw [metaSizeEncode]
  exact congrArg (fun answer => some (some answer)) (if_pos hdata)

theorem sizeEnd_pays (hdata : data.length = chunkSize) (hrest : ChunkReads rest chunks last)
    (hi : i < 2) (hs : s.load = { loaded rest data with chunkState := .metaCrlf, metaCrlfIdx := i })
    (hroom : 0 < room) (fuel : ℕ) :
    Pays last (s.dataStep fuel room) room (crlf.drop i ++ (data ++ (crlf ++ text chunks last))) 1 := by
  have hlen : crlf.length = 2 := by decide
  have hpos : 0 < data.length := by rw [hdata]; decide
  refine pays_piece (fun i => { loaded rest data with chunkState := .metaCrlf, metaCrlfIdx := i })
    (fun _ => { loaded rest data with chunkState := .data }) (by omega) hroom ?_
    (fun j hj => .sizeEnd hdata hrest (by omega) rfl) (.data hdata hrest hpos rfl) le_rfl
    (.inl (by omega))
  rw [step_of_load hs rfl]
  rfl

theorem step_data {state : ChunkState}
    (hst : state = if data.length = chunkSize then .dataCrlf else .finish)
    (hs : s.load = { loaded rest data with chunkState := .data, chunkIdx := i }) (fuel : ℕ) :
    s.dataStep fuel room = some (some (match writeData data i room with
      | (out, true) => (out, { sent rest data state with chunkIdx := i + out.length })
      | (out, false) =>
        (out, { loaded rest data with chunkState := .data, chunkIdx := i + out.length }))) := by
  rw [step_of_load hs rfl, hst]
  rfl

theorem data_pays (hdata : data.length = chunkSize) (hrest : ChunkReads rest chunks last)
    (hi : i < data.length) (hs : s.load = { loaded rest data with chunkState := .data, chunkIdx := i })
    (hroom : 0 < room) (fuel : ℕ) :
    Pays last (s.dataStep fuel room) room (data.drop i ++ (crlf ++ text chunks last)) 1 := by
  exact pays_piece (fun i => { loaded rest data with chunkState := .data, chunkIdx := i })
    (fun i => { sent rest data .dataCrlf with chunkIdx := i }) hi.le hroom
    (step_data (if_pos hdata).symm hs fuel) (fun j hj => .data hdata hrest hj rfl)
    (.dataEnd (i := 0) hrest two_pos rfl) le_rfl (.inl hi)

theorem dataEnd_pays (hreader : ChunkReads reader chunks last) (hi : i < 2)
    (hs : s.load = { between reader .dataCrlf with dataCrlfIdx := i }) (hroom : 0 < room) (fuel : ℕ) :
    Pays last (s.dataStep fuel room) room (crlf.drop i ++ text chunks last) 1 := by
  have hlen : crlf.length = 2 := by decide
  refine pays_piece (fun i => { between reader .dataCrlf with dataCrlfIdx := i })
    (fun _ => between reader .metaSize) (by omega) hroom ?_
    (fun j hj => .dataEnd hreader (by omega) rfl) (owes_reads hreader rfl) le_rfl (.inl (by omega))
  rw [step_of_load hs rfl]
  rfl

theorem lastSize_pays (hlast : last.length < chunkSize) (hs : s.load = loaded rest last)
    (hroom : 0 < room) (fuel : ℕ) : Pays last (s.dataStep fuel room) room (lastText last) 1 := by
  have hstep : s.dataStep fuel room = some (some (match writeData (hex last.length) 0 room with
      | (out, true) => (out, { loaded rest last with chunkState := .metaCrlf })
      | (out, false) => (out, loaded rest last))) := by
    rw [step_of_load hs rfl]
    change some (some (metaSizeEncode (loaded rest last) room)) = _
    rw [metaSizeEncode]
    exact congrArg (fun answer => some (some answer)) (if_neg (Nat.ne_of_lt hlast))
  by_cases hall : (hex last.length).length ≤ room
  · have howes : Owes last { loaded rest last with chunkState := .metaCrlf } (behindSize last) 1 :=
      .lastSizeEnd (i := 0) hlast two_pos rfl
    rw [writeData_zero hall] at hstep
    refine ⟨_, _, behindSize last, 1, hstep, ?_, rfl, hall, fun _ => howes.settled, ?_⟩
    · rwa [howes.settled]
    · have hpos : 0 < (hex last.length).length := hex_length_pos _
      rw [lastText, length_append]
      omega
  · have hlt := Nat.lt_of_not_le hall
    have hlen : ((hex last.length).take room).length = room := by
      rw [length_take, min_eq_left hlt.le]
    have hback : anew (hex last.length) (behindSize last)
        ((hex last.length).drop room ++ behindSize last) = lastText last := by
      rw [anew, if_pos]
      · rfl
      · rw [length_append, length_drop]
        omega
    rw [writeData_part hlt] at hstep
    refine ⟨_, _, (hex last.length).drop room ++ behindSize last, 1, hstep, ?_, ?_, hlen.le,
      fun hfull => absurd hfull (by omega), ?_⟩
    · rw [hback]
      exact .lastSize hlast rfl
    · rw [← append_assoc, take_append_drop]
      rfl
    · rw [lastText, length_append, length_append, length_drop]
      omega

theorem lastSizeEnd_pays (hlast : last.length < chunkSize) (hi : i < 2)
    (hs : s.load = { loaded rest last with chunkState := .metaCrlf, metaCrlfIdx := i })
    (hroom : 0 < room) (fuel : ℕ) :
    Pays last (s.dataStep fuel room) room
      (crlf.drop i ++ (last ++ (crlf ++ str "0\r\n\r\n"))) 1 := by
  have hlen : crlf.length = 2 := by decide
  refine pays_piece (fun i => { loaded rest last with chunkState := .metaCrlf, metaCrlfIdx := i })
    (fun _ => { loaded rest last with chunkState := .data }) (by omega) hroom ?_
    (fun j hj => .lastSizeEnd hlast (by omega) rfl)
    (.lastData (i := 0) hlast (zero_le _) rfl) le_rfl (.inl (by omega))
  rw [step_of_load hs rfl]
  rfl

theorem lastData_pays (hlast : last.length < chunkSize) (hi : i ≤ last.length)
    (hs : s.load = { loaded rest last with chunkState := .data, chunkIdx := i })
    (hroom : 0 < room) (fuel : ℕ) :
    Pays last (s.dataStep fuel room) room (last.drop i ++ (crlf ++ str "0\r\n\r\n")) 1 := by
  exact pays_piece (fun i => { loaded rest last with chunkState := .data, chunkIdx := i })
    (fun i => { sent rest last .finish with chunkIdx := i }) hi hroom
    (step_data (if_neg (Nat.ne_of_lt hlast)).symm hs fuel)
    (fun j hj => .lastData hlast hj.le rfl) (.finish (i := 0) two_pos rfl) (zero_le _)
    (.inr one_pos)

theorem finish_pays (hi : i < 2) (hs : s.load = { between reader .finish with finishCrlfIdx := i })
    (hroom : 0 < room) (fuel : ℕ) :
    Pays last (s.dataStep fuel room) room (crlf.drop i ++ str "0\r\n\r\n") 0 := by
  have hlen : crlf.length = 2 := by decide
  refine pays_piece (fun i => { between reader .finish with finishCrlfIdx := i })
    (fun i => { between reader .finish with dataState := .complete, finishCrlfIdx := i })
    (by omega) hroom ?_ (fun j hj => .finish (by omega) rfl)
    (.trailer (i := 0) (succ_pos 4) rfl rfl) le_rfl (.inl (by omega))
  rw [step_of_load hs rfl]
  rfl

theorem trailer_pays (hi : i < 5) (hs : s.dataState = .complete) (hidx : s.trailerIdx = i)
    (hroom : 0 < room) (fuel : ℕ) :
    Pays last (s.dataStep fuel room) room ((str "0\r\n\r\n").drop i) 0 := by
  have hlen : (str "0\r\n\r\n").length = 5 := by decide
  have hpays : Pays last (s.dataStep fuel room) room ((str "0\r\n\r\n").drop i ++ []) 0 := by
    refine pays_piece (fun i => { s with trailerIdx := i })
      (fun i => { s with dataState := .finish, trailerIdx := i }) (by omega) hroom ?_
      (fun j hj => ?_) (.done rfl) le_rfl (.inl (by omega))
    · have hstep : s.step room = s.trailerEncode room := by rw [step, hs]
      rw [dataStep, if_neg (by rw [hs]; simp), hstep]
      subst hidx
      rfl
    · rw [append_nil]
      exact .trailer (by omega) hs rfl
  rwa [append_nil] at hpays

theorem Owes.pays (h : Owes last s l r) (hroom : 0 < room) (fuel : ℕ) :
    (l = [] ∧ s.dataStep fuel room = some none) ∨ Pays last (s.dataStep fuel room) room l r := by
  cases h with
  | size hdata hrest hi hs => exact .inr (size_pays hdata hrest hi hs hroom fuel)
  | sizeEnd hdata hrest hi hs => exact .inr (sizeEnd_pays hdata hrest hi hs hroom fuel)
  | data hdata hrest hi hs => exact .inr (data_pays hdata hrest hi hs hroom fuel)
  | dataEnd hreader hi hs => exact .inr (dataEnd_pays hreader hi hs hroom fuel)
  | lastSize hlast hs => exact .inr (lastSize_pays hlast hs hroom fuel)
  | lastSizeEnd hlast hi hs => exact .inr (lastSizeEnd_pays hlast hi hs hroom fuel)
  | lastData hlast hi hs => exact .inr (lastData_pays hlast hi hs hroom fuel)
  | finish hi hs => exact .inr (finish_pays hi hs hroom fuel)
  | trailer hi hs hidx => exact .inr (trailer_pays hi hs hidx hroom fuel)
  | done hs => exact .inl ⟨rfl, by rw [dataStep, if_pos hs]⟩

theorem paysBack (last : Bytes) :
    Library.PaysBack dataStep (Owes last) (anew (hex last.length) (behindSize last)) where
  settled _ _ _ h := h.settled
  ends fuel s room l r h hroom hstep := by
    rcases h.pays hroom fuel with ⟨hl, -⟩ | ⟨out, next, l', r', hanswer, -⟩
    · exact hl
    · rw [hanswer] at hstep
      cases hstep
  writes fuel s room l r out next h hroom hstep := by
    rcases h.pays hroom fuel with ⟨-, hend⟩ | ⟨out', next', l', r', hanswer, hnext, hl, hle, hfull, hlt⟩
    · rw [hend] at hstep
      cases hstep
    · rw [hanswer] at hstep
      cases hstep
      exact ⟨l', r', hnext, hl, hle, hfull, fun _ => hlt⟩
  total fuel s room l r h hroom _ := by
    rw [dataStep]
    split <;> nofun

end YlongHttp.Client.ChunkBody
