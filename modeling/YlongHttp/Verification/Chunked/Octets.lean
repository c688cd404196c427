import YlongHttp.Model.ChunkDecoder

/-! # A chunked body, octet by octet -/

namespace YlongHttp.Chunked

open List

/-- How far a chunk has been read. -/
inductive BodyState where
  | size (count : ℕ)
  | ext (size : ℕ)
  /-- After the CR of a size line. -/
  | sizeLf (size : ℕ)
  /-- In the data, of which there is something left. -/
  | data (size left : ℕ)
  | dataCr (size : ℕ)
  /-- After the CR behind the data. -/
  | dataLf (size : ℕ)

def digit (b : UInt8) : Option ℕ := if b = zero then some 0 else hexDigit b

def isBlank (b : UInt8) : Bool := b = ' '.toUInt8 || b = '\t'.toUInt8 || b = ';'.toUInt8

namespace BodyState

/-- What an octet leads to; `none` is the end of a chunk. -/
def octet : BodyState → UInt8 → Except HttpError (Option BodyState)
  | .size count, b =>
    match digit b with
    | some num => (hexToDecimal count num).map fun count => some (.size count)
    | none =>
      if b = cr then .ok (some (.sizeLf count))
      else if isBlank b then .ok (some (.ext count))
      else invalid
  | .ext n, b =>
    if b = cr then .ok (some (.sizeLf n)) else if b = lf then invalid else .ok (some (.ext n))
  | .sizeLf n, b => if b = lf then .ok (some (if n = 0 then .dataCr n else .data n n)) else invalid
  | .data n left, _ => .ok (some (if left = 1 then .dataCr n else .data n (left - 1)))
  | .dataCr n, b => if b = cr then .ok (some (.dataLf n)) else invalid
  | .dataLf _, b => if b = lf then .ok none else invalid

def emitted : BodyState → UInt8 → Bytes
  | .data _ _, b => [b]
  | _, _ => []

def total : BodyState → ℕ
  | .size _ => 0
  | .ext n | .sizeLf n | .data n _ | .dataCr n | .dataLf n => n

abbrev Result := Except HttpError (Bytes × (BodyState ⊕ ℕ × Bytes))

def emit {α : Type} (data : Bytes) : Except HttpError (Bytes × α) → Except HttpError (Bytes × α)
  | .error e => .error e
  | .ok (later, out) => .ok (data ++ later, out)

def run : BodyState → Bytes → Result
  | s, [] => .ok ([], .inl s)
  | s, b :: rest =>
    match s.octet b with
    | .error e => .error e
    | .ok none => .ok (s.emitted b, .inr (s.total, rest))
    | .ok (some s') => emit (s.emitted b) (run s' rest)

end BodyState

def inChunk (n : ℕ) (num : ℕ) (chunkFlag numFlag : Bool) (stage : Stage) : ChunkBodyDecoder :=
  { ChunkBodyDecoder.new with
    chunkNum := num
    totalSize := n
    chunkFlag
    numFlag
    isLastChunk := n = 0
    stage }

variable (count : ℕ)

def inSize (num : ℕ) (chunkFlag numFlag : Bool) : ChunkBodyDecoder :=
  { ChunkBodyDecoder.new with chunkNum := num, hexCount := count, chunkFlag, numFlag }

def Represents (d : ChunkBodyDecoder) (s : BodyState) : Prop :=
  ∃ num f g, match s with
    | .size count => d = inSize count num f g
    | .ext n => d = { inChunk n num f g .extension with restSize := n }
    | .sizeLf n => d = { inChunk n num f g .sizeEnd with restSize := n, crMeet := true }
    | .data n left => 0 < left ∧ 0 < n ∧ d = { inChunk n num f g .data with restSize := left }
    | .dataCr n => d = inChunk n num f g .data ∨ d = inChunk n num f g .dataEnd
    | .dataLf n => d = { inChunk n num f g .dataEnd with crMeet := true }

/-- A round answers as the automaton does, with the data read so far in this round in front. -/
def Agrees (answer : Decoded) (front : Bytes) : BodyState.Result → Prop
  | .error _ => answer = invalid
  | .ok (data, .inl s) => ∃ d chunk, answer = .ok (d, chunk, []) ∧ Represents d s ∧
      chunk.data = front ++ data ∧ chunk.trailer = none ∧ chunk.isComplete = false ∧
      chunk.size = s.total
  | .ok (data, .inr (n, rest)) => ∃ d chunk, answer = .ok (d, chunk, rest) ∧
      Represents { d with isLastChunk := false } (.size 0) ∧ d.isLastChunk = decide (n = 0) ∧
      chunk.data = front ++ data ∧ chunk.trailer = none ∧ chunk.isComplete = true ∧ chunk.size = n

theorem Agrees.emit {answer : Decoded} {front data : Bytes} {result : BodyState.Result}
    (h : Agrees answer (front ++ data) result) :
    Agrees answer front (BodyState.emit data result) := by
  match result, h with
  | .error e, h => exact h
  | .ok (later, .inl s), ⟨d, chunk, hanswer, hd, hdata, hchunk⟩ =>
    exact ⟨d, chunk, hanswer, hd, by rw [hdata, append_assoc], hchunk⟩
  | .ok (later, .inr (n, rest)), ⟨d, chunk, hanswer, hd, hlast, hdata, hchunk⟩ =>
    exact ⟨d, chunk, hanswer, hd, hlast, by rw [hdata, append_assoc], hchunk⟩

theorem emit_nil {α : Type} (result : Except HttpError (Bytes × α)) :
    BodyState.emit [] result = result := by
  cases result <;> rfl

theorem emit_emit {α : Type} (front data : Bytes) (result : Except HttpError (Bytes × α)) :
    BodyState.emit front (BodyState.emit data result) = BodyState.emit (front ++ data) result := by
  cases result with
  | error e => rfl
  | ok out => exact congrArg (fun data => Except.ok (data, out.2)) (append_assoc ..).symm

variable {rest : Bytes} {b : UInt8}

theorem run_step {s s' : BodyState} (h : s.octet b = .ok (some s')) (hdata : s.emitted b = []) :
    s.run (b :: rest) = s'.run rest := by
  rw [BodyState.run, h]
  dsimp only
  rw [hdata, emit_nil]

namespace ChunkBodyDecoder

open BodyState

variable {n num : ℕ} {f g : Bool}

theorem lf_ne_cr : lf ≠ cr := by decide

theorem dataLf_agrees (front buf : Bytes) :
    Agrees (skipBreak
      (fun self rest =>
        .ok ({ self with stage := .size, totalSize := 0 },
          sizedChunk front none self.totalSize .finish, rest))
      (fun self => .ok (self, sizedChunk front none self.totalSize .dataCrlf, []))
      { inChunk n num f g .dataEnd with crMeet := true } buf) front ((dataLf n).run buf) := by
  cases buf with
  | nil => exact ⟨_, _, rfl, ⟨num, f, g, rfl⟩, (append_nil _).symm, rfl, rfl, rfl⟩
  | cons b rest =>
    rw [skipBreak, run, octet]
    by_cases hlf : b = lf
    · subst hlf
      rw [if_neg lf_ne_cr, if_pos rfl, if_pos rfl]
      exact ⟨_, _, rfl, ⟨num, f, g, rfl⟩, rfl, (append_nil _).symm, rfl, rfl, rfl⟩
    · rw [if_neg hlf, if_neg hlf]
      split
      · rfl
      · rfl

variable (stage : Stage)

theorem dataCr_agrees (front buf : Bytes) :
    Agrees ((inChunk n num f g stage).skipLastCrlf front buf) front
      ((dataCr n).run buf) := by
  rw [skipLastCrlf]
  cases buf with
  | nil => exact ⟨_, _, rfl, ⟨num, f, g, .inr rfl⟩, (append_nil _).symm, rfl, rfl, rfl⟩
  | cons b rest =>
    rw [skipBreak]
    by_cases hcr : b = cr
    · have hnext : (dataCr n).octet b = .ok (some (.dataLf n)) := if_pos hcr
      rw [if_pos hcr, run_step hnext rfl]
      exact dataLf_agrees front rest
    · rw [if_neg hcr, run, octet, if_neg hcr]
      split
      · rfl
      · rfl

theorem dataLf_round (front buf : Bytes) :
    Agrees (skipLastCrlf { inChunk n num f g .dataEnd with crMeet := true } front buf) front
      ((dataLf n).run buf) :=
  dataLf_agrees front buf

theorem run_data {left : ℕ} (hleft : 0 < left) (buf : Bytes) :
    (data n left).run buf =
      if left ≤ buf.length then
        emit (buf.take left) ((dataCr n).run (buf.drop left))
      else .ok (buf, .inl (.data n (left - buf.length))) := by
  induction buf generalizing left with
  | nil => rw [if_neg (by simpa using hleft.ne')]; rfl
  | cons b buf ih =>
    rw [run, octet]
    dsimp only
    obtain ⟨left, rfl⟩ := Nat.exists_eq_succ_of_ne_zero hleft.ne'
    rw [emitted, length_cons, take_succ_cons, drop_succ_cons]
    by_cases hone : left = 0
    · subst hone
      rw [if_pos rfl, if_pos (by omega)]
      rfl
    · rw [if_neg (by omega), Nat.succ_sub_one, ih (Nat.pos_of_ne_zero hone)]
      by_cases hle : left ≤ buf.length
      · rw [if_pos hle, if_pos (by omega)]
        cases (dataCr n).run (buf.drop left) with
        | error e => rfl
        | ok result => simp [emit]
      · rw [if_neg hle, if_neg (by omega), Nat.succ_sub_succ]
        rfl

theorem data_agrees {left : ℕ} (hleft : 0 < left) (hn : 0 < n) (stage : Stage) (buf : Bytes) :
    Agrees (decodeData { inChunk n num f g stage with restSize := left } buf) []
      ((data n left).run buf) := by
  rw [decodeData, run_data hleft]
  dsimp only
  by_cases hnil : buf = []
  · subst hnil
    rw [if_pos rfl, if_neg (by simpa using hleft.ne')]
    exact ⟨_, _, rfl, ⟨num, f, g, hleft, hn, rfl⟩, rfl, rfl, rfl, rfl⟩
  · rw [if_neg hnil]
    by_cases hle : left ≤ buf.length
    · rw [if_pos hle, if_pos hle]
      refine Agrees.emit ?_
      exact dataCr_agrees .data (buf.take left) (buf.drop left)
    · rw [if_neg hle, if_neg hle]
      refine ⟨_, _, rfl, ⟨num, f, g, ?_, hn, rfl⟩, rfl, rfl, rfl, rfl⟩
      omega

theorem noData_agrees (buf : Bytes) :
    Agrees (decodeData (inChunk n num f g stage) buf) [] ((dataCr n).run buf) := by
  rw [decodeData]
  dsimp only
  by_cases hnil : buf = []
  · subst hnil
    rw [if_pos rfl]
    exact ⟨_, _, rfl, ⟨num, f, g, .inl rfl⟩, rfl, rfl, rfl, rfl⟩
  · rw [if_neg hnil, if_pos (show (inChunk n num f g stage).restSize ≤ buf.length from Nat.zero_le _)]
    exact dataCr_agrees .data [] buf

theorem sizeLf_agrees (buf : Bytes) :
    Agrees (skipCrlf { inChunk n num f g stage with restSize := n, crMeet := true } buf) []
      ((sizeLf n).run buf) := by
  rw [skipCrlf]
  cases buf with
  | nil => exact ⟨_, _, rfl, ⟨num, f, g, rfl⟩, rfl, rfl, rfl, rfl⟩
  | cons b rest =>
    rw [skipBreak]
    by_cases hlf : b = lf
    · subst hlf
      have hnext : (sizeLf n).octet lf =
          .ok (some (if n = 0 then .dataCr n else .data n n)) := by rw [octet, if_pos rfl]
      rw [if_neg lf_ne_cr, if_pos rfl, run_step hnext rfl]
      by_cases hn : n = 0
      · subst hn
        exact noData_agrees .sizeEnd rest
      · rw [if_neg hn]
        exact data_agrees (Nat.pos_of_ne_zero hn) (Nat.pos_of_ne_zero hn) .sizeEnd rest
    · rw [run, octet, if_neg hlf, if_neg hlf]
      split
      · rfl
      · rfl

theorem ext_agrees (buf : Bytes) :
    Agrees (skipChunkExt { inChunk n num f g .extension with restSize := n } buf) []
      ((ext n).run buf) := by
  rw [skipChunkExt]
  induction buf with
  | nil => exact ⟨_, _, rfl, ⟨num, f, g, rfl⟩, rfl, rfl, rfl, rfl⟩
  | cons b rest ih =>
    rw [skipExt]
    by_cases hcr : b = cr
    · have hnext : (ext n).octet b = .ok (some (.sizeLf n)) := if_pos hcr
      rw [if_pos hcr, run_step hnext rfl]
      exact sizeLf_agrees .extension rest
    · rw [if_neg hcr]
      by_cases hlf : b = lf
      · rw [if_pos hlf, run, octet, if_neg hcr, if_pos hlf]
        rfl
      · have hskip : (ext n).octet b = .ok (some (.ext n)) := by
          rw [octet, if_neg hcr, if_neg hlf]
        rw [if_neg hlf, run_step hskip rfl]
        exact ih

theorem special_agrees (stage : Stage) (buf : Bytes) :
    Agrees (decodeSpecialChar { inSize count num f g with stage } buf) []
      ((ext count).run buf) := by
  rw [decodeSpecialChar, if_neg (show ¬(inSize count num f g).isChunkTrailer = true from nofun)]
  dsimp only
  by_cases hcnt : count = 0
  · subst hcnt
    rw [if_pos (show (inSize 0 num f g).hexCount = 0 from rfl), skipExtension, if_neg (by nofun)]
    exact @ext_agrees 0 num f false buf
  · rw [if_neg (show ¬(inSize count num f g).hexCount = 0 from hcnt), skipExtension,
      if_neg (by nofun)]
    have hlast : inChunk count num f false .extension =
        { inSize count num f false with totalSize := count, hexCount := 0, stage := .extension } := by
      rw [inChunk, decide_eq_false hcnt]
      rfl
    have hext := @ext_agrees count num f false buf
    rw [hlast] at hext
    exact hext

theorem run_special {count : ℕ} (hdigit : digit b = none)
    (hb : b = ' '.toUInt8 ∨ b = '\t'.toUInt8 ∨ b = ';'.toUInt8 ∨ b = cr ∨ b = lf) :
    (size count).run (b :: rest) = (ext count).run (b :: rest) := by
  by_cases hcr : b = cr
  · have hsize : (size count).octet b = .ok (some (.sizeLf count)) := by
      rw [octet, hdigit]
      exact if_pos hcr
    have hext : (ext count).octet b = .ok (some (.sizeLf count)) := if_pos hcr
    rw [run_step hsize rfl, run_step hext rfl]
  · by_cases hlf : b = lf
    · subst hlf
      rw [run, run, octet, octet, hdigit]
      rfl
    · have hblank : isBlank b = true := by
        simpa [isBlank, hcr, hlf, or_assoc] using hb
      have hsize : (size count).octet b = .ok (some (.ext count)) := by
        rw [octet, hdigit]
        dsimp only
        rw [if_neg hcr, if_pos hblank]
      have hext : (ext count).octet b = .ok (some (.ext count)) := by
        rw [octet, if_neg hcr, if_neg hlf]
      rw [run_step hsize rfl, run_step hext rfl]

theorem run_digit {count value : ℕ} (hdigit : digit b = some value) :
    (size count).run (b :: rest) =
      match hexToDecimal count value with
      | .error e => .error e
      | .ok count => (size count).run rest := by
  cases hcnt : hexToDecimal count value with
  | error e =>
    rw [run, octet, hdigit]
    dsimp only
    rw [hcnt]
    rfl
  | ok count' =>
    have hnext : (size count).octet b = .ok (some (.size count')) := by
      rw [octet, hdigit]
      dsimp only
      rw [hcnt]
      rfl
    exact run_step hnext rfl

theorem size_agrees (count : ℕ) (buf : Bytes) :
    Agrees (sizeLoop (inSize count num f g) buf) [] ((size count).run buf) := by
  induction buf generalizing count f g with
  | nil => exact ⟨_, _, rfl, ⟨num, f, g, rfl⟩, rfl, rfl, rfl, rfl⟩
  | cons b rest ih =>
    rw [sizeLoop]
    by_cases hzero : b = zero
    · have hdigit : digit b = some 0 := if_pos hzero
      rw [if_pos hzero, run_digit hdigit]
      dsimp only
      rw [if_neg (by rintro ⟨-, htrailer, -⟩; cases htrailer)]
      change Agrees (match hexToDecimal count 0 with
        | .error e => .error e
        | .ok hexCount => sizeLoop (inSize hexCount num f g) rest) [] _
      cases hexToDecimal count 0 with
      | error e => cases e; rfl
      | ok count' => exact ih count'
    · have hdigit : digit b = hexDigit b := if_neg hzero
      rw [if_neg hzero]
      cases hhex : hexDigit b with
      | some value =>
        rw [hhex] at hdigit
        rw [run_digit hdigit]
        change Agrees (match hexToDecimal count value with
          | .error e => .error e
          | .ok hexCount => sizeLoop (inSize hexCount num true true) rest) [] _
        cases hexToDecimal count value with
        | error e => cases e; rfl
        | ok count' => exact ih count'
      | none =>
        rw [hhex] at hdigit
        dsimp only
        by_cases hb : b = ' '.toUInt8 ∨ b = '\t'.toUInt8 ∨ b = ';'.toUInt8 ∨ b = cr ∨ b = lf
        · rw [if_pos hb, run_special hdigit hb]
          exact special_agrees count .size (b :: rest)
        · have hcr : b ≠ cr := fun h => hb (by simp [h])
          have hblank : ¬isBlank b = true := by
            intro h
            rw [isBlank, Bool.or_eq_true, Bool.or_eq_true, decide_eq_true_eq,
              decide_eq_true_eq, decide_eq_true_eq] at h
            exact hb (by tauto)
          rw [if_neg hb, run, octet, hdigit]
          dsimp only
          rw [if_neg hcr, if_neg hblank]
          rfl

theorem decodeSize_agrees (buf : Bytes) :
    Agrees ((inSize count num f g).decodeSize buf) [] ((size count).run buf) := by
  rw [decodeSize]
  dsimp only
  by_cases hnil : buf = []
  · subst hnil
    rw [if_pos rfl]
    exact ⟨_, _, rfl, ⟨num, f, g, rfl⟩, rfl, rfl, rfl, rfl⟩
  · rw [if_neg hnil]
    exact @size_agrees num false g count buf

theorem round_agrees {d : ChunkBodyDecoder} {s : BodyState} (h : Represents d s) (buf : Bytes) :
    Agrees (d.round buf) [] (s.run buf) := by
  obtain ⟨num, f, g, h⟩ := h
  cases s with
  | size count =>
    obtain rfl : d = _ := h
    exact decodeSize_agrees count buf
  | ext n =>
    obtain rfl : d = _ := h
    exact ext_agrees buf
  | sizeLf n =>
    obtain rfl : d = _ := h
    exact sizeLf_agrees .sizeEnd buf
  | data n left =>
    obtain ⟨hleft, hn, rfl⟩ := h
    exact data_agrees hleft hn .data buf
  | dataCr n =>
    rcases h with rfl | rfl
    · exact noData_agrees .data buf
    · exact dataCr_agrees .dataEnd [] buf
  | dataLf n =>
    obtain rfl : d = _ := h
    exact dataLf_round [] buf

end ChunkBodyDecoder

end YlongHttp.Chunked
