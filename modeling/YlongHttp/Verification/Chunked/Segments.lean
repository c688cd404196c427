import YlongHttp.Verification.Chunked.Bodies

/-! # Chunked bodies that arrive in segments -/

namespace YlongHttp.Chunked

open List

namespace BodyState

abbrev Body := Except HttpError (Bytes × (BodyState ⊕ Bytes))

/-- A whole body, or what there is of it, with the octets behind it. The last chunk is the one
without data. -/
def body : BodyState → Bytes → Body
  | s, [] => .ok ([], .inl s)
  | s, b :: rest =>
    match s.octet b with
    | .error e => .error e
    | .ok none =>
      if s.total = 0 then .ok (s.emitted b, .inr rest) else emit (s.emitted b) (body (.size 0) rest)
    | .ok (some s') => emit (s.emitted b) (body s' rest)

theorem body_eq (s : BodyState) (buf : Bytes) :
    s.body buf =
      match s.run buf with
      | .error e => .error e
      | .ok (out, .inl s') => .ok (out, .inl s')
      | .ok (out, .inr (n, rest)) =>
        if n = 0 then .ok (out, .inr rest) else emit out (body (.size 0) rest) := by
  induction buf generalizing s with
  | nil => rfl
  | cons b buf ih =>
    rw [body, run.eq_def]
    dsimp only
    cases hoctet : s.octet b with
    | error e => rfl
    | ok next =>
      cases next with
      | none => rfl
      | some s' =>
        dsimp only
        rw [ih s']
        rcases s'.run buf with _ | ⟨out, _ | ⟨n, rest⟩⟩
        · rfl
        · rfl
        · by_cases hn : n = 0
          · simp only [emit, hn, if_true]
          · simp only [hn, if_false]
            rw [emit_emit, emit]
            simp only [hn, if_false]

theorem body_append (s : BodyState) (front buf : Bytes) :
    s.body (front ++ buf) =
      match s.body front with
      | .error e => .error e
      | .ok (out, .inl s') => emit out (s'.body buf)
      | .ok (out, .inr rest) => .ok (out, .inr (rest ++ buf)) := by
  induction front generalizing s with
  | nil => exact (emit_nil _).symm
  | cons b front ih =>
    rw [cons_append, body, body.eq_def _ (b :: front)]
    dsimp only
    cases hoctet : s.octet b with
    | error e => rfl
    | ok next =>
      cases next with
      | none =>
        by_cases htotal : s.total = 0
        · simp only [htotal, if_true]
        · simp only [htotal, if_false, ih]
          rcases (BodyState.size 0).body front with _ | ⟨out, _ | rest⟩
          · rfl
          · exact emit_emit _ _ _
          · rfl
      | some s' =>
        simp only [ih]
        rcases s'.body front with _ | ⟨out, _ | rest⟩
        · rfl
        · exact emit_emit _ _ _
        · rfl

theorem run_rest_lt {s : BodyState} {buf out rest : Bytes} {n : ℕ}
    (h : s.run buf = .ok (out, .inr (n, rest))) : rest.length < buf.length := by
  induction buf generalizing s out with
  | nil => cases h
  | cons b buf ih =>
    rw [run] at h
    rw [length_cons]
    cases hoctet : s.octet b with
    | error e =>
      rw [hoctet] at h
      cases h
    | ok next =>
      rw [hoctet] at h
      cases next with
      | none =>
        cases h
        exact Nat.lt_succ_self _
      | some s' =>
        cases hrun : s'.run buf with
        | error e =>
          dsimp only at h
          rw [hrun] at h
          cases h
        | ok result =>
          dsimp only at h
          rw [hrun] at h
          obtain ⟨later, next⟩ := result
          cases h
          exact Nat.lt_succ_of_lt (ih hrun)

end BodyState

/-! ## One call -/

def Chunk.isLast (self : Chunk) : Bool := self.state = .finish && self.size = 0

namespace ChunkBodyDecoder

/-- The chunks of a body: those before the last have some data. -/
structure Whole (chunks : List Chunk) (content : Bytes) : Prop where
  data : chunks.flatMap Chunk.data = content
  ends : ∃ front last, chunks = front ++ [last] ∧ (∀ chunk ∈ front, chunk.isLast = false) ∧
    last.isLast = true

theorem Whole.cons {chunks : List Chunk} {content : Bytes} (h : Whole chunks content)
    {chunk : Chunk} (hlast : chunk.isLast = false) :
    Whole (chunk :: chunks) (chunk.data ++ content) := by
  obtain ⟨front, last, rfl, hfront, hend⟩ := h.ends
  refine ⟨by rw [flatMap_cons, h.data], chunk :: front, last, rfl, ?_, hend⟩
  intro c hc
  rcases mem_cons.mp hc with rfl | hc
  · exact hlast
  · exact hfront c hc

theorem Whole.any_isLast {chunks : List Chunk} {content : Bytes} (h : Whole chunks content) :
    chunks.any Chunk.isLast = true := by
  obtain ⟨front, last, rfl, -, hend⟩ := h.ends
  rw [any_append, any_cons, hend, Bool.true_or, Bool.or_true]

/-- A call answers as the automaton does. -/
def Answers (answer : Option (Except HttpError (ChunkBodyDecoder × List Chunk × Bytes))) :
    BodyState.Body → Prop
  | .error _ => answer = some (.error .invalidInput)
  | .ok (data, .inl s) => ∃ d chunks, answer = some (.ok (d, chunks, [])) ∧ Represents d s ∧
      chunks.flatMap Chunk.data = data ∧ chunks.any Chunk.isLast = false
  | .ok (data, .inr rest) => ∃ d chunks, answer = some (.ok (d, chunks, rest)) ∧
      Represents d (.size 0) ∧ Whole chunks data

variable {d : ChunkBodyDecoder} {s : BodyState} {buf data rest : Bytes} {n : ℕ}

theorem isLast_eq_false {chunk : Chunk} (h : chunk.size ≠ 0) : chunk.isLast = false := by
  rw [Chunk.isLast, decide_eq_false h, Bool.and_false]

theorem decodeLoop_answers {fuel : ℕ} (h : Represents d s) (hfuel : buf.length < fuel) :
    Answers (decodeLoop fuel d buf) (s.body buf) := by
  induction fuel generalizing d s buf with
  | zero => cases hfuel
  | succ fuel ih =>
    rw [BodyState.body_eq]
    cases hrun : s.run buf with
    | error e => exact decodeLoop_error h hrun fuel
    | ok result =>
      obtain ⟨data, s' | ⟨n, rest⟩⟩ := result
      · obtain ⟨next, chunk, hnext, hdata, -, hopen, hloop⟩ := decodeLoop_open h hrun
        have hlast : chunk.isLast = false := by
          rw [Chunk.isLast, show decide (chunk.state = .finish) = false from hopen, Bool.false_and]
        exact ⟨next, [chunk], hloop fuel, hnext, by simp [hdata], by simp [hlast]⟩
      · by_cases hn : n = 0
        · subst hn
          obtain ⟨next, chunk, hnext, hdata, hsize, hst, hloop⟩ := decodeLoop_last h hrun
          have hlast : chunk.isLast = true := by simp [Chunk.isLast, hsize, hst]
          exact ⟨next, [chunk], hloop fuel, hnext, by simp [hdata], [], chunk, rfl, nofun, hlast⟩
        · dsimp only
          rw [if_neg hn]
          obtain ⟨next, chunk, hnext, hdata, hsize, hloop⟩ := decodeLoop_chunk h hrun hn
          have hlast := isLast_eq_false (hsize ▸ hn)
          rw [hloop]
          by_cases hrest : rest = []
          · subst hrest
            exact ⟨next, [chunk], rfl, hnext, by simp [hdata], by simp [hlast]⟩
          · rw [if_neg (by simpa using hrest)]
            have hlt := BodyState.run_rest_lt hrun
            have hmore := ih hnext (Nat.lt_of_lt_of_le hlt (Nat.le_of_lt_succ hfuel))
            generalize (BodyState.size 0).body rest = result at hmore ⊢
            rcases result with e | ⟨later, s' | left⟩
            · have hanswer : decodeLoop fuel next rest = some (.error .invalidInput) := hmore
              rw [hanswer]
              rfl
            · obtain ⟨d', chunks, hanswer, hd', hlater, hend⟩ := hmore
              rw [hanswer]
              exact ⟨d', chunk :: chunks, rfl, hd', by rw [flatMap_cons, hlater, hdata],
                by rw [any_cons, hlast, hend]; rfl⟩
            · obtain ⟨d', chunks, hanswer, hd', hwhole⟩ := hmore
              rw [hanswer]
              exact ⟨d', chunk :: chunks, rfl, hd', hdata ▸ hwhole.cons hlast⟩

theorem decode_answers (h : Represents d s) : Answers (d.decode buf) (s.body buf) :=
  decodeLoop_answers h (Nat.lt_succ_self _)

def Decodes (coded content : Bytes) : Prop :=
  ∃ d chunks, ChunkBodyDecoder.new.decode coded = some (.ok (d, chunks, [])) ∧ Whole chunks content

theorem decodes_iff {coded content : Bytes} :
    Decodes coded content ↔ (BodyState.size 0).body coded = .ok (content, .inr []) := by
  have hcall := @decode_answers _ _ coded represents_new
  constructor
  · rintro ⟨d, chunks, hdec, hwhole⟩
    generalize (BodyState.size 0).body coded = result at hcall ⊢
    rcases result with e | ⟨data, s | rest⟩
    · have hanswer : new.decode coded = some (.error .invalidInput) := hcall
      rw [hanswer] at hdec
      cases hdec
    · obtain ⟨d', chunks', hanswer, -, -, hend⟩ := hcall
      rw [hanswer] at hdec
      cases hdec
      rw [hwhole.any_isLast] at hend
      cases hend
    · obtain ⟨d', chunks', hanswer, -, hwhole'⟩ := hcall
      rw [hanswer] at hdec
      cases hdec
      rw [← hwhole.data, hwhole'.data]
  · intro hbody
    rw [hbody] at hcall
    obtain ⟨d, chunks, hanswer, -, hwhole⟩ := hcall
    exact ⟨d, chunks, hanswer, hwhole⟩

/-! ## One call after the other -/

/-- The data of a body that arrives in segments, and what is left over behind it, if there is an
end. -/
def decodeSegments : ChunkBodyDecoder → List Bytes → Option (Except HttpError (Bytes × Option Bytes))
  | _, [] => some (.ok ([], none))
  | self, buf :: bufs =>
    match self.decode buf with
    | none => none
    | some (.error e) => some (.error e)
    | some (.ok (self, chunks, rest)) =>
      if chunks.any Chunk.isLast then
        some (.ok (chunks.flatMap Chunk.data, some (rest ++ bufs.flatten)))
      else (decodeSegments self bufs).map (BodyState.emit (chunks.flatMap Chunk.data))

def outcome : BodyState.Body → Except HttpError (Bytes × Option Bytes)
  | .error e => .error e
  | .ok (data, .inl _) => .ok (data, none)
  | .ok (data, .inr rest) => .ok (data, some rest)

theorem outcome_emit (data : Bytes) (result : BodyState.Body) :
    outcome (BodyState.emit data result) = BodyState.emit data (outcome result) := by
  rcases result with _ | ⟨later, _ | _⟩ <;> rfl

theorem decodeSegments_eq (h : Represents d s) (bufs : List Bytes) :
    d.decodeSegments bufs = some (outcome (s.body bufs.flatten)) := by
  induction bufs generalizing d s with
  | nil => rfl
  | cons buf bufs ih =>
    rw [decodeSegments, flatten_cons, BodyState.body_append]
    have hcall := @decode_answers _ _ buf h
    generalize s.body buf = result at hcall ⊢
    rcases result with e | ⟨data, s' | rest⟩
    · have hanswer : d.decode buf = some (.error .invalidInput) := hcall
      rw [hanswer]
      cases e
      rfl
    · obtain ⟨next, chunks, hanswer, hnext, hdata, hend⟩ := hcall
      rw [hanswer]
      dsimp only
      rw [hend, if_neg (by nofun), ih hnext, hdata, outcome_emit]
      rfl
    · obtain ⟨next, chunks, hanswer, -, hwhole⟩ := hcall
      rw [hanswer]
      dsimp only
      rw [if_pos hwhole.any_isLast, hwhole.data]
      rfl

end ChunkBodyDecoder

end YlongHttp.Chunked
