import YlongHttp.Model.TextIo

/-! # Reading a body

What the readers of HTTP/2 and HTTP/3 have in common: a body comes in pieces, and a buffer takes
what it has room for of the piece that is being read. -/

namespace YlongHttp

open List

variable {φ μ : Type}

/-! ## Bodies in pieces -/

/-- The octets that a message adds to the body, and whether the body ends with it. -/
structure Piece where
  octets : Bytes
  last : Bool

def payload (pieces : List Piece) : Bytes := pieces.flatMap Piece.octets

theorem payload_append (front back : List Piece) :
    payload (front ++ back) = payload front ++ payload back := List.flatMap_append

/-- The pieces that may follow: none follows the last one. -/
inductive OneEnd : Bool → List Piece → Prop
  | nil (ended : Bool) : OneEnd ended []
  | cons {piece : Piece} {pieces : List Piece} (rest : OneEnd piece.last pieces) :
      OneEnd false (piece :: pieces)

theorem OneEnd.eq_nil {pieces : List Piece} (h : OneEnd true pieces) : pieces = [] := by
  cases h
  rfl

def messages (answers : List (Poll (Option μ))) : List μ :=
  answers.filterMap fun answer =>
    match answer with
    | .ready message => message
    | .pending => none

def Open (answers : List (Poll (Option μ))) : Prop := .ready none ∉ answers

theorem Open.tail {answer : Poll (Option μ)} {answers : List (Poll (Option μ))}
    (h : Open (answer :: answers)) : Open answers := fun hmem => h (.tail _ hmem)

/-! ## Runs -/

/-- The answers still to come, and what the reads have delivered. -/
structure ReaderRun (φ μ : Type) where
  io : TextIo φ
  answers : List (Poll (Option μ))
  delivered : Bytes

namespace ReaderRun

def start (answers : List (Poll (Option μ))) : ReaderRun φ μ := { io := .new, answers, delivered := [] }

def poll (reader : BodyReader φ μ) (speed : SpeedController) (capacity : ℕ) (run : ReaderRun φ μ) :
    Polled φ μ :=
  run.io.pollRead reader speed (.new capacity) run.answers

end ReaderRun

def Polled.octets (polled : Polled φ μ) : Bytes :=
  match polled.result with
  | .ready (.ok ()) => polled.buf.filled
  | _ => []

def Polled.IsEnd (polled : Polled φ μ) : Prop :=
  polled.result = .ready (.ok ()) ∧ polled.buf.filled = []

def Polled.IsError (polled : Polled φ μ) : Prop := ∃ e, polled.result = .ready (.error e)

def ReaderRun.after (run : ReaderRun φ μ) (polled : Polled φ μ) : ReaderRun φ μ :=
  { io := polled.io, answers := polled.answers, delivered := run.delivered ++ polled.octets }

/-- Reads one after another into buffers that are not empty. The first error ends them: the body
gives its reader up then. -/
inductive Reads (reader : BodyReader φ μ) (first : ReaderRun φ μ) : ReaderRun φ μ → Prop
  | refl : Reads reader first first
  | read {run : ReaderRun φ μ} (h : Reads reader first run) (speed : SpeedController) {capacity : ℕ}
      (hcapacity : 0 < capacity) (hok : ¬(run.poll reader speed capacity).IsError) :
      Reads reader first (run.after (run.poll reader speed capacity))

def ReaderRun.readAll (reader : BodyReader φ μ) : List ℕ → ReaderRun φ μ → ReaderRun φ μ
  | [], run => run
  | capacity :: capacities, run =>
    readAll reader capacities (run.after (run.poll reader .none capacity))

/-! ## Readers -/

/-- What a reader has to do with the messages that are `plain`. `At io rest ended` says that it
holds the octets `rest` of a piece, with which the body ends or not. -/
structure BodyReader.Lawful (reader : BodyReader φ μ) (plain : μ → Prop) (piece : μ → Piece)
    (At : TextIo φ → Bytes → Bool → Prop) : Prop where
  start : At .new [] false
  closed : ∀ {io rest ended}, At io rest ended → io.isClosed = (ended && rest.isEmpty)
  pending : ∀ io buf, reader.matchChannelMessage io buf .pending = ⟨some .pending, io, buf⟩
  idle : ∀ {io ended} (buf), At io [] ended → reader.readRemainingData io buf = ⟨none, io, buf⟩
  remaining : ∀ {io rest ended} {buf : ReadBuf}, At io rest ended → rest ≠ [] →
    0 < buf.remaining → ∃ io', reader.readRemainingData io buf =
      ⟨TextIo.ready, io', buf.appendSlice (rest.take buf.remaining)⟩ ∧
        At io' (rest.drop buf.remaining) ended
  message : ∀ {io message} (buf : ReadBuf), At io [] false → plain message → 0 < buf.remaining →
    ∃ io', reader.matchChannelMessage io buf (.ready message) =
      ⟨if (piece message).octets = [] ∧ (piece message).last = false then none else TextIo.ready,
        io', buf.appendSlice ((piece message).octets.take buf.remaining)⟩ ∧
        At io' ((piece message).octets.drop buf.remaining) (piece message).last

section Lawful

variable {reader : BodyReader φ μ} {plain : μ → Prop} {piece : μ → Piece}
  {At : TextIo φ → Bytes → Bool → Prop}
variable {speed : SpeedController} {answers : List (Poll (Option μ))} {io : TextIo φ} {ended : Bool}
  {held rest : Bytes} {polled : Polled φ μ} {capacity : ℕ} {all seen : List μ}

/-! ## One read -/

@[simp] theorem ReadBuf.remaining_new (capacity : ℕ) : (ReadBuf.new capacity).remaining = capacity :=
  rfl

@[simp] theorem ReadBuf.filled_new (capacity : ℕ) : (ReadBuf.new capacity).filled = [] := rfl

@[simp] theorem ReadBuf.filled_appendSlice (buf : ReadBuf) (octets : Bytes) :
    (buf.appendSlice octets).filled = buf.filled ++ octets := rfl

@[simp] theorem ReadBuf.appendSlice_nil (buf : ReadBuf) : buf.appendSlice [] = buf := by
  rw [ReadBuf.appendSlice, append_nil]

/-- Where a read leaves the reader: `taken` was taken out of the channel, and `rest` is held. -/
structure Advance (piece : μ → Piece) (At : TextIo φ → Bytes → Bool → Prop) (held : Bytes)
    (ended : Bool) (answers : List (Poll (Option μ))) (speed : SpeedController)
    (polled : Polled φ μ) (taken : List μ) (rest : Bytes) : Prop where
  opened : Open polled.answers
  split : messages answers = taken ++ messages polled.answers
  fewer : polled.answers.length ≤ answers.length
  at_end : At polled.io rest (ended || (taken.map piece).any (·.last))
  octets : polled.octets ++ rest = held ++ payload (taken.map piece)
  progress : speed.pollMaxRecvDelayTime ≠ .pending →
    polled.answers.length < answers.length ∨ polled.octets ≠ [] ∨ answers = [] ∧ held = []
  ending : polled.IsEnd → rest = [] ∧ (ended || (taken.map piece).any (·.last)) = true

theorem readRemaining_idle (law : reader.Lawful plain piece At) (buf : ReadBuf)
    {next : TextIo φ → ReadBuf → Polled φ μ} (h : At io [] ended) (hbuf : 0 < buf.remaining) :
    TextIo.readRemaining reader speed answers io buf next = next io buf := by
  rw [TextIo.readRemaining, if_neg hbuf.ne', law.idle buf h]

theorem readRemaining_held (law : reader.Lawful plain piece At) (speed : SpeedController)
    (answers : List (Poll (Option μ))) (buf : ReadBuf) (next : TextIo φ → ReadBuf → Polled φ μ)
    (h : At io rest ended) (hrest : rest ≠ []) (hbuf : 0 < buf.remaining) :
    ∃ io', TextIo.readRemaining reader speed answers io buf next =
        { result := TextIo.finish speed (buf.appendSlice (rest.take buf.remaining)) (.ready (.ok ()))
          io := io', buf := buf.appendSlice (rest.take buf.remaining), answers } ∧
      At io' (rest.drop buf.remaining) ended := by
  obtain ⟨io', hread, hat⟩ := law.remaining h hrest hbuf
  refine ⟨io', ?_, hat⟩
  rw [TextIo.readRemaining, if_neg hbuf.ne', hread]
  rfl

theorem readLoop_eq (speed : SpeedController) (answers : List (Poll (Option μ))) (io : TextIo φ)
    (buf : ReadBuf) : ∃ next, TextIo.readLoop reader speed answers io buf =
      TextIo.readRemaining reader speed answers io buf next := by
  rcases answers with _ | ⟨(_ | _) | _, answers⟩ <;> exact ⟨_, rfl⟩

theorem octets_pending (h : polled.result = .pending) : polled.octets = [] := by
  rw [Polled.octets, h]

theorem not_isError_finish {buf : ReadBuf}
    (hres : polled.result = TextIo.finish speed buf (.ready (.ok ()))) (hok : ¬polled.IsError) :
    polled.result = .ready (.ok ()) := by
  rw [TextIo.finish] at hres
  split at hres
  · exact absurd ⟨_, hres⟩ hok
  · exact hres

theorem octets_ready (h : polled.result = .ready (.ok ())) : polled.octets = polled.buf.filled := by
  rw [Polled.octets, h]

theorem advance_held (law : reader.Lawful plain piece At) (hat : At io held ended)
    (hheld : held ≠ []) (hcapacity : 0 < capacity) (hopen : Open answers)
    (hok : ¬(TextIo.readLoop reader speed answers io (.new capacity)).IsError) :
    ∃ rest, Advance piece At held ended answers speed
      (TextIo.readLoop reader speed answers io (.new capacity)) [] rest := by
  obtain ⟨next, hloop⟩ := @readLoop_eq φ μ reader speed answers io (.new capacity)
  obtain ⟨io', hread, hat'⟩ := readRemaining_held law speed answers (.new capacity) next
    hat hheld hcapacity
  rw [hloop, hread] at hok ⊢
  have hready := not_isError_finish rfl hok
  have hoct := octets_ready hready
  have hne : held.take capacity ≠ [] := by simp [hheld, hcapacity.ne']
  refine ⟨held.drop capacity, hopen, rfl, le_rfl, by simpa using hat', ?_,
    fun _ => .inr (.inl ?_), ?_⟩
  · rw [hoct]
    simp [payload]
  · rw [hoct]
    exact hne
  · intro hend
    exact absurd hend.2 hne

theorem advance_idle (law : reader.Lawful plain piece At) (hat : At io [] false)
    (hcapacity : 0 < capacity) (hopen : Open answers)
    (hplain : ∀ message ∈ messages answers, plain message)
    (hok : ¬(TextIo.readLoop reader speed answers io (.new capacity)).IsError) :
    ∃ taken rest, Advance piece At [] false answers speed
      (TextIo.readLoop reader speed answers io (.new capacity)) taken rest := by
  induction answers generalizing io with
  | nil =>
    refine ⟨[], [], ?_⟩
    rw [TextIo.readLoop, readRemaining_idle law (.new capacity) hat hcapacity, TextIo.readMessage, law.pending]
    refine ⟨hopen, rfl, le_rfl, by simpa using hat, ?_, fun _ => .inr (.inr ⟨rfl, rfl⟩), ?_⟩
    · rw [octets_pending rfl]
      rfl
    · rintro ⟨hready, -⟩
      cases hready
  | cons answer answers ih =>
    rcases answer with message | _
    · rcases message with _ | message
      · exact absurd (.head _) hopen
      · obtain ⟨io', hmsg, hat'⟩ := law.message (.new capacity) hat
          (hplain message (.head _)) hcapacity
        rw [TextIo.readLoop, readRemaining_idle law (.new capacity) hat hcapacity, TextIo.readMessage,
          hmsg] at hok ⊢
        by_cases hempty : (piece message).octets = [] ∧ (piece message).last = false
        · -- an empty piece: the loop goes on
          obtain ⟨hoct, hlast⟩ := hempty
          simp only [hoct, hlast, and_self, if_true, take_nil, drop_nil,
            ReadBuf.appendSlice_nil] at hok hat' ⊢
          obtain ⟨taken, rest, h⟩ := ih hat' hopen.tail
            (fun m hm => hplain m (.tail _ hm)) hok
          refine ⟨message :: taken, rest, h.opened, congrArg (message :: ·) h.split,
            h.fewer.trans (Nat.le_succ _), ?_, ?_, fun _ => .inl ?_, ?_⟩
          · simpa [hlast] using h.at_end
          · simpa [payload, hoct] using h.octets
          · exact Nat.lt_succ_of_le h.fewer
          · simpa [hlast] using h.ending
        · simp only [if_neg hempty, TextIo.ready] at hok ⊢
          have hready := not_isError_finish rfl hok
          have hoct := octets_ready hready
          refine ⟨[message], (piece message).octets.drop capacity, hopen.tail, rfl,
            Nat.le_succ _, by simpa using hat', ?_, fun _ => .inl (Nat.lt_succ_self _), ?_⟩
          · rw [hoct]
            simp [payload]
          · rintro ⟨-, hfill⟩
            have hnil : (piece message).octets = [] := by simpa [hcapacity.ne'] using hfill
            have hlast : (piece message).last = true := by simpa [hnil] using hempty
            simp [hnil, hlast]
    · refine ⟨[], [], ?_⟩
      rw [TextIo.readLoop, readRemaining_idle law (.new capacity) hat hcapacity, TextIo.readMessage, law.pending]
      refine ⟨hopen.tail, rfl, Nat.le_succ _, by simpa using hat, ?_,
        fun _ => .inl (Nat.lt_succ_self _), ?_⟩
      · rw [octets_pending rfl]
        rfl
      · rintro ⟨hready, -⟩
        cases hready

theorem readLoop_unlimited (law : reader.Lawful plain piece At) (hat : At io held ended)
    (hended : held = [] → ended = false) (hcapacity : 0 < capacity) (hopen : Open answers)
    (hplain : ∀ message ∈ messages answers, plain message) :
    ¬(TextIo.readLoop reader .none answers io (.new capacity)).IsError := by
  by_cases hheld : held = []
  · subst hheld
    rw [hended rfl] at hat
    clear hended
    induction answers generalizing io with
    | nil =>
      rw [TextIo.readLoop, readRemaining_idle law (.new capacity) hat hcapacity,
        TextIo.readMessage, law.pending]
      rintro ⟨e, he⟩
      cases he
    | cons answer answers ih =>
      rcases answer with (_ | message) | _
      · exact absurd (.head _) hopen
      · obtain ⟨io', hmsg, hat'⟩ := law.message (.new capacity) hat
          (hplain message (.head _)) hcapacity
        rw [TextIo.readLoop, readRemaining_idle law (.new capacity) hat hcapacity,
          TextIo.readMessage, hmsg]
        by_cases hempty : (piece message).octets = [] ∧ (piece message).last = false
        · simp only [hempty, and_self, if_true, take_nil, drop_nil,
            ReadBuf.appendSlice_nil] at hat' ⊢
          exact ih hopen.tail (fun m hm => hplain m (.tail _ hm)) hat'
        · simp only [if_neg hempty, TextIo.ready]
          rintro ⟨e, he⟩
          cases he
      · rw [TextIo.readLoop, readRemaining_idle law (.new capacity) hat hcapacity,
          TextIo.readMessage, law.pending]
        rintro ⟨e, he⟩
        cases he
  · obtain ⟨next, hloop⟩ := @readLoop_eq φ μ reader .none answers io (.new capacity)
    obtain ⟨io', hread, -⟩ := readRemaining_held law .none answers (.new capacity) next
      hat hheld hcapacity
    rw [hloop, hread]
    rintro ⟨e, he⟩
    cases he

/-! ## Runs of reads -/

/-- A run that has taken the messages `seen` of `all`, and holds the octets `rest`. -/
structure ReaderRun.Holds (piece : μ → Piece) (At : TextIo φ → Bytes → Bool → Prop) (all : List μ)
    (run : ReaderRun φ μ) (seen : List μ) (rest : Bytes) : Prop where
  opened : Open run.answers
  split : all = seen ++ messages run.answers
  at_rest : At run.io rest ((seen.map piece).any (·.last))
  delivered : run.delivered ++ rest = payload (seen.map piece)

variable {run : ReaderRun φ μ}

theorem poll_closed (law : reader.Lawful plain piece At) (hat : At run.io [] true)
    (speed : SpeedController) (capacity : ℕ) :
    run.poll reader speed capacity =
      { result := .ready (.ok ()), io := run.io, buf := .new capacity, answers := run.answers } := by
  rw [ReaderRun.poll, TextIo.pollRead, law.closed hat]
  simp

theorem poll_open (law : reader.Lawful plain piece At) (hat : At run.io rest ended)
    (hopen : rest = [] → ended = false) (speed : SpeedController) (hcapacity : 0 < capacity) :
    run.poll reader speed capacity =
      if speed.pollRecvPendingTimeout then
        { result := .ready (.error .timedOut), io := run.io, buf := .new capacity
          answers := run.answers }
      else if speed.pollMaxRecvDelayTime = .pending then
        { result := .pending, io := run.io, buf := .new capacity, answers := run.answers }
      else TextIo.readLoop reader speed run.answers run.io (.new capacity) := by
  have hclosed : run.io.isClosed = false := by
    rw [law.closed hat]
    cases ended
    · rfl
    · cases rest with
      | nil => cases hopen rfl
      | cons b rest => rfl
  rw [ReaderRun.poll, TextIo.pollRead, hclosed]
  simp [hcapacity.ne']

theorem poll_advance (law : reader.Lawful plain piece At) (hat : At run.io held ended)
    (hended : held = [] → ended = false) (speed : SpeedController) (hcapacity : 0 < capacity)
    (hopen : Open run.answers) (hplain : ∀ message ∈ messages run.answers, plain message)
    (hok : ¬(run.poll reader speed capacity).IsError) :
    ∃ taken rest, Advance piece At held ended run.answers speed
      (run.poll reader speed capacity) taken rest := by
  rw [poll_open law hat hended speed hcapacity] at hok ⊢
  by_cases htimeout : speed.pollRecvPendingTimeout
  · rw [if_pos htimeout] at hok
    exact absurd ⟨_, rfl⟩ hok
  · rw [if_neg htimeout] at hok ⊢
    by_cases hdelay : speed.pollMaxRecvDelayTime = .pending
    · rw [if_pos hdelay]
      refine ⟨[], held, hopen, rfl, le_rfl, by simpa using hat, ?_, fun h => absurd hdelay h, ?_⟩
      · rw [octets_pending rfl]
        simp [payload]
      · rintro ⟨hready, -⟩
        cases hready
    · rw [if_neg hdelay] at hok ⊢
      by_cases hheld : held = []
      · subst hheld
        rw [hended rfl] at hat ⊢
        exact advance_idle law hat hcapacity hopen hplain hok
      · obtain ⟨rest, h⟩ := advance_held law hat hheld hcapacity hopen hok
        exact ⟨[], rest, h⟩

theorem ReaderRun.Holds.advance {taken : List μ} {rest' : Bytes}
    (h : run.Holds piece At all seen rest)
    (hadvance : Advance piece At rest ((seen.map piece).any (·.last)) run.answers speed polled
      taken rest') : (run.after polled).Holds piece At all (seen ++ taken) rest' := by
  refine ⟨hadvance.opened, ?_, ?_, ?_⟩
  · rw [h.split, hadvance.split, append_assoc]
    rfl
  · rw [map_append, any_append]
    exact hadvance.at_end
  · rw [map_append, payload_append, ← h.delivered, append_assoc, ← hadvance.octets,
      ReaderRun.after, append_assoc]

theorem ReaderRun.Holds.read (law : reader.Lawful plain piece At) {all : List μ} {run : ReaderRun φ μ}
    {seen : List μ} {rest : Bytes} (h : run.Holds piece At all seen rest)
    (hplain : ∀ message ∈ all, plain message) (speed : SpeedController) {capacity : ℕ}
    (hcapacity : 0 < capacity) (hok : ¬(run.poll reader speed capacity).IsError) :
    ∃ taken rest', (run.after (run.poll reader speed capacity)).Holds piece At all
        (seen ++ taken) rest' ∧
      ((run.poll reader speed capacity).IsEnd →
        rest' = [] ∧ ((seen ++ taken).map piece).any (·.last) = true) := by
  by_cases hclosed : rest = [] ∧ (seen.map piece).any (·.last) = true
  · obtain ⟨rfl, hended⟩ := hclosed
    have hat := h.at_rest
    rw [hended] at hat
    refine ⟨[], [], ?_, fun _ => ⟨rfl, by rwa [append_nil]⟩⟩
    rw [poll_closed law hat, append_nil]
    refine ⟨h.opened, h.split, h.at_rest, ?_⟩
    simpa [ReaderRun.after, Polled.octets] using h.delivered
  · have hended : rest = [] → (seen.map piece).any (·.last) = false := by
      intro hrest
      exact Bool.eq_false_iff.mpr fun hlast => hclosed ⟨hrest, hlast⟩
    obtain ⟨taken, rest', hadvance⟩ := poll_advance law h.at_rest hended speed hcapacity h.opened
      (fun m hm => hplain m (h.split ▸ mem_append_right _ hm)) hok
    refine ⟨taken, rest', h.advance hadvance, ?_⟩
    rw [map_append, any_append]
    exact hadvance.ending

theorem Reads.holds (law : reader.Lawful plain piece At) {answers : List (Poll (Option μ))}
    (hopen : Open answers) (hplain : ∀ message ∈ messages answers, plain message)
    {run : ReaderRun φ μ} (h : Reads reader (.start answers) run) :
    ∃ seen rest, run.Holds piece At (messages answers) seen rest := by
  induction h with
  | refl => exact ⟨[], [], hopen, rfl, law.start, rfl⟩
  | read h speed hcapacity hok ih =>
    obtain ⟨seen, rest, ih⟩ := ih
    obtain ⟨taken, rest', hnext, -⟩ := ih.read law hplain speed hcapacity hok
    exact ⟨_, _, hnext⟩

theorem OneEnd.eq_nil_of_any {front back : List Piece} (h : OneEnd ended (front ++ back))
    (hlast : (ended || front.any (·.last)) = true) : back = [] := by
  induction front generalizing ended with
  | nil =>
    have hended : ended = true := by simpa using hlast
    subst hended
    exact h.eq_nil
  | cons piece front ih =>
    cases h with
    | cons rest => exact ih rest (by simpa using hlast)

theorem ReaderRun.Holds.eq_of_ended (h : run.Holds piece At all seen rest)
    (hone : OneEnd false (all.map piece)) (hended : (seen.map piece).any (·.last) = true) :
    messages run.answers = [] ∧ seen = all := by
  have hall := h.split
  rw [hall, map_append] at hone
  have hnil : messages run.answers = [] :=
    map_eq_nil_iff.mp (hone.eq_nil_of_any (by simpa using hended))
  rw [hnil, append_nil] at hall
  exact ⟨hnil, hall.symm⟩

theorem ReaderRun.Holds.isPrefix (h : run.Holds piece At all seen rest) :
    run.delivered <+: payload (all.map piece) := by
  rw [h.split, map_append, payload_append, ← h.delivered, append_assoc]
  exact prefix_append _ _

theorem readAll_closed (law : reader.Lawful plain piece At) (capacities : List ℕ)
    (hat : At run.io [] true) : ReaderRun.readAll reader capacities run = run := by
  induction capacities with
  | nil => rfl
  | cons capacity capacities ih =>
    have hsame : run.after (run.poll reader .none capacity) = run := by
      rw [poll_closed law hat]
      exact congrArg (ReaderRun.mk run.io run.answers) (append_nil _)
    rw [ReaderRun.readAll, hsame, ih]

theorem ReaderRun.Holds.not_isError (law : reader.Lawful plain piece At)
    (hplain : ∀ message ∈ all, plain message) (h : run.Holds piece At all seen rest)
    (hcapacity : 0 < capacity) : ¬(run.poll reader .none capacity).IsError := by
  by_cases hclosed : rest = [] ∧ (seen.map piece).any (·.last) = true
  · have hat := h.at_rest
    rw [hclosed.1, hclosed.2] at hat
    rw [poll_closed law hat]
    rintro ⟨e, he⟩
    cases he
  · have hended : rest = [] → (seen.map piece).any (·.last) = false := by
      intro hrest
      exact Bool.eq_false_iff.mpr fun hlast => hclosed ⟨hrest, hlast⟩
    rw [poll_open law h.at_rest hended _ hcapacity]
    exact readLoop_unlimited law h.at_rest hended hcapacity h.opened
      fun m hm => hplain m (h.split ▸ mem_append_right _ hm)

theorem ReaderRun.Holds.readAll (law : reader.Lawful plain piece At)
    (hplain : ∀ message ∈ all, plain message) (hone : OneEnd false (all.map piece))
    {capacities : List ℕ} (hcapacities : ∀ capacity ∈ capacities, 0 < capacity)
    (h : run.Holds piece At all seen rest)
    (henough : run.answers.length + (rest ++ payload ((messages run.answers).map piece)).length ≤
      capacities.length) : (ReaderRun.readAll reader capacities run).Holds piece At all all [] := by
  induction capacities generalizing run seen rest with
  | nil =>
    have hzero := Nat.le_zero.mp henough
    have hanswers : run.answers = [] := length_eq_zero_iff.mp (by omega)
    have hrest : rest = [] := by
      rw [length_append] at hzero
      exact length_eq_zero_iff.mp (by omega)
    have hseen : seen = all := by
      rw [h.split, hanswers]
      exact (append_nil seen).symm
    subst hrest hseen
    exact h
  | cons capacity capacities ih =>
    by_cases hclosed : rest = [] ∧ (seen.map piece).any (·.last) = true
    · obtain ⟨rfl, hended⟩ := hclosed
      have hat := h.at_rest
      rw [hended] at hat
      rw [readAll_closed law _ hat]
      obtain ⟨-, rfl⟩ := h.eq_of_ended hone hended
      exact h
    · have hended : rest = [] → (seen.map piece).any (·.last) = false := by
        intro hrest
        exact Bool.eq_false_iff.mpr fun hlast => hclosed ⟨hrest, hlast⟩
      have hcapacity := hcapacities capacity (.head _)
      obtain ⟨taken, rest', hadvance⟩ := poll_advance law h.at_rest hended _ hcapacity h.opened
        (fun m hm => hplain m (h.split ▸ mem_append_right _ hm))
        (h.not_isError law hplain hcapacity)
      apply ih (fun c hc => hcapacities c (.tail _ hc)) (h.advance hadvance)
      have hsplit := congrArg length hadvance.octets
      have hfewer := hadvance.fewer
      have hanswers : (run.after (run.poll reader .none capacity)).answers =
          (run.poll reader .none capacity).answers := rfl
      rw [hanswers]
      rw [hadvance.split, map_append, payload_append] at henough
      simp only [length_append, length_cons] at hsplit henough ⊢
      obtain hless | hne | ⟨hnil, hheld⟩ := hadvance.progress (by intro h; cases h)
      · omega
      · have hpos := length_pos_of_ne_nil hne
        omega
      · -- nothing was left
        have hmessages := hadvance.split
        rw [hnil] at hmessages hfewer
        obtain ⟨htaken, hleft⟩ := append_eq_nil_iff.mp hmessages.symm
        subst hheld htaken
        rw [hleft]
        simp only [payload, map_nil, flatMap_nil, length_nil] at hsplit hfewer ⊢
        omega

end Lawful

/-! ## What a reader of frames holds -/

section Holding

variable {data : φ → Option Bytes} {ends : φ → Bool}
variable {io : TextIo φ} {rest : Bytes} {ended : Bool}

/-- A reader holds a part of the last frame it has taken, or nothing. -/
inductive Holding (data : φ → Option Bytes) (ends : φ → Bool) : TextIo φ → Bytes → Bool → Prop
  | idle (ended : Bool) :
      Holding data ends { offset := 0, remain := none, isClosed := ended } [] ended
  | held {frame : φ} {octets rest : Bytes} {offset : ℕ} (hdata : data frame = some octets)
      (hdrop : octets.drop offset = rest) (hrest : rest ≠ []) :
      Holding data ends { offset, remain := some frame, isClosed := false } rest (ends frame)

theorem Holding.isClosed (h : Holding data ends io rest ended) :
    io.isClosed = (ended && rest.isEmpty) := by
  cases h with
  | idle => simp
  | held hdata hdrop hrest => simp [hrest]

theorem Holding.eq_idle (h : Holding data ends io rest ended) (hrest : rest = []) :
    io = { offset := 0, remain := none, isClosed := ended } := by
  cases h with
  | idle => rfl
  | held hdata hdrop hne => exact absurd hrest hne

def EndsFrame (last : Bool) (endRead : TextIo φ → ℕ → Option IoPoll × TextIo φ) : Prop :=
  ∀ self dataLen, endRead self dataLen =
    (if dataLen = 0 ∧ last = false then none else TextIo.ready,
      { offset := 0, remain := none, isClosed := self.isClosed || last })

theorem readData_holding (ends : φ → Bool) {endRead : TextIo φ → ℕ → Option IoPoll × TextIo φ}
    (self : TextIo φ) {frame : φ} {octets : Bytes} (buf : ReadBuf)
    (hend : EndsFrame (ends frame) endRead) (hdata : data frame = some octets)
    (hdrop : octets.drop self.offset = rest) (hclosed : self.isClosed = false) :
    ∃ io, self.readData endRead frame rest buf =
        ⟨if rest = [] ∧ ends frame = false then none else TextIo.ready, io,
          buf.appendSlice (rest.take buf.remaining)⟩ ∧
      Holding data ends io (rest.drop buf.remaining) (ends frame) := by
  by_cases hlt : buf.remaining < rest.length
  · have hne : rest ≠ [] := by
      intro hnil
      simp [hnil] at hlt
    refine ⟨{ self with offset := self.offset + buf.remaining, remain := some frame }, ?_, ?_⟩
    · rw [TextIo.readData, if_pos hlt, Nat.min_eq_right hlt.le, if_neg fun h => hne h.1]
    · rw [hclosed]
      apply Holding.held hdata
      · rw [← drop_drop, hdrop]
      · intro hnil
        exact absurd (drop_eq_nil_iff.mp hnil) (Nat.not_le.mpr hlt)
  · have hle := Nat.not_lt.mp hlt
    refine ⟨{ offset := 0, remain := none, isClosed := ends frame }, ?_, ?_⟩
    · rw [TextIo.readData, if_neg hlt, Nat.min_eq_left hle, take_of_length_le hle,
        take_of_length_le le_rfl, hend, hclosed, Bool.false_or]
      simp only [length_eq_zero_iff]
    · rw [drop_eq_nil_of_le hle]
      exact .idle _

end Holding

/-! ## Bodies read exactly -/

def ReceivedEnd (piece : μ → Piece) (all : List μ) (run : ReaderRun φ μ) : Prop :=
  ∃ seen, all = seen ++ messages run.answers ∧ (seen.map piece).any (·.last) = true

/-- A body is read exactly, whatever the channel answers in between. `ended` says that it has
ended before the first of the messages. -/
structure ReadExactly (reader : BodyReader φ μ) (piece : μ → Piece) (ended : Bool) (all : List μ) :
    Prop where
  /-- Nothing but the octets of the body is delivered, in their order. -/
  delivered : ∀ {answers run}, Open answers → messages answers = all →
    Reads reader (.start answers) run → run.delivered <+: payload (all.map piece)
  /-- The end is reported only after it was received, and then the body is whole. -/
  ending : ∀ {answers run}, Open answers → messages answers = all →
    Reads reader (.start answers) run → ∀ (speed capacity), 0 < capacity →
    (run.poll reader speed capacity).IsEnd →
      (ended = true ∨ ReceivedEnd piece all (run.after (run.poll reader speed capacity))) ∧
        run.delivered = payload (all.map piece)
  /-- Once all is read, the end is reported, and the channel is left alone. -/
  after : ∀ (answers run), Open answers → messages answers = all →
    Reads reader (.start answers) run → ended = true ∨ ReceivedEnd piece all run →
    run.delivered = payload (all.map piece) → ∀ (speed capacity), 0 < capacity →
      (run.poll reader speed capacity).IsEnd ∧
        (run.poll reader speed capacity).answers = run.answers
  /-- Enough reads deliver the whole body. -/
  whole : ∀ {answers capacities}, Open answers → messages answers = all →
    (∀ capacity ∈ capacities, 0 < capacity) →
    answers.length + (payload (all.map piece)).length ≤ capacities.length →
      (ReaderRun.readAll reader capacities (.start answers)).delivered = payload (all.map piece)

theorem BodyReader.Lawful.readExactly {reader : BodyReader φ μ} {plain : μ → Prop} {piece : μ → Piece}
    {At : TextIo φ → Bytes → Bool → Prop} (law : reader.Lawful plain piece At) {all : List μ}
    (hplain : ∀ message ∈ all, plain message) (hone : OneEnd false (all.map piece)) :
    ReadExactly reader piece false all where
  delivered := by
    rintro answers run hopen rfl hreads
    obtain ⟨seen, rest, h⟩ := hreads.holds law hopen hplain
    exact h.isPrefix
  ending := by
    rintro answers run hopen rfl hreads speed capacity hcapacity hend
    obtain ⟨seen, rest, h⟩ := hreads.holds law hopen hplain
    have hok : ¬(run.poll reader speed capacity).IsError := by
      rintro ⟨e, he⟩
      rw [hend.1] at he
      cases he
    obtain ⟨taken, rest', hnext, hended⟩ := h.read law hplain speed hcapacity hok
    obtain ⟨rfl, hlast⟩ := hended hend
    refine ⟨.inr ⟨_, hnext.split, hlast⟩, ?_⟩
    have hdel := hnext.delivered
    rw [(hnext.eq_of_ended hone hlast).2, append_nil, ReaderRun.after, octets_ready hend.1, hend.2,
      append_nil] at hdel
    exact hdel
  after := by
    rintro answers run hopen rfl hreads hrecv hdel speed capacity -
    obtain ⟨seen, rest, h⟩ := hreads.holds law hopen hplain
    obtain ⟨seen', hsplit, hended⟩ := hrecv.resolve_left (by simp)
    have hseen : seen' = seen := append_cancel_right (hsplit.symm.trans h.split)
    subst hseen
    have hrest : rest = [] := by
      have hwhole := h.delivered
      rw [(h.eq_of_ended hone hended).2, ← hdel] at hwhole
      exact append_right_eq_self.mp hwhole
    have hat := h.at_rest
    rw [hrest, hended] at hat
    rw [poll_closed law hat]
    exact ⟨⟨rfl, rfl⟩, rfl⟩
  whole := by
    rintro answers capacities hopen rfl hcapacities henough
    have hstart : (ReaderRun.start answers : ReaderRun φ μ).Holds piece At (messages answers) [] [] :=
      ⟨hopen, rfl, law.start, rfl⟩
    have hend := (hstart.readAll law hplain hone hcapacities henough).delivered
    rwa [append_nil] at hend

end YlongHttp
