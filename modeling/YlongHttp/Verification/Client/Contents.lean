import YlongHttp.Model.HttpBody
import YlongHttp.Verification.Client.Reading

/-! # Bodies over readers

The body that the caller reads, over the reader of the stream. Neither limits of the speed nor
interceptors keep octets back here. -/

namespace YlongHttp

open List

variable {φ μ σ : Type}

/-! ## Calls -/

structure BodyRun (σ μ : Type) where
  body : σ
  answers : List (Poll (Option μ))
  delivered : Bytes

def BodyPolled.delivered (polled : BodyPolled σ μ) : Bytes :=
  match polled.result with
  | .ready (.ok n) => polled.octets.take n
  | _ => []

section Calls

variable (data : σ → ℕ → List (Poll (Option μ)) → BodyPolled σ μ)

def BodyRun.poll (run : BodyRun σ μ) (capacity : ℕ) : BodyPolled σ μ :=
  data run.body capacity run.answers

def BodyRun.next (run : BodyRun σ μ) (capacity : ℕ) : BodyRun σ μ :=
  { body := (run.poll data capacity).body
    answers := (run.poll data capacity).answers
    delivered := run.delivered ++ (run.poll data capacity).delivered }

def BodyRun.readAll : List ℕ → BodyRun σ μ → BodyRun σ μ
  | [], run => run
  | capacity :: capacities, run => BodyRun.readAll capacities (run.next data capacity)

/-- No call fails or shuts the connection down, the body ends with what `whole` says, and it
ends. -/
structure ContentRead (start : σ) (all : List μ) (whole : Bytes) : Prop where
  safe : ∀ {answers capacities capacity}, Open answers → messages answers = all →
    (∀ c ∈ capacities, 0 < c) → 0 < capacity →
    let run := BodyRun.readAll data capacities { body := start, answers, delivered := [] }
    (∀ e, (run.poll data capacity).result ≠ .ready (.error e)) ∧
      (run.poll data capacity).shutdown = false ∧
      ((run.poll data capacity).result = .ready (.ok 0) → run.delivered = whole)
  ends : ∀ {answers capacities capacity}, Open answers → messages answers = all →
    (∀ c ∈ capacities, 0 < c) → 0 < capacity → answers.length + whole.length ≤ capacities.length →
    let run := BodyRun.readAll data capacities { body := start, answers, delivered := [] }
    (run.poll data capacity).result = .ready (.ok 0)

/-- What a body makes of a read. `B body io left` says that the body has the reader `io` and
counts on `left` octets; without a reader it has ended. -/
structure BodyLaw (reader : BodyReader φ μ) (B : σ → Option (TextIo φ) → ℕ → Prop) : Prop where
  done : ∀ {body left}, B body none left → ∀ capacity answers, data body capacity answers =
    { result := .ready (.ok 0), body, octets := [], shutdown := false, answers }
  pending : ∀ {body io left capacity answers}, B body (some io) left → 0 < capacity →
    ∀ {polled}, io.pollRead reader .none (.new capacity) answers = polled →
    polled.result = .pending → ∃ body', data body capacity answers =
        { result := .pending, body := body', octets := polled.buf.filled, shutdown := false
          answers := polled.answers } ∧ B body' (some polled.io) left
  ending : ∀ {body io capacity answers}, B body (some io) 0 → 0 < capacity →
    ∀ {polled}, io.pollRead reader .none (.new capacity) answers = polled →
    polled.IsEnd → polled.io.isClosed = true → ∃ body', data body capacity answers =
        { result := .ready (.ok 0), body := body', octets := [], shutdown := false
          answers := polled.answers } ∧ B body' none 0
  reading : ∀ {body io left capacity answers}, B body (some io) left → 0 < capacity →
    ∀ {polled}, io.pollRead reader .none (.new capacity) answers = polled →
    polled.result = .ready (.ok ()) → polled.buf.filled ≠ [] →
    polled.buf.filled.length ≤ left → ∃ body', data body capacity answers =
        { result := .ready (.ok polled.buf.filled.length), body := body'
          octets := polled.buf.filled, shutdown := false, answers := polled.answers } ∧
      (B body' (some polled.io) (left - polled.buf.filled.length) ∨
        B body' none 0 ∧ polled.buf.filled.length = left)

end Calls

/-! ## The two bodies -/

section Bodies

variable {reader : BodyReader φ μ} {intercept : Interceptor}

def Text.Has (body : Text φ) (io : Option (TextIo φ)) (left : ℕ) : Prop :=
  body = { decoder := { left }, io }

theorem decode_of_le {left : ℕ} {octets : Bytes} (hle : octets.length ≤ left)
    (hne : octets ≠ []) :
    (TextBodyDecoder.mk left).decode octets =
      ({ isComplete := decide (left = octets.length), rem := [] }, { left := left - octets.length }) := by
  have hpos := length_pos_of_ne_nil hne
  have hleft : left ≠ 0 := by omega
  rw [TextBodyDecoder.decode]
  simp only [hleft, if_false, Nat.min_eq_right hle, drop_length, Prod.mk.injEq,
    DecodedText.mk.injEq, and_true, decide_eq_decide]
  omega

theorem text_law (hpass : ∀ octets, intercept octets = .ok ()) :
    BodyLaw (Text.data reader intercept .none) reader Text.Has where
  done := by
    rintro body left rfl capacity answers
    rfl
  pending := by
    rintro body io left capacity answers rfl hcap polled rfl hpend
    refine ⟨_, ?_, rfl⟩
    simp only [Text.data, if_neg hcap.ne', Text.pollReadIo, hpend]
  ending := by
    rintro body io capacity answers rfl hcap polled rfl ⟨hready, hfill⟩ hclosed
    refine ⟨_, ?_, rfl⟩
    simp [Text.data, if_neg hcap.ne', Text.pollReadIo, hready, hfill,
      TextIo.isStreamClosable, hclosed, TextBodyDecoder.decode]
  reading := by
    rintro body io left capacity answers rfl hcap polled rfl hready hne hle
    have hlen : (io.pollRead reader .none (.new capacity) answers).buf.filled.length ≠ 0 := by
      simpa using hne
    simp only [Text.data, if_neg hcap.ne', Text.pollReadIo, hready, if_neg hlen,
      decode_of_le hle hne, hpass, isEmpty_nil, Bool.not_true, Bool.and_false,
      Bool.false_eq_true, if_false]
    split
    · next hcomp =>
        refine ⟨_, rfl, .inr ⟨?_, ?_⟩⟩
        · have heq : left = (io.pollRead reader .none (.new capacity) answers).buf.filled.length := by
            simp_all
          rw [← heq, Nat.sub_self]
          rfl
        · simp_all
    · exact ⟨_, rfl, .inl rfl⟩

def UntilClose.Has (body : UntilClose φ) (io : Option (TextIo φ)) (_left : ℕ) : Prop :=
  body = { io }

theorem untilClose_law (hpass : ∀ octets, intercept octets = .ok ()) :
    BodyLaw (UntilClose.data reader intercept .none) reader UntilClose.Has where
  done := by
    rintro body left rfl capacity answers
    rfl
  pending := by
    rintro body io left capacity answers rfl hcap polled rfl hpend
    refine ⟨_, ?_, rfl⟩
    simp only [UntilClose.data, if_neg hcap.ne', UntilClose.pollReadIo, hpend]
  ending := by
    rintro body io capacity answers rfl hcap polled rfl ⟨hready, hfill⟩ hclosed
    refine ⟨_, ?_, rfl⟩
    simp [UntilClose.data, if_neg hcap.ne', UntilClose.pollReadIo, hready, hfill,
      TextIo.isStreamClosable, hclosed]
  reading := by
    rintro body io left capacity answers rfl hcap polled rfl hready hne hle
    have hlen : (io.pollRead reader .none (.new capacity) answers).buf.filled.length ≠ 0 := by
      simpa using hne
    simp only [UntilClose.data, if_neg hcap.ne', UntilClose.pollReadIo, hready, if_neg hlen, hpass]
    exact ⟨_, rfl, .inl rfl⟩

end Bodies

/-! ## Runs -/

section Runs

variable {reader : BodyReader φ μ} {plain : μ → Prop} {piece : μ → Piece}
  {At : TextIo φ → Bytes → Bool → Prop} {B : σ → Option (TextIo φ) → ℕ → Prop}
  {data : σ → ℕ → List (Poll (Option μ)) → BodyPolled σ μ} {all : List μ}
variable {io : TextIo φ} {capacity left : ℕ} {seen : List μ} {polled : Polled φ μ} {rest : Bytes}

/-- A body that has ended, or that has a reader from which the rest of the body will come. -/
inductive BodyRun.Holds (piece : μ → Piece) (At : TextIo φ → Bytes → Bool → Prop)
    (B : σ → Option (TextIo φ) → ℕ → Prop) (all : List μ) (run : BodyRun σ μ) :
    Option (TextIo φ) → Prop
  | done {left : ℕ} (hbody : B run.body none left)
      (hwhole : run.delivered = payload (all.map piece)) : Holds piece At B all run none
  | reading {io : TextIo φ} {left : ℕ} {seen : List μ} {rest : Bytes}
      (hbody : B run.body (some io) left)
      (hrun : ReaderRun.Holds piece At all ⟨io, run.answers, run.delivered⟩ seen rest)
      (hleft : run.delivered.length + left = (payload (all.map piece)).length) :
      Holds piece At B all run (some io)

/-- What one call does: it ends the body, or it is a read. -/
structure Called (piece : μ → Piece) (At : TextIo φ → Bytes → Bool → Prop)
    (B : σ → Option (TextIo φ) → ℕ → Prop) (data : σ → ℕ → List (Poll (Option μ)) → BodyPolled σ μ)
    (reader : BodyReader φ μ) (all : List μ) (run : BodyRun σ μ) (io : TextIo φ) (capacity : ℕ) :
    Prop where
  ok : ∀ e, (run.poll data capacity).result ≠ .ready (.error e)
  calm : (run.poll data capacity).shutdown = false
  ending : (run.poll data capacity).result = .ready (.ok 0) →
    run.delivered = payload (all.map piece)
  ended : (ReaderRun.poll reader .none capacity ⟨io, run.answers, run.delivered⟩).IsEnd →
    (run.poll data capacity).result = .ready (.ok 0)
  follows : (run.next data capacity).Holds piece At B all none ∨
    ∃ io', (run.next data capacity).Holds piece At B all (some io') ∧
      ReaderRun.mk io' (run.next data capacity).answers (run.next data capacity).delivered =
        ReaderRun.after ⟨io, run.answers, run.delivered⟩
          (ReaderRun.poll reader .none capacity ⟨io, run.answers, run.delivered⟩)

variable {run : BodyRun σ μ}

theorem called_ending (law : reader.Lawful plain piece At) (hone : OneEnd false (all.map piece))
    (hbodies : BodyLaw data reader B) (hbody : B run.body (some io) left) (hcap : 0 < capacity)
    (hleft : run.delivered.length + left = (payload (all.map piece)).length)
    (hpoll : io.pollRead reader .none (.new capacity) run.answers = polled) (hend : polled.IsEnd)
    (hnext : (ReaderRun.after ⟨io, run.answers, run.delivered⟩ polled).Holds piece At all seen [])
    (hlast : (seen.map piece).any (·.last) = true) :
    Called piece At B data reader all run io capacity := by
  have hat := hnext.at_rest
  rw [hlast] at hat
  have hwhole : run.delivered = payload (all.map piece) := by
    have hdel := hnext.delivered
    rw [(hnext.eq_of_ended hone hlast).2, ReaderRun.after, octets_ready hend.1, hend.2, append_nil,
      append_nil] at hdel
    exact hdel
  have hzero : left = 0 := by
    rw [hwhole] at hleft
    omega
  subst hzero
  obtain ⟨body', hdata, hnone⟩ := hbodies.ending hbody hcap hpoll hend (law.closed hat)
  have hcall : run.poll data capacity = _ := hdata
  refine ⟨?_, ?_, fun _ => hwhole, fun _ => by rw [hcall],
    .inl (.done (?_ : B (run.next data capacity).body none 0) ?_)⟩
  · rw [hcall]
    intro e he
    cases he
  · rw [hcall]
  · rw [BodyRun.next, hcall]
    exact hnone
  · rw [BodyRun.next, hcall]
    simpa [BodyPolled.delivered] using hwhole

theorem called_reading (hbodies : BodyLaw data reader B) (hbody : B run.body (some io) left)
    (hcap : 0 < capacity)
    (hleft : run.delivered.length + left = (payload (all.map piece)).length)
    (hpoll : io.pollRead reader .none (.new capacity) run.answers = polled)
    (hres : polled.result = .ready (.ok ())) (hfill : polled.buf.filled ≠ [])
    (hnext : (ReaderRun.after ⟨io, run.answers, run.delivered⟩ polled).Holds piece At all seen rest)
    : Called piece At B data reader all run io capacity := by
  have hoct := octets_ready hres
  have hpre : run.delivered ++ polled.buf.filled <+: payload (all.map piece) := by
    rw [← hoct]
    exact hnext.isPrefix
  have hlen := hpre.length_le
  rw [length_append] at hlen
  obtain ⟨body', hdata, hbody'⟩ := hbodies.reading hbody hcap hpoll hres hfill (by omega)
  have hcall : run.poll data capacity = _ := hdata
  have hdel : (run.next data capacity).delivered = run.delivered ++ polled.buf.filled := by
    rw [BodyRun.next, hcall]
    simp [BodyPolled.delivered]
  have hafter : ReaderRun.mk polled.io (run.next data capacity).answers
      (run.next data capacity).delivered = ReaderRun.after ⟨io, run.answers, run.delivered⟩ polled := by
    rw [hdel, ReaderRun.after, hoct, BodyRun.next, hcall]
  refine ⟨?_, ?_, ?_, ?_, ?_⟩
  · rw [hcall]
    intro e he
    cases he
  · rw [hcall]
  · rw [hcall]
    intro hzero
    simp only [Poll.ready.injEq, Except.ok.injEq] at hzero
    exact absurd (length_eq_zero_iff.mp hzero) hfill
  · rintro ⟨-, hnil⟩
    exact absurd (hpoll ▸ hnil) hfill
  · rcases hbody' with hsome | ⟨hnone, hall⟩
    · refine .inr ⟨polled.io, .reading
        (?_ : B (run.next data capacity).body (some polled.io) (left - polled.buf.filled.length))
        (hafter ▸ hnext) ?_, hafter.trans (by rw [← hpoll]; rfl)⟩
      · rw [BodyRun.next, hcall]
        exact hsome
      · rw [hdel, length_append]
        omega
    · refine .inl (.done (?_ : B (run.next data capacity).body none 0) ?_)
      · rw [BodyRun.next, hcall]
        exact hnone
      · rw [hdel]
        apply hpre.eq_of_length
        rw [length_append]
        omega

theorem called_pending (hbodies : BodyLaw data reader B) (hbody : B run.body (some io) left)
    (hcap : 0 < capacity)
    (hleft : run.delivered.length + left = (payload (all.map piece)).length)
    (hpoll : io.pollRead reader .none (.new capacity) run.answers = polled)
    (hres : polled.result = .pending)
    (hnext : (ReaderRun.after ⟨io, run.answers, run.delivered⟩ polled).Holds piece At all seen rest)
    : Called piece At B data reader all run io capacity := by
  obtain ⟨body', hdata, hbody'⟩ := hbodies.pending hbody hcap hpoll hres
  have hcall : run.poll data capacity = _ := hdata
  have hafter : ReaderRun.mk polled.io (run.next data capacity).answers
      (run.next data capacity).delivered = ReaderRun.after ⟨io, run.answers, run.delivered⟩ polled := by
    rw [ReaderRun.after, octets_pending hres, BodyRun.next, hcall]
    rfl
  refine ⟨?_, ?_, ?_, ?_, .inr ⟨polled.io, .reading
    (?_ : B (run.next data capacity).body (some polled.io) left) (hafter ▸ hnext) ?_,
    hafter.trans (by rw [← hpoll]; rfl)⟩⟩
  · rw [hcall]
    intro e he
    cases he
  · rw [hcall]
  · rw [hcall]
    intro he
    cases he
  · rintro ⟨hready, -⟩
    rw [ReaderRun.poll, hpoll, hres] at hready
    cases hready
  · rw [BodyRun.next, hcall]
    exact hbody'
  · rw [BodyRun.next, hcall]
    simpa [BodyPolled.delivered] using hleft

theorem BodyRun.Holds.called (law : reader.Lawful plain piece At)
    (hplain : ∀ message ∈ all, plain message) (hone : OneEnd false (all.map piece))
    (hbodies : BodyLaw data reader B) (h : run.Holds piece At B all (some io))
    (hcap : 0 < capacity) : Called piece At B data reader all run io capacity := by
  cases h with
  | reading hbody hrun hleft =>
    have hok := hrun.not_isError law hplain hcap
    obtain ⟨taken, rest', hnext, hend⟩ := hrun.read law hplain .none hcap hok
    rcases hres : (ReaderRun.poll reader .none capacity ⟨io, run.answers, run.delivered⟩).result with
      (e | _) | _
    · exact absurd ⟨e, hres⟩ hok
    · by_cases hfill :
          (ReaderRun.poll reader .none capacity ⟨io, run.answers, run.delivered⟩).buf.filled = []
      · obtain ⟨rfl, hlast⟩ := hend ⟨hres, hfill⟩
        exact called_ending law hone hbodies hbody hcap hleft rfl ⟨hres, hfill⟩ hnext
          hlast
      · exact called_reading hbodies hbody hcap hleft rfl hres hfill hnext
    · exact called_pending hbodies hbody hcap hleft rfl hres hnext

theorem readAll_done (hbodies : BodyLaw data reader B) (capacities : List ℕ)
    (h : run.Holds piece At B all none) : BodyRun.readAll data capacities run = run := by
  induction capacities with
  | nil => rfl
  | cons capacity capacities ih =>
    have hsame : run.next data capacity = run := by
      cases h with
      | done hbody hwhole =>
        have hcall : run.poll data capacity = _ := hbodies.done hbody capacity run.answers
        rw [BodyRun.next, hcall]
        simp [BodyPolled.delivered]
    rw [BodyRun.readAll, hsame, ih]

theorem BodyRun.Holds.readAll (law : reader.Lawful plain piece At)
    (hplain : ∀ message ∈ all, plain message) (hone : OneEnd false (all.map piece))
    (hbodies : BodyLaw data reader B) {capacities : List ℕ} (hcapacities : ∀ c ∈ capacities, 0 < c)
    (h : run.Holds piece At B all (some io)) :
    (BodyRun.readAll data capacities run).Holds piece At B all none ∨
      ∃ io', (BodyRun.readAll data capacities run).Holds piece At B all (some io') ∧
        ReaderRun.mk io' (BodyRun.readAll data capacities run).answers
            (BodyRun.readAll data capacities run).delivered =
          ReaderRun.readAll reader capacities ⟨io, run.answers, run.delivered⟩ := by
  induction capacities generalizing run io with
  | nil => exact .inr ⟨io, h, rfl⟩
  | cons capacity capacities ih =>
    have hrest : ∀ c ∈ capacities, 0 < c := fun c hc => hcapacities c (.tail _ hc)
    obtain hdone | ⟨io', hnext, heq⟩ :=
      (h.called law hplain hone hbodies (hcapacities capacity (.head _))).follows
    · rw [BodyRun.readAll, readAll_done hbodies capacities hdone]
      exact .inl hdone
    · rw [BodyRun.readAll, ReaderRun.readAll, ← heq]
      exact ih hrest hnext

theorem BodyLaw.contentRead (hbodies : BodyLaw data reader B) (law : reader.Lawful plain piece At)
    (hplain : ∀ message ∈ all, plain message) (hone : OneEnd false (all.map piece))
    (hlast : (all.map piece).any (·.last) = true) {start : σ}
    (hstart : B start (some .new) (payload (all.map piece)).length) :
    ContentRead data start all (payload (all.map piece)) where
  safe := by
    rintro answers capacities capacity hopen rfl hcapacities hcap run
    have hholds : BodyRun.Holds piece At B (messages answers) ⟨start, answers, []⟩ (some .new) :=
      .reading hstart (show ReaderRun.Holds piece At _ _ [] [] from ⟨hopen, rfl, law.start, rfl⟩)
        (Nat.zero_add _)
    obtain hdone | ⟨io, h, -⟩ := hholds.readAll law hplain hone hbodies hcapacities
    · cases hdone with
      | done hbody hwhole =>
        have hcall : run.poll data capacity = _ := hbodies.done hbody capacity run.answers
        rw [hcall]
        refine ⟨?_, rfl, fun _ => hwhole⟩
        intro e he
        cases he
    · have hcalled := h.called law hplain hone hbodies hcap
      exact ⟨hcalled.ok, hcalled.calm, hcalled.ending⟩
  ends := by
    rintro answers capacities capacity hopen rfl hcapacities hcap henough run
    have hrun : ReaderRun.Holds piece At (messages answers) (.start answers) [] [] :=
      ⟨hopen, rfl, law.start, rfl⟩
    have hholds : BodyRun.Holds piece At B (messages answers) ⟨start, answers, []⟩ (some .new) :=
      .reading hstart hrun (Nat.zero_add _)
    obtain hdone | ⟨io, h, heq⟩ := hholds.readAll law hplain hone hbodies hcapacities
    · cases hdone with
      | done hbody hwhole =>
        have hcall : run.poll data capacity = _ := hbodies.done hbody capacity run.answers
        rw [hcall]
    · have hend := (hrun.readAll law hplain hone hcapacities henough).at_rest
      rw [hlast] at hend
      apply (h.called law hplain hone hbodies hcap).ended
      have hpoll := poll_closed law hend .none capacity
      rw [heq]
      exact hpoll ▸ ⟨rfl, rfl⟩

end Runs

end YlongHttp
