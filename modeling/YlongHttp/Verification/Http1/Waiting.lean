import YlongHttp.Verification.Http1.Heads

/-! # Waiting for the head of a response

The blocking client reads until the decoder has a head or an error. At the end of the stream it
reads nothing, again and again. -/

namespace YlongHttp.Http1

open List
open HeadState

variable {d : ResponseDecoder} {reads : List Bytes} {res : Result (ResponsePart × Bytes)}
  {s : HeadState}

def HeadState.kept : HeadState → List Bytes → Bytes
  | _, [] => []
  | s, read :: reads => s.strip read ++
      match s.run (s.strip read) with
      | .ok (.inl s') => kept s' reads
      | _ => reads.flatten

theorem decode_nil (d : ResponseDecoder) : ∃ d', d.decode [] = .ok (d', none) := by
  rcases d with ⟨stage, version, statusCode, headers, headKey, rest, newLine⟩
  cases stage with
  | header stage => cases stage <;> exact ⟨_, rfl⟩
  | _ => exact ⟨_, rfl⟩

theorem awaitHead_nil (fuel : ℕ) (d : ResponseDecoder) : awaitHead fuel d [] = none := by
  induction fuel generalizing d with
  | zero => rfl
  | succ fuel ih =>
    obtain ⟨d', hd'⟩ := decode_nil d
    rw [awaitHead, headD_nil, hd']
    exact ih d'

/-- What the loop comes to, for what the automaton makes of the octets. -/
def Comes (d : ResponseDecoder) (reads : List Bytes) :
    Result (ResponsePart × Bytes) → Prop
  | .error e => ∃ fuel, awaitHead fuel d reads = some (.error (.error e))
  | .ok (.inl _) => ∀ fuel, awaitHead fuel d reads = none
  | .ok (.inr (part, rest)) => ∃ fuel pre left,
      awaitHead fuel d reads = some (.ok (part, pre, left)) ∧ pre ++ left.flatten = rest

theorem comes_of_more {d' : ResponseDecoder} {read : Bytes}
    (hdec : d.decode read = .ok (d', none)) (h : Comes d' reads res) :
    Comes d (read :: reads) res := by
  have hstep : ∀ fuel, awaitHead (fuel + 1) d (read :: reads) = awaitHead fuel d' reads := by
    intro fuel
    rw [awaitHead, headD_cons, hdec]
    rfl
  match res, h with
  | .error e, ⟨fuel, hawait⟩ => exact ⟨fuel + 1, (hstep fuel).trans hawait⟩
  | .ok (.inl s), hawait =>
    intro fuel
    cases fuel with
    | zero => rfl
    | succ fuel => exact (hstep fuel).trans (hawait fuel)
  | .ok (.inr (part, rest)), ⟨fuel, pre, left, hawait, hrest⟩ =>
    exact ⟨fuel + 1, pre, left, (hstep fuel).trans hawait, hrest⟩

theorem awaitHead_comes (h : s.Represented d) (hne : ∀ read ∈ reads, read ≠ []) :
    Comes d reads (s.run (s.kept reads)) := by
  induction reads generalizing s d with
  | nil => exact fun fuel => awaitHead_nil fuel d
  | cons read reads ih =>
    have hagrees := decode_agrees h (hne read (.head _))
    rw [kept, run_append]
    match hrun : s.run (s.strip read) with
    | .error e =>
      rw [hrun] at hagrees
      refine ⟨1, ?_⟩
      rw [awaitHead, headD_cons, hagrees]
    | .ok (.inl s') =>
      rw [hrun] at hagrees
      obtain ⟨d', hdec, hd'⟩ := hagrees
      exact comes_of_more hdec (ih hd' fun r hr => hne r (.tail read hr))
    | .ok (.inr (part, rest)) =>
      rw [hrun] at hagrees
      obtain ⟨d', hdec⟩ := hagrees
      refine ⟨1, rest, reads, ?_, rfl⟩
      rw [awaitHead, headD_cons, hdec]
      rfl

theorem kept_of_ok {next : HeadState ⊕ (ResponsePart × Bytes)} (h : s.run reads.flatten = .ok next)
    : s.kept reads = reads.flatten := by
  induction reads generalizing s with
  | nil => rfl
  | cons read reads ih =>
    have hstrip : s.strip read = read := by
      rw [strip.eq_def]
      split
      · rename_i part b rest
        by_cases hcr : b = cr
        · -- The automaton rejects a second CR.
          subst hcr
          rw [flatten_cons, cons_append, run, octet] at h
          rw [if_neg (by decide)] at h
          cases h
        · rw [if_neg hcr]
      · rfl
    rw [kept, hstrip, flatten_cons]
    congr 1
    rw [flatten_cons, run_append] at h
    rcases hrun : s.run read with e | s' | head'
    · rfl
    · rw [hrun] at h
      exact ih h
    · rfl

/-! ## Returning -/

def StartsWithHead (octets : Bytes) : Prop := ∃ head, init.run octets = .ok (.inr head)

/-- The head is returned, with the octets behind it, or an error. -/
def Returns (reads : List Bytes) : Prop :=
  match init.run reads.flatten with
  | .ok (.inr (part, rest)) => ∃ fuel pre left,
      awaitHead fuel .new reads = some (.ok (part, pre, left)) ∧ pre ++ left.flatten = rest
  | _ => ∃ fuel e, awaitHead fuel .new reads = some (.error (.error e))

theorem represented_init : init.Represented .new := ⟨.initial, .inl rfl, rfl⟩

theorem awaitHead_mono {fuel fuel' : ℕ}
    {result : Except (Fault HttpError) (ResponsePart × Bytes × List Bytes)}
    (h : awaitHead fuel d reads = some result) (hle : fuel ≤ fuel') :
    awaitHead fuel' d reads = some result := by
  induction fuel generalizing fuel' d reads with
  | zero => cases h
  | succ fuel ih =>
    obtain ⟨fuel', rfl⟩ := Nat.exists_eq_succ_of_ne_zero (Nat.ne_zero_of_lt hle)
    rw [awaitHead] at h ⊢
    cases hdec : d.decode (reads.headD []) with
    | error e => rwa [hdec] at h
    | ok answer =>
      obtain ⟨d', head⟩ := answer
      rw [hdec] at h
      cases head with
      | none => exact ih h (Nat.le_of_succ_le_succ hle)
      | some head => exact h

theorem Comes.error_iff (h : Comes d reads res) :
    (∃ fuel e, awaitHead fuel d reads = some (.error (.error e))) ↔ ∃ e, res = .error e := by
  constructor
  · rintro ⟨fuel, e, hawait⟩
    match res, h with
    | .error e, _ => exact ⟨e, rfl⟩
    | .ok (.inl s), hnone =>
      rw [hnone fuel] at hawait
      cases hawait
    | .ok (.inr (part, rest)), ⟨fuel', pre, left, hhead, _⟩ =>
      have hmax := awaitHead_mono hawait (Nat.le_max_left fuel fuel')
      rw [awaitHead_mono hhead (Nat.le_max_right fuel fuel')] at hmax
      cases hmax
  · rintro ⟨e, rfl⟩
    obtain ⟨fuel, hawait⟩ := h
    exact ⟨fuel, e, hawait⟩

theorem not_startsWithHead {octets : Bytes} (h : ∀ head, init.run octets ≠ .ok (.inr head)) :
    ¬StartsWithHead octets :=
  fun ⟨head, hrun⟩ => h head hrun

/-- The loop returns if and only if the octets start with a head, or are rejected as the decoder
sees them. -/
theorem returns_iff {reads : List Bytes} (hne : ∀ read ∈ reads, read ≠ []) :
    Returns reads ↔ StartsWithHead reads.flatten ∨
      ∃ e, HeadState.init.run (HeadState.init.kept reads) = .error e := by
  have hcomes := awaitHead_comes represented_init hne
  rw [Returns]
  match hrun : HeadState.init.run reads.flatten with
  | .ok (.inr (part, rest)) =>
    rw [kept_of_ok hrun, hrun] at hcomes
    exact iff_of_true hcomes (.inl ⟨_, hrun⟩)
  | .ok (.inl s) | .error e =>
    rw [or_iff_right (not_startsWithHead (by simp [hrun]))]
    exact hcomes.error_iff

theorem returns_iff_blank :
    (∀ read ∈ [str "HTTP/1.1 200 \r\n", str "\r\n"], read ≠ []) ∧
      (Returns [str "HTTP/1.1 200 \r\n", str "\r\n"] ↔
        StartsWithHead [str "HTTP/1.1 200 \r\n", str "\r\n"].flatten ∨
          ∃ e, HeadState.init.run (HeadState.init.kept [str "HTTP/1.1 200 \r\n", str "\r\n"]) =
            .error e) :=
  ⟨by decide, returns_iff (by decide)⟩

/-- The server closes the connection and has sent nothing. -/
theorem not_returns_closed : ¬Returns [] := by
  rintro ⟨fuel, e, hawait⟩
  rw [awaitHead_nil] at hawait
  cases hawait

end YlongHttp.Http1
