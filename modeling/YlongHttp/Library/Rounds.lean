import Mathlib.Tactic

/-! # Decoders that work in rounds

A call runs one round after another on what is left of the buffer, until the value is complete or
the buffer is at its end. The law of one round says what a cut of the buffer may change, and the
law of the calls follows from it: a call on a buffer that is cut is continued by the call on the
rest of it. -/

namespace Library

open Option

/-- What a call ends with. -/
inductive Outcome (σ δ ε β : Type*) where
  | complete (value : δ) (rest : List β)
  | more (next : σ)
  | error (e : ε)

/-- The rounds of a decoder, and the value of a state that is done. -/
structure Rounds (σ δ ε β : Type*) where
  value : σ → Option δ
  round : σ → List β → Except ε (σ × List β)

namespace Rounds

variable {σ δ ε β : Type*} (m : Rounds σ δ ε β)
variable {s : σ} {buf rest : List β}

/-- The loop of a call, as a relation. -/
inductive Ends : σ → List β → Outcome σ δ ε β → Prop
  | complete {s : σ} {buf : List β} {d : δ} (done : m.value s = some d) :
      Ends s buf (.complete d buf)
  | error {s : σ} {buf : List β} {e : ε} (going : m.value s = none)
      (round : m.round s buf = .error e) : Ends s buf (.error e)
  | more {s next : σ} {buf : List β} (going : m.value s = none)
      (round : m.round s buf = .ok (next, [])) (going' : m.value next = none) :
      Ends s buf (.more next)
  | step {s next : σ} {buf rest : List β} {o : Outcome σ δ ε β} (going : m.value s = none)
      (round : m.round s buf = .ok (next, rest)) (left : rest ≠ [] ∨ m.value next ≠ none)
      (later : Ends next rest o) : Ends s buf o

/-- The states that a call passes, each with what is left of the buffer then. -/
inductive Passes : σ → List β → σ → List β → Prop
  | here {s : σ} {buf : List β} : Passes s buf s buf
  | step {s next last : σ} {buf rest rest' : List β} (going : m.value s = none)
      (round : m.round s buf = .ok (next, rest)) (left : rest ≠ [] ∨ m.value next ≠ none)
      (later : Passes next rest last rest') : Passes s buf last rest'

variable {m}

variable {o : Outcome σ δ ε β}

theorem Ends.unique {o' : Outcome σ δ ε β} (h : m.Ends s buf o) (h' : m.Ends s buf o') :
    o = o' := by
  induction h with
  | complete done =>
    cases h' with
    | complete done' => rw [some.inj (done.symm.trans done')]
    | error going | more going | step going => exact absurd (done.symm.trans going) (some_ne_none _)
  | error going round =>
    cases h' with
    | complete done => exact absurd (done.symm.trans going) (some_ne_none _)
    | error going round' => rw [Except.error.inj (round.symm.trans round')]
    | more going round' | step going round' => cases round.symm.trans round'
  | more going round going' =>
    cases h' with
    | complete done => exact absurd (done.symm.trans going) (some_ne_none _)
    | error going round' => cases round.symm.trans round'
    | more going round' =>
      cases round.symm.trans round'
      rfl
    | step going round' left =>
      cases round.symm.trans round'
      exact absurd going' (left.resolve_left (absurd rfl))
  | step going round left later ih =>
    cases h' with
    | complete done => exact absurd (done.symm.trans going) (some_ne_none _)
    | error going round' => cases round.symm.trans round'
    | more going round' going' =>
      cases round.symm.trans round'
      exact absurd going' (left.resolve_left (absurd rfl))
    | step going round' left' later' =>
      cases round.symm.trans round'
      exact ih later'

theorem Ends.error_iff {e : ε} :
    m.Ends s buf (.error e) ↔
      ∃ last rest, m.Passes s buf last rest ∧ m.value last = none ∧ m.round last rest = .error e := by
  constructor
  · intro h
    generalize ho : (Outcome.error e : Outcome σ δ ε β) = o at h
    induction h with
    | complete => cases ho
    | more => cases ho
    | error going round =>
      cases ho
      exact ⟨_, _, .here, going, round⟩
    | step going round left later ih =>
      obtain ⟨last, rest, hpasses, hlast⟩ := ih ho
      exact ⟨last, rest, .step going round left hpasses, hlast⟩
  · intro ⟨last, rest, hpasses, hval, hround⟩
    induction hpasses with
    | here => exact .error hval hround
    | step going round left later ih => exact .step going round left (ih hval hround)

/-! ## What every round keeps -/

/-- A round leads from `good` states to `good` ones. -/
def Keeps (m : Rounds σ δ ε β) (good : σ → Prop) : Prop :=
  ∀ s buf next rest, good s → m.value s = none → buf ≠ [] → m.round s buf = .ok (next, rest) →
    good next

variable {good : σ → Prop}

theorem Keeps.passes (h : m.Keeps good) {last : σ} (hgood : good s)
    (hbuf : buf ≠ [] ∨ m.value s ≠ none) (hpasses : m.Passes s buf last rest) :
    good last ∧ (rest ≠ [] ∨ m.value last ≠ none) := by
  induction hpasses with
  | here => exact ⟨hgood, hbuf⟩
  | step going round left later ih =>
    exact ih (h _ _ _ _ hgood going (hbuf.resolve_right (absurd going)) round) left

theorem Keeps.more (h : m.Keeps good) {s next : σ} {buf : List β} (hgood : good s)
    (hbuf : buf ≠ [] ∨ m.value s ≠ none) (hends : m.Ends s buf (.more next)) :
    good next ∧ m.value next = none := by
  generalize ho : (Outcome.more next : Outcome σ δ ε β) = o at hends
  induction hends with
  | complete => cases ho
  | error => cases ho
  | more going round going' =>
    cases ho
    exact ⟨h _ _ _ [] hgood going (hbuf.resolve_right (absurd going)) round, going'⟩
  | step going round left later ih =>
    exact ih (h _ _ _ _ hgood going (hbuf.resolve_right (absurd going)) round) left ho

theorem Keeps.total (h : m.Keeps good) (measure : σ → List β → ℕ)
    (hmeasure : ∀ s buf next rest, good s → m.value s = none → buf ≠ [] →
      m.round s buf = .ok (next, rest) → measure next rest < measure s buf) (hgood : good s)
    (hbuf : buf ≠ [] ∨ m.value s ≠ none) : ∃ o, m.Ends s buf o := by
  induction hn : measure s buf using Nat.strong_induction_on generalizing s buf with
  | h n ih =>
    subst hn
    cases hval : m.value s with
    | some d => exact ⟨_, .complete hval⟩
    | none =>
      have hne := hbuf.resolve_right (absurd hval)
      cases hround : m.round s buf with
      | error e => exact ⟨_, .error hval hround⟩
      | ok result =>
        obtain ⟨next, rest⟩ := result
        by_cases hleft : rest ≠ [] ∨ m.value next ≠ none
        · obtain ⟨o, ho⟩ := ih _ (hmeasure s buf next rest hgood hval hne hround)
            (h s buf next rest hgood hval hne hround) hleft rfl
          exact ⟨o, .step hval hround hleft ho⟩
        · rw [not_or, not_not, not_not] at hleft
          obtain ⟨rfl, hnext⟩ := hleft
          exact ⟨_, .more hval hround hnext⟩

/-! ## Buffers that are cut -/

/-- The same answer, up to states that are done with the same value. -/
def Agree (m : Rounds σ δ ε β) (x y : Except ε (σ × List β)) : Prop :=
  x = y ∨ ∃ s s' rest d, x = .ok (s, rest) ∧ y = .ok (s', rest) ∧ m.value s = some d ∧
    m.value s' = some d

theorem Ends.agree {s' : σ} {buf' : List β} (h : m.Ends s' buf' o) (going : m.value s = none)
    (going' : m.value s' = none) (hagree : m.Agree (m.round s buf) (m.round s' buf')) :
    m.Ends s buf o := by
  rcases hagree with heq | ⟨t, t', rest, d, ht, ht', hd, hd'⟩
  · cases h with
    | complete done => exact absurd (done.symm.trans going') (some_ne_none _)
    | error _ round => exact .error going (heq.trans round)
    | more _ round going'' => exact .more going (heq.trans round) going''
    | step _ round left later => exact .step going (heq.trans round) left later
  · have hstep : m.Ends s buf (.complete d rest) :=
      .step going ht (.inr (by rw [hd]; exact some_ne_none d)) (.complete hd)
    have hstep' : m.Ends s' buf' (.complete d rest) :=
      .step going' ht' (.inr (by rw [hd']; exact some_ne_none d)) (.complete hd')
    rw [h.unique hstep']
    exact hstep

/-- What a round makes of a buffer that goes on with `b`: an error stays an error, unless it is an
`exempt` one; a round that comes to its end does so with the rest made longer; a round that has
used up the buffer is taken up by the next one, if the state is `fine` to go on with `b`. -/
def Cut (m : Rounds σ δ ε β) (exempt : ε → Prop) (fine : σ → List β → Prop) (s : σ)
    (a b : List β) : Prop :=
  match m.round s a with
  | .error e => exempt e ∨ m.round s (a ++ b) = .error e
  | .ok (next, rest) =>
    m.round s (a ++ b) = .ok (next, rest ++ b) ∨
      (rest = [] ∧ m.value next = none ∧
        (fine next b → m.Agree (m.round s (a ++ b)) (m.round next b)))

/-- The law of the rounds, in states that are `good`. -/
structure Lawful (m : Rounds σ δ ε β) (good : σ → Prop) (exempt : ε → Prop)
    (fine : σ → List β → Prop) : Prop where
  cut : ∀ s a b, good s → m.value s = none → a ≠ [] → b ≠ [] → m.Cut exempt fine s a b
  good : m.Keeps good

variable {exempt : ε → Prop} {fine : σ → List β → Prop}

theorem Lawful.ends (h : m.Lawful good exempt fine) {a b : List β} (hgood : good s)
    (ha : a ≠ [] ∨ m.value s ≠ none) (hb : b ≠ []) (hends : m.Ends s a o) : match o with
    | .complete d rest => m.Ends s (a ++ b) (.complete d (rest ++ b))
    | .error e => exempt e ∨ m.Ends s (a ++ b) (.error e)
    | .more next => fine next b → ∀ o', m.Ends next b o' → m.Ends s (a ++ b) o' := by
  induction hends with
  | complete done => exact .complete done
  | @error s a e going round =>
    have hcut := h.cut s a b hgood going (ha.resolve_right (absurd going)) hb
    rw [Cut, round] at hcut
    exact hcut.imp_right (Ends.error going)
  | @more s next a going round going' =>
    have hcut := h.cut s a b hgood going (ha.resolve_right (absurd going)) hb
    rw [Cut, round] at hcut
    intro hfine o' ho'
    rcases hcut with hcut | ⟨-, -, hagree⟩
    · exact .step going hcut (.inl hb) ho'
    · exact ho'.agree going going' (hagree hfine)
  | @step s next a rest o going round left later ih =>
    have ha' := ha.resolve_right (absurd going)
    have hcut := h.cut s a b hgood going ha' hb
    rw [Cut, round] at hcut
    rcases hcut with hcut | ⟨rfl, hval, -⟩
    · have hlater := ih (h.good s a next rest hgood going ha' round) left
      have hleft : rest ++ b ≠ [] ∨ m.value next ≠ none :=
        .inl (List.append_ne_nil_of_right_ne_nil rest hb)
      cases o with
      | complete d rest' => exact .step going hcut hleft hlater
      | error e => exact hlater.imp_right (Ends.step going hcut hleft)
      | more last => exact fun hfine o' ho' => .step going hcut hleft (hlater hfine o' ho')
    · exact absurd hval (left.resolve_left (absurd rfl))

theorem Lawful.complete_lt (h : m.Lawful good exempt fine) (measure : σ → List β → ℕ)
    (hmeasure : ∀ s buf next rest, good s → m.value s = none → buf ≠ [] →
      m.round s buf = .ok (next, rest) → measure next rest < measure s buf) {d : δ} (hgood : good s)
    (hbuf : buf ≠ []) (hval : m.value s = none) (hends : m.Ends s buf (.complete d rest)) :
    ∃ last, m.value last = some d ∧ measure last rest < measure s buf := by
  generalize ho : (Outcome.complete d rest : Outcome σ δ ε β) = o at hends
  induction hends with
  | complete done => exact absurd (done.symm.trans hval) (some_ne_none _)
  | error => cases ho
  | more => cases ho
  | @step s next buf rest' o going round left later ih =>
    have hnext := h.good s buf next rest' hgood going hbuf round
    have hlt := hmeasure s buf next rest' hgood going hbuf round
    subst ho
    cases hdone : m.value next with
    | some d' =>
      cases later.unique (.complete hdone)
      exact ⟨next, hdone, hlt⟩
    | none =>
      obtain ⟨last, hlast, hlater⟩ := ih hnext (left.resolve_right (absurd hdone)) hdone rfl
      exact ⟨last, hlast, hlater.trans hlt⟩

end Rounds

end Library
