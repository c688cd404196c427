import Mathlib.Tactic

/-! # Resumable decoders

A resumable decoder consumes a buffer and answers with a decoded value and the rest of
the buffer, with a state to continue from once the buffer is exhausted, or with an
error. The law `Resumes` says that stopping at the end of a buffer and continuing from
the saved state is the same as having had the longer buffer at once. It is closed under
running one decoder after another, and it carries over to the loop that decodes values
one after another and feeds each of them to a consumer. -/

namespace Library

open List

inductive DecResult (δ σ ε : Type*) where
  | decoded (d : δ)
  | needMore (s : σ)
  | error (e : ε)
deriving DecidableEq

/-- The decoded value and the rest of the buffer, if there is one. -/
def DecResult.result {δ σ ε α : Type*} : DecResult δ σ ε × List α → Option (δ × List α)
  | (.decoded d, rest) => some (d, rest)
  | (.needMore _, _) => none
  | (.error _, _) => none

section Law

variable {α δ δ' σ σ' ε : Type*}

/-- What `f` answers on `a` is what it answers on every longer buffer; an unfinished run
is continued by `run`. -/
def ResumesAt (run : σ → List α → DecResult δ σ ε × List α)
    (f : List α → DecResult δ σ ε × List α) (a : List α) : Prop :=
  (∀ s r, f a = (.needMore s, r) → r = [] ∧ ∀ b, f (a ++ b) = run s b) ∧
  (∀ d r, f a = (.decoded d, r) → ∀ b, f (a ++ b) = (.decoded d, r ++ b)) ∧
  (∀ e r, f a = (.error e, r) → ∀ b, (f (a ++ b)).1 = .error e)

/-- A decoder whose unfinished runs are continued by `run`. -/
def Resumes (run : σ → List α → DecResult δ σ ε × List α)
    (f : List α → DecResult δ σ ε × List α) : Prop :=
  ∀ a, ResumesAt run f a

/-- A decoder all of whose states resume. -/
def Resumable (run : σ → List α → DecResult δ σ ε × List α) : Prop := ∀ s, Resumes run (run s)

/-- Runs `f` and hands what it decodes to `k`; an unfinished `f` is wrapped. -/
def andThen (wrap : σ' → σ) (k : δ' → List α → DecResult δ σ ε × List α)
    (f : List α → DecResult δ' σ' ε × List α) (buf : List α) : DecResult δ σ ε × List α :=
  match f buf with
  | (.decoded d, rest) => k d rest
  | (.needMore s, rest) => (.needMore (wrap s), rest)
  | (.error e, rest) => (.error e, rest)

theorem result_andThen (wrap : σ' → σ) (k : δ' → List α → DecResult δ σ ε × List α)
    (f : List α → DecResult δ' σ' ε × List α) (buf : List α) :
    DecResult.result (andThen wrap k f buf) =
      (DecResult.result (f buf)).bind fun d => DecResult.result (k d.1 d.2) := by
  rcases h : f buf with ⟨_ | _ | _, rest⟩ <;> simp [andThen, h, DecResult.result]

variable {run : σ → List α → DecResult δ σ ε × List α}
  {f g : List α → DecResult δ σ ε × List α}

variable {s : σ} {k : δ' → List α → DecResult δ σ ε × List α}
  {run' : σ' → List α → DecResult δ' σ' ε × List α} {wrap : σ' → σ}

theorem ResumesAt.nil (hf : f [] = (.needMore s, [])) (hs : run s = f) :
    ResumesAt run f [] := by
  refine ⟨?_, ?_, ?_⟩
  · intro s' r h
    rw [hf] at h
    obtain ⟨rfl, rfl⟩ : s = s' ∧ [] = r := by simpa using h
    exact ⟨rfl, fun b => by rw [hs, nil_append]⟩
  · intro d r h
    simp [hf] at h
  · intro e r h
    simp [hf] at h

theorem ResumesAt.cons {x : α} {xs : List α} (hf : ∀ ys, f (x :: ys) = g ys)
    (hg : ResumesAt run g xs) : ResumesAt run f (x :: xs) := by
  obtain ⟨hmore, hdone, herr⟩ := hg
  simp only [ResumesAt, cons_append, hf]
  exact ⟨hmore, hdone, herr⟩

theorem resumes_decoded (d : δ) : Resumes run fun buf => (.decoded d, buf) := by
  intro a
  simp [ResumesAt]

theorem resumes_error (e : ε) : Resumes run fun _ => (.error e, []) := by
  intro a
  simp [ResumesAt]

/-- A decoder whose unfinished runs are continued by `run`, from states that are `good`; what
it finds wrong is wrong on every longer buffer, unless that decodes to a `bad` value. -/
def ResumesExcept (good : σ → Prop) (bad : δ → Prop) (run : σ → List α → DecResult δ σ ε × List α)
    (f : List α → DecResult δ σ ε × List α) : Prop :=
  ∀ a, (∀ s r, f a = (.needMore s, r) → r = [] ∧ good s ∧ ∀ b, f (a ++ b) = run s b) ∧
    (∀ d r, f a = (.decoded d, r) → ∀ b, f (a ++ b) = (.decoded d, r ++ b)) ∧
    ∀ e r, f a = (.error e, r) → ∀ b, (f (a ++ b)).1 = .error e ∨
      ∃ d r', f (a ++ b) = (.decoded d, r') ∧ bad d

variable {good : σ → Prop} {bad : δ → Prop}

theorem Resumes.except (hf : Resumes run f) : ResumesExcept (fun _ => True) bad run f := by
  intro a
  obtain ⟨hmore, hdone, herr⟩ := hf a
  refine ⟨fun s r h => ?_, hdone, fun e r h b => .inl (herr e r h b)⟩
  obtain ⟨hr, happ⟩ := hmore s r h
  exact ⟨hr, trivial, happ⟩

theorem ResumesExcept.andThen {good' : σ' → Prop} {f : List α → DecResult δ' σ' ε × List α}
    (hf : ResumesExcept good' (fun _ => False) run' f) (hk : ∀ d, ResumesExcept good bad run (k d))
    (hrun : ∀ s, good' s → good (wrap s) ∧ run (wrap s) = Library.andThen wrap k (run' s)) :
    ResumesExcept good bad run (Library.andThen wrap k f) := by
  intro a
  obtain ⟨hmore, hdone, herr⟩ := hf a
  rcases hfa : f a with ⟨d | s | e, rest⟩
  · have happ := hdone d rest hfa
    obtain ⟨kmore, kdone, kerr⟩ := hk d rest
    simp only [Library.andThen, hfa, happ]
    exact ⟨kmore, kdone, kerr⟩
  · obtain ⟨rfl, hgood, happ⟩ := hmore s rest hfa
    obtain ⟨hwrap, hcont⟩ := hrun s hgood
    refine ⟨?_, ?_, ?_⟩
    · intro s' r h
      simp only [Library.andThen, hfa, Prod.mk.injEq, DecResult.needMore.injEq] at h
      obtain ⟨rfl, rfl⟩ := h
      refine ⟨rfl, hwrap, fun b => ?_⟩
      rw [hcont]
      simp only [Library.andThen, happ b]
    · intro d r h
      simp [Library.andThen, hfa] at h
    · intro e r h
      simp [Library.andThen, hfa] at h
  · refine ⟨?_, ?_, ?_⟩
    · intro s r h
      simp [Library.andThen, hfa] at h
    · intro d r h
      simp [Library.andThen, hfa] at h
    · intro e' r h b
      simp only [Library.andThen, hfa, Prod.mk.injEq, DecResult.error.injEq] at h
      obtain ⟨rfl, rfl⟩ := h
      rcases herr e rest hfa b with herror | ⟨_, _, _, hfalse⟩
      · refine .inl ?_
        rcases hfb : f (a ++ b) with ⟨d | s | e', rest'⟩
        · simp [hfb] at herror
        · simp [hfb] at herror
        · rw [hfb] at herror
          obtain rfl := DecResult.error.inj herror
          simp only [Library.andThen, hfb]
      · exact hfalse.elim

theorem ResumesExcept.resumes (hf : ResumesExcept (fun _ => True) (fun _ => False) run f) :
    Resumes run f := by
  intro a
  obtain ⟨hmore, hdone, herr⟩ := hf a
  refine ⟨fun s r h => ?_, hdone, fun e r h b => ?_⟩
  · obtain ⟨hr, -, happ⟩ := hmore s r h
    exact ⟨hr, happ⟩
  · exact (herr e r h b).resolve_right fun ⟨_, _, _, hfalse⟩ => hfalse

theorem Resumes.andThen {f : List α → DecResult δ' σ' ε × List α} (hf : Resumes run' f)
    (hk : ∀ d, Resumes run (k d)) (hrun : ∀ s, run (wrap s) = Library.andThen wrap k (run' s)) :
    Resumes run (Library.andThen wrap k f) :=
  (hf.except.andThen (fun d => (hk d).except) fun s _ => ⟨trivial, hrun s⟩).resumes

/-- A decoded value costs at least `n` elements of the buffer. -/
def Takes (n : ℕ) (f : List α → DecResult δ σ ε × List α) : Prop :=
  ∀ a d r, f a = (.decoded d, r) → r.length + n ≤ a.length

theorem Takes.andThen {m n : ℕ} {f : List α → DecResult δ' σ' ε × List α} (hf : Takes m f)
    (hk : ∀ d, Takes n (k d)) :
    Takes (m + n) (Library.andThen wrap k f) := by
  intro a d r h
  simp only [Library.andThen] at h
  split at h
  · rename_i d' rest hfa
    have hfirst := hf a d' rest hfa
    have hsec := hk d' rest d r h
    omega
  · cases h
  · cases h

/-- Every error has the property `P`. -/
def Fails (P : ε → Prop) (f : List α → DecResult δ σ ε × List α) : Prop :=
  ∀ a e r, f a = (.error e, r) → P e

theorem Fails.andThen {P : ε → Prop} {f : List α → DecResult δ' σ' ε × List α} (hf : Fails P f)
    (hk : ∀ d, Fails P (k d)) :
    Fails P (Library.andThen wrap k f) := by
  intro a e r h
  simp only [Library.andThen] at h
  split at h
  · exact hk _ _ e r h
  · cases h
  · rename_i e' rest hfa
    obtain ⟨he, -⟩ := Prod.mk.inj h
    obtain rfl := DecResult.error.inj he
    exact hf a e' rest hfa

/-- What a part of a decoder keeps: it resumes, its values cost at least `n` elements of the buffer,
and its errors have the property `P`. -/
structure Parses (run : σ → List α → DecResult δ σ ε × List α) (n : ℕ) (P : ε → Prop)
    (f : List α → DecResult δ σ ε × List α) : Prop where
  resumes : Resumes run f
  takes : Takes n f
  fails : Fails P f

variable {m n : ℕ} {P : ε → Prop}

theorem Parses.mono (h : Parses run n P f) (hle : m ≤ n) : Parses run m P f where
  resumes := h.resumes
  takes a d r hd := (Nat.add_le_add_left hle _).trans (h.takes a d r hd)
  fails := h.fails

theorem Parses.decoded (d : δ) : Parses run 0 P fun buf => (.decoded d, buf) where
  resumes := resumes_decoded d
  takes a d r h := by
    cases h
    exact le_rfl
  fails _ _ _ h := nomatch h

theorem Parses.error {e : ε} (he : P e) : Parses run n P fun _ => (.error e, []) where
  resumes := resumes_error e
  takes _ _ _ h := nomatch h
  fails a e r h := by
    cases h
    exact he

/-- A decoder that waits for its first element and goes on by what that is. -/
theorem Parses.head (hnil : f [] = (.needMore s, [])) (hs : run s = f)
    (hcons : ∀ x, ∃ g, (∀ xs, f (x :: xs) = g xs) ∧ Parses run n P g) : Parses run (n + 1) P f where
  resumes a := by
    cases a with
    | nil => exact .nil hnil hs
    | cons x xs =>
      obtain ⟨g, hf, hg⟩ := hcons x
      exact .cons hf (hg.resumes xs)
  takes a d r h := by
    cases a with
    | nil =>
      rw [hnil] at h
      cases h
    | cons x xs =>
      obtain ⟨g, hf, hg⟩ := hcons x
      exact Nat.succ_le_succ (hg.takes xs d r (hf xs ▸ h))
  fails a e r h := by
    cases a with
    | nil =>
      rw [hnil] at h
      cases h
    | cons x xs =>
      obtain ⟨g, hf, hg⟩ := hcons x
      exact hg.fails xs e r (hf xs ▸ h)

theorem Parses.andThen {f : List α → DecResult δ' σ' ε × List α} (hf : Parses run' m P f)
    (hk : ∀ d, Parses run n P (k d)) (hrun : ∀ s, run (wrap s) = Library.andThen wrap k (run' s)) :
    Parses run (m + n) P (Library.andThen wrap k f) where
  resumes := hf.resumes.andThen (fun d => (hk d).resumes) hrun
  takes := hf.takes.andThen fun d => (hk d).takes
  fails := hf.fails.andThen fun d => (hk d).fails

/-! ### Decoders that differ in their errors -/

variable {ε₁ ε₂ : Type*}

def mapError (g : ε₁ → ε₂) : DecResult δ σ ε₁ × List α → DecResult δ σ ε₂ × List α
  | (.decoded d, rest) => (.decoded d, rest)
  | (.needMore s, rest) => (.needMore s, rest)
  | (.error e, rest) => (.error (g e), rest)

theorem Takes.mapError {f : List α → DecResult δ σ ε₁ × List α} (g : ε₁ → ε₂) (hf : Takes n f) :
    Takes n fun buf => Library.mapError g (f buf) := by
  intro a d r h
  rcases hfa : f a with ⟨d' | s | e, rest⟩
  · simp only [hfa, Library.mapError, Prod.mk.injEq, DecResult.decoded.injEq] at h
    obtain ⟨rfl, rfl⟩ := h
    exact hf a d' rest hfa
  · simp [hfa, Library.mapError] at h
  · simp [hfa, Library.mapError] at h

theorem Resumes.mapError {run : σ → List α → DecResult δ σ ε₁ × List α}
    {f : List α → DecResult δ σ ε₁ × List α} (g : ε₁ → ε₂) (hf : Resumes run f) :
    Resumes (fun s buf => Library.mapError g (run s buf)) fun buf => Library.mapError g (f buf) := by
  intro a
  obtain ⟨hmore, hdone, herr⟩ := hf a
  rcases hfa : f a with ⟨d | s | e, rest⟩
  · simp only [ResumesAt, hfa, hdone d rest hfa, Library.mapError]
    simp
  · obtain ⟨rfl, happ⟩ := hmore s rest hfa
    simp only [ResumesAt, hfa, happ, Library.mapError]
    simp
  · have hb := herr e rest hfa
    refine ⟨?_, ?_, ?_⟩
    · intro s r h
      simp [hfa, Library.mapError] at h
    · intro d r h
      simp [hfa, Library.mapError] at h
    · intro e' r h b
      simp only [hfa, Library.mapError, Prod.mk.injEq, DecResult.error.injEq] at h
      obtain ⟨rfl, rfl⟩ := h
      have heq := hb b
      rcases hfb : f (a ++ b) with ⟨d | s | e'', rest'⟩
      · simp [hfb] at heq
      · simp [hfb] at heq
      · rw [hfb] at heq
        obtain rfl := DecResult.error.inj heq
        simp only [hfb, Library.mapError]

theorem Fails.mapError {P : ε₁ → Prop} {Q : ε₂ → Prop} {f : List α → DecResult δ σ ε₁ × List α}
    {g : ε₁ → ε₂} (hg : ∀ e, P e → Q (g e)) (hf : Fails P f) :
    Fails Q fun buf => Library.mapError g (f buf) := by
  intro a e r h
  rcases hfa : f a with ⟨d | s | e', rest⟩ <;> simp only [hfa, Library.mapError] at h <;> cases h
  exact hg e' (hf a e' r hfa)

theorem Parses.mapError {run : σ → List α → DecResult δ σ ε₁ × List α} {P : ε₁ → Prop}
    {Q : ε₂ → Prop} {f : List α → DecResult δ σ ε₁ × List α} {g : ε₁ → ε₂}
    (hg : ∀ e, P e → Q (g e)) (hf : Parses run n P f) :
    Parses (fun s buf => Library.mapError g (run s buf)) n Q fun buf =>
      Library.mapError g (f buf) where
  resumes := hf.resumes.mapError g
  takes := hf.takes.mapError g
  fails := hf.fails.mapError hg

end Law

section Drive

variable {α δ σ ε ε' τ : Type*} (run : σ → List α → DecResult δ σ ε × List α) (start : σ)
  (fail : ε → ε') (absorb : τ → δ → τ × Except ε' Unit)

/-- Decodes values until the buffer is exhausted and lets `absorb` consume each of them.
A saved state is continued first; an error drops it. -/
def drive : ℕ → τ → Option σ → List α → τ × Option σ × Except ε' Unit
  | 0, t, saved, _ => (t, saved, .ok ())
  | fuel + 1, t, saved, buf =>
    if buf = [] then (t, saved, .ok ())
    else
      match run (saved.getD start) buf with
      | (.needMore s, _) => (t, some s, .ok ())
      | (.error e, _) => (t, none, .error (fail e))
      | (.decoded d, rest) =>
        match absorb t d with
        | (t', .ok ()) => drive fuel t' none rest
        | (t', .error e) => (t', none, .error e)

/-- Every decoded value costs at least one element of the buffer. -/
def Consumes : Prop := ∀ s, Takes 1 (run s)

variable {run start fail absorb}

theorem drive_fuel (hrun : Consumes run) (n m : ℕ) (t : τ) (saved : Option σ)
    (buf : List α) (hn : buf.length ≤ n) (hm : buf.length ≤ m) :
    drive run start fail absorb n t saved buf = drive run start fail absorb m t saved buf := by
  induction n generalizing m t saved buf with
  | zero =>
    obtain rfl : buf = [] := by simpa using hn
    cases m <;> simp [drive]
  | succ n ih =>
    by_cases hbuf : buf = []
    · subst hbuf
      cases m <;> simp [drive]
    · have hpos : 0 < buf.length := length_pos_iff.mpr hbuf
      obtain ⟨m, rfl⟩ : ∃ k, m = k + 1 := ⟨m - 1, by omega⟩
      simp only [drive, hbuf, if_false]
      cases hr : run (saved.getD start) buf with
      | mk result rest =>
        cases result with
        | needMore s => rfl
        | error e => rfl
        | decoded d =>
          have hlt := hrun _ _ _ _ hr
          simp only
          cases absorb t d with
          | mk t' res =>
            cases res with
            | error e => rfl
            | ok u => exact ih m t' none rest (by omega) (by omega)

variable {d d' : δ} {t t' : τ} {buf : List α} {saved : Option σ} {P : τ → Prop}

theorem drive_decoded (hrun : Consumes run) {n : ℕ} {a r : List α}
    (hd : run start a = (.decoded d, r)) (hn : a.length ≤ n) :
    drive run start fail absorb n t none a =
      match absorb t d with
      | (t', .ok ()) => drive run start fail absorb n t' none r
      | (t', .error e) => (t', none, .error e) := by
  have hlt := hrun _ _ _ _ hd
  have ha : a ≠ [] := by
    rintro rfl
    simp at hlt
  obtain ⟨m, rfl⟩ : ∃ m, n = m + 1 := ⟨n - 1, by omega⟩
  simp only [drive, ha, if_false, Option.getD_none, hd]
  cases absorb t d with
  | mk t' res =>
    cases res with
    | error e => rfl
    | ok u => exact drive_fuel hrun m (m + 1) t' none r (by omega) (by omega)

theorem drive_invariant (P : τ → Prop) (h : ∀ t d, P t → P (absorb t d).1) (n : ℕ) (t : τ)
    (saved : Option σ) (buf : List α) (ht : P t) :
    P (drive run start fail absorb n t saved buf).1 := by
  induction n generalizing t saved buf with
  | zero => exact ht
  | succ n ih =>
    rw [drive]
    split
    · exact ht
    · split
      · exact ht
      · exact ht
      · rename_i d rest _
        have habs := h t d ht
        split
        · rename_i t' heq
          rw [heq] at habs
          exact ih t' none rest habs
        · rename_i t' e heq
          rw [heq] at habs
          exact habs

theorem drive_error {P : ε' → Prop} (hrun : ∀ s, Fails (fun e => P (fail e)) (run s))
    (habsorb : ∀ t d e, (absorb t d).2 = .error e → P e) (n : ℕ) (t : τ) (saved : Option σ)
    (buf : List α) (e : ε') (h : (drive run start fail absorb n t saved buf).2.2 = .error e) :
    P e := by
  induction n generalizing t saved buf with
  | zero => cases h
  | succ n ih =>
    rw [drive] at h
    split at h
    · cases h
    · split at h
      · cases h
      · rename_i e' rest hr
        obtain rfl := Except.error.inj h
        exact hrun _ _ _ _ hr
      · split at h
        · exact ih _ _ _ h
        · rename_i t' e' hd
          obtain rfl := Except.error.inj h
          exact habsorb _ _ _ (by rw [hd])

variable (run start absorb) in
/-- The consumer comes to the state `t'` and is given `d` there. -/
inductive Meets : τ → Option σ → List α → τ → δ → Prop
  | here {t : τ} {saved : Option σ} {buf rest : List α} {d : δ}
      (run : run (saved.getD start) buf = (.decoded d, rest)) (nonempty : buf ≠ []) :
      Meets t saved buf t d
  | later {t t' t'' : τ} {saved : Option σ} {buf rest : List α} {d d' : δ}
      (run : run (saved.getD start) buf = (.decoded d, rest)) (nonempty : buf ≠ [])
      (absorbed : absorb t d = (t', .ok ())) (meets : Meets t' none rest t'' d') :
      Meets t saved buf t'' d'

theorem meets_nil (t t' : τ) (saved : Option σ) (d : δ) :
    ¬ Meets run start absorb t saved [] t' d := by
  intro h
  cases h <;> contradiction

theorem meets_iff {rest : List α} (hbuf : buf ≠ [])
    (hr : run (saved.getD start) buf = (.decoded d, rest)) :
    Meets run start absorb t saved buf t' d' ↔
      t = t' ∧ d = d' ∨
        ∃ t₁, absorb t d = (t₁, .ok ()) ∧ Meets run start absorb t₁ none rest t' d' := by
  constructor
  · intro h
    cases h with
    | here run nonempty =>
      rw [hr] at run
      cases run
      exact .inl ⟨rfl, rfl⟩
    | later run nonempty absorbed meets =>
      rw [hr] at run
      cases run
      exact .inr ⟨_, absorbed, meets⟩
  · rintro (⟨rfl, rfl⟩ | ⟨t₁, habs, hmeets⟩)
    · exact .here hr hbuf
    · exact .later hr hbuf habs hmeets

theorem Meets.decoded (h : Meets run start absorb t saved buf t' d') :
    ∃ d rest, run (saved.getD start) buf = (.decoded d, rest) := by
  cases h with
  | here run nonempty => exact ⟨_, _, run⟩
  | later run nonempty absorbed meets => exact ⟨_, _, run⟩

theorem drive_invariant_of_meets (n : ℕ) (t : τ) (saved : Option σ) (buf : List α) (ht : P t)
    (h : ∀ t' d, Meets run start absorb t saved buf t' d → P t' → P (absorb t' d).1) :
    P (drive run start fail absorb n t saved buf).1 := by
  induction n generalizing t saved buf with
  | zero => exact ht
  | succ n ih =>
    rw [drive]
    split
    · exact ht
    · rename_i hbuf
      split
      · exact ht
      · exact ht
      · rename_i d rest hr
        have habs := h t d (.here hr hbuf) ht
        split
        · rename_i t' heq
          rw [heq] at habs
          exact ih t' none rest habs fun t'' d' hm => h t'' d' (.later hr hbuf heq hm)
        · rename_i t' e heq
          rw [heq] at habs
          exact habs

theorem Meets.invariant (h : ∀ t d, P t → P (absorb t d).1)
    (hm : Meets run start absorb t saved buf t' d) (ht : P t) : P t' := by
  induction hm with
  | here run nonempty => exact ht
  | @later t t₁ t₂ saved buf rest d₁ d₂ run nonempty absorbed meets ih =>
    have habs := h t d₁ ht
    rw [absorbed] at habs
    exact ih habs

theorem drive_error_iff (hrun : Consumes run) {e : ε'} (hfail : ∀ e', fail e' ≠ e) (n : ℕ)
    (t : τ) (saved : Option σ) (buf : List α) (hn : buf.length ≤ n) :
    (drive run start fail absorb n t saved buf).2.2 = .error e ↔
      ∃ t' d, Meets run start absorb t saved buf t' d ∧ (absorb t' d).2 = .error e := by
  induction n generalizing t saved buf with
  | zero =>
    obtain rfl : buf = [] := by simpa using hn
    simp [drive, meets_nil]
  | succ n ih =>
    by_cases hbuf : buf = []
    · subst hbuf
      simp [drive, meets_nil]
    · simp only [drive, hbuf, if_false]
      rcases hr : run (saved.getD start) buf with ⟨d | s | e', rest⟩
      · have hlt := hrun _ _ _ _ hr
        rcases habs : absorb t d with ⟨t₁, e' | ⟨⟩⟩
        · simp [meets_iff hbuf hr, habs]
        · simp only [ih t₁ none rest (by omega), meets_iff hbuf hr, habs]
          constructor
          · rintro ⟨t', d', hmeets, he⟩
            exact ⟨t', d', .inr ⟨t₁, rfl, hmeets⟩, he⟩
          · rintro ⟨t', d', ⟨rfl, rfl⟩ | ⟨t₂, heq, hmeets⟩, he⟩
            · rw [habs] at he
              cases he
            · cases heq
              exact ⟨t', d', hmeets, he⟩
      · refine ⟨fun h => absurd h (by simp), ?_⟩
        rintro ⟨t', d', hmeets, -⟩
        obtain ⟨d, rest', hd⟩ := hmeets.decoded
        rw [hr] at hd
        cases hd
      · refine ⟨fun h => absurd (Except.error.inj h) (hfail e'), ?_⟩
        rintro ⟨t', d', hmeets, -⟩
        obtain ⟨d, rest', hd⟩ := hmeets.decoded
        rw [hr] at hd
        cases hd

variable {good : σ → Prop} {bad : δ → Prop}

theorem drive_append_except (hres : ∀ s, good s → ResumesExcept good bad run (run s))
    (hstart : good start) (hrun : Consumes run) (n : ℕ) (t : τ) (saved : Option σ)
    (hsaved : ∀ s ∈ saved, good s) (a b : List α) (hn : (a ++ b).length ≤ n)
    (hmeets : ∀ t' d, Meets run start absorb t saved (a ++ b) t' d → ¬ bad d) :
    drive run start fail absorb n t saved (a ++ b) =
      match drive run start fail absorb n t saved a with
      | (t', saved', .ok ()) => drive run start fail absorb n t' saved' b
      | (t', saved', .error e) => (t', saved', .error e) := by
  induction n generalizing t saved a with
  | zero => simp [drive]
  | succ n ih =>
    by_cases ha : a = []
    · subst ha
      simp [drive]
    · have hab : a ++ b ≠ [] := by simp [ha]
      have hgood : good (saved.getD start) := by
        cases saved with
        | none => exact hstart
        | some s => exact hsaved s rfl
      obtain ⟨hmore, hdone, herr⟩ := hres _ hgood a
      rw [drive, if_neg hab]
      conv_rhs => rw [drive, if_neg ha]
      rcases hr : run (saved.getD start) a with ⟨d | s | e, rest⟩
      · have hlt := hrun _ _ _ _ hr
        have happ := hdone d rest hr b
        simp only [happ]
        simp only [length_append] at hn
        rcases habs : absorb t d with ⟨t', e | ⟨⟩⟩
        · rfl
        · simp only
          rw [ih t' none (by simp) rest (by simp only [length_append]; omega) fun t'' d' hm =>
            hmeets t'' d' (.later happ hab habs hm)]
          rcases drive run start fail absorb n t' none rest with ⟨t'', saved'', e | ⟨⟩⟩
          · rfl
          · exact drive_fuel hrun n (n + 1) t'' saved'' b (by omega) (by omega)
      · obtain ⟨-, -, happ⟩ := hmore s rest hr
        simp only
        by_cases hb : b = []
        · subst hb
          rw [append_nil, hr]
          simp [drive]
        · rw [happ b]
          conv_rhs => rw [drive, if_neg hb]
          rfl
      · rcases herr e rest hr b with herror | ⟨d, r', hd, hbad⟩
        · rcases hrb : run (saved.getD start) (a ++ b) with ⟨d | s | e', rest'⟩
          · simp [hrb] at herror
          · simp [hrb] at herror
          · rw [hrb] at herror
            obtain rfl := DecResult.error.inj herror
            rfl
        · exact absurd hbad (hmeets t d (.here hd hab))

theorem drive_append (hres : Resumable run) (hrun : Consumes run) (n : ℕ) (t : τ)
    (saved : Option σ) (a b : List α) (hn : (a ++ b).length ≤ n) :
    drive run start fail absorb n t saved (a ++ b) =
      match drive run start fail absorb n t saved a with
      | (t', saved', .ok ()) => drive run start fail absorb n t' saved' b
      | (t', saved', .error e) => (t', saved', .error e) :=
  drive_append_except (fun s _ => (hres s).except) trivial hrun n t saved (fun _ _ => trivial) a b
    hn fun _ _ _ hfalse => hfalse

end Drive

end Library
