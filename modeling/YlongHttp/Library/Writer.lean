import Mathlib.Tactic

/-! # Resumable writers

A resumable writer puts what it still owes into an output buffer of a given size and
keeps the rest for the next buffer. `Delivers` is the law of one piece of output, which
ends either finished or with a state that owes the rest; `Emits` is the law of a writer
that lives on between its calls. -/

namespace Library

open List

section Pieces

variable {β σ τ : Type*}

/-- `f` writes `l`: into a buffer with room for it completely, into a smaller one up to
the end of the buffer, leaving a state that owes the rest. -/
def Delivers (owed : σ → List β) (f : ℕ → List β × Option σ) (l : List β) : Prop :=
  ∀ n, (l.length ≤ n → f n = (l, none)) ∧
    (n < l.length → ∃ s, f n = (l.take n, some s) ∧ owed s = l.drop n)

/-- Writes one piece and then, in what is left of the buffer, the next. -/
def writeThen (wrap : τ → σ) (g : ℕ → List β × Option σ) (f : ℕ → List β × Option τ)
    (n : ℕ) : List β × Option σ :=
  match f n with
  | (out, some s) => (out, some (wrap s))
  | (out, none) =>
    let next := g (n - out.length)
    (out ++ next.1, next.2)

variable {f : ℕ → List β × Option τ} {l : List β} {owed : σ → List β} {owed' : τ → List β}
  {wrap : τ → σ}

theorem Delivers.writeThen {g : ℕ → List β × Option σ} {m : List β} (hf : Delivers owed' f l)
    (hg : Delivers owed g m) (hwrap : ∀ s, owed (wrap s) = owed' s ++ m) :
    Delivers owed (Library.writeThen wrap g f) (l ++ m) := by
  intro n
  rcases Nat.lt_or_ge n l.length with hn | hn
  · obtain ⟨s, hs, howed⟩ := (hf n).2 hn
    have hout : Library.writeThen wrap g f n = ((l ++ m).take n, some (wrap s)) := by
      simp only [Library.writeThen, hs, take_append_of_le_length hn.le]
    refine ⟨?_, ?_⟩
    · intro h
      rw [length_append] at h
      omega
    · intro _
      refine ⟨wrap s, hout, ?_⟩
      rw [hwrap, howed, drop_append_of_le_length hn.le]
  · have hout : Library.writeThen wrap g f n =
        (l ++ (g (n - l.length)).1, (g (n - l.length)).2) := by
      simp only [Library.writeThen, (hf n).1 hn]
    refine ⟨?_, ?_⟩
    · intro h
      rw [length_append] at h
      rw [hout, (hg (n - l.length)).1 (by omega)]
    · intro h
      rw [length_append] at h
      obtain ⟨s, hs, howed⟩ := (hg (n - l.length)).2 (by omega)
      refine ⟨s, ?_, ?_⟩
      · rw [hout, hs, take_append, take_of_length_le hn]
      · rw [howed, drop_append, drop_of_length_le hn, nil_append]

/-- An optional piece, which owes nothing when it is absent. -/
def writeOption (f : τ → ℕ → List β × Option τ) : Option τ → ℕ → List β × Option τ
  | none, _ => ([], none)
  | some s, n => f s n

theorem delivers_nil (owed : σ → List β) : Delivers owed (fun _ => ([], none)) [] := by
  intro n
  exact ⟨fun _ => rfl, fun h => absurd h (by simp)⟩

theorem Delivers.writeOption {owed : τ → List β} {f : τ → ℕ → List β × Option τ}
    (hf : ∀ s, Delivers owed (f s) (owed s)) (item : Option τ) :
    Delivers owed (Library.writeOption f item) (item.elim [] owed) := by
  cases item with
  | none => exact delivers_nil owed
  | some s => exact hf s

theorem Delivers.map (hf : Delivers owed' f l) (hwrap : ∀ s, owed (wrap s) = owed' s) :
    Delivers owed (fun n => ((f n).1, (f n).2.map wrap)) l := by
  intro n
  refine ⟨?_, ?_⟩
  · intro h
    simp [(hf n).1 h]
  · intro h
    obtain ⟨s, hs, howed⟩ := (hf n).2 h
    exact ⟨wrap s, by simp [hs], by rw [hwrap, howed]⟩

end Pieces

section Runs

variable {β σ : Type*}

/-- In every state that satisfies `inv`, a call with a nonempty buffer writes the next
part of `owed` and keeps the rest. -/
structure Emits (inv : σ → Prop) (owed : σ → List β) (write : σ → ℕ → List β × σ) :
    Prop where
  out : ∀ s n, inv s → 0 < n → (write s n).1 = (owed s).take n
  rest : ∀ s n, inv s → 0 < n → owed (write s n).2 = (owed s).drop n
  inv : ∀ s n, inv s → 0 < n → inv (write s n).2

/-- The output of one call after another, with the given buffer sizes. -/
def writeAll (write : σ → ℕ → List β × σ) : σ → List ℕ → List β × σ
  | s, [] => ([], s)
  | s, n :: caps =>
    let first := write s n
    let later := writeAll write first.2 caps
    (first.1 ++ later.1, later.2)

theorem writeAll_append (write : σ → ℕ → List β × σ) (s : σ) (caps caps' : List ℕ) :
    writeAll write s (caps ++ caps') =
      ((writeAll write s caps).1 ++ (writeAll write (writeAll write s caps).2 caps').1,
        (writeAll write (writeAll write s caps).2 caps').2) := by
  induction caps generalizing s with
  | nil => simp [writeAll]
  | cons n caps ih => simp [writeAll, ih]

theorem Emits.writeAll {inv : σ → Prop} {owed : σ → List β}
    {write : σ → ℕ → List β × σ} (h : Emits inv owed write) (s : σ) (hs : inv s)
    (caps : List ℕ) (hcaps : ∀ n ∈ caps, 0 < n) :
    (Library.writeAll write s caps).1 = (owed s).take caps.sum ∧
      owed (Library.writeAll write s caps).2 = (owed s).drop caps.sum ∧
      inv (Library.writeAll write s caps).2 := by
  induction caps generalizing s with
  | nil => simp [Library.writeAll, hs]
  | cons n caps ih =>
    have hn : 0 < n := hcaps n (by simp)
    obtain ⟨hout, hrest, hinv⟩ :=
      ih (write s n).2 (h.inv s n hs hn) fun m hm => hcaps m (by simp [hm])
    simp only [Library.writeAll, sum_cons]
    refine ⟨?_, ?_, hinv⟩
    · rw [hout, h.out s n hs hn, h.rest s n hs hn, take_add]
    · rw [hrest, h.rest s n hs hn, drop_drop]

end Runs

end Library
