import YlongHttp.Library.Resumable

/-! # Decoders that resume with exceptions

Some decoders keep their state between the parts of a value, but give up where the buffer ends
inside one particular part. What they answer on a buffer they answer on every longer one,
except that an error may turn out to be a value of that kind. The loop then does not depend on
where the buffer is cut as long as it meets no such value, and where it meets one there is a
cut that stops it. -/

namespace Library

open List

variable {α δ σ ε ε' τ : Type*} {good : σ → Prop} {bad : δ → Prop}
  {run : σ → List α → DecResult δ σ ε × List α} {f : List α → DecResult δ σ ε × List α}
  {start : σ} {fail : ε → ε'} {absorb : τ → δ → τ × Except ε' Unit}

theorem drive_saved (hres : ∀ s, good s → ResumesExcept good bad run (run s))
    (hstart : good start) (n : ℕ) (t : τ) (saved : Option σ) (hsaved : ∀ s ∈ saved, good s)
    (buf : List α) : ∀ s ∈ (drive run start fail absorb n t saved buf).2.1, good s := by
  induction n generalizing t saved buf with
  | zero => exact hsaved
  | succ n ih =>
    have hgood : good (saved.getD start) := by
      cases saved with
      | none => exact hstart
      | some s => exact hsaved s rfl
    rw [drive]
    split
    · exact hsaved
    · split
      · rename_i s rest hr
        intro s' hs'
        cases hs'
        exact ((hres _ hgood buf).1 s rest hr).2.1
      · simp
      · split
        · exact ih _ _ (by simp) _
        · simp

theorem Meets.append (hres : ∀ s, good s → ResumesExcept good bad run (run s))
    (hstart : good start) (n : ℕ) (t : τ) (saved : Option σ) (hsaved : ∀ s ∈ saved, good s)
    (a b : List α) {t₁ t₂ : τ} {saved₁ : Option σ} {d : δ}
    (hdrive : drive run start fail absorb n t saved a = (t₁, saved₁, .ok ())) (hn : a.length ≤ n)
    (hrun : Consumes run) (hmeets : Meets run start absorb t₁ saved₁ b t₂ d) :
    Meets run start absorb t saved (a ++ b) t₂ d := by
  induction n generalizing t saved a with
  | zero =>
    obtain rfl : a = [] := by simpa using hn
    cases hdrive
    exact hmeets
  | succ n ih =>
    by_cases ha : a = []
    · subst ha
      simp only [drive] at hdrive
      cases hdrive
      exact hmeets
    · have hab : a ++ b ≠ [] := by simp [ha]
      have hgood : good (saved.getD start) := by
        cases saved with
        | none => exact hstart
        | some s => exact hsaved s rfl
      obtain ⟨hmore, hdone, -⟩ := hres _ hgood a
      rw [drive, if_neg ha] at hdrive
      rcases hr : run (saved.getD start) a with ⟨d₁ | s | e, rest⟩
      · have hlt := hrun _ _ _ _ hr
        have happ := hdone d₁ rest hr b
        simp only [hr] at hdrive
        rcases habs : absorb t d₁ with ⟨t', e | ⟨⟩⟩
        · simp [habs] at hdrive
        · simp only [habs] at hdrive
          exact .later happ hab habs (ih t' none (by simp) rest hdrive (by omega))
      · obtain ⟨-, -, happ⟩ := hmore s rest hr
        simp only [hr] at hdrive
        cases hdrive
        cases hmeets with
        | here hb hne => exact .here ((happ b).trans hb) hab
        | later hb hne habs hlater => exact .later ((happ b).trans hb) hab habs hlater
      · simp [hr] at hdrive

theorem Meets.drive_eq (hrun : Consumes run) {t t' : τ} {saved : Option σ} {buf : List α} {d : δ}
    (hmeets : Meets run start absorb t saved buf t' d) (n : ℕ) (hn : buf.length ≤ n) :
    ∃ m rest, drive run start fail absorb n t saved buf =
      match absorb t' d with
      | (t'', .ok ()) => drive run start fail absorb m t'' none rest
      | (t'', .error e) => (t'', none, .error e) := by
  induction hmeets generalizing n with
  | @here t saved buf rest d hd hne =>
    have hpos := length_pos_iff.mpr hne
    obtain ⟨m, rfl⟩ : ∃ m, n = m + 1 := ⟨n - 1, by omega⟩
    refine ⟨m, rest, ?_⟩
    rewrite [drive, if_neg hne, hd]
    rfl
  | later hd hne habs hlater ih =>
    have hlt := hrun _ _ _ _ hd
    obtain ⟨m, rfl⟩ : ∃ m, n = m + 1 := ⟨n - 1, by omega⟩
    obtain ⟨m', rest', heq⟩ := ih m (by omega)
    refine ⟨m', rest', ?_⟩
    rw [drive, if_neg hne, hd]
    simp only [habs]
    exact heq

theorem ResumesExcept.shorten (hf : ResumesExcept good bad run f) (hrun : Consumes run)
    {buf a b : List α} {d : δ} (hd : f buf = (.decoded d, a ++ b)) (hbad : ¬ bad d)
    (hlength : (a ++ b).length ≤ buf.length) : ∃ c, buf = c ++ b ∧ f c = (.decoded d, a) := by
  have hsplit := take_append_drop (buf.length - b.length) buf
  have hdrop : (buf.drop (buf.length - b.length)).length = b.length := by
    rw [length_drop]
    simp only [length_append] at hlength
    omega
  obtain ⟨hmore, hdone, herr⟩ := hf (buf.take (buf.length - b.length))
  rcases hr : f (buf.take (buf.length - b.length)) with ⟨d' | s | e, r⟩
  · have happ := hdone d' r hr (buf.drop (buf.length - b.length))
    rw [hsplit, hd] at happ
    obtain ⟨heq, hrest⟩ := Prod.mk.inj happ
    obtain ⟨hra, hdb⟩ := append_inj' hrest hdrop.symm
    rw [← hdb] at hsplit
    refine ⟨_, hsplit.symm, ?_⟩
    rw [hr, DecResult.decoded.inj heq, hra]
  · obtain ⟨-, -, happ⟩ := hmore s r hr
    have hcont := happ (buf.drop (buf.length - b.length))
    rw [hsplit, hd] at hcont
    have htakes := hrun s _ _ _ hcont.symm
    simp only [length_append] at htakes
    omega
  · rcases herr e r hr (buf.drop (buf.length - b.length)) with herror | ⟨d', r', hd', hbad'⟩
    · rw [hsplit, hd] at herror
      cases herror
    · rw [hsplit, hd] at hd'
      cases hd'
      exact absurd hbad' hbad

theorem ResumesExcept.refuses (hf : ResumesExcept good bad run f)
    (htwo : ∀ s, good s → ∀ a d r, run s a = (.decoded d, r) → bad d → r.length + 2 ≤ a.length)
    {buf rest : List α} {d : δ} (hd : f buf = (.decoded d, rest)) (hbad : bad d)
    (hlength : rest.length + 2 ≤ buf.length) :
    ∃ a b e r, buf = a ++ b ∧ a ≠ [] ∧ f a = (.error e, r) := by
  have hsplit := take_append_drop (buf.length - rest.length - 1) buf
  have hdrop : (buf.drop (buf.length - rest.length - 1)).length = rest.length + 1 := by
    rw [length_drop]
    omega
  have hne : buf.take (buf.length - rest.length - 1) ≠ [] := by
    intro hnil
    have hlen := congrArg length hnil
    rw [length_take, length_nil] at hlen
    omega
  obtain ⟨hmore, hdone, -⟩ := hf (buf.take (buf.length - rest.length - 1))
  rcases hr : f (buf.take (buf.length - rest.length - 1)) with ⟨d' | s | e, r⟩
  · have happ := hdone d' r hr (buf.drop (buf.length - rest.length - 1))
    rw [hsplit, hd] at happ
    obtain ⟨-, hrest⟩ := Prod.mk.inj happ
    have hlen := congrArg length hrest
    rw [length_append] at hlen
    omega
  · obtain ⟨-, hs, happ⟩ := hmore s r hr
    have hcont := happ (buf.drop (buf.length - rest.length - 1))
    rw [hsplit, hd] at hcont
    have htakes := htwo s hs _ _ _ hcont.symm hbad
    omega
  · exact ⟨_, _, e, r, hsplit.symm, hne, hr⟩

theorem Meets.cut (hres : ∀ s, good s → ResumesExcept good bad run (run s)) (hstart : good start)
    (hrun : Consumes run)
    (htwo : ∀ s, good s → ∀ a d r, run s a = (.decoded d, r) → bad d → r.length + 2 ≤ a.length)
    {t t' : τ} {saved : Option σ} {buf : List α} {d : δ} (hsaved : ∀ s ∈ saved, good s)
    (hmeets : Meets run start absorb t saved buf t' d) (hbad : bad d) :
    ∃ t₁ d₁ a b s a' e r, buf = a ++ b ∧ Meets run start absorb t saved buf t₁ d₁ ∧ bad d₁ ∧
      good s ∧ run s a' = (.error e, r) ∧
      ∀ n, a.length ≤ n → drive run start fail absorb n t saved a = (t₁, none, .error (fail e)) := by
  have hgood : ∀ {saved : Option σ}, (∀ s ∈ saved, good s) → good (saved.getD start) := by
    intro saved hsaved
    cases saved with
    | none => exact hstart
    | some s => exact hsaved s rfl
  have hhere : ∀ {t : τ} {saved : Option σ} {buf rest : List α} {d : δ}, buf ≠ [] →
      (∀ s ∈ saved, good s) → run (saved.getD start) buf = (.decoded d, rest) → bad d →
      ∃ t₁ d₁ a b s a' e r, buf = a ++ b ∧ Meets run start absorb t saved buf t₁ d₁ ∧ bad d₁ ∧
        good s ∧ run s a' = (.error e, r) ∧
        ∀ n, a.length ≤ n →
          drive run start fail absorb n t saved a = (t₁, none, .error (fail e)) := by
    intro t saved buf rest d hne hsaved hd hbad
    have hs := hgood hsaved
    obtain ⟨a, b, e, r, rfl, ha, herr⟩ := (hres _ hs).refuses htwo hd hbad (htwo _ hs _ _ _ hd hbad)
    refine ⟨t, d, a, b, _, a, e, r, rfl, .here hd hne, hbad, hs, herr, fun n hn => ?_⟩
    have hpos := length_pos_iff.mpr ha
    obtain ⟨m, rfl⟩ : ∃ m, n = m + 1 := ⟨n - 1, by omega⟩
    rw [drive, if_neg ha, herr]
  induction hmeets with
  | here hd hne => exact hhere hne hsaved hd hbad
  | @later t t₁ t₂ saved buf rest d₁ d₂ hd hne habs hlater ih =>
    by_cases hbad₁ : bad d₁
    · exact hhere hne hsaved hd hbad₁
    · -- The first value is decoded as before, and the cut is behind it.
      obtain ⟨t₃, d₃, a, b, s, a', e, r, rfl, hmeets₃, hbad₃, hs, herr, hdrive⟩ := ih (by simp) hbad
      obtain ⟨c, rfl, hc⟩ := (hres _ (hgood hsaved)).shorten hrun hd hbad₁
        (Nat.le_of_succ_le (hrun _ _ _ _ hd))
      refine ⟨t₃, d₃, c, b, s, a', e, r, rfl, .later hd hne habs hmeets₃, hbad₃, hs, herr,
        fun n hn => ?_⟩
      have hlt := hrun _ _ _ _ hc
      have hcne : c ≠ [] := by
        rintro rfl
        simp at hlt
      obtain ⟨m, rfl⟩ : ∃ m, n = m + 1 := ⟨n - 1, by omega⟩
      rw [drive, if_neg hcne, hc]
      simp only [habs]
      exact hdrive m (by omega)

end Library
