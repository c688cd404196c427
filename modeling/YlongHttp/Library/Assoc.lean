import Mathlib.Data.List.AList
import Mathlib.Tactic

/-! # Maps whose values are visited in place

An association list over distinct keys, with the two ways a program changes the values it
holds: all of them in one pass, or the one of a given key. -/

namespace Library

open List

variable {κ β : Type*}

/-- One pass over the map, `f` applied to each value. -/
def mapVal (f : κ → β → β) (m : AList fun _ : κ => β) : AList fun _ : κ => β where
  entries := m.entries.map fun e => ⟨e.1, f e.1 e.2⟩
  nodupKeys := by
    have hkeys : (m.entries.map fun e => (⟨e.1, f e.1 e.2⟩ : Sigma fun _ : κ => β)).keys =
        m.entries.keys := by
      simp [List.keys]
    rw [List.NodupKeys, hkeys]
    exact m.nodupKeys

@[simp]
theorem keys_mapVal (f : κ → β → β) (m : AList fun _ : κ => β) : (mapVal f m).keys = m.keys := by
  simp [mapVal, AList.keys, keys]

section Lookup

variable [DecidableEq κ]

@[simp]
theorem lookup_mapVal (f : κ → β → β) (m : AList fun _ : κ => β) (k : κ) :
    (mapVal f m).lookup k = (m.lookup k).map (f k) :=
  dlookup_map₂ k

/-- The value of `k`, if there is one, is changed by `f`. -/
def modify (k : κ) (f : β → β) (m : AList fun _ : κ => β) : AList fun _ : κ => β :=
  mapVal (fun k' v => if k' = k then f v else v) m

@[simp]
theorem keys_modify (k : κ) (f : β → β) (m : AList fun _ : κ => β) : (modify k f m).keys = m.keys :=
  keys_mapVal _ m

theorem lookup_modify (k : κ) (f : β → β) (m : AList fun _ : κ => β) (k' : κ) :
    (modify k f m).lookup k' = if k' = k then (m.lookup k').map f else m.lookup k' := by
  rw [modify, lookup_mapVal]
  split <;> simp

@[simp]
theorem lookup_modify_self (k : κ) (f : β → β) (m : AList fun _ : κ => β) :
    (modify k f m).lookup k = (m.lookup k).map f := by
  simp [lookup_modify]

theorem lookup_modify_of_ne {k k' : κ} (h : k' ≠ k) (f : β → β) (m : AList fun _ : κ => β) :
    (modify k f m).lookup k' = m.lookup k' := by
  simp [lookup_modify, h]

end Lookup

/-! ## Counting keys -/

theorem countP_eq_succ {l : List κ} {p q : κ → Bool} {a : κ} (hl : l.Nodup) (ha : a ∈ l)
    (hp : p a = true) (hq : q a = false) (hsame : ∀ b ∈ l, b ≠ a → p b = q b) :
    l.countP p = l.countP q + 1 := by
  induction l with
  | nil => cases ha
  | cons b l ih =>
    obtain ⟨hb, hl⟩ := nodup_cons.mp hl
    by_cases hab : b = a
    · subst hab
      have hrest : l.countP p = l.countP q := by
        refine countP_congr fun x hx => ?_
        rw [hsame x (.tail b hx) fun hxb => hb (hxb ▸ hx)]
      rw [countP_cons_of_pos hp, countP_cons_of_neg (by simp [hq]), hrest]
    · have ha : a ∈ l := (mem_cons.mp ha).resolve_left (Ne.symm hab)
      have hrest := ih hl ha fun x hx => hsame x (.tail b hx)
      rw [countP_cons, countP_cons, hrest, hsame b (.head _) hab]
      omega

end Library
