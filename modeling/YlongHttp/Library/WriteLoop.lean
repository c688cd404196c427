import Mathlib.Tactic

/-! # Writers that fill a buffer in a loop

A call takes one step after another until the buffer is full or nothing is left. A step may write
nothing and only move on, so that a rank has to fall with it. -/

namespace Library

open List

variable {β σ : Type*} (step : ℕ → σ → ℕ → Option (Option (List β × σ)))
variable {fuel room : ℕ} {s : σ} {out : List β}

/-- The loop of a call. A step is given the fuel that is left; its answer of `none` is a want of
fuel, and of `some none` the end. -/
def fill : ℕ → σ → ℕ → Option (List β × σ)
  | 0, _, _ => none
  | fuel + 1, s, room =>
    if room = 0 then some ([], s)
    else
      match step fuel s room with
      | none => none
      | some none => some ([], s)
      | some (some (out, next)) =>
        (fill fuel next (room - out.length)).map fun (later, last) => (out ++ later, last)

/-- Calls with one buffer after another, up to the first that writes nothing, and what they
write. -/
inductive Drains : σ → List ℕ → List β → Prop
  | done {s last : σ} {fuel room : ℕ} (call : fill step fuel s room = some ([], last)) :
      Drains s [room] []
  | more {s next : σ} {fuel room : ℕ} {out later : List β} {rooms : List ℕ}
      (call : fill step fuel s room = some (out, next)) (written : out ≠ [])
      (rest : Drains next rooms later) : Drains s (room :: rooms) (out ++ later)

/-- `fill` for steps that may have to wait: without octets for that, and then what the call has
written before is not reported. -/
def pollFill (step : ℕ → σ → ℕ → Option (Option (Option (List β) × σ))) :
    ℕ → σ → ℕ → Option (Option (List β) × σ)
  | 0, _, _ => none
  | fuel + 1, s, room =>
    if room = 0 then some (some [], s)
    else
      match step fuel s room with
      | none => none
      | some none => some (some [], s)
      | some (some (none, next)) => some (none, next)
      | some (some (some out, next)) =>
        (pollFill step fuel next (room - out.length)).map fun (later, last) =>
          (later.map (out ++ ·), last)

/-- A step writes the next part of what is owed, which is nothing at the end, and comes nearer
to it. -/
structure Pays (owed : σ → List β) (rank : σ → ℕ) : Prop where
  ends : ∀ fuel s room, step fuel s room = some none → owed s = []
  writes : ∀ fuel s room out next, 0 < room → step fuel s room = some (some (out, next)) →
    owed s = out ++ owed next ∧ out.length ≤ room ∧
      (owed next).length + rank next < (owed s).length + rank s
  total : ∀ fuel s room, 0 < room → (owed s).length + rank s ≤ fuel → step fuel s room ≠ none

/-- A step writes the next part of what is owed, and may go back where the buffer ends with it:
then `back l` is owed in place of `l`. What a state owes, and its rank, is a relation, which need
not say something of every state. -/
structure PaysBack (owes : σ → List β → ℕ → Prop) (back : List β → List β) : Prop where
  settled : ∀ s l r, owes s l r → back l = l
  ends : ∀ fuel s room l r, owes s l r → 0 < room → step fuel s room = some none → l = []
  writes : ∀ fuel s room l r out next, owes s l r → 0 < room →
    step fuel s room = some (some (out, next)) → ∃ l' r', owes next (back l') r' ∧ l = out ++ l' ∧
      out.length ≤ room ∧ (out.length < room → back l' = l') ∧
      (back l' = l' → l'.length + r' < l.length + r)
  total : ∀ fuel s room l r, owes s l r → 0 < room → l.length + r ≤ fuel → step fuel s room ≠ none

/-- What is written into one buffer after another where so much is owed. -/
inductive Pours (back : List β → List β) : List β → List ℕ → List β → Prop
  | done {room : ℕ} : Pours back [] [room] []
  | more {l later : List β} {room : ℕ} {rooms : List ℕ} (owed : l ≠ [])
      (rest : Pours back (back (l.drop room)) rooms later) :
      Pours back l (room :: rooms) (l.take room ++ later)

section Back

variable {step} {owes : σ → List β → ℕ → Prop} {back : List β → List β}
variable {s : σ} {bytes l : List β} {r : ℕ} {rooms : List ℕ}

theorem PaysBack.fill (h : PaysBack step owes back) {last : σ} (hs : owes s l r)
    (hfill : fill step fuel s room = some (out, last)) :
    out = l.take room ∧ ∃ r', owes last (back (l.drop room)) r' ∧
      (back (l.drop room) = l.drop room → (l.drop room).length + r' ≤ l.length + r ∧
        (out ≠ [] → (l.drop room).length + r' < l.length + r)) := by
  induction fuel generalizing s room l r out with
  | zero => cases hfill
  | succ fuel ih =>
    rw [Library.fill] at hfill
    split at hfill
    · next hroom =>
        cases hfill
        subst hroom
        rw [drop_zero, h.settled _ l r hs]
        exact ⟨rfl, r, hs, fun _ => ⟨le_rfl, fun hout => absurd rfl hout⟩⟩
    · next hroom =>
        cases hstep : step fuel s room with
        | none =>
          rw [hstep] at hfill
          cases hfill
        | some answer =>
          rw [hstep] at hfill
          cases answer with
          | none =>
            cases hfill
            obtain rfl := h.ends fuel _ room l r hs (Nat.pos_of_ne_zero hroom) hstep
            rw [take_nil, drop_nil, h.settled _ _ r hs]
            exact ⟨rfl, r, hs, fun _ => ⟨le_rfl, fun hout => absurd rfl hout⟩⟩
          | some result =>
            obtain ⟨first, next⟩ := result
            obtain ⟨l', r', hnext, rfl, hle, hback, hlt⟩ :=
              h.writes fuel s room l r first next hs (Nat.pos_of_ne_zero hroom) hstep
            obtain ⟨⟨later, last'⟩, hlater, heq⟩ := Option.map_eq_some_iff.mp hfill
            cases heq
            rw [take_append, take_of_length_le hle, drop_append, drop_of_length_le hle, nil_append]
            by_cases hfull : first.length < room
            · rw [hback hfull] at hnext
              obtain ⟨hout, r'', hlast, hrank⟩ := ih hnext hlater
              rw [hout]
              refine ⟨rfl, r'', hlast, fun hsame => ?_⟩
              have hless := (hrank hsame).1.trans_lt (hlt (hback hfull))
              exact ⟨hless.le, fun _ => hless⟩
            · -- The buffer is full, and the call ends.
              have hzero : room - first.length = 0 := by omega
              rw [hzero] at hlater ⊢
              obtain ⟨fuel, rfl⟩ : ∃ k, fuel = k + 1 := by
                cases fuel with
                | zero => cases hlater
                | succ k => exact ⟨k, rfl⟩
              rw [Library.fill, if_pos rfl] at hlater
              cases hlater
              exact ⟨rfl, r', hnext, fun hsame => ⟨(hlt hsame).le, fun _ => hlt hsame⟩⟩

theorem PaysBack.fill_total (h : PaysBack step owes back) {fuel : ℕ} {s : σ} {room : ℕ}
    {l : List β} {r : ℕ} (hs : owes s l r) (hfuel : l.length + r < fuel) :
    ∃ result, Library.fill step fuel s room = some result := by
  induction fuel generalizing s room l r with
  | zero => exact absurd hfuel (Nat.not_lt_zero _)
  | succ fuel ih =>
    rw [Library.fill]
    split
    · exact ⟨_, rfl⟩
    · next hroom =>
        have hpos := Nat.pos_of_ne_zero hroom
        cases hstep : step fuel s room with
        | none => exact absurd hstep (h.total fuel s room l r hs hpos (Nat.lt_succ_iff.mp hfuel))
        | some answer =>
          cases answer with
          | none => exact ⟨_, rfl⟩
          | some result =>
            obtain ⟨first, next⟩ := result
            obtain ⟨l', r', hnext, rfl, hle, hback, hlt⟩ :=
              h.writes fuel s room l r first next hs hpos hstep
            by_cases hfull : first.length < room
            · rw [hback hfull] at hnext
              obtain ⟨result, hres⟩ :=
                ih hnext ((hlt (hback hfull)).trans_le (Nat.lt_succ_iff.mp hfuel))
              exact ⟨_, congrArg (Option.map _) hres⟩
            · have hzero : room - first.length = 0 := by omega
              rw [length_append] at hfuel
              obtain ⟨fuel, rfl⟩ := Nat.exists_eq_add_of_le' (show 1 ≤ fuel by omega)
              dsimp only
              rw [hzero, Library.fill, if_pos rfl]
              exact ⟨_, rfl⟩

theorem PaysBack.drains_iff (h : PaysBack step owes back) (hs : owes s l r)
    (hrooms : ∀ room ∈ rooms, 0 < room) : Drains step s rooms bytes ↔ Pours back l rooms bytes := by
  have htake : ∀ {l : List β} {room : ℕ}, 0 < room → (l.take room = [] ↔ l = []) := by
    intro l room hroom
    rw [take_eq_nil_iff]
    exact ⟨fun h => h.resolve_left hroom.ne', .inr⟩
  constructor
  · intro hdrains
    induction hdrains generalizing l r with
    | @done s last fuel room call =>
      obtain ⟨hout, -⟩ := h.fill hs call
      obtain rfl := (htake (hrooms room (.head _))).mp hout.symm
      exact .done
    | @more s next fuel room out later rooms call written rest ih =>
      obtain ⟨rfl, r', hnext, -⟩ := h.fill hs call
      refine .more (fun hl => written ?_) (ih hnext fun r hr => hrooms r (.tail room hr))
      rw [hl, take_nil]
  · intro hpours
    induction hpours generalizing s r with
    | @done room =>
      obtain ⟨⟨out, next⟩, hcall⟩ := h.fill_total hs (Nat.lt_succ_self _)
      obtain ⟨hout, -⟩ := h.fill hs hcall
      rw [take_nil] at hout
      subst hout
      exact .done hcall
    | @more l later room rooms owed rest ih =>
      obtain ⟨⟨out, next⟩, hcall⟩ := h.fill_total hs (Nat.lt_succ_self _)
      obtain ⟨rfl, r', hnext, -⟩ := h.fill hs hcall
      have hwritten := fun hnil => owed ((htake (hrooms room (.head _))).mp hnil)
      exact .more hcall hwritten (ih hnext fun r hr => hrooms r (.tail room hr))

/-! ## What is poured -/

theorem pours_total (l : List β) (rooms : ℕ → ℕ) (hrooms : ∀ i, 0 < rooms i)
    (hback : ∀ n, back (l.drop ((List.range n).map rooms).sum) =
      l.drop ((List.range n).map rooms).sum) :
    ∃ n, Pours back l ((List.range n).map rooms) l := by
  -- By induction on what is owed; a call that writes something is taken off the front.
  induction hlen : l.length using Nat.strong_induction_on generalizing l rooms with
  | h n ih =>
    subst hlen
    by_cases hl : l = []
    · subst hl
      exact ⟨1, .done⟩
    · have hlen : 0 < l.length := length_pos_of_ne_nil hl
      have hpos := hrooms 0
      obtain ⟨k, hk⟩ := ih (l.drop (rooms 0)).length (by rw [length_drop]; omega)
        (l.drop (rooms 0)) (fun i => rooms (i + 1)) (fun i => hrooms (i + 1)) (fun n => by
          have hn := hback (n + 1)
          rw [range_succ_eq_map, map_cons, map_map, sum_cons] at hn
          rwa [drop_drop]) rfl
      have hone := hback 1
      rw [range_one, map_singleton, sum_singleton] at hone
      refine ⟨k + 1, ?_⟩
      rw [range_succ_eq_map, map_cons, map_map]
      have hrest : Pours back (back (l.drop (rooms 0)))
          ((range k).map fun i => rooms (i + 1)) (l.drop (rooms 0)) := by rwa [hone]
      have hmore := Pours.more hl hrest
      rwa [take_append_drop] at hmore

theorem Pours.eq (h : Pours back l rooms bytes) (hback : ∀ k, back (l.drop k) = l.drop k) :
    bytes = l := by
  induction h with
  | done => rfl
  | @more l later room rooms _ _ ih =>
    rw [hback] at ih
    rw [ih fun k => by rw [drop_drop, hback], take_append_drop]

theorem Pours.length_le (h : Pours back l rooms bytes) : bytes.length ≤ rooms.sum := by
  induction h with
  | done => exact Nat.zero_le _
  | more _ _ ih =>
    rw [length_append, sum_cons]
    exact Nat.add_le_add (length_take_le _ _) ih

/-! ## A word that is begun anew where the buffer ends in it -/

/-- Back to the start of the word before the tail. -/
def anew (word tail l : List β) : List β :=
  if tail.length < l.length ∧ l.length < word.length + tail.length then word ++ tail else l

theorem Pours.anew {word tail front l bytes : List β} {rooms : List ℕ}
    (h : Pours (Library.anew word tail) l rooms bytes) (hl : l = front ++ (word ++ tail)) :
    ∃ vain, bytes = front ++ (vain ++ (word ++ tail)) ∧ (∀ b ∈ vain, b ∈ word) ∧
      (∀ b ∈ vain.head?, b ∈ word.head?) ∧
      (vain = [] ↔ ∀ n ≤ rooms.length, ¬(front.length < (rooms.take n).sum ∧
        (rooms.take n).sum < front.length + word.length)) := by
  induction h generalizing front with
  | @done room =>
    obtain ⟨rfl, hword⟩ := append_eq_nil_iff.mp hl.symm
    obtain ⟨rfl, rfl⟩ := append_eq_nil_iff.mp hword
    exact ⟨[], rfl, nofun, nofun, fun _ n _ hn => Nat.not_lt_zero _ hn.2, fun _ => rfl⟩
  | @more l later room rooms _ rest ih =>
    subst hl
    -- The first buffer ends in the front, in the word, or behind it.
    by_cases hfront : room ≤ front.length
    · have hdrop : (front ++ (word ++ tail)).drop room = front.drop room ++ (word ++ tail) := by
        rw [drop_append_of_le_length hfront]
      have hback : Library.anew word tail ((front ++ (word ++ tail)).drop room) =
          front.drop room ++ (word ++ tail) := by
        rw [hdrop, Library.anew, if_neg]
        simp only [length_append]
        omega
      obtain ⟨vain, hlater, hmem, hhead, hcut⟩ := ih hback
      refine ⟨vain, ?_, hmem, hhead, hcut.trans ?_⟩
      · rw [hlater, take_append_of_le_length hfront, ← append_assoc, take_append_drop]
      · rw [length_drop]
        constructor
        · intro hnone n hn
          cases n with
          | zero => simp
          | succ n =>
            have hn' := hnone n (Nat.succ_le_succ_iff.mp hn)
            rw [take_succ_cons, sum_cons]
            omega
        · intro hnone n hn
          have hn' := hnone (n + 1) (Nat.succ_le_succ hn)
          rw [take_succ_cons, sum_cons] at hn'
          omega
    · by_cases hword : room < front.length + word.length
      · have hback : Library.anew word tail ((front ++ (word ++ tail)).drop room) =
            [] ++ (word ++ tail) := by
          rw [Library.anew, if_pos]
          · rfl
          · simp only [length_drop, length_append]
            omega
        obtain ⟨vain, hlater, hmem, -, -⟩ := ih hback
        have htake : (front ++ (word ++ tail)).take room =
            front ++ word.take (room - front.length) := by
          rw [take_append, take_of_length_le (by omega), take_append_of_le_length (by omega)]
        have hhead : (word.take (room - front.length)).head? = word.head? := by
          rw [head?_take, if_neg (by omega)]
        have hsome : word.take (room - front.length) ≠ [] := by
          rw [ne_eq, take_eq_nil_iff]
          rintro (hzero | rfl)
          · omega
          · rw [length_nil] at hword
            omega
        refine ⟨word.take (room - front.length) ++ vain, ?_, ?_, ?_, ?_⟩
        · rw [hlater, htake]
          simp only [nil_append, append_assoc]
        · intro b hb
          rcases mem_append.mp hb with hb | hb
          · exact mem_of_mem_take hb
          · exact hmem b hb
        · rw [head?_append_of_ne_nil _ hsome, hhead]
          exact fun b hb => hb
        · refine ⟨fun hnil => absurd (append_eq_nil_iff.mp hnil).1 hsome, fun hnone => ?_⟩
          refine absurd ?_ (hnone 1 (Nat.succ_le_succ (Nat.zero_le _)))
          rw [take_succ_cons, take_zero, sum_singleton]
          exact ⟨Nat.lt_of_not_le hfront, hword⟩
      · have hlate : ∀ k, room ≤ k → Library.anew word tail ((front ++ (word ++ tail)).drop k) =
            (front ++ (word ++ tail)).drop k := by
          intro k hk
          rw [Library.anew, if_neg]
          simp only [length_drop, length_append]
          omega
        rw [hlate room le_rfl] at rest
        have hlater := rest.eq fun k => by rw [drop_drop, hlate _ (Nat.le_add_right _ _)]
        refine ⟨[], ?_, nofun, nofun, fun _ n _ => ?_, fun _ => rfl⟩
        · rw [hlater, take_append_drop, nil_append]
        · cases n with
          | zero => simp
          | succ n =>
            rw [take_succ_cons, sum_cons]
            omega

end Back

/-! ## Two writers, step by step -/

section Lockstep

variable {τ : Type*} {step} {step' : ℕ → τ → ℕ → Option (Option (List β × τ))} {same : σ → τ → Prop}
variable {s : σ} {t : τ} {rooms : List ℕ} {bytes : List β}

/-- From states that are the same in this sense, steps of both write the same and lead to such
states again. -/
def Lockstep (step : ℕ → σ → ℕ → Option (Option (List β × σ)))
    (step' : ℕ → τ → ℕ → Option (Option (List β × τ))) (same : σ → τ → Prop) : Prop :=
  ∀ fuel s t room, same s t → 0 < room →
    Option.Rel (Option.Rel fun a b => a.1 = b.1 ∧ same a.2 b.2) (step fuel s room)
      (step' fuel t room)

theorem Lockstep.symm (h : Lockstep step step' same) : Lockstep step' step fun t s => same s t := by
  intro fuel t s room hs hroom
  have hstep := h fuel s t room hs hroom
  generalize step fuel s room = answer, step' fuel t room = answer' at hstep ⊢
  cases hstep with
  | none => exact .none
  | some hanswer =>
    cases hanswer with
    | none => exact .some .none
    | some hab => exact .some (.some ⟨hab.1.symm, hab.2⟩)

theorem Lockstep.fill (h : Lockstep step step' same) (hs : same s t) (fuel room : ℕ) :
    Option.Rel (fun a b => a.1 = b.1 ∧ same a.2 b.2) (fill step fuel s room)
      (fill step' fuel t room) := by
  induction fuel generalizing s t room with
  | zero => exact .none
  | succ fuel ih =>
    rw [Library.fill, Library.fill]
    split
    · exact .some ⟨rfl, hs⟩
    · next hroom =>
        have hstep := h fuel s t room hs (Nat.pos_of_ne_zero hroom)
        generalize step fuel s room = answer, step' fuel t room = answer' at hstep ⊢
        cases hstep with
        | none => exact .none
        | some hanswer =>
          cases hanswer with
          | none => exact .some ⟨rfl, hs⟩
          | @some a b hab =>
            obtain ⟨out, next⟩ := a
            obtain ⟨out', next'⟩ := b
            obtain ⟨rfl, hnext⟩ := hab
            have hlater := ih hnext (room - out.length)
            dsimp only
            generalize Library.fill step fuel next (room - out.length) = later,
              Library.fill step' fuel next' (room - out.length) = later' at hlater ⊢
            cases hlater with
            | none => exact .none
            | some hab => exact .some ⟨congrArg (out ++ ·) hab.1, hab.2⟩

theorem Lockstep.drains (h : Lockstep step step' same) (hs : same s t)
    (hdrains : Drains step s rooms bytes) : Drains step' t rooms bytes := by
  induction hdrains generalizing t with
  | @done s last fuel room call =>
    have hcall := h.fill hs fuel room
    rw [call] at hcall
    cases hcall' : Library.fill step' fuel t room with
    | none =>
      rw [hcall'] at hcall
      cases hcall
    | some result =>
      obtain ⟨out, last'⟩ := result
      rw [hcall'] at hcall
      cases hcall with
      | some hab =>
        obtain ⟨rfl, -⟩ := hab
        exact .done hcall'
  | @more s next fuel room out later rooms call written rest ih =>
    have hcall := h.fill hs fuel room
    rw [call] at hcall
    cases hcall' : Library.fill step' fuel t room with
    | none =>
      rw [hcall'] at hcall
      cases hcall
    | some result =>
      obtain ⟨out', next'⟩ := result
      rw [hcall'] at hcall
      cases hcall with
      | some hab =>
        obtain ⟨rfl, hnext⟩ := hab
        exact .more hcall' written (ih hnext)

theorem Lockstep.drains_iff (h : Lockstep step step' same) (hs : same s t) :
    Drains step s rooms bytes ↔ Drains step' t rooms bytes :=
  ⟨h.drains hs, h.symm.drains hs⟩

end Lockstep

/-! ## A writer without an end -/

section Endless

variable {step} {inv : σ → Prop}
variable {s : σ}

theorem fill_endless (hstep : ∀ fuel s room, inv s → 0 < room →
      ∃ out next, step fuel s room = some (some (out, next)) ∧ out ≠ [] ∧ inv next) {last : σ}
    (hs : inv s) (hfill : fill step fuel s room = some (out, last)) :
    inv last ∧ (0 < room → out ≠ []) := by
  induction fuel generalizing s room out with
  | zero => cases hfill
  | succ fuel ih =>
    rw [fill] at hfill
    split at hfill
    · next hroom =>
        cases hfill
        exact ⟨hs, fun hpos => absurd hroom hpos.ne'⟩
    · next hroom =>
        obtain ⟨first, next, hanswer, hfirst, hnext⟩ :=
          hstep fuel s room hs (Nat.pos_of_ne_zero hroom)
        rw [hanswer] at hfill
        obtain ⟨⟨later, last'⟩, hlater, heq⟩ := Option.map_eq_some_iff.mp hfill
        cases heq
        exact ⟨(ih hnext hlater).1, fun _ => append_ne_nil_of_left_ne_nil hfirst _⟩

theorem not_drains (hstep : ∀ fuel s room, inv s → 0 < room →
      ∃ out next, step fuel s room = some (some (out, next)) ∧ out ≠ [] ∧ inv next) {rooms : List ℕ}
    {bytes : List β} (hs : inv s) (hrooms : ∀ room ∈ rooms, 0 < room) :
    ¬Drains step s rooms bytes := by
  intro hdrains
  induction hdrains with
  | @done s last fuel room call => exact (fill_endless hstep hs call).2 (hrooms room (.head _)) rfl
  | more call written rest ih =>
    exact ih (fill_endless hstep hs call).1 fun room hroom => hrooms room (.tail _ hroom)

end Endless

/-! ## Steps that do not go back -/

variable {step} {owed : σ → List β} {rank : σ → ℕ}

theorem Pays.paysBack (h : Pays step owed rank) :
    PaysBack step (fun s l r => owed s = l ∧ rank s = r) id where
  settled _ _ _ _ := rfl
  ends fuel s room := by
    rintro l r ⟨rfl, rfl⟩ - hstep
    exact h.ends fuel s room hstep
  writes fuel s room := by
    rintro l r out next ⟨rfl, rfl⟩ hroom hstep
    obtain ⟨howed, hle, hlt⟩ := h.writes fuel s room out next hroom hstep
    exact ⟨_, _, ⟨rfl, rfl⟩, howed, hle, fun _ => rfl, fun _ => hlt⟩
  total fuel s room := by
    rintro l r ⟨rfl, rfl⟩ hroom hfuel
    exact h.total fuel s room hroom hfuel

variable {last : σ}

theorem Pays.fill (h : Pays step owed rank) (hfill : fill step fuel s room = some (out, last)) :
    out = (owed s).take room ∧ owed last = (owed s).drop room ∧
      (owed last).length + rank last ≤ (owed s).length + rank s := by
  obtain ⟨hout, r, ⟨hlast, rfl⟩, hrank⟩ := h.paysBack.fill ⟨rfl, rfl⟩ hfill
  exact ⟨hout, hlast, hlast ▸ (hrank rfl).1⟩

theorem Pays.fill_lt (h : Pays step owed rank)
    (hfill : Library.fill step fuel s room = some (out, last)) (hout : out ≠ []) :
    (owed last).length + rank last < (owed s).length + rank s := by
  obtain ⟨-, r, ⟨hlast, rfl⟩, hrank⟩ := h.paysBack.fill ⟨rfl, rfl⟩ hfill
  exact hlast ▸ (hrank rfl).2 hout

theorem Pays.fill_total (h : Pays step owed rank) {fuel : ℕ} {s : σ} {room : ℕ}
    (hfuel : (owed s).length + rank s < fuel) :
    ∃ result, Library.fill step fuel s room = some result :=
  h.paysBack.fill_total ⟨rfl, rfl⟩ hfuel

theorem Pays.drains (h : Pays step owed rank) {rooms : List ℕ} {bytes : List β}
    (hrooms : ∀ room ∈ rooms, 0 < room) (hdrains : Drains step s rooms bytes) : bytes = owed s :=
  ((h.paysBack.drains_iff ⟨rfl, rfl⟩ hrooms).mp hdrains).eq fun _ => rfl

theorem Pays.drains_total (h : Pays step owed rank) (s : σ) (rooms : ℕ → ℕ)
    (hrooms : ∀ i, 0 < rooms i) : ∃ n, Drains step s ((List.range n).map rooms) (owed s) := by
  obtain ⟨n, hn⟩ := @pours_total _ id (owed s) rooms hrooms fun _ => rfl
  refine ⟨n, (h.paysBack.drains_iff ⟨rfl, rfl⟩ ?_).mpr hn⟩
  intro room hroom
  obtain ⟨i, -, rfl⟩ := mem_map.mp hroom
  exact hrooms i

/-! ## Steps that never wait -/

/-- The steps, where none of them waits. -/
def plain (step : ℕ → σ → ℕ → Option (Option (Option (List β) × σ))) (fuel : ℕ) (s : σ)
    (room : ℕ) : Option (Option (List β × σ)) :=
  (step fuel s room).map (Option.map fun (out, next) => (out.getD [], next))

/-- `Pays` from `good` states, in which no step waits. -/
structure PollPays (step : ℕ → σ → ℕ → Option (Option (Option (List β) × σ))) (good : σ → Prop)
    (owed : σ → List β) (rank : σ → ℕ) : Prop where
  ends : ∀ fuel s room, good s → step fuel s room = some none → owed s = []
  writes : ∀ fuel s room out next, good s → step fuel s room = some (some (out, next)) →
    ∃ bytes, out = some bytes ∧ good next ∧ (0 < room → owed s = bytes ++ owed next ∧
      bytes.length ≤ room ∧ (owed next).length + rank next < (owed s).length + rank s)
  total : ∀ fuel s room, good s → 0 < room → (owed s).length + rank s ≤ fuel →
    step fuel s room ≠ none

/-- Calls with one buffer after another, up to the first that is ready and writes nothing. -/
inductive PollDrains (step : ℕ → σ → ℕ → Option (Option (Option (List β) × σ))) :
    σ → List ℕ → List β → Prop
  | done {s last : σ} {fuel room : ℕ} (call : pollFill step fuel s room = some (some [], last)) :
      PollDrains step s [room] []
  | more {s next : σ} {fuel room : ℕ} {out later : List β} {rooms : List ℕ}
      (call : pollFill step fuel s room = some (some out, next)) (written : out ≠ [])
      (rest : PollDrains step next rooms later) : PollDrains step s (room :: rooms) (out ++ later)
  | pending {s next : σ} {fuel room : ℕ} {later : List β} {rooms : List ℕ}
      (call : pollFill step fuel s room = some (none, next))
      (rest : PollDrains step next rooms later) : PollDrains step s (room :: rooms) later

variable {step : ℕ → σ → ℕ → Option (Option (Option (List β) × σ))} {good : σ → Prop}
  {rooms : List ℕ} {bytes : List β}

theorem PollPays.paysBack (h : PollPays step good owed rank) :
    PaysBack (plain step) (fun s l r => good s ∧ owed s = l ∧ rank s = r) id where
  settled _ _ _ _ := rfl
  ends fuel s room := by
    rintro l r ⟨hs, rfl, rfl⟩ - hnone
    obtain ⟨result, hstep, heq⟩ := Option.map_eq_some_iff.mp hnone
    rw [Option.map_eq_none_iff.mp heq] at hstep
    exact h.ends fuel s room hs hstep
  writes fuel s room := by
    rintro l r out next ⟨hs, rfl, rfl⟩ hroom hsome
    obtain ⟨result, hstep, heq⟩ := Option.map_eq_some_iff.mp hsome
    obtain ⟨⟨polled, next'⟩, rfl, heq⟩ := Option.map_eq_some_iff.mp heq
    obtain ⟨bytes, rfl, hnext, hwrites⟩ := h.writes fuel s room _ _ hs hstep
    cases heq
    obtain ⟨howed, hle, hlt⟩ := hwrites hroom
    exact ⟨_, _, ⟨hnext, rfl, rfl⟩, howed, hle, fun _ => rfl, fun _ => hlt⟩
  total fuel s room := by
    rintro l r ⟨hs, rfl, rfl⟩ hroom hfuel hnone
    exact h.total fuel s room hs hroom hfuel (Option.map_eq_none_iff.mp hnone)

theorem PollPays.pollFill (h : PollPays step good owed rank) (hs : good s) :
    pollFill step fuel s room = (fill (plain step) fuel s room).map fun (out, last) =>
      (some out, last) := by
  induction fuel generalizing s room with
  | zero => rfl
  | succ fuel ih =>
    rw [Library.pollFill, fill, plain]
    by_cases hroom : room = 0
    · rw [if_pos hroom, if_pos hroom]
      rfl
    · rw [if_neg hroom, if_neg hroom]
      rcases hcall : step fuel s room with _ | _ | ⟨out, next⟩
      · rfl
      · rfl
      · obtain ⟨bytes, rfl, hnext, -⟩ := h.writes fuel s room out next hs hcall
        simp only [Option.map_some, Option.getD_some, ih hnext, Option.map_map, Function.comp_def]

theorem PollPays.drains_iff (h : PollPays step good owed rank) (hs : good s)
    (hrooms : ∀ room ∈ rooms, 0 < room) :
    PollDrains step s rooms bytes ↔ Pours id (owed s) rooms bytes := by
  rw [← h.paysBack.drains_iff ⟨hs, rfl, rfl⟩ hrooms]
  have hnext : ∀ {s next : σ} {fuel room : ℕ} {out : List β}, good s →
      fill (plain step) fuel s room = some (out, next) → good next := by
    intro s next fuel room out hs hfill
    obtain ⟨-, -, ⟨hgood, -, -⟩, -⟩ := h.paysBack.fill ⟨hs, rfl, rfl⟩ hfill
    exact hgood
  clear hrooms
  constructor
  · intro hdrains
    induction hdrains with
    | done call =>
      rw [h.pollFill hs] at call
      obtain ⟨⟨out, last'⟩, hfill, heq⟩ := Option.map_eq_some_iff.mp call
      cases heq
      exact .done hfill
    | more call written rest ih =>
      rw [h.pollFill hs] at call
      obtain ⟨⟨out, next'⟩, hfill, heq⟩ := Option.map_eq_some_iff.mp call
      cases heq
      exact .more hfill written (ih (hnext hs hfill))
    | pending call rest ih =>
      rw [h.pollFill hs] at call
      obtain ⟨result, -, heq⟩ := Option.map_eq_some_iff.mp call
      cases heq
  · intro hdrains
    induction hdrains with
    | done call => exact .done (by rw [h.pollFill hs, call]; rfl)
    | more call written rest ih =>
      exact .more (by rw [h.pollFill hs, call]; rfl) written (ih (hnext hs call))

end Library
