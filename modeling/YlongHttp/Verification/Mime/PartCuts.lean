import YlongHttp.Library.Rounds
import YlongHttp.Model.Mime.Decoder

/-! # Bodies of parts that are cut -/

namespace YlongHttp.Mime

open List

variable {a line unparsed : Bytes}

theorem getCrlfContain_append_none (h : getCrlfContain a = none) (b : Bytes) :
    getCrlfContain (a ++ b) = (getCrlfContain b).map fun (line, unparsed) => (a ++ line, unparsed) := by
  induction a with
  | nil =>
    rw [nil_append]
    cases getCrlfContain b <;> rfl
  | cons c a ih =>
    rw [getCrlfContain] at h
    rw [cons_append, getCrlfContain]
    split at h
    · cases h
    · rw [if_neg ‹_›, ih (Option.map_eq_none_iff.mp h)]
      cases getCrlfContain b <;> rfl

theorem getCrlfContain_append_some (h : getCrlfContain a = some (line, unparsed)) (b : Bytes) :
    getCrlfContain (a ++ b) = some (line, unparsed ++ b) ∧ a = line ++ unparsed ∧
      line.getLast? = some lf := by
  induction a generalizing line with
  | nil => cases h
  | cons c a ih =>
    rw [getCrlfContain] at h
    rw [cons_append, getCrlfContain]
    split at h
    · next hc =>
        cases h
        rw [if_pos hc, hc]
        exact ⟨rfl, rfl, rfl⟩
    · next hc =>
        obtain ⟨⟨line', rest⟩, hline, heq⟩ := Option.map_eq_some_iff.mp h
        cases heq
        obtain ⟨happend, hsplit, hlast⟩ := ih hline
        rw [if_neg hc, happend, hsplit]
        refine ⟨rfl, rfl, ?_⟩
        cases line' with
        | nil => cases hlast
        | cons d line' => rwa [getLast?_cons_cons]

theorem length_unparsed {buf : Bytes} (h : getCrlfContain buf = some (line, unparsed)) :
    unparsed.length < buf.length := by
  obtain ⟨-, hsplit, hlast⟩ := getCrlfContain_append_some h []
  have hne : line ≠ [] := by
    rintro rfl
    cases hlast
  have hpos := length_pos_of_ne_nil hne
  rw [hsplit, length_append]
  omega

namespace MimePartDecoder

def rounds : Library.Rounds MimePartDecoder (MimePart × BoundaryTag) (Fault HttpError) UInt8 where
  value self := if self.stage = .done then some (self.part, self.tag) else none
  round := MimePartDecoder.round

/-- The states of a part of which the header lines are read. -/
def Good (self : MimePartDecoder) : Prop := self.stage = .body ∨ self.stage = .done

variable {self next : MimePartDecoder} {a b rest : Bytes}

theorem value_none (h : self.stage ≠ .done) : rounds.value self = none := if_neg h

theorem value_done (h : self.stage = .done) : rounds.value self = some (self.part, self.tag) :=
  if_pos h

theorem stage_of_value (hgood : self.Good) (h : rounds.value self = none) : self.stage = .body :=
  hgood.resolve_right fun hdone => by rw [value_done hdone] at h; cases h

theorem round_body (hstage : self.stage = .body) (buf : Bytes) :
    rounds.round self buf = .ok (self.bodyDecode buf) := by
  change self.round buf = _
  rw [round, hstage]

/-- `bodyDecode` once a whole line is there, with `body` up to its end. -/
def lineDecode (self : MimePartDecoder) (body : Bytes) : MimePartDecoder :=
  let self := { self with part := { self.part with body } }
  let trimLine := trimBackLwspIfEndWithLf (body.drop self.srcIdx)
  if trimLine = str "--" ++ self.boundary then whenIsEnd { self with tag := .middle }
  else if trimLine = str "--" ++ self.boundary ++ str "--" then whenIsEnd { self with tag := .last }
  else { self with srcIdx := body.length }

theorem bodyDecode_eq (self : MimePartDecoder) (buf : Bytes) :
    self.bodyDecode buf =
      match getCrlfContain buf with
      | none => ({ self with part := { self.part with body := self.part.body ++ buf } }, [])
      | some (src, unparsed) => (self.lineDecode (self.part.body ++ src), unparsed) := by
  rw [bodyDecode]
  cases getCrlfContain buf with
  | none => rfl
  | some result =>
    obtain ⟨src, unparsed⟩ := result
    dsimp only
    rw [lineDecode]
    dsimp only
    split
    · rfl
    · split <;> rfl

theorem lineDecode_stage (hstage : self.stage = .body) (body : Bytes) :
    (self.lineDecode body).Good := by
  rw [lineDecode]
  dsimp only
  split
  · exact .inr rfl
  · split
    · exact .inr rfl
    · exact .inl hstage

theorem cut_round (hstage : self.stage = .body) :
    rounds.Cut (fun _ => False) (fun _ _ => True) self a b := by
  rw [Library.Rounds.Cut, round_body hstage, round_body hstage, bodyDecode_eq, bodyDecode_eq]
  cases hline : getCrlfContain a with
  | none =>
    refine .inr ⟨rfl, value_none (by rw [hstage]; simp), fun _ => .inl ?_⟩
    have hnext := @round_body
      { self with part := { self.part with body := self.part.body ++ a } } hstage b
    rw [getCrlfContain_append_none hline, hnext, bodyDecode_eq]
    cases getCrlfContain b with
    | none => simp
    | some result => simp [lineDecode]
  | some result =>
    obtain ⟨src, unparsed⟩ := result
    rw [(getCrlfContain_append_some hline b).1]
    exact .inl rfl

variable {buf : Bytes}

theorem advances_round (hstage : self.stage = .body) (hbuf : buf ≠ [])
    (hround : rounds.round self buf = .ok (next, rest)) : next.Good ∧ rest.length < buf.length := by
  rw [round_body hstage, bodyDecode_eq] at hround
  cases hline : getCrlfContain buf with
  | none =>
    rw [hline] at hround
    cases hround
    exact ⟨.inl hstage, length_pos_of_ne_nil hbuf⟩
  | some result =>
    obtain ⟨src, unparsed⟩ := result
    rw [hline] at hround
    cases hround
    exact ⟨lineDecode_stage hstage _, length_unparsed hline⟩

theorem lawful : rounds.Lawful Good (fun _ => False) (fun _ _ => True) where
  cut _ _ _ hgood hval _ _ := cut_round (stage_of_value hgood hval)
  good _ _ _ _ hgood hval hbuf hround := (advances_round (stage_of_value hgood hval) hbuf hround).1

/-- The loop runs to an end as soon as every round keeps `good` and makes `measure` smaller. -/
theorem decodeLoop_ends (good : MimePartDecoder → Prop) (measure : MimePartDecoder → Bytes → ℕ)
    (hrounds : ∀ s buf next rest, good s → rounds.value s = none → buf ≠ [] →
      rounds.round s buf = .ok (next, rest) → good next ∧ measure next rest < measure s buf)
    (fuel : ℕ) (hgood : good self) (hbuf : buf ≠ [] ∨ rounds.value self ≠ none)
    (hfuel : measure self buf < fuel) : match self.decodeLoop fuel buf with
    | .error e => rounds.Ends self buf (.error e)
    | .ok (next, none, rest) => rest = [] ∧ rounds.Ends self buf (.more next) ∧ good next
    | .ok (next, some part, rest) => rounds.Ends self buf (.complete (part, next.tag) rest) ∧
        ∃ last, good last ∧ last.stage = .done ∧
          next = { last with part := { headers := .new, body := [] } } := by
  induction fuel generalizing self buf with
  | zero => exact absurd hfuel (Nat.not_lt_zero _)
  | succ fuel ih =>
    rw [decodeLoop]
    by_cases hstage : self.stage = .done
    · rw [if_pos hstage]
      exact ⟨.complete (value_done hstage), self, hgood, hstage, rfl⟩
    · have hval := value_none hstage
      have hne := hbuf.resolve_right (absurd hval)
      rw [if_neg hstage]
      cases hround : self.round buf with
      | error e => exact .error hval hround
      | ok result =>
        obtain ⟨next, rest⟩ := result
        obtain ⟨hnext, hlt⟩ := hrounds _ _ _ _ hgood hval hne hround
        dsimp only
        by_cases hend : rest.isEmpty = true ∧ next.stage ≠ .done
        · have hrest : rest = [] := by simpa using hend.1
          subst hrest
          rw [if_pos hend]
          exact ⟨rfl, .more hval hround (value_none hend.2), hnext⟩
        · have hleft : rest ≠ [] ∨ rounds.value next ≠ none := by
            by_cases hrest : rest = []
            · refine .inr fun hnone => hend ⟨by rw [hrest]; rfl, fun hdone => ?_⟩
              rw [value_done hdone] at hnone
              cases hnone
            · exact .inl hrest
          have hlater := ih hnext hleft (hlt.trans_le (Nat.lt_succ_iff.mp hfuel))
          rw [if_neg hend]
          rcases hloop : decodeLoop fuel next rest with e | ⟨last, _ | part, after⟩
          · rw [hloop] at hlater
            exact .step hval hround hleft hlater
          · rw [hloop] at hlater
            exact ⟨hlater.1, .step hval hround hleft hlater.2.1, hlater.2.2⟩
          · rw [hloop] at hlater
            exact ⟨.step hval hround hleft hlater.1, hlater.2⟩

theorem not_ends_error {e : Fault HttpError} (hgood : self.Good) (hbuf : buf ≠ []) :
    ¬rounds.Ends self buf (.error e) := by
  rw [Library.Rounds.Ends.error_iff]
  rintro ⟨last, rest, hpasses, hval, hround⟩
  have hlast := stage_of_value (lawful.good.passes hgood (.inl hbuf) hpasses).1 hval
  rw [round_body hlast] at hround
  cases hround

theorem decode_ends (hgood : self.Good) (hbuf : buf ≠ []) :
    ∃ last, (self.decode buf = .ok (last, none, []) ∧ rounds.Ends self buf (.more last)) ∨
      ∃ part rest, self.decode buf = .ok (last, some part, rest) ∧
        rounds.Ends self buf (.complete (part, last.tag) rest) := by
  have hends := decodeLoop_ends Good (fun _ buf => buf.length)
    (fun _ _ _ _ hgood hval hbuf hround => advances_round (stage_of_value hgood hval) hbuf hround)
    (buf.length + 4) hgood (.inl hbuf) (by omega)
  rw [decode, if_neg (by simpa using hbuf)]
  rcases hloop : self.decodeLoop (buf.length + 4) buf with e | ⟨last, _ | part, rest⟩
  · rw [hloop] at hends
    exact absurd hends (not_ends_error hgood hbuf)
  · rw [hloop] at hends
    obtain ⟨rfl, hmore, -⟩ := hends
    exact ⟨last, .inl ⟨rfl, hmore⟩⟩
  · rw [hloop] at hends
    exact ⟨last, .inr ⟨part, rest, rfl, hends.1⟩⟩

theorem ends_total (hgood : self.Good) (hbuf : buf ≠ []) : ∃ o, rounds.Ends self buf o := by
  obtain ⟨last, ⟨-, hmore⟩ | ⟨part, rest, -, hcomp⟩⟩ := decode_ends hgood hbuf
  · exact ⟨_, hmore⟩
  · exact ⟨_, hcomp⟩

theorem complete_lt {value : MimePart × BoundaryTag} (hstage : self.stage = .body) (hbuf : buf ≠ [])
    (hends : rounds.Ends self buf (.complete value rest)) : rest.length < buf.length := by
  obtain ⟨-, -, hlt⟩ := lawful.complete_lt (fun _ buf => buf.length)
    (fun _ _ _ _ hgood hval hbuf hround =>
      (advances_round (stage_of_value hgood hval) hbuf hround).2)
    (.inl hstage) hbuf (value_none (by rw [hstage]; nofun)) hends
  exact hlt

end MimePartDecoder

end YlongHttp.Mime
