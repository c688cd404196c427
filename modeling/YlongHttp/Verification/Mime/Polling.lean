import YlongHttp.Verification.Mime.Encoding

/-! # Encoding with readers that are polled

As long as no reader has to wait, what is polled is what the encoder owes. -/

namespace YlongHttp.Mime

open MimeMultiEncoder Option MimePartEncoder

def Answers.Ready (answers : Answers) : Prop := ∀ answer ∈ answers, answer.isSome

theorem Answers.room_le (answers : Answers) (room : ℕ) :
    answers.room room ≤ room ∧ (0 < room → 0 < answers.room room) := by
  rcases answers with _ | ⟨_ | k, answers⟩
  · exact ⟨le_rfl, id⟩
  · exact ⟨le_rfl, id⟩
  · change min (k + 1) room ≤ room ∧ (0 < room → 0 < min (k + 1) room)
    omega

variable {answers answers' : Answers} {room fuel : ℕ}

namespace MimePartEncoder

variable {self : MimePartEncoder} {out : Option Bytes} {s next : MimePartEncoder × Answers}

theorem pollMimeBody_ready (hready : answers.Ready) (hstage : self.stage = .body)
    (h : pollMimeBody self answers room = (out, next)) :
    ∃ bytes, out = some bytes ∧ self.step (answers.room room) = some (bytes, next.1) ∧
      next.2.Ready := by
  obtain ⟨stage, headersEncode, body, src, srcIdx⟩ := self
  obtain rfl : stage = .body := hstage
  rw [step]
  rcases body with _ | ⟨bytes, index⟩
  · cases h
    exact ⟨_, rfl, rfl, hready⟩
  · rcases answers with _ | ⟨_ | k, answers⟩
    · cases h
      exact ⟨_, rfl, rfl, hready⟩
    · cases hready none (.head _)
    · cases h
      exact ⟨_, rfl, rfl, fun answer hmem => hready answer (.tail _ hmem)⟩

theorem pollStep_eq (hready : s.2.Ready) (h : pollStep s room = some (out, next)) :
    ∃ bytes room', out = some bytes ∧ s.1.step room' = some (bytes, next.1) ∧ next.2.Ready ∧
      room' ≤ room ∧ (0 < room → 0 < room') := by
  rw [pollStep] at h
  split at h
  · next hstage =>
      obtain ⟨bytes, hout, hstep, hready'⟩ := pollMimeBody_ready hready hstage (some.inj h)
      exact ⟨bytes, _, hout, hstep, hready', s.2.room_le room⟩
  · obtain ⟨⟨bytes, self'⟩, hstep, heq⟩ := map_eq_some_iff.mp h
    cases heq
    exact ⟨bytes, room, rfl, hstep, hready, le_rfl, id⟩

theorem pollPays : Library.PollPays (fun _ s room => some (pollStep s room)) (·.2.Ready)
    (·.1.owed) (·.1.rank) where
  ends fuel s room hready h := by
    have hnone := some.inj h
    rw [pollStep] at hnone
    split at hnone
    · cases hnone
    · exact pays_step.ends fuel s.1 room (congrArg some (map_eq_none_iff.mp hnone))
  writes fuel s room out next hready h := by
    obtain ⟨bytes, room', rfl, hstep, hready', hle, hpos⟩ := pollStep_eq hready (some.inj h)
    refine ⟨bytes, rfl, hready', fun hroom => ?_⟩
    obtain ⟨howed, hlen, hlt⟩ :=
      pays_step.writes fuel s.1 room' _ _ (hpos hroom) (congrArg some hstep)
    exact ⟨howed, hlen.trans hle, hlt⟩
  total _ _ _ _ _ _ := nofun

end MimePartEncoder

namespace MimeMultiEncoder

theorem pollPays : Library.PollPays pollStep (·.2.Ready) (·.1.owed) (·.1.rank) where
  ends fuel s room hready h := by
    rw [pollStep] at h
    split at h
    · obtain ⟨polled, -, heq⟩ := map_eq_some_iff.mp h
      cases heq
    · obtain ⟨result, hstep, heq⟩ := map_eq_some_iff.mp h
      rw [map_eq_none_iff.mp heq] at hstep
      exact pays_step.ends fuel s.1 room hstep
  writes fuel s room out next hready h := by
    obtain ⟨⟨stages, src, srcIdx⟩, answers⟩ := s
    rw [pollStep] at h
    split at h
    · next encoder stages' hstages =>
        obtain rfl : stages = .mimePart encoder :: stages' := hstages
        rw [MimePartEncoder.pollData, MimePartEncoder.pollPays.pollFill hready, Option.map_map] at h
        obtain ⟨⟨bytes, encoder', answers'⟩, hfill, heq⟩ := map_eq_some_iff.mp h
        obtain ⟨hout, r, ⟨hready', hnext, rfl⟩, hrank⟩ :=
          MimePartEncoder.pollPays.paysBack.fill ⟨hready, rfl, rfl⟩ hfill
        cases heq
        exact ⟨bytes, rfl, hready', fun hroom => writes_written hroom hout hnext fun hne =>
          hnext ▸ (hrank rfl).2 hne⟩
    · obtain ⟨result, hstep, heq⟩ := Option.map_eq_some_iff.mp h
      obtain ⟨⟨bytes, next'⟩, rfl, heq⟩ := Option.map_eq_some_iff.mp heq
      cases heq
      exact ⟨bytes, rfl, hready, fun hroom => pays_step.writes fuel _ room _ _ hroom hstep⟩
  total fuel s room hready hroom hfuel hnone := by
    rw [pollStep] at hnone
    split at hnone
    · next encoder stages hstages =>
        rw [MimePartEncoder.pollData, MimePartEncoder.pollPays.pollFill hready, Option.map_map,
          map_eq_none_iff] at hnone
        have hinner : encoder.owed.length + encoder.rank < fuel := by
          simp only [owed, rank, hstages, MultiStage.owed, MultiStage.rank, List.map_cons,
            List.sum_cons, List.length_append] at hfuel
          omega
        obtain ⟨result, hres⟩ := @Library.PaysBack.fill_total _ _ _ _ _
          MimePartEncoder.pollPays.paysBack _ (encoder, s.2) room _ _ ⟨hready, rfl, rfl⟩ hinner
        cases hres.symm.trans hnone
    · exact pays_step.total fuel s.1 room hroom hfuel (map_eq_none_iff.mp hnone)

def Polled (self : MimeMultiEncoder) (answers : Answers) (rooms : List ℕ) (bytes : Bytes) : Prop :=
  Library.PollDrains pollStep (self, answers) rooms bytes

/-- All calls and polls, with any buffers, deliver one message. -/
def Scheduled (self : MimeMultiEncoder) (answers : Answers) : Prop :=
  ∃ message, (∀ multi, self = .fromMulti multi → message = multi.text) ∧
    (∀ rooms : ℕ → ℕ, (∀ i, 0 < rooms i) →
      (∃ n, self.Encodes ((List.range n).map rooms) message) ∧
      ∃ n, self.Polled answers ((List.range n).map rooms) message) ∧
    ∀ rooms bytes, (∀ room ∈ rooms, 0 < room) →
      self.Encodes rooms bytes ∨ self.Polled answers rooms bytes → bytes = message

end MimeMultiEncoder

/-- Without a reader that has to wait, all buffers and all short reads give the same message. -/
theorem encoding_scheduled (self : MimeMultiEncoder) (hready : answers.Ready) :
    self.Scheduled answers := by
  refine ⟨self.owed, ?_, fun rooms hrooms => ⟨?_, ?_⟩, fun rooms bytes hrooms h => ?_⟩
  · rintro multi rfl
    exact owed_fromMulti multi
  · exact MimeMultiEncoder.pays_step.drains_total self rooms hrooms
  · obtain ⟨n, hn⟩ := @Library.pours_total _ id self.owed rooms hrooms fun _ => rfl
    refine ⟨n, (MimeMultiEncoder.pollPays.drains_iff hready ?_).mpr hn⟩
    intro room hroom
    obtain ⟨i, -, rfl⟩ := List.mem_map.mp hroom
    exact hrooms i
  · rcases h with h | h
    · exact pays_step.drains hrooms h
    · exact ((MimeMultiEncoder.pollPays.drains_iff hready hrooms).mp h).eq fun _ => rfl

def letter : MimeMulti where
  headers := .new
  boundary := str "b"
  list := [.part { headers := .new, body := str "a" }]

/-- A letter behind a part without a body, in a message of its own, and a longer body. -/
def letters : MimeMulti where
  headers := .new
  boundary := str "c"
  list := [.part { headers := .new, body := [] }, .multi .new (str "b") letter.list,
    .part { headers := .new, body := str "defg" }]

/-- The bodies come octet by octet at first. -/
theorem encoding_scheduled_nested : ∃ n, (MimeMultiEncoder.fromMulti letters).Polled
    [some 0, some 0, some 1, some 0] ((List.range n).map fun i => i % 2 + 1) letters.text := by
  obtain ⟨message, htext, hends, -⟩ := @encoding_scheduled
    [some 0, some 0, some 1, some 0] (.fromMulti letters) (by simp [Answers.Ready])
  exact htext letters rfl ▸ (hends _ fun i => Nat.succ_pos _).2

/-- The reader waits once: the part is lost, and what was written before it in the same call. -/
theorem encoding_pending_loses : ¬∀ (multi : MimeMulti) (answers : Answers) (rooms : List ℕ)
    (bytes : Bytes), (∀ room ∈ rooms, 0 < room) →
    (MimeMultiEncoder.fromMulti multi).Polled answers rooms bytes → bytes = multi.text := by
  intro h
  have hfirst : pollData 40 (.fromMulti letter, [none]) 100 =
      some (none, ⟨⟨endBoundary (str "b"), [], 0⟩, []⟩) := by decide +kernel
  have hsec : pollData 40 (⟨endBoundary (str "b"), [], 0⟩, []) 100 =
      some (some (str "\r\n--b--\r\n"), ⟨⟨[], [], 0⟩, []⟩) := by decide +kernel
  have hlast : pollData 40 (⟨[], [], 0⟩, []) 100 =
      some (some [], ⟨⟨[], [], 0⟩, []⟩) := rfl
  have hlost := h letter [none] [100, 100, 100] _ (by decide)
    (.pending hfirst (.more hsec (by decide) (.done hlast)))
  exact absurd hlost (by decide +kernel)

end YlongHttp.Mime
