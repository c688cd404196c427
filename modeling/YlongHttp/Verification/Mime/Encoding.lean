import YlongHttp.Verification.Mime.Trees

/-! # What the encoder writes -/

namespace YlongHttp.Mime

open List Option

variable {src : Bytes} {idx room : ℕ}

theorem dataCopy_whole (h : src.length - idx ≤ room) :
    dataCopy src idx room = (src.drop idx, true) := by
  rw [dataCopy, take_of_length_le (by rwa [length_drop]), decide_eq_true h]

theorem dataCopy_short (h : room < src.length - idx) :
    dataCopy src idx room = ((src.drop idx).take room, false) := by
  rw [dataCopy, decide_eq_false (Nat.not_le.mpr h)]

theorem length_take_drop (h : room < src.length - idx) :
    ((src.drop idx).take room).length = room := by
  rw [length_take, length_drop, Nat.min_eq_left h.le]

theorem drop_split (src : Bytes) (idx room : ℕ) :
    src.drop idx = (src.drop idx).take room ++ src.drop (idx + room) := by
  rw [← drop_drop, take_append_drop]

/-! ## The header lines -/

namespace EncodeHeaders

variable (self : EncodeHeaders)

def valueText : Bytes := (self.value.map HeaderValue.toString).getD []

def laterLines : Bytes := (self.intoIter.map headerLine).flatten

def behind : Bytes :=
  match self.stage with
  | .name => ':'.toUInt8 :: self.valueText ++ crlf ++ self.laterLines
  | .colon => self.valueText ++ crlf ++ self.laterLines
  | .value => crlf ++ self.laterLines
  | .crlf => self.laterLines
  | _ => []

def owed : Bytes :=
  match self.stage with
  | .start => self.laterLines
  | .done => []
  | _ => self.src.drop self.srcIdx ++ self.behind

def rank : ℕ :=
  6 * self.intoIter.length +
    match self.stage with
    | .start => 1
    | .name => 5
    | .colon => 4
    | .value => 3
    | .crlf => 2
    | .done => 0

theorem checkNext_start {self : EncodeHeaders} (h : self.stage = .start) :
    self.checkNext.owed = self.owed ∧ self.checkNext.rank < self.rank := by
  rcases self with ⟨stage, intoIter, value, src, srcIdx⟩
  cases h
  cases intoIter with
  | nil => exact ⟨rfl, by simp [checkNext, rank]⟩
  | cons entry rest =>
    refine ⟨?_, ?_⟩
    · simp [checkNext, owed, behind, laterLines, valueText, headerLine]
    · simp only [checkNext, rank, length_cons]
      omega

theorem checkNext_token {self : EncodeHeaders} (hstart : self.stage ≠ .start)
    (hdone : self.stage ≠ .done) :
    self.checkNext.owed = self.behind ∧ self.checkNext.rank < self.rank := by
  rcases self with ⟨stage, intoIter, value, src, srcIdx⟩
  cases stage with
  | start => exact absurd rfl hstart
  | name | colon =>
    exact ⟨by simp [checkNext, owed, behind, laterLines, valueText], by simp [checkNext, rank]⟩
  | value => exact ⟨by simp [checkNext, owed, behind, laterLines], by simp [checkNext, rank]⟩
  | crlf => exact ⟨rfl, by simp [checkNext, rank]⟩
  | done => exact absurd rfl hdone

theorem owed_token {self : EncodeHeaders} (hstart : self.stage ≠ .start)
    (hdone : self.stage ≠ .done) : self.owed = self.src.drop self.srcIdx ++ self.behind := by
  rcases self with ⟨stage, intoIter, value, src, srcIdx⟩
  cases stage with
  | start => exact absurd rfl hstart
  | done => exact absurd rfl hdone
  | _ => rfl

theorem encode_token {self : EncodeHeaders} (hstart : self.stage ≠ .start)
    (hdone : self.stage ≠ .done) (room : ℕ) :
    self.encode room =
      match dataCopy self.src self.srcIdx room with
      | (out, true) => (out, false, checkNext { self with srcIdx := self.srcIdx + out.length })
      | (out, false) => (out, false, { self with srcIdx := self.srcIdx + out.length }) := by
  rcases self with ⟨stage, intoIter, value, src, srcIdx⟩
  cases stage with
  | start => exact absurd rfl hstart
  | done => exact absurd rfl hdone
  | _ => rfl

theorem encode_more {self next : EncodeHeaders} {out : Bytes} (hroom : 0 < room)
    (h : self.encode room = (out, false, next)) :
    self.owed = out ++ next.owed ∧ out.length ≤ room ∧
      next.owed.length + next.rank < self.owed.length + self.rank := by
  by_cases hstart : self.stage = .start
  · have henc : self.encode room = ([], false, self.checkNext) := by
      rw [encode, hstart]
    rw [henc] at h
    cases h
    obtain ⟨howed, hrank⟩ := checkNext_start hstart
    exact ⟨by rw [howed, nil_append], Nat.zero_le _, by rw [howed]; omega⟩
  · by_cases hdone : self.stage = .done
    · rw [encode, hdone] at h
      cases h
    · rw [encode_token hstart hdone] at h
      rw [owed_token hstart hdone]
      by_cases hcopy : self.src.length - self.srcIdx ≤ room
      · rw [dataCopy_whole hcopy] at h
        cases h
        obtain ⟨howed, hrank⟩ := @checkNext_token
          { self with srcIdx := self.srcIdx + (self.src.drop self.srcIdx).length } hstart hdone
        rw [howed]
        refine ⟨rfl, by rwa [length_drop], ?_⟩
        rw [length_append]
        exact Nat.add_lt_add_of_le_of_lt (Nat.le_add_left _ _) hrank
      · have hmore := Nat.not_le.mp hcopy
        rw [dataCopy_short hmore] at h
        cases h
        have hnext := @owed_token
          { self with srcIdx := self.srcIdx + ((self.src.drop self.srcIdx).take room).length }
          hstart hdone
        have hlen := length_take_drop hmore
        rw [hnext, hlen]
        have hsplit := drop_split self.src self.srcIdx room
        refine ⟨?_, le_rfl, ?_⟩
        · rw [← append_assoc, ← hsplit]
          rfl
        · have hsum := congrArg length hsplit
          rw [length_append, hlen] at hsum
          simp only [length_append]
          change _ + self.behind.length + self.rank < _
          omega

theorem encode_end {self next : EncodeHeaders} {out : Bytes}
    (h : self.encode room = (out, true, next)) :
    self.owed = [] ∧ out = [] ∧ next.owed = [] ∧ next.rank = self.rank := by
  by_cases hdone : self.stage = .done
  · rw [encode, hdone] at h
    cases h
    have howed : self.owed = [] := by rw [owed, hdone]
    exact ⟨howed, rfl, howed, rfl⟩
  · by_cases hstart : self.stage = .start
    · rw [encode, hstart] at h
      cases h
    · rw [encode_token hstart hdone] at h
      by_cases hcopy : self.src.length - self.srcIdx ≤ room
      · rw [dataCopy_whole hcopy] at h
        cases h
      · rw [dataCopy_short (Nat.not_le.mp hcopy)] at h
        cases h

end EncodeHeaders

/-! ## A part -/

namespace MimePartEncoder

def laterBody (self : MimePartEncoder) : Bytes :=
  (self.body.map fun (bytes, index) => bytes.drop index).getD []

def owed (self : MimePartEncoder) : Bytes :=
  match self.stage with
  | .start | .headers =>
    self.headersEncode.owed ++ (if self.body.isSome then Mime.crlf else []) ++ self.laterBody
  | .crlf => self.src.drop self.srcIdx ++ self.laterBody
  | .body => self.laterBody
  | .done => []

def rank (self : MimePartEncoder) : ℕ :=
  self.headersEncode.rank +
    match self.stage with
    | .start => 4
    | .headers => 3
    | .crlf => 2
    | .body => 1
    | .done => 0

theorem checkNext_owed {self : MimePartEncoder} (h : self.stage ≠ .done)
    (hheaders : self.stage = .headers → self.headersEncode.owed = [])
    (hcrlf : self.stage = .crlf → self.src.drop self.srcIdx = [])
    (hbody : self.stage = .body → self.laterBody = []) :
    self.checkNext.owed = self.owed ∧ self.checkNext.rank < self.rank := by
  rcases self with ⟨stage, headersEncode, body, src, srcIdx⟩
  cases stage with
  | start => exact ⟨rfl, by simp [checkNext, rank]⟩
  | headers =>
    refine ⟨?_, by simp [checkNext, rank]⟩
    rw [owed, owed, hheaders rfl]
    rfl
  | crlf =>
    refine ⟨?_, by simp [checkNext, rank]⟩
    rw [owed, owed, hcrlf rfl]
    rfl
  | body => exact ⟨(hbody rfl).symm, by simp [checkNext, rank]⟩
  | done => exact absurd rfl h

variable {self next : MimePartEncoder} {out : Bytes}

theorem step_start (h : self.stage = .start) (room : ℕ) :
    self.step room = some ([], self.checkNext) := by
  rw [step, h]

theorem step_done (h : self.stage = .done) (room : ℕ) :
    self.step room = none := by
  rw [step, h]

theorem step_ne_none (h : self.stage ≠ .done) (room : ℕ) :
    self.step room ≠ none := by
  intro hnone
  rw [step] at hnone
  split at hnone
  · cases hnone
  · split at hnone <;> cases hnone
  · split at hnone <;> cases hnone
  · split at hnone <;> cases hnone
  · next hdone => exact h hdone

/-- What one step from `self` to `next` has to keep. -/
def Writes (self : MimePartEncoder) (room : ℕ) (out : Bytes) (next : MimePartEncoder) : Prop :=
  self.owed = out ++ next.owed ∧ out.length ≤ room ∧
    next.owed.length + next.rank < self.owed.length + self.rank

theorem Writes.idle (h : next.owed = self.owed ∧ next.rank < self.rank) :
    self.Writes room [] next :=
  ⟨h.1.symm, Nat.zero_le _, by rw [h.1]; omega⟩

theorem writes_headers (hroom : 0 < room) (hstage : self.stage = .headers)
    (h : self.step room = some (out, next)) :
    self.Writes room out next := by
  rcases self with ⟨stage, headersEncode, body, src, srcIdx⟩
  obtain rfl : stage = .headers := hstage
  rw [step] at h
  dsimp only at h
  rcases henc : headersEncode.encode room with ⟨written, last, encoder⟩
  rw [henc] at h
  cases last with
  | false =>
    cases h
    obtain ⟨howed, hle, hlt⟩ := EncodeHeaders.encode_more hroom henc
    refine ⟨?_, hle, ?_⟩
    · simp [owed, howed, laterBody]
    · simp only [owed, rank, length_append, laterBody]
      omega
  | true =>
    cases h
    obtain ⟨howed, rfl, hnext, hrank⟩ := EncodeHeaders.encode_end henc
    obtain ⟨hidle, hlt⟩ := @checkNext_owed ⟨.headers, encoder, body, src, srcIdx⟩ nofun
      (fun _ => hnext) nofun nofun
    refine Writes.idle ⟨?_, ?_⟩
    · rw [hidle]
      simp [owed, howed, hnext, laterBody]
    · have hsame : rank ⟨.headers, encoder, body, src, srcIdx⟩ =
          rank ⟨.headers, headersEncode, body, src, srcIdx⟩ := congrArg (· + 3) hrank
      rwa [← hsame]

theorem writes_crlf (hroom : 0 < room) (hstage : self.stage = .crlf)
    (h : self.step room = some (out, next)) :
    self.Writes room out next := by
  rcases self with ⟨stage, headersEncode, body, src, srcIdx⟩
  obtain rfl : stage = .crlf := hstage
  have howed : ∀ idx, owed ⟨.crlf, headersEncode, body, src, idx⟩ = src.drop idx ++
      laterBody ⟨.crlf, headersEncode, body, src, idx⟩ := fun _ => rfl
  have hbody : ∀ idx, laterBody ⟨.crlf, headersEncode, body, src, idx⟩ =
      laterBody ⟨.crlf, headersEncode, body, src, srcIdx⟩ := fun _ => rfl
  rw [step] at h
  dsimp only at h
  by_cases hcopy : src.length - srcIdx ≤ room
  · rw [dataCopy_whole hcopy] at h
    cases h
    have hnil : src.drop (srcIdx + (src.drop srcIdx).length) = [] := by
      rw [drop_eq_nil_iff, length_drop]
      omega
    obtain ⟨hidle, hlt⟩ := @checkNext_owed
      ⟨.crlf, headersEncode, body, src, srcIdx + (src.drop srcIdx).length⟩ nofun nofun
      (fun _ => hnil) nofun
    rw [howed, hnil, hbody, nil_append] at hidle
    refine ⟨?_, by rwa [length_drop], ?_⟩
    · rw [hidle, howed]
    · rw [hidle, howed, length_append]
      exact Nat.add_lt_add_of_le_of_lt (Nat.le_add_left _ _) hlt
  · have hmore := Nat.not_le.mp hcopy
    rw [dataCopy_short hmore] at h
    cases h
    have hlen := length_take_drop hmore
    have hsplit := drop_split src srcIdx room
    have hsum := congrArg length hsplit
    rw [length_append, hlen] at hsum
    rw [hlen]
    refine ⟨?_, hlen.le, ?_⟩
    · rw [howed, howed, hbody (srcIdx + room), ← append_assoc, ← hsplit]
    · rw [howed, howed, hbody (srcIdx + room), length_append, length_append]
      change _ + rank ⟨.crlf, headersEncode, body, src, srcIdx⟩ < _
      omega

theorem writes_body (hroom : 0 < room) (hstage : self.stage = .body)
    (h : self.step room = some (out, next)) :
    self.Writes room out next := by
  rcases self with ⟨stage, headersEncode, body, src, srcIdx⟩
  obtain rfl : stage = .body := hstage
  rw [step] at h
  dsimp only at h
  cases body with
  | none =>
    cases h
    exact Writes.idle (checkNext_owed nofun nofun nofun fun _ => rfl)
  | some body =>
    obtain ⟨bytes, index⟩ := body
    have howed : ∀ idx, owed ⟨.body, headersEncode, some (bytes, idx), src, srcIdx⟩ =
        bytes.drop idx := fun _ => rfl
    have hwritten : (dataCopy bytes index room).1 = (bytes.drop index).take room := rfl
    dsimp only at h
    rw [hwritten] at h
    by_cases hzero : ((bytes.drop index).take room).length = 0
    · have hnil : bytes.drop index = [] := by
        rw [length_take, length_drop] at hzero
        rw [drop_eq_nil_iff]
        omega
      have hidle := @checkNext_owed ⟨.body, headersEncode, some (bytes, index), src, srcIdx⟩
        nofun nofun nofun fun _ => hnil
      rw [hnil, take_nil] at h
      cases h
      exact Writes.idle hidle
    · rw [if_neg hzero] at h
      cases h
      have hsplit := drop_split bytes index ((bytes.drop index).take room).length
      have htake : (bytes.drop index).take ((bytes.drop index).take room).length =
          (bytes.drop index).take room := by
        simp
      rw [htake] at hsplit
      have hsum := congrArg length hsplit
      rw [length_append] at hsum
      refine ⟨?_, length_take_le _ _, ?_⟩
      · rw [howed, howed]
        exact hsplit
      · rw [howed, howed]
        change _ + rank ⟨.body, headersEncode, some (bytes, index), src, srcIdx⟩ < _
        omega

theorem pays_step : Library.Pays (fun _ self room => some (step self room)) owed rank where
  ends fuel self room h := by
    by_cases hdone : self.stage = .done
    · rw [owed, hdone]
    · exact absurd (some.inj h) (step_ne_none hdone room)
  writes fuel self room out next hroom h := by
    have hstep := some.inj h
    cases hstage : self.stage with
    | start =>
      rw [step_start hstage] at hstep
      cases hstep
      exact Writes.idle (checkNext_owed (by rw [hstage]; nofun) (by rw [hstage]; nofun)
        (by rw [hstage]; nofun) (by rw [hstage]; nofun))
    | headers => exact writes_headers hroom hstage hstep
    | crlf => exact writes_crlf hroom hstage hstep
    | body => exact writes_body hroom hstage hstep
    | done =>
      rw [step_done hstage] at hstep
      cases hstep
  total fuel self room hroom hfuel := nofun

end MimePartEncoder

/-! ## A message -/

def MultiStage.owed (srcIdx : ℕ) : MultiStage → Bytes
  | .mimePart encoder => encoder.owed
  | .crlf => Mime.crlf.drop srcIdx
  | .dash => (str "--").drop srcIdx
  | .boundary text => text.drop srcIdx
  | .headers encoder => encoder.owed

def MultiStage.rank : MultiStage → ℕ
  | .mimePart encoder => encoder.rank + 1
  | .headers encoder => encoder.rank + 1
  | _ => 1

def stagesText (stages : List MultiStage) : Bytes := (stages.map (MultiStage.owed 0)).flatten

theorem stagesText_append (stages stages' : List MultiStage) :
    stagesText (stages ++ stages') = stagesText stages ++ stagesText stages' := by
  simp [stagesText]

namespace MimeMultiEncoder

def owed (self : MimeMultiEncoder) : Bytes :=
  match self.stages with
  | [] => []
  | stage :: stages => stage.owed self.srcIdx ++ stagesText stages

def rank (self : MimeMultiEncoder) : ℕ := (self.stages.map MultiStage.rank).sum

theorem owed_init (stages : List MultiStage) (src : Bytes) :
    owed ⟨stages, src, 0⟩ = stagesText stages := by
  cases stages <;> rfl

def Writes (self : MimeMultiEncoder) (room : ℕ) (out : Bytes) (next : MimeMultiEncoder) : Prop :=
  self.owed = out ++ next.owed ∧ out.length ≤ room ∧
    next.owed.length + next.rank < self.owed.length + self.rank

variable {fuel : ℕ} {stages : List MultiStage} {src' : Bytes} {out : Bytes}
  {next : MimeMultiEncoder}

theorem writes_copy {text : Bytes} {stage : MultiStage} (hroom : 0 < room)
    (hstage : ∀ idx, stage.owed idx = text.drop idx)
    (h : copy ⟨stages, src', idx⟩ text stage room = (out, next)) :
    Writes ⟨stage :: stages, src, idx⟩ room out next := by
  have hpos : 0 < stage.rank := by cases stage <;> simp [MultiStage.rank]
  have howed : owed ⟨stage :: stages, src, idx⟩ = text.drop idx ++ stagesText stages := by
    exact congrArg (· ++ stagesText stages) (hstage idx)
  have hrank : rank ⟨stage :: stages, src, idx⟩ = stage.rank + (stages.map MultiStage.rank).sum := by
    rw [rank, map_cons, sum_cons]
  rw [copy] at h
  dsimp only at h
  by_cases hcopy : text.length - idx ≤ room
  · rw [dataCopy_whole hcopy] at h
    cases h
    refine ⟨?_, by rwa [length_drop], ?_⟩
    · rw [howed, owed_init]
    · rw [howed, owed_init, hrank, length_append]
      change _ + (stages.map MultiStage.rank).sum < _
      omega
  · have hmore := Nat.not_le.mp hcopy
    rw [dataCopy_short hmore] at h
    cases h
    have hlen := length_take_drop hmore
    have hsplit := drop_split text idx room
    have hsum := congrArg length hsplit
    rw [length_append, hlen] at hsum
    have hnext : owed ⟨stage :: stages, src', idx + room⟩ =
        text.drop (idx + room) ++ stagesText stages := by
      exact congrArg (· ++ stagesText stages) (hstage (idx + room))
    rw [hlen]
    refine ⟨?_, hlen.le, ?_⟩
    · rw [howed, hnext, ← append_assoc, ← hsplit]
    · rw [howed, hnext, length_append, length_append]
      change _ + rank ⟨stage :: stages, src, idx⟩ < _
      omega

theorem writes_headers {encoder : EncodeHeaders} (hroom : 0 < room)
    (h : step fuel ⟨.headers encoder :: stages, src, idx⟩ room = some (some (out, next))) :
    Writes ⟨.headers encoder :: stages, src, idx⟩ room out next := by
  rw [step] at h
  dsimp only at h
  rcases henc : encoder.encode room with ⟨written, last, encoder'⟩
  rw [henc] at h
  cases last with
  | false =>
    cases h
    obtain ⟨howed, hle, hlt⟩ := EncodeHeaders.encode_more hroom henc
    refine ⟨?_, hle, ?_⟩
    · simp [owed, MultiStage.owed, howed]
    · simp only [owed, rank, MultiStage.owed, MultiStage.rank, map_cons, sum_cons, length_append]
      omega
  | true =>
    cases h
    obtain ⟨howed, rfl, -, -⟩ := EncodeHeaders.encode_end henc
    have hself : owed ⟨.headers encoder :: stages, src, idx⟩ = stagesText stages := by
      exact congrArg (· ++ stagesText stages) howed
    refine ⟨?_, Nat.zero_le _, ?_⟩
    · rw [hself, owed_init, nil_append]
    · rw [hself, owed_init]
      simp only [rank, MultiStage.rank, map_cons, sum_cons]
      omega

variable {encoder : MimePartEncoder}

theorem writes_written {encoder' : MimePartEncoder} {written : Bytes} (hroom : 0 < room)
    (hout : written = encoder.owed.take room) (hnext : encoder'.owed = encoder.owed.drop room)
    (hlt : written ≠ [] →
      encoder'.owed.length + encoder'.rank < encoder.owed.length + encoder.rank) :
    Writes ⟨.mimePart encoder :: stages, src, idx⟩ room written
      (if written.length ≠ 0 then ⟨.mimePart encoder' :: stages, src, idx⟩
        else ⟨stages, [], 0⟩) := by
  have hself : owed ⟨.mimePart encoder :: stages, src, idx⟩ = encoder.owed ++ stagesText stages :=
    rfl
  split
  · next hwritten =>
      have hlater : owed ⟨.mimePart encoder' :: stages, src, idx⟩ =
          encoder'.owed ++ stagesText stages := rfl
      have hsplit : encoder.owed = written ++ encoder'.owed := by rw [hout, hnext, take_append_drop]
      have hsum := congrArg length hsplit
      rw [length_append] at hsum
      have hlt := hlt fun hnil => hwritten (by rw [hnil]; rfl)
      refine ⟨?_, ?_, ?_⟩
      · rw [hself, hlater, hsplit, append_assoc]
      · rw [hout]
        exact length_take_le _ _
      · rw [hself, hlater]
        simp only [rank, MultiStage.rank, map_cons, sum_cons, length_append]
        omega
  · next hwritten =>
      have hnil : encoder.owed = [] := by
        rw [ne_eq, not_not, hout, length_take] at hwritten
        rw [← length_eq_zero_iff]
        omega
      have hempty : written = [] := by rw [hout, hnil, take_nil]
      refine ⟨?_, by rw [hempty]; exact Nat.zero_le _, ?_⟩
      · rw [hself, hnil, owed_init, hempty]
      · rw [hself, hnil, owed_init]
        simp only [rank, MultiStage.rank, map_cons, sum_cons, nil_append]
        omega

theorem writes_mimePart (hroom : 0 < room)
    (h : step fuel ⟨.mimePart encoder :: stages, src, idx⟩ room = some (some (out, next))) :
    Writes ⟨.mimePart encoder :: stages, src, idx⟩ room out next := by
  rw [step] at h
  dsimp only at h
  obtain ⟨⟨written, encoder'⟩, hdata, heq⟩ := map_eq_some_iff.mp h
  obtain ⟨hout, hnext, -⟩ := MimePartEncoder.pays_step.fill hdata
  cases heq
  exact writes_written hroom hout hnext (MimePartEncoder.pays_step.fill_lt hdata)

theorem pays_step : Library.Pays step owed rank where
  ends fuel self room h := by
    rcases self with ⟨stages, src, srcIdx⟩
    cases stages with
    | nil => rfl
    | cons stage stages =>
      cases stage with
      | crlf => cases h
      | dash => cases h
      | boundary boundary => cases h
      | headers encoder =>
        rw [step] at h
        dsimp only at h
        split at h <;> cases h
      | mimePart encoder =>
        obtain ⟨result, -, heq⟩ := map_eq_some_iff.mp h
        cases heq
  writes fuel self room out next hroom h := by
    rcases self with ⟨stages, src, srcIdx⟩
    cases stages with
    | nil => cases h
    | cons stage stages =>
      cases stage with
      | crlf | dash => exact writes_copy hroom (fun _ => rfl) (some.inj (some.inj h))
      | boundary boundary => exact writes_copy hroom (fun _ => rfl) (some.inj (some.inj h))
      | headers encoder => exact writes_headers hroom h
      | mimePart encoder => exact writes_mimePart hroom h
  total fuel self room hroom hfuel := by
    rcases self with ⟨stages, src, srcIdx⟩
    cases stages with
    | nil => nofun
    | cons stage stages =>
      cases stage with
      | crlf => nofun
      | dash => nofun
      | boundary boundary => nofun
      | headers encoder =>
        rw [step]
        dsimp only
        split <;> nofun
      | mimePart encoder =>
        have hinner : encoder.owed.length + encoder.rank < fuel := by
          simp only [owed, rank, MultiStage.owed, MultiStage.rank, map_cons, sum_cons,
            length_append] at hfuel
          omega
        obtain ⟨result, hres⟩ :=
          @Library.Pays.fill_total _ _ _ _ _ MimePartEncoder.pays_step _ _ room hinner
        rw [step]
        dsimp only
        rw [MimePartEncoder.data, hres]
        nofun

end MimeMultiEncoder

/-! ## The stages of a message -/

theorem owed_newHeaders (headers : Headers) : (EncodeHeaders.new headers).owed = headerLines headers :=
  rfl

theorem owed_fromPart (part : MimePart) :
    (MimePartEncoder.fromPart part).owed = (XPart.part part).text := by
  rw [XPart.text.eq_def]
  cases hbody : part.body with
  | nil => simp [MimePartEncoder.fromPart, MimePartEncoder.owed, MimePartEncoder.laterBody, hbody,
      owed_newHeaders]
  | cons b body =>
    simp [MimePartEncoder.fromPart, MimePartEncoder.owed, MimePartEncoder.laterBody, hbody,
      owed_newHeaders]

variable (boundary : Bytes)

theorem stagesText_firstBoundary :
    stagesText (firstBoundary boundary) = delimiter boundary false := by
  simp [stagesText, firstBoundary, MultiStage.owed, delimiter]

theorem stagesText_middleBoundary :
    stagesText (middleBoundary boundary) = crlf ++ delimiter boundary false := by
  simp [stagesText, middleBoundary, firstBoundary, MultiStage.owed, delimiter]

theorem stagesText_endBoundary :
    stagesText (endBoundary boundary) = crlf ++ delimiter boundary true := by
  simp [stagesText, endBoundary, MultiStage.owed, delimiter]

mutual

theorem stagesText_stagesOf : ∀ x : XPart, stagesText (stagesOf x) = x.text
  | .part part => by
    rw [stagesOf.eq_def]
    exact (List.append_nil _).trans (owed_fromPart part)
  | .multi headers boundary [] => by
    have hcons : stagesOf (.multi headers boundary []) =
        [.headers (.new headers), .crlf] ++ (firstBoundary boundary ++ endBoundary boundary) := by
      rw [stagesOf.eq_def]
      rfl
    rw [hcons, stagesText_append, stagesText_append, stagesText_firstBoundary,
      stagesText_endBoundary, XPart.text_multi, listText]
    simp [stagesText, MultiStage.owed, owed_newHeaders]
  | .multi headers boundary (x :: rest) => by
    have hcons : stagesOf (.multi headers boundary (x :: rest)) =
        [.headers (.new headers), .crlf] ++
          (firstBoundary boundary ++ (stagesOf x ++ stagesOfRest boundary rest)) := by
      rw [stagesOf.eq_def]
      rfl
    rw [hcons, stagesText_append, stagesText_append, stagesText_append, stagesText_firstBoundary,
      stagesText_stagesOf x, stagesText_stagesOfRest boundary rest, XPart.text_multi, listText]
    simp [stagesText, MultiStage.owed, owed_newHeaders]

theorem stagesText_stagesOfRest (boundary : Bytes) :
    ∀ list : List XPart, stagesText (stagesOfRest boundary list) = restText boundary list
  | [] => by
    rw [stagesOfRest.eq_def, restText.eq_def]
    exact stagesText_endBoundary boundary
  | x :: rest => by
    rw [stagesOfRest.eq_def, restText.eq_def]
    dsimp only
    rw [stagesText_append, stagesText_append, stagesText_middleBoundary, stagesText_stagesOf x,
      stagesText_stagesOfRest boundary rest]

end

theorem owed_fromMulti (multi : MimeMulti) : (MimeMultiEncoder.fromMulti multi).owed = multi.text := by
  rw [MimeMultiEncoder.fromMulti, MimeMultiEncoder.owed_init, MimeMulti.text]
  cases multi.list with
  | nil =>
    rw [stagesOfList, stagesText_append, stagesText_firstBoundary, stagesText_endBoundary]
    rfl
  | cons x rest =>
    rw [stagesOfList, stagesText_append, stagesText_append, stagesText_firstBoundary,
      stagesText_stagesOf, stagesText_stagesOfRest]
    rfl

def MimeMultiEncoder.Encodes (self : MimeMultiEncoder) (rooms : List ℕ) (bytes : Bytes) : Prop :=
  Library.Drains step self rooms bytes

theorem encodes_total (multi : MimeMulti) (rooms : ℕ → ℕ) (hrooms : ∀ i, 0 < rooms i) :
    ∃ n, (MimeMultiEncoder.fromMulti multi).Encodes ((List.range n).map rooms) multi.text := by
  rw [← owed_fromMulti]
  exact MimeMultiEncoder.pays_step.drains_total _ rooms hrooms

theorem encodes_eq {multi : MimeMulti} {rooms : List ℕ} {bytes : Bytes}
    (hrooms : ∀ room ∈ rooms, 0 < room)
    (h : (MimeMultiEncoder.fromMulti multi).Encodes rooms bytes) : bytes = multi.text :=
  (MimeMultiEncoder.pays_step.drains hrooms h).trans (owed_fromMulti multi)

end YlongHttp.Mime
