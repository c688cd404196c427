import YlongHttp.Verification.Mime.Cuts

/-! # Where the decoders of MIME messages panic

`start_decode` takes the first octet behind the blanks in front, also where there is none. Every
other octet that a decoder takes is there, whatever segments it has been given before. -/

namespace YlongHttp.Mime

open List DecodeHeaders
open Library (Outcome Rounds)
open Http1 (isHeaderValueByte)

variable {fuel : ℕ}

namespace DecodeHeaders

variable {self next last : DecodeHeaders} {buf rest : Bytes}

def AtBlanks (self : DecodeHeaders) (rest : Bytes) : Prop :=
  self.stage = .start ∧ self.src = [] ∧ trimFrontLwsp rest = []

def MeetsBlanks (self : DecodeHeaders) (buf : Bytes) : Prop :=
  ∃ last rest, rounds.Passes self buf last rest ∧ last.AtBlanks rest

theorem token_ne_panic (stop valid : UInt8 → Bool) (buf : Bytes) :
    token stop valid buf ≠ .error .panic := by
  rw [token]
  split <;> rintro ⟨⟩

theorem consumeCrlf_ne_panic (crMeet : Bool) : consumeCrlf buf crMeet ≠ .error .panic := by
  rw [consumeCrlf]
  split <;> rintro ⟨⟩

theorem startAt_panic_iff : self.startAt buf = .error .panic ↔ buf = [] := by
  constructor
  · intro h
    cases buf with
    | nil => rfl
    | cons b rest =>
      simp only [startAt] at h
      split at h
      · split at h
        · cases h
        · split at h
          · cases h
          · split at h <;> cases h
      · split at h
        · cases h
        · split at h <;> cases h
  · rintro rfl
    rfl

theorem nameDecode_ne_panic : self.nameDecode buf ≠ .error .panic := by
  intro h
  rw [nameDecode] at h
  split at h
  · next e htoken =>
      cases h
      exact token_ne_panic _ _ _ htoken
  · cases h
  · cases h

theorem valueDecode_ne_panic : self.valueDecode buf ≠ .error .panic := by
  intro h
  rw [valueDecode] at h
  split at h
  · next e htoken =>
      cases h
      exact token_ne_panic _ _ _ htoken
  · cases h
  · split at h <;> cases h

theorem crlfDecode_ne_panic : self.crlfDecode buf ≠ .error .panic := by
  intro h
  rw [crlfDecode] at h
  split at h
  · next e hcrlf =>
      cases h
      exact consumeCrlf_ne_panic _ hcrlf
  · cases h
  · cases h

theorem skip_eq_nil_iff (hbuf : buf ≠ []) :
    skip self.src buf = [] ↔ self.src = [] ∧ trimFrontLwsp buf = [] := by
  rw [skip]
  split
  · next h => simp [isEmpty_iff.mp h]
  · next h => simp [hbuf, isEmpty_iff.not.mp h]

theorem round_panic_iff (hbuf : buf ≠ []) :
    rounds.round self buf = .error .panic ↔ self.AtBlanks buf := by
  change self.round buf = _ ↔ _
  rw [round, AtBlanks]
  cases self.stage with
  | start =>
    dsimp only
    rw [startDecode_eq, startAt_panic_iff, skip_eq_nil_iff hbuf, eq_self, true_and]
  | name => exact iff_of_false nameDecode_ne_panic (by simp)
  | value => exact iff_of_false valueDecode_ne_panic (by simp)
  | crlf => exact iff_of_false crlfDecode_ne_panic (by simp)
  | colon | done => exact iff_of_false (by simp) (by simp)

theorem ends_panic_iff (hgood : self.Good) (hbuf : buf ≠ []) :
    rounds.Ends self buf (.error .panic) ↔ self.MeetsBlanks buf := by
  rw [Rounds.Ends.error_iff, MeetsBlanks]
  refine exists_congr fun last => exists_congr fun rest => and_congr_right fun hpasses => ?_
  have hleft := (lawful.good.passes hgood (.inl hbuf) hpasses).2
  constructor
  · rintro ⟨hval, hround⟩
    exact (round_panic_iff (hleft.resolve_right (absurd hval))).mp hround
  · intro hblanks
    have hval : rounds.value last = none := value_none (by rw [hblanks.1]; nofun)
    exact ⟨hval, (round_panic_iff (hleft.resolve_right (absurd hval))).mpr hblanks⟩

/-- The decoder behind a round that fails: where `insert` refuses a header, its name and its value
have been taken. -/
def behindError (self : DecodeHeaders) (buf : Bytes) : DecodeHeaders :=
  match self.stage, token (fun b => b = cr || b = lf) isHeaderValueByte (skip self.src buf) with
  | .value, .ok _ => { self with nameSrc := [], src := [] }
  | _, _ => self

theorem Good.behindError (hgood : self.Good) (buf : Bytes) : (self.behindError buf).Good := by
  rw [DecodeHeaders.behindError]
  split
  · next hstage _ => exact .of_stage (.inr (.inl hstage))
  · exact hgood

theorem decodeLoop_good {headers : Option Headers} (hgood : self.Good)
    (hbuf : buf ≠ [] ∨ rounds.value self ≠ none)
    (hloop : self.decodeLoop fuel buf = .ok (next, headers, rest)) : next.Good := by
  induction fuel generalizing self buf with
  | zero =>
    cases hloop
    exact hgood
  | succ fuel ih =>
    rw [decodeLoop] at hloop
    split at hloop
    · next hdone =>
        cases hloop
        exact .of_stage (.inr (.inr hdone))
    · next hdone =>
        have hval := value_none hdone
        have hne := hbuf.resolve_right (absurd hval)
        split at hloop
        · cases hloop
        · next mid left hround =>
            have hmid := lawful.good self buf mid left hgood hval hne hround
            split at hloop
            · cases hloop
              exact hmid
            · next hend =>
                refine ih hmid ?_ hloop
                by_cases hleft : left = []
                · exact .inr fun hnone => hend ⟨by rw [hleft]; rfl, stage_of_value hnone⟩
                · exact .inl hleft

theorem decode_good {headers : Option Headers} (hgood : self.Good) (hbuf : buf ≠ [])
    (hdec : self.decode buf = .ok (next, headers, rest)) : next.Good := by
  rw [decode, if_neg (by simpa using hbuf)] at hdec
  exact decodeLoop_good hgood (.inl hbuf) hdec

theorem decode_panic_iff (hgood : self.Good) (hbuf : buf ≠ []) :
    self.decode buf = .error .panic ↔ self.MeetsBlanks buf := by
  rw [← ends_panic_iff hgood hbuf]
  have hends := decode_ends hgood hbuf
  rcases hdec : self.decode buf with e | ⟨next, _ | headers, rest⟩
  · rw [hdec] at hends
    refine ⟨fun h => ?_, fun h => ?_⟩
    · cases h
      exact hends
    · cases h.unique hends
      rfl
  · rw [hdec] at hends
    exact iff_of_false nofun fun h => nomatch h.unique hends.2
  · rw [hdec] at hends
    exact iff_of_false nofun fun h => nomatch h.unique hends

end DecodeHeaders

/-! ## A line of a body -/

/-- The line that ends in `buf`, from `idx` on, is in range and is not empty. -/
def LineInRange (idx : ℕ) (kept buf : Bytes) : Prop :=
  ∀ line unparsed, getCrlfContain buf = some (line, unparsed) → idx < (kept ++ line).length

theorem LineInRange.of_le {idx : ℕ} {kept : Bytes} (h : idx ≤ kept.length) (buf : Bytes) :
    LineInRange idx kept buf := by
  intro line unparsed hline
  have hlast := (getCrlfContain_append_some hline []).2.2
  have hpos : 0 < line.length := length_pos_of_ne_nil fun hnil => by rw [hnil] at hlast; cases hlast
  rw [length_append]
  omega

namespace MimePartDecoder

variable {self next last : MimePartDecoder} {buf rest : Bytes}

def MeetsBlanks (self : MimePartDecoder) (buf : Bytes) : Prop :=
  ∃ last rest, rounds.Passes self buf last rest ∧ last.stage = .headers ∧
    last.headersDecoder.MeetsBlanks rest

def LinesInRange (self : MimePartDecoder) (buf : Bytes) : Prop :=
  ∀ last rest, rounds.Passes self buf last rest → last.stage = .body →
    LineInRange last.srcIdx last.part.body rest

/-- The states of the decoder. -/
structure Sound (decoder : MimePartDecoder) : Prop where
  crlf : decoder.stage ≠ .crlf
  headers : decoder.headersDecoder.Good
  range : decoder.stage ≠ .done → decoder.srcIdx ≤ decoder.part.body.length

def rank (self : MimePartDecoder) : ℕ :=
  match self.stage with
  | .start => 2
  | .headers => 1
  | _ => 0

theorem lineDecode_sound (hsound : self.Sound) (hstage : self.stage = .body) (body : Bytes) :
    (self.lineDecode body).Sound := by
  rw [lineDecode]
  dsimp only
  split
  · exact ⟨(fun h => by cases h), hsound.headers, fun h => absurd rfl h⟩
  · split
    · exact ⟨(fun h => by cases h), hsound.headers, fun h => absurd rfl h⟩
    · exact ⟨by rw [hstage]; simp, hsound.headers, fun _ => le_rfl⟩

theorem rank_of_good (hgood : self.Good) : self.rank = 0 := by
  rcases hgood with hstage | hstage <;> rw [rank, hstage]

theorem sound_body (hsound : self.Sound) (hstage : self.stage = .body) (hbuf : buf ≠ [])
    (hround : rounds.round self buf = .ok (next, rest)) :
    next.Sound ∧ rest.length + next.rank < buf.length + self.rank := by
  obtain ⟨hgood, hlt⟩ := advances_round hstage hbuf hround
  refine ⟨?_, by rw [rank_of_good hgood]; omega⟩
  rw [round_body hstage, bodyDecode_eq] at hround
  cases hline : getCrlfContain buf with
  | none =>
    rw [hline] at hround
    cases hround
    have hrange := hsound.range (by rw [hstage]; nofun)
    refine ⟨hsound.crlf, hsound.headers, fun _ => ?_⟩
    exact hrange.trans (by rw [length_append]; exact Nat.le_add_right _ _)
  | some result =>
    obtain ⟨src, unparsed⟩ := result
    rw [hline] at hround
    cases hround
    exact lineDecode_sound hsound hstage _

theorem sound_headers (hsound : self.Sound) (hstage : self.stage = .headers) (hbuf : buf ≠ [])
    (hround : rounds.round self buf = .ok (next, rest)) :
    next.Sound ∧ rest.length + next.rank < buf.length + self.rank := by
  have hpos := length_pos_of_ne_nil hbuf
  have hrank : self.rank = 1 := by rw [rank, hstage]
  have hrange := hsound.range (by rw [hstage]; simp)
  have hends := DecodeHeaders.decode_ends hsound.headers hbuf
  change self.round buf = _ at hround
  rw [round, hstage] at hround
  dsimp only at hround
  rw [headersDecode] at hround
  rcases hdec : self.headersDecoder.decode buf with e | ⟨decoder, _ | headers, left⟩
  · rw [hdec] at hround
    cases hround
  · rw [hdec] at hround hends
    cases hround
    obtain ⟨rfl, -⟩ := hends
    refine ⟨⟨hsound.crlf, decode_good hsound.headers hbuf hdec, fun _ => hrange⟩, ?_⟩
    change 0 + self.rank < _
    omega
  · rw [hdec] at hround hends
    cases hround
    have hle := complete_le hsound.headers hbuf hends
    refine ⟨⟨(by simp), decode_good hsound.headers hbuf hdec, fun _ => hrange⟩, ?_⟩
    change _ + 0 < _
    omega

theorem sound_round (hsound : self.Sound) (hval : rounds.value self = none) (hbuf : buf ≠ [])
    (hround : rounds.round self buf = .ok (next, rest)) :
    next.Sound ∧ rest.length + next.rank < buf.length + self.rank := by
  cases hstage : self.stage with
  | start =>
    have hrank : self.rank = 2 := by rw [rank, hstage]
    have hle : (trimFrontLwsp buf).length ≤ buf.length := (dropWhile_suffix isLwsp).length_le
    have hrange := hsound.range (by rw [hstage]; simp)
    change self.round buf = _ at hround
    rw [round, hstage] at hround
    cases hround
    refine ⟨⟨(by simp), hsound.headers, fun _ => hrange⟩, ?_⟩
    change _ + 1 < _
    omega
  | headers => exact sound_headers hsound hstage hbuf hround
  | crlf => exact absurd hstage hsound.crlf
  | body => exact sound_body hsound hstage hbuf hround
  | done => rw [value_done hstage] at hval; cases hval

theorem keeps_sound : rounds.Keeps Sound :=
  fun _ _ _ _ hsound hval hbuf hround => (sound_round hsound hval hbuf hround).1

theorem linesInRange (hsound : self.Sound) (hbuf : buf ≠ []) : self.LinesInRange buf := by
  intro last rest hpasses hstage
  have hlast := (keeps_sound.passes hsound (.inl hbuf) hpasses).1
  exact .of_le (hlast.range (by rw [hstage]; nofun)) rest

theorem decode_sound (hsound : self.Sound) (hbuf : buf ≠ []) :
    match self.decode buf with
    | .error e => rounds.Ends self buf (.error e)
    | .ok (next, none, rest) => rest = [] ∧ rounds.Ends self buf (.more next) ∧ next.Sound
    | .ok (next, some part, rest) =>
      rounds.Ends self buf (.complete (part, next.tag) rest) ∧ next.Sound := by
  have hrank : self.rank ≤ 2 := by
    rw [rank]
    split <;> omega
  have hends := decodeLoop_ends Sound (fun self buf => buf.length + self.rank)
    (fun _ _ _ _ => sound_round) (buf.length + 4) hsound (.inl hbuf) (by omega)
  rw [decode, if_neg (by simpa using hbuf)]
  rcases hloop : self.decodeLoop (buf.length + 4) buf with e | ⟨next, _ | part, rest⟩
  · rwa [hloop] at hends
  · rwa [hloop] at hends
  · rw [hloop] at hends
    obtain ⟨hcomplete, last, hlast, hdone, rfl⟩ := hends
    exact ⟨hcomplete, hlast.crlf, hlast.headers, absurd hdone⟩

theorem round_panic_iff (hsound : self.Sound) (hbuf : buf ≠ []) :
    rounds.round self buf = .error .panic ↔
      self.stage = .headers ∧ self.headersDecoder.MeetsBlanks buf := by
  change self.round buf = _ ↔ _
  rw [round]
  cases self.stage with
  | headers =>
    dsimp only
    rw [← decode_panic_iff hsound.headers hbuf, headersDecode, eq_self, true_and]
    rcases self.headersDecoder.decode buf with e | ⟨decoder, _ | headers, rest⟩
    · exact ⟨fun h => by cases h; rfl, fun h => by cases h; rfl⟩
    · exact iff_of_false (by simp) (by simp)
    · exact iff_of_false (by simp) (by simp)
  | start | crlf | body | done => exact iff_of_false (by simp) (by simp)

theorem ends_panic_iff (hsound : self.Sound) (hbuf : buf ≠ []) :
    rounds.Ends self buf (.error .panic) ↔ self.MeetsBlanks buf := by
  rw [Rounds.Ends.error_iff, MeetsBlanks]
  refine exists_congr fun last => exists_congr fun rest => and_congr_right fun hpasses => ?_
  obtain ⟨hlast, hleft⟩ := keeps_sound.passes hsound (.inl hbuf) hpasses
  constructor
  · rintro ⟨hval, hround⟩
    exact (round_panic_iff hlast (hleft.resolve_right (absurd hval))).mp hround
  · intro hblanks
    have hval : rounds.value last = none := value_none (by rw [hblanks.1]; nofun)
    exact ⟨hval, (round_panic_iff hlast (hleft.resolve_right (absurd hval))).mpr hblanks⟩

def Returns (self : MimePartDecoder) (buf : Bytes) : Prop :=
  ∃ o, rounds.Ends self buf o ∧ o ≠ .error .panic ∧ self.decode buf ≠ .error .panic

theorem returns_iff_not_meets (hsound : self.Sound) (hbuf : buf ≠ []) :
    self.Returns buf ↔ ¬self.MeetsBlanks buf := by
  rw [← ends_panic_iff hsound hbuf]
  have hends := decode_sound hsound hbuf
  constructor
  · rintro ⟨o, hends, hpanic, -⟩ h
    exact hpanic (hends.unique h)
  · intro hpanic
    rcases hdec : self.decode buf with e | ⟨next, _ | part, rest⟩
    · rw [hdec] at hends
      refine ⟨_, hends, fun h => ?_, fun h => ?_⟩
      · cases h
        exact hpanic hends
      · rw [hdec] at h
        cases h
        exact hpanic hends
    · rw [hdec] at hends
      exact ⟨_, hends.2.1, nofun, by rw [hdec]; nofun⟩
    · rw [hdec] at hends
      exact ⟨_, hends.1, nofun, by rw [hdec]; nofun⟩

/-- What a call leaves behind. The decoder of the header lines stays as it fails. -/
inductive Leaves : MimePartDecoder → Bytes → MimePartDecoder → Prop
  | ok {self next : MimePartDecoder} {buf rest : Bytes} {part : Option MimePart}
      (call : self.decode buf = .ok (next, part, rest)) : Leaves self buf next
  | error {self last : MimePartDecoder} {decoder : DecodeHeaders} {buf rest rest' : Bytes}
      {e : HttpError} (passes : rounds.Passes self buf last rest) (stage : last.stage = .headers)
      (inner : DecodeHeaders.rounds.Passes last.headersDecoder rest decoder rest')
      (round : decoder.round rest' = .error (.error e)) :
      Leaves self buf { last with headersDecoder := decoder.behindError rest' }

/-- The states that segments lead to, with or without errors. -/
inductive Reached : MimePartDecoder → Prop
  | new : Reached new
  | initFromMulti (headers : Headers) (boundary : Bytes) : Reached (initFromMulti headers boundary)
  | setBoundary {self : MimePartDecoder} (boundary : Bytes) (before : Reached self) :
      Reached { self with boundary }
  | segment {self next : MimePartDecoder} {buf : Bytes} (before : Reached self) (some : buf ≠ [])
      (leaves : Leaves self buf next) : Reached next

theorem Leaves.sound (hleaves : Leaves self buf next) (hsound : self.Sound) (hbuf : buf ≠ []) :
    next.Sound := by
  cases hleaves with
  | @ok _ _ _ part call =>
    have hends := decode_sound hsound hbuf
    rw [call] at hends
    cases part with
    | none => exact hends.2.2
    | some part => exact hends.2
  | @error last decoder _ _ rest' e passes stage inner round =>
    obtain ⟨hlast, hleft⟩ := keeps_sound.passes hsound (.inl hbuf) passes
    have hval : rounds.value last = none := value_none (by rw [stage]; nofun)
    have hdecoder := (DecodeHeaders.lawful.good.passes hlast.headers
      (.inl (hleft.resolve_right (absurd hval))) inner).1
    exact ⟨hlast.crlf, hdecoder.behindError rest', hlast.range⟩

theorem Reached.sound (h : Reached self) : self.Sound := by
  induction h with
  | new | initFromMulti => exact ⟨nofun, good_new, fun _ => le_rfl⟩
  | setBoundary boundary before ih => exact ⟨ih.crlf, ih.headers, ih.range⟩
  | segment before some leaves ih => exact leaves.sound ih some

end MimePartDecoder

/-- What `decode` ends with. -/
abbrev Decode := Outcome MimeMultiDecoder MimeMulti (Fault HttpError) UInt8

namespace MimeMultiDecoder

variable {self next last : MimeMultiDecoder} {buf rest : Bytes} {data : DecodeData}
  {stages : List DecodeStage} {multis : List MimeMulti} {e : Fault HttpError}
  {o : Decode}

/-- A call of `decode` returns. -/
def Decodes (self : MimeMultiDecoder) (buf : Bytes) : Decode → Prop
  | .complete multi rest => ∃ fuel last, self.decode fuel buf = some (.ok (last, some multi, rest))
  | .more next => ∃ fuel, self.decode fuel buf = some (.ok (next, none, []))
  | .error e => ∃ fuel, self.decode fuel buf = some (.error e)

theorem value_cases (hgood : self.Good) :
    (∃ multi, self = ⟨[.done], [multi]⟩) ∨
      (rounds.value self = none ∧ ∃ stage stages, self.stages = stage :: stages ∧ stage ≠ .done) := by
  cases hgood with
  | multi => exact .inr ⟨value_multi, _, _, rfl, nofun⟩
  | @unknown _ _ multis | @part _ _ multis => exact .inr ⟨by cases multis <;> rfl, _, _, rfl, nofun⟩
  | done => exact .inl ⟨_, rfl⟩

theorem decodeLoop_round (hgood : self.Good) (hval : rounds.value self = none) (hbuf : buf ≠ [])
    (fuel : ℕ) :
    self.decodeLoop (fuel + 1) buf =
      match rounds.round self buf with
      | .error e => some (.error e)
      | .ok (next, rest) =>
        if rest = [] ∧ rounds.value next = none then some (.ok (next, none, []))
        else next.decodeLoop fuel rest := by
  rcases value_cases hgood with ⟨multi, rfl⟩ | ⟨-, stage, stages, hstages, hstage⟩
  · cases hval
  · have hround : rounds.round self buf =
        round { self with stages } stage buf := by
      simp only [rounds, hstages]
    rw [decodeLoop, hstages]
    dsimp only
    rw [if_neg hstage, ← hround]
    cases hres : rounds.round self buf with
    | error e => rfl
    | ok result =>
      obtain ⟨next, rest⟩ := result
      have hnext := lawful.good self buf next rest hgood hval hbuf hres
      dsimp only
      cases rest with
      | cons b rest => rw [if_neg (by simp), if_neg (by simp)]
      | nil =>
        rw [if_pos (show ([] : Bytes).isEmpty = true from rfl)]
        rcases value_cases hnext with ⟨multi, rfl⟩ | ⟨hnone, stage, stages, hstages, hstage⟩
        · rw [if_neg (by rintro ⟨-, ⟨⟩⟩)]
        · rw [if_pos ⟨rfl, hnone⟩, hstages]
          cases stage with
          | done => exact absurd rfl hstage
          | _ => rfl

/-- What the loop ends with, and `last` as the decoder after it. -/
def answer (last : MimeMultiDecoder) : Decode → Decoded (MimeMultiDecoder × Option MimeMulti × Bytes)
  | .complete multi rest => .ok (last, some multi, rest)
  | .more next => .ok (next, none, [])
  | .error e => .error e

theorem decodeLoop_of_ends (hgood : self.Good) (hbuf : buf ≠ [] ∨ rounds.value self ≠ none)
    (hends : rounds.Ends self buf o) :
    ∃ fuel last, self.decodeLoop fuel buf = some (answer last o) := by
  induction hends with
  | @complete self buf multi done =>
    rcases value_cases hgood with ⟨multi', rfl⟩ | ⟨hnone, -⟩
    · cases done
      exact ⟨1, _, rfl⟩
    · exact absurd (done.symm.trans hnone) (Option.some_ne_none _)
  | @error self buf e going round =>
    refine ⟨1, .new, ?_⟩
    rw [decodeLoop_round hgood going (hbuf.resolve_right (absurd going)), round]
    rfl
  | @more self next buf going round going' =>
    refine ⟨1, .new, ?_⟩
    rw [decodeLoop_round hgood going (hbuf.resolve_right (absurd going)), round]
    dsimp only
    rw [if_pos ⟨rfl, going'⟩]
    rfl
  | @step self next buf rest o going round left later ih =>
    have hne := hbuf.resolve_right (absurd going)
    obtain ⟨fuel, last, hloop⟩ := ih (lawful.good self buf next rest hgood going hne round) left
    refine ⟨fuel + 1, last, ?_⟩
    rw [decodeLoop_round hgood going hne, round]
    dsimp only
    rw [if_neg fun h => left.elim (absurd h.1) (absurd h.2), hloop]

theorem decodeLoop_answer {fuel : ℕ} (hgood : self.Good)
    (hbuf : buf ≠ [] ∨ rounds.value self ≠ none) (hends : rounds.Ends self buf o)
    {result : Decoded (MimeMultiDecoder × Option MimeMulti × Bytes)}
    (hloop : self.decodeLoop fuel buf = some result) : ∃ last, result = answer last o := by
  induction hends generalizing fuel with
  | @complete self buf multi done =>
    rcases value_cases hgood with ⟨multi', rfl⟩ | ⟨hnone, -⟩
    · cases done
      cases fuel with
      | zero => cases hloop
      | succ fuel => exact ⟨_, (Option.some.inj hloop).symm⟩
    · exact absurd (done.symm.trans hnone) (Option.some_ne_none _)
  | @error self buf e going round =>
    cases fuel with
    | zero => cases hloop
    | succ fuel =>
      rw [decodeLoop_round hgood going (hbuf.resolve_right (absurd going)), round] at hloop
      exact ⟨.new, (Option.some.inj hloop).symm⟩
  | @more self next buf going round going' =>
    cases fuel with
    | zero => cases hloop
    | succ fuel =>
      rw [decodeLoop_round hgood going (hbuf.resolve_right (absurd going)), round] at hloop
      dsimp only at hloop
      rw [if_pos ⟨rfl, going'⟩] at hloop
      exact ⟨.new, (Option.some.inj hloop).symm⟩
  | @step self next buf rest o going round left later ih =>
    have hne := hbuf.resolve_right (absurd going)
    cases fuel with
    | zero => cases hloop
    | succ fuel =>
      rw [decodeLoop_round hgood going hne, round] at hloop
      dsimp only at hloop
      rw [if_neg fun h => left.elim (absurd h.1) (absurd h.2)] at hloop
      exact ih (lawful.good self buf next rest hgood going hne round) left hloop

theorem decodes_iff (hgood : self.Good) (hbuf : buf ≠ []) :
    self.Decodes buf o ↔ rounds.Ends self buf o := by
  have hdec : ∀ fuel, self.decode fuel buf = self.decodeLoop fuel buf := by
    intro fuel
    rw [decode, if_neg (by simpa using hbuf)]
  constructor
  · intro hdecodes
    obtain ⟨o', hends⟩ := ends_total hgood hbuf
    suffices heq : o = o' by rwa [heq]
    cases o with
    | complete multi rest =>
      obtain ⟨fuel, last, hcall⟩ := hdecodes
      rw [hdec] at hcall
      obtain ⟨last', hanswer⟩ := decodeLoop_answer hgood (.inl hbuf) hends hcall
      cases o' <;> cases hanswer
      rfl
    | more next | error e =>
      obtain ⟨fuel, hcall⟩ := hdecodes
      rw [hdec] at hcall
      obtain ⟨last', hanswer⟩ := decodeLoop_answer hgood (.inl hbuf) hends hcall
      cases o' <;> cases hanswer
      rfl
  · intro hends
    obtain ⟨fuel, last, hloop⟩ := decodeLoop_of_ends hgood (.inl hbuf) hends
    rw [← hdec] at hloop
    cases o with
    | complete multi rest => exact ⟨fuel, last, hloop⟩
    | more next | error e => exact ⟨fuel, hloop⟩

def AtBlanks (self : MimeMultiDecoder) (rest : Bytes) : Prop :=
  ∃ decoder stages, self.stages = .unknown decoder :: stages ∧ decoder.MeetsBlanks rest

def MeetsBlanks (self : MimeMultiDecoder) (buf : Bytes) : Prop :=
  ∃ last rest, rounds.Passes self buf last rest ∧ last.AtBlanks rest

/-! ## The rounds that fail -/

theorem tempMultiEnd_ok (stages : List DecodeStage) (multi : MimeMulti) (multis : List MimeMulti) :
    ∃ next, tempMultiEnd ⟨stages, multi :: multis⟩ false = .ok next := by
  have hclosed := tempMultiEnd_closed stages multi multis false (.multi .new)
  rw [if_neg Bool.false_ne_true] at hclosed
  exact ⟨_, hclosed⟩

theorem multiDecode_ok (depth : multis.length = stages.length + 1) (data : DecodeData)
    (buf : Bytes) : ∃ result, multiDecode ⟨stages, multis⟩ data buf = .ok result := by
  obtain ⟨multi, multis, rfl⟩ := exists_cons_of_length_eq_add_one depth
  rw [multiDecode]
  split
  · rcases data.middleOrEndBoundary buf with ⟨data', _ | _, rest⟩
    · exact ⟨_, rfl⟩
    · dsimp only
      split
      · exact ⟨_, rfl⟩
      · obtain ⟨next, hnext⟩ := tempMultiEnd_ok stages multi multis
        rw [hnext]
        exact ⟨_, rfl⟩
      · exact ⟨_, rfl⟩
  · split
    · rcases data.outermostFirstBoundary buf with ⟨data', _ | boundary, rest⟩
      · exact ⟨_, rfl⟩
      · dsimp only
        rw [getLast?_cons]
        exact ⟨_, rfl⟩
    · exact ⟨_, rfl⟩

variable {decoder : MimePartDecoder}

theorem partDecode_ok (good : decoder.stage = .body) (depth : multis.length = stages.length)
    (some : stages ≠ []) (hbuf : buf ≠ []) :
    ∃ result, partDecode ⟨stages, multis⟩ decoder buf = .ok result := by
  obtain ⟨stage, stages, rfl⟩ := exists_cons_of_ne_nil some
  obtain ⟨multi, multis, rfl⟩ := exists_cons_of_length_eq_add_one depth
  rw [partDecode]
  obtain ⟨last, ⟨hdec, -⟩ | ⟨part, rest, hdec, -⟩⟩ := MimePartDecoder.decode_ends (.inl good) hbuf
  · rw [hdec]
    exact ⟨_, rfl⟩
  · rw [hdec]
    dsimp only
    have hclosed := tempMultiEnd_closed stages (multi.addPart part) multis true stage
    rw [if_pos rfl] at hclosed
    rw [hclosed]
    split
    · exact ⟨_, rfl⟩
    · exact ⟨_, rfl⟩

theorem round_error_iff (hgood : self.Good) (hbuf : buf ≠ []) :
    rounds.round self buf = .error e ↔
      ∃ decoder stages, self.stages = .unknown decoder :: stages ∧
        DecodeHeaders.rounds.Ends decoder buf (.error e) := by
  cases hgood with
  | @multi data stages multis below depth =>
    refine iff_of_false (fun h => ?_) nofun
    obtain ⟨result, hok⟩ := multiDecode_ok depth data buf
    cases hok.symm.trans h
  | @part decoder stages multis good below depth some =>
    refine iff_of_false (fun h => ?_) nofun
    obtain ⟨result, hok⟩ := partDecode_ok good depth some hbuf
    cases hok.symm.trans h
  | done => exact iff_of_false nofun nofun
  | @unknown decoder stages multis good below depth some =>
    obtain ⟨o, hends⟩ := DecodeHeaders.ends_total good hbuf
    have hround : rounds.round ⟨.unknown decoder :: stages, multis⟩ buf = _ :=
      unknownDecode_ends good hbuf hends
    rw [hround]
    constructor
    · intro h
      refine ⟨decoder, stages, rfl, ?_⟩
      cases o with
      | error e' =>
        cases h
        exact hends
      | more next => cases h
      | complete headers rest =>
        rw [headersResult] at h
        split at h
        · cases h
        · cases multis with
          | nil => exact absurd (eq_nil_of_length_eq_zero depth.symm) some
          | cons multi multis => cases h
    · rintro ⟨decoder', stages', hstages, hends'⟩
      cases hstages
      rw [hends.unique hends']
      rfl

theorem round_panic_iff (hgood : self.Good) (hbuf : buf ≠ []) :
    rounds.round self buf = .error .panic ↔ self.AtBlanks buf := by
  rw [round_error_iff hgood hbuf, AtBlanks]
  refine exists_congr fun decoder => exists_congr fun stages => and_congr_right fun hstages => ?_
  cases hgood with
  | unknown good =>
    cases hstages
    exact ends_panic_iff good hbuf
  | multi => cases hstages
  | part => cases hstages
  | done => cases hstages

theorem ends_panic_iff (hgood : self.Good) (hbuf : buf ≠ []) :
    rounds.Ends self buf (.error .panic) ↔ self.MeetsBlanks buf := by
  rw [Rounds.Ends.error_iff, MeetsBlanks]
  refine exists_congr fun last => exists_congr fun rest => and_congr_right fun hpasses => ?_
  obtain ⟨hlast, hleft⟩ := lawful.good.passes hgood (.inl hbuf) hpasses
  constructor
  · rintro ⟨hval, hround⟩
    exact (round_panic_iff hlast (hleft.resolve_right (absurd hval))).mp hround
  · rintro ⟨decoder, stages, hstages, hblanks⟩
    have hval : rounds.value last = none := by
      rcases value_cases hlast with ⟨multi, rfl⟩ | ⟨hnone, -⟩
      · cases hstages
      · exact hnone
    exact ⟨hval, (round_panic_iff hlast (hleft.resolve_right (absurd hval))).mpr
      ⟨decoder, stages, hstages, hblanks⟩⟩

def Returns (self : MimeMultiDecoder) (buf : Bytes) : Prop :=
  ∃ fuel result, self.decode fuel buf = some result ∧ result ≠ .error .panic

theorem returns_of_good (hgood : self.Good) (hbuf : buf ≠ []) :
    self.Returns buf ↔ ¬self.MeetsBlanks buf := by
  have hdec : ∀ fuel, self.decode fuel buf = self.decodeLoop fuel buf := by
    intro fuel
    rw [decode, if_neg (by simpa using hbuf)]
  obtain ⟨o, hends⟩ := ends_total hgood hbuf
  rw [← ends_panic_iff hgood hbuf]
  constructor
  · rintro ⟨fuel, result, hcall, hpanic⟩ h
    rw [hdec] at hcall
    obtain ⟨last, rfl⟩ := decodeLoop_answer hgood (.inl hbuf) h hcall
    exact hpanic rfl
  · intro hpanic
    obtain ⟨fuel, last, hloop⟩ := decodeLoop_of_ends hgood (.inl hbuf) hends
    refine ⟨fuel, _, (hdec fuel).trans hloop, fun h => ?_⟩
    cases o with
    | error e =>
      cases h
      exact hpanic hends
    | more next => cases h
    | complete multi rest => cases h

/-! ## After the last message -/

theorem passes_nil (hstages : self.stages = []) (hpasses : rounds.Passes self buf last rest) :
    last.stages = [] := by
  induction hpasses with
  | here => exact hstages
  | step going round left later ih =>
    refine ih ?_
    simp only [rounds, hstages] at round
    cases round
    exact hstages

theorem returns_of_nil (hstages : self.stages = []) (hbuf : buf ≠ []) :
    self.Returns buf ↔ ¬self.MeetsBlanks buf := by
  refine iff_of_true ⟨1, .ok (self, none, buf), ?_, nofun⟩ ?_
  · rw [decode, if_neg (by simpa using hbuf), decodeLoop, hstages]
  · rintro ⟨last, rest, hpasses, decoder, stages, hlast, -⟩
    rw [passes_nil hstages hpasses] at hlast
    cases hlast

/-! ## What is kept of lines -/

def Kept : DecodeStage → Prop
  | .part decoder => decoder.Sound
  | .multi data => data.srcIdx ≤ data.src.length
  | _ => True

/-- The states of the decoder, those after the last message among them. -/
structure Sound (decoder : MimeMultiDecoder) : Prop where
  good : decoder.Good ∨ decoder.stages = []
  kept : ∀ stage ∈ decoder.stages, Kept stage

variable {stage : DecodeStage}

theorem kept_cons (hstage : Kept stage) (hkept : ∀ s ∈ stages, Kept s) :
    ∀ s ∈ stage :: stages, Kept s := by
  intro s hs
  rcases mem_cons.mp hs with rfl | hs
  · exact hstage
  · exact hkept s hs

theorem kept_tail (hkept : ∀ s ∈ stage :: stages, Kept s) : ∀ s ∈ stages, Kept s :=
  fun s hs => hkept s (.tail stage hs)

theorem middleOrEndBoundary_kept (h : data.srcIdx ≤ data.src.length) (buf : Bytes) :
    (data.middleOrEndBoundary buf).1.srcIdx ≤ (data.middleOrEndBoundary buf).1.src.length := by
  rw [DecodeData.middleOrEndBoundary]
  cases getCrlfContain buf with
  | none => exact h.trans (by rw [length_append]; exact Nat.le_add_right _ _)
  | some result =>
    dsimp only
    split
    · exact le_rfl
    · split <;> exact le_rfl

theorem outermostFirstBoundary_kept (h : data.srcIdx ≤ data.src.length) (buf : Bytes) :
    (data.outermostFirstBoundary buf).1.srcIdx ≤ (data.outermostFirstBoundary buf).1.src.length := by
  rw [DecodeData.outermostFirstBoundary]
  cases getCrlfContain buf with
  | none => exact h.trans (by rw [length_append]; exact Nat.le_add_right _ _)
  | some result =>
    dsimp only
    split <;> exact le_rfl

theorem innerFirstBoundary_kept (h : data.srcIdx ≤ data.src.length) (buf : Bytes) :
    (data.innerFirstBoundary buf).1.srcIdx ≤ (data.innerFirstBoundary buf).1.src.length := by
  rw [DecodeData.innerFirstBoundary]
  cases getCrlfContain buf with
  | none => exact h.trans (by rw [length_append]; exact Nat.le_add_right _ _)
  | some result =>
    dsimp only
    split <;> exact le_rfl

theorem tempMultiEnd_kept {byPart : Bool} (hkept : ∀ s ∈ self.stages, Kept s)
    (hend : self.tempMultiEnd byPart = .ok next) : ∀ s ∈ next.stages, Kept s := by
  rw [tempMultiEnd] at hend
  split at hend
  · cases hend
    exact kept_cons trivial (fun s hs => absurd hs not_mem_nil)
  · split at hend
    · cases hend
    · split at hend
      · cases hend
        dsimp only
        split
        · exact fun s hs => hkept s (mem_of_mem_tail hs)
        · exact hkept
      · cases hend

theorem multiDecode_kept (hkept : ∀ s ∈ stages, Kept s) (hdata : data.srcIdx ≤ data.src.length)
    (hround : multiDecode ⟨stages, multis⟩ data buf = .ok (next, rest)) :
    ∀ s ∈ next.stages, Kept s := by
  rw [multiDecode] at hround
  split at hround
  · have hline := middleOrEndBoundary_kept hdata buf
    rcases hres : data.middleOrEndBoundary buf with ⟨data', _ | _, rest'⟩
    · rw [hres] at hround hline
      cases hround
      exact kept_cons hline hkept
    · rw [hres] at hround hline
      dsimp only at hround
      split at hround
      · cases hround
        exact kept_cons trivial (kept_cons hline hkept)
      · cases hend : tempMultiEnd ⟨stages, multis⟩ false with
        | error e =>
          rw [hend] at hround
          cases hround
        | ok closed =>
          rw [hend] at hround
          cases hround
          exact tempMultiEnd_kept hkept hend
      · cases hround
        exact hkept
  · split at hround
    · have hline := outermostFirstBoundary_kept hdata buf
      rcases hres : data.outermostFirstBoundary buf with ⟨data', _ | boundary, rest'⟩
      · rw [hres] at hround hline
        cases hround
        exact kept_cons hline hkept
      · rw [hres] at hround hline
        dsimp only at hround
        split at hround
        · cases hround
        · cases hround
          exact kept_cons trivial (kept_cons hline hkept)
    · have hline := innerFirstBoundary_kept hdata buf
      rcases hres : data.innerFirstBoundary buf with ⟨data', rest'⟩
      rw [hres] at hround hline
      cases hround
      exact kept_cons trivial (kept_cons hline hkept)

theorem unknownDecode_kept {decoder : DecodeHeaders} (hkept : ∀ s ∈ stages, Kept s)
    (hround : unknownDecode ⟨stages, multis⟩ decoder buf = .ok (next, rest)) :
    ∀ s ∈ next.stages, Kept s := by
  rw [unknownDecode] at hround
  split at hround
  · cases hround
  · cases hround
    exact kept_cons trivial hkept
  · split at hround
    · cases hround
      exact kept_cons (show Kept (.multi (.newAsPart _)) from le_rfl) hkept
    · split at hround
      · cases hround
      · cases hround
        exact kept_cons (show Kept (.part (.initFromMulti _ _)) from
          ⟨(fun h => by cases h), DecodeHeaders.good_new, fun _ => le_rfl⟩) hkept

theorem partDecode_kept (hkept : ∀ s ∈ stages, Kept s) (hsound : decoder.Sound) (hbuf : buf ≠ [])
    (hround : partDecode ⟨stages, multis⟩ decoder buf = .ok (next, rest)) :
    ∀ s ∈ next.stages, Kept s := by
  have hends := MimePartDecoder.decode_sound hsound hbuf
  rw [partDecode] at hround
  rcases hdec : decoder.decode buf with e | ⟨last, _ | part, rest'⟩
  · rw [hdec] at hround
    cases hround
  · rw [hdec] at hround hends
    cases hround
    exact kept_cons hends.2.2 hkept
  · rw [hdec] at hround
    cases multis with
    | nil => cases hround
    | cons multi multis =>
      dsimp only at hround
      split at hround
      · cases hend : tempMultiEnd ⟨stages, multi.addPart part :: multis⟩ true with
        | error e =>
          rw [hend] at hround
          cases hround
        | ok closed =>
          rw [hend] at hround
          cases hround
          exact tempMultiEnd_kept hkept hend
      · cases hround
        exact kept_cons trivial hkept

theorem keeps_sound : rounds.Keeps Sound := by
  intro self buf next rest hsound hval hbuf hround
  obtain ⟨stages, multis⟩ := self
  cases stages with
  | nil =>
    cases hround
    exact hsound
  | cons stage stages =>
    have hgood := hsound.good.resolve_right (cons_ne_nil _ _)
    have hstage := hsound.kept stage (.head _)
    have hkept := kept_tail hsound.kept
    refine ⟨.inl (lawful.good _ _ _ _ hgood hval hbuf hround), ?_⟩
    cases stage with
    | unknown decoder => exact unknownDecode_kept hkept hround
    | part decoder => exact partDecode_kept hkept hstage hbuf hround
    | multi data => exact multiDecode_kept hkept hstage hround
    | done =>
      cases hround
      exact hkept

theorem decodeLoop_sound {multi : Option MimeMulti} (hsound : self.Sound)
    (hbuf : buf ≠ [] ∨ rounds.value self ≠ none)
    (hloop : self.decodeLoop fuel buf = some (.ok (next, multi, rest))) : next.Sound := by
  induction fuel generalizing self buf with
  | zero => cases hloop
  | succ fuel ih =>
    obtain ⟨stages, multis⟩ := self
    rw [decodeLoop] at hloop
    cases stages with
    | nil =>
      cases hloop
      exact hsound
    | cons stage stages =>
      have hgood := hsound.good.resolve_right (cons_ne_nil _ _)
      dsimp only at hloop
      rcases value_cases hgood with ⟨multi, hdone⟩ | ⟨hval, stage', stages', hstages, hstage⟩
      · cases hdone
        cases hloop
        exact ⟨.inr rfl, fun s hs => absurd hs not_mem_nil⟩
      · cases hstages
        have hne := hbuf.resolve_right (absurd hval)
        rw [if_neg hstage] at hloop
        split at hloop
        · cases hloop
        · next mid left hround =>
            have hmid : mid.Sound := keeps_sound _ _ _ _ hsound hval hne hround
            split at hloop
            · next hempty =>
                split at hloop
                · cases hloop
                · next stages'' hdone =>
                    refine ih hmid (.inr ?_) hloop
                    have hgood' := hmid.good.resolve_right (by rw [hdone]; simp)
                    rcases value_cases hgood' with ⟨multi, rfl⟩ | ⟨-, _, _, hstages, hstage⟩
                    · rintro ⟨⟩
                    · rw [hdone] at hstages
                      cases hstages
                      exact absurd rfl hstage
                · cases hloop
                  exact hmid
            · next hempty => exact ih hmid (.inl fun h => hempty (by rw [h]; rfl)) hloop

/-! ## The states that segments lead to -/

def StageInRange (buf : Bytes) : DecodeStage → Prop
  | .part decoder => decoder.LinesInRange buf
  | .multi data => LineInRange data.srcIdx data.src buf
  | _ => True

def LinesInRange (self : MimeMultiDecoder) (buf : Bytes) : Prop :=
  ∀ last rest, rounds.Passes self buf last rest → ∀ stage ∈ last.stages.head?, StageInRange rest stage

/-- What a call leaves behind. A call that fails has dropped the stage that it was in. -/
inductive Leaves : MimeMultiDecoder → Bytes → MimeMultiDecoder → Prop
  | ok {self next : MimeMultiDecoder} {buf rest : Bytes} {fuel : ℕ} {multi : Option MimeMulti}
      (call : self.decode fuel buf = some (.ok (next, multi, rest))) : Leaves self buf next
  | error {self last : MimeMultiDecoder} {buf rest : Bytes} {e : HttpError}
      (passes : rounds.Passes self buf last rest) (going : rounds.value last = none)
      (round : rounds.round last rest = .error (.error e)) :
      Leaves self buf { last with stages := last.stages.tail }

/-- The states that segments lead to, with or without errors. -/
inductive Reached : MimeMultiDecoder → Prop
  | new : Reached new
  | segment {self next : MimeMultiDecoder} {buf : Bytes} (before : Reached self) (some : buf ≠ [])
      (leaves : Leaves self buf next) : Reached next

theorem Leaves.sound (hleaves : Leaves self buf next) (hsound : self.Sound) (hbuf : buf ≠ []) :
    next.Sound := by
  cases hleaves with
  | ok call =>
    rw [decode, if_neg (by simpa using hbuf)] at call
    exact decodeLoop_sound hsound (.inl hbuf) call
  | @error last _ rest e passes going round =>
    obtain ⟨hlast, hleft⟩ := keeps_sound.passes hsound (.inl hbuf) passes
    have hne := hleft.resolve_right (absurd going)
    rcases hlast.good with hgood | hnil
    · obtain ⟨decoder, stages, hstages, -⟩ := (round_error_iff hgood hne).mp round
      refine ⟨?_, fun s hs => hlast.kept s (mem_of_mem_tail hs)⟩
      cases hgood with
      | @unknown decoder stages multis good below depth some =>
        left
        obtain ⟨stage, stages, rfl⟩ := exists_cons_of_ne_nil some
        obtain ⟨data, rfl⟩ := below stage (.head _)
        exact .multi (fun s hs => below s (.tail _ hs)) depth
      | multi => cases hstages
      | part => cases hstages
      | done => cases hstages
    · simp only [rounds, hnil] at round
      cases round

theorem Reached.sound (h : Reached self) : self.Sound := by
  induction h with
  | new => exact ⟨.inl good_new, kept_cons (show Kept (.multi .new) from le_rfl)
      fun s hs => absurd hs not_mem_nil⟩
  | segment before some leaves ih => exact leaves.sound ih some

theorem linesInRange (hsound : self.Sound) (hbuf : buf ≠ []) : self.LinesInRange buf := by
  intro last rest hpasses stage hstage
  obtain ⟨hlast, hleft⟩ := keeps_sound.passes hsound (.inl hbuf) hpasses
  have hkept := hlast.kept stage (mem_of_mem_head? hstage)
  cases stage with
  | unknown => trivial
  | done => trivial
  | multi data => exact .of_le hkept rest
  | part decoder =>
    refine decoder.linesInRange hkept (hleft.resolve_right fun h => h ?_)
    obtain ⟨stages, multis⟩ := last
    cases stages with
    | nil => cases hstage
    | cons top stages =>
      cases hstage
      cases multis <;> rfl

theorem returns_iff_not_meets (hsound : self.Sound) (hbuf : buf ≠ []) :
    self.Returns buf ↔ ¬self.MeetsBlanks buf :=
  hsound.good.elim (fun h => returns_of_good h hbuf) fun h => returns_of_nil h hbuf

end MimeMultiDecoder

/-- The decoders return on each segment, without an index out of range, exactly if no header line
begins with blanks that are all that is left of the segment. -/
theorem decode_returns_iff (buf : Bytes) (hbuf : buf ≠ []) :
    (∀ self : MimeMultiDecoder, self.Reached →
      self.LinesInRange buf ∧ (self.Returns buf ↔ ¬self.MeetsBlanks buf)) ∧
    ∀ self : MimePartDecoder, self.Reached →
      self.LinesInRange buf ∧ (self.Returns buf ↔ ¬self.MeetsBlanks buf) :=
  ⟨fun self hreached => ⟨self.linesInRange hreached.sound hbuf,
      self.returns_iff_not_meets hreached.sound hbuf⟩,
    fun self hreached => ⟨self.linesInRange hreached.sound hbuf,
      self.returns_iff_not_meets hreached.sound hbuf⟩⟩

/-- One blank is a panic where a header line begins, and an error behind the CR of one. -/
theorem decode_returns_iff_behind :
    (∃ next, MimeMultiDecoder.new.decode 2 (str "--abc\r\n") = some (.ok (next, none, [])) ∧
      next.LinesInRange [0x20] ∧ ¬next.Returns [0x20]) ∧
    ∃ next, MimePartDecoder.new.decode (str "A: b\r") = .ok (next, none, []) ∧
      next.LinesInRange [0x20] ∧ ¬next.MeetsBlanks [0x20] := by
  obtain ⟨hmulti, hpart⟩ := decode_returns_iff [0x20] (cons_ne_nil _ _)
  refine ⟨⟨_, rfl, ?_⟩, _, rfl, ?_⟩
  · obtain ⟨hlines, hreturns⟩ := hmulti _ (.segment .new (by decide)
      (.ok (rfl : MimeMultiDecoder.new.decode 2 (str "--abc\r\n") = _)))
    exact ⟨hlines, fun h => hreturns.mp h
      ⟨_, _, .here, .new, _, rfl, .new, _, .here, rfl, rfl, by decide⟩⟩
  · have hreached := MimePartDecoder.Reached.segment .new (by decide)
      (.ok (rfl : MimePartDecoder.new.decode (str "A: b\r") = _))
    obtain ⟨hlines, hreturns⟩ := hpart _ hreached
    have hends := MimePartDecoder.decode_sound hreached.sound (cons_ne_nil 0x20 [])
    exact ⟨hlines, hreturns.mp ⟨_, hends, nofun, nofun⟩⟩

/-- A blank after the line of the first boundary. -/
theorem decode_panics_blank :
    ¬∀ self : MimeMultiDecoder, self.Reached → ∀ buf, buf ≠ [] → self.Returns buf := by
  intro h
  have hreached := MimeMultiDecoder.Reached.segment .new (by decide)
    (.ok (rfl : MimeMultiDecoder.new.decode 2 (str "--abc\r\n") = _))
  exact (MimeMultiDecoder.returns_iff_not_meets hreached.sound (cons_ne_nil 0x20 [])).mp
    (h _ hreached _ (cons_ne_nil _ _))
    ⟨_, _, .here, .new, _, rfl, .new, _, .here, rfl, rfl, by decide⟩

end YlongHttp.Mime
