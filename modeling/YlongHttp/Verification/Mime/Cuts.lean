import YlongHttp.Verification.Mime.HeaderCuts
import YlongHttp.Verification.Mime.PartCuts
import YlongHttp.Verification.Mime.Trees

/-! # Messages that are cut -/

namespace YlongHttp.Mime

open List
open Library (Outcome Rounds)

namespace MimeMultiDecoder

def rounds : Rounds MimeMultiDecoder MimeMulti (Fault HttpError) UInt8 where
  value self :=
    match self.stages, self.multis with
    | .done :: _, multi :: _ => some multi
    | _, _ => none
  round self buf :=
    match self.stages with
    | [] => .ok (self, buf)
    | stage :: stages => round { self with stages } stage buf

def IsMulti (stage : DecodeStage) : Prop := ∃ data, stage = .multi data

/-- The stacks of the decoder: below the top there are messages only, and each of them is one that
is collected. -/
inductive Good : MimeMultiDecoder → Prop
  | multi {data : DecodeData} {stages : List DecodeStage} {multis : List MimeMulti}
      (below : ∀ stage ∈ stages, IsMulti stage) (depth : multis.length = stages.length + 1) :
      Good ⟨.multi data :: stages, multis⟩
  | unknown {decoder : DecodeHeaders} {stages : List DecodeStage} {multis : List MimeMulti}
      (good : decoder.Good) (below : ∀ stage ∈ stages, IsMulti stage)
      (depth : multis.length = stages.length) (some : stages ≠ []) :
      Good ⟨.unknown decoder :: stages, multis⟩
  | part {decoder : MimePartDecoder} {stages : List DecodeStage} {multis : List MimeMulti}
      (good : decoder.stage = .body) (below : ∀ stage ∈ stages, IsMulti stage)
      (depth : multis.length = stages.length) (some : stages ≠ []) :
      Good ⟨.part decoder :: stages, multis⟩
  | done {multi : MimeMulti} : Good ⟨[.done], [multi]⟩

/-- Nothing was lost at the end of a buffer that goes on with `b`: no line in front of the first
boundary, no CR of a header line that another one follows, no part of the line in front of the
first boundary of a message in a message. -/
def Fine (self : MimeMultiDecoder) (b : Bytes) : Prop :=
  match self.stages with
  | .multi data :: _ => data.isFinishFirstBoundary = true ∨ data.isOutermost = false ∨ data.src ≠ []
  | .unknown decoder :: .multi data :: _ =>
    decoder.Fine b ∧ (data.isFinishFirstBoundary = true ∨ data.src.getLast? = some lf)
  | _ => True

def Exempt (e : Fault HttpError) : Prop := e = .panic

variable {self next : MimeMultiDecoder} {a b buf rest : Bytes} {data : DecodeData}
  {stages : List DecodeStage} {multis : List MimeMulti}

/-! ## A boundary line -/

theorem middleOrEndBoundary_open (h : getCrlfContain a = none) (data : DecodeData) (b : Bytes) :
    data.middleOrEndBoundary (a ++ b) =
      DecodeData.middleOrEndBoundary { data with src := data.src ++ a } b := by
  rw [DecodeData.middleOrEndBoundary, DecodeData.middleOrEndBoundary, getCrlfContain_append_none h]
  cases getCrlfContain b with
  | none => simp
  | some result => simp

theorem outermostFirstBoundary_open (h : getCrlfContain a = none) (data : DecodeData) (b : Bytes) :
    data.outermostFirstBoundary (a ++ b) =
      DecodeData.outermostFirstBoundary { data with src := data.src ++ a } b := by
  rw [DecodeData.outermostFirstBoundary, DecodeData.outermostFirstBoundary,
    getCrlfContain_append_none h]
  cases getCrlfContain b with
  | none => simp
  | some result => simp [DecodeData.whenIsFirstBoundary]

theorem getLast?_open (h : getCrlfContain a = none) : a.getLast? ≠ some lf := by
  induction a with
  | nil => nofun
  | cons c a ih =>
    rw [getCrlfContain] at h
    split at h
    · cases h
    · next hc =>
        have hopen := ih (Option.map_eq_none_iff.mp h)
        cases a with
        | nil => exact fun heq => hc (Option.some.inj heq)
        | cons d a => rwa [getLast?_cons_cons]

theorem round_multi (buf : Bytes) :
    rounds.round ⟨.multi data :: stages, multis⟩ buf =
      multiDecode ⟨stages, multis⟩ data buf :=
  rfl

theorem value_multi : rounds.value ⟨.multi data :: stages, multis⟩ = none := by cases multis <;> rfl

theorem cut_middle (hfin : data.isFinishFirstBoundary = true) :
    rounds.Cut Exempt Fine ⟨.multi data :: stages, multis⟩ a b := by
  rw [Rounds.Cut, round_multi, round_multi, multiDecode, multiDecode, if_pos hfin, if_pos hfin]
  cases hline : getCrlfContain a with
  | none =>
    have hopen : data.middleOrEndBoundary a = ({ data with src := data.src ++ a }, false, []) := by
      rw [DecodeData.middleOrEndBoundary, hline]
    rw [hopen, middleOrEndBoundary_open hline]
    refine .inr ⟨rfl, value_multi, fun _ => .inl ?_⟩
    change _ = multiDecode ⟨stages, multis⟩ { data with src := data.src ++ a } b
    rw [multiDecode, if_pos (show DecodeData.isFinishFirstBoundary
      { data with src := data.src ++ a } = true from hfin)]
  | some result =>
    obtain ⟨line, unparsed⟩ := result
    have hcut : ∃ next found, data.middleOrEndBoundary (a ++ b) = (next, found, unparsed ++ b) ∧
        data.middleOrEndBoundary a = (next, found, unparsed) := by
      rw [DecodeData.middleOrEndBoundary, DecodeData.middleOrEndBoundary,
        (getCrlfContain_append_some hline b).1, hline]
      dsimp only
      split
      · exact ⟨_, _, rfl, rfl⟩
      · split
        · exact ⟨_, _, rfl, rfl⟩
        · exact ⟨_, _, rfl, rfl⟩
    obtain ⟨data', found, hwhole, hfront⟩ := hcut
    rw [hwhole, hfront]
    cases found with
    | false => exact .inl rfl
    | true =>
      dsimp only
      cases data'.tag with
      | init | first | middle => exact .inl rfl
      | last =>
        dsimp only
        cases tempMultiEnd ⟨stages, multis⟩ false with
        | error e => exact .inr rfl
        | ok next => exact .inl rfl

theorem cut_outermost (hfin : ¬data.isFinishFirstBoundary = true)
    (houter : data.isOutermost = true) :
    rounds.Cut Exempt Fine ⟨.multi data :: stages, multis⟩ a b := by
  rw [Rounds.Cut, round_multi, round_multi, multiDecode, multiDecode, if_neg hfin,
    if_neg hfin, if_pos houter, if_pos houter]
  cases hline : getCrlfContain a with
  | none =>
    have hopen : data.outermostFirstBoundary a =
        ({ data with src := data.src ++ a }, none, []) := by
      rw [DecodeData.outermostFirstBoundary, hline]
    rw [hopen, outermostFirstBoundary_open hline]
    refine .inr ⟨rfl, value_multi, fun _ => .inl ?_⟩
    change _ = multiDecode ⟨stages, multis⟩ { data with src := data.src ++ a } b
    rw [multiDecode, if_neg (show ¬DecodeData.isFinishFirstBoundary
      { data with src := data.src ++ a } = true from hfin),
      if_pos (show DecodeData.isOutermost { data with src := data.src ++ a } = true from houter)]
  | some result =>
    obtain ⟨line, unparsed⟩ := result
    rw [DecodeData.outermostFirstBoundary, DecodeData.outermostFirstBoundary,
      (getCrlfContain_append_some hline b).1, hline]
    dsimp only
    by_cases hdashes : (str "--").isPrefixOf (trimStr (data.src ++ line)) = true
    · rw [if_pos hdashes, if_pos hdashes]
      dsimp only
      cases multis.getLast? with
      | none => exact .inr rfl
      | some first => exact .inl rfl
    · rw [if_neg hdashes, if_neg hdashes]
      refine .inr ⟨rfl, value_multi, fun hfine => ?_⟩
      -- The line is lost, and what follows it in the longer buffer.
      rcases hfine with hfirst | hinner | hsrc
      · exact absurd hfirst hfin
      · exact absurd (hinner.symm.trans houter) Bool.false_ne_true
      · exact absurd rfl hsrc

theorem cut_inner (hfin : ¬data.isFinishFirstBoundary = true)
    (houter : ¬data.isOutermost = true) (ha : a ≠ []) :
    rounds.Cut Exempt Fine ⟨.multi data :: stages, multis⟩ a b := by
  rw [Rounds.Cut, round_multi, round_multi, multiDecode, multiDecode, if_neg hfin,
    if_neg hfin, if_neg houter, if_neg houter]
  cases hline : getCrlfContain a with
  | none =>
    have hopen : data.innerFirstBoundary a = ({ data with src := data.src ++ a }, []) := by
      rw [DecodeData.innerFirstBoundary, hline]
    rw [hopen]
    refine .inr ⟨rfl, rfl, fun hfine => ?_⟩
    -- The stage is left inside of the line.
    rcases hfine.2 with hfirst | hlast
    · exact absurd hfirst hfin
    · have happend : (data.src ++ a).getLast? = a.getLast? := by
        rw [getLast?_append, getLast?_eq_some_getLast ha]
        rfl
      exact absurd (happend.symm.trans hlast) (getLast?_open hline)
  | some result =>
    obtain ⟨line, unparsed⟩ := result
    rw [DecodeData.innerFirstBoundary, DecodeData.innerFirstBoundary,
      (getCrlfContain_append_some hline b).1, hline]
    dsimp only
    split
    · exact .inl rfl
    · exact .inl rfl

theorem cut_multi (ha : a ≠ []) : rounds.Cut Exempt Fine ⟨.multi data :: stages, multis⟩ a b := by
  by_cases hfin : data.isFinishFirstBoundary = true
  · exact cut_middle hfin
  · by_cases houter : data.isOutermost = true
    · exact cut_outermost hfin houter
    · exact cut_inner hfin houter ha

/-! ## The header lines of a part, and its body -/

/-- What header lines lead to. -/
def headersResult (self : MimeMultiDecoder) :
    Outcome DecodeHeaders Headers (Fault HttpError) UInt8 → Decoded (MimeMultiDecoder × Bytes)
  | .error e => .error e
  | .more decoder => .ok (self.push (.unknown decoder), [])
  | .complete headers rest =>
    match getContentTypeBoundary headers with
    | some boundary =>
      .ok ({ stages := .multi (.newAsPart boundary) :: self.stages
             multis := { MimeMulti.new with headers, boundary } :: self.multis }, rest)
    | none =>
      match self.multis with
      | [] => invalid
      | last :: _ => .ok (self.push (.part (.initFromMulti headers last.boundary)), rest)

variable {decoder : DecodeHeaders}

theorem unknownDecode_ends {o : Outcome DecodeHeaders Headers (Fault HttpError) UInt8}
    (hgood : decoder.Good) (hbuf : buf ≠ []) (hends : DecodeHeaders.rounds.Ends decoder buf o) :
    self.unknownDecode decoder buf = self.headersResult o := by
  have hdec := DecodeHeaders.decode_ends hgood hbuf
  rw [unknownDecode]
  rcases hres : decoder.decode buf with e | ⟨next, _ | headers, rest⟩
  · rw [hres] at hdec
    rw [hends.unique hdec]
    rfl
  · rw [hres] at hdec
    obtain ⟨rfl, hmore⟩ := hdec
    rw [hends.unique hmore]
    rfl
  · rw [hres] at hdec
    rw [hends.unique hdec]
    rfl

/-- What a body leads to. -/
def bodyResult (self : MimeMultiDecoder) :
    Outcome MimePartDecoder (MimePart × BoundaryTag) (Fault HttpError) UInt8 →
      Decoded (MimeMultiDecoder × Bytes)
  | .error e => .error e
  | .more decoder => .ok (self.push (.part decoder), [])
  | .complete (part, tag) rest =>
    match self.multis with
    | [] => invalid
    | last :: multis =>
      let self := { self with multis := last.addPart part :: multis }
      if tag = .last then (self.tempMultiEnd true).map fun self => (self, rest)
      else .ok (self.push (.unknown .new), rest)

theorem partDecode_ends {decoder : MimePartDecoder}
    {o : Outcome MimePartDecoder (MimePart × BoundaryTag) (Fault HttpError) UInt8}
    (hgood : decoder.Good) (hbuf : buf ≠ []) (hends : MimePartDecoder.rounds.Ends decoder buf o) :
    self.partDecode decoder buf = self.bodyResult o := by
  rw [partDecode]
  obtain ⟨last, ⟨hdec, hmore⟩ | ⟨part, rest, hdec, hcomp⟩⟩ := MimePartDecoder.decode_ends hgood hbuf
  · rw [hdec, hends.unique hmore]
    rfl
  · rw [hdec, hends.unique hcomp]
    rfl

theorem cut_unknown (hgood : decoder.Good) (hstages : stages ≠ [])
    (hbelow : ∀ stage ∈ stages, IsMulti stage) (ha : a ≠ []) (hb : b ≠ []) :
    rounds.Cut Exempt Fine ⟨.unknown decoder :: stages, multis⟩ a b := by
  have hround : ∀ decoder buf, rounds.round ⟨.unknown decoder :: stages, multis⟩ buf =
      unknownDecode ⟨stages, multis⟩ decoder buf := fun _ _ => rfl
  have hab : a ++ b ≠ [] := append_ne_nil_of_right_ne_nil a hb
  obtain ⟨o, hends⟩ := DecodeHeaders.ends_total hgood ha
  have hlonger := DecodeHeaders.lawful.ends hgood (.inl ha) hb hends
  rw [Rounds.Cut, hround, hround, unknownDecode_ends hgood ha hends]
  cases o with
  | error e =>
    refine hlonger.imp_right fun hlonger => ?_
    rw [unknownDecode_ends hgood hab hlonger]
    rfl
  | more next =>
    refine .inr ⟨rfl, ?_, fun hfine => .inl ?_⟩
    · cases multis <;> rfl
    · obtain ⟨stage, stages, rfl⟩ := exists_cons_of_ne_nil hstages
      obtain ⟨data, rfl⟩ := hbelow stage (.head _)
      obtain ⟨hnext, -⟩ := DecodeHeaders.lawful.good.more hgood (.inl ha) hends
      obtain ⟨o', hends'⟩ := DecodeHeaders.ends_total hnext hb
      change _ = unknownDecode _ next b
      rw [unknownDecode_ends hgood hab (hlonger hfine.1 o' hends'),
        unknownDecode_ends hnext hb hends']
      rfl
  | complete headers rest =>
    rw [unknownDecode_ends hgood hab hlonger, headersResult, headersResult]
    cases getContentTypeBoundary headers with
    | some boundary => exact .inl rfl
    | none =>
      cases multis with
      | nil => exact .inr rfl
      | cons last multis => exact .inl rfl

theorem cut_part {decoder : MimePartDecoder} (hgood : decoder.stage = .body) (ha : a ≠ [])
    (hb : b ≠ []) : rounds.Cut Exempt Fine ⟨.part decoder :: stages, multis⟩ a b := by
  have hround : ∀ decoder buf, rounds.round ⟨.part decoder :: stages, multis⟩ buf =
      partDecode ⟨stages, multis⟩ decoder buf := fun _ _ => rfl
  have hab : a ++ b ≠ [] := append_ne_nil_of_right_ne_nil a hb
  obtain ⟨o, hends⟩ := MimePartDecoder.ends_total (.inl hgood) ha
  have hlonger := MimePartDecoder.lawful.ends (.inl hgood) (.inl ha) hb hends
  rw [Rounds.Cut, hround, hround, partDecode_ends (.inl hgood) ha hends]
  cases o with
  | error e =>
    refine .inr ?_
    rw [partDecode_ends (.inl hgood) hab (hlonger.resolve_left id)]
    rfl
  | more next =>
    refine .inr ⟨rfl, ?_, fun hfine => .inl ?_⟩
    · cases multis <;> rfl
    · obtain ⟨hnext, -⟩ := MimePartDecoder.lawful.good.more (.inl hgood) (.inl ha) hends
      obtain ⟨o', hends'⟩ := MimePartDecoder.ends_total hnext hb
      change _ = partDecode _ next b
      rw [partDecode_ends (.inl hgood) hab (hlonger trivial o' hends'),
        partDecode_ends hnext hb hends']
      rfl
  | complete value rest =>
    obtain ⟨part, tag⟩ := value
    rw [partDecode_ends (.inl hgood) hab hlonger, bodyResult, bodyResult]
    cases multis with
    | nil => exact .inr rfl
    | cons last multis =>
      dsimp only
      by_cases htag : tag = .last
      · rw [if_pos htag, if_pos htag]
        cases tempMultiEnd ⟨stages, last.addPart part :: multis⟩ true with
        | error e => exact .inr rfl
        | ok next => exact .inl rfl
      · rw [if_neg htag, if_neg htag]
        exact .inl rfl

theorem cut_round (hgood : self.Good) (hval : rounds.value self = none) (ha : a ≠ [])
    (hb : b ≠ []) : rounds.Cut Exempt Fine self a b := by
  cases hgood with
  | multi below depth => exact cut_multi ha
  | unknown good below depth some => exact cut_unknown good some below ha hb
  | part good below depth some => exact cut_part good ha hb
  | done => cases hval

/-! ## What a round leads to -/

def rank (self : MimeMultiDecoder) : ℕ :=
  match self.stages with
  | .unknown _ :: _ => 1
  | _ => 0

def Advances (self : MimeMultiDecoder) (buf : Bytes) (next : MimeMultiDecoder) (rest : Bytes) :
    Prop :=
  next.Good ∧ 2 * rest.length + next.rank < 2 * buf.length + self.rank

variable {multi : MimeMulti}

theorem good_closed (below : ∀ stage ∈ stages, IsMulti stage)
    (depth : multis.length = stages.length) : (closed stages multi multis).Good := by
  cases multis with
  | nil => exact .done
  | cons last multis =>
    cases stages with
    | nil => cases depth
    | cons stage stages =>
      obtain ⟨data, rfl⟩ := below stage (.head _)
      exact .multi (fun s hs => below s (.tail _ hs)) (Nat.succ.inj depth ▸ rfl)

theorem rank_closed (below : ∀ stage ∈ stages, IsMulti stage) :
    (closed stages multi multis).rank = 0 := by
  cases multis with
  | nil => rfl
  | cons last multis =>
    cases stages with
    | nil => rfl
    | cons stage stages =>
      obtain ⟨data, rfl⟩ := below stage (.head _)
      rfl

theorem below_cons (data : DecodeData) (below : ∀ stage ∈ stages, IsMulti stage) :
    ∀ stage ∈ DecodeStage.multi data :: stages, IsMulti stage := by
  intro stage hstage
  rcases mem_cons.mp hstage with rfl | hstage
  · exact ⟨data, rfl⟩
  · exact below stage hstage

theorem length_line (hbuf : buf ≠ []) :
    (getCrlfContain buf = none ∧ 0 < buf.length) ∨
      ∃ line unparsed, getCrlfContain buf = some (line, unparsed) ∧ unparsed.length < buf.length := by
  cases hline : getCrlfContain buf with
  | none => exact .inl ⟨rfl, length_pos_of_ne_nil hbuf⟩
  | some result =>
    obtain ⟨line, unparsed⟩ := result
    exact .inr ⟨line, unparsed, rfl, length_unparsed hline⟩

theorem middleOrEndBoundary_line {line unparsed : Bytes}
    (h : getCrlfContain buf = some (line, unparsed)) (data : DecodeData) :
    ∃ data', data.middleOrEndBoundary buf = (data', false, unparsed) ∨
      (data'.tag = .middle ∨ data'.tag = .last) ∧
        data.middleOrEndBoundary buf = (data', true, unparsed) := by
  rw [DecodeData.middleOrEndBoundary, h]
  dsimp only
  split
  · exact ⟨_, .inr ⟨.inl rfl, rfl⟩⟩
  · split
    · exact ⟨_, .inr ⟨.inr rfl, rfl⟩⟩
    · exact ⟨_, .inl rfl⟩

theorem advances_stay (below : ∀ stage ∈ stages, IsMulti stage)
    (depth : multis.length = stages.length + 1) (data data' : DecodeData)
    (hlt : rest.length < buf.length) :
    Advances ⟨.multi data :: stages, multis⟩ buf ⟨.multi data' :: stages, multis⟩ rest := by
  refine ⟨.multi below depth, ?_⟩
  change 2 * _ + 0 < 2 * _ + 0
  omega

theorem advances_headers {multis' : List MimeMulti} (below : ∀ stage ∈ stages, IsMulti stage)
    (depth : multis'.length = stages.length + 1) (data data' : DecodeData)
    (hlt : rest.length < buf.length) :
    Advances ⟨.multi data :: stages, multis⟩ buf
      ⟨.unknown .new :: .multi data' :: stages, multis'⟩ rest := by
  refine ⟨.unknown DecodeHeaders.good_new (below_cons data' below) depth (cons_ne_nil _ _), ?_⟩
  change 2 * _ + 1 < 2 * _ + 0
  omega

theorem advances_middle (below : ∀ stage ∈ stages, IsMulti stage)
    (depth : multis.length = stages.length + 1) (hbuf : buf ≠ [])
    (hfin : data.isFinishFirstBoundary = true)
    (hround : multiDecode ⟨stages, multis⟩ data buf = .ok (next, rest)) :
    Advances ⟨.multi data :: stages, multis⟩ buf next rest := by
  rw [multiDecode, if_pos hfin] at hround
  rcases length_line hbuf with ⟨hline, hpos⟩ | ⟨line, unparsed, hline, hlt⟩
  · rw [DecodeData.middleOrEndBoundary, hline] at hround
    cases hround
    exact advances_stay below depth data _ hpos
  · obtain ⟨data', hfalse | ⟨hmiddle | hlast, htrue⟩⟩ := middleOrEndBoundary_line hline data
    · rw [hfalse] at hround
      cases hround
      exact advances_stay below depth data data' hlt
    · rw [htrue] at hround
      simp only [hmiddle] at hround
      cases hround
      exact advances_headers below depth data data' hlt
    · rw [htrue] at hround
      simp only [hlast] at hround
      cases multis with
      | nil => cases depth
      | cons multi multis =>
        have hclosed := tempMultiEnd_closed stages multi multis false (.multi data)
        rw [if_neg Bool.false_ne_true] at hclosed
        rw [hclosed] at hround
        cases hround
        refine ⟨good_closed below (Nat.succ.inj depth), ?_⟩
        rw [rank_closed below]
        change 2 * _ + 0 < 2 * _ + 0
        omega

theorem advances_outermost (below : ∀ stage ∈ stages, IsMulti stage)
    (depth : multis.length = stages.length + 1) (hbuf : buf ≠ [])
    (hfin : ¬data.isFinishFirstBoundary = true) (houter : data.isOutermost = true)
    (hround : multiDecode ⟨stages, multis⟩ data buf = .ok (next, rest)) :
    Advances ⟨.multi data :: stages, multis⟩ buf next rest := by
  rw [multiDecode, if_neg hfin, if_pos houter, DecodeData.outermostFirstBoundary] at hround
  rcases length_line hbuf with ⟨hline, hpos⟩ | ⟨line, unparsed, hline, hlt⟩
  · rw [hline] at hround
    cases hround
    exact advances_stay below depth data _ hpos
  · rw [hline] at hround
    dsimp only at hround
    by_cases hdashes : (str "--").isPrefixOf (trimStr (data.src ++ line)) = true
    · rw [if_pos hdashes] at hround
      dsimp only at hround
      cases hfirst : multis.getLast? with
      | none =>
        rw [hfirst] at hround
        cases hround
      | some first =>
        rw [hfirst] at hround
        cases hround
        refine advances_headers below ?_ data _ hlt
        change (multis.dropLast ++ [_]).length = _
        rw [length_append, length_dropLast, depth]
        rfl
    · rw [if_neg hdashes] at hround
      cases hround
      exact advances_stay below depth data _ (Nat.zero_lt_of_lt hlt)

theorem advances_inner (below : ∀ stage ∈ stages, IsMulti stage)
    (depth : multis.length = stages.length + 1) (hbuf : buf ≠ [])
    (hfin : ¬data.isFinishFirstBoundary = true) (houter : ¬data.isOutermost = true)
    (hround : multiDecode ⟨stages, multis⟩ data buf = .ok (next, rest)) :
    Advances ⟨.multi data :: stages, multis⟩ buf next rest := by
  rw [multiDecode, if_neg hfin, if_neg houter, DecodeData.innerFirstBoundary] at hround
  rcases length_line hbuf with ⟨hline, hpos⟩ | ⟨line, unparsed, hline, hlt⟩
  · rw [hline] at hround
    cases hround
    exact advances_headers below depth data _ hpos
  · rw [hline] at hround
    dsimp only at hround
    split at hround
    · cases hround
      exact advances_headers below depth data _ hlt
    · cases hround
      exact advances_headers below depth data _ hlt

theorem advances_multi (below : ∀ stage ∈ stages, IsMulti stage)
    (depth : multis.length = stages.length + 1) (hbuf : buf ≠ [])
    (hround : multiDecode ⟨stages, multis⟩ data buf = .ok (next, rest)) :
    Advances ⟨.multi data :: stages, multis⟩ buf next rest := by
  by_cases hfin : data.isFinishFirstBoundary = true
  · exact advances_middle below depth hbuf hfin hround
  · by_cases houter : data.isOutermost = true
    · exact advances_outermost below depth hbuf hfin houter hround
    · exact advances_inner below depth hbuf hfin houter hround

theorem advances_unknown (good : decoder.Good) (below : ∀ stage ∈ stages, IsMulti stage)
    (depth : multis.length = stages.length) (some : stages ≠ []) (hbuf : buf ≠ [])
    (hround : rounds.round ⟨.unknown decoder :: stages, multis⟩ buf = .ok (next, rest)) :
    Advances ⟨.unknown decoder :: stages, multis⟩ buf next rest := by
  have hpos := length_pos_of_ne_nil hbuf
  obtain ⟨o, hends⟩ := DecodeHeaders.ends_total good hbuf
  change unknownDecode ⟨stages, multis⟩ decoder buf = _ at hround
  rw [unknownDecode_ends good hbuf hends] at hround
  cases o with
  | error e => cases hround
  | more decoder' =>
    cases hround
    refine ⟨.unknown (DecodeHeaders.lawful.good.more good (.inl hbuf) hends).1 below depth some, ?_⟩
    change 2 * 0 + 1 < 2 * _ + 1
    omega
  | complete headers rest' =>
    have hle := DecodeHeaders.complete_le good hbuf hends
    rw [headersResult] at hround
    cases hboundary : getContentTypeBoundary headers with
    | some boundary =>
      rw [hboundary] at hround
      cases hround
      refine ⟨.multi below (congrArg Nat.succ depth), ?_⟩
      change 2 * _ + 0 < 2 * _ + 1
      omega
    | none =>
      rw [hboundary] at hround
      cases multis with
      | nil => cases hround
      | cons last multis =>
        cases hround
        refine ⟨.part rfl below depth some, ?_⟩
        change 2 * _ + 0 < 2 * _ + 1
        omega

theorem advances_part {decoder : MimePartDecoder} (good : decoder.stage = .body)
    (below : ∀ stage ∈ stages, IsMulti stage) (depth : multis.length = stages.length)
    (some : stages ≠ []) (hbuf : buf ≠ [])
    (hround : rounds.round ⟨.part decoder :: stages, multis⟩ buf = .ok (next, rest)) :
    Advances ⟨.part decoder :: stages, multis⟩ buf next rest := by
  have hpos := length_pos_of_ne_nil hbuf
  obtain ⟨o, hends⟩ := MimePartDecoder.ends_total (.inl good) hbuf
  change partDecode ⟨stages, multis⟩ decoder buf = _ at hround
  rw [partDecode_ends (.inl good) hbuf hends] at hround
  cases o with
  | error e => cases hround
  | more decoder' =>
    cases hround
    obtain ⟨hgood, hval⟩ := MimePartDecoder.lawful.good.more (.inl good) (.inl hbuf) hends
    refine ⟨.part (MimePartDecoder.stage_of_value hgood hval) below depth some, ?_⟩
    change 2 * 0 + 0 < 2 * _ + 0
    omega
  | complete value rest' =>
    have hlt := MimePartDecoder.complete_lt good hbuf hends
    obtain ⟨part, tag⟩ := value
    rw [bodyResult] at hround
    cases multis with
    | nil => cases hround
    | cons last multis =>
      obtain ⟨stage, stages, rfl⟩ := exists_cons_of_ne_nil some
      dsimp only at hround
      by_cases htag : tag = .last
      · rw [if_pos htag] at hround
        have hclosed := tempMultiEnd_closed stages (last.addPart part) multis true stage
        rw [if_pos rfl] at hclosed
        rw [hclosed] at hround
        cases hround
        have hbelow : ∀ s ∈ stages, IsMulti s := fun s hs => below s (.tail _ hs)
        refine ⟨good_closed hbelow (Nat.succ.inj depth), ?_⟩
        rw [rank_closed hbelow]
        change 2 * _ + 0 < 2 * _ + 0
        omega
      · rw [if_neg htag] at hround
        cases hround
        refine ⟨.unknown DecodeHeaders.good_new below depth some, ?_⟩
        change 2 * _ + 1 < 2 * _ + 0
        omega

theorem advances_round (hgood : self.Good) (hval : rounds.value self = none) (hbuf : buf ≠ [])
    (hround : rounds.round self buf = .ok (next, rest)) : self.Advances buf next rest := by
  cases hgood with
  | multi below depth => exact advances_multi below depth hbuf hround
  | unknown good below depth some => exact advances_unknown good below depth some hbuf hround
  | part good below depth some => exact advances_part good below depth some hbuf hround
  | done => cases hval

theorem lawful : rounds.Lawful Good Exempt Fine where
  cut _ _ _ hgood hval ha hb := cut_round hgood hval ha hb
  good _ _ _ _ hgood hval hbuf hround := (advances_round hgood hval hbuf hround).1

theorem good_new : new.Good := .multi (fun _ h => absurd h List.not_mem_nil) rfl

theorem ends_total (hgood : self.Good) (hbuf : buf ≠ []) : ∃ o, rounds.Ends self buf o :=
  lawful.good.total (fun self buf => 2 * buf.length + self.rank)
    (fun _ _ _ _ hgood hval hbuf hround => (advances_round hgood hval hbuf hround).2)
    hgood (.inl hbuf)

end MimeMultiDecoder

end YlongHttp.Mime
