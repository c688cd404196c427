import YlongHttp.Library.Rounds
import YlongHttp.Model.Mime.Decoder

/-! # Header lines that are cut -/

namespace YlongHttp.Mime

open List

variable {a : Bytes}

theorem trimFrontLwsp_append_nil (h : trimFrontLwsp a = []) (b : Bytes) :
    trimFrontLwsp (a ++ b) = trimFrontLwsp b := by
  rw [trimFrontLwsp, dropWhile_append, if_pos (by rw [← trimFrontLwsp, h]; rfl)]
  rfl

theorem trimFrontLwsp_append_ne (h : trimFrontLwsp a ≠ []) (b : Bytes) :
    trimFrontLwsp (a ++ b) = trimFrontLwsp a ++ b := by
  rw [trimFrontLwsp, dropWhile_append, if_neg (by rw [← trimFrontLwsp]; simpa using h)]
  rfl

def skip (src buf : Bytes) : Bytes := if src.isEmpty then trimFrontLwsp buf else buf

theorem skip_append (src a b : Bytes) : skip src (a ++ b) = skip src a ++ skip (src ++ skip src a) b := by
  cases src with
  | cons c src => rfl
  | nil =>
    change trimFrontLwsp (a ++ b) = trimFrontLwsp a ++ skip (trimFrontLwsp a) b
    by_cases h : trimFrontLwsp a = []
    · rw [trimFrontLwsp_append_nil h, h]
      rfl
    · rw [trimFrontLwsp_append_ne h, skip, if_neg (by simpa using h)]

section Scan

variable {stop valid : UInt8 → Bool} {a : Bytes}

theorem scan_append_none (h : Http1.scan stop valid a = none) (b : Bytes) :
    Http1.scan stop valid (a ++ b) = none := by
  induction a with
  | nil => cases h
  | cons c a ih =>
    rw [Http1.scan] at h
    rw [cons_append, Http1.scan]
    split at h
    · cases h
    · split at h
      · rw [if_neg ‹_›, if_pos ‹_›, ih (Option.map_eq_none_iff.mp h)]
        rfl
      · rw [if_neg ‹_›, if_neg ‹_›]

theorem scan_append_open (h : Http1.scan stop valid a = some none) (b : Bytes) :
    Http1.scan stop valid (a ++ b) =
      (Http1.scan stop valid b).map (·.map fun (token, rest) => (a ++ token, rest)) := by
  induction a with
  | nil =>
    rw [nil_append]
    cases Http1.scan stop valid b with
    | none => rfl
    | some result => cases result <;> rfl
  | cons c a ih =>
    rw [Http1.scan] at h
    rw [cons_append, Http1.scan]
    split at h
    · cases h
    · split at h
      · obtain ⟨result, hres, hnone⟩ := Option.map_eq_some_iff.mp h
        rw [Option.map_eq_none_iff.mp hnone] at hres
        rw [if_neg ‹_›, if_pos ‹_›, ih hres]
        cases Http1.scan stop valid b with
        | none => rfl
        | some result => cases result <;> rfl
      · cases h

theorem scan_append_token {token rest : Bytes}
    (h : Http1.scan stop valid a = some (some (token, rest))) (b : Bytes) :
    Http1.scan stop valid (a ++ b) = some (some (token, rest ++ b)) ∧ rest ≠ [] ∧
      a = token ++ rest := by
  induction a generalizing token with
  | nil => cases h
  | cons c a ih =>
    rw [Http1.scan] at h
    rw [cons_append, Http1.scan]
    split at h
    · cases h
      rw [if_pos ‹_›]
      exact ⟨rfl, cons_ne_nil c a, rfl⟩
    · split at h
      · obtain ⟨result, hres, hsome⟩ := Option.map_eq_some_iff.mp h
        obtain ⟨⟨token', rest'⟩, rfl, heq⟩ := Option.map_eq_some_iff.mp hsome
        cases heq
        obtain ⟨hscan, hne, hsplit⟩ := ih hres
        rw [if_neg ‹_›, if_pos ‹_›, hscan, hsplit]
        exact ⟨rfl, hne, rfl⟩
      · cases h

end Scan

open Http1 (isHeaderNameByte isHeaderValueByte)

namespace DecodeHeaders

variable {found : Bytes → Bytes → Decoded (DecodeHeaders × Bytes)} {buf : Bytes}

def rounds : Library.Rounds DecodeHeaders Headers (Fault HttpError) UInt8 where
  value self := if self.stage = .done then some self.headers else none
  round := DecodeHeaders.round

/-- The states of the decoder. -/
structure Good (decoder : DecodeHeaders) : Prop where
  colon : decoder.stage ≠ .colon
  start : decoder.stage = .start → decoder.src = [] ∨ decoder.src = [cr]
  crlf : decoder.stage = .crlf → decoder.src = []

def Fine (self : DecodeHeaders) (b : Bytes) : Prop := self.stage = .crlf → b.head? ≠ some cr

def Exempt (e : Fault HttpError) : Prop := e = .panic

theorem value_none {self : DecodeHeaders} (h : self.stage ≠ .done) : rounds.value self = none :=
  if_neg h

theorem value_done {self : DecodeHeaders} (h : self.stage = .done) :
    rounds.value self = some self.headers :=
  if_pos h

theorem stage_of_value {self : DecodeHeaders} (h : rounds.value self = none) : self.stage ≠ .done :=
  fun hdone => by rw [value_done hdone] at h; cases h

/-- `start_decode` behind the spaces. -/
def startAt (self : DecodeHeaders) : Bytes → Decoded (DecodeHeaders × Bytes)
  | [] => .error .panic
  | b :: rest =>
    if b = cr then
      if self.isCrMeet then invalid
      else
        match rest with
        | [] => .ok ({ self with src := self.src ++ [cr] }, [])
        | b' :: rest => if b' = lf then .ok ({ self with stage := .done }, rest) else invalid
    else if b = lf then .ok ({ self with stage := .done }, rest)
    else if self.isCrMeet then invalid
    else .ok (self.checkNext, b :: rest)

theorem startDecode_eq (self : DecodeHeaders) (buf : Bytes) :
    self.startDecode buf = self.startAt (skip self.src buf) := by
  rw [startDecode, skip]
  cases (if self.src.isEmpty then trimFrontLwsp buf else buf) <;> rfl

variable {self next : DecodeHeaders} {a b rest : Bytes}

theorem isCrMeet_iff : self.isCrMeet = true ↔ self.src = [cr] := by simp [isCrMeet]

theorem cut_start (hstage : self.stage = .start) (hsrc : self.src = [] ∨ self.src = [cr])
    (hb : b ≠ []) : rounds.Cut Exempt Fine self a b := by
  have hround : ∀ buf, rounds.round self buf = self.startAt (skip self.src buf) := by
    intro buf
    rw [← startDecode_eq]
    change self.round buf = _
    rw [round, hstage]
  rw [Library.Rounds.Cut, hround, hround, skip_append]
  cases ha : skip self.src a with
  | nil => exact .inl rfl
  | cons c rest =>
    have hskip : skip (self.src ++ c :: rest) b = b := by rw [skip, if_neg (by simp)]
    rw [hskip, cons_append]
    simp only [startAt]
    by_cases hc : c = cr
    · rw [if_pos hc, if_pos hc]
      by_cases hmeet : self.isCrMeet = true
      · rw [if_pos hmeet, if_pos hmeet]
        exact .inr rfl
      · rw [if_neg hmeet, if_neg hmeet]
        have hnil : self.src = [] := hsrc.resolve_right fun h => hmeet (isCrMeet_iff.mpr h)
        cases rest with
        | nil =>
          refine .inr ⟨rfl, value_none (by rw [hstage]; simp), fun _ => ?_⟩
          obtain ⟨d, b, rfl⟩ := exists_cons_of_ne_nil hb
          have hnext : rounds.round { self with src := self.src ++ [cr] } (d :: b) =
              startAt { self with src := self.src ++ [cr] } (d :: b) := by
            change round _ _ = _
            rw [round]
            simp only [hstage]
            rw [startDecode_eq, skip, if_neg (by simp)]
          rw [hnext, nil_append]
          have hmeet' : isCrMeet { self with src := self.src ++ [cr] } = true := by
            rw [isCrMeet_iff, hnil]
            rfl
          simp only [startAt, hmeet', if_true]
          by_cases hd : d = lf
          · have hcr : d ≠ cr := by rw [hd]; decide
            simp only [if_pos hd, if_neg hcr]
            exact .inr ⟨_, _, _, _, rfl, rfl, rfl, rfl⟩
          · simp only [hd, if_false, ite_self]
            exact .inl rfl
        | cons d rest =>
          rw [cons_append]
          dsimp only
          by_cases hd : d = lf
          · rw [if_pos hd, if_pos hd]
            exact .inl rfl
          · rw [if_neg hd, if_neg hd]
            exact .inr rfl
    · rw [if_neg hc, if_neg hc]
      by_cases hlf : c = lf
      · rw [if_pos hlf, if_pos hlf]
        exact .inl rfl
      · rw [if_neg hlf, if_neg hlf]
        by_cases hmeet : self.isCrMeet = true
        · rw [if_pos hmeet, if_pos hmeet]
          exact .inr rfl
        · rw [if_neg hmeet, if_neg hmeet]
          exact .inl rfl

/-- A name or a value: `found` is what its end leads to. -/
def tokenAt (self : DecodeHeaders) (stop valid : UInt8 → Bool)
    (found : Bytes → Bytes → Decoded (DecodeHeaders × Bytes)) (buf : Bytes) :
    Decoded (DecodeHeaders × Bytes) :=
  match Http1.scan stop valid (skip self.src buf) with
  | none => invalid
  | some none => .ok ({ self with src := self.src ++ skip self.src buf }, [])
  | some (some (token, unparsed)) => found (self.src ++ token) unparsed

variable {stop valid : UInt8 → Bool}

theorem cut_token (hstage : self.stage ≠ .done)
    (hself : ∀ buf, rounds.round self buf = self.tokenAt stop valid found buf)
    (hnext : ∀ src buf, rounds.round { self with src } buf =
      tokenAt { self with src } stop valid found buf)
    (hfound : ∀ token unparsed, unparsed ≠ [] → (∀ more, found token (unparsed ++ more) = invalid) ∨
      ∃ next rest, ∀ more, found token (unparsed ++ more) = .ok (next, rest ++ more)) :
    rounds.Cut Exempt Fine self a b := by
  rw [Library.Rounds.Cut, hself, hself, tokenAt, tokenAt, skip_append]
  cases hscan : Http1.scan stop valid (skip self.src a) with
  | none =>
    rw [scan_append_none hscan]
    exact .inr rfl
  | some result =>
    cases result with
    | none =>
      refine .inr ⟨rfl, value_none hstage, fun _ => .inl ?_⟩
      rw [hnext, tokenAt, scan_append_open hscan]
      dsimp only
      cases Http1.scan stop valid (skip (self.src ++ skip self.src a) b) with
      | none => rfl
      | some result =>
        cases result with
        | none => simp
        | some found => simp
    | some result =>
      obtain ⟨token, unparsed⟩ := result
      obtain ⟨happend, hne, hsplit⟩ :=
        scan_append_token hscan (skip (self.src ++ skip self.src a) b)
      have hskip : skip (self.src ++ skip self.src a) b = b := by
        rw [hsplit, skip, if_neg (by simp [hne])]
      rw [happend, hskip]
      dsimp only
      rcases hfound (self.src ++ token) unparsed hne with hwrong | ⟨next, rest, hright⟩
      · have hnil := hwrong []
        rw [append_nil] at hnil
        rw [hnil, hwrong]
        exact .inr rfl
      · have hnil := hright []
        rw [append_nil, append_nil] at hnil
        rw [hnil, hright]
        exact .inl rfl

theorem round_name (hstage : self.stage = .name) (buf : Bytes) :
    rounds.round self buf = self.tokenAt (· = ':'.toUInt8) isHeaderNameByte
      (fun name unparsed =>
        .ok ({ self with stage := .value, nameSrc := name, src := [] }, unparsed.tail)) buf := by
  change self.round buf = _
  rw [round, hstage]
  dsimp only
  rw [nameDecode, tokenAt, token, skip]
  cases Http1.scan (· = ':'.toUInt8) isHeaderNameByte
    (if self.src.isEmpty then trimFrontLwsp buf else buf) with
  | none => rfl
  | some result =>
    cases result with
    | none => rfl
    | some result => simp [checkNext, hstage]

def insertValue (self : DecodeHeaders) (value : Bytes) : Decoded DecodeHeaders :=
  match self.headers.insert (trimFrontLwsp self.nameSrc) (trimFrontLwsp value) with
  | none => invalid
  | some headers => .ok { self with stage := .crlf, nameSrc := [], src := [], headers }

theorem round_value (hstage : self.stage = .value) (buf : Bytes) :
    rounds.round self buf = self.tokenAt (fun b => b = cr || b = lf) isHeaderValueByte
      (fun value unparsed => (self.insertValue value).map (·, unparsed)) buf := by
  change self.round buf = _
  rw [round, hstage]
  dsimp only
  rw [valueDecode, tokenAt, token, skip]
  cases Http1.scan (fun b => b = cr || b = lf) isHeaderValueByte
    (if self.src.isEmpty then trimFrontLwsp buf else buf) with
  | none => rfl
  | some result =>
    cases result with
    | none => rfl
    | some result =>
      obtain ⟨token, unparsed⟩ := result
      dsimp only
      rw [insertValue]
      cases self.headers.insert (trimFrontLwsp self.nameSrc)
        (trimFrontLwsp (self.src ++ token)) with
      | none => rfl
      | some headers => simp [checkNext, hstage, Except.map]

theorem consumeCrlf_cons (c : UInt8) (rest : Bytes) :
    consumeCrlf (c :: rest) false =
      if c = cr then
        match rest with
        | [] => .ok none
        | d :: rest => if d = lf then .ok (some rest) else invalid
      else if c = lf then .ok (some rest)
      else invalid := by
  have hcr : Http1.cr = cr := rfl
  have hlf : Http1.lf = lf := rfl
  rw [consumeCrlf, Http1.consumeCrlf.eq_def, hcr, hlf]
  dsimp only
  by_cases hc : c = cr
  · rw [if_pos hc, if_pos hc]
    cases rest with
    | nil => rfl
    | cons d rest => by_cases hd : d = lf <;> simp [hd]
  · rw [if_neg hc, if_neg hc]
    by_cases hc' : c = lf <;> simp [hc']

theorem round_crlf (hstage : self.stage = .crlf) (hsrc : self.src = []) (buf : Bytes) :
    rounds.round self buf =
      match consumeCrlf buf false with
      | .error e => .error e
      | .ok none => .ok (self, [])
      | .ok (some unparsed) => .ok ({ self with stage := .start, src := [] }, unparsed) := by
  change self.round buf = _
  rw [round, hstage]
  dsimp only
  have hmeet : self.isCrMeet = false := by rw [isCrMeet, hsrc]; rfl
  rw [crlfDecode, hmeet]
  cases consumeCrlf buf false with
  | error e => rfl
  | ok result =>
    cases result with
    | none => rfl
    | some unparsed => simp [checkNext, hstage]

theorem cut_crlf (hstage : self.stage = .crlf) (hsrc : self.src = []) (ha : a ≠ []) (hb : b ≠ []) :
    rounds.Cut Exempt Fine self a b := by
  have hround := round_crlf hstage hsrc
  rw [Library.Rounds.Cut, hround, hround]
  obtain ⟨c, rest, rfl⟩ := exists_cons_of_ne_nil ha
  by_cases hc : c = cr
  · cases rest with
    | nil =>
      obtain ⟨d, b, rfl⟩ := exists_cons_of_ne_nil hb
      simp only [consumeCrlf_cons, hc, cons_append, nil_append, if_true]
      refine .inr ⟨trivial, value_none (by rw [hstage]; simp), fun hfine => .inl ?_⟩
      have hd : d ≠ cr := fun heq => hfine hstage (by rw [heq]; rfl)
      rw [hround, consumeCrlf_cons, if_neg hd]
    | cons d rest =>
      simp only [consumeCrlf_cons, hc, cons_append, if_true]
      by_cases hd : d = lf
      · rw [if_pos hd, if_pos hd]
        exact .inl rfl
      · rw [if_neg hd, if_neg hd]
        exact .inr rfl
  · simp only [consumeCrlf_cons, if_neg hc, cons_append]
    by_cases hlf : c = lf
    · rw [if_pos hlf, if_pos hlf]
      exact .inl rfl
    · rw [if_neg hlf, if_neg hlf]
      exact .inr rfl

theorem cut_round (hgood : self.Good) (hval : rounds.value self = none) (ha : a ≠ [])
    (hb : b ≠ []) : rounds.Cut Exempt Fine self a b := by
  have hdone := stage_of_value hval
  cases hstage : self.stage with
  | start => exact cut_start hstage (hgood.start hstage) hb
  | name =>
    refine cut_token hdone (round_name hstage) (fun src buf => @round_name { self with src } hstage buf) ?_
    intro token unparsed hne
    refine .inr ⟨{ self with stage := .value, nameSrc := token, src := [] }, unparsed.tail, ?_⟩
    intro more
    rw [tail_append_of_ne_nil hne]
  | colon => exact absurd hstage hgood.colon
  | value =>
    refine cut_token hdone (round_value hstage) (fun src buf => @round_value { self with src } hstage buf) ?_
    intro token unparsed hne
    cases hinsert : self.insertValue token with
    | error e =>
      have he : (Except.error e : Decoded DecodeHeaders) = invalid := by
        rw [← hinsert, insertValue]
        rw [insertValue] at hinsert
        split at hinsert
        · rfl
        · cases hinsert
      cases he
      exact .inl fun more => rfl
    | ok next => exact .inr ⟨next, unparsed, fun more => rfl⟩
  | crlf => exact cut_crlf hstage (hgood.crlf hstage) ha hb
  | done => exact absurd hstage hdone

theorem length_skip (src buf : Bytes) : (skip src buf).length ≤ buf.length := by
  rw [skip]
  split
  · exact (dropWhile_suffix isLwsp).length_le
  · exact le_rfl

def rank (self : DecodeHeaders) : ℕ :=
  match self.stage with
  | .start => 3
  | .name => 2
  | .value => 1
  | _ => 0

def Advances (self : DecodeHeaders) (buf : Bytes) (next : DecodeHeaders) (rest : Bytes) : Prop :=
  next.Good ∧ 4 * rest.length + next.rank < 4 * buf.length + self.rank

theorem Good.of_stage (h : self.stage = .name ∨ self.stage = .value ∨ self.stage = .done) :
    self.Good := by
  rcases h with h | h | h <;> exact ⟨by rw [h]; nofun, by rw [h]; nofun, by rw [h]; nofun⟩

theorem advances_start (hgood : self.Good) (hstage : self.stage = .start) (hbuf : buf ≠ [])
    (hround : self.round buf = .ok (next, rest)) : self.Advances buf next rest := by
  have hlen := length_skip self.src buf
  have hpos := length_pos_of_ne_nil hbuf
  have hrank : self.rank = 3 := by rw [rank, hstage]
  have hdone : (rank { self with stage := .done }) = 0 := rfl
  rw [round, hstage] at hround
  dsimp only at hround
  rw [startDecode_eq] at hround
  cases hskip : skip self.src buf with
  | nil =>
    rw [hskip] at hround
    cases hround
  | cons c text =>
    rw [hskip] at hround hlen
    rw [length_cons] at hlen
    simp only [startAt] at hround
    split at hround
    · split at hround
      · cases hround
      · next hmeet =>
          cases text with
          | nil =>
            cases hround
            refine ⟨⟨by rw [hstage]; nofun, fun _ => .inr ?_, by rw [hstage]; nofun⟩, ?_⟩
            · rw [(hgood.start hstage).resolve_right fun h => hmeet (isCrMeet_iff.mpr h)]
              rfl
            · change 4 * 0 + self.rank < _
              omega
          | cons d text =>
            dsimp only at hround
            split at hround
            · cases hround
              refine ⟨.of_stage (.inr (.inr rfl)), ?_⟩
              rw [length_cons] at hlen
              rw [hdone]
              omega
            · cases hround
    · split at hround
      · cases hround
        refine ⟨.of_stage (.inr (.inr rfl)), ?_⟩
        rw [hdone]
        omega
      · split at hround
        · cases hround
        · cases hround
          have hnext : self.checkNext = { self with stage := .name } := by rw [checkNext, hstage]
          rw [hnext]
          refine ⟨.of_stage (.inl rfl), ?_⟩
          have htwo : rank { self with stage := .name } = 2 := rfl
          rw [htwo, length_cons]
          omega

theorem advances_token (hstage : self.stage = .name ∨ self.stage = .value) (hbuf : buf ≠ [])
    (hself : self.tokenAt stop valid found buf = .ok (next, rest))
    (hfound : ∀ token unparsed next rest, unparsed ≠ [] → found token unparsed = .ok (next, rest) →
      next.Good ∧ 4 * rest.length + next.rank < 4 * unparsed.length + self.rank) :
    self.Advances buf next rest := by
  have hlen := length_skip self.src buf
  have hpos := length_pos_of_ne_nil hbuf
  rw [tokenAt] at hself
  cases hscan : Http1.scan stop valid (skip self.src buf) with
  | none =>
    rw [hscan] at hself
    cases hself
  | some result =>
    rw [hscan] at hself
    cases result with
    | none =>
      cases hself
      refine ⟨.of_stage (hstage.imp_right .inl), ?_⟩
      change 4 * 0 + self.rank < _
      omega
    | some result =>
      obtain ⟨token, unparsed⟩ := result
      obtain ⟨-, hne, hsplit⟩ := scan_append_token hscan []
      obtain ⟨hnext, hlt⟩ := hfound _ unparsed next rest hne hself
      refine ⟨hnext, hlt.trans_le ?_⟩
      rw [hsplit, length_append] at hlen
      omega

theorem advances_crlf (hgood : self.Good) (hstage : self.stage = .crlf) (hbuf : buf ≠ [])
    (hround : self.round buf = .ok (next, rest)) : self.Advances buf next rest := by
  have hmeet : self.isCrMeet = false := by rw [isCrMeet, hgood.crlf hstage]; rfl
  have hrank : self.rank = 0 := by rw [rank, hstage]
  obtain ⟨c, text, rfl⟩ := exists_cons_of_ne_nil hbuf
  have hready : self.checkNext = { self with stage := .start, src := [] } := by
    rw [checkNext, hstage]
  have hnew : Good { self with stage := .start, src := [] } := ⟨nofun, fun _ => .inl rfl, nofun⟩
  have hthree : rank { self with stage := .start, src := [] } = 3 := rfl
  rw [round, hstage] at hround
  dsimp only at hround
  rw [crlfDecode, hmeet, consumeCrlf_cons, hready] at hround
  by_cases hc : c = cr
  · rw [if_pos hc] at hround
    cases text with
    | nil =>
      cases hround
      refine ⟨hgood, ?_⟩
      rw [length_nil, length_cons]
      omega
    | cons d text =>
      dsimp only at hround
      by_cases hd : d = lf
      · rw [if_pos hd] at hround
        cases hround
        refine ⟨hnew, ?_⟩
        rw [hthree, length_cons, length_cons]
        omega
      · rw [if_neg hd] at hround
        cases hround
  · rw [if_neg hc] at hround
    by_cases hlf : c = lf
    · rw [if_pos hlf] at hround
      cases hround
      refine ⟨hnew, ?_⟩
      rw [hthree, length_cons]
      omega
    · rw [if_neg hlf] at hround
      cases hround

theorem advances_round (hgood : self.Good) (hval : rounds.value self = none) (hbuf : buf ≠ [])
    (hround : rounds.round self buf = .ok (next, rest)) : self.Advances buf next rest := by
  cases hstage : self.stage with
  | start => exact advances_start hgood hstage hbuf hround
  | name =>
    rw [round_name hstage] at hround
    refine advances_token (.inl hstage) hbuf hround ?_
    intro token unparsed next rest hne hfound
    cases hfound
    refine ⟨.of_stage (.inr (.inl rfl)), ?_⟩
    have hrank : self.rank = 2 := by rw [rank, hstage]
    have hone : rank { self with stage := .value, nameSrc := token, src := [] } = 1 := rfl
    have hlen := length_tail (l := unparsed)
    rw [hone, hrank, hlen]
    omega
  | colon => exact absurd hstage hgood.colon
  | value =>
    rw [round_value hstage] at hround
    refine advances_token (.inr hstage) hbuf hround ?_
    intro token unparsed next rest hne hfound
    have hrank : self.rank = 1 := by rw [rank, hstage]
    rw [insertValue] at hfound
    split at hfound
    · cases hfound
    · cases hfound
      refine ⟨⟨nofun, nofun, fun _ => rfl⟩, ?_⟩
      change 4 * unparsed.length + 0 < _
      omega
  | crlf => exact advances_crlf hgood hstage hbuf hround
  | done => exact absurd hstage (stage_of_value hval)

theorem lawful : rounds.Lawful Good Exempt Fine where
  cut _ _ _ hgood hval ha hb := cut_round hgood hval ha hb
  good _ _ _ _ hgood hval hbuf hround := (advances_round hgood hval hbuf hround).1

theorem decodeLoop_ends {fuel : ℕ} (hgood : self.Good) (hbuf : buf ≠ [] ∨ rounds.value self ≠ none)
    (hfuel : 4 * buf.length + self.rank < fuel) : match self.decodeLoop fuel buf with
    | .error e => rounds.Ends self buf (.error e)
    | .ok (next, none, rest) => rest = [] ∧ rounds.Ends self buf (.more next)
    | .ok (_, some headers, rest) => rounds.Ends self buf (.complete headers rest) := by
  induction fuel generalizing self buf with
  | zero => exact absurd hfuel (Nat.not_lt_zero _)
  | succ fuel ih =>
    rw [decodeLoop]
    by_cases hstage : self.stage = .done
    · rw [if_pos hstage]
      exact .complete (value_done hstage)
    · have hval := value_none hstage
      have hne := hbuf.resolve_right (absurd hval)
      rw [if_neg hstage]
      cases hround : self.round buf with
      | error e => exact .error hval hround
      | ok result =>
        obtain ⟨next, rest⟩ := result
        obtain ⟨hnext, hlt⟩ := advances_round hgood hval hne hround
        dsimp only
        by_cases hend : rest.isEmpty = true ∧ next.stage ≠ .done
        · have hrest : rest = [] := by simpa using hend.1
          subst hrest
          rw [if_pos hend]
          exact ⟨rfl, .more hval hround (value_none hend.2)⟩
        · have hleft : rest ≠ [] ∨ rounds.value next ≠ none := by
            by_cases hrest : rest = []
            · exact .inr fun hnone => hend ⟨by rw [hrest]; rfl, stage_of_value hnone⟩
            · exact .inl hrest
          have hlater := ih hnext hleft (hlt.trans_le (Nat.lt_succ_iff.mp hfuel))
          rw [if_neg hend]
          rcases hloop : decodeLoop fuel next rest with e | ⟨last, headers | headers, after⟩
          · rw [hloop] at hlater
            exact .step hval hround hleft hlater
          · rw [hloop] at hlater
            exact ⟨hlater.1, .step hval hround hleft hlater.2⟩
          · rw [hloop] at hlater
            exact .step hval hround hleft hlater

theorem decode_ends (hgood : self.Good) (hbuf : buf ≠ []) : match self.decode buf with
    | .error e => rounds.Ends self buf (.error e)
    | .ok (next, none, rest) => rest = [] ∧ rounds.Ends self buf (.more next)
    | .ok (_, some headers, rest) => rounds.Ends self buf (.complete headers rest) := by
  rw [decode, if_neg (by simpa using hbuf)]
  refine decodeLoop_ends hgood (.inl hbuf) ?_
  have hrank : self.rank ≤ 3 := by
    rw [rank]
    split <;> omega
  omega

theorem ends_total (hgood : self.Good) (hbuf : buf ≠ []) : ∃ o, rounds.Ends self buf o := by
  refine lawful.good.total (fun self buf => 4 * buf.length + self.rank) ?_ hgood (.inl hbuf)
  intro s buf next rest hgood hval hbuf hround
  exact (advances_round hgood hval hbuf hround).2

theorem complete_le {headers : Headers} (hgood : self.Good) (hbuf : buf ≠ [])
    (hends : rounds.Ends self buf (.complete headers rest)) : rest.length ≤ buf.length := by
  cases hval : rounds.value self with
  | some value =>
    cases hends.unique (.complete hval)
    exact le_rfl
  | none => ?_
  obtain ⟨last, -, hlt⟩ := lawful.complete_lt (fun self buf => 4 * buf.length + self.rank)
    (fun _ _ _ _ hgood hval hbuf hround => (advances_round hgood hval hbuf hround).2)
    hgood hbuf hval hends
  have hrank : self.rank ≤ 3 := by
    rw [rank]
    split <;> omega
  omega

theorem good_new : new.Good := ⟨nofun, fun _ => .inl rfl, nofun⟩

end DecodeHeaders

end YlongHttp.Mime
