import YlongHttp.Model.Mime.FormData

/-! # Form data are delivered as they are framed, and again when they are reused -/

namespace YlongHttp.FormData

open List

variable {room : ℕ} {answers : List Answer} {out : Bytes} {polled : Polled}

/-! ## States -/

def MultiPartState.text (self : MultiPartState) : Bytes := self.content.drop self.pos

def MultiPartState.rewound (self : MultiPartState) : MultiPartState := { self with pos := 0 }

theorem MultiPartState.take_text (state : MultiPartState) (n : ℕ) :
    (state.take n).1 ++ (state.take n).2.text = state.text := by
  have htake : (state.take n).1 = state.text.take (state.take n).1.length := by
    simp [MultiPartState.take, MultiPartState.text, take_eq_take_iff]
  have hdrop : (state.take n).2.text = state.text.drop (state.take n).1.length := drop_drop.symm
  have hwhole := take_append_drop (state.take n).1.length state.text
  rwa [← htake, ← hdrop] at hwhole

/-- The readers have an answer that is neither `Pending` nor an error. -/
def answered : List Answer → Bool
  | .give _ :: _ => true
  | _ => false

variable {outcomes : List (Option ℕ)}

namespace MultiPartStates

variable {self next : MultiPartStates}

def text (self : MultiPartStates) : Bytes := self.ahead.flatMap (·.text)

def all (self : MultiPartStates) : List MultiPartState := self.passed.reverse ++ self.ahead

/-- The states are those of before, some of them further read, and so is what was read of them. -/
structure Reads (states : MultiPartStates) (out : Bytes) (next : MultiPartStates) : Prop where
  text_eq : out ++ next.text = states.text
  all_eq : next.all.map (·.rewound) = states.all.map (·.rewound)

theorem Reads.refl : Reads self [] self := ⟨rfl, rfl⟩

theorem Reads.trans {more : Bytes} {last : MultiPartStates} (h : Reads self out next)
    (hnext : Reads next more last) : Reads self (out ++ more) last :=
  ⟨by rw [append_assoc, hnext.text_eq, h.text_eq], hnext.all_eq.trans h.all_eq⟩

theorem reads_take {state : MultiPartState} {ahead : List MultiPartState} {n : ℕ} {past : Prop}
    [Decidable past] (hahead : self.ahead = state :: ahead)
    (hpast : past → (state.take n).1 = state.text) :
    Reads self (state.take n).1 (if past then
        { passed := (state.take n).2 :: self.passed, ahead }
      else { self with ahead := (state.take n).2 :: ahead }) := by
  have hrewound : (state.take n).2.rewound = state.rewound := rfl
  split_ifs with h
  · refine ⟨?_, by simp [all, hahead, hrewound]⟩
    rw [hpast h, text, text, hahead, flatMap_cons]
  · refine ⟨?_, by simp [all, hahead, hrewound]⟩
    simp only [text, hahead, flatMap_cons]
    rw [← append_assoc, MultiPartState.take_text]

variable {rest : List Answer}

theorem pollReadCurr_reads (hroom : room ≠ 0)
    (h : self.pollReadCurr room answers = (next, out, polled, rest)) : Reads self out next := by
  rw [pollReadCurr] at h
  cases hahead : self.ahead with
  | nil =>
    rw [hahead] at h
    cases h
    exact .refl
  | cons state ahead =>
    rw [hahead] at h
    cases hsource : state.source with
    | bytes =>
      simp only [hsource] at h
      cases h
      refine reads_take hahead fun hshort => take_of_length_le ?_
      have hmin : (state.text.take room).length < room := hshort
      rw [length_take] at hmin
      change state.text.length ≤ room
      omega
    | stream rewinds =>
      simp only [hsource] at h
      rcases answers with _ | ⟨_ | _ | n, answers⟩ <;> cases h
      · exact .refl
      · exact .refl
      · exact .refl
      · refine reads_take hahead fun hnil => ?_
        rw [hnil]
        rcases take_eq_nil_iff.mp hnil with hzero | hempty
        · omega
        · exact hempty.symm

theorem pollRead_reads (h : self.pollRead room answers = (next, out, polled)) :
    Reads self out next ∧ (polled = .ready → out.length < room → next.text = []) := by
  fun_induction pollRead self room answers generalizing out next polled with
  | case1 self answers =>
    cases h
    exact ⟨.refl, fun _ hlt => absurd hlt (Nat.not_lt_zero _)⟩
  | case2 self room answers hroom hahead =>
    cases h
    exact ⟨.refl, fun _ _ => by rw [text, hahead]; rfl⟩
  | case3 self room answers hroom hahead next' out' answers' hcurr last more polled' hlast ih =>
    cases h
    obtain ⟨hreads, hready⟩ := ih hlast
    refine ⟨(pollReadCurr_reads hroom hcurr).trans hreads, fun hpolled hlt => hready hpolled ?_⟩
    rw [length_append] at hlt
    omega
  | case4 self room answers hroom hahead next' out' polled' answers' hpolled hcurr =>
    cases h
    exact ⟨pollReadCurr_reads hroom hcurr, fun hready => absurd hready hpolled⟩

/-- What is left to read: octets, and states to pass. -/
def left (self : MultiPartStates) : ℕ := self.text.length + self.ahead.length

theorem pollReadCurr_left (hroom : room ≠ 0) (hahead : self.ahead ≠ [])
    (h : self.pollReadCurr room answers = (next, out, polled, rest)) :
    (polled = .ready → next.left < self.left) ∧
      (polled ≠ .ready → next = self ∧ answered answers = false) := by
  have htext := congrArg length (pollReadCurr_reads hroom h).text_eq
  rw [length_append] at htext
  rw [pollReadCurr] at h
  cases hstates : self.ahead with
  | nil => exact absurd hstates hahead
  | cons state ahead =>
    rw [hstates] at h
    -- A state that is not passed has given an octet.
    cases hsource : state.source with
    | bytes =>
      simp only [hsource] at h
      cases h
      refine ⟨fun _ => ?_, fun hready => absurd rfl hready⟩
      rw [left, left, hstates]
      split_ifs at htext ⊢ <;> simp only [length_cons] <;> omega
    | stream rewinds =>
      simp only [hsource] at h
      rcases answers with _ | ⟨_ | _ | n, answers⟩ <;> cases h
      · exact ⟨(by rintro ⟨⟩), fun _ => ⟨rfl, rfl⟩⟩
      · exact ⟨(by rintro ⟨⟩), fun _ => ⟨rfl, rfl⟩⟩
      · exact ⟨(by rintro ⟨⟩), fun _ => ⟨rfl, rfl⟩⟩
      · refine ⟨fun _ => ?_, fun hready => absurd rfl hready⟩
        rw [left, left, hstates]
        split_ifs at htext ⊢ with hnil
        · simp only [length_cons]
          omega
        · have hpos := length_pos_iff.mpr hnil
          simp only [length_cons]
          omega

theorem pollRead_left (h : self.pollRead room answers = (next, out, polled)) :
    next.left ≤ self.left ∧ (room ≠ 0 → self.ahead ≠ [] → answered answers = true →
      next.left < self.left) := by
  fun_induction pollRead self room answers generalizing out next polled with
  | case1 self answers =>
    cases h
    exact ⟨le_rfl, fun hroom => absurd rfl hroom⟩
  | case2 self room answers hroom hahead =>
    cases h
    exact ⟨le_rfl, fun _ hne => absurd hahead hne⟩
  | case3 self room answers hroom hahead next' out' answers' hcurr last more polled' hlast ih =>
    cases h
    have hlt := ((pollReadCurr_left hroom hahead hcurr).1 rfl).trans_le' (ih hlast).1
    exact ⟨hlt.le, fun _ _ _ => hlt⟩
  | case4 self room answers hroom hahead next' out' polled' answers' hpolled hcurr =>
    cases h
    obtain ⟨rfl, hanswers⟩ := (pollReadCurr_left hroom hahead hcurr).2 hpolled
    exact ⟨le_rfl, fun _ _ hanswered => by rw [hanswers] at hanswered; cases hanswered⟩

theorem reuse_rewound {outcomes : List (Option ℕ)} :
    (self.reuse outcomes).1.all.map (·.rewound) = self.all.map (·.rewound) ∧
      ((∀ state ∈ self.all, state.source ≠ .stream false) → (self.reuse outcomes).2 = true →
        (self.reuse outcomes).1.ahead = self.all.map (·.rewound)) := by
  have hall : ∀ (states : List MultiPartState) (outcomes : List (Option ℕ)),
      (reuseAll states outcomes).1.map (·.rewound) = states.map (·.rewound) ∧
        ((∀ state ∈ states, state.source ≠ .stream false) → (reuseAll states outcomes).2 = true →
          (reuseAll states outcomes).1 = states.map (·.rewound)) := by
    intro states
    induction states with
    | nil => exact fun _ => ⟨rfl, fun _ _ => rfl⟩
    | cons state states ih =>
      intro outcomes
      obtain ⟨source, content, pos⟩ := state
      cases source with
      | bytes =>
        obtain ⟨hsame, hahead⟩ := ih outcomes
        refine ⟨congrArg (_ :: ·) hsame, fun hback hok => ?_⟩
        exact congrArg (_ :: ·) (hahead (forall_mem_cons.mp hback).2 hok)
      | stream rewinds =>
        simp only [reuseAll]
        cases outcomes.head?.join with
        | some pos => exact ⟨rfl, nofun⟩
        | none =>
          obtain ⟨hsame, hahead⟩ := ih outcomes.tail
          cases rewinds with
          | false =>
            refine ⟨congrArg (_ :: ·) hsame, fun hback _ => ?_⟩
            exact absurd rfl (hback _ (.head _))
          | true =>
            refine ⟨congrArg (_ :: ·) hsame, fun hback hok => ?_⟩
            exact congrArg (_ :: ·) (hahead (forall_mem_cons.mp hback).2 hok)
  exact hall self.all outcomes

theorem reuse_ok (self : MultiPartStates) (h : ∀ outcome ∈ outcomes, outcome = none) :
    (self.reuse outcomes).2 = true := by
  have hall : ∀ (states : List MultiPartState) (outcomes : List (Option ℕ)),
      (∀ outcome ∈ outcomes, outcome = none) → (reuseAll states outcomes).2 = true := by
    intro states
    induction states with
    | nil => exact fun _ _ => rfl
    | cons state states ih =>
      intro outcomes h
      rw [reuseAll]
      split
      · exact ih outcomes h
      · have hhead : outcomes.head?.join = none := by
          cases outcomes with
          | nil => rfl
          | cons outcome => exact h outcome (.head _)
        rw [hhead]
        exact ih _ fun outcome hmem => h outcome (mem_of_mem_tail hmem)
  exact hall _ outcomes h

end MultiPartStates

/-! ## Messages -/

/-- A part in the format of form data. -/
def Part.framing (boundary : Bytes) (part : Part) : Bytes :=
  str "--" ++ boundary ++ str "\r\n" ++ str "Content-Disposition: form-data" ++
    (part.name.map fun name => str "; name=\"" ++ name ++ str "\"").getD [] ++
    (part.fileName.map fun name => str "; filename=\"" ++ name ++ str "\"").getD [] ++ str "\r\n" ++
    (part.mime.map fun mime => str "Content-Type: " ++ mime ++ str "\r\n").getD [] ++
    str "\r\n" ++ (part.body.map (·.content)).getD [] ++ str "\r\n"

namespace MultiPart

variable {start self next : MultiPart}

def framing (self : MultiPart) : Bytes :=
  self.parts.flatMap (·.framing self.boundary) ++ str "--" ++ self.boundary ++ str "--\r\n"

/-- Nothing was read yet, and the readers stand at their starts. -/
structure Fresh (message : MultiPart) : Prop where
  never : message.status = .never
  body : ∀ part ∈ message.parts, ∀ state ∈ part.body, state.pos = 0

def text (self : MultiPart) : Bytes :=
  match self.status with
  | .never => self.states.flatMap (·.text)
  | .reading states => states.text
  | .finish _ => []

theorem states_rewound (h : self.Fresh) : self.states.map (·.rewound) = self.states := by
  have hpart : ∀ part ∈ self.parts,
      (part.states self.boundary).map (·.rewound) = part.states self.boundary := by
    intro part hpart
    obtain ⟨name, fileName, mime, length, _ | ⟨source, content, pos⟩⟩ := part
    · cases name <;> cases fileName <;> cases mime <;> rfl
    · obtain rfl : pos = 0 := h.body _ hpart _ rfl
      cases name <;> cases fileName <;> cases mime <;> rfl
  rw [states, map_append, map_flatMap, flatMap_congr hpart]
  rfl

theorem states_text (h : self.Fresh) : self.states.flatMap (·.text) = self.framing := by
  have hpart : ∀ part ∈ self.parts,
      (part.states self.boundary).flatMap (·.text) = part.framing self.boundary := by
    intro part hpart
    obtain ⟨name, fileName, mime, length, _ | ⟨source, content, pos⟩⟩ := part
    · cases name <;> cases fileName <;> cases mime <;>
        simp [Part.states, Part.framing, around, bytes, MultiPartState.text]
    · obtain rfl : pos = 0 := h.body _ hpart _ rfl
      cases name <;> cases fileName <;> cases mime <;>
        simp [Part.states, Part.framing, around, bytes, MultiPartState.text]
  rw [states, framing, flatMap_append, flatMap_assoc, flatMap_congr hpart]
  simp [bytes, MultiPartState.text]

def Has (self : MultiPart) (states : MultiPartStates) : Prop :=
  self.status = .reading states ∨ self.status = .finish states

def Holds (start self : MultiPart) : Prop :=
  self = start ∨ ∃ states, self.Has states ∧ states.all.map (·.rewound) = start.states

variable {states : MultiPartStates} {boundary : Bytes}

theorem pollReading_spec (hstat : self.status = .reading states)
    (h : self.pollReading states room answers = (next, out, polled)) :
    out ++ next.text = states.text ∧ (polled = .ready → out = [] → 0 < room → states.text = []) ∧
      ∃ states', next.Has states' ∧ states'.all.map (·.rewound) = states.all.map (·.rewound) := by
  rw [pollReading] at h
  split_ifs at h with hroom
  · cases h
    refine ⟨?_, fun _ _ hpos => absurd hroom hpos.ne', states, .inl hstat, rfl⟩
    rw [text, hstat]
    rfl
  · cases hread : states.pollRead room answers with
    | mk states' read =>
      obtain ⟨out', polled'⟩ := read
      obtain ⟨⟨htext, hall⟩, hready⟩ := MultiPartStates.pollRead_reads hread
      rw [hread] at h
      cases polled' with
      | ready =>
        cases h
        have hdone : out = [] → states'.text = [] := fun hnil =>
          hready rfl (by rw [hnil]; exact Nat.pos_of_ne_zero hroom)
        by_cases hnil : out = []
        · rw [if_pos hnil]
          refine ⟨?_, fun _ _ _ => ?_, states', .inr rfl, hall⟩
          · rw [← htext, hdone hnil]
            rfl
          · rw [← htext, hdone hnil, hnil]
            rfl
        · rw [if_neg hnil]
          exact ⟨htext, fun _ hempty => absurd hempty hnil, states', .inl rfl, hall⟩
      | pending =>
        cases h
        refine ⟨htext, fun hpolled hnil => ?_, states', .inl rfl, hall⟩
        rw [if_pos hnil] at hpolled
        cases hpolled
      | failed =>
        cases h
        exact ⟨htext, nofun, states', .inl rfl, hall⟩

theorem pollRead_spec (h : self.pollRead room answers = (next, out, polled)) :
    out ++ next.text = self.text ∧ (polled = .ready → out = [] → 0 < room → self.text = []) := by
  rw [pollRead] at h
  cases hstat : self.status with
  | never =>
    rw [hstat] at h
    obtain ⟨htext, hready, -⟩ := pollReading_spec rfl h
    rw [text.eq_def self, hstat]
    exact ⟨htext, hready⟩
  | reading states =>
    rw [hstat] at h
    obtain ⟨htext, hready, -⟩ := pollReading_spec hstat h
    rw [text.eq_def self, hstat]
    exact ⟨htext, hready⟩
  | finish states =>
    rw [hstat] at h
    cases h
    exact ⟨rfl, fun _ _ _ => by rw [text, hstat]⟩

theorem pollRead_holds (hfresh : start.Fresh) (h : Holds start self) :
    Holds start (self.pollRead room answers).1 := by
  rcases h with rfl | ⟨states, hreading | hfinish, hall⟩
  · obtain ⟨-, -, states, hstat, hall⟩ := pollReading_spec rfl
      (rfl : self.buildStatus.pollReading ⟨[], self.states⟩ room answers = (_, _, _))
    rw [pollRead, hfresh.never]
    exact .inr ⟨states, hstat, hall.trans (states_rewound hfresh)⟩
  · obtain ⟨-, -, states', hstat, hall'⟩ := pollReading_spec hreading
      (rfl : self.pollReading states room answers = (_, _, _))
    rw [pollRead, hreading]
    exact .inr ⟨states', hstat, hall'.trans hall⟩
  · rw [pollRead, hfinish]
    exact .inr ⟨states, .inr hfinish, hall⟩

/-- How many answers of the readers are needed at most until the end is reported. -/
def left (self : MultiPart) : ℕ :=
  match self.status with
  | .never => MultiPartStates.left ⟨[], self.states⟩ + 1
  | .reading states => states.left + 1
  | .finish _ => 0

theorem pollReading_left (hroom : 0 < room) (hstat : self.status = .reading states) :
    (self.pollReading states room answers).1.left ≤ self.left - [answers].countP answered := by
  rw [pollReading, if_neg hroom.ne', left.eq_def self, hstat]
  cases hread : states.pollRead room answers with
  | mk states' read =>
    obtain ⟨out, polled⟩ := read
    obtain ⟨hle, hlt⟩ := MultiPartStates.pollRead_left hread
    have hleft : states.ahead ≠ [] → states'.left + 1 ≤
        states.left + 1 - [answers].countP answered := by
      intro hahead
      cases hanswered : answered answers with
      | false =>
        simp only [countP_singleton, hanswered]
        exact Nat.succ_le_succ hle
      | true =>
        simp only [countP_singleton, hanswered]
        exact hlt hroom.ne' hahead hanswered
    cases hahead : states.ahead with
    | nil =>
      rw [MultiPartStates.pollRead, dif_neg hroom.ne', dif_pos hahead] at hread
      cases hread
      exact Nat.zero_le _
    | cons state ahead =>
      have hne : states.ahead ≠ [] := by simp [hahead]
      cases polled with
      | ready =>
        dsimp only
        split_ifs
        · exact Nat.zero_le _
        · exact hleft hne
      | pending => exact hleft hne
      | failed => exact hleft hne

theorem pollRead_left (hroom : 0 < room) :
    (self.pollRead room answers).1.left ≤ self.left - [answers].countP answered := by
  rw [pollRead]
  cases hstat : self.status with
  | never =>
    rw [show self.left = self.buildStatus.left by rw [left, hstat]; rfl]
    exact pollReading_left hroom rfl
  | reading states => exact pollReading_left hroom hstat
  | finish states =>
    rw [left, hstat]
    exact Nat.zero_le _

/-- Calls of `poll_read`, and all that they delivered. -/
def run : MultiPart → List (ℕ × List Answer) → MultiPart × Bytes
  | self, [] => (self, [])
  | self, (room, answers) :: reads =>
    let (next, out, _) := self.pollRead room answers
    let (last, more) := next.run reads
    (last, out ++ more)

/-- Whatever the buffers and the answers are, the text is delivered from its start, and the end of
the data comes just behind it. It comes after so many reads that the readers answer. -/
structure Delivers (message : MultiPart) (text : Bytes) : Prop where
  part : ∀ reads, (message.run reads).2 <+: text
  whole : ∀ reads room answers next, 0 < room →
    (message.run reads).1.pollRead room answers = (next, [], .ready) → (message.run reads).2 = text
  ends : ∀ reads, (∀ read ∈ reads, 0 < read.1) →
    message.left ≤ reads.countP (answered ·.2) →
      (message.run reads).2 = text ∧ ∀ room answers,
        ((message.run reads).1.pollRead room answers).2 = ([], .ready)

theorem run_text (reads : List (ℕ × List Answer)) :
    (self.run reads).2 ++ (self.run reads).1.text = self.text := by
  induction reads generalizing self with
  | nil => rfl
  | cons read reads ih =>
    obtain ⟨room, answers⟩ := read
    have hread : (self.pollRead room answers).2.1 ++ (self.pollRead room answers).1.text =
        self.text := (pollRead_spec rfl).1
    rw [run, append_assoc, ih, hread]

theorem run_left {reads : List (ℕ × List Answer)} (hroom : ∀ read ∈ reads, 0 < read.1) :
    (self.run reads).1.left ≤ self.left - reads.countP (answered ·.2) := by
  induction reads generalizing self with
  | nil => exact le_rfl
  | cons read reads ih =>
    obtain ⟨room, answers⟩ := read
    obtain ⟨hfirst, hrest⟩ := forall_mem_cons.mp hroom
    have hread : (self.pollRead room answers).1.left ≤ self.left - [answers].countP answered :=
      pollRead_left hfirst
    rw [countP_singleton] at hread
    calc (run self ((room, answers) :: reads)).1.left
        ≤ (self.pollRead room answers).1.left - reads.countP (answered ·.2) := ih hrest
      _ ≤ self.left - (if answered answers then 1 else 0) - reads.countP (answered ·.2) :=
        Nat.sub_le_sub_right hread _
      _ = self.left - ((room, answers) :: reads).countP (answered ·.2) := by
        rw [countP_cons, Nat.sub_sub, Nat.add_comm]

theorem delivers (self : MultiPart) : Delivers self self.text where
  part := fun reads => ⟨_, run_text reads⟩
  whole := by
    intro reads room answers next hroom hend
    rw [← run_text reads, (pollRead_spec hend).2 rfl rfl hroom, append_nil]
  ends := by
    intro reads hroom hcount
    have hleft : (self.run reads).1.left = 0 :=
      Nat.le_zero.mp ((run_left hroom).trans_eq (Nat.sub_eq_zero_of_le hcount))
    have htext : (self.run reads).2 ++ (self.run reads).1.text = self.text := run_text reads
    cases hstat : (self.run reads).1.status with
    | never | reading => simp [left, hstat] at hleft
    | finish states =>
      rw [text, hstat, append_nil] at htext
      exact ⟨htext, fun _ _ => by rw [pollRead, hstat]⟩

/-! ## Lengths -/

theorem around_length (before after : Bytes) (value : Option Bytes) :
    ((value.map fun value => before ++ value ++ after).getD []).length =
      (value.map (before.length + after.length + ·.length)).getD 0 := by
  cases value with
  | none => rfl
  | some value =>
    simp only [Option.map_some, Option.getD_some, length_append]
    omega

theorem str_lengths : (str "--").length = 2 ∧ (str "\r\n").length = 2 ∧
    (str "--\r\n").length = 4 ∧ (str "Content-Disposition: form-data").length = 30 ∧
    (str "; name=\"").length = 8 ∧ (str "; filename=\"").length = 12 ∧ (str "\"").length = 1 ∧
    (str "Content-Type: ").length = 14 := by decide

theorem partBytes_framing {part : Part} :
    (part.framing boundary).length =
      (part.body.map (·.content.length)).getD 0 + partBytes boundary part := by
  have hbody : ((part.body.map (·.content)).getD []).length =
      (part.body.map (·.content.length)).getD 0 := by
    cases part.body <;> rfl
  simp only [Part.framing, length_append, around_length, hbody, str_lengths, Nat.reduceAdd,
    partBytes]
  omega

theorem bytesFrom_framing {parts : List Part} {size : ℕ}
    (hlen : ∀ part ∈ parts, part.length = some ((part.body.map (·.content.length)).getD 0)) :
    bytesFrom boundary size parts = (checkedU64 (size +
      (parts.flatMap (·.framing boundary)).length + (2 + boundary.length + 4))).map some := by
  induction parts generalizing size with
  | nil => rfl
  | cons part parts ih =>
    obtain ⟨hpart, hrest⟩ := forall_mem_cons.mp hlen
    rw [flatMap_cons, length_append, partBytes_framing, bytesFrom, hpart]
    dsimp only
    rw [checkedU64]
    split_ifs with hfits
    · dsimp only
      rw [ih hrest]
      grind
    · rw [checkedU64, if_neg (by omega)]
      rfl

theorem framing_length (hlen : ∀ part ∈ self.parts,
      part.length = some ((part.body.map (·.content.length)).getD 0)) :
    self.totalBytes = (checkedU64 self.framing.length).map some := by
  rw [totalBytes, bytesFrom_framing hlen]
  simp only [framing, length_append, str_lengths]
  grind

/-- A message whose lengths are declared is delivered as it is framed, and is as long as
`total_bytes` says, if and only if its length is a `u64`. -/
theorem form_data_exact (hfresh : self.Fresh) (hlength : ∀ part ∈ self.parts,
      part.length = some ((part.body.map (·.content.length)).getD 0)) :
    (Delivers self self.framing ∧ self.totalBytes = .ok (some self.framing.length)) ↔
      self.framing.length < 2 ^ 64 := by
  have htext : self.text = self.framing := by
    rw [text, hfresh.never]
    exact states_text hfresh
  rw [and_iff_right (htext ▸ delivers self), framing_length hlength, checkedU64]
  split_ifs with hfits
  · exact iff_of_true rfl hfits
  · exact iff_of_false nofun hfits

def oneFile : MultiPart :=
  ⟨[⟨none, none, none, some 1, some ⟨.stream true, str "x", 0⟩⟩], str "b", .never⟩

theorem oneFile_fresh : oneFile.Fresh := ⟨rfl, by simp [oneFile]⟩

def picture : MultiPart :=
  ⟨[⟨some (str "n"), none, none, some 2, some (bytes (str "hi"))⟩,
    ⟨some (str "p"), some (str "a.png"), some (str "image/png"), some 3,
      some ⟨.stream true, str "png", 0⟩⟩], str "0001-0002-0003-0004", .never⟩

theorem form_data_exact_picture :
    Delivers picture picture.framing ∧ picture.totalBytes = .ok (some picture.framing.length) :=
  (form_data_exact ⟨rfl, by simp [picture, bytes]⟩ (by simp [picture]; decide)).mpr (by decide +kernel)

def halves (content : Bytes) : MultiPart :=
  ⟨[⟨none, none, none, some (2 ^ 63), some ⟨.stream true, content, 0⟩⟩,
    ⟨none, none, none, some (2 ^ 63), some ⟨.stream true, content, 0⟩⟩],
    str "0001-0002-0003-0004", .never⟩

/-- The sum for two streams of `2 ^ 63` octets each panics. -/
theorem form_data_long : ¬∀ self : MultiPart, self.Fresh →
    (∀ part ∈ self.parts, part.length = some ((part.body.map (·.content.length)).getD 0) ∧
      ∀ n ∈ part.length, n < 2 ^ 64) →
    Delivers self self.framing ∧ self.totalBytes = .ok (some self.framing.length) := by
  intro h
  obtain ⟨content, hcontent⟩ : ∃ content : Bytes, content.length = 2 ^ 63 :=
    ⟨.replicate (2 ^ 63) 0, length_replicate⟩
  have hlen : ∀ part ∈ (halves content).parts,
      part.length = some ((part.body.map (·.content.length)).getD 0) := by
    simp [halves, hcontent]
  have htotal := (h (halves content) ⟨rfl, by simp [halves]⟩ fun part hpart =>
    ⟨hlen part hpart, by simp [halves] at hpart; simp [hpart]⟩).2
  rw [totalBytes, bytesFrom_framing hlen] at htotal
  have hlong : 2 ^ 64 ≤ 0 + ((halves content).parts.flatMap
      (·.framing (halves content).boundary)).length := by
    simp [halves, Part.framing, hcontent]
    omega
  rw [checkedU64, if_neg (by omega)] at htotal
  cases htotal

/-! ## Reuse -/

def Rewinds (self : MultiPart) : Prop :=
  ∀ part ∈ self.parts, ∀ state ∈ part.body, state.source ≠ .stream false

theorem states_rewind (h : self.Rewinds) : ∀ state ∈ self.states, state.source ≠ .stream false := by
  have hpart : ∀ part ∈ self.parts, ∀ state ∈ part.states self.boundary,
      state.source ≠ .stream false := by
    intro part hpart
    obtain ⟨name, fileName, mime, length, _ | body⟩ := part
    · cases name <;> cases fileName <;> cases mime <;> simp [Part.states, around, bytes]
    · have hbody := h _ hpart body rfl
      cases name <;> cases fileName <;> cases mime <;> simp [Part.states, around, bytes, hbody]
  intro state hst
  rcases mem_append.mp hst with hst | hst
  · obtain ⟨part, hmem, hst⟩ := mem_flatMap.mp hst
    exact hpart part hmem state hst
  · rw [mem_singleton.mp hst]
    exact nofun

theorem reuse_text (hfresh : start.Fresh) (hrewinds : start.Rewinds) (h : Holds start self)
    (hok : (self.reuse outcomes).2 = true) : (self.reuse outcomes).1.text = start.framing := by
  have hstates : ∀ states : MultiPartStates, states.all.map (·.rewound) = start.states →
      (states.reuse outcomes).2 = true → (states.reuse outcomes).1.text = start.framing := by
    intro states hall hok
    rw [MultiPartStates.text, (MultiPartStates.reuse_rewound).2 (fun state hst => ?_) hok, hall]
    · exact states_text hfresh
    · have hmem := mem_map_of_mem (f := MultiPartState.rewound) hst
      rw [show states.all.map MultiPartState.rewound = start.states from hall] at hmem
      exact states_rewind hrewinds state.rewound hmem
  rcases h with rfl | ⟨states, hreading | hfinish, hall⟩
  · rw [reuse, hfresh.never, text, hfresh.never]
    exact states_text hfresh
  · simp only [reuse, hreading] at hok ⊢
    exact hstates states hall hok
  · simp only [reuse, hfinish] at hok ⊢
    cases hreuse : states.reuse outcomes with
    | mk states' ok =>
      rw [hreuse] at hok
      cases ok with
      | false => cases hok
      | true =>
        have htext := hstates states hall (by rw [hreuse])
        rw [hreuse] at htext
        exact htext

/-- What reads and reuses lead to, with `reuse` called as it is allowed to. -/
inductive Reached (allowed : MultiPart → List (Option ℕ) → Prop) (start : MultiPart) :
    MultiPart → Prop
  | start : Reached allowed start start
  | read {self : MultiPart} (room : ℕ) (answers : List Answer) : Reached allowed start self →
      Reached allowed start (self.pollRead room answers).1
  | reuse {self : MultiPart} (outcomes : List (Option ℕ)) : Reached allowed start self →
      allowed self outcomes → Reached allowed start (self.reuse outcomes).1

def Kept (self : MultiPart) (outcomes : List (Option ℕ)) : Prop :=
  ∀ states, self.status = .finish states → ∀ outcome ∈ outcomes, outcome = none

theorem reuse_holds (hfresh : start.Fresh) (h : Holds start self) (hkept : self.Kept outcomes) :
    Holds start (self.reuse outcomes).1 := by
  rcases h with rfl | ⟨states, hreading | hfinish, hall⟩
  · rw [reuse, hfresh.never]
    exact .inl rfl
  · rw [reuse, hreading]
    exact .inr ⟨_, .inl rfl, MultiPartStates.reuse_rewound.1.trans hall⟩
  · have hok := MultiPartStates.reuse_ok states (hkept states hfinish)
    have hrewound := (@MultiPartStates.reuse_rewound states outcomes).1
    simp only [reuse, hfinish]
    cases hreuse : states.reuse outcomes with
    | mk states' ok =>
      rw [hreuse] at hok hrewound
      obtain rfl : ok = true := hok
      exact .inr ⟨states', .inl rfl, hrewound.trans hall⟩

/-- A message whose readers go back is delivered from its start again after every `reuse` that is
`Ok`, whatever failed before, but for a `reuse` behind the end. -/
theorem form_data_reused {outcomes : List (Option ℕ)} (hfresh : start.Fresh)
    (hrewinds : start.Rewinds) (h : Reached Kept start self)
    (hok : (self.reuse outcomes).2 = true) : Delivers (self.reuse outcomes).1 start.framing := by
  have hholds : Holds start self := by
    clear hok
    induction h with
    | start => exact .inl rfl
    | read room answers _ ih => exact pollRead_holds hfresh ih
    | reuse outcomes _ hkept ih => exact reuse_holds hfresh ih hkept
  exact reuse_text hfresh hrewinds hholds hok ▸ delivers _

theorem oneFile_rewinds : oneFile.Rewinds := by simp [Rewinds, oneFile]

theorem form_data_reused_once :
    Delivers ((oneFile.pollRead 9 [.give 0]).1.reuse []).1 oneFile.framing :=
  form_data_reused oneFile_fresh oneFile_rewinds (.read 9 [.give 0] .start) (by decide +kernel)

/-- The parts are lost when a file that was read to its end cannot go back. -/
theorem form_data_lost : ¬∀ start self : MultiPart, start.Fresh → start.Rewinds →
    Reached (fun _ _ => True) start self → ∀ outcomes, (self.reuse outcomes).2 = true →
      Delivers (self.reuse outcomes).1 start.framing := by
  intro h
  have hlost := (h oneFile _ oneFile_fresh oneFile_rewinds
    (.reuse [some 0] (.read 99 [] (.read 99 [.give 0, .give 0] .start)) trivial) []
    (by decide +kernel)).part [(99, [])]
  revert hlost
  decide +kernel

end MultiPart

end YlongHttp.FormData
