import YlongHttp.Model.Http1.ResponseDecoder

/-! # The head of a response, octet by octet

The grammar of a head as an automaton, with what has been read so far in its states. The decoder
answers to a buffer as the automaton does to its octets. -/

namespace YlongHttp.Http1

open List Option HeaderStage
open Client (Version)

variable {b : UInt8} {rest token : Bytes} {step : HeaderStage} {d : ResponseDecoder}

/-- How far a head has been read. -/
inductive HeadState where
  | version (text : Bytes)
  | status (version : Version) (text : Bytes)
  | reason (version : Version) (status : ℕ)
  /-- After the CR of the status line. -/
  | statusLf (version : Version) (status : ℕ)
  /-- At the beginning of a line, with the field lines before it. -/
  | line (part : ResponsePart)
  | name (part : ResponsePart) (text : Bytes)
  | ows (part : ResponsePart) (headKey : Bytes)
  | value (part : ResponsePart) (headKey text : Bytes)
  /-- After the CR of a field line. -/
  | fieldLf (part : ResponsePart)
  /-- After the CR of the empty line. -/
  | lastLf (part : ResponsePart)

variable (s : HeadState)

namespace HeadState

abbrev Result (α : Type) := Except HttpError (HeadState ⊕ α)

def init : HeadState := .version []

def more {α : Type} (s : HeadState) : Result α := .ok (.inl s)

def nameOctet (part : ResponsePart) (text : Bytes) (b : UInt8) : Result ResponsePart :=
  if b = ':'.toUInt8 then more (.ows part text)
  else if isHeaderNameByte b then more (.name part (text ++ [b]))
  else .error .invalidResponse

def valueOctet (part : ResponsePart) (headKey text : Bytes) (b : UInt8) : Result ResponsePart :=
  if isEol b then
    match headerInsert headKey (trimEnd text) part.headers with
    | none => .error .invalidInput
    | some headers =>
      more (if b = cr then .fieldLf { part with headers } else .line { part with headers })
  else if isHeaderValueByte b then more (.value part headKey (text ++ [b]))
  else .error .invalidResponse

def octet : HeadState → UInt8 → Result ResponsePart
  | .version text, b =>
    if b = ' '.toUInt8 then
      match versionOfBytes text with
      | none => .error .invalidResponse
      | some v => more (.status v [])
    else if isValidByte b then more (.version (text ++ [b]))
    else .error .invalidResponse
  | .status v text, b =>
    if b = ' '.toUInt8 then
      match statusOfBytes text with
      | none => .error .invalidResponse
      | some code => more (.reason v code)
    else if isValidByte b then more (.status v (text ++ [b]))
    else .error .invalidResponse
  | .reason v code, b =>
    if b = cr then more (.statusLf v code)
    else if b = lf then more (.line ⟨v, code, .new⟩)
    else if isLegalReasonByte b then more (.reason v code)
    else .error .invalidResponse
  | .statusLf v code, b => if b = lf then more (.line ⟨v, code, .new⟩) else .error .invalidResponse
  | .line part, b =>
    if b = cr then more (.lastLf part)
    else if b = lf then .ok (.inr part)
    else nameOctet part [] b
  | .name part text, b => nameOctet part text b
  | .ows part headKey, b =>
    if isOws b then more (.ows part headKey) else valueOctet part headKey [] b
  | .value part headKey text, b => valueOctet part headKey text b
  | .fieldLf part, b => if b = lf then more (.line part) else .error .invalidResponse
  | .lastLf part, b => if b = lf then .ok (.inr part) else .error .invalidResponse

def run : HeadState → Bytes → Result (ResponsePart × Bytes)
  | s, [] => more s
  | s, b :: rest =>
    match s.octet b with
    | .error e => .error e
    | .ok (.inl s') => run s' rest
    | .ok (.inr part) => .ok (.inr (part, rest))

theorem run_append (front back : Bytes) :
    s.run (front ++ back) = match s.run front with
      | .error e => .error e
      | .ok (.inl s') => s'.run back
      | .ok (.inr (part, rest)) => .ok (.inr (part, rest ++ back)) := by
  induction front generalizing s with
  | nil => rfl
  | cons b front ih =>
    rw [cons_append, run, run]
    cases s.octet b with
    | error e => rfl
    | ok next =>
      cases next with
      | inl s' => exact ih s'
      | inr part => rfl

theorem run_scan (stop valid : UInt8 → Bool) (state : Bytes → HeadState)
    (next : Bytes → Bytes → Result (ResponsePart × Bytes))
    (hstop : ∀ text b rest, stop b = true → (state text).run (b :: rest) = next text (b :: rest))
    (hvalid : ∀ text b, stop b = false → valid b = true →
      (state text).octet b = more (state (text ++ [b])))
    (hbad : ∀ text b, stop b = false → valid b = false →
      (state text).octet b = .error .invalidResponse) (text buffer : Bytes) :
    (state text).run buffer = match scan stop valid buffer with
      | none => .error .invalidResponse
      | some none => more (state (text ++ buffer))
      | some (some (token, rest)) => next (text ++ token) rest := by
  induction buffer generalizing text with
  | nil => rw [scan, append_nil]; rfl
  | cons b buffer ih =>
    rw [scan]
    cases hb : stop b with
    | true =>
      rw [if_pos rfl]
      dsimp only
      rw [append_nil, hstop _ _ _ hb]
    | false =>
      rw [if_neg Bool.false_ne_true]
      cases hv : valid b with
      | false => rw [if_neg Bool.false_ne_true, run, hbad _ _ hb hv]
      | true =>
        rw [if_pos rfl, run, hvalid _ _ hb hv]
        dsimp only [more]
        rw [ih]
        cases scan stop valid buffer with
        | none => rfl
        | some result =>
          cases result with
          | none => simp [more, append_assoc]
          | some tokens => simp [append_assoc]

theorem run_token (sep : UInt8) (valid : UInt8 → Bool) (state : Bytes → HeadState)
    (next : Bytes → Bytes → Result (ResponsePart × Bytes))
    (hstop : ∀ text rest, (state text).run (sep :: rest) = next text rest)
    (hother : ∀ text b, b ≠ sep → (state text).octet b =
      if valid b then more (state (text ++ [b])) else .error .invalidResponse)
    (text buffer : Bytes) :
    (state text).run buffer =
      match (scan (· = sep) valid buffer).map (·.map fun (token, rest) => (token, rest.tail)) with
      | none => .error .invalidResponse
      | some none => more (state (text ++ buffer))
      | some (some (token, rest)) => next (text ++ token) rest := by
  have hscan := run_scan (fun b => decide (b = sep)) valid state
    (fun text rest => next text rest.tail) ?_ ?_ ?_ text buffer
  · rw [hscan]
    cases scan (fun b => decide (b = sep)) valid buffer with
    | none => rfl
    | some result => cases result <;> rfl
  · intro text b rest hb
    rw [of_decide_eq_true hb, hstop]
    rfl
  · intro text b hb hv
    rw [hother _ _ (of_decide_eq_false hb), if_pos hv]
  · intro text b hb hv
    rw [hother _ _ (of_decide_eq_false hb), hv]
    rfl

end HeadState

/-! ## The decoder in a state -/

open HeadState ResponseDecoder

def fields (part : ResponsePart) : ResponseDecoder :=
  { new with
    version := some part.version
    statusCode := some part.status
    headers := some part.headers }

/-- The decoder between two reads. -/
def HeadState.Represented : HeadState → ResponseDecoder → Prop
  | .version text, d =>
    ∃ stage : ParseStage, (stage = .initial ∨ stage = .version) ∧ d = { new with stage, rest := text }
  | .status v text, d => d = { new with stage := .statusCode, version := some v, rest := text }
  | .reason v code, d =>
    d = { new with stage := .reason, version := some v, statusCode := some code }
  | .statusLf v code, d =>
    d = { new with
      stage := .statusCrlf, version := some v, statusCode := some code, newLine := true }
  | .line part, d => ∃ stage : HeaderStage, (stage = .start ∨ stage = .endCrlf) ∧
    d = { fields part with stage := .header stage }
  | .name part text, d => d = { fields part with stage := .header .key, rest := text }
  | .ows part headKey, d => d = { fields part with stage := .header .owsBefore, headKey }
  | .value part headKey text, d =>
    d = { fields part with stage := .header .value, headKey, rest := text }
  | .fieldLf part, d => d = { fields part with stage := .header .crlf, newLine := true }
  | .lastLf part, d => d = { fields part with stage := .blankLine, newLine := true }

def Agrees (answer : Answer (ResponsePart × Bytes)) :
    Result (ResponsePart × Bytes) → Prop
  | .error e => answer = .error (.error e)
  | .ok (.inl s) => ∃ d, answer = .ok (d, none) ∧ s.Represented d
  | .ok (.inr head) => ∃ d, answer = .ok (d, some head)

variable {part : ResponsePart} {buffer : Bytes}

theorem isEol_iff : isEol b = true ↔ b = cr ∨ b = lf := by simp [isEol]

theorem lf_ne_cr : lf ≠ cr := by decide

variable (stage : ParseStage)

theorem blankLine_agrees (hb : isEol b = true) :
    Agrees ({ fields part with stage }.blankLinePhase (b :: rest))
      ((line part).run (b :: rest)) := by
  rw [run, octet]
  rcases isEol_iff.mp hb with rfl | rfl
  · rw [if_pos rfl]
    cases rest with
    | nil => exact ⟨_, rfl, rfl⟩
    | cons b' rest =>
      dsimp only [more]
      rw [run, octet]
      by_cases hb' : b' = lf
      · subst hb'
        exact ⟨_, rfl⟩
      · rw [if_neg hb']
        simp [Agrees, blankLinePhase, decodeStatusCrlf, consumeCrlf, fields, new, hb', invalid]
  · rw [if_neg lf_ne_cr, if_pos rfl]
    exact ⟨_, rfl⟩

theorem lastLf_agrees :
    Agrees ({ fields part with stage := .blankLine, newLine := true }.blankLinePhase (b :: rest))
      ((lastLf part).run (b :: rest)) := by
  rw [run, octet]
  by_cases hlf : b = lf
  · subst hlf
    exact ⟨_, rfl⟩
  · rw [if_neg hlf]
    by_cases hcr : b = cr
    · subst hcr
      rfl
    · simp [Agrees, blankLinePhase, decodeStatusCrlf, consumeCrlf, hlf, hcr, invalid]

/-! ## Field lines -/

variable (text : Bytes)

theorem run_name :
    (name part text).run buffer = match getHeaderName buffer with
      | none => .error .invalidResponse
      | some none => more (.name part (text ++ buffer))
      | some (some (token, rest)) => (ows part (text ++ token)).run rest :=
  run_token ':'.toUInt8 isHeaderNameByte (name part) (fun text => (ows part text).run)
    (fun _ _ => rfl) (fun _ _ hb => if_neg hb) text buffer

def eolRun (part : ResponsePart) : Bytes → Result (ResponsePart × Bytes)
  | [] => more (.line part)
  | b :: rest =>
    if b = cr then (fieldLf part).run rest
    else if b = lf then (line part).run rest
    else .error .invalidResponse

theorem run_value (headKey text : Bytes) :
    (HeadState.value part headKey text).run buffer = match getHeaderValue buffer with
      | none => .error .invalidResponse
      | some none => more (.value part headKey (text ++ buffer))
      | some (some (token, rest)) =>
        match headerInsert headKey (trimEnd (text ++ token)) part.headers with
        | none => .error .invalidInput
        | some headers => eolRun { part with headers } rest := by
  have hstop : ∀ (text : Bytes) (b : UInt8) (rest : Bytes), isEol b = true →
      (HeadState.value part headKey text).run (b :: rest) =
        match headerInsert headKey (trimEnd text) part.headers with
        | none => .error .invalidInput
        | some headers => eolRun { part with headers } (b :: rest) := by
    intro text b rest hb
    rw [run.eq_def]
    dsimp only
    rw [octet, valueOctet, if_pos hb]
    cases headerInsert headKey (trimEnd text) part.headers with
    | none => rfl
    | some headers =>
      dsimp only [more]
      rw [eolRun]
      rcases isEol_iff.mp hb with rfl | rfl
      · rw [if_pos rfl, if_pos rfl]
      · rw [if_neg lf_ne_cr, if_neg lf_ne_cr, if_pos rfl]
  have hvalid : ∀ (text : Bytes) (b : UInt8), isEol b = false → isHeaderValueByte b = true →
      (HeadState.value part headKey text).octet b = more (.value part headKey (text ++ [b])) := by
    intro text b hb hv
    rw [octet, valueOctet, if_neg (Bool.not_eq_true _ ▸ hb), if_pos hv]
  have hbad : ∀ (text : Bytes) (b : UInt8), isEol b = false → isHeaderValueByte b = false →
      (HeadState.value part headKey text).octet b = .error .invalidResponse := by
    intro text b hb hv
    rw [octet, valueOctet, if_neg (Bool.not_eq_true _ ▸ hb), if_neg (Bool.not_eq_true _ ▸ hv)]
  exact run_scan isEol isHeaderValueByte (HeadState.value part headKey)
    (fun text rest => match headerInsert headKey (trimEnd text) part.headers with
      | none => .error .invalidInput
      | some headers => eolRun { part with headers } rest) hstop hvalid hbad text buffer

theorem run_ows (headKey : Bytes) :
    (ows part headKey).run buffer = match trimOws buffer with
      | none => more (.ows part headKey)
      | some rest => (HeadState.value part headKey []).run rest := by
  induction buffer with
  | nil => rfl
  | cons b buffer ih =>
    rw [run, octet, trimOws, dropWhile_cons]
    by_cases hb : isOws b = true
    · rw [if_pos hb, if_pos hb]
      exact ih
    · rw [if_neg hb, if_neg hb]
      rfl

/-- `blank_line_phase` after the field lines. -/
def closed (answer : Answer Bytes) : Answer (ResponsePart × Bytes) :=
  match answer with
  | .error e => .error e
  | .ok (d, none) => .ok (d, none)
  | .ok (d, some unparsed) => d.blankLinePhase unparsed

/-- Before a step of the loop over the field lines, and what the automaton makes of the buffer. -/
inductive Before (part : ResponsePart) (stage : ParseStage) :
    HeaderStage → ResponseDecoder → Bytes → Result (ResponsePart × Bytes) → Prop
  | key {text buffer : Bytes} : Before part stage .key { fields part with stage, rest := text }
      buffer ((name part text).run buffer)
  | owsBefore {headKey buffer : Bytes} : Before part stage .owsBefore
      { fields part with stage, headKey } buffer ((ows part headKey).run buffer)
  | value {headKey text buffer : Bytes} : Before part stage .value
      { fields part with stage, headKey, rest := text } buffer
      ((HeadState.value part headKey text).run buffer)
  | crlf {newLine : Bool} {b : UInt8} {rest : Bytes} : Before part stage .crlf
      { fields part with stage, newLine } (b :: rest) (eolRun part (b :: rest))
  | endCrlf {buffer : Bytes} : Before part stage .endCrlf { fields part with stage } buffer
      ((line part).run buffer)

def HeaderStage.rank : HeaderStage → ℕ
  | .owsBefore => 3
  | .value => 2
  | .crlf => 1
  | .key => 1
  | .start => 2
  | .endCrlf => 2

theorem forall_mem_of_all {p : UInt8 → Prop} [DecidablePred p] {octets : Bytes}
    (h : octets.all (fun b => decide (p b)) = true) : ∀ b ∈ octets, p b :=
  fun b hb => of_decide_eq_true (all_eq_true.mp h b hb)

theorem scan_append (stop valid : UInt8 → Bool) {front : Bytes} (back : Bytes)
    (hfront : ∀ c ∈ front, stop c = false ∧ valid c = true) (hb : stop b = true) :
    scan stop valid (front ++ b :: back) = some (some (front, b :: back)) := by
  induction front with
  | nil => rw [nil_append, scan, if_pos hb]
  | cons c front ih =>
    obtain ⟨hstop, hvalid⟩ := hfront c (.head _)
    rw [cons_append, scan, hstop, hvalid, ih fun d hd => hfront d (.tail c hd)]
    rfl

theorem scan_length {stop valid : UInt8 → Bool}
    (h : scan stop valid buffer = some (some (token, rest))) :
    buffer.length = token.length + rest.length ∧ ∃ b, rest.head? = some b ∧ stop b = true := by
  induction buffer generalizing token with
  | nil => cases h
  | cons b buffer ih =>
    rw [scan] at h
    by_cases hb : stop b = true
    · rw [if_pos hb] at h
      cases h
      exact ⟨(Nat.zero_add _).symm, b, rfl, hb⟩
    · rw [if_neg hb] at h
      by_cases hv : valid b = true
      · rw [if_pos hv] at h
        cases hscan : scan stop valid buffer with
        | none => simp [hscan] at h
        | some result =>
          cases result with
          | none => simp [hscan] at h
          | some tokens =>
            obtain ⟨token', rest'⟩ := tokens
            simp only [hscan, map_some, some.injEq, Prod.mk.injEq] at h
            obtain ⟨rfl, rfl⟩ := h
            obtain ⟨hlen, hhead⟩ := ih hscan
            refine ⟨?_, hhead⟩
            rw [length_cons, length_cons, hlen]
            omega
      · rw [if_neg hv] at h
        cases h

theorem getHeaderName_length (h : getHeaderName buffer = some (some (token, rest))) :
    rest.length < buffer.length := by
  rw [getHeaderName, map_eq_some_iff] at h
  obtain ⟨result, hscan, h⟩ := h
  rw [map_eq_some_iff] at h
  obtain ⟨⟨token', rest'⟩, rfl, h⟩ := h
  cases h
  obtain ⟨hlen, b, hhead, -⟩ := scan_length hscan
  obtain ⟨rest'', rfl⟩ := head?_eq_some_iff.mp hhead
  rw [length_cons] at hlen
  rw [tail_cons]
  omega

theorem trimOws_length (h : trimOws buffer = some rest) : rest.length ≤ buffer.length := by
  have hle := (dropWhile_suffix isOws : buffer.dropWhile isOws <:+ buffer).length_le
  rw [trimOws] at h
  split at h
  · cases h
  · cases h
    exact hle

theorem run_line_of_not_isEol (hb : isEol b = false) :
    (line part).run (b :: rest) = (name part []).run (b :: rest) := by
  have hne : b ≠ cr ∧ b ≠ lf := by simpa [isEol] using hb
  rw [run, run, octet, octet, if_neg hne.1, if_neg hne.2]

variable {res : Result (ResponsePart × Bytes)}

theorem headerFrom_agrees {stage : ParseStage} (h : Before part stage step d buffer res) {fuel : ℕ}
    (hfuel : 4 * buffer.length + step.rank ≤ fuel) :
    Agrees (closed (decodeHeaderFrom fuel step d buffer)) res := by
  induction fuel generalizing part stage step d buffer res with
  | zero => cases h <;> simp [rank] at hfuel
  | succ fuel ih =>
    cases h with
    | @key text =>
      rw [run_name, decodeHeaderFrom, decodeKey]
      cases hname : getHeaderName buffer with
      | none => rfl
      | some result =>
        cases result with
        | none => exact ⟨_, rfl, rfl⟩
        | some tokens =>
          obtain ⟨token, rest⟩ := tokens
          have hlen := getHeaderName_length hname
          refine ih (.owsBefore : Before part (.header .key) .owsBefore _ _ _) ?_
          simp only [rank] at hfuel ⊢
          omega
    | @owsBefore headKey =>
      rw [run_ows, decodeHeaderFrom, decodeOws]
      cases hows : trimOws buffer with
      | none => exact ⟨_, rfl, rfl⟩
      | some rest =>
        have hlen := trimOws_length hows
        refine ih (.value : Before part (.header .owsBefore) .value _ _ _) ?_
        simp only [rank] at hfuel ⊢
        omega
    | @value headKey text =>
      rw [run_value, decodeHeaderFrom, decodeValue]
      cases hval : getHeaderValue buffer with
      | none => rfl
      | some result =>
        cases result with
        | none => exact ⟨_, rfl, rfl⟩
        | some tokens =>
          obtain ⟨token, rest⟩ := tokens
          obtain ⟨hlen, b, hhead, -⟩ := scan_length hval
          obtain ⟨rest', rfl⟩ := head?_eq_some_iff.mp hhead
          dsimp only [takeValue, fields]
          cases hinsert : headerInsert headKey (trimEnd (text ++ token)) part.headers with
          | none => rfl
          | some headers =>
            refine ih (.crlf : Before { part with headers } (.header .value) .crlf _ _ _) ?_
            simp only [rank, length_cons] at hfuel hlen ⊢
            omega
    | @crlf newLine b rest =>
      rw [decodeHeaderFrom, decodeCrlf, eolRun]
      by_cases hcr : b = cr
      · subst hcr
        rw [if_pos rfl]
        cases rest with
        | nil => exact ⟨_, rfl, rfl⟩
        | cons b' rest =>
          rw [run, octet]
          by_cases hlf : b' = lf
          · subst hlf
            refine ih (.endCrlf : Before part (.header .crlf) .endCrlf _ _ _) ?_
            simp only [rank, length_cons] at hfuel ⊢
            omega
          · rw [if_neg hlf]
            simp [consumeCrlf, hlf, Agrees, closed, invalid]
      · rw [if_neg hcr]
        by_cases hlf : b = lf
        · subst hlf
          rw [if_pos rfl]
          refine ih (.endCrlf : Before part (.header .crlf) .endCrlf _ _ _) ?_
          simp only [rank, length_cons] at hfuel ⊢
          omega
        · rw [if_neg hlf]
          simp [consumeCrlf, hcr, hlf, Agrees, closed, invalid]
    | endCrlf =>
      cases buffer with
      | nil => exact ⟨_, rfl, .endCrlf, .inr rfl, rfl⟩
      | cons b rest =>
        rw [decodeHeaderFrom]
        by_cases hb : isEol b = true
        · rw [if_pos hb]
          exact blankLine_agrees stage hb
        · rw [if_neg hb, run_line_of_not_isEol (Bool.not_eq_true _ ▸ hb)]
          refine ih (.key : Before part stage .key { fields part with stage, rest := [] } _ _) ?_
          simp only [rank, length_cons] at hfuel ⊢
          omega

/-! ## The status line -/

theorem header_agrees (hstage : d.stage = .header step) (h : Before part d.stage step d buffer res)
    : Agrees (d.headerPhase buffer) res := by
  have hfuel : 4 * buffer.length + step.rank ≤ 4 * buffer.length + 4 := by
    cases step <;> simp [rank]
  have hagrees := headerFrom_agrees h hfuel
  have hhdr : d.decodeHeader buffer = decodeHeaderFrom (4 * buffer.length + 4) step d buffer := by
    rw [decodeHeader, hstage]
  rw [← hhdr] at hagrees
  exact hagrees

def coded (v : Version) (code : ℕ) : ResponseDecoder :=
  { new with version := some v, statusCode := some code }

variable {v : Version} {code : ℕ}

theorem init_agrees (v : Version) (code : ℕ) (buffer : Bytes) (stage : ParseStage) :
    Agrees ({ coded v code with stage }.headerPhaseWithInit buffer)
      ((line ⟨v, code, .new⟩).run buffer) := by
  cases buffer with
  | nil => exact ⟨_, rfl, .start, .inl rfl, rfl⟩
  | cons b rest =>
    rw [headerPhaseWithInit]
    dsimp only
    by_cases hb : isEol b = true
    · rw [if_pos hb]
      exact blankLine_agrees stage hb
    · rw [if_neg hb, run_line_of_not_isEol (Bool.not_eq_true _ ▸ hb)]
      have hkey : Before ⟨v, code, .new⟩ (.header .key) .key
          { fields ⟨v, code, .new⟩ with stage := .header .key, rest := [] } (b :: rest)
          ((name ⟨v, code, .new⟩ []).run (b :: rest)) := .key
      exact header_agrees rfl hkey

def statusEolRun (v : Version) (code : ℕ) : Bytes → Result (ResponsePart × Bytes)
  | [] => more (.reason v code)
  | b :: rest =>
    if b = cr then (statusLf v code).run rest
    else if b = lf then (line ⟨v, code, .new⟩).run rest
    else .error .invalidResponse

theorem statusCrlf_agrees :
    Agrees ({ coded v code with stage }.statusCrlfPhase (b :: rest))
      (statusEolRun v code (b :: rest)) := by
  rw [statusEolRun]
  by_cases hcr : b = cr
  · subst hcr
    rw [if_pos rfl]
    cases rest with
    | nil => exact ⟨_, rfl, rfl⟩
    | cons b' rest =>
      rw [run, octet]
      by_cases hlf : b' = lf
      · subst hlf
        exact init_agrees v code rest .statusCrlf
      · rw [if_neg hlf]
        simp [Agrees, statusCrlfPhase, decodeStatusCrlf, consumeCrlf, coded, new, hlf, invalid]
  · rw [if_neg hcr]
    by_cases hlf : b = lf
    · subst hlf
      rw [if_pos rfl]
      exact init_agrees v code rest .statusCrlf
    · rw [if_neg hlf]
      simp [Agrees, statusCrlfPhase, decodeStatusCrlf, consumeCrlf, hcr, hlf, invalid]

theorem statusLf_agrees :
    Agrees ({ coded v code with stage := .statusCrlf, newLine := true }.statusCrlfPhase (b :: rest))
      ((statusLf v code).run (b :: rest)) := by
  rw [run, octet]
  by_cases hlf : b = lf
  · subst hlf
    exact init_agrees v code rest .statusCrlf
  · rw [if_neg hlf]
    by_cases hcr : b = cr
    · subst hcr
      rfl
    · simp [Agrees, statusCrlfPhase, decodeStatusCrlf, consumeCrlf, hcr, hlf, invalid]

theorem run_reason : (reason v code).run buffer = match decodeReason buffer with
    | none => .error .invalidResponse
    | some none => more (.reason v code)
    | some (some rest) => statusEolRun v code rest := by
  have hscan := run_scan isEol isLegalReasonByte
    (fun _ => reason v code) (fun _ rest => statusEolRun v code rest) ?_ ?_ ?_ [] buffer
  · rw [hscan, decodeReason]
    cases scan isEol isLegalReasonByte buffer with
    | none => rfl
    | some result => cases result <;> rfl
  · intro text b rest hb
    rw [run, octet, statusEolRun]
    rcases isEol_iff.mp hb with rfl | rfl
    · rw [if_pos rfl, if_pos rfl]
      rfl
    · rw [if_neg lf_ne_cr, if_neg lf_ne_cr, if_pos rfl, if_pos rfl]
      rfl
  · intro text b hb hv
    have hne : b ≠ cr ∧ b ≠ lf := by simpa [isEol] using hb
    rw [octet, if_neg hne.1, if_neg hne.2, if_pos hv]
  · intro text b hb hv
    have hne : b ≠ cr ∧ b ≠ lf := by simpa [isEol] using hb
    rw [octet, if_neg hne.1, if_neg hne.2, hv]
    rfl

theorem reason_agrees :
    Agrees ({ coded v code with stage }.reasonPhase buffer)
      ((reason v code).run buffer) := by
  rw [run_reason, reasonPhase]
  cases hreason : decodeReason buffer with
  | none => rfl
  | some result =>
    cases result with
    | none => exact ⟨_, rfl, rfl⟩
    | some rest =>
      rw [decodeReason, map_eq_some_iff] at hreason
      obtain ⟨result, hscan, hreason⟩ := hreason
      rw [map_eq_some_iff] at hreason
      obtain ⟨⟨token, rest'⟩, rfl, hreason⟩ := hreason
      obtain rfl : rest' = rest := hreason
      obtain ⟨-, b, hhead, -⟩ := scan_length hscan
      obtain ⟨rest, rfl⟩ := head?_eq_some_iff.mp hhead
      exact statusCrlf_agrees .reason

theorem run_status :
    (status v text).run buffer = match statusToken buffer with
      | none => .error .invalidResponse
      | some none => more (.status v (text ++ buffer))
      | some (some (token, rest)) =>
        match statusOfBytes (text ++ token) with
        | none => .error .invalidResponse
        | some code => (reason v code).run rest := by
  refine run_token ' '.toUInt8 isValidByte (status v)
    (fun text rest => match statusOfBytes text with
      | none => .error .invalidResponse
      | some code => (reason v code).run rest) (fun text rest => ?_)
    (fun _ _ hb => if_neg hb) text buffer
  rw [run.eq_def]
  dsimp only
  rw [octet, if_pos rfl]
  cases statusOfBytes text <;> rfl

theorem status_agrees (stage : ParseStage) :
    Agrees ({ new with stage, version := some v, rest := text }.statusCodePhase
      buffer) ((status v text).run buffer) := by
  rw [run_status, statusCodePhase]
  cases hstat : statusToken buffer with
  | none => rfl
  | some result =>
    cases result with
    | none => exact ⟨_, rfl, rfl⟩
    | some tokens =>
      obtain ⟨token, rest⟩ := tokens
      dsimp only [takeValue]
      cases hcode : statusOfBytes (text ++ token) with
      | none => rfl
      | some code => exact reason_agrees .statusCode

theorem run_version :
    (HeadState.version text).run buffer = match statusToken buffer with
      | none => .error .invalidResponse
      | some none => more (.version (text ++ buffer))
      | some (some (token, rest)) =>
        match versionOfBytes (text ++ token) with
        | none => .error .invalidResponse
        | some v => (status v []).run rest := by
  refine run_token ' '.toUInt8 isValidByte HeadState.version
    (fun text rest => match versionOfBytes text with
      | none => .error .invalidResponse
      | some v => (status v []).run rest) (fun text rest => ?_)
    (fun _ _ hb => if_neg hb) text buffer
  rw [run.eq_def]
  dsimp only
  rw [octet, if_pos rfl]
  cases versionOfBytes text <;> rfl

theorem version_agrees (stage : ParseStage) :
    Agrees ({ new with stage, rest := text }.versionPhase buffer)
      ((HeadState.version text).run buffer) := by
  rw [run_version, versionPhase]
  cases hver : statusToken buffer with
  | none => rfl
  | some result =>
    cases result with
    | none => exact ⟨_, rfl, .version, .inr rfl, rfl⟩
    | some tokens =>
      obtain ⟨token, rest⟩ := tokens
      dsimp only [takeValue]
      cases hv : versionOfBytes (text ++ token) with
      | none => rfl
      | some v => exact status_agrees (v := v) [] .version

/-! ## One read -/

def HeadState.strip (read : Bytes) : Bytes :=
  match s, read with
  | .fieldLf _, b :: rest => if b = cr then rest else read
  | _, read => read

theorem run_fieldLf_strip :
    (fieldLf part).run ((fieldLf part).strip (b :: rest)) =
      eolRun part (b :: rest) := by
  rw [strip, eolRun]
  by_cases hcr : b = cr
  · rw [if_pos hcr, if_pos hcr]
  · rw [if_neg hcr, if_neg hcr, run, octet]
    by_cases hlf : b = lf
    · rw [if_pos hlf, if_pos hlf]
      rfl
    · rw [if_neg hlf, if_neg hlf]

theorem decode_agrees {s : HeadState} (h : s.Represented d) (hne : buffer ≠ []) :
    Agrees (d.decode buffer) (s.run (s.strip buffer)) := by
  obtain ⟨b, rest, rfl⟩ := exists_cons_of_ne_nil hne
  cases s with
  | version text =>
    obtain ⟨stage, hstage, rfl⟩ := h
    rcases hstage with rfl | rfl
    · exact version_agrees text .initial
    · exact version_agrees text .version
  | status v text =>
    obtain rfl : _ = _ := h
    exact status_agrees text .statusCode
  | reason v code =>
    obtain rfl : _ = _ := h
    exact reason_agrees .reason
  | statusLf v code =>
    obtain rfl : _ = _ := h
    exact statusLf_agrees
  | line part =>
    obtain ⟨stage, hstage, rfl⟩ := h
    rcases hstage with rfl | rfl
    · -- The first line is looked at like the others, in another stage.
      have hend : Before part (.header .start) .endCrlf
          { fields part with stage := .header .start } (b :: rest)
          ((line part).run (b :: rest)) := .endCrlf
      have hfuel : 4 * (b :: rest).length + rank .endCrlf ≤
          4 * (b :: rest).length + 4 := by simp [rank]
      exact headerFrom_agrees hend hfuel
    · exact header_agrees rfl .endCrlf
  | name part text =>
    obtain rfl : _ = _ := h
    exact header_agrees rfl .key
  | ows part headKey =>
    obtain rfl : _ = _ := h
    exact header_agrees rfl .owsBefore
  | value part headKey text =>
    obtain rfl : _ = _ := h
    exact header_agrees rfl .value
  | fieldLf part =>
    obtain rfl : _ = _ := h
    rw [run_fieldLf_strip]
    exact header_agrees rfl .crlf
  | lastLf part =>
    obtain rfl : _ = _ := h
    exact lastLf_agrees

end YlongHttp.Http1
