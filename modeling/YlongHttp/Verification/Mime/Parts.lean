import YlongHttp.Verification.Mime.Headers

/-! # The body of a part, read back line by line -/

namespace YlongHttp.Mime

open List

/-- The text consists of lines with `P`, each with its LF. -/
inductive Lines (P : Bytes → Prop) : Bytes → Prop
  | nil : Lines P []
  | cons {line rest : Bytes} : lf ∉ line → P (line ++ [lf]) → Lines P rest →
      Lines P (line ++ lf :: rest)

def Delimits (boundary line : Bytes) : Prop :=
  trimBackLwspIfEndWithLf line = str "--" ++ boundary ∨
    trimBackLwspIfEndWithLf line = str "--" ++ boundary ++ str "--"

instance (boundary line : Bytes) : Decidable (Delimits boundary line) :=
  inferInstanceAs (Decidable (_ ∨ _))

def delimiter (boundary : Bytes) (last : Bool) : Bytes :=
  str "--" ++ boundary ++ (if last then str "--" else []) ++ crlf

/-- A boundary that can stand on a line, and does not end in a space or a tab. -/
structure Sound (boundary : Bytes) : Prop where
  line : lf ∉ boundary
  last : ∀ b ∈ boundary.getLast?, isLwsp b = false

theorem sound_of_getLast {boundary : Bytes} {b : UInt8} (hline : lf ∉ boundary)
    (hlast : boundary.getLast? = some b) (hb : isLwsp b = false) : Sound boundary where
  line := hline
  last c hc := by
    rw [hlast] at hc
    obtain rfl := Option.mem_some_iff.mp hc
    exact hb

variable {boundary : Bytes}

theorem trimBackLwsp_of_last {text : Bytes} (h : ∀ b ∈ text.getLast?, isLwsp b = false) :
    trimBackLwsp text = text := by
  rcases eq_nil_or_concat text with rfl | ⟨front, b, rfl⟩
  · rfl
  · have hb := h b (by simp)
    rw [trimBackLwsp, concat_eq_append, reverse_append, reverse_singleton,
      singleton_append, dropWhile_cons_of_neg (by simp [hb])]
    simp

theorem trimBackLwspIfEndWithLf_crlf (text : Bytes) :
    trimBackLwspIfEndWithLf (text ++ crlf) = trimBackLwsp text := by
  have hdrop : (text ++ crlf).dropLast = text ++ [cr] := by
    rw [crlf, dropLast_append_of_ne_nil (by simp)]
    rfl
  rw [trimBackLwspIfEndWithLf, hdrop]
  simp

theorem Sound.trim (h : Sound boundary) (last : Bool) :
    trimBackLwspIfEndWithLf (delimiter boundary last) =
      str "--" ++ boundary ++ (if last then str "--" else []) := by
  rw [delimiter, trimBackLwspIfEndWithLf_crlf]
  refine trimBackLwsp_of_last ?_
  cases last with
  | true =>
    intro b hb
    rw [if_pos rfl, getLast?_append] at hb
    have hdash : (str "--").getLast? = some '-'.toUInt8 := by decide
    rw [hdash] at hb
    cases hb
    decide
  | false =>
    intro b hb
    rw [if_neg Bool.false_ne_true, append_nil, getLast?_append] at hb
    cases hlast : boundary.getLast? with
    | none =>
      have hdash : (str "--").getLast? = some '-'.toUInt8 := by decide
      rw [hlast, hdash] at hb
      cases hb
      decide
    | some c =>
      rw [hlast] at hb
      cases hb
      exact h.last b hlast

variable {line rest remains : Bytes}

theorem getCrlfContain_line (h : lf ∉ line) :
    getCrlfContain (line ++ lf :: rest) = some (line ++ [lf], rest) := by
  induction line with
  | nil => rfl
  | cons b line ih =>
    have hb : b ≠ lf := fun heq => h (heq ▸ (.head _))
    have hrest := ih fun hmem => h (.tail b hmem)
    rw [cons_append, getCrlfContain, if_neg hb, hrest]
    rfl

theorem Sound.getCrlfContain (h : Sound boundary) (last : Bool) (rest : Bytes) :
    getCrlfContain (delimiter boundary last ++ rest) = some (delimiter boundary last, rest) := by
  have hsplit : delimiter boundary last =
      str "--" ++ boundary ++ (if last then str "--" else []) ++ [cr] ++ [lf] := by
    simp [delimiter, crlf]
  have hline : lf ∉ str "--" ++ boundary ++ (if last then str "--" else []) ++ [cr] := by
    have hdash : lf ∉ str "--" := by decide
    have hcr : lf ≠ cr := by decide
    have hboundary := h.line
    cases last <;> simp [hdash, hcr, hboundary]
  rw [hsplit, append_assoc _ [lf], singleton_append]
  exact getCrlfContain_line hline

theorem dash_ne (boundary : Bytes) :
    str "--" ++ boundary ++ str "--" ≠ str "--" ++ boundary := by
  intro heq
  have hlen := congrArg length heq
  have htwo : (str "--").length = 2 := by decide
  simp only [length_append, htwo] at hlen
  omega

namespace MimePartDecoder

def reading (headers : Headers) (boundary body : Bytes) : MimePartDecoder :=
  { initFromMulti headers boundary with part := { headers, body }, srcIdx := body.length }

variable {headers : Headers} {body : Bytes}

theorem bodyDecode_delimiter (headers : Headers) (body : Bytes) (h : Sound boundary) (last : Bool)
    (rest : Bytes) :
    ∃ d, (reading headers boundary body).bodyDecode (delimiter boundary last ++ rest) = (d, rest) ∧
      d.stage = .done ∧ d.part = { headers, body := trimCrlfOnce body } ∧
        d.tag = if last then .last else .middle := by
  rw [bodyDecode, h.getCrlfContain]
  have hdrop : (body ++ delimiter boundary last).drop body.length = delimiter boundary last :=
    drop_left
  have htake : (body ++ delimiter boundary last).take body.length = body := take_left
  simp only [reading, initFromMulti, hdrop, h.trim]
  cases last with
  | true =>
    rw [if_pos rfl, if_neg (dash_ne boundary), if_pos rfl]
    exact ⟨_, rfl, rfl, by simp only [whenIsEnd, htake], rfl⟩
  | false =>
    rw [if_neg Bool.false_ne_true, append_nil, if_pos rfl]
    exact ⟨_, rfl, rfl, by simp only [whenIsEnd, htake], rfl⟩

theorem bodyDecode_line (h : lf ∉ line) (hline : ¬Delimits boundary (line ++ [lf])) (rest : Bytes) :
    (reading headers boundary body).bodyDecode (line ++ lf :: rest) =
      (reading headers boundary (body ++ (line ++ [lf])), rest) := by
  rw [bodyDecode, getCrlfContain_line h]
  have hdrop : (body ++ (line ++ [lf])).drop body.length = line ++ [lf] := drop_left
  rw [Delimits, not_or] at hline
  simp only [reading, initFromMulti, hdrop, if_neg hline.1, if_neg hline.2]

theorem decodeLoop_round {fuel : ℕ} {self next : MimePartDecoder} (hstage : self.stage ≠ .done)
    (hround : self.round remains = .ok (next, rest)) (hrest : rest ≠ [] ∨ next.stage = .done) :
    decodeLoop (fuel + 1) self remains = decodeLoop fuel next rest := by
  rw [decodeLoop, if_neg hstage, hround]
  dsimp only
  rw [if_neg]
  rintro ⟨hempty, hnot⟩
  rcases hrest with hrest | hdone
  · exact hrest (isEmpty_iff.mp hempty)
  · exact hnot hdone

theorem decodeLoop_done {fuel : ℕ} {self : MimePartDecoder} (hstage : self.stage = .done) :
    decodeLoop (fuel + 1) self remains =
      .ok ({ self with part := { headers := .new, body := [] } }, some self.part, remains) := by
  rw [decodeLoop, if_pos hstage]

theorem decodeLoop_body {text : Bytes} (headers : Headers) (body : Bytes) (h : Sound boundary)
    (htext : Lines (¬Delimits boundary ·) text) (last : Bool) (rest : Bytes) {fuel : ℕ}
    (hfuel : text.length + 2 ≤ fuel) :
    ∃ d, decodeLoop fuel (reading headers boundary body) (text ++ delimiter boundary last ++ rest) =
      .ok (d, some { headers, body := trimCrlfOnce (body ++ text) }, rest) ∧
        d.tag = if last then .last else .middle := by
  induction htext generalizing body fuel with
  | nil =>
    obtain ⟨fuel, rfl⟩ := Nat.exists_eq_add_of_le hfuel
    obtain ⟨d, hd, hstage, hpart, htag⟩ := bodyDecode_delimiter headers body h last rest
    refine ⟨{ d with part := { headers := .new, body := [] } }, ?_, htag⟩
    have hround : (reading headers boundary body).round (delimiter boundary last ++ rest) =
        .ok (d, rest) := congrArg Except.ok hd
    rw [nil_append, append_nil, length_nil, Nat.zero_add, Nat.add_comm]
    change decodeLoop (fuel + 1 + 1) _ _ = _
    rw [decodeLoop_round (by nofun) hround (.inr hstage), decodeLoop_done hstage, hpart]
  | @cons line text' hlf hline _ ih =>
    obtain ⟨fuel, rfl⟩ := Nat.exists_eq_add_of_le hfuel
    have hround : (reading headers boundary body).round
        (line ++ lf :: (text' ++ delimiter boundary last ++ rest)) =
          .ok (reading headers boundary (body ++ (line ++ [lf])),
            text' ++ delimiter boundary last ++ rest) :=
      congrArg Except.ok (bodyDecode_line hlf hline _)
    have hfuel' : text'.length + 2 ≤ line.length + text'.length + 2 + fuel := by omega
    obtain ⟨d, hloop, htag⟩ := @ih (body ++ (line ++ [lf])) _ hfuel'
    refine ⟨d, ?_, htag⟩
    have hsplit : line ++ lf :: text' ++ delimiter boundary last ++ rest =
        line ++ lf :: (text' ++ delimiter boundary last ++ rest) := by simp
    have hsum : (line ++ lf :: text').length + 2 + fuel =
        line.length + text'.length + 2 + fuel + 1 := by
      rw [length_append, length_cons]
      omega
    have hne : text' ++ delimiter boundary last ++ rest ≠ [] := by simp [delimiter, crlf]
    have hbody : body ++ (line ++ lf :: text') = body ++ (line ++ [lf]) ++ text' := by simp
    rw [hsplit, hsum, decodeLoop_round (by nofun) hround (.inl hne), hloop, hbody]

end MimePartDecoder

def bodyText (body : Bytes) : Bytes := if body.isEmpty then [] else body ++ crlf

theorem trimCrlfOnce_bodyText (body : Bytes) : trimCrlfOnce (bodyText body) = body := by
  rw [bodyText]
  cases body with
  | nil => rfl
  | cons b body =>
    have hsplit : b :: body ++ crlf = (b :: body ++ [cr]) ++ [lf] := by simp [crlf]
    rw [isEmpty_cons, if_neg Bool.false_ne_true, trimCrlfOnce, hsplit, getLast?_concat,
      if_pos rfl, dropLast_concat, getLast?_concat]
    simp only [if_true, dropLast_concat]

theorem decode_body (headers : Headers) {body : Bytes} (h : Sound boundary)
    (hbody : Lines (¬Delimits boundary ·) (bodyText body)) (last : Bool) (rest : Bytes) :
    ∃ d, (MimePartDecoder.initFromMulti headers boundary).decode
        (bodyText body ++ delimiter boundary last ++ rest) =
      .ok (d, some { headers, body }, rest) ∧ d.tag = if last then .last else .middle := by
  have hfuel : (bodyText body).length + 2 ≤
      (bodyText body ++ delimiter boundary last ++ rest).length + 4 := by
    rw [length_append, length_append]
    omega
  obtain ⟨d, hloop, htag⟩ := MimePartDecoder.decodeLoop_body headers [] h hbody last rest hfuel
  refine ⟨d, ?_, htag⟩
  rw [nil_append, trimCrlfOnce_bodyText] at hloop
  have hne : (bodyText body ++ delimiter boundary last ++ rest).isEmpty = false := by
    simp [delimiter, crlf]
  rw [MimePartDecoder.decode, hne, if_neg Bool.false_ne_true]
  exact hloop

end YlongHttp.Mime
