import YlongHttp.Verification.Mime.Parts

/-! # Messages of any depth, read back in one call -/

namespace YlongHttp.Mime

open List MimeMultiDecoder DecodeData

/-! ## The text of a message -/

mutual

def XPart.text : XPart → Bytes
  | .part part => headerLines part.headers ++ (if part.body.isEmpty then [] else crlf ++ part.body)
  | .multi headers boundary list =>
    headerLines headers ++ crlf ++ delimiter boundary false ++
      match list with
      | [] => crlf ++ delimiter boundary true
      | x :: rest => x.text ++ restText boundary rest

def restText (boundary : Bytes) : List XPart → Bytes
  | [] => crlf ++ delimiter boundary true
  | x :: rest => crlf ++ delimiter boundary false ++ x.text ++ restText boundary rest

end

def listText (boundary : Bytes) : List XPart → Bytes
  | [] => crlf ++ delimiter boundary true
  | x :: rest => x.text ++ restText boundary rest

variable (self : MimeMulti)

def MimeMulti.text : Bytes :=
  delimiter self.boundary false ++ listText self.boundary self.list

theorem XPart.text_multi (headers : Headers) (boundary : Bytes) (list : List XPart) :
    (XPart.multi headers boundary list).text =
      headerLines headers ++ crlf ++ delimiter boundary false ++ listText boundary list := by
  rw [XPart.text.eq_def]
  cases list <;> rfl

/-- A part that is read back inside of a message with the boundary. -/
inductive XPart.Legal : Bytes → XPart → Prop
  | part {boundary : Bytes} {part : MimePart} : (∀ entry ∈ part.headers.entries, Plain entry) →
      getContentTypeBoundary part.headers = none →
      Lines (¬Delimits boundary ·) (bodyText part.body) → Legal boundary (.part part)
  | multi {boundary inner : Bytes} {headers : Headers} {list : List XPart} :
      (∀ entry ∈ headers.entries, Plain entry) → getContentTypeBoundary headers = some inner →
      Sound inner → list ≠ [] → (∀ x ∈ list, Legal inner x) →
      Legal boundary (.multi headers inner list)

/-! ## The rounds of the decoder -/

def MimeMulti.add (list : List XPart) : MimeMulti :=
  { self with list := self.list ++ list }

namespace MimeMultiDecoder

def Leads (self : MimeMultiDecoder) (buf : Bytes) (self' : MimeMultiDecoder) (buf' : Bytes) :
    Prop :=
  ∃ n, ∀ fuel, self.decodeLoop (fuel + n) buf = self'.decodeLoop fuel buf'

theorem Leads.trans {self self' self'' : MimeMultiDecoder} {buf buf' buf'' : Bytes}
    (h : self.Leads buf self' buf') (h' : self'.Leads buf' self'' buf'') :
    self.Leads buf self'' buf'' := by
  obtain ⟨n, hn⟩ := h
  obtain ⟨n', hn'⟩ := h'
  refine ⟨n' + n, fun fuel => ?_⟩
  rw [← Nat.add_assoc, hn, hn']

theorem Leads.round {stage : DecodeStage} {stages : List DecodeStage} {multis : List MimeMulti}
    {next : MimeMultiDecoder} {buf rest : Bytes} (hstage : stage ≠ .done)
    (hround : MimeMultiDecoder.round ⟨stages, multis⟩ stage buf = .ok (next, rest))
    (hrest : rest ≠ [] ∨ next.stages = [.done]) :
    Leads ⟨stage :: stages, multis⟩ buf next rest := by
  refine ⟨1, fun fuel => ?_⟩
  rw [decodeLoop]
  dsimp only
  rw [if_neg hstage, hround]
  dsimp only
  rcases hrest with hrest | hdone
  · rw [if_neg (by simpa using hrest)]
  · split
    · rw [hdone]
    · rfl

/-- The data of a message between its parts. -/
structure Ready (boundary : Bytes) (data : DecodeData) : Prop where
  finished : data.isFinishFirstBoundary = true
  boundary_eq : data.boundary = boundary
  src : data.src = []
  srcIdx : data.srcIdx = 0

def closed (stages : List DecodeStage) (multi : MimeMulti) : List MimeMulti → MimeMultiDecoder
  | [] => ⟨[.done], [multi]⟩
  | last :: multis => ⟨stages, last.addMulti multi :: multis⟩

def behind (last : Bool) (data : DecodeData) (stages : List DecodeStage) (multi : MimeMulti)
    (multis : List MimeMulti) : MimeMultiDecoder :=
  if last then closed stages multi multis
  else ⟨.unknown .new :: .multi data :: stages, multi :: multis⟩

variable {boundary rest : Bytes} {data : DecodeData} {stages : List DecodeStage}
  {multi : MimeMulti} {multis : List MimeMulti}

theorem tempMultiEnd_closed (stages : List DecodeStage) (multi : MimeMulti)
    (multis : List MimeMulti) (byPart : Bool) (stage : DecodeStage) :
    tempMultiEnd ⟨if byPart then stage :: stages else stages, multi :: multis⟩ byPart =
      .ok (closed stages multi multis) := by
  cases multis with
  | nil => rfl
  | cons last multis =>
    rw [tempMultiEnd]
    cases byPart <;> simp [closed]

variable {last : Bool}

theorem stages_behind (hrest : last = true ∧ multis = [] ∨ rest ≠ []) :
    rest ≠ [] ∨ (behind last data stages multi multis).stages = [.done] := by
  rcases hrest with ⟨rfl, rfl⟩ | hrest
  · exact .inr rfl
  · exact .inl hrest

theorem text_part (part : MimePart) (rest : Bytes) :
    (XPart.part part).text ++ crlf ++ rest =
      headerLines part.headers ++ crlf ++ (bodyText part.body ++ rest) := by
  rw [XPart.text.eq_def, bodyText]
  dsimp only
  cases part.body <;> simp

theorem leads_part {part : MimePart} (h : XPart.Legal boundary (.part part))
    (hsound : Sound boundary) (hmulti : multi.boundary = boundary)
    (hrest : last = true ∧ multis = [] ∨ rest ≠ []) :
    Leads ⟨.unknown .new :: .multi data :: stages, multi :: multis⟩
      ((XPart.part part).text ++ crlf ++ (delimiter boundary last ++ rest))
      (behind last data stages (multi.add [.part part]) multis) rest := by
  cases h with
  | part hplain htype hlines =>
    obtain ⟨decoder, hheaders⟩ := DecodeHeaders.decode_headerLines
      (bodyText part.body ++ (delimiter boundary last ++ rest)) hplain
    obtain ⟨decoder', hbody, htag⟩ := decode_body part.headers hsound hlines last rest
    rw [text_part]
    have hunknown : round ⟨.multi data :: stages, multi :: multis⟩
        (.unknown .new) (headerLines part.headers ++ crlf ++
          (bodyText part.body ++ (delimiter boundary last ++ rest))) =
        .ok (⟨.part (.initFromMulti part.headers boundary) :: .multi data :: stages,
          multi :: multis⟩, bodyText part.body ++ (delimiter boundary last ++ rest)) := by
      rw [round, unknownDecode, hheaders]
      simp only [htype, hmulti]
      rfl
    have hpart : round ⟨.multi data :: stages, multi :: multis⟩
        (.part (.initFromMulti part.headers boundary))
        (bodyText part.body ++ (delimiter boundary last ++ rest)) =
        .ok (behind last data stages (multi.add [.part part]) multis, rest) := by
      rw [← append_assoc, round, partDecode, hbody]
      cases last with
      | true =>
        simp only [htag, if_true]
        exact congrArg (Except.map fun self => (self, rest))
          (tempMultiEnd_closed stages (multi.addPart part) multis true (.multi data))
      | false =>
        simp only [htag]
        rfl
    have hne : bodyText part.body ++ (delimiter boundary last ++ rest) ≠ [] := by
      simp [delimiter, crlf]
    exact (Leads.round (by simp) hunknown (.inl hne)).trans
      (Leads.round (by simp) hpart (stages_behind hrest))

theorem leads_first (stages : List DecodeStage) (multis : List MimeMulti) (hsound : Sound boundary)
    (hrest : rest ≠ []) :
    ∃ data, Ready boundary data ∧
      Leads ⟨.multi (.newAsPart boundary) :: stages, multis⟩ (delimiter boundary false ++ rest)
        ⟨.unknown .new :: .multi data :: stages, multis⟩ rest := by
  refine ⟨(newAsPart boundary).whenIsFirstBoundary, ⟨rfl, rfl, rfl, rfl⟩, ?_⟩
  refine Leads.round (by nofun) ?_ (.inl hrest)
  have htrim := hsound.trim false
  rw [if_neg Bool.false_ne_true, append_nil] at htrim
  have hfirst : (newAsPart boundary).innerFirstBoundary (delimiter boundary false ++ rest) =
      ((newAsPart boundary).whenIsFirstBoundary, rest) := by
    rw [innerFirstBoundary, hsound.getCrlfContain]
    simp only [newAsPart, DecodeData.new, nil_append, drop_zero, htrim, if_true]
  rw [round, multiDecode, if_neg (by nofun), if_neg (by nofun), hfirst]
  rfl

theorem leads_outer (stages : List DecodeStage) (multi : MimeMulti) (hdata : Ready boundary data)
    (hsound : Sound boundary) (hrest : last = true ∧ multis = [] ∨ rest ≠ []) :
    ∃ data', Ready boundary data' ∧
      Leads ⟨.multi data :: stages, multi :: multis⟩ (crlf ++ (delimiter boundary last ++ rest))
        (behind last data' stages multi multis) rest := by
  obtain ⟨hfin, hboundary, hsrc, hidx⟩ := hdata
  refine ⟨{ data with tag := .middle, src := [], srcIdx := 0 }, ⟨hfin, hboundary, rfl, rfl⟩, ?_⟩
  have hempty : data.middleOrEndBoundary (crlf ++ (delimiter boundary last ++ rest)) =
      ({ data with src := crlf, srcIdx := 2 }, false, delimiter boundary last ++ rest) := by
    have hline : getCrlfContain (crlf ++ (delimiter boundary last ++ rest)) =
        some (crlf, delimiter boundary last ++ rest) := rfl
    have hdash : ∀ text, trimBackLwspIfEndWithLf crlf ≠ str "--" ++ text := by
      intro text heq
      have hnil : trimBackLwspIfEndWithLf crlf = [] := by decide
      have hdashes : str "--" = ['-'.toUInt8, '-'.toUInt8] := by decide
      rw [hnil, hdashes] at heq
      cases heq
    rw [middleOrEndBoundary, hline]
    simp only [hsrc, hidx, nil_append, drop_zero, append_assoc, if_neg (hdash _)]
    rfl
  have hbetween : round ⟨stages, multi :: multis⟩ (.multi data)
      (crlf ++ (delimiter boundary last ++ rest)) =
      .ok (⟨.multi { data with src := crlf, srcIdx := 2 } :: stages, multi :: multis⟩,
        delimiter boundary last ++ rest) := by
    rw [round, multiDecode, if_pos hfin, hempty]
    rfl
  have hfound : ({ data with src := crlf, srcIdx := 2 } : DecodeData).middleOrEndBoundary
      (delimiter boundary last ++ rest) =
      ({ data with tag := if last then .last else .middle, src := [], srcIdx := 0 }, true, rest) := by
    have hdrop : (crlf ++ delimiter boundary last).drop 2 = delimiter boundary last := rfl
    rw [middleOrEndBoundary, hsound.getCrlfContain]
    simp only [hdrop, hboundary, hsound.trim]
    cases last with
    | true => rw [if_pos rfl, if_neg (dash_ne boundary), if_pos rfl]; rfl
    | false => rw [if_neg Bool.false_ne_true, append_nil, if_pos rfl]; rfl
  have hbehind : round ⟨stages, multi :: multis⟩
      (.multi { data with src := crlf, srcIdx := 2 }) (delimiter boundary last ++ rest) =
      .ok (behind last { data with tag := .middle, src := [], srcIdx := 0 } stages multi multis,
        rest) := by
    rw [round, multiDecode, if_pos hfin, hfound]
    cases last with
    | true =>
      exact congrArg (Except.map fun self => (self, rest))
        (tempMultiEnd_closed stages multi multis false (.multi data))
    | false => rfl
  have hne : delimiter boundary last ++ rest ≠ [] := by simp [delimiter, crlf]
  exact (Leads.round (by simp) hbetween (.inl hne)).trans
    (Leads.round (by simp) hbehind (stages_behind hrest))

theorem leads_headers {headers : Headers} {inner : Bytes} (stages : List DecodeStage)
    (multis : List MimeMulti) (hplain : ∀ entry ∈ headers.entries, Plain entry)
    (htype : getContentTypeBoundary headers = some inner) (hrest : rest ≠ []) :
    Leads ⟨.unknown .new :: stages, multis⟩ (headerLines headers ++ crlf ++ rest)
      ⟨.multi (.newAsPart inner) :: stages, ⟨headers, inner, []⟩ :: multis⟩ rest := by
  obtain ⟨decoder, hheaders⟩ := DecodeHeaders.decode_headerLines rest hplain
  refine Leads.round (by nofun) ?_ (.inl hrest)
  rw [round, unknownDecode, hheaders]
  simp only [htype]
  rfl

theorem listText_ne_nil (boundary : Bytes) (list : List XPart) : listText boundary list ≠ [] := by
  cases list with
  | nil => simp [listText, crlf]
  | cons x rest =>
    rw [listText, restText.eq_def]
    cases rest <;> simp [crlf]

mutual

theorem leads_xpart : ∀ (x : XPart) {boundary rest : Bytes} {data : DecodeData}
    {stages : List DecodeStage} {multi : MimeMulti} {multis : List MimeMulti} {last : Bool},
    XPart.Legal boundary x → Sound boundary → Ready boundary data → multi.boundary = boundary →
    (last = true ∧ multis = [] ∨ rest ≠ []) →
    ∃ data', Ready boundary data' ∧
      Leads ⟨.unknown .new :: .multi data :: stages, multi :: multis⟩
        (x.text ++ crlf ++ (delimiter boundary last ++ rest))
        (behind last data' stages (multi.add [x]) multis) rest
  | .part part, _, _, data, _, _, _, _, hlegal, hsound, hready, hmulti, hrest =>
    ⟨data, hready, leads_part hlegal hsound hmulti hrest⟩
  | .multi headers inner list, boundary, rest, data, stages, multi, multis, last, hlegal, hsound,
      hready, hmulti, hrest => by
      cases hlegal with
      | multi hplain htype hinner hne hlist =>
        have hbehind : crlf ++ (delimiter boundary last ++ rest) ≠ [] := by simp [crlf]
        have hbody : listText inner list ++ (crlf ++ (delimiter boundary last ++ rest)) ≠ [] :=
          append_ne_nil_of_right_ne_nil _ hbehind
        have hline : delimiter inner false ++
            (listText inner list ++ (crlf ++ (delimiter boundary last ++ rest))) ≠ [] :=
          append_ne_nil_of_right_ne_nil _ hbody
        obtain ⟨data₁, hready₁, hfirst⟩ := leads_first (.multi data :: stages)
          (⟨headers, inner, []⟩ :: multi :: multis) hinner hbody
        have hparts := @leads_list list inner (crlf ++ (delimiter boundary last ++ rest)) data₁
          (.multi data :: stages) ⟨headers, inner, []⟩ (multi :: multis) hne hlist hinner hready₁
          rfl (.inr hbehind)
        obtain ⟨data', hready', houter⟩ := leads_outer stages
          (multi.addMulti ⟨headers, inner, list⟩) hready hsound hrest
        refine ⟨data', hready', ?_⟩
        have hheaders := leads_headers (.multi data :: stages) (multi :: multis) hplain htype hline
        rw [XPart.text_multi]
        simp only [append_assoc] at hheaders hfirst hparts ⊢
        exact ((hheaders.trans hfirst).trans hparts).trans houter

theorem leads_list : ∀ (list : List XPart) {boundary rest : Bytes} {data : DecodeData}
    {stages : List DecodeStage} {multi : MimeMulti} {multis : List MimeMulti},
    list ≠ [] → (∀ x ∈ list, XPart.Legal boundary x) → Sound boundary → Ready boundary data →
    multi.boundary = boundary → (multis = [] ∨ rest ≠ []) →
    Leads ⟨.unknown .new :: .multi data :: stages, multi :: multis⟩
      (listText boundary list ++ rest) (closed stages (multi.add list) multis) rest
  | [], _, _, _, _, _, _, hne, _, _, _, _, _ => absurd rfl hne
  | [x], boundary, rest, data, stages, multi, multis, _, hlist, hsound, hready, hmulti, hrest => by
    obtain ⟨data', -, hpart⟩ := @leads_xpart x boundary rest data stages multi multis true
      (hlist x (.head _)) hsound hready hmulti (hrest.imp_left fun h => ⟨rfl, h⟩)
    rw [behind, if_pos rfl] at hpart
    rw [listText, restText]
    simpa only [append_assoc] using hpart
  | x :: y :: ys, boundary, rest, data, stages, multi, multis, _, hlist, hsound, hready, hmulti,
      hrest => by
      have hne : listText boundary (y :: ys) ++ rest ≠ [] :=
        append_ne_nil_of_left_ne_nil (listText_ne_nil boundary _) _
      obtain ⟨data', hready', hpart⟩ := @leads_xpart x boundary
        (listText boundary (y :: ys) ++ rest) data stages multi multis false
        (hlist x (.head _)) hsound hready hmulti (.inr hne)
      have hlater := @leads_list (y :: ys) boundary rest data' stages (multi.add [x]) multis
        (cons_ne_nil y ys)
        (fun z hz => hlist z (.tail x hz)) hsound hready' hmulti hrest
      have hadd : (multi.add [x]).add (y :: ys) = multi.add (x :: y :: ys) := by
        simp [MimeMulti.add]
      rw [hadd] at hlater
      rw [listText, restText]
      simp only [listText, append_assoc] at hpart hlater ⊢
      exact hpart.trans hlater

end

end MimeMultiDecoder

/-! ## The outermost message -/

/-- A message that is read back: with a boundary that the trimming of its first line leaves alone,
and at least one part. -/
structure MimeMulti.Legal (multi : MimeMulti) : Prop where
  sound : Sound multi.boundary
  trim : trimStr (str "--" ++ multi.boundary) = str "--" ++ multi.boundary
  nonempty : multi.list ≠ []
  legal : ∀ x ∈ multi.list, XPart.Legal multi.boundary x

variable {space : Bytes → Option Bytes} {multi : MimeMulti}

theorem dropSpaces_of_none {text : Bytes} (h : space text = none) (n : ℕ) :
    dropSpaces space n text = text := by
  cases n with
  | zero => rfl
  | succ n => rw [dropSpaces, h]

theorem dropSpaces_of_some {text rest : Bytes} (h : space text = some rest) (n : ℕ) :
    dropSpaces space (n + 1) text = dropSpaces space n rest := by
  rw [dropSpaces, h]

variable (text : Bytes)

theorem whitespaceAtFront_dashes : whitespaceAtFront (str "--" ++ text) = none := by
  have hdashes : str "--" = [45, 45] := by decide
  rw [hdashes]
  cases text <;> simp [whitespaceAtFront]

theorem trimStr_dashes :
    trimStr (str "--" ++ text) = (dropSpaces whitespaceAtBack (str "--" ++ text).length
      (str "--" ++ text).reverse).reverse := by
  rw [trimStr, dropSpaces_of_none (whitespaceAtFront_dashes text)]

theorem trimStr_crlf (boundary : Bytes) :
    trimStr (str "--" ++ boundary ++ crlf) = trimStr (str "--" ++ boundary) := by
  rw [append_assoc, trimStr_dashes, trimStr_dashes, ← append_assoc]
  have hreverse : (str "--" ++ boundary ++ crlf).reverse =
      lf :: cr :: (str "--" ++ boundary).reverse := by simp [crlf]
  have hlen : (str "--" ++ boundary ++ crlf).length =
      (str "--" ++ boundary).length + 1 + 1 := by rw [length_append]; rfl
  have hlf : whitespaceAtBack (lf :: cr :: (str "--" ++ boundary).reverse) =
      some (cr :: (str "--" ++ boundary).reverse) := rfl
  have hcr : whitespaceAtBack (cr :: (str "--" ++ boundary).reverse) =
      some (str "--" ++ boundary).reverse := rfl
  rw [hreverse, hlen, dropSpaces_of_some hlf, dropSpaces_of_some hcr]

theorem MimeMultiDecoder.leads_outermost (h : multi.Legal) (rest : Bytes) :
    ∃ data, Ready multi.boundary data ∧
      Leads .new (multi.text ++ rest)
        ⟨[.unknown .new, .multi data], [⟨.new, multi.boundary, []⟩]⟩
        (listText multi.boundary multi.list ++ rest) := by
  refine ⟨whenIsFirstBoundary { DecodeData.new with boundary := multi.boundary },
    ⟨rfl, rfl, rfl, rfl⟩, ?_⟩
  have hne : listText multi.boundary multi.list ++ rest ≠ [] :=
    append_ne_nil_of_left_ne_nil (listText_ne_nil _ _) _
  refine Leads.round (by simp) ?_ (.inl hne)
  have hline : delimiter multi.boundary false = str "--" ++ multi.boundary ++ crlf := by
    simp [delimiter]
  have hdashes : (str "--").isPrefixOf (str "--" ++ multi.boundary) = true := by
    rw [ List.isPrefixOf_iff_prefix]
    exact prefix_append _ _
  have hdrop : (str "--" ++ multi.boundary).drop 2 = multi.boundary := rfl
  have hfirst : DecodeData.new.outermostFirstBoundary (multi.text ++ rest) =
      (whenIsFirstBoundary { DecodeData.new with boundary := multi.boundary },
        some multi.boundary, listText multi.boundary multi.list ++ rest) := by
    rw [outermostFirstBoundary, MimeMulti.text, append_assoc, h.sound.getCrlfContain]
    have htrim : trimStr (DecodeData.new.src ++ delimiter multi.boundary false) =
        str "--" ++ multi.boundary := by
      rw [hline]
      exact (trimStr_crlf multi.boundary).trans h.trim
    simp only [htrim, hdashes, if_true, hdrop]
  rw [round, multiDecode, if_neg (by rintro ⟨⟩),
    if_pos (show DecodeData.new.isOutermost = true from rfl), hfirst]
  rfl

theorem decode_text (h : multi.Legal) (rest : Bytes) :
    ∃ fuel last, MimeMultiDecoder.new.decode fuel (multi.text ++ rest) =
      some (.ok (last, some { multi with headers := .new }, rest)) := by
  obtain ⟨data, hready, houtermost⟩ := leads_outermost h rest
  have hparts := @leads_list multi.list multi.boundary rest data []
    ⟨.new, multi.boundary, []⟩ [] h.nonempty h.legal h.sound hready rfl (.inl rfl)
  obtain ⟨n, hleads⟩ := houtermost.trans hparts
  refine ⟨1 + n, ⟨[], []⟩, ?_⟩
  have hne : (multi.text ++ rest).isEmpty = false := by simp [MimeMulti.text, delimiter, crlf]
  rw [decode, hne, if_neg Bool.false_ne_true, hleads]
  rfl

end YlongHttp.Mime
