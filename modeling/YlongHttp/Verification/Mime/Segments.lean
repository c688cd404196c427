import YlongHttp.Verification.Mime.Panics

/-! # Messages that come in segments -/

namespace YlongHttp.Mime

open List MimeMultiDecoder DecodeData
open Library (Outcome Rounds)

namespace MimeMultiDecoder

/-- Segments that are fed in order until the message is complete or there is an error. What is not
consumed is the rest of the last call and the segments that are not fed. -/
inductive Feeds : MimeMultiDecoder → List Bytes → Decode → Prop
  | complete {self : MimeMultiDecoder} {segment rest : Bytes} {segments : List Bytes}
      {multi : MimeMulti} (call : self.Decodes segment (.complete multi rest)) :
      Feeds self (segment :: segments) (.complete multi (rest ++ segments.flatten))
  | error {self : MimeMultiDecoder} {segment : Bytes} {segments : List Bytes} {e : Fault HttpError}
      (call : self.Decodes segment (.error e)) : Feeds self (segment :: segments) (.error e)
  | last {self next : MimeMultiDecoder} {segment : Bytes}
      (call : self.Decodes segment (.more next)) : Feeds self [segment] (.more next)
  | more {self next : MimeMultiDecoder} {segment segment' : Bytes} {segments : List Bytes}
      {o : Decode} (call : self.Decodes segment (.more next))
      (later : Feeds next (segment' :: segments) o) : Feeds self (segment :: segment' :: segments) o

/-- Nothing is lost at the end of a segment that another one follows: it has no header line that
begins with blanks at its end, and the decoder behind it is one that the next segment goes on from. -/
def Clean : MimeMultiDecoder → List Bytes → Prop
  | self, segment :: segment' :: segments =>
    ¬self.MeetsBlanks segment ∧
      ∀ next, self.Decodes segment (.more next) →
        next.Fine segment' ∧ Clean next (segment' :: segments)
  | _, _ => True

/-! ## The segments of a message -/

variable {self : MimeMultiDecoder} {o : Decode} {segment : Bytes} {segments : List Bytes}

theorem feeds_total (hgood : self.Good) (hsegments : segments ≠ [])
    (hnonempty : ∀ segment ∈ segments, segment ≠ []) : ∃ o, self.Feeds segments o := by
  induction segments generalizing self with
  | nil => exact absurd rfl hsegments
  | cons segment segments ih =>
    have hseg := hnonempty segment (.head _)
    obtain ⟨o, hends⟩ := ends_total hgood hseg
    have hcall := (decodes_iff hgood hseg).mpr hends
    cases o with
    | complete multi rest => exact ⟨_, .complete hcall⟩
    | error e => exact ⟨_, .error hcall⟩
    | more next =>
      cases segments with
      | nil => exact ⟨_, .last hcall⟩
      | cons segment' segments =>
        obtain ⟨hnext, -⟩ := lawful.good.more hgood (.inl hseg) hends
        obtain ⟨o, hlater⟩ := ih hnext (cons_ne_nil _ _)
          fun s hs => hnonempty s (.tail _ hs)
        exact ⟨o, .more hcall hlater⟩

theorem flatten_ne_nil (hsegments : segments ≠ []) (hnonempty : ∀ segment ∈ segments, segment ≠ []) :
    segments.flatten ≠ [] := by
  obtain ⟨segment, segments, rfl⟩ := exists_cons_of_ne_nil hsegments
  exact append_ne_nil_of_left_ne_nil (hnonempty segment (.head _)) _

theorem Fine.append (h : self.Fine segment) (hseg : segment ≠ []) (later : Bytes) :
    self.Fine (segment ++ later) := by
  obtain ⟨b, segment, rfl⟩ := exists_cons_of_ne_nil hseg
  rcases self with ⟨stages, multis⟩
  cases stages with
  | nil => trivial
  | cons stage stages =>
    cases stage with
    | multi data => exact h
    | part decoder => trivial
    | done => trivial
    | unknown decoder =>
      cases stages with
      | nil => trivial
      | cons below stages =>
        cases below with
        | multi data => exact h
        | unknown decoder => trivial
        | part decoder => trivial
        | done => trivial

theorem ends_of_feeds (hgood : self.Good) (hnonempty : ∀ segment ∈ segments, segment ≠ [])
    (hclean : self.Clean segments) (hfeeds : self.Feeds segments o) :
    rounds.Ends self segments.flatten o := by
  induction hfeeds with
  | @complete self segment rest segments multi call =>
    have hseg := hnonempty segment (.head _)
    have hends := (decodes_iff hgood hseg).mp call
    rw [flatten_cons]
    by_cases hlater : segments.flatten = []
    · rwa [hlater, append_nil, append_nil]
    · exact lawful.ends hgood (.inl hseg) hlater hends
  | @error self segment segments e call =>
    have hseg := hnonempty segment (.head _)
    have hends := (decodes_iff hgood hseg).mp call
    rw [flatten_cons]
    cases segments with
    | nil => rwa [flatten_nil, append_nil]
    | cons segment' segments =>
      have hlater : (segment' :: segments).flatten ≠ [] := flatten_ne_nil (cons_ne_nil _ _)
        fun s hs => hnonempty s (.tail _ hs)
      refine (lawful.ends hgood (.inl hseg) hlater hends).resolve_left ?_
      rintro rfl
      exact hclean.1 ((ends_panic_iff hgood hseg).mp hends)
  | @last self next segment call =>
    have hseg := hnonempty segment (.head _)
    rw [flatten_cons, flatten_nil, append_nil]
    exact (decodes_iff hgood hseg).mp call
  | @more self next segment segment' segments o call later ih =>
    have hseg := hnonempty segment (.head _)
    have hnonempty' : ∀ s ∈ segment' :: segments, s ≠ [] := fun s hs => hnonempty s (.tail _ hs)
    have hends := (decodes_iff hgood hseg).mp call
    obtain ⟨hfine, hlater⟩ := hclean.2 next call
    obtain ⟨hnext, -⟩ := lawful.good.more hgood (.inl hseg) hends
    have hwhole := lawful.ends hgood (.inl hseg)
      (flatten_ne_nil (cons_ne_nil _ _) hnonempty') hends
    rw [flatten_cons]
    have hfine' := hfine.append (hnonempty' segment' (.head _)) segments.flatten
    exact hwhole hfine' o (ih hnext hnonempty' hlater)

theorem decode_preamble {buf line unparsed : Bytes} (h : getCrlfContain buf = some (line, unparsed))
    (hdashes : ¬(str "--").isPrefixOf (trimStr line) = true) :
    new.decode 1 buf = some (.ok (new, none, [])) := by
  have hbuf : ¬buf.isEmpty = true := by
    intro hempty
    rw [isEmpty_iff.mp hempty] at h
    cases h
  have hround : round ⟨[], [.new]⟩ (.multi .new) buf = .ok (new, []) := by
    rw [round, multiDecode, if_neg (by rintro ⟨⟩),
      if_pos (show DecodeData.new.isOutermost = true from rfl), DecodeData.outermostFirstBoundary, h]
    have hline : DecodeData.new.src ++ line = line := rfl
    simp only [hline, if_neg hdashes]
    rfl
  rw [decode, if_neg hbuf, decodeLoop]
  dsimp only [new]
  rw [if_neg (by simp), hround]
  rfl

theorem decode_open {buf : Bytes} (h : getCrlfContain buf = none) (hbuf : buf ≠ []) :
    new.decode 1 buf =
      some (.ok (⟨[.multi { DecodeData.new with src := buf }], [.new]⟩, none, [])) := by
  have hround : round ⟨[], [.new]⟩ (.multi .new) buf =
      .ok (⟨[.multi { DecodeData.new with src := buf }], [.new]⟩, []) := by
    rw [round, multiDecode, if_neg (by rintro ⟨⟩),
      if_pos (show DecodeData.new.isOutermost = true from rfl), DecodeData.outermostFirstBoundary, h]
    rfl
  rw [decode, if_neg (by simpa using hbuf), decodeLoop]
  dsimp only [new]
  rw [if_neg (by simp), hround]
  rfl

end MimeMultiDecoder

/-- Where nothing is lost at the ends of the segments, they are read as the whole. -/
theorem feeds_iff {segments : List Bytes} (hsegments : segments ≠ [])
    (hnonempty : ∀ segment ∈ segments, segment ≠ [])
    (hclean : MimeMultiDecoder.new.Clean segments) :
    (∃ o, MimeMultiDecoder.new.Feeds segments o) ∧
      ∀ o, MimeMultiDecoder.new.Feeds segments o ↔
        MimeMultiDecoder.new.Decodes segments.flatten o := by
  have hgood := good_new
  have hbuf := flatten_ne_nil hsegments hnonempty
  obtain ⟨o, hfeeds⟩ := feeds_total hgood hsegments hnonempty
  refine ⟨⟨o, hfeeds⟩, fun o' => ⟨fun hfeeds' => ?_, fun hdecodes => ?_⟩⟩
  · exact (decodes_iff hgood hbuf).mpr
      (ends_of_feeds hgood hnonempty hclean hfeeds')
  · have hends := ends_of_feeds hgood hnonempty hclean hfeeds
    rw [((decodes_iff hgood hbuf).mp hdecodes).unique hends]
    exact hfeeds

def plain : MimeMulti := { headers := .new, boundary := str "b", list := [.part ⟨.new, []⟩] }

theorem legal_plain : plain.Legal := by
  refine ⟨sound_of_getLast (by decide) rfl (by decide), by decide, by nofun, ?_⟩
  intro x hx
  rw [mem_singleton.mp hx]
  exact .part (fun _ hent => absurd hent not_mem_nil) rfl .nil

/-- A cut after the first dash. -/
theorem feeds_iff_dash :
    MimeMultiDecoder.new.Feeds [str "-", plain.text.tail] (.complete plain []) := by
  have htext : [str "-", plain.text.tail].flatten = plain.text := by
    rw [MimeMulti.text, delimiter]
    rfl
  have hopen : MimeMultiDecoder.new.Decodes (str "-")
      (.more ⟨[.multi { DecodeData.new with src := str "-" }], [.new]⟩) :=
    ⟨1, MimeMultiDecoder.decode_open (by decide) (by decide)⟩
  have hends := (MimeMultiDecoder.decodes_iff MimeMultiDecoder.good_new (by decide)).mp hopen
  have hclean : MimeMultiDecoder.new.Clean [str "-", plain.text.tail] := by
    refine ⟨fun hblanks => ?_, fun next hnext => ⟨?_, trivial⟩⟩
    · have hpanic := (ends_panic_iff good_new (by decide)).mpr hblanks
      cases hends.unique hpanic
    · have hnext' :=
        (decodes_iff good_new (by decide)).mp hnext
      cases hends.unique hnext'
      exact .inr (.inr (by decide))
  have hnonempty : ∀ segment ∈ [str "-", plain.text.tail], segment ≠ [] := by
    intro segment hseg
    rcases mem_cons.mp hseg with rfl | hseg
    · decide
    · rw [mem_singleton.mp hseg, MimeMulti.text, delimiter]
      exact cons_ne_nil _ _
  refine ((feeds_iff (by simp) hnonempty hclean).2 _).mpr ?_
  rw [htext]
  obtain ⟨fuel, last, hdec⟩ := decode_text legal_plain []
  rw [append_nil] at hdec
  exact ⟨fuel, last, hdec⟩

/-- In one call the message behind the first line is lost. -/
theorem not_feeds_iff :
    MimeMultiDecoder.new.Feeds [str "x\r\n", plain.text] (.complete plain []) ∧
      MimeMultiDecoder.new.Decodes (str "x\r\n" ++ plain.text) (.more .new) := by
  have hdashes : ¬(str "--").isPrefixOf (trimStr (str "x\r\n")) = true := by decide
  have hline : getCrlfContain (str "x\r\n") = some (str "x\r\n", []) := by decide
  have hfirst : new.Decodes (str "x\r\n") (.more .new) :=
    ⟨1, decode_preamble hline hdashes⟩
  have hlonger := (getCrlfContain_append_some hline plain.text).1
  obtain ⟨fuel, last, hsec⟩ := decode_text legal_plain []
  rw [append_nil] at hsec
  exact ⟨.more hfirst (.complete ⟨fuel, last, hsec⟩),
    1, decode_preamble hlonger hdashes⟩

end YlongHttp.Mime
