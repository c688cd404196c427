import Mathlib.Tactic

/-! # References to resources (RFC 3986)

A reference is split as in Appendix B, without its fragment, and resolved against a base as in
section 5.2. -/

namespace Library

open List

structure Reference where
  scheme : Option (List UInt8)
  authority : Option (List UInt8)
  path : List UInt8
  query : Option (List UInt8)
deriving DecidableEq

namespace Reference

variable {segment stops text : List UInt8} {b : UInt8}

abbrev slash : UInt8 := '/'.toUInt8

abbrev dot : UInt8 := '.'.toUInt8

/-! ## Splitting -/

def upTo (stops text : List UInt8) : List UInt8 := text.takeWhile fun b => !stops.contains b

/-- What follows them. -/
def beyond (stops text : List UInt8) : List UInt8 := text.dropWhile fun b => !stops.contains b

/-- `^(([^:/?#]+):)?` -/
def splitScheme (text : List UInt8) : Option (List UInt8) × List UInt8 :=
  let stops := [':'.toUInt8, slash, '?'.toUInt8, '#'.toUInt8]
  match upTo stops text, beyond stops text with
  | b :: front, c :: rest => if c = ':'.toUInt8 then (some (b :: front), rest) else (none, text)
  | _, _ => (none, text)

/-- `(//([^/?#]*))?` -/
def splitAuthority : List UInt8 → Option (List UInt8) × List UInt8
  | b :: c :: rest =>
    let stops := [slash, '?'.toUInt8, '#'.toUInt8]
    if b = slash ∧ c = slash then (some (upTo stops rest), beyond stops rest)
    else (none, b :: c :: rest)
  | text => (none, text)

/-- `(\?([^#]*))?` -/
def splitQuery : List UInt8 → Option (List UInt8)
  | b :: rest => if b = '?'.toUInt8 then some (upTo ['#'.toUInt8] rest) else none
  | [] => none

/-- A reference without its fragment. -/
def parse (text : List UInt8) : Reference :=
  let (scheme, rest) := splitScheme text
  let (authority, rest) := splitAuthority rest
  { scheme, authority, path := upTo ['?'.toUInt8, '#'.toUInt8] rest
    query := splitQuery (beyond ['?'.toUInt8, '#'.toUInt8] rest) }

/-! ## Dot segments -/

variable (output path : List UInt8)

/-- An output buffer without its last segment, and the slash before that. -/
def removeLast : List UInt8 :=
  ((output.reverse.dropWhile (· ≠ slash)).drop 1).reverse

/-- The loop of `remove_dot_segments`. -/
def removeDots : ℕ → List UInt8 → List UInt8 → List UInt8
  | 0, _, output => output
  | fuel + 1, input, output =>
    if input = [] then output
    else if [dot, dot, slash] <+: input then removeDots fuel (input.drop 3) output
    else if [dot, slash] <+: input then removeDots fuel (input.drop 2) output
    else if [slash, dot, slash] <+: input then removeDots fuel (input.drop 2) output
    else if input = [slash, dot] then removeDots fuel [slash] output
    else if [slash, dot, dot, slash] <+: input then
      removeDots fuel (input.drop 3) (removeLast output)
    else if input = [slash, dot, dot] then removeDots fuel [slash] (removeLast output)
    else if input = [dot] ∨ input = [dot, dot] then removeDots fuel [] output
    else
      let rest := (input.drop 1).dropWhile (· ≠ slash)
      removeDots fuel rest (output ++ input.take (input.length - rest.length))

def removeDotSegments : List UInt8 := removeDots path.length path []

/-- A path that has a segment of one or two dots. -/
def HasDots : Prop :=
  ∃ segment ∈ path.splitOn slash, segment = [dot] ∨ segment = [dot, dot]

/-! ## Resolution -/

/-- `merge`, for a base that has an authority. -/
def merge (base path : List UInt8) : List UInt8 :=
  if base = [] then slash :: path else (base.reverse.dropWhile (· ≠ slash)).reverse ++ path

/-- The target of a reference. -/
def resolve (base reference : Reference) : Reference :=
  if reference.scheme.isSome then
    { reference with path := removeDotSegments reference.path }
  else if reference.authority.isSome then
    { reference with scheme := base.scheme, path := removeDotSegments reference.path }
  else if reference.path = [] then
    { base with query := reference.query.or base.query }
  else if reference.path.head? = some slash then
    { base with path := removeDotSegments reference.path, query := reference.query }
  else
    { base with
      path := removeDotSegments (merge base.path reference.path), query := reference.query }

/-! ## What is split -/

theorem upTo_append_beyond (stops text : List UInt8) :
    upTo stops text ++ beyond stops text = text := List.takeWhile_append_dropWhile

theorem not_mem_upTo (h : b ∈ upTo stops text) : b ∉ stops := by
  have hb := all_eq_true.mp
    (all_takeWhile (p := fun b => !stops.contains b) (l := text)) b h
  simpa using hb

theorem head_beyond {rest : List UInt8} (h : beyond stops text = b :: rest) : b ∈ stops := by
  have hb := head?_dropWhile_not (fun b => !stops.contains b) text
  rw [show text.dropWhile (fun b => !stops.contains b) = b :: rest from h] at hb
  simpa using hb

theorem upTo_eq {front back : List UInt8} (hfront : ∀ b ∈ front, b ∉ stops)
    (hback : ∀ b ∈ back.head?, b ∈ stops) :
    upTo stops (front ++ back) = front ∧ beyond stops (front ++ back) = back := by
  have hfront' : ∀ b ∈ front, (!stops.contains b) = true := fun b hb => by simp [hfront b hb]
  rw [upTo, beyond, takeWhile_append_of_pos hfront', dropWhile_append_of_pos hfront']
  cases back with
  | nil => exact ⟨append_nil front, rfl⟩
  | cons b back =>
    have hb : (!stops.contains b) = false := by simpa using hback b rfl
    rw [takeWhile_cons, dropWhile_cons, hb]
    exact ⟨append_nil front, rfl⟩

theorem upTo_upTo {stops' : List UInt8} (h : stops' ⊆ stops) (text : List UInt8) :
    upTo stops' text = upTo stops text ++ upTo stops' (beyond stops text) ∧
      beyond stops' text = beyond stops' (beyond stops text) := by
  have htext : text = upTo stops text ++ upTo stops' (beyond stops text) ++
      beyond stops' (beyond stops text) := by
    rw [append_assoc, upTo_append_beyond, upTo_append_beyond]
  have hsplit : upTo stops' (upTo stops text ++ upTo stops' (beyond stops text) ++
        beyond stops' (beyond stops text)) = upTo stops text ++ upTo stops' (beyond stops text) ∧
      beyond stops' (upTo stops text ++ upTo stops' (beyond stops text) ++
        beyond stops' (beyond stops text)) = beyond stops' (beyond stops text) := by
    refine upTo_eq ?_ ?_
    · intro b hb hmem
      rcases mem_append.mp hb with hb | hb
      · exact not_mem_upTo hb (h hmem)
      · exact not_mem_upTo hb hmem
    · intro b hb
      cases hrest : beyond stops' (beyond stops text) with
      | nil =>
        rw [hrest] at hb
        cases hb
      | cons c rest =>
        rw [hrest] at hb
        exact Option.some.inj hb ▸ head_beyond hrest
  rwa [← htext] at hsplit

/-! ## What is removed -/

theorem removeLast_length : (removeLast output).length ≤ output.length := by
  rw [removeLast, length_reverse, length_drop]
  have hle := (dropWhile_sublist (· ≠ slash) (l := output.reverse)).length_le
  rw [length_reverse] at hle
  omega

theorem hasDots_append (hseg : slash ∉ segment) (rest : List UInt8) :
    HasDots (segment ++ slash :: rest) ↔
      (segment = [dot] ∨ segment = [dot, dot]) ∨ HasDots rest := by
  simp only [HasDots, splitOn_append_cons_self_of_not_mem hseg, mem_cons, exists_eq_or_imp]

theorem hasDots_single (hseg : slash ∉ segment) :
    HasDots segment ↔ segment = [dot] ∨ segment = [dot, dot] := by
  simp only [HasDots, splitOn_eq_singleton hseg, mem_singleton, exists_eq_left]

theorem hasDots_slash (rest : List UInt8) : HasDots (slash :: rest) ↔ HasDots rest := by
  have h : HasDots ([] ++ slash :: rest) ↔ _ := hasDots_append not_mem_nil rest
  rw [nil_append] at h
  rw [h]
  simp

theorem dropWhile_slash (text : List UInt8) :
    text.dropWhile (· ≠ slash) = [] ∨ ∃ rest, text.dropWhile (· ≠ slash) = slash :: rest := by
  cases h : text.dropWhile (· ≠ slash) with
  | nil => exact .inl rfl
  | cons b rest =>
    have hb := head?_dropWhile_not (· ≠ slash) text
    rw [h] at hb
    exact .inr ⟨rest, by simpa using hb⟩

theorem hasDots_segment (hseg : slash ∉ segment)
    (hdots : segment ≠ [dot] ∧ segment ≠ [dot, dot]) (htext : text = [] ∨ text.head? = some slash) :
    HasDots (segment ++ text) ↔ HasDots text := by
  rcases text with _ | ⟨b, rest⟩
  · rw [append_nil, hasDots_single hseg, hasDots_single not_mem_nil]
    exact iff_of_false (not_or.mpr hdots) (by decide)
  · obtain rfl : b = slash := by simpa using htext
    rw [hasDots_append hseg, hasDots_slash, or_iff_right (not_or.mpr hdots)]

theorem removeDots_spec {fuel : ℕ} : ∀ {input output : List UInt8}, input.length ≤ fuel →
    (¬HasDots input ∧ removeDots fuel input output = output ++ input) ∨
      (HasDots input ∧ (removeDots fuel input output).length < output.length + input.length) := by
  have hnil : ¬HasDots [] := by
    rw [hasDots_single not_mem_nil]
    decide
  induction fuel with
  | zero =>
    intro input output hfuel
    obtain rfl := eq_nil_of_length_eq_zero (Nat.le_zero.mp hfuel)
    exact .inl ⟨hnil, (append_nil output).symm⟩
  | succ fuel ih =>
    intro input output hfuel
    -- A step that drops a part of a dot segment, and may drop some of the output.
    have lost {next output' : List UInt8} (hdots : HasDots input)
        (hnext : next.length < input.length) (houtput : output'.length ≤ output.length) :
        (¬HasDots input ∧ removeDots fuel next output' = output ++ input) ∨
          (HasDots input ∧
            (removeDots fuel next output').length < output.length + input.length) := by
      refine .inr ⟨hdots, ?_⟩
      rcases @ih _ output' (show next.length ≤ fuel by omega) with ⟨-, h⟩ | ⟨-, h⟩
      · rw [h, length_append]
        omega
      · omega
    have hlast := removeLast_length output
    have hone : slash ∉ [dot] := by decide
    have htwo : slash ∉ [dot, dot] := by decide
    rw [removeDots]
    split_ifs with hempty hup hhere hin hend hover hback halone
    · rw [hempty, append_nil]
      exact .inl ⟨hnil, rfl⟩
    · obtain ⟨rest, rfl⟩ := hup
      exact lost ((hasDots_append htwo rest).mpr (.inl (.inr rfl)))
        (by simp only [length_drop, length_append, length_cons]; omega) le_rfl
    · obtain ⟨rest, rfl⟩ := hhere
      exact lost ((hasDots_append hone rest).mpr (.inl (.inl rfl))) (by simp) le_rfl
    · obtain ⟨rest, rfl⟩ := hin
      refine lost ((hasDots_slash _).mpr ?_) (by simp) le_rfl
      exact (hasDots_append hone rest).mpr (.inl (.inl rfl))
    · refine lost ?_ (by simp [hend]) le_rfl
      rw [hend, hasDots_slash, hasDots_single hone]
      exact .inl rfl
    · obtain ⟨rest, rfl⟩ := hover
      refine lost ((hasDots_slash _).mpr ?_) (by simp) hlast
      exact (hasDots_append htwo rest).mpr (.inl (.inr rfl))
    · refine lost ?_ (by simp [hback]) hlast
      rw [hback, hasDots_slash, hasDots_single htwo]
      exact .inr rfl
    · refine lost ?_ (length_pos_iff.mpr hempty) le_rfl
      rcases halone with h | h
      · rw [h, hasDots_single hone]
        exact .inl rfl
      · rw [h, hasDots_single htwo]
        exact .inr rfl
    · obtain ⟨b, text, rfl⟩ := exists_cons_of_ne_nil hempty
      rw [drop_one, tail_cons]
      have htext := takeWhile_append_dropWhile (p := (· ≠ slash)) (l := text)
      have hpart : slash ∉ text.takeWhile (· ≠ slash) := fun h => by
        simpa using all_eq_true.mp (all_takeWhile (p := (· ≠ slash)) (l := text)) _ h
      have hrest := dropWhile_slash text
      generalize text.takeWhile (· ≠ slash) = part at htext hpart
      generalize text.dropWhile (· ≠ slash) = rest at htext hrest
      subst htext
      have hhead : rest = [] ∨ rest.head? = some slash := by
        rcases hrest with rfl | ⟨rest, rfl⟩
        · exact .inl rfl
        · exact .inr rfl
      have htake : (b :: (part ++ rest)).take ((b :: (part ++ rest)).length - rest.length) =
          b :: part := by
        have hlen : (b :: (part ++ rest)).length - rest.length = (b :: part).length := by
          simp only [length_cons, length_append]
          omega
        rw [hlen]
        exact @take_left _ (b :: part) rest
      have hdots : HasDots (b :: (part ++ rest)) ↔ HasDots rest := by
        by_cases hb : b = slash
        · subst hb
          have hpart' : part ≠ [dot] ∧ part ≠ [dot, dot] := by
            refine ⟨?_, ?_⟩ <;> rintro rfl <;> rcases hrest with rfl | ⟨rest, rfl⟩
            · exact hend rfl
            · exact hin ⟨rest, rfl⟩
            · exact hback rfl
            · exact hover ⟨rest, rfl⟩
          rw [hasDots_slash, hasDots_segment hpart hpart' hhead]
        · have hwhole : slash ∉ b :: part :=
            fun h => (mem_cons.mp h).elim (fun h => hb h.symm) hpart
          have hpart' : b :: part ≠ [dot] ∧ b :: part ≠ [dot, dot] := by
            refine ⟨?_, ?_⟩ <;> intro h <;> obtain ⟨rfl, rfl⟩ := cons.inj h <;>
              rcases hrest with rfl | ⟨rest, rfl⟩
            · exact halone (.inl rfl)
            · exact hhere ⟨rest, rfl⟩
            · exact halone (.inr rfl)
            · exact hup ⟨rest, rfl⟩
          exact hasDots_segment hwhole hpart' hhead
      dsimp only
      rw [htake, hdots]
      have hfuel' : rest.length ≤ fuel := by
        simp only [length_cons, length_append] at hfuel
        omega
      rcases @ih _ (output ++ b :: part) hfuel' with ⟨hnot, h⟩ | ⟨his, h⟩
      · refine .inl ⟨hnot, ?_⟩
        rw [h, append_assoc, cons_append]
      · refine .inr ⟨his, ?_⟩
        simp only [length_append, length_cons] at h ⊢
        omega

theorem removeDotSegments_spec :
    (¬HasDots path ∧ removeDotSegments path = path) ∨
      (HasDots path ∧ (removeDotSegments path).length < path.length) := by
  rw [removeDotSegments]
  rcases @removeDots_spec _ path [] le_rfl with ⟨hnot, h⟩ | ⟨hdots, h⟩
  · exact .inl ⟨hnot, h⟩
  · rw [length_nil, Nat.zero_add] at h
    exact .inr ⟨hdots, h⟩

theorem removeDotSegments_length : (removeDotSegments path).length ≤ path.length := by
  rcases removeDotSegments_spec path with ⟨-, h⟩ | ⟨-, h⟩
  · rw [h]
  · exact h.le

end Reference

end Library
