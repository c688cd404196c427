import YlongHttp.Library.Except
import YlongHttp.Verification.Qpack.Panics

/-! # The size of a field section

The lines are counted one by one while they are decoded, but for those that are an index into a
table. -/

namespace YlongHttp.Qpack

open List

/-! ## Lines -/

/-- A line of a section, with the field it stands for. -/
structure FieldLine where
  repr : Representation
  name : NameField
  value : Bytes

namespace FieldLine

def size (line : FieldLine) : ℕ := line.name.len + line.value.length + 32

def isIndexed (line : FieldLine) : Bool :=
  match line.repr with
  | .indexed _ _ => true
  | _ => false

/-- What `check_field_list_size` counts of the line. -/
def counted (line : FieldLine) : ℕ := if line.isIndexed then 0 else line.size

end FieldLine

def sectionSize (lines : List FieldLine) : ℕ := (lines.map FieldLine.size).sum

def countedSize (lines : List FieldLine) : ℕ := (lines.map FieldLine.counted).sum

@[simp]
theorem countedSize_append (as bs : List FieldLine) :
    countedSize (as ++ bs) = countedSize as + countedSize bs := by
  simp [countedSize]

theorem countedSize_le (lines : List FieldLine) : countedSize lines ≤ sectionSize lines := by
  induction lines with
  | nil => exact le_rfl
  | cons line lines ih =>
    have hline : line.counted ≤ line.size := by
      rw [FieldLine.counted]
      split <;> omega
    simp only [countedSize, sectionSize, map_cons, sum_cons] at ih ⊢
    omega

theorem sectionSize_le_iff (lines : List FieldLine) :
    sectionSize lines ≤ countedSize lines ↔ ∀ line ∈ lines, line.isIndexed = false := by
  induction lines with
  | nil => simp [sectionSize, countedSize]
  | cons line lines ih =>
    have hrest := countedSize_le lines
    have hpos : 0 < line.size := by
      rw [FieldLine.size]
      omega
    simp only [forall_mem_cons, ← ih]
    simp only [countedSize, sectionSize, map_cons, sum_cons] at hrest ⊢
    cases hindexed : line.isIndexed with
    | true =>
      simp only [FieldLine.counted, hindexed, if_true]
      constructor
      · intro h
        omega
      · rintro ⟨h, -⟩
        cases h
    | false => simp [FieldLine.counted, hindexed]

/-! ## One line -/

namespace Searcher

variable {s s' : Searcher} {repr : Representation}

/-- What a representation adds to the lines, if it is not the prefix. -/
def search (s : Searcher) : Representation → Except (Fault QpackError) Searcher
  | .fieldSectionPrefix _ _ _ => .ok s
  | .indexed midBit index => s.searchIndexed midBit index
  | .indexedWithPostIndex index => s.searchPostIndexed index
  | .literalWithIndexing midBit name value => s.searchLiteral midBit name value .literalWithIndexing
  | .literalWithPostIndexing midBit name value =>
    s.searchLiteral midBit name value .literalWithPostIndexing
  | .literalWithLiteralName midBit name value =>
    s.searchLiteral midBit name value .literalWithLiteralName

def lines (s : Searcher) (repr : Representation) : List FieldLine :=
  (s.lineField repr).toList.map fun (name, value) => { repr, name, value }

variable {f : NameField} {v : Bytes} {index : ℕ} {midBit : MidBit}

theorem addLine_ok :
    s.addLine f v = .ok s' ↔
      ∃ parts, updateParts s.parts f v = some parts ∧ s' = { s with parts } := by
  cases hparts : updateParts s.parts f v with
  | none => simp [addLine, hparts, orPanic]
  | some parts => simp [addLine, hparts, orPanic, eq_comm]

theorem counted_ok :
    (s.checkFieldListSize f v >>= fun s => s.addLine f v) = .ok s' ↔
      s.headerSize + (f.len + v.length + 32) ≤ s.maxFieldSectionSize ∧
        ∃ parts, updateParts s.parts f v = some parts ∧
          s' = { s with headerSize := s.headerSize + (f.len + v.length + 32), parts } := by
  by_cases hle : s.headerSize + (f.len + v.length + 32) ≤ s.maxFieldSectionSize
  · simp only [checkFieldListSize, if_neg (Nat.not_lt.mpr hle), bind, Except.bind, addLine_ok, hle,
      true_and]
  · simp [checkFieldListSize, if_pos (Nat.lt_of_not_le hle), bind, Except.bind, hle]

def adds (s s' : Searcher) (counted : Bool) (f : NameField) (v : Bytes) : Prop :=
  (counted → s.headerSize + (f.len + v.length + 32) ≤ s.maxFieldSectionSize) ∧
    ∃ parts, updateParts s.parts f v = some parts ∧
      s' = { s with
        headerSize := s.headerSize + if counted then f.len + v.length + 32 else 0, parts }

theorem exists_field {found : NameField × Bytes} {P : NameField → Bytes → Prop} :
    (∃ f v, found = (f, v) ∧ P f v) ↔ P found.1 found.2 := by
  constructor
  · rintro ⟨f, v, rfl, h⟩
    exact h
  · exact fun h => ⟨found.1, found.2, rfl, h⟩

theorem searchIndexed_ok :
    s.searchIndexed midBit index = .ok s' ↔
      ∃ f v, s.lineField (.indexed midBit index) = some (f, v) ∧ s.adds s' false f v := by
  have hadds : ∀ f v, s.adds s' false f v ↔ s.addLine f v = .ok s' := by
    intro f v
    simp [adds, addLine_ok]
  simp only [hadds, lineField]
  rw [searchIndexed]
  split
  · cases staticField index with
    | none => simp [okOr, bind, Except.bind]
    | some found => simp [okOr, bind, Except.bind, exists_field]
  · rw [relative]
    cases checkedSub s.base (index + 1) with
    | none => simp [orPanic, bind, Except.bind]
    | some i =>
      simp only [orPanic, bind, Except.bind, Option.bind_some]
      cases s.table.field i with
      | none => simp
      | some found =>
        cases found with
        | none => simp [okOr]
        | some found => simp [okOr, exists_field]

theorem adds_counted (f : NameField) (v : Bytes) :
    s.adds s' true f v ↔ (s.checkFieldListSize f v >>= fun s => s.addLine f v) = .ok s' := by
  simp [adds, counted_ok]

theorem searchPostIndexed_ok :
    s.searchPostIndexed index = .ok s' ↔
      ∃ f v, s.lineField (.indexedWithPostIndex index) = some (f, v) ∧ s.adds s' true f v := by
  simp only [adds_counted, lineField]
  rw [searchPostIndexed, postBase]
  cases checkedAdd s.base index with
  | none => simp [orPanic, bind, Except.bind]
  | some i =>
    simp only [orPanic, bind, Except.bind, Option.bind_some]
    cases s.table.field i with
    | none => simp
    | some found =>
      cases found with
      | none => simp [okOr]
      | some found => simp [okOr, exists_field]

theorem searchLiteral_ok {name : Name} {value : Bytes} {kind : ReprPrefixBit} :
    s.searchLiteral midBit name value kind = .ok s' ↔
      ∃ f v, (s.getFieldByNameAndValue midBit name value kind).toOption = some (f, v) ∧
        s.adds s' true f v := by
  simp only [adds_counted]
  rw [searchLiteral]
  cases s.getFieldByNameAndValue midBit name value kind with
  | error e => simp [bind, Except.bind, Except.toOption]
  | ok found => simp [bind, Except.bind, Except.toOption, exists_field]

def IsLine : Representation → Prop
  | .fieldSectionPrefix _ _ _ => False
  | _ => True

theorem search_ok (hline : IsLine repr) :
    s.search repr = .ok s' ↔ ∃ f v, s.lineField repr = some (f, v) ∧
      s.adds s' (!(FieldLine.mk repr f v).isIndexed) f v := by
  cases repr with
  | fieldSectionPrefix ric signal deltaBase => cases hline
  | indexed midBit index => exact searchIndexed_ok
  | indexedWithPostIndex index => exact searchPostIndexed_ok
  | literalWithIndexing midBit name value | literalWithPostIndexing midBit name value =>
    exact searchLiteral_ok
  | literalWithLiteralName midBit name value => exact searchLiteral_ok

end Searcher

/-! ## The loops -/

namespace QpackDecoder

/-- A part of a section was decoded, with the size of the lines before and behind it. -/
structure Counts (d : QpackDecoder) (before behind : ℕ) (lines : List FieldLine) : Prop where
  sum : behind = before + countedSize lines
  within : before ≤ d.maxFieldSectionSize → behind ≤ d.maxFieldSectionSize

variable {d : QpackDecoder} {before middle behind : ℕ} {as bs : List FieldLine}

theorem Counts.nil : d.Counts before before [] := ⟨rfl, id⟩

theorem Counts.append (h : d.Counts before middle as) (h' : d.Counts middle behind bs) :
    d.Counts before behind (as ++ bs) where
  sum := by rw [h'.sum, h.sum, countedSize_append, Nat.add_assoc]
  within hle := h'.within (h.within hle)

theorem Counts.le (h : d.Counts before behind as) : before ≤ behind := by
  rw [h.sum]
  exact Nat.le_add_right _ _

variable {message message' : ReprMessage} {base base' : ℕ} {rest buf : Bytes}
  {repr : Representation} {state : FieldDecodeState}

theorem handle_line (hline : Searcher.IsLine repr) :
    d.handle message base rest repr = ((d.searcher message base).search repr).map fun s =>
      ({ message with parts := s.parts, headerSize := s.headerSize }, base, .decoded) := by
  cases repr with
  | fieldSectionPrefix ric signal deltaBase => cases hline
  | indexed midBit index =>
    rw [handle, Searcher.search]
    change ((d.searcher message base).searchIndexed midBit index >>= _) = _
    cases (d.searcher message base).searchIndexed midBit index <;> rfl
  | indexedWithPostIndex index =>
    change ((d.searcher message base).searchPostIndexed index >>= _) = _
    rw [Searcher.search]
    cases (d.searcher message base).searchPostIndexed index <;> rfl
  | literalWithIndexing midBit name value =>
    change ((d.searcher message base).searchLiteral midBit name value _ >>= _) = _
    rw [Searcher.search]
    cases (d.searcher message base).searchLiteral midBit name value .literalWithIndexing <;> rfl
  | literalWithPostIndexing midBit name value =>
    change ((d.searcher message base).searchLiteral midBit name value _ >>= _) = _
    rw [Searcher.search]
    cases (d.searcher message base).searchLiteral midBit name value .literalWithPostIndexing <;> rfl
  | literalWithLiteralName midBit name value =>
    change ((d.searcher message base).searchLiteral midBit name value _ >>= _) = _
    rw [Searcher.search]
    cases (d.searcher message base).searchLiteral midBit name value .literalWithLiteralName <;> rfl

theorem lineField_limit (limit : ℕ) :
    ((d.setMaxFieldSectionSize limit).searcher message base).lineField repr =
      (d.searcher message base).lineField repr := by
  cases repr <;> rfl

theorem lines_limit (limit : ℕ) :
    ((d.setMaxFieldSectionSize limit).searcher message base).lines repr =
      (d.searcher message base).lines repr := by
  rw [Searcher.lines, lineField_limit, Searcher.lines]

theorem handle_counts (h : d.handle message base rest repr = .ok (message', base', state)) :
    d.Counts message.headerSize message'.headerSize ((d.searcher message base).lines repr) ∧
      ∀ limit, message'.headerSize ≤ limit →
        (d.setMaxFieldSectionSize limit).handle message base rest repr =
          .ok (message', base', state) := by
  by_cases hline : Searcher.IsLine repr
  · rw [handle_line hline] at h
    cases hsearch : (d.searcher message base).search repr with
    | error e =>
      rw [hsearch] at h
      cases h
    | ok s =>
      rw [hsearch] at h
      cases h
      obtain ⟨f, v, hfld, hwithin, parts, hparts, rfl⟩ := (Searcher.search_ok hline).mp hsearch
      have hlines : countedSize ((d.searcher message base).lines repr) =
          if !(FieldLine.mk repr f v).isIndexed then f.len + v.length + 32 else 0 := by
        rw [Searcher.lines, hfld]
        cases hindexed : (FieldLine.mk repr f v).isIndexed <;>
          simp [countedSize, FieldLine.counted, FieldLine.size, hindexed]
      refine ⟨⟨?_, ?_⟩, ?_⟩
      · rw [hlines]
        rfl
      · dsimp only
        split
        · next hcounted => exact fun _ => hwithin hcounted
        · exact id
      · intro limit hlimit
        have hagain : ((d.setMaxFieldSectionSize limit).searcher message base).search repr =
            .ok { (d.setMaxFieldSectionSize limit).searcher message base with
              headerSize := message.headerSize +
                if !(FieldLine.mk repr f v).isIndexed then f.len + v.length + 32 else 0
              parts } := by
          refine (Searcher.search_ok hline).mpr
            ⟨f, v, (lineField_limit limit).trans hfld, ?_, parts, hparts, rfl⟩
          intro hcounted
          dsimp only at hlimit
          rw [hcounted] at hlimit
          exact hlimit
        rw [handle_line hline, hagain]
        rfl
  · cases repr with
    | fieldSectionPrefix ric signal deltaBase =>
      have hsize : message'.headerSize = message.headerSize := by
        rw [handle] at h
        obtain ⟨count, -, h⟩ := Library.of_bind_ok h
        obtain ⟨start, -, h⟩ := Library.of_bind_ok h
        dsimp only at h
        split at h
        · split at h
          · cases h
          · cases h
            rfl
        · cases h
          rfl
      refine ⟨⟨hsize, fun hle => hsize ▸ hle⟩, fun limit _ => ?_⟩
      exact h
    | _ => exact absurd trivial hline

/-- The lines that the loop of `decode_buffered_repr` adds. -/
def loopLines (d : QpackDecoder) : ℕ → ReprMessage → ℕ → Bytes → List FieldLine
  | 0, _, _, _ => []
  | fuel + 1, message, base, buf =>
    if buf = [] then []
    else
      match (message.reprState.getD .filedSectionPrefix).decode buf with
      | (.needMore _, _) => []
      | (.error _, _) => []
      | (.decoded repr, rest) =>
        let message := { message with
          reprState := if rest = [] then none else some (.reprIndex .firstByte) }
        (d.searcher message base).lines repr ++
          match handle d message base rest repr with
          | .error _ => []
          | .ok (_, _, .blocked) => []
          | .ok (message, base, .decoded) => loopLines d fuel message base rest

theorem decodeReprLoop_counts {fuel : ℕ}
    (h : decodeReprLoop d fuel message base buf = .ok (message', state)) :
    d.Counts message.headerSize message'.headerSize (loopLines d fuel message base buf) ∧
      ∀ limit, message'.headerSize ≤ limit →
        decodeReprLoop (d.setMaxFieldSectionSize limit) fuel message base buf =
            .ok (message', state) ∧
          loopLines (d.setMaxFieldSectionSize limit) fuel message base buf =
            loopLines d fuel message base buf := by
  induction fuel generalizing message base buf with
  | zero =>
    cases h
    exact ⟨.nil, fun _ _ => ⟨rfl, rfl⟩⟩
  | succ fuel ih =>
    rw [decodeReprLoop] at h
    simp only [decodeReprLoop, loopLines]
    split at h
    · next hbuf =>
        cases h
        simp only [if_pos hbuf]
        exact ⟨.nil, fun _ _ => by simp⟩
    · next hbuf =>
        simp only [if_neg hbuf]
        generalize (message.reprState.getD .filedSectionPrefix).decode buf = decoded at h ⊢
        obtain ⟨result, rest⟩ := decoded
        cases result with
        | needMore again =>
          cases h
          exact ⟨.nil, fun _ _ => ⟨rfl, rfl⟩⟩
        | error e => cases h
        | decoded repr =>
          dsimp only at h ⊢
          generalize hmsg : ({ message with
            reprState := if rest = [] then none else some (.reprIndex .firstByte) } :
              ReprMessage) = current at h ⊢
          have hsize : message.headerSize = current.headerSize := by rw [← hmsg]
          cases hhandle : handle d current base rest repr with
          | error e =>
            rw [hhandle] at h
            cases h
          | ok answer =>
            obtain ⟨next, base', st⟩ := answer
            rw [hhandle] at h
            obtain ⟨hcounts, hlimit⟩ := handle_counts hhandle
            rw [hsize]
            cases st with
            | blocked =>
              cases h
              simp only [append_nil]
              refine ⟨hcounts, fun limit hle => ?_⟩
              rw [hlimit limit hle, lines_limit]
              simp
            | decoded =>
              dsimp only at h ⊢
              obtain ⟨hrest, hrestLimit⟩ := ih h
              refine ⟨hcounts.append hrest, fun limit hle => ?_⟩
              rw [hlimit limit (hrest.le.trans hle), lines_limit]
              dsimp only
              rw [(hrestLimit limit hle).1, (hrestLimit limit hle).2]
              exact ⟨rfl, rfl⟩

/-! ## The calls -/

variable {d' : QpackDecoder} {id : ℕ}

theorem decodeBufferedRepr_counts
    (h : d.decodeBufferedRepr buf message id = (d', .ok (message', state))) :
    d.Counts message.headerSize message'.headerSize (loopLines d buf.length message 0 buf) ∧
      d'.maxFieldSectionSize = d.maxFieldSectionSize ∧
      ∀ limit, message'.headerSize ≤ limit →
        (d.setMaxFieldSectionSize limit).decodeBufferedRepr buf message id =
          (d'.setMaxFieldSectionSize limit, .ok (message', state)) ∧
        loopLines (d.setMaxFieldSectionSize limit) buf.length message 0 buf =
          loopLines d buf.length message 0 buf := by
  simp only [decodeBufferedRepr] at h ⊢
  cases hloop : decodeReprLoop d buf.length message 0 buf with
  | error e =>
    rw [hloop] at h
    cases h
  | ok answer =>
    obtain ⟨next, st⟩ := answer
    rw [hloop] at h
    obtain ⟨hcounts, hlimit⟩ := decodeReprLoop_counts hloop
    cases st with
    | decoded | blocked =>
      cases h
      refine ⟨hcounts, rfl, fun limit hle => ?_⟩
      rw [(hlimit limit hle).1]
      exact ⟨rfl, (hlimit limit hle).2⟩

def remainingLines (d : QpackDecoder) (message : ReprMessage) : List FieldLine :=
  match message.remaining with
  | none => []
  | some vec => loopLines d vec.length { message with remaining := none } 0 vec

theorem decodeRemaining_counts (h : d.decodeRemaining message id = (d', .ok message')) :
    d.Counts message.headerSize message'.headerSize (d.remainingLines message) ∧
      d'.maxFieldSectionSize = d.maxFieldSectionSize ∧
      ∀ limit, message'.headerSize ≤ limit →
        (d.setMaxFieldSectionSize limit).decodeRemaining message id =
          (d'.setMaxFieldSectionSize limit, .ok message') ∧
        (d.setMaxFieldSectionSize limit).remainingLines message = d.remainingLines message := by
  simp only [decodeRemaining, remainingLines] at h ⊢
  cases hrem : message.remaining with
  | none =>
    rw [hrem] at h
    cases h
    exact ⟨.nil, rfl, fun _ _ => ⟨rfl, rfl⟩⟩
  | some vec =>
    rw [hrem] at h
    dsimp only at h ⊢
    cases hbuffered : d.decodeBufferedRepr vec { message with remaining := none } id with
    | mk d'' result =>
      rw [hbuffered] at h
      cases result with
      | error e => cases h
      | ok answer =>
        obtain ⟨next, st⟩ := answer
        cases h
        obtain ⟨hcounts, hmax, hlimit⟩ := decodeBufferedRepr_counts hbuffered
        refine ⟨hcounts, hmax, fun limit hle => ?_⟩
        rw [(hlimit limit hle).1]
        exact ⟨rfl, (hlimit limit hle).2⟩

def taken (d : QpackDecoder) (id : ℕ) : QpackDecoder := { d with streams := d.streams.erase id }

/-- The lines that a call of `decode_repr` adds. -/
def reprLines (d : QpackDecoder) (buf : Bytes) (id : ℕ) : List FieldLine :=
  (d.taken id).remainingLines ((d.streams.lookup id).getD .new) ++
    match (d.taken id).decodeRemaining ((d.streams.lookup id).getD .new) id with
    | (_, .error _) => []
    | (d, .ok message) => loopLines d buf.length message 0 buf

def sizeSoFar (d : QpackDecoder) (id : ℕ) : ℕ := ((d.streams.lookup id).getD .new).headerSize

section Repr

variable {d₁ d₂ : QpackDecoder} {current next : ReprMessage}

theorem decodeRepr_eq (d : QpackDecoder) (buf : Bytes) (id : ℕ) : d.decodeRepr buf id =
    if id ∈ d.blocked then (d, .error (.error .streamBlocked))
    else
      match (d.taken id).decodeRemaining ((d.streams.lookup id).getD .new) id with
      | (d, .error e) => (d, .error e)
      | (d, .ok message) =>
        match d.decodeBufferedRepr buf message id with
        | (d, .error e) => (d, .error e)
        | (d, .ok (message, state)) =>
          ({ d with streams := d.streams.insert id message }, .ok state) := rfl

theorem decodeRepr_of_parts (hblocked : id ∉ d.blocked)
    (hrem : (d.taken id).decodeRemaining ((d.streams.lookup id).getD .new) id = (d₁, .ok current))
    (hbuffered : d₁.decodeBufferedRepr buf current id = (d₂, .ok (next, state))) :
    d.decodeRepr buf id = ({ d₂ with streams := d₂.streams.insert id next }, .ok state) := by
  rw [decodeRepr_eq, if_neg hblocked, hrem]
  simp only [hbuffered]

theorem reprLines_of_parts
    (hrem : (d.taken id).decodeRemaining ((d.streams.lookup id).getD .new) id = (d₁, .ok current)) :
    d.reprLines buf id = (d.taken id).remainingLines ((d.streams.lookup id).getD .new) ++
      loopLines d₁ buf.length current 0 buf := by
  rw [reprLines, hrem]

theorem parts_of_decodeRepr (h : d.decodeRepr buf id = (d', .ok state)) :
    ∃ d₁ d₂ current next, id ∉ d.blocked ∧
      (d.taken id).decodeRemaining ((d.streams.lookup id).getD .new) id = (d₁, .ok current) ∧
      d₁.decodeBufferedRepr buf current id = (d₂, .ok (next, state)) ∧
      d' = { d₂ with streams := d₂.streams.insert id next } := by
  rw [decodeRepr_eq] at h
  split at h
  · cases h
  · next hblocked =>
      generalize (d.taken id).decodeRemaining ((d.streams.lookup id).getD .new) id = r at h ⊢
      obtain ⟨d₁, result⟩ := r
      cases result with
      | error e => cases h
      | ok current =>
        dsimp only at h
        cases hbuffered : d₁.decodeBufferedRepr buf current id with
        | mk d₂ result =>
          rw [hbuffered] at h
          cases result with
          | error e => cases h
          | ok answer =>
            cases h
            exact ⟨d₁, d₂, current, answer.1, hblocked, rfl, hbuffered, rfl⟩

theorem decodeRepr_counts (h : d.decodeRepr buf id = (d', .ok state)) :
    d.Counts (d.sizeSoFar id) (d'.sizeSoFar id) (d.reprLines buf id) ∧
      d'.maxFieldSectionSize = d.maxFieldSectionSize ∧
      ∀ limit, d'.sizeSoFar id ≤ limit →
        (d.setMaxFieldSectionSize limit).decodeRepr buf id =
          (d'.setMaxFieldSectionSize limit, .ok state) ∧
        (d.setMaxFieldSectionSize limit).reprLines buf id = d.reprLines buf id := by
  obtain ⟨d₁, d₂, current, next, hblocked, hrem, hbuffered, rfl⟩ := parts_of_decodeRepr h
  obtain ⟨hfirst, hmax, hlimit⟩ := decodeRemaining_counts hrem
  obtain ⟨hsec, hmax', hlimit'⟩ := decodeBufferedRepr_counts hbuffered
  have hsize : ({ d₂ with streams := d₂.streams.insert id next } : QpackDecoder).sizeSoFar id =
      next.headerSize := by
    rw [sizeSoFar, AList.lookup_insert]
    rfl
  have hwithin := hsec.within
  rw [hmax] at hwithin
  rw [hsize, reprLines_of_parts hrem]
  refine ⟨Counts.append (d := d) ⟨hfirst.sum, hfirst.within⟩ ⟨hsec.sum, hwithin⟩,
    hmax'.trans hmax, fun limit hle => ?_⟩
  obtain ⟨hrem', hlines'⟩ := hlimit limit (hsec.le.trans hle)
  obtain ⟨hbuffered', hlines''⟩ := hlimit' limit hle
  refine ⟨decodeRepr_of_parts (d := d.setMaxFieldSectionSize limit) hblocked hrem'
    hbuffered', ?_⟩
  rw [reprLines_of_parts (d := d.setMaxFieldSectionSize limit) hrem', hlines'']
  exact congrArg (· ++ _) hlines'

end Repr

theorem decodeIns_limit (inst : Bytes) (limit : ℕ) :
    (d.setMaxFieldSectionSize limit).decodeIns inst =
      ((d.decodeIns inst).1.setMaxFieldSectionSize limit, (d.decodeIns inst).2) := by
  simp only [decodeIns, setMaxFieldSectionSize]
  split <;> simp_all

theorem decodeIns_same (inst : Bytes) :
    (d.decodeIns inst).1.streams = d.streams ∧
      (d.decodeIns inst).1.maxFieldSectionSize = d.maxFieldSectionSize := by
  rw [decodeIns]
  split <;> exact ⟨rfl, rfl⟩

/-! ## Whole sections -/

/-- While a section is decoded, a part of it or instructions of the encoder arrive. -/
inductive SectionCall where
  | part (buf : Bytes)
  | instructions (inst : Bytes)

/-- The calls one after the other, up to the first error. -/
def decodeCalls (id : ℕ) : QpackDecoder → List SectionCall → Except (Fault QpackError) QpackDecoder
  | d, [] => .ok d
  | d, .part buf :: calls =>
    match d.decodeRepr buf id with
    | (_, .error e) => .error e
    | (d, .ok _) => decodeCalls id d calls
  | d, .instructions inst :: calls =>
    match d.decodeIns inst with
    | (_, .error e) => .error e
    | (d, .ok _) => decodeCalls id d calls

/-- The field lines of the section that the calls decode. -/
def sectionLines (id : ℕ) : QpackDecoder → List SectionCall → List FieldLine
  | _, [] => []
  | d, .part buf :: calls => d.reprLines buf id ++ sectionLines id (d.decodeRepr buf id).1 calls
  | d, .instructions inst :: calls => sectionLines id (d.decodeIns inst).1 calls

theorem decodeCalls_counts {calls : List SectionCall} (h : decodeCalls id d calls = .ok d') :
    d.Counts (d.sizeSoFar id) (d'.sizeSoFar id) (sectionLines id d calls) ∧
      ∀ limit, d'.sizeSoFar id ≤ limit →
        decodeCalls id (d.setMaxFieldSectionSize limit) calls =
            .ok (d'.setMaxFieldSectionSize limit) ∧
          sectionLines id (d.setMaxFieldSectionSize limit) calls = sectionLines id d calls := by
  induction calls generalizing d with
  | nil =>
    cases h
    exact ⟨.nil, fun _ _ => ⟨rfl, rfl⟩⟩
  | cons call calls ih =>
    cases call with
    | part buf =>
      rw [decodeCalls] at h
      cases hrepr : d.decodeRepr buf id with
      | mk d₁ result =>
        rw [hrepr] at h
        cases result with
        | error e => cases h
        | ok state =>
          obtain ⟨hfirst, hmax, hlimit⟩ := decodeRepr_counts hrepr
          obtain ⟨hrest, hrestLimit⟩ := ih h
          have hwithin := hrest.within
          rw [hmax] at hwithin
          rw [sectionLines, hrepr]
          refine ⟨hfirst.append ⟨hrest.sum, hwithin⟩, fun limit hle => ?_⟩
          obtain ⟨hrepr', hlines'⟩ := hlimit limit (hrest.le.trans hle)
          obtain ⟨hcalls', hlines''⟩ := hrestLimit limit hle
          rw [decodeCalls, sectionLines, hrepr', hlines']
          exact ⟨hcalls', congrArg _ hlines''⟩
    | instructions inst =>
      rw [decodeCalls] at h
      obtain ⟨hstreams, hmax⟩ := d.decodeIns_same inst
      cases hins : d.decodeIns inst with
      | mk d₁ result =>
        rw [hins] at h hstreams hmax
        cases result with
        | error e => cases h
        | ok unblocked =>
          obtain ⟨hrest, hrestLimit⟩ := ih h
          have hsize : d₁.sizeSoFar id = d.sizeSoFar id := by rw [sizeSoFar, hstreams, sizeSoFar]
          have hwithin := hrest.within
          have hsum := hrest.sum
          rw [hmax, hsize] at hwithin
          rw [hsize] at hsum
          rw [sectionLines, hins]
          refine ⟨⟨hsum, hwithin⟩, fun limit hle => ?_⟩
          rw [decodeCalls, sectionLines, decodeIns_limit, hins]
          exact hrestLimit limit hle

/-- The section was decoded to its end, and `finish` gives its lines. -/
def Succeeds (id : ℕ) (d : QpackDecoder) (calls : List SectionCall) : Prop :=
  ∃ d', decodeCalls id d calls = .ok d' ∧ (d'.finish id).2.isOk

theorem finish_limit (limit : ℕ) :
    ((d.setMaxFieldSectionSize limit).finish id).2 = (d.finish id).2 := by
  simp only [finish, setMaxFieldSectionSize]
  split
  · rfl
  · split
    · rfl
    · split <;> rfl

theorem sizeSoFar_limit (limit : ℕ) : (d.setMaxFieldSectionSize limit).sizeSoFar id = d.sizeSoFar id :=
  rfl

/-- A section that can be decoded at all is within every limit under which it is decoded, exactly
if none of its lines is an index into the static table or an index before the base. -/
theorem section_within_limit {calls : List SectionCall} (hnew : d.streams.lookup id = none)
    (hsection : Succeeds id d calls) :
    (∀ limit, Succeeds id (d.setMaxFieldSectionSize limit) calls →
      sectionSize (sectionLines id (d.setMaxFieldSectionSize limit) calls) ≤ limit) ↔
      ∀ line ∈ sectionLines id d calls, line.isIndexed = false := by
  obtain ⟨d', hcalls, hfinish⟩ := hsection
  obtain ⟨hcounts, hlimit⟩ := decodeCalls_counts hcalls
  have hzero : d.sizeSoFar id = 0 := by
    rw [sizeSoFar, hnew]
    rfl
  have hsize : d'.sizeSoFar id = countedSize (sectionLines id d calls) := by
    rw [hcounts.sum, hzero, Nat.zero_add]
  rw [← sectionSize_le_iff]
  constructor
  · intro h
    -- the least limit under which the section is decoded
    obtain ⟨hagain, hlines⟩ := hlimit (countedSize (sectionLines id d calls)) hsize.le
    have hle := h _ ⟨_, hagain, by rw [finish_limit]; exact hfinish⟩
    rwa [hlines] at hle
  · rintro hle limit ⟨d'', hcalls', -⟩
    obtain ⟨hcounts', hlimit'⟩ := decodeCalls_counts hcalls'
    have hbelow : d''.sizeSoFar id ≤ limit := by
      refine hcounts'.within ?_
      rw [sizeSoFar_limit, hzero]
      exact Nat.zero_le _
    -- both runs go on as they are under a limit above the two
    have hsame : sectionLines id (d.setMaxFieldSectionSize limit) calls = sectionLines id d calls := by
      obtain ⟨-, hlines⟩ := hlimit (max (d'.sizeSoFar id) (d''.sizeSoFar id)) (le_max_left _ _)
      obtain ⟨-, hlines'⟩ := hlimit' (max (d'.sizeSoFar id) (d''.sizeSoFar id)) (le_max_right _ _)
      exact hlines'.symm.trans hlines
    have hsum := hcounts'.sum
    rw [sizeSoFar_limit, hzero, hsame] at hsum
    rw [hsame]
    omega

/-- `:path` with a value of its own, in two parts. -/
theorem literal_within_limit :
    Succeeds 0 (QpackDecoder.new 0 0) [.part [0x00, 0x00, 0x51], .part [0x02, 0x2f, 0x61]] ∧
      ∀ limit, Succeeds 0 ((QpackDecoder.new 0 0).setMaxFieldSectionSize limit)
          [.part [0x00, 0x00, 0x51], .part [0x02, 0x2f, 0x61]] →
        sectionSize (sectionLines 0 ((QpackDecoder.new 0 0).setMaxFieldSectionSize limit)
          [.part [0x00, 0x00, 0x51], .part [0x02, 0x2f, 0x61]]) ≤ limit := by
  have hsection : Succeeds 0 (QpackDecoder.new 0 0)
      [.part [0x00, 0x00, 0x51], .part [0x02, 0x2f, 0x61]] := ⟨_, rfl, rfl⟩
  have hlines : ((sectionLines 0 (QpackDecoder.new 0 0)
      [.part [0x00, 0x00, 0x51], .part [0x02, 0x2f, 0x61]]).all fun line => !line.isIndexed) = true := by
    decide
  refine ⟨hsection, (section_within_limit rfl hsection).mpr fun line hline => ?_⟩
  simpa using all_eq_true.mp hlines line hline

/-- `:method: GET` by its index, of 42 octets where 10 are allowed. -/
theorem indexed_beyond_limit :
    ¬∀ (d : QpackDecoder) (id : ℕ) (calls : List SectionCall), d.streams.lookup id = none →
      Succeeds id d calls → sectionSize (sectionLines id d calls) ≤ d.maxFieldSectionSize := by
  intro h
  have hle := h ((QpackDecoder.new 0 0).setMaxFieldSectionSize 10) 0 [.part [0x00, 0x00, 0xd1]] rfl
    ⟨_, rfl, rfl⟩
  revert hle
  decide

end QpackDecoder

end YlongHttp.Qpack
