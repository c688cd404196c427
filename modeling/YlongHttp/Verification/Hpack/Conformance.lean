import YlongHttp.Verification.Hpack.Correspondence

/-! # The decoder against RFC 7541

As long as every representation of a connection is regular, the decoder accepts the blocks
that the reference accepts and reads the same fields from them. -/

namespace YlongHttp

open List Option HpackDecoder
open Library (DecResult)
open Rfc7541 (Context entrySize)

variable {u : Updater} {bytes rest : Bytes} {r : Representation} {e : Bytes × Bytes} {c : Context}

/-! ## Blocks -/

/-- The representations that the reference meets in a block, each with the table and the
rest of the header list limit before it. -/
inductive Meets (limit : ℕ) : ℕ → Context → Bytes → ℕ → Context → Representation → Prop
  | here {room : ℕ} {c : Context} {bytes rest : Bytes} {r : Representation}
      (read : Rfc7541.representation bytes = some (r, rest)) : Meets limit room c bytes room c r
  | update {room room' : ℕ} {c c₁ c' : Context} {bytes rest : Bytes} {r r' : Representation}
      (read : Rfc7541.representation bytes = some (r, rest))
      (apply : c.apply limit r = some (c₁, none))
      (later : Meets limit room c₁ rest room' c' r') : Meets limit room c bytes room' c' r'
  | field {room room' : ℕ} {c c₁ c' : Context} {e : Bytes × Bytes} {bytes rest : Bytes}
      {r r' : Representation} (read : Rfc7541.representation bytes = some (r, rest))
      (apply : c.apply limit r = some (c₁, some e)) (fits : entrySize e ≤ room)
      (later : Meets limit (room - entrySize e) c₁ rest room' c' r') :
      Meets limit room c bytes room' c' r'

def Rejected (result : Updater × Option ReprDecodeState × Except (Fault H2Error) Unit) : Prop :=
  (∃ e, result.2.2 = .error (.error e)) ∨ (result.2.2 = .ok () ∧ result.2.1.isSome = true)

def listSize (fields : List (Bytes × Bytes)) : ℕ := (fields.map entrySize).sum

/-- What decoding does to an updater whose table follows the reference. -/
def BlockAgrees (u : Updater) (reference : Option (Context × List (Bytes × Bytes)))
    (result : Updater × Option ReprDecodeState × Except (Fault H2Error) Unit) : Prop :=
  match reference.filter fun r => u.lines.headerSize + listSize r.2 ≤ u.headerListSize with
  | none => Rejected result
  | some (c, fields) =>
    ∃ table parts, Follows table c ∧ partsOf u.lines.parts fields = some parts ∧
      result = ({ u with
        table
        lines := { parts, headerSize := u.lines.headerSize + listSize fields } }, none, .ok ())

theorem HpackDecoder.drive_unread {fuel : ℕ} (hbytes : bytes ≠ [])
    (hread : Rfc7541.representation bytes = none) :
    Rejected (drive (fuel + 1) u none bytes) := by
  rw [← decode_representation] at hread
  simp only [drive, Library.drive, hbytes, if_false, getD_none]
  rcases hr : (ReprDecodeState.index .firstByte).decode bytes with ⟨d | s | e, rest⟩
  · rw [hr] at hread
    cases hread
  · exact .inr ⟨rfl, rfl⟩
  · exact .inl ⟨e, rfl⟩

theorem representation_read (hread : Rfc7541.representation bytes = some (r, rest)) :
    (ReprDecodeState.index .firstByte).decode bytes = (.decoded r, rest) := by
  rw [← decode_representation] at hread
  rcases hr : (ReprDecodeState.index .firstByte).decode bytes with ⟨d | s | e, rest'⟩
  · rw [hr] at hread
    obtain ⟨rfl, rfl⟩ := Prod.mk.inj (some.inj hread)
    rfl
  · rw [hr] at hread
    cases hread
  · rw [hr] at hread
    cases hread

theorem BlockAgrees.nil (h : Follows u.table c) (hsize : u.lines.headerSize ≤ u.headerListSize) :
    BlockAgrees u (some (c, [])) (u, none, .ok ()) := by
  simp only [BlockAgrees, filter_some, listSize, map_nil, sum_nil, Nat.add_zero,
    hsize, decide_true, if_true]
  exact ⟨u.table, u.lines.parts, h, rfl, rfl⟩

theorem BlockAgrees.cons {u : Updater} {table : DynamicTable} {parts : Parts} {e : Bytes × Bytes}
    {reference : Option (Context × List (Bytes × Bytes))}
    {result : Updater × Option ReprDecodeState × Except (Fault H2Error) Unit}
    (hparts : u.lines.parts.update (headerOf e.1) e.2 = some parts)
    (h : BlockAgrees
      { u with table, lines := { parts, headerSize := u.lines.headerSize + entrySize e } }
      reference result) :
    BlockAgrees u (reference.map fun r => (r.1, e :: r.2)) result := by
  have hsize : ∀ fields, u.lines.headerSize + listSize (e :: fields) =
      u.lines.headerSize + entrySize e + listSize fields := by
    intro fields
    simp [listSize, Nat.add_assoc]
  cases reference with
  | none => exact h
  | some r =>
    obtain ⟨c, fields⟩ := r
    simp only [BlockAgrees, map_some, filter_some, hsize] at h ⊢
    split at h
    · rename_i hno
      split at hno
      · cases hno
      · rename_i hgt
        rw [if_neg hgt]
        exact h
    · rename_i c' fields' hyes
      split at hyes
      · rename_i hle
        obtain ⟨rfl, rfl⟩ := Prod.mk.inj (some.inj hyes)
        obtain ⟨table', parts', hfollows, hfold, hres⟩ := h
        rw [if_pos hle]
        refine ⟨table', parts', hfollows, ?_, ?_⟩
        · simp only [partsOf, foldlM_cons, hparts]
          exact hfold
        · rw [hres, hsize]
      · cases hyes

theorem BlockAgrees.exceeds {reference : Option (Context × List (Bytes × Bytes))}
    {result : Updater × Option ReprDecodeState × Except (Fault H2Error) Unit}
    (hsize : u.headerListSize < u.lines.headerSize + entrySize e) (h : Rejected result) :
    BlockAgrees u (reference.map fun r => (r.1, e :: r.2)) result := by
  cases reference with
  | none => exact h
  | some r =>
    have hgt : ¬ u.lines.headerSize + listSize (e :: r.2) ≤ u.headerListSize := by
      simp only [listSize, map_cons, sum_cons]
      omega
    simp only [BlockAgrees, map_some, filter_some, hgt, decide_false, Bool.false_eq_true, if_false]
    exact h

theorem HpackDecoder.drive_agrees (limit fuel room : ℕ) (h : Follows u.table c)
    (hroom : u.lines.headerSize + room = u.headerListSize) (hfuel : bytes.length ≤ fuel)
    (hreg : ∀ room' c' r, Meets limit room c bytes room' c' r → Regular limit room' c' r) :
    BlockAgrees u (c.blockLoop limit (fuel + 1) bytes)
      (drive fuel u none bytes) := by
  induction fuel generalizing room u c bytes with
  | zero =>
    obtain rfl : bytes = [] := by simpa using hfuel
    exact .nil h (by omega)
  | succ fuel ih =>
    by_cases hbytes : bytes = []
    · subst hbytes
      exact .nil h (by omega)
    · rw [Context.blockLoop, if_neg hbytes]
      cases hread : Rfc7541.representation bytes with
      | none => exact drive_unread hbytes hread
      | some found =>
        obtain ⟨r, rest⟩ := found
        have hdec := representation_read hread
        have hlt := reprDecodeState_consumes _ _ _ _ hdec
        have hstep := Updater.update_mirrors h hroom (hreg room c r (.here hread))
        have hlater : ∀ room₁ c₁, (∀ room' c' r', Meets limit room₁ c₁ rest room' c' r' →
            Meets limit room c bytes room' c' r') → ∀ room' c' r',
            Meets limit room₁ c₁ rest room' c' r' → Regular limit room' c' r' :=
          fun room₁ c₁ hmeets room' c' r' hr' => hreg room' c' r' (hmeets room' c' r' hr')
        simp only [drive, Library.drive, hbytes, if_false, getD_none, hdec, bind_some]
        cases happly : c.apply limit r with
        | none =>
          rw [happly] at hstep
          generalize u.update r = result at hstep
          cases hstep with
          | refused u' e => exact .inl ⟨e, rfl⟩
        | some next =>
          rw [happly] at hstep
          generalize u.update r = result at hstep
          cases hstep with
          | applied follows =>
            rename_i table c₁
            have htail := ih room (u := { u with table }) follows hroom (by omega)
              (hlater _ _ fun _ _ _ => .update hread happly)
            simp only [Option.bind_some, Option.toList_none, nil_append, Option.map_id']
            exact htail
          | field follows fits update =>
            rename_i table c₁ e parts
            have htail := ih (room - entrySize e) (u := { u with
                table
                lines := { parts, headerSize := u.lines.headerSize + entrySize e } }) follows (by simp only; omega) (by omega)
              (hlater _ _ fun _ _ _ => .field hread happly (by omega))
            exact htail.cons update
          | exceeds hgt => exact .exceeds hgt (.inl ⟨_, rfl⟩)

/-! ## Connections -/

/-- The blocks of a connection, each decoded and finished, up to the first that fails. -/
def HpackDecoder.decodeBlocks : HpackDecoder → List Bytes → List (Except (Fault H2Error) Parts)
  | _, [] => []
  | d, bytes :: blocks =>
    match d.decode bytes with
    | (_, .error e) => [.error e]
    | (d₁, .ok ()) =>
      match d₁.finish with
      | (_, .error e) => [.error (.error e)]
      | (d', .ok parts) => .ok parts :: HpackDecoder.decodeBlocks d' blocks

/-- Both reject the block, or both accept it with the same fields. -/
inductive Agrees : Except (Fault H2Error) Parts → Option (List (Bytes × Bytes)) → Prop
  | accepted {parts : Parts} {fields : List (Bytes × Bytes)}
      (same : partsOf .new fields = some parts) : Agrees (.ok parts) (some fields)
  | rejected (e : H2Error) : Agrees (.error (.error e)) none

/-- The representations that the reference meets in the blocks of a connection. -/
inductive MeetsInBlocks (limit listLimit : ℕ) :
    Context → List Bytes → ℕ → Context → Representation → Prop
  | here {c c' : Context} {bytes : Bytes} {blocks : List Bytes} {room : ℕ} {r : Representation}
      (meets : Meets limit listLimit c bytes room c' r) :
      MeetsInBlocks limit listLimit c (bytes :: blocks) room c' r
  | later {c c₁ c' : Context} {bytes : Bytes} {fields : List (Bytes × Bytes)}
      {blocks : List Bytes} {room : ℕ} {r : Representation}
      (accepted : c.block limit listLimit bytes = some (c₁, fields))
      (meets : MeetsInBlocks limit listLimit c₁ blocks room c' r) :
      MeetsInBlocks limit listLimit c (bytes :: blocks) room c' r

theorem HpackDecoder.decodeBlocks_rejected {d : HpackDecoder}
    (h : Rejected (drive bytes.length d.updater d.holder bytes)) (blocks : List Bytes)
    : ∃ e, d.decodeBlocks (bytes :: blocks) = [.error (.error e)] := by
  have hdec := d.decode_eq_drive bytes bytes.length le_rfl
  rcases hdrive : drive bytes.length d.updater d.holder bytes with ⟨u, state, res⟩
  rw [hdrive] at h hdec
  rcases h with ⟨e, he⟩ | ⟨hok, hst⟩
  · simp only at he
    subst he
    exact ⟨e, by rw [decodeBlocks, hdec]⟩
  · simp only at hok hst
    subst hok
    exact ⟨compressionError, by rw [decodeBlocks, hdec]; simp only [finish, hst, if_true]⟩

theorem HpackDecoder.decodeBlocks_agrees (limit listLimit : ℕ) (blocks : List Bytes)
    {table : DynamicTable} (h : Follows table c)
    (hreg : ∀ room c' r, MeetsInBlocks limit listLimit c blocks room c' r →
      Regular limit room c' r) :
    List.Forall₂ Agrees ((idle listLimit table).decodeBlocks blocks)
      (c.blocks limit listLimit blocks) := by
  induction blocks generalizing table c with
  | nil => exact .nil
  | cons bytes blocks ih =>
    have hblock := drive_agrees limit bytes.length listLimit
      (u := (idle listLimit table).updater) h (Nat.zero_add listLimit) le_rfl
      (fun room c' r hmeets => hreg room c' r (.here hmeets))
    have hfilter : ((c.blockLoop limit (bytes.length + 1) bytes).filter fun r =>
        0 + listSize r.2 ≤ listLimit) = c.block limit listLimit bytes := by
      simp only [Nat.zero_add]
      rfl
    simp only [BlockAgrees] at hblock
    change (match (c.blockLoop limit (bytes.length + 1) bytes).filter fun r =>
        0 + listSize r.2 ≤ listLimit with
      | none => _
      | some (c', fields) => _) at hblock
    rw [hfilter] at hblock
    rw [Context.blocks]
    cases hc : c.block limit listLimit bytes with
    | none =>
      rw [hc] at hblock
      obtain ⟨e, he⟩ := decodeBlocks_rejected hblock blocks
      rw [he]
      exact .cons (.rejected e) .nil
    | some next =>
      obtain ⟨c', fields⟩ := next
      rw [hc] at hblock
      obtain ⟨table', parts, hfollows, hparts, hdrive⟩ := hblock
      have hdec := (idle listLimit table).decode_eq_drive bytes bytes.length le_rfl
      rw [show (idle listLimit table).holder = none from rfl, hdrive] at hdec
      have hlater := ih hfollows fun room c₂ r hmeets => hreg room c₂ r (.later hc hmeets)
      rw [decodeBlocks, hdec]
      exact .cons (.accepted hparts) hlater

def Rfc7541.Context.new (tableSize : ℕ) : Context := { entries := [], maxSize := tableSize }

/-- On every connection all of whose representations are regular, the decoder accepts and
rejects the blocks that the reference does, and reads the same fields. -/
theorem hpack_decodeBlocks_conforms (tableSize listLimit : ℕ) (blocks : List Bytes)
    (hreg : ∀ room c r, MeetsInBlocks tableSize listLimit (.new tableSize) blocks room c r →
      Regular tableSize room c r) :
    List.Forall₂ Agrees ((HpackDecoder.withMaxSize tableSize listLimit).decodeBlocks blocks)
      ((Context.new tableSize).blocks tableSize listLimit blocks) := by
  refine decodeBlocks_agrees tableSize listLimit blocks ⟨⟨rfl, rfl⟩, ?_⟩ hreg
  intro f hf
  cases hf

variable {c' : Context} {limit room room' : ℕ}

theorem Meets.not_nil :
    ¬ Meets limit room c [] room' c' r := by
  intro h
  cases h <;> contradiction

theorem Meets.cases_field {c₁ : Context} {r' : Representation}
    (hread : Rfc7541.representation bytes = some (r, rest))
    (happly : c.apply limit r = some (c₁, some e)) (h : Meets limit room c bytes room' c' r') :
    (room' = room ∧ c' = c ∧ r' = r) ∨ Meets limit (room - entrySize e) c₁ rest room' c' r' := by
  cases h with
  | here read =>
    rw [hread] at read
    obtain ⟨rfl, rfl⟩ := Prod.mk.inj (some.inj read)
    exact .inl ⟨rfl, rfl, rfl⟩
  | update read apply later =>
    rw [hread] at read
    obtain ⟨rfl, rfl⟩ := Prod.mk.inj (some.inj read)
    rw [happly] at apply
    cases apply
  | field read apply fits later =>
    rw [hread] at read
    obtain ⟨rfl, rfl⟩ := Prod.mk.inj (some.inj read)
    rw [happly] at apply
    obtain ⟨rfl, he⟩ := Prod.mk.inj (some.inj apply)
    cases he
    exact .inr later

/-- Two blocks: `:method: GET` from the static table with a new field `foo: bar`, then that
field from the dynamic table. -/
theorem hpack_decodeBlocks_indexed :
    List.Forall₂ Agrees
      ((HpackDecoder.withMaxSize 4096 65536).decodeBlocks
        [[0x82, 0x40, 3, 0x66, 0x6f, 0x6f, 3, 0x62, 0x61, 0x72], [0xbe]])
      ((Context.new 4096).blocks 4096 65536
        [[0x82, 0x40, 3, 0x66, 0x6f, 0x6f, 3, 0x62, 0x61, 0x72], [0xbe]]) := by
  have hmethod : ∀ rest, Rfc7541.representation (0x82 :: rest) = some (.indexed 2, rest) :=
    fun rest => (decode_representation _).symm
  have hfoo : Rfc7541.representation [0x40, 3, 0x66, 0x6f, 0x6f, 3, 0x62, 0x61, 0x72] =
      some (.literalWithIndexing (.literal (str "foo")) (str "bar"), []) := by
    rw [← decode_representation]
    decide
  have hidx : Rfc7541.representation [0xbe] = some (.indexed 62, []) := by
    rw [← decode_representation]
    decide
  apply hpack_decodeBlocks_conforms
  intro room c r hmeets
  cases hmeets with
  | here hmeets =>
    rcases hmeets.cases_field (hmethod _) rfl with ⟨rfl, rfl, rfl⟩ | hmeets
    · intro e he _ _
      cases he
      decide
    · rcases hmeets.cases_field hfoo rfl with ⟨rfl, rfl, rfl⟩ | hmeets
      · intro n hn _
        cases hn
        exact ⟨by decide, by decide⟩
      · exact absurd hmeets Meets.not_nil
  | later accepted hmeets =>
    cases hmeets with
    | here hmeets =>
      cases hmeets with
      | here read =>
        rw [hidx] at read
        obtain ⟨rfl, rfl⟩ := Prod.mk.inj (some.inj read)
        intro e _ _ hle
        omega
      | update read _ later | field read _ _ later =>
        rw [hidx] at read
        obtain ⟨rfl, rfl⟩ := Prod.mk.inj (some.inj read)
        exact absurd later Meets.not_nil
    | later _ hmeets => cases hmeets

/-- The first entry of the static table has no value: the reference reads an empty one. -/
theorem hpack_authority_refused :
    ¬ List.Forall₂ Agrees ((HpackDecoder.withMaxSize 4096 65536).decodeBlocks [[0x81]])
      ((Context.new 4096).blocks 4096 65536 [[0x81]]) := by
  have hread : Rfc7541.representation [0x81] = some (.indexed 1, []) := by
    rw [← decode_representation]
    decide
  have hblock : (Context.new 4096).block 4096 65536 [0x81] =
      some (.new 4096, [(str ":authority", [])]) := by
    simp only [Context.block, length_singleton, Context.blockLoop]
    rw [if_neg (by simp), hread]
    rfl
  have hdec : (withMaxSize 4096 65536).decodeBlocks [[0x81]] =
      [.error (.error compressionError)] := by
    decide
  rw [hdec, Context.blocks, hblock]
  intro h
  cases h with
  | cons head => cases head

end YlongHttp
