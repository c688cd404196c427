import YlongHttp.Library.Bits
import YlongHttp.Model.Mime.Decoder
import YlongHttp.Verification.Http1.Heads

/-! # The header lines of a part, read back -/

namespace YlongHttp.Mime

open List
open Http1 (isHeaderNameByte isHeaderValueByte)

def headerLine (entry : HeaderName × HeaderValue) : Bytes :=
  entry.1.name ++ ':'.toUInt8 :: entry.2.toString ++ crlf

def headerLines (headers : Headers) : Bytes := (headers.entries.map headerLine).flatten

/-- A field with one value, a token as its name and no space in front of the value. -/
structure Plain (entry : HeaderName × HeaderValue) : Prop where
  single : ∃ value, entry.2.inner = [value] ∧ trimFrontLwsp value = value
  insensitive : entry.2.isSensitive = false
  nonempty : entry.1.name ≠ []
  token : ∀ b ∈ entry.1.name, isHeaderNameByte b = true

variable {b : UInt8}

theorem trimFrontLwsp_cons {rest : Bytes} (hb : isLwsp b = false) :
    trimFrontLwsp (b :: rest) = b :: rest := by
  rw [trimFrontLwsp, dropWhile_cons_of_neg (by simp [hb])]

theorem trimFrontLwsp_append {front back : Bytes} (hfront : trimFrontLwsp front = front)
    (hb : isLwsp b = false) : trimFrontLwsp (front ++ b :: back) = front ++ b :: back := by
  cases front with
  | nil => exact trimFrontLwsp_cons hb
  | cons c front =>
    refine trimFrontLwsp_cons ?_
    by_contra hc
    rw [Bool.not_eq_false] at hc
    rw [trimFrontLwsp, dropWhile_cons_of_pos hc] at hfront
    have hlen := congrArg length hfront
    have hle := (dropWhile_suffix isLwsp : front.dropWhile isLwsp <:+ front).length_le
    rw [length_cons] at hlen
    omega

theorem nameByte_distinct (h : isHeaderNameByte b = true) :
    isLwsp b = false ∧ b ≠ cr ∧ b ≠ lf ∧ b ≠ ':'.toUInt8 := by
  revert h
  exact Library.forall_octet (by decide +kernel) b

theorem valueByte_distinct (h : isValidValueByte b = true) :
    isHeaderValueByte b = true ∧ b ≠ cr ∧ b ≠ lf := by
  refine ⟨?_, ?_, ?_⟩
  · simp only [isValidValueByte, Bool.or_eq_true, Bool.and_eq_true, decide_eq_true_eq] at h
    simp only [isHeaderValueByte, Bool.or_eq_true, Bool.and_eq_true, decide_eq_true_eq, bne_iff_ne]
    tauto
  · rintro rfl
    revert h
    decide
  · rintro rfl
    revert h
    decide

namespace DecodeHeaders

def ready (headers : Headers) : DecodeHeaders := { new with headers }

theorem decodeLoop_round {fuel : ℕ} {self next : DecodeHeaders} {remains rest : Bytes}
    (hstage : self.stage ≠ .done) (hround : self.round remains = .ok (next, rest))
    (hrest : rest ≠ []) : decodeLoop (fuel + 1) self remains = decodeLoop fuel next rest := by
  rw [decodeLoop, if_neg hstage, hround]
  simp [hrest]

variable {headers : Headers} {entry : HeaderName × HeaderValue} {rest : Bytes}

theorem insert_plain (headers : Headers) (h : Plain entry) :
    ∃ value, entry.2.toString = value ∧ trimFrontLwsp value = value ∧
      headers.insert entry.1.name value = some (headers.insertName entry.1 entry.2) ∧
      ∀ b ∈ value, isHeaderValueByte b = true ∧ b ≠ cr ∧ b ≠ lf := by
  obtain ⟨value, hinner, htrim⟩ := h.single
  have hvalid : value.all isValidValueByte = true := entry.2.valid value (by simp [hinner])
  have hname : HeaderName.fromBytes entry.1.name = some entry.1 := by
    rw [HeaderName.fromBytes]
    split
    · rename_i hnone
      rw [entry.1.normal] at hnone
      cases hnone
    · rename_i name hsome
      rw [entry.1.normal] at hsome
      cases hsome
      rfl
  have hval : HeaderValue.fromBytes value = some entry.2 := by
    rw [HeaderValue.fromBytes, dif_pos hvalid]
    rcases hent : entry.2 with ⟨inner, isSensitive, valid⟩
    have hsensitive := h.insensitive
    rw [hent] at hinner hsensitive
    cases hinner
    cases hsensitive
    rfl
  refine ⟨value, ?_, htrim, ?_, fun b hb => valueByte_distinct (all_eq_true.mp hvalid b hb)⟩
  · simp [HeaderValue.toString, hinner]
  · rw [Headers.insert, hname, Option.bind_some, hval]
    rfl

theorem decodeLoop_line (h : Plain entry) (hrest : rest ≠ []) (fuel : ℕ) :
    decodeLoop (fuel + 4) (ready headers) (headerLine entry ++ rest) =
      decodeLoop fuel (ready (headers.insertName entry.1 entry.2)) rest := by
  obtain ⟨value, hval, htrim, hinsert, hbytes⟩ := insert_plain headers h
  obtain ⟨c, name, hname⟩ := exists_cons_of_ne_nil h.nonempty
  have htoken := h.token
  obtain ⟨hlwsp, hcr, hlf, -⟩ := nameByte_distinct (htoken c (by simp [hname]))
  have hline : headerLine entry ++ rest =
      entry.1.name ++ ':'.toUInt8 :: (value ++ cr :: lf :: rest) := by
    simp [headerLine, hval, crlf]
  have hfront : trimFrontLwsp entry.1.name = entry.1.name := by
    rw [hname]
    exact trimFrontLwsp_cons hlwsp
  have htext : trimFrontLwsp (entry.1.name ++ ':'.toUInt8 :: (value ++ cr :: lf :: rest)) =
      entry.1.name ++ ':'.toUInt8 :: (value ++ cr :: lf :: rest) :=
    trimFrontLwsp_append hfront (by decide)
  rw [hline]
  have hstart : (ready headers).round (entry.1.name ++ ':'.toUInt8 :: (value ++ cr :: lf :: rest)) =
      .ok ({ ready headers with stage := .name },
        entry.1.name ++ ':'.toUInt8 :: (value ++ cr :: lf :: rest)) := by
    change (ready headers).startDecode _ = _
    rw [startDecode]
    simp only [ready, new, isEmpty_nil, if_true, htext]
    rw [hname, cons_append]
    simp only [hcr, hlf, if_false]
    rfl
  have hscan := Http1.scan_append (· = ':'.toUInt8) isHeaderNameByte (value ++ cr :: lf :: rest)
    (fun b hb => ⟨decide_eq_false (nameByte_distinct (htoken b hb)).2.2.2, htoken b hb⟩)
    (decide_eq_true rfl)
  have hnamed : round { ready headers with stage := .name }
      (entry.1.name ++ ':'.toUInt8 :: (value ++ cr :: lf :: rest)) =
      .ok ({ ready headers with stage := .value, nameSrc := entry.1.name },
        value ++ cr :: lf :: rest) := by
    change nameDecode _ _ = _
    simp only [nameDecode, ready, new, isEmpty_nil, if_true, htext, token, hscan]
    rfl
  have hscan' : Http1.scan (fun b => b = cr || b = lf) isHeaderValueByte
      (value ++ cr :: lf :: rest) = some (some (value, cr :: lf :: rest)) :=
    Http1.scan_append _ _ (lf :: rest) (fun b hb => ⟨by simp [(hbytes b hb).2], (hbytes b hb).1⟩)
      (by decide)
  have hvalued : round { ready headers with stage := .value, nameSrc := entry.1.name }
      (value ++ cr :: lf :: rest) =
      .ok ({ ready (headers.insertName entry.1 entry.2) with stage := .crlf },
        cr :: lf :: rest) := by
    change valueDecode _ _ = _
    have htrimmed : trimFrontLwsp (value ++ cr :: lf :: rest) = value ++ cr :: lf :: rest :=
      trimFrontLwsp_append htrim (by decide)
    simp only [valueDecode, ready, new, isEmpty_nil, if_true, htrimmed, token, hscan',
      nil_append, htrim, hfront, hinsert]
    rfl
  have hended : round { ready (headers.insertName entry.1 entry.2) with stage := .crlf }
      (cr :: lf :: rest) = .ok (ready (headers.insertName entry.1 entry.2), rest) := rfl
  rw [decodeLoop_round (by nofun) hstart (by simp), decodeLoop_round (by nofun) hnamed (by simp),
    decodeLoop_round (by nofun) hvalued (by simp), decodeLoop_round (by nofun) hended hrest]

theorem decodeLoop_lines (rest : Bytes) {entries : List (HeaderName × HeaderValue)}
    (hplain : ∀ entry ∈ entries, Plain entry)
    (hnodup : (headers.entries.map Prod.fst ++ entries.map Prod.fst).Nodup) {fuel : ℕ}
    (hfuel : 4 * entries.length + 2 ≤ fuel) :
    ∃ last headers', decodeLoop fuel (ready headers) ((entries.map headerLine).flatten ++ crlf ++ rest) =
      .ok (last, some headers', rest) ∧ headers'.entries = headers.entries ++ entries := by
  induction entries generalizing headers fuel with
  | nil =>
    obtain ⟨fuel, rfl⟩ := Nat.exists_eq_add_of_le hfuel
    rw [Nat.add_comm]
    refine ⟨{ ready headers with stage := .done, headers := .new }, headers, ?_,
      (append_nil _).symm⟩
    have hround : (ready headers).round (crlf ++ rest) =
        .ok ({ ready headers with stage := .done }, rest) := rfl
    change decodeLoop (fuel + 1 + 1) (ready headers) (crlf ++ rest) = _
    rw [decodeLoop, if_neg nofun, hround]
    simp only [ne_eq, not_true_eq_false, and_false, if_false]
    rw [decodeLoop, if_pos rfl]
    rfl
  | cons entry entries ih =>
    obtain ⟨fuel, rfl⟩ := Nat.exists_eq_add_of_le hfuel
    have hnext : (headers.insertName entry.1 entry.2).entries = headers.entries ++ [entry] := by
      have hfresh : ∀ e ∈ headers.entries, e.1 ≠ entry.1 := by
        intro e he heq
        rw [nodup_append] at hnodup
        exact hnodup.2.2 e.1 (mem_map_of_mem he) entry.1 (by simp) heq
      simp only [Headers.insertName, Headers.removeName]
      rw [filter_eq_self.mpr fun e he => by simpa using hfresh e he]
    have hnodup' : ((headers.insertName entry.1 entry.2).entries.map Prod.fst ++
        entries.map Prod.fst).Nodup := by
      rw [hnext]
      simpa using hnodup
    have hfuel' : 4 * entries.length + 2 ≤ 4 * entries.length + 2 + fuel := Nat.le_add_right _ _
    obtain ⟨last, headers', hloop, hentries⟩ :=
      ih (fun e he => hplain e (.tail entry he)) hnodup' hfuel'
    refine ⟨last, headers', ?_, ?_⟩
    · have hsplit : ((entry :: entries).map headerLine).flatten ++ crlf ++ rest =
          headerLine entry ++ ((entries.map headerLine).flatten ++ crlf ++ rest) := by
        simp
      have hsum : 4 * (entry :: entries).length + 2 + fuel = 4 * entries.length + 2 + fuel + 4 := by
        rw [length_cons]
        omega
      rw [hsplit, hsum, decodeLoop_line (hplain entry (.head _)) (by simp [crlf]), hloop]
    · rw [hentries, hnext, append_assoc]
      rfl

theorem decode_headerLines (rest : Bytes) (hplain : ∀ entry ∈ headers.entries, Plain entry) :
    ∃ last, new.decode (headerLines headers ++ crlf ++ rest) = .ok (last, some headers, rest) := by
  have hlen : ∀ entries : List (HeaderName × HeaderValue),
      entries.length ≤ (entries.map headerLine).flatten.length := by
    intro entries
    induction entries with
    | nil => exact Nat.zero_le _
    | cons entry entries ih =>
      rw [map_cons, flatten_cons, length_append, length_cons]
      have hline : 0 < (headerLine entry).length := by simp [headerLine]
      omega
  have hfuel : 4 * headers.entries.length + 2 ≤
      4 * (headerLines headers ++ crlf ++ rest).length + 4 := by
    have hle := hlen headers.entries
    rw [length_append, length_append, headerLines]
    omega
  have hnodup : (Headers.new.entries.map Prod.fst ++ headers.entries.map Prod.fst).Nodup := by
    simpa [Headers.new] using headers.nodup
  obtain ⟨last, headers', hloop, hentries⟩ := decodeLoop_lines rest hplain hnodup hfuel
  have heq : headers' = headers := by
    rcases headers' with ⟨entries', nodup'⟩
    rcases headers with ⟨entries, nodup⟩
    simp only [Headers.new, nil_append] at hentries
    subst hentries
    rfl
  subst heq
  refine ⟨last, ?_⟩
  rw [decode, if_neg (by simp [crlf])]
  exact hloop

end DecodeHeaders

end YlongHttp.Mime
