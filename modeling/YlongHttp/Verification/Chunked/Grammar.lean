import YlongHttp.Library.Bits
import YlongHttp.Verification.Chunked.Segments

/-! # The language of the chunked coding -/

namespace YlongHttp.Chunked

open List BodyState
open Client (crlf)

variable {b : UInt8} {chunks coded content ds ext last : Bytes} {bound bound' : ℕ}

/-- An extension, which nobody looks at. -/
structure IsExt (ext : Bytes) : Prop where
  line : ∀ b ∈ ext, b ≠ cr ∧ b ≠ lf
  blank : ∀ b ∈ ext.head?, isBlank b = true

def Digits (ds : Bytes) : Prop := ∀ b ∈ ds, digit b ≠ none

structure IsChunk (bound : ℕ) (coded data : Bytes) : Prop where
  size : ∃ ds ext, Digits ds ∧ IsExt ext ∧ sizeValue 0 ds = data.length ∧
    coded = ds ++ (ext ++ (crlf ++ (data ++ crlf)))
  some_data : data ≠ []
  fits : data.length < bound

/-- `*chunk`, with sizes below a bound. -/
inductive Chunks (bound : ℕ) : Bytes → Bytes → Prop where
  | nil : Chunks bound [] []
  | cons {chunk data coded content} : IsChunk bound chunk data → Chunks bound coded content →
      Chunks bound (chunk ++ coded) (data ++ content)

def IsLast (zeros : Bytes → Prop) (coded : Bytes) : Prop :=
  ∃ ds ext, zeros ds ∧ IsExt ext ∧ coded = ds ++ (ext ++ (crlf ++ crlf))

/-- `*chunk last-chunk CRLF`. -/
def Coding (zeros : Bytes → Prop) (bound : ℕ) (coded content : Bytes) : Prop :=
  ∃ chunks last, Chunks bound chunks content ∧ IsLast zeros last ∧ coded = chunks ++ last

/-- `1*"0"`. -/
def Zeros (ds : Bytes) : Prop := ds ≠ [] ∧ ∀ b ∈ ds, b = zero

/-! ## What the automaton reads -/

theorem digit_zero_iff : digit b = some 0 ↔ b = zero := by
  exact Library.forall_octet (by decide +kernel) b

theorem sizeValue_zeros (h : ∀ b ∈ ds, b = zero) : sizeValue 0 ds = 0 := by
  induction ds with
  | nil => rfl
  | cons d ds ih =>
    have hd := digit_zero_iff.mpr (h d (.head _))
    rw [sizeValue, hd]
    exact ih (fun b hb => h b (.tail d hb))

theorem zeros_of_sizeValue (hds : Digits ds) (h : sizeValue 0 ds = 0) : ∀ b ∈ ds, b = zero := by
  induction ds with
  | nil => nofun
  | cons d ds ih =>
    obtain ⟨v, hv⟩ := Option.ne_none_iff_exists'.mp (hds d (.head _))
    rw [sizeValue, sizeValue_eq, hv, Option.getD_some, Nat.zero_mul, Nat.zero_add] at h
    have hpos : 0 < 16 ^ ds.length := Nat.pow_pos (by decide)
    obtain rfl : v = 0 := by
      by_contra hne
      have hmul : 0 < v * 16 ^ ds.length := Nat.mul_pos (Nat.pos_of_ne_zero hne) hpos
      omega
    intro b hb
    rcases mem_cons.mp hb with rfl | hb
    · exact digit_zero_iff.mp hv
    · exact ih (fun b hb => hds b (.tail d hb)) (by omega) b hb

theorem blank_not_digit (h : isBlank b = true) : digit b = none := by
  revert h
  exact Library.forall_octet (by decide +kernel) b

def BodyState.behind (n : ℕ) : BodyState := if n = 0 then .dataCr n else .data n n

theorem run_extEnd {n : ℕ} (h : ∀ b ∈ ext, b ≠ cr ∧ b ≠ lf) (rest : Bytes) :
    (BodyState.ext n).run (ext ++ (crlf ++ rest)) = (behind n).run rest := by
  induction ext with
  | nil =>
    have hcr : (BodyState.ext n).octet cr = .ok (some (.sizeLf n)) := by
      rw [octet, if_pos rfl]
    have hlf : (sizeLf n).octet lf = .ok (some (.behind n)) := by
      rw [octet, if_pos rfl, behind]
    change (BodyState.ext n).run (cr :: lf :: rest) = _
    rw [run_step hcr rfl, run_step hlf rfl]
  | cons b ext ih =>
    obtain ⟨hcr, hlf⟩ := h b (.head _)
    have hskip : (BodyState.ext n).octet b = .ok (some (.ext n)) := by
      rw [octet, if_neg hcr, if_neg hlf]
    rw [cons_append, run_step hskip rfl]
    exact ih (fun b hb => h b (.tail _ hb))

theorem run_line (hds : Digits ds) (hext : IsExt ext) (rest : Bytes) :
    (size 0).run (ds ++ (ext ++ (crlf ++ rest))) =
      if sizeValue 0 ds < 2 ^ 63 then (behind (sizeValue 0 ds)).run rest
      else .error .invalidInput := by
  rw [run_digits hds (by decide)]
  by_cases hlt : sizeValue 0 ds < 2 ^ 63
  · rw [if_pos hlt, if_pos hlt]
    cases ext with
    | nil => exact run_sizeEnd _ rest
    | cons b ext =>
      have hb := hext.blank b rfl
      have hcr := (hext.line b (.head _)).1
      have hblank : (size (sizeValue 0 ds)).octet b =
          .ok (some (.ext (sizeValue 0 ds))) := by
        rw [octet, blank_not_digit hb]
        dsimp only
        rw [if_neg hcr, if_pos hb]
      rw [cons_append, run_step hblank rfl]
      exact run_extEnd (fun b hb => hext.line b (.tail _ hb)) rest
  · rw [if_neg hlt, if_neg hlt]

theorem run_behind {n : ℕ} {data : Bytes} (hn : data.length = n) (rest : Bytes) :
    (behind n).run (data ++ (crlf ++ rest)) = .ok (data, .inr (n, rest)) := by
  rw [behind]
  by_cases hzero : n = 0
  · subst hzero
    obtain rfl := length_eq_zero_iff.mp hn
    rw [if_pos rfl]
    exact run_dataEnd 0 rest
  · rw [if_neg hzero, ChunkBodyDecoder.run_data (Nat.pos_of_ne_zero hzero), if_pos (by simp [hn]),
      take_left' hn, drop_left' hn, run_dataEnd]
    exact congrArg (fun data => Except.ok (data, _)) (append_nil data)

/-! ## What it reads is in the language -/

variable {buf out rest : Bytes} {n m : ℕ}

theorem run_cons_inv {s : BodyState} {behind : ℕ × Bytes}
    (h : s.run (b :: buf) = .ok (out, .inr behind)) :
    (s.octet b = .ok none ∧ out = s.emitted b ∧ behind = (s.total, buf)) ∨
    ∃ s' later, s.octet b = .ok (some s') ∧ s'.run buf = .ok (later, .inr behind) ∧
      out = s.emitted b ++ later := by
  rw [run] at h
  cases hoctet : s.octet b with
  | error e =>
    rw [hoctet] at h
    cases h
  | ok next =>
    rw [hoctet] at h
    cases next with
    | none =>
      cases h
      exact .inl ⟨rfl, rfl, rfl⟩
    | some s' =>
      dsimp only at h
      rcases hrun : s'.run buf with e | ⟨later, result⟩
      · rw [hrun] at h
        cases h
      · rw [hrun] at h
        cases h
        exact .inr ⟨s', later, rfl, hrun, rfl⟩

theorem run_dataLf_inv (h : (dataLf n).run buf = .ok (out, .inr (m, rest))) :
    out = [] ∧ m = n ∧ buf = lf :: rest := by
  cases buf with
  | nil => cases h
  | cons b buf =>
    rcases run_cons_inv h with ⟨hoctet, hout, hbehind⟩ | ⟨s', later, hoctet, -, -⟩
    · cases hbehind
      rw [octet] at hoctet
      split at hoctet
      · next hlf => exact ⟨hout, rfl, by rw [hlf]⟩
      · cases hoctet
    · rw [octet] at hoctet
      split at hoctet <;> cases hoctet

theorem run_dataCr_inv (h : (dataCr n).run buf = .ok (out, .inr (m, rest))) :
    out = [] ∧ m = n ∧ buf = crlf ++ rest := by
  cases buf with
  | nil => cases h
  | cons b buf =>
    rcases run_cons_inv h with ⟨hoctet, -, -⟩ | ⟨s', later, hoctet, hrun, hout⟩
    · rw [octet] at hoctet
      split at hoctet <;> cases hoctet
    · rw [octet] at hoctet
      split at hoctet
      · next hcr =>
          cases hoctet
          obtain ⟨hlater, hm, hbuf⟩ := run_dataLf_inv hrun
          rw [hlater] at hout
          exact ⟨hout, hm, by rw [hcr, hbuf]; rfl⟩
      · cases hoctet

theorem run_behind_inv (h : (behind n).run buf = .ok (out, .inr (m, rest))) :
    out.length = n ∧ m = n ∧ buf = out ++ (crlf ++ rest) := by
  rw [behind] at h
  by_cases hzero : n = 0
  · rw [if_pos hzero] at h
    obtain ⟨rfl, hm, hbuf⟩ := run_dataCr_inv h
    exact ⟨hzero.symm, hm, hbuf⟩
  · rw [if_neg hzero, ChunkBodyDecoder.run_data (Nat.pos_of_ne_zero hzero)] at h
    split at h
    · next hle =>
        rcases hrun : (dataCr n).run (buf.drop n) with e | ⟨later, result⟩
        · rw [hrun] at h
          cases h
        · rw [hrun] at h
          cases h
          obtain ⟨rfl, hm, hbuf⟩ := run_dataCr_inv hrun
          rw [append_nil]
          refine ⟨length_take_of_le hle, hm, ?_⟩
          rw [← hbuf, take_append_drop]
    · cases h

theorem run_sizeLf_inv (h : (sizeLf n).run buf = .ok (out, .inr (m, rest))) :
    out.length = n ∧ m = n ∧ buf = lf :: (out ++ (crlf ++ rest)) := by
  cases buf with
  | nil => cases h
  | cons b buf =>
    rcases run_cons_inv h with ⟨hoctet, -, -⟩ | ⟨s', later, hoctet, hrun, hout⟩
    · rw [octet] at hoctet
      split at hoctet <;> cases hoctet
    · rw [octet] at hoctet
      split at hoctet
      · next hlf =>
          cases hoctet
          obtain rfl : out = later := hout
          obtain ⟨hlen, hm, hbuf⟩ := run_behind_inv hrun
          exact ⟨hlen, hm, by rw [hlf, hbuf]⟩
      · cases hoctet

theorem run_ext_inv (h : (BodyState.ext n).run buf = .ok (out, .inr (m, rest))) :
    ∃ ext, (∀ b ∈ ext, b ≠ cr ∧ b ≠ lf) ∧ out.length = n ∧ m = n ∧
      buf = ext ++ (crlf ++ (out ++ (crlf ++ rest))) := by
  induction buf generalizing out with
  | nil => cases h
  | cons b buf ih =>
    rcases run_cons_inv h with ⟨hoctet, -, -⟩ | ⟨s', later, hoctet, hrun, hout⟩
    · rw [octet] at hoctet
      split at hoctet
      · cases hoctet
      · split at hoctet <;> cases hoctet
    · obtain rfl : out = later := hout
      rw [octet] at hoctet
      split at hoctet
      · next hcr =>
          cases hoctet
          obtain ⟨hlen, hm, hbuf⟩ := run_sizeLf_inv hrun
          exact ⟨[], (by simp), hlen, hm, by rw [hcr, hbuf]; rfl⟩
      · next hcr =>
          split at hoctet
          · cases hoctet
          · next hlf =>
              cases hoctet
              obtain ⟨ext, hext, hlen, hm, hbuf⟩ := ih hrun
              refine ⟨b :: ext, ?_, hlen, hm, by rw [hbuf]; rfl⟩
              intro c hc
              rcases mem_cons.mp hc with rfl | hc
              · exact ⟨hcr, hlf⟩
              · exact hext c hc

theorem run_size_inv {count : ℕ} (hcnt : count < 2 ^ 63)
    (h : (BodyState.size count).run buf = .ok (out, .inr (m, rest))) :
    ∃ ds ext, Digits ds ∧ IsExt ext ∧ sizeValue count ds = out.length ∧ out.length < 2 ^ 63 ∧
      m = out.length ∧ buf = ds ++ (ext ++ (crlf ++ (out ++ (crlf ++ rest)))) := by
  induction buf generalizing count out with
  | nil => cases h
  | cons b buf ih =>
    cases hdigit : digit b with
    | some v =>
      rw [ChunkBodyDecoder.run_digit hdigit] at h
      rw [hexToDecimal] at h
      by_cases hlt : count * 16 + v < 2 ^ 63
      · rw [if_pos hlt] at h
        obtain ⟨ds, ext, hds, hext, hval, hfits, hm, hbuf⟩ := ih hlt h
        refine ⟨b :: ds, ext, ?_, hext, ?_, hfits, hm, by rw [hbuf]; rfl⟩
        · intro c hc
          rcases mem_cons.mp hc with rfl | hc
          · rw [hdigit]
            simp
          · exact hds c hc
        · rw [sizeValue, hdigit]
          exact hval
      · rw [if_neg hlt] at h
        cases h
    | none =>
      rcases run_cons_inv h with ⟨hoctet, -, -⟩ | ⟨s', later, hoctet, hrun, hout⟩
      · rw [octet, hdigit] at hoctet
        dsimp only at hoctet
        split at hoctet
        · cases hoctet
        · split at hoctet <;> cases hoctet
      · obtain rfl : out = later := hout
        rw [octet, hdigit] at hoctet
        dsimp only at hoctet
        split at hoctet
        · next hcr =>
            cases hoctet
            obtain ⟨hlen, hm, hbuf⟩ := run_sizeLf_inv hrun
            exact ⟨[], [], (by rintro _ ⟨⟩), ⟨(by rintro _ ⟨⟩), (by rintro _ ⟨⟩)⟩, hlen.symm, hlen ▸ hcnt,
              hm.trans hlen.symm, by rw [hcr, hbuf]; rfl⟩
        · next hcr =>
            split at hoctet
            · next hblank =>
                cases hoctet
                obtain ⟨ext, hext, hlen, hm, hbuf⟩ := run_ext_inv hrun
                refine ⟨[], b :: ext, (by rintro _ ⟨⟩), ⟨?_, ?_⟩, hlen.symm, hlen ▸ hcnt,
                  hm.trans hlen.symm, by rw [hbuf]; rfl⟩
                · intro c hc
                  rcases mem_cons.mp hc with rfl | hc
                  · refine ⟨hcr, ?_⟩
                    rintro rfl
                    exact absurd hblank (by decide)
                  · exact hext c hc
                · rintro c hc
                  cases hc
                  exact hblank
            · cases hoctet

/-! ## The language of the automaton -/

theorem run_isChunk {chunk data : Bytes} (h : IsChunk bound chunk data) (rest : Bytes) :
    (size 0).run (chunk ++ rest) = if data.length < 2 ^ 63 then .ok (data, .inr (data.length, rest))
      else .error .invalidInput := by
  obtain ⟨ds, ext, hds, hext, hval, rfl⟩ := h.size
  simp only [append_assoc]
  rw [run_line hds hext, hval, run_behind rfl]

theorem run_isLast (h : IsLast (fun ds => ∀ b ∈ ds, b = zero) last) (rest : Bytes) :
    (size 0).run (last ++ rest) = .ok ([], .inr (0, rest)) := by
  obtain ⟨ds, ext, hzeros, hext, rfl⟩ := h
  have hds : Digits ds := by
    intro b hb
    rw [digit_zero_iff.mpr (hzeros b hb)]
    nofun
  simp only [append_assoc]
  rw [run_line hds hext, sizeValue_zeros hzeros, if_pos (by decide)]
  exact @run_behind 0 [] rfl rest

theorem body_chunks (h : Chunks (2 ^ 63) chunks content) (rest : Bytes) :
    (size 0).body (chunks ++ rest) =
      emit content ((size 0).body rest) := by
  induction h with
  | nil => exact (emit_nil _).symm
  | @cons chunk data coded content hchunk _ ih =>
    have hne : data.length ≠ 0 := (length_pos_of_ne_nil hchunk.some_data).ne'
    rw [append_assoc, body_eq, run_isChunk hchunk, if_pos hchunk.fits]
    dsimp only
    rw [if_neg hne, ih, emit_emit]

theorem chunks_small (h : Chunks bound chunks content) :
    Chunks (2 ^ 63) chunks content ∨
      ∀ rest, (size 0).body (chunks ++ rest) = .error .invalidInput := by
  induction h with
  | nil => exact .inl .nil
  | @cons chunk data coded content hchunk _ ih =>
    by_cases hfits : data.length < 2 ^ 63
    · rcases ih with ih | ih
      · exact .inl (.cons ⟨hchunk.size, hchunk.some_data, hfits⟩ ih)
      · have hne : data.length ≠ 0 := (length_pos_of_ne_nil hchunk.some_data).ne'
        refine .inr fun rest => ?_
        rw [append_assoc, body_eq, run_isChunk hchunk, if_pos hfits]
        dsimp only
        rw [if_neg hne, ih rest]
        rfl
    · refine .inr fun rest => ?_
      rw [append_assoc, body_eq, run_isChunk hchunk, if_neg hfits]

theorem body_iff {left : Bytes} :
    (size 0).body buf = .ok (content, .inr left) ↔
      ∃ coded, buf = coded ++ left ∧
        Coding (fun ds => ∀ b ∈ ds, b = zero) (2 ^ 63) coded content := by
  constructor
  · intro h
    induction hlen : buf.length using Nat.strong_induction_on generalizing buf content with
    | _ k ih =>
      subst hlen
      rw [body_eq] at h
      rcases hrun : (size 0).run buf with e | ⟨out, s' | ⟨n, rest⟩⟩
      · rw [hrun] at h
        cases h
      · rw [hrun] at h
        cases h
      · obtain ⟨ds, ext, hds, hext, hval, hfits, hn, hbuf⟩ := run_size_inv (by decide) hrun
        rw [hrun] at h
        dsimp only at h
        by_cases hzero : n = 0
        · rw [if_pos hzero] at h
          cases h
          obtain rfl : content = [] := length_eq_zero_iff.mp (hn.symm.trans hzero)
          exact ⟨_, by rw [hbuf]; simp only [nil_append, append_assoc],
            [], _, .nil, ⟨ds, ext, zeros_of_sizeValue hds hval, hext, rfl⟩, rfl⟩
        · rw [if_neg hzero] at h
          rcases hmore : (size 0).body rest with e | ⟨later, result⟩
          · rw [hmore] at h
            cases h
          · rw [hmore] at h
            cases h
            obtain ⟨coded, hrest, chunks, last, hchunks, hlast, hcoded⟩ :=
              ih rest.length (run_rest_lt hrun) hmore rfl
            have hchunk : IsChunk (2 ^ 63) (ds ++ (ext ++ (crlf ++ (out ++ crlf)))) out := by
              refine ⟨⟨ds, ext, hds, hext, hval, rfl⟩, ?_, hfits⟩
              rintro rfl
              exact hzero hn
            refine ⟨_, ?_, _, last, .cons hchunk hchunks, hlast, rfl⟩
            rw [hbuf, hrest, hcoded]
            simp only [append_assoc]
  · rintro ⟨coded, rfl, chunks, last, hchunks, hlast, rfl⟩
    rw [append_assoc, body_chunks hchunks, body_eq, run_isLast hlast]
    exact congrArg (fun content => Except.ok (content, _)) (append_nil content)

/-! ## The two languages -/

theorem Chunks.mono (hle : bound ≤ bound') (h : Chunks bound chunks content) :
    Chunks bound' chunks content := by
  induction h with
  | nil => exact .nil
  | cons hchunk _ ih =>
    exact .cons ⟨hchunk.size, hchunk.some_data, Nat.lt_of_lt_of_le hchunk.fits hle⟩ ih

variable {zeros zeros' : Bytes → Prop}

theorem IsLast.mono (himp : ∀ ds, zeros ds → zeros' ds) (h : IsLast zeros last) :
    IsLast zeros' last := by
  obtain ⟨ds, ext, hzeros, hext, hlast⟩ := h
  exact ⟨ds, ext, himp ds hzeros, hext, hlast⟩

theorem Coding.mono (himp : ∀ ds, zeros ds → zeros' ds) (hle : bound ≤ bound')
    (h : Coding zeros bound coded content) :
    Coding zeros' bound' coded content := by
  obtain ⟨chunks, last, hchunks, hlast, hcoded⟩ := h
  exact ⟨chunks, last, hchunks.mono hle, hlast.mono himp, hcoded⟩

theorem head_of_unsized (h : IsLast (· = []) last) :
    ∃ b rest, last = b :: rest ∧ digit b = none := by
  obtain ⟨ds, ext, rfl, hext, rfl⟩ := h
  cases ext with
  | nil => exact ⟨cr, _, rfl, digit_cr⟩
  | cons b ext => exact ⟨b, _, rfl, blank_not_digit (hext.blank b rfl)⟩

theorem head_of_sized (h : Coding Zeros bound coded content) :
    ∃ b rest, coded = b :: rest ∧ digit b ≠ none := by
  obtain ⟨chunks, last, hchunks, hlast, rfl⟩ := h
  cases hchunks with
  | nil =>
    obtain ⟨ds, ext, ⟨hne, hzeros⟩, -, rfl⟩ := hlast
    obtain ⟨d, ds, rfl⟩ := exists_cons_of_ne_nil hne
    refine ⟨d, _, rfl, ?_⟩
    rw [digit_zero_iff.mpr (hzeros d (.head _))]
    nofun
  | cons hchunk =>
    obtain ⟨ds, ext, hds, -, hval, rfl⟩ := hchunk.size
    cases ds with
    | nil => exact absurd (length_eq_zero_iff.mp hval.symm) hchunk.some_data
    | cons d ds => exact ⟨d, _, rfl, hds d (.head _)⟩

theorem unsized_not_sized {content' : Bytes} (h : Coding (· = []) (2 ^ 63) coded content) :
    ¬Coding Zeros (2 ^ 64) coded content' := by
  obtain ⟨chunks, last, hchunks, hlast, rfl⟩ := h
  induction hchunks generalizing content' with
  | nil =>
    intro hsized
    obtain ⟨b, rest, hb, hnone⟩ := head_of_unsized hlast
    obtain ⟨c, rest', hc, hdigit⟩ := head_of_sized hsized
    have heq : b :: rest = c :: rest' := hb.symm.trans hc
    cases heq
    exact hdigit hnone
  | @cons chunk data coded content hchunk _ ih =>
    rintro ⟨chunks', last', hchunks', hlast', heq⟩
    have hrun := run_isChunk hchunk (coded ++ last)
    rw [if_pos hchunk.fits, ← append_assoc, heq] at hrun
    cases hchunks' with
    | nil =>
      have hend := run_isLast (hlast'.mono fun ds hds => hds.2) []
      rw [append_nil] at hend
      rw [nil_append, hend] at hrun
      exact hchunk.some_data (Prod.mk.inj (Except.ok.inj hrun)).1.symm
    | @cons chunk' data' coded' content' hchunk' hcoded' =>
      have hsame := run_isChunk hchunk' (coded' ++ last')
      rw [← append_assoc, hrun] at hsame
      split at hsame
      · have hrest := congrArg Prod.snd (Sum.inr.inj (Prod.mk.inj (Except.ok.inj hsame)).2)
        exact ih ⟨coded', last', hcoded', hlast', hrest⟩
      · cases hsame

namespace ChunkBodyDecoder

/-- What a body in segments is to come to. -/
structure Exact (bufs : List Bytes) : Prop where
  accepts : ∀ content left, new.decodeSegments bufs = some (.ok (content, some left)) ↔
    ∃ coded, bufs.flatten = coded ++ left ∧ Coding Zeros (2 ^ 64) coded content
  overflow : ∀ front content ds rest, Chunks (2 ^ 64) front content → Digits ds →
    2 ^ 64 ≤ sizeValue 0 ds → bufs.flatten = front ++ (ds ++ rest) →
    new.decodeSegments bufs = some (.error .invalidInput)

theorem decodeSegments_accepts (bufs : List Bytes) (content left : Bytes) :
    new.decodeSegments bufs = some (.ok (content, some left)) ↔
      ∃ coded, bufs.flatten = coded ++ left ∧
        Coding (fun ds => ∀ b ∈ ds, b = zero) (2 ^ 63) coded content := by
  rw [decodeSegments_eq represents_new, ← body_iff]
  rcases (size 0).body bufs.flatten with e | ⟨out, s | rest⟩
  · exact ⟨nofun, nofun⟩
  · exact ⟨nofun, nofun⟩
  · constructor
    · intro h
      cases h
      rfl
    · intro h
      cases h
      rfl

theorem decodeSegments_overflow {bufs : List Bytes} {front : Bytes}
    (hfront : Chunks (2 ^ 64) front content) (hds : Digits ds) (hlarge : 2 ^ 64 ≤ sizeValue 0 ds)
    (hbufs : bufs.flatten = front ++ (ds ++ rest)) :
    new.decodeSegments bufs = some (.error .invalidInput) := by
  rw [decodeSegments_eq represents_new, hbufs]
  rcases chunks_small hfront with hsmall | herror
  · have hrun : (size 0).run (ds ++ rest) = .error .invalidInput := by
      rw [run_digits hds (by decide), if_neg (by omega)]
    rw [body_chunks hsmall, body_eq, hrun]
    rfl
  · rw [herror]
    rfl

theorem decodeSegments_exact (bufs : List Bytes) :
    Exact bufs ↔
      (¬∃ coded left content, bufs.flatten = coded ++ left ∧ Coding (· = []) (2 ^ 63) coded content) ∧
      ¬∃ coded left content, bufs.flatten = coded ++ left ∧ Coding Zeros (2 ^ 64) coded content ∧
        ¬Coding Zeros (2 ^ 63) coded content := by
  have hloose : ∀ ds : Bytes, Zeros ds → ∀ b ∈ ds, b = zero := fun ds hds => hds.2
  have hnone : ∀ ds : Bytes, ds = [] → ∀ b ∈ ds, b = zero := by
    rintro ds rfl
    nofun
  constructor
  · intro h
    have hsized : ∀ coded left content, bufs.flatten = coded ++ left →
        Coding (fun ds => ∀ b ∈ ds, b = zero) (2 ^ 63) coded content →
        Coding Zeros (2 ^ 64) coded content := by
      intro coded left content hbufs hcoding
      obtain ⟨coded', hbufs', hcoding'⟩ :=
        (h.accepts content left).mp ((decodeSegments_accepts _ _ _).mpr ⟨coded, hbufs, hcoding⟩)
      rwa [append_cancel_right (hbufs.symm.trans hbufs')]
    constructor
    · rintro ⟨coded, left, content, hbufs, hcoding⟩
      exact unsized_not_sized hcoding (hsized coded left content hbufs (hcoding.mono hnone le_rfl))
    · rintro ⟨coded, left, content, hbufs, hcoding, hlarge⟩
      obtain ⟨coded', hbufs', chunks, last, hchunks, ⟨ds, ext, hzeros, hext, hlast⟩, hcoded'⟩ :=
        (decodeSegments_accepts _ _ _).mp ((h.accepts content left).mpr ⟨coded, hbufs, hcoding⟩)
      obtain rfl := append_cancel_right (hbufs.symm.trans hbufs')
      by_cases hne : ds = []
      · exact unsized_not_sized ⟨chunks, last, hchunks, ⟨ds, ext, hne, hext, hlast⟩, hcoded'⟩ hcoding
      · exact hlarge ⟨chunks, last, hchunks, ⟨ds, ext, ⟨hne, hzeros⟩, hext, hlast⟩, hcoded'⟩
  · rintro ⟨hsized, hsmall⟩
    refine ⟨fun content left => ?_, fun front content ds rest => decodeSegments_overflow⟩
    rw [decodeSegments_accepts]
    constructor
    · rintro ⟨coded, hbufs, chunks, last, hchunks, ⟨ds, ext, hzeros, hext, hlast⟩, hcoded⟩
      have hne : ds ≠ [] := fun hne => hsized ⟨coded, left, content, hbufs, chunks, last, hchunks,
        ⟨ds, ext, hne, hext, hlast⟩, hcoded⟩
      have hcoding : Coding Zeros (2 ^ 63) coded content :=
        ⟨chunks, last, hchunks, ⟨ds, ext, ⟨hne, hzeros⟩, hext, hlast⟩, hcoded⟩
      exact ⟨coded, hbufs, hcoding.mono (fun _ => id) (by decide)⟩
    · rintro ⟨coded, hbufs, hcoding⟩
      have hfits : Coding Zeros (2 ^ 63) coded content := by
        by_contra hlarge
        exact hsmall ⟨coded, left, content, hbufs, hcoding, hlarge⟩
      exact ⟨coded, hbufs, hfits.mono hloose le_rfl⟩

/-- A blank line is taken for a body. -/
theorem blankLine_accepted : ¬∀ bufs : List Bytes, (∀ buf ∈ bufs, buf ≠ []) → Exact bufs := by
  intro h
  have hexact := h [crlf ++ crlf] (by decide)
  have haccepted : new.decodeSegments [crlf ++ crlf] = some (.ok ([], some [])) := by decide
  obtain ⟨coded, hbufs, hcoding⟩ := (hexact.accepts [] []).mp haccepted
  obtain ⟨b, rest, rfl, hdigit⟩ := head_of_sized hcoding
  obtain rfl : cr = b := (cons.inj hbufs).1
  exact hdigit digit_cr

end ChunkBodyDecoder

end YlongHttp.Chunked
