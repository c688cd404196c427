import YlongHttp.Verification.Qpack.Cuts
import YlongHttp.Verification.Qpack.Panics

/-! # Feeding QPACK in segments -/

namespace YlongHttp.Qpack

open List DecoderInstPrefixBit QpackDecoder ReprMessage
open Library

variable {e : Fault QpackError} {buf : Bytes}

/-! ## The encoder stream -/

/-! ### What an instruction does to the insert count -/

theorem DynamicTable.insertCount_updateSize {table table' : DynamicTable} {maxSize : ℕ}
    (h : table.updateSize maxSize = some table') : table'.insertCount = table.insertCount := by
  obtain ⟨⟨queue, usedCap, removeCount⟩, -, rfl⟩ := Option.map_eq_some_iff.mp h
  rfl

theorem okOr_ne {α : Type} {found : Option α}
    (h : okOr (.connectionError .encoderStreamError) found = .error e) :
    e ≠ .error decompressionFailed := by
  cases found with
  | none =>
    cases h
    simp [decompressionFailed]
  | some a => cases h

theorem orPanic_ne {α : Type} {found : Option α} (h : orPanic found = .error e) :
    e ≠ .error decompressionFailed := by
  cases found with
  | none =>
    cases h
    simp
  | some a => cases h

theorem bind_ne {α β : Type} {x : Except (Fault QpackError) α} {f : α → Except (Fault QpackError) β}
    {e' : Fault QpackError} (hx : ∀ e, x = .error e → e ≠ e') (hf : ∀ a e, f a = .error e → e ≠ e')
    (h : x >>= f = .error e) : e ≠ e' := by
  cases x with
  | error e₁ =>
    cases h
    exact hx e rfl
  | ok a => exact hf a e h

theorem getFieldByNameAndValue_ne (table : DynamicTable) (midBit : MidBit) (name : Name)
    (value : Bytes) (e : Fault QpackError)
    (h : Updater.getFieldByNameAndValue table midBit name value = .error e) :
    e ≠ .error decompressionFailed := by
  have hval : ∀ (name : NameField) (e : Fault QpackError),
      (do
        let v ← okOr (.connectionError .encoderStreamError) (fromUtf8 value)
        return (name, v)) = .error e → e ≠ .error decompressionFailed :=
    fun name e => bind_ne (fun e => okOr_ne) fun a e hpure => by cases hpure
  rw [Updater.getFieldByNameAndValue.eq_def] at h
  cases name with
  | literal octets =>
    cases hutf : okOr (.connectionError .encoderStreamError) (fromUtf8 octets) with
    | error e' =>
      simp only [hutf, Except.map] at h
      cases h
      exact okOr_ne hutf
    | ok octets =>
      simp only [hutf, Except.map] at h
      exact hval _ e h
  | index index =>
    simp only at h
    split at h
    · exact bind_ne (fun e => okOr_ne) hval h
    · refine bind_ne (fun e => orPanic_ne) (fun relative e => bind_ne (fun e => orPanic_ne)
        fun found e => bind_ne (fun e => okOr_ne) hval) h

namespace QpackDecoder

theorem absorb_insertion (max : ℕ) (table : DynamicTable)
    {inst : EncoderInstruction} (h : inst.isInsertion = true) :
    (∃ table', absorb max table inst = (table', .ok ()) ∧
      table'.insertCount = table.insertCount + 1) ∨
    ∃ e, absorb max table inst = (table, .error e) ∧ e ≠ .error decompressionFailed := by
  cases happly : Updater.apply max table inst with
  | ok table' =>
    refine .inl ⟨table', by simp [absorb, happly], ?_⟩
    rcases Updater.apply_cases happly with ⟨capacity, -, rfl, -⟩ | ⟨f, v, -, rfl⟩
    · cases h
    · rfl
  | error e =>
    refine .inr ⟨e, by simp [absorb, happly], ?_⟩
    cases inst with
    | setCap capacity => cases h
    | duplicate index => cases h
    | insertWithIndex midBit name value | insertWithLiteral midBit name value =>
      exact bind_ne (getFieldByNameAndValue_ne table midBit name value)
        (fun field e hpure => by cases hpure) happly

theorem absorb_insertCount (max : ℕ) (table : DynamicTable)
    (inst : EncoderInstruction) :
    table.insertCount ≤ (absorb max table inst).1.insertCount := by
  cases happly : Updater.apply max table inst with
  | error e => simp [absorb, happly]
  | ok table' =>
    simp only [absorb, happly]
    rcases Updater.apply_cases happly with ⟨capacity, -, -, hsize⟩ | ⟨f, v, -, rfl⟩
    · rw [DynamicTable.insertCount_updateSize hsize]
    · exact Nat.le_succ _

theorem instStart_between : instStart.Between := trivial

/-! ### The loop -/

theorem decodeInsLoop_insertCount (max fuel : ℕ) (table : DynamicTable)
    (state : Option InstDecodeState) (buf : Bytes) :
    table.insertCount ≤ (decodeInsLoop max fuel table state buf).1.insertCount := by
  rw [decodeInsLoop_eq_drive]
  exact drive_invariant (fun t => table.insertCount ≤ t.insertCount)
    (fun t inst h => h.trans (absorb_insertCount max t inst)) fuel table state buf le_rfl

theorem decodeInsLoop_fuel (max n m : ℕ) (table : DynamicTable) (state : Option InstDecodeState)
    (buf : Bytes) (hn : buf.length ≤ n) (hm : buf.length ≤ m) :
    decodeInsLoop max n table state buf = decodeInsLoop max m table state buf := by
  rw [decodeInsLoop_eq_drive, decodeInsLoop_eq_drive]
  exact drive_fuel instDecodeState_consumes n m table state buf hn hm

/-- None of the instructions in the octets carries a value. -/
def NoInsertion (max : ℕ) (table : DynamicTable) (state : Option InstDecodeState)
    (bytes : Bytes) : Prop :=
  ∀ table' inst,
    Library.Meets InstDecodeState.decode instStart (absorb max) table state bytes table' inst →
    inst.isInsertion = false

section Between

variable {max : ℕ} {table : DynamicTable} {state : Option InstDecodeState}
  (hst : ∀ s ∈ state, s.Between)

include hst

theorem decodeInsLoop_append (a b : Bytes) (hno : NoInsertion max table state (a ++ b)) :
    decodeInsLoop max (a ++ b).length table state (a ++ b) =
      match decodeInsLoop max a.length table state a with
      | (table', state', .ok ()) => decodeInsLoop max b.length table' state' b
      | (table', state', .error e) => (table', state', .error e) := by
  rw [← decodeInsLoop_fuel max (a ++ b).length a.length table state a (by simp) le_rfl,
    decodeInsLoop_eq_drive, decodeInsLoop_eq_drive,
    drive_append_except instDecodeState_resumes instStart_between instDecodeState_consumes _ table
      state hst a b le_rfl fun table' inst h => by simp [hno table' inst h]]
  rcases drive InstDecodeState.decode instStart Fault.error (absorb max) (a ++ b).length table
    state a with ⟨table', state', e | ⟨⟩⟩
  · rfl
  · simp only [← decodeInsLoop_eq_drive]
    exact decodeInsLoop_fuel max _ _ table' state' b (by simp) le_rfl

theorem decodeInsLoop_between (fuel : ℕ) (buf : Bytes) :
    ∀ s ∈ (decodeInsLoop max fuel table state buf).2.1, s.Between := by
  rw [decodeInsLoop_eq_drive]
  exact drive_saved instDecodeState_resumes instStart_between fuel table state hst buf

theorem NoInsertion.append {a b : Bytes} {table' : DynamicTable} {state' : Option InstDecodeState}
    (hloop : decodeInsLoop max a.length table state a = (table', state', .ok ()))
    (hno : NoInsertion max table state (a ++ b)) : NoInsertion max table' state' b := by
  intro table'' inst h
  rw [decodeInsLoop_eq_drive] at hloop
  exact hno table'' inst (Library.Meets.append instDecodeState_resumes instStart_between _ _ _
    hst a b hloop le_rfl instDecodeState_consumes h)

theorem exists_cut {table' : DynamicTable} {inst : EncoderInstruction} {bytes : Bytes}
    (hmeets : Library.Meets InstDecodeState.decode instStart (absorb max) table state bytes table'
      inst)
    (hinst : inst.isInsertion = true) :
    ∃ a b table₁, bytes = a ++ b ∧
      decodeInsLoop max a.length table state a =
        (table₁, none, .error (.error decompressionFailed)) ∧
      decodeInsLoop max bytes.length table state bytes ≠
        (table₁, none, .error (.error decompressionFailed)) := by
  obtain ⟨table₁, inst₁, a, b, s, a', e, r, hbytes, hmeets₁, hinst₁, hs, herr, hdrive⟩ :=
    @Library.Meets.cut _ _ _ _ _ _ _ _ _ instStart Fault.error _ instDecodeState_resumes
      instStart_between instDecodeState_consumes instDecodeState_insertion _ _ _ _ _ hst hmeets hinst
  obtain rfl := instDecodeState_fails s hs a' e r herr
  refine ⟨a, b, table₁, hbytes, ?_, fun hwhole => ?_⟩
  · rw [decodeInsLoop_eq_drive]
    exact hdrive _ le_rfl
  · obtain ⟨m, rest, heq⟩ := @Library.Meets.drive_eq _ _ _ _ _ _ _ instStart Fault.error _
      instDecodeState_consumes _ _ _ _ _ hmeets₁ bytes.length le_rfl
    rw [decodeInsLoop_eq_drive, heq] at hwhole
    rcases absorb_insertion max table₁ hinst₁ with ⟨table₂, habs, hcnt⟩ | ⟨e, habs, hne⟩
    · have hle := decodeInsLoop_insertCount max m table₂ none rest
      rw [habs] at hwhole
      simp only [← decodeInsLoop_eq_drive] at hwhole
      rw [hwhole] at hle
      simp only at hle
      omega
    · rw [habs] at hwhole
      simp only [Prod.mk.injEq, Except.error.injEq, true_and] at hwhole
      exact hne hwhole

end Between

/-! ### Segments -/

/-- `decode_ins` on one segment after the other. -/
def feedIns (d : QpackDecoder) : List Bytes → QpackDecoder × Except (Fault QpackError) Unit
  | [] => (d, .ok ())
  | segment :: segments =>
    match d.decodeIns segment with
    | (d, .ok _) => d.feedIns segments
    | (d, .error e) => (d, .error e)

def insOutcome (r : QpackDecoder × Except (Fault QpackError) Unit) :
    DynamicTable × Option InstDecodeState × Except (Fault QpackError) (AList fun _ : ℕ => ℕ) :=
  (r.1.table, r.1.instState, r.2.map fun _ => r.1.blocked)

/-- However the octets are cut, `decode_ins` comes out the same. -/
def InsIndependent (d : QpackDecoder) (bytes : Bytes) : Prop :=
  ∀ segments : List Bytes, segments ≠ [] → segments.flatten = bytes →
    insOutcome (d.feedIns segments) = insOutcome (d.feedIns [bytes])

/-- What `decode_ins` leaves behind, from what its loop does. -/
def insResult (d : QpackDecoder) :
    DynamicTable × Option InstDecodeState × Except (Fault QpackError) Unit →
    DynamicTable × Option InstDecodeState × Except (Fault QpackError) (AList fun _ : ℕ => ℕ)
  | (table, instState, .ok ()) => (table, instState, .ok (retain (· > table.insertCount) d.blocked))
  | (table, instState, .error e) => (table, instState, .error e)

theorem insOutcome_single (d : QpackDecoder) (bytes : Bytes) :
    insOutcome (d.feedIns [bytes]) =
      d.insResult (decodeInsLoop d.maxTableCapacity bytes.length d.table d.instState bytes) := by
  rw [feedIns, decodeIns]
  rcases decodeInsLoop d.maxTableCapacity bytes.length d.table d.instState bytes with
    ⟨table, instState, e | ⟨⟩⟩ <;> rfl

theorem retain_retain {β : Type} {keep keep' : β → Bool} (m : AList fun _ : ℕ => β)
    (h : ∀ b, keep b = true → keep' b = true) : retain keep (retain keep' m) = retain keep m := by
  refine AList.ext ?_
  simp only [retain, filter_filter]
  refine filter_congr fun entry _ => ?_
  cases hkeep : keep entry.2 with
  | false => rfl
  | true => simp [h _ hkeep]

theorem insOutcome_feedIns (d : QpackDecoder) (hd : ∀ s ∈ d.instState, s.Between)
    (segments : List Bytes) (hne : segments ≠ [])
    (hno : NoInsertion d.maxTableCapacity d.table d.instState segments.flatten) :
    insOutcome (d.feedIns segments) = d.insResult
      (decodeInsLoop d.maxTableCapacity segments.flatten.length d.table d.instState
        segments.flatten) := by
  induction segments generalizing d with
  | nil => exact absurd rfl hne
  | cons segment segments ih =>
    by_cases hlast : segments = []
    · subst hlast
      rw [flatten_singleton, insOutcome_single]
    · rw [flatten_cons] at hno ⊢
      have hsaved := @decodeInsLoop_between d.maxTableCapacity d.table _ hd segment.length segment
      rw [decodeInsLoop_append hd _ _ hno, feedIns, decodeIns]
      rcases hdrive : decodeInsLoop d.maxTableCapacity segment.length d.table d.instState segment with
        ⟨table, instState, e | ⟨⟩⟩
      · rfl
      · rw [hdrive] at hsaved
        have hrest := ih
          { d with table, instState, blocked := retain (· > table.insertCount) d.blocked }
          hsaved hlast (hno.append hd hdrive)
        simp only [hrest]
        have hcnt := decodeInsLoop_insertCount d.maxTableCapacity segments.flatten.length table
          instState segments.flatten
        rcases hloop : decodeInsLoop d.maxTableCapacity segments.flatten.length table instState
          segments.flatten with ⟨table', instState', e | ⟨⟩⟩
        · rfl
        · simp only [insResult]
          rw [retain_retain]
          intro count hkeep
          rw [hloop] at hcnt
          simp only [decide_eq_true_eq] at hkeep ⊢
          exact hcnt.trans_lt hkeep

theorem insIndependent_iff (d : QpackDecoder) (hd : ∀ s ∈ d.instState, s.Between)
    (bytes : Bytes) :
    d.InsIndependent bytes ↔ NoInsertion d.maxTableCapacity d.table d.instState bytes := by
  constructor
  · intro hall table inst hmeets
    by_contra hinst
    obtain ⟨a, b, table₁, rfl, hcut, hwhole⟩ := exists_cut hd hmeets (by simpa using hinst)
    have hsame := hall [a, b] (by simp) (by simp)
    rw [insOutcome_single, feedIns, decodeIns, hcut] at hsame
    rcases hdrive : decodeInsLoop d.maxTableCapacity (a ++ b).length d.table d.instState (a ++ b) with
      ⟨table', instState', e | ⟨⟩⟩
    · rw [hdrive] at hsame hwhole
      simp only [insOutcome, insResult, Except.map, Prod.mk.injEq, Except.error.injEq] at hsame
      obtain ⟨rfl, rfl, rfl⟩ := hsame
      exact hwhole rfl
    · rw [hdrive] at hsame
      simp [insOutcome, insResult, Except.map] at hsame
  · rintro hno segments hne rfl
    rw [insOutcome_feedIns d hd segments hne hno, insOutcome_single]

end QpackDecoder

/-! ## The decoder stream -/

def Unfinished (buf : Bytes) : Prop :=
  decodeDecInst buf = (.error (.connectionError .decoderStreamError), [])

def BeginsLong : Bytes → Prop
  | [] => False
  | byte :: _ => Unfinished [byte]

variable {a r : Bytes} {inst : DecoderInstruction}

theorem decodeDecInst_decoded (h : decodeDecInst a = (.decoded inst, r)) (b : Bytes) :
    decodeDecInst (a ++ b) = (.decoded inst, r ++ b) := by
  obtain ⟨-, hdone, -⟩ := (indexInner_parses fromU8 prefixIndexMask
    (fun _ _ => { n := none, t := none, h := none }) .firstByte).resumes a
  rw [decodeDecInst] at h ⊢
  split at h
  · rename_i found rest heq
    cases h
    rw [hdone _ _ heq b]
  · cases h
  · cases h

theorem decodeDecInst_shorten {rest : Bytes} (h : decodeDecInst buf = (.decoded inst, rest)) :
    ∃ c, buf = c ++ rest ∧ decodeDecInst c = (.decoded inst, []) := by
  rw [decodeDecInst] at h
  split at h
  · rename_i found rest' heq
    cases h
    have hstage := indexInner_parses fromU8 prefixIndexMask
      (fun _ _ => { n := none, t := none, h := none })
    have hconsumes := fun s => (hstage s).takes
    have hresumes : ResumesExcept (fun _ => True) (fun _ => False) _ _ :=
      (hstage .firstByte).resumes.except
    obtain ⟨c, hbuf, hc⟩ := ResumesExcept.shorten (a := []) hresumes hconsumes heq not_false
      (Nat.le_of_succ_le (hconsumes _ _ _ _ heq))
    refine ⟨c, hbuf, ?_⟩
    rw [decodeDecInst, hc]
  · cases h
  · cases h

theorem decodeDecInst_octet (byte : UInt8) :
    (∃ inst, decodeDecInst [byte] = (.decoded inst, [])) ∨ Unfinished [byte] := by
  rw [Unfinished, decodeDecInst, IndexInner.decode, decodeFirstByte]
  cases IntegerDecoder.firstByte byte (fromU8 byte).prefixIndexMask with
  | ok i => exact .inl ⟨_, rfl⟩
  | error int => exact .inr rfl

theorem decodeDecInst_error {e : QpackError} (ha : a ≠ []) (h : decodeDecInst a = (.error e, r)) :
    BeginsLong a ∧ ((e = .connectionError .decoderStreamError ∧ Unfinished a) ∨
      e ≠ .connectionError .decoderStreamError ∧ ∀ b, (decodeDecInst (a ++ b)).1 = .error e) := by
  constructor
  · cases a with
    | nil => exact absurd rfl ha
    | cons byte rest =>
      rcases decodeDecInst_octet byte with ⟨inst, hone⟩ | hone
      · have hmore := decodeDecInst_decoded hone rest
        rw [cons_append, nil_append, h] at hmore
        cases hmore
      · exact hone
  · have hstage := indexInner_parses fromU8 prefixIndexMask
      (fun _ _ => { n := none, t := none, h := none }) .firstByte
    obtain ⟨-, -, herr⟩ := hstage.resumes a
    have hfails := hstage.fails a
    have hdef := h
    rw [decodeDecInst] at h
    split at h
    · cases h
    · cases h
      exact .inl ⟨rfl, hdef⟩
    · rename_i e' rest heq
      cases h
      refine .inr ⟨?_, fun b => ?_⟩
      · rw [hfails e rest heq]
        simp [decompressionFailed]
      · have hb := herr e rest heq b
        rw [decodeDecInst]
        split
        · rename_i hfound
          rw [hfound] at hb
          cases hb
        · rename_i hfound
          rw [hfound] at hb
          cases hb
        · rename_i e'' rest' hfound
          rw [hfound] at hb
          obtain rfl := DecResult.error.inj hb
          rfl

namespace QpackEncoder

variable (order : List ℕ → List ℕ)
variable {e e' : QpackEncoder} {buf buf' : Bytes}

/-- `decode_ins` on one segment after the other. -/
def feedIns (e : QpackEncoder) : List Bytes → QpackEncoder × Except (Fault QpackError) Unit
  | [] => (e, .ok ())
  | segment :: segments =>
    match e.decodeIns order segment with
    | (e, .ok ()) => e.feedIns segments
    | (e, .error err) => (e, .error err)

def InsIndependent (e : QpackEncoder) (bytes : Bytes) : Prop :=
  ∀ segments : List Bytes, segments.flatten = bytes →
    e.feedIns order segments = e.feedIns order [bytes]

/-- Instructions at the beginning of the octets lead from one encoder to another. -/
inductive Reads : QpackEncoder → Bytes → QpackEncoder → Bytes → Prop
  | refl (e : QpackEncoder) (buf : Bytes) : Reads e buf e buf
  | step {e e₁ e' : QpackEncoder} {buf rest buf' : Bytes} {inst : DecoderInstruction}
      (decoded : decodeDecInst buf = (.decoded inst, rest)) (applied : e.apply order inst = some e₁)
      (reads : Reads e₁ rest e' buf') : Reads e buf e' buf'

/-- Behind an instruction of several octets the encoder is as before it, and one is unfinished. -/
def LongLeadsBack (e : QpackEncoder) (bytes : Bytes) : Prop :=
  ∀ e₁ buf, Reads order e bytes e₁ buf → BeginsLong buf →
    ∃ buf', Reads order e₁ buf e₁ buf' ∧ buf' ≠ [] ∧ Unfinished buf'

variable {order}

theorem decodeInsLoop_fuel (n m : ℕ) (e : QpackEncoder) (buf : Bytes) (hn : buf.length ≤ n)
    (hm : buf.length ≤ m) : decodeInsLoop order n e buf = decodeInsLoop order m e buf := by
  rw [decodeInsLoop_eq_drive order n 0, decodeInsLoop_eq_drive order m 0,
    drive_fuel decInst_consumes n m (0, e) none buf hn hm]

theorem decodeIns_nil (e : QpackEncoder) : e.decodeIns order [] = (e, .ok ()) := rfl

theorem decodeIns_decoded {rest : Bytes} {inst : DecoderInstruction}
    (h : decodeDecInst buf = (.decoded inst, rest)) :
    e.decodeIns order buf =
      match e.apply order inst with
      | none => (e, .error .panic)
      | some e₁ => e₁.decodeIns order rest := by
  have htakes := decodeDecInst_takes _ _ _ h
  cases buf with
  | nil => simp at htakes
  | cons byte buf =>
    rw [decodeIns, length_cons, decodeInsLoop, if_neg (by simp), h]
    simp only
    cases e.apply order inst with
    | none => rfl
    | some e₁ =>
      rw [length_cons] at htakes
      exact decodeInsLoop_fuel _ _ e₁ rest (by omega) le_rfl

theorem decodeIns_error {err : QpackError} (hbuf : buf ≠ [])
    (h : (decodeDecInst buf).1 = .error err) :
    e.decodeIns order buf = (e, .error (.error err)) := by
  rcases hdec : decodeDecInst buf with ⟨inst | state | err', rest⟩
  · rw [hdec] at h
    cases h
  · exact state.elim
  · rw [hdec] at h
    cases h
    cases buf with
    | nil => exact absurd rfl hbuf
    | cons byte buf => rw [decodeIns, length_cons, decodeInsLoop, if_neg hbuf, hdec]

/-! ### What is read -/

theorem Reads.decodeIns (h : Reads order e buf e' buf') :
    e.decodeIns order buf = e'.decodeIns order buf' := by
  induction h with
  | refl e buf => rfl
  | step hdecd happlied hreads ih => rw [decodeIns_decoded hdecd, happlied, ← ih]

theorem Reads.append {e e' : QpackEncoder} {buf buf' : Bytes} (h : Reads order e buf e' buf')
    (b : Bytes) : Reads order e (buf ++ b) e' (buf' ++ b) := by
  induction h with
  | refl e buf => exact .refl e _
  | step hdecd happlied hreads ih => exact .step (decodeDecInst_decoded hdecd b) happlied ih

theorem Reads.trans {e e₁ e' : QpackEncoder} {buf buf₁ buf' : Bytes}
    (h : Reads order e buf e₁ buf₁) (h' : Reads order e₁ buf₁ e' buf') :
    Reads order e buf e' buf' := by
  induction h with
  | refl e buf => exact h'
  | step hdecd happlied hreads ih => exact .step hdecd happlied (ih h')

theorem Reads.split (h : Reads order e buf e' buf') :
    ∃ c, buf = c ++ buf' ∧ Reads order e c e' [] := by
  induction h with
  | refl e buf => exact ⟨[], rfl, .refl e []⟩
  | step hdecd happlied hreads ih =>
    obtain ⟨c₁, rfl, hc₁⟩ := decodeDecInst_shorten hdecd
    obtain ⟨c₂, rfl, hc₂⟩ := ih
    refine ⟨c₁ ++ c₂, by simp, ?_⟩
    exact .step (decodeDecInst_decoded hc₁ c₂) happlied hc₂

theorem decodeIns_ends (e : QpackEncoder) (buf : Bytes) :
    ∃ e' buf', Reads order e buf e' buf' ∧
      (buf' = [] ∧ e.decodeIns order buf = (e', .ok ()) ∨
        (∃ err, buf' ≠ [] ∧ (decodeDecInst buf').1 = .error err ∧
          e.decodeIns order buf = (e', .error (.error err))) ∨
        ∃ inst rest, decodeDecInst buf' = (.decoded inst, rest) ∧ e'.apply order inst = none ∧
          e.decodeIns order buf = (e', .error .panic)) := by
  induction hlen : buf.length using Nat.strong_induction_on generalizing e buf with
  | _ n ih =>
    by_cases hbuf : buf = []
    · exact ⟨e, buf, .refl e buf, .inl ⟨hbuf, by rw [hbuf, decodeIns_nil]⟩⟩
    · rcases hdec : decodeDecInst buf with ⟨inst | state | err, rest⟩
      · have htakes := decodeDecInst_takes _ _ _ hdec
        cases happly : e.apply order inst with
        | none =>
          refine ⟨e, buf, .refl e buf, .inr (.inr ⟨inst, rest, hdec, happly, ?_⟩)⟩
          rw [decodeIns_decoded hdec, happly]
        | some e₁ =>
          obtain ⟨e', buf', hreads, hends⟩ := ih rest.length (by omega) e₁ rest rfl
          refine ⟨e', buf', .step hdec happly hreads, ?_⟩
          rw [decodeIns_decoded hdec, happly]
          exact hends
      · exact state.elim
      · exact ⟨e, buf, .refl e buf, .inr (.inl ⟨err, hbuf, by rw [hdec],
          decodeIns_error hbuf (by rw [hdec])⟩)⟩

theorem decodeIns_append {a b : Bytes} (h : LongLeadsBack order e (a ++ b)) :
    e.decodeIns order (a ++ b) =
      match e.decodeIns order a with
      | (e', .ok ()) => e'.decodeIns order b
      | (e', .error err) => (e', .error err) := by
  obtain ⟨e', buf', hreads, ⟨rfl, hok⟩ | ⟨err, hne, herr, herror⟩ | ⟨inst, rest, hdec, hnone, hpanic⟩⟩ :=
    @decodeIns_ends order e a
  · rw [hok, (hreads.append b).decodeIns, nil_append]
  · rw [herror, (hreads.append b).decodeIns]
    have hne' : buf' ++ b ≠ [] := by simp [hne]
    obtain ⟨hlong, ⟨rfl, hunfinished⟩ | ⟨-, hsame⟩⟩ := decodeDecInst_error hne (Prod.ext herr rfl)
    · have hlong' : BeginsLong (buf' ++ b) := by
        cases buf' with
        | nil => exact absurd rfl hne
        | cons byte rest => exact hlong
      obtain ⟨buf'', hback, hne'', hbreaks⟩ := h e' _ (hreads.append b) hlong'
      rw [hback.decodeIns, decodeIns_error hne'' (by rw [hbreaks])]
    · rw [decodeIns_error hne' (hsame b)]
  · rw [hpanic, (hreads.append b).decodeIns, decodeIns_decoded (decodeDecInst_decoded hdec b),
      hnone]

theorem LongLeadsBack.append {e e' : QpackEncoder} {a b : Bytes}
    (h : LongLeadsBack order e (a ++ b)) (hok : e.decodeIns order a = (e', .ok ())) :
    LongLeadsBack order e' b := by
  obtain ⟨e'', buf', hreads, ⟨rfl, hok'⟩ | ⟨err, -, -, herror⟩ | ⟨inst, rest, -, -, hpanic⟩⟩ :=
    @decodeIns_ends order e a
  · rw [hok] at hok'
    cases hok'
    intro e₁ buf hreads' hlong
    exact h e₁ buf ((hreads.append b).trans hreads') hlong
  · rw [hok] at herror
    cases herror
  · rw [hok] at hpanic
    cases hpanic

theorem feedIns_single (e : QpackEncoder) (bytes : Bytes) :
    e.feedIns order [bytes] = e.decodeIns order bytes := by
  rw [feedIns]
  rcases e.decodeIns order bytes with ⟨e', err | ⟨⟩⟩ <;> rfl

theorem feedIns_eq (segments : List Bytes) (h : LongLeadsBack order e segments.flatten) :
    e.feedIns order segments = e.decodeIns order segments.flatten := by
  induction segments generalizing e with
  | nil => rfl
  | cons segment segments ih =>
    rw [flatten_cons] at h ⊢
    rw [decodeIns_append h, feedIns]
    rcases hfirst : e.decodeIns order segment with ⟨e', err | ⟨⟩⟩
    · rfl
    · exact ih (h.append hfirst)

theorem insIndependent_iff (e : QpackEncoder) (bytes : Bytes) :
    e.InsIndependent order bytes ↔ LongLeadsBack order e bytes := by
  constructor
  · intro hall e₁ buf hreads hlong
    cases buf with
    | nil => exact hlong.elim
    | cons byte rest =>
      -- The cut is behind the first octet of the instruction.
      obtain ⟨c, rfl, hc⟩ := hreads.split
      have hcut := hall [c ++ [byte], rest] (by simp)
      have hfirst : e.decodeIns order (c ++ [byte]) =
          (e₁, .error (.error (.connectionError .decoderStreamError))) := by
        rw [(hc.append [byte]).decodeIns]
        exact decodeIns_error (by simp) (by rw [nil_append, hlong])
      rw [feedIns_single, feedIns, hfirst, hreads.decodeIns] at hcut
      simp only at hcut
      obtain ⟨e', buf', hreads', ⟨-, hok⟩ | ⟨err, hne, herr, herror⟩ | ⟨inst, rest', -, -, hpanic⟩⟩ :=
        @decodeIns_ends order e₁ (byte :: rest)
      · rw [hok] at hcut
        cases hcut
      · rw [herror] at hcut
        cases hcut
        obtain ⟨-, ⟨-, hunfinished⟩ | ⟨hother, -⟩⟩ := decodeDecInst_error hne (Prod.ext herr rfl)
        · exact ⟨buf', hreads', hne, hunfinished⟩
        · exact absurd rfl hother
      · rw [hpanic] at hcut
        cases hcut
  · rintro h segments rfl
    rw [feedIns_eq segments h, feedIns_single]

end QpackEncoder

/-! ## Field sections -/

theorem prefixTrailingBytes_short (index : IntegerDecoder) (h : buf.length ≤ 1) :
    prefixTrailingBytes index buf = (.needMore (), []) := by
  match buf, h with
  | [], _ => rfl
  | [_], _ => rfl

theorem decodeSectionPrefix_short (h : buf.length ≤ 2) :
    decodeSectionPrefix buf = (.needMore .filedSectionPrefix, []) := by
  cases buf with
  | nil => rfl
  | cons byte buf =>
    rw [length_cons] at h
    rw [decodeSectionPrefix, prefixInteger]
    cases IntegerDecoder.firstByte byte 0xff with
    | error int => simp only [prefixTrailingBytes_short int (by omega : buf.length ≤ 1)]
    | ok ric =>
      rcases buf with _ | ⟨_, _ | ⟨_, _⟩⟩
      · rfl
      · rfl
      · simp at h

namespace QpackDecoder

variable (inst : Bytes) (streamId : ℕ)
variable {d : QpackDecoder}

/-- `decode_repr`, after the encoder stream has unblocked the stream with `inst` if it is
blocked. -/
def decodeUnblocked (d : QpackDecoder) (buf : Bytes) :
    QpackDecoder × Except (Fault QpackError) FieldDecodeState :=
  if streamId ∈ d.blocked then
    match d.decodeIns inst with
    | (d, .ok _) => d.decodeRepr buf streamId
    | (d, .error e) => (d, .error e)
  else d.decodeRepr buf streamId

/-- `decode_repr` on one segment after the other and `finish`. A stream that is blocked at the
end is unblocked, and the rest of its section is decoded before. -/
def feedRepr (d : QpackDecoder) : List Bytes → QpackDecoder × Except (Fault QpackError) (Parts × Bytes)
  | [] =>
    if streamId ∈ d.blocked then
      match d.decodeUnblocked inst streamId [] with
      | (d, .ok _) => d.finish streamId
      | (d, .error e) => (d, .error e)
    else d.finish streamId
  | segment :: segments =>
    match d.decodeUnblocked inst streamId segment with
    | (d, .ok _) => d.feedRepr segments
    | (d, .error e) => (d, .error e)

def reprOutcome (r : QpackDecoder × Except (Fault QpackError) (Parts × Bytes)) :
    DynamicTable × Except (Fault QpackError) (Parts × Bytes) :=
  (r.1.table, r.2)

/-- However the section is cut, it is decoded to the same. -/
def ReprIndependent (d : QpackDecoder) (bytes : Bytes) : Prop :=
  ∀ segments : List Bytes, segments ≠ [] → segments.flatten = bytes →
    reprOutcome (d.feedRepr inst streamId segments) = reprOutcome (d.feedRepr inst streamId [bytes])

/-- The decoder waits for a section, of which it has kept nothing. -/
structure Awaits (d : QpackDecoder) (state : Option ReprDecodeState) : Prop where
  unblocked : streamId ∉ d.blocked
  message : d.streams.lookup streamId = some { ReprMessage.new with reprState := state }
  atPrefix : state = none ∨ state = some .filedSectionPrefix

variable {inst streamId}

theorem decodeRepr_short {d : QpackDecoder} {state : Option ReprDecodeState} {buf : Bytes}
    (hunblocked : streamId ∉ d.blocked)
    (hmsg : (d.streams.lookup streamId).getD .new = { ReprMessage.new with reprState := state })
    (hst : state = none ∨ state = some .filedSectionPrefix) (hbuf : buf.length ≤ 2) :
    ∃ d', d.decodeUnblocked inst streamId buf = (d', .ok .decoded) ∧ d'.table = d.table ∧
      d'.Awaits streamId (if buf = [] then state else some .filedSectionPrefix) := by
  have hgetD : state.getD .filedSectionPrefix = .filedSectionPrefix := by
    rcases hst with rfl | rfl <;> rfl
  have hloop : ∀ d : QpackDecoder,
      d.decodeReprLoop buf.length { ReprMessage.new with reprState := state } 0 buf =
        .ok ({ ReprMessage.new with
          reprState := if buf = [] then state else some .filedSectionPrefix }, .decoded) := by
    intro d
    cases buf with
    | nil => rfl
    | cons byte buf =>
      rw [length_cons, decodeReprLoop, if_neg (by simp), hgetD, ReprDecodeState.decode,
        decodeSectionPrefix_short hbuf]
      rfl
  refine ⟨{ d with
    streams := (d.streams.erase streamId).insert streamId { ReprMessage.new with
      reprState := if buf = [] then state else some .filedSectionPrefix } }, ?_, rfl, ?_⟩
  · rw [decodeUnblocked, if_neg hunblocked, decodeRepr, if_neg hunblocked, hmsg]
    simp only [decodeRemaining, ReprMessage.new]
    simp only [ReprMessage.new] at hloop
    simp only [decodeBufferedRepr, hloop]
  · refine ⟨hunblocked, AList.lookup_insert _, ?_⟩
    split
    · exact hst
    · exact .inr rfl

theorem Awaits.feedRepr {state : Option ReprDecodeState} (h : d.Awaits streamId state)
    (segments : List Bytes) (hshort : ∀ segment ∈ segments, segment.length ≤ 2) :
    reprOutcome (d.feedRepr inst streamId segments) =
      (d.table, if state = none ∧ segments.flatten = [] then .ok (.new, [])
        else .error (.error decompressionFailed)) := by
  induction segments generalizing d state with
  | nil =>
    rw [feedRepr, if_neg h.unblocked, finish, h.message]
    rcases h.atPrefix with rfl | rfl <;> rfl
  | cons segment segments ih =>
    obtain ⟨d', hdec, htable, hawaits⟩ := @decodeRepr_short inst _ _ _ _ h.unblocked
      (by rw [h.message, Option.getD_some]) h.atPrefix (hshort segment (.head _))
    rw [feedRepr, hdec]
    simp only
    rw [ih hawaits fun segment' hmem => hshort segment' (.tail _ hmem), htable]
    by_cases hseg : segment = []
    · simp [hseg]
    · simp [hseg]

theorem feedRepr_short (hunblocked : streamId ∉ d.blocked) (hnew : d.streams.lookup streamId = none)
    {segments : List Bytes} (hne : segments ≠ [])
    (hshort : ∀ segment ∈ segments, segment.length ≤ 2) :
    reprOutcome (d.feedRepr inst streamId segments) =
      (d.table, if segments.flatten = [] then .ok (.new, [])
        else .error (.error decompressionFailed)) := by
  cases segments with
  | nil => exact absurd rfl hne
  | cons segment segments =>
    obtain ⟨d', hdec, htable, hawaits⟩ := @decodeRepr_short inst _ _ _ _ hunblocked
      (by rw [hnew]; rfl) (.inl rfl) (hshort segment (.head _))
    rw [feedRepr, hdec]
    simp only
    rw [hawaits.feedRepr _ fun segment' hmem => hshort segment' (.tail _ hmem), htable]
    by_cases hseg : segment = []
    · simp [hseg]
    · simp [hseg]

theorem reprIndependent_of_short (hunblocked : streamId ∉ d.blocked)
    (hnew : d.streams.lookup streamId = none) (hbytes : bytes.length ≤ 2) :
    d.ReprIndependent inst streamId bytes := by
  rintro segments hne rfl
  have hshort : ∀ segment ∈ segments, segment.length ≤ 2 := by
    intro segment hmem
    exact (sublist_flatten_of_mem hmem).length_le.trans hbytes
  rw [feedRepr_short hunblocked hnew hne hshort,
    feedRepr_short hunblocked hnew (by simp) (by simpa using hbytes)]
  simp

theorem not_reprIndependent (hunblocked : streamId ∉ d.blocked)
    (hnew : d.streams.lookup streamId = none) (hbytes : bytes ≠ [])
    (haccepted : (d.feedRepr inst streamId [bytes]).2 ≠ .error (.error decompressionFailed)) :
    ¬ d.ReprIndependent inst streamId bytes := by
  intro hall
  have hflatten : (bytes.map fun byte => [byte]).flatten = bytes := by
    rw [← flatMap_def, flatMap_singleton']
  have hoct := hall (bytes.map fun byte => [byte]) (by simpa using hbytes) hflatten
  rw [feedRepr_short hunblocked hnew (by simpa using hbytes) (by simp), hflatten,
    if_neg hbytes] at hoct
  exact haccepted (congrArg Prod.snd hoct).symm

end QpackDecoder

/-- QPACK does not depend on how its streams are cut exactly when the encoder stream has no
insertion, and long instructions of the decoder stream lead back. A section may be cut when it
is shorter than every prefix, and every longer one that is not refused depends on the cuts. -/
theorem qpack_segmentation_iff (order : List ℕ → List ℕ) (d : QpackDecoder) (e : QpackEncoder)
    (streamId : ℕ) (hstate : d.instState = none) (hunblocked : streamId ∉ d.blocked)
    (hnew : d.streams.lookup streamId = none) (inst encoderStream decoderStream fieldSection : Bytes) :
    (d.InsIndependent encoderStream ↔
      QpackDecoder.NoInsertion d.maxTableCapacity d.table d.instState encoderStream) ∧
    (e.InsIndependent order decoderStream ↔ e.LongLeadsBack order decoderStream) ∧
    (fieldSection.length ≤ 2 → d.ReprIndependent inst streamId fieldSection) ∧
    (2 < fieldSection.length →
      (d.feedRepr inst streamId [fieldSection]).2 ≠ .error (.error decompressionFailed) →
      ¬ d.ReprIndependent inst streamId fieldSection) := by
  refine ⟨?_, QpackEncoder.insIndependent_iff e decoderStream, ?_, ?_⟩
  · refine insIndependent_iff d ?_ encoderStream
    rw [hstate]
    simp
  · exact reprIndependent_of_short hunblocked hnew
  · intro hlong haccepted
    refine not_reprIndependent hunblocked hnew ?_ haccepted
    rintro rfl
    simp at hlong

/-- The capacity is set, a section of stream 5 is acknowledged, and a section has no lines. -/
theorem qpack_segmentation_plain :
    (QpackDecoder.new 0 100).InsIndependent [0x3f, 0x09] ∧
      QpackEncoder.default.InsIndependent id [0x85] ∧
      (QpackDecoder.new 0 100).ReprIndependent [] 5 [0x00, 0x00] := by
  have hinst : instStart.decode [0x3f, 0x09] = (.decoded (.setCap 40), []) := by decide
  have hack : decodeDecInst [0x85] = (.decoded (.ack 5), []) := by decide
  obtain ⟨hencoder, hdecoder, hsection, -⟩ := qpack_segmentation_iff id (.new 0 100) .default 5 rfl
    (AList.notMem_empty 5) rfl [] [0x3f, 0x09] [0x85] [0x00, 0x00]
  refine ⟨hencoder.mpr ?_, hdecoder.mpr ?_, hsection (by decide)⟩
  · intro table inst hmeets
    rcases (meets_iff (by simp) hinst).mp hmeets with ⟨-, rfl⟩ | ⟨table₁, -, hmeets⟩
    · rfl
    · exact absurd hmeets (meets_nil _ _ _ _)
  · intro e₁ buf hreads hlong
    cases hreads with
    | refl =>
      rw [BeginsLong, Unfinished, hack] at hlong
      cases hlong
    | step hdecd happlied hreads =>
      rw [hack] at hdecd
      cases hdecd
      cases hreads with
      | refl => exact hlong.elim
      | step hdecd happlied hreads => cases hdecd

/-- An insertion that is cut in its value, an acknowledgment for stream 127 that is cut, and a
section that is cut behind its prefix are refused. -/
theorem qpack_segmentation_cut :
    ¬ (QpackDecoder.new 0 100).InsIndependent [0x3f, 0x09, 0x41, 0x61, 0x01, 0x62] ∧
      ¬ QpackEncoder.default.InsIndependent id [0xff, 0x00] ∧
      ¬ (QpackDecoder.new 0 100).ReprIndependent [] 5 [0x00, 0x00, 0xc1] := by
  refine ⟨fun h => ?_, fun h => ?_, fun h => ?_⟩
  · have hcut := congrArg (fun r => r.2.2.isOk)
      (h [[0x3f, 0x09, 0x41, 0x61, 0x01], [0x62]] (by simp) rfl)
    revert hcut
    decide
  · have hcut := congrArg (fun r => r.2.isOk) (h [[0xff], [0x00]] rfl)
    revert hcut
    decide
  · have hcut := congrArg (fun r => r.2.isOk) (h [[0x00, 0x00], [0xc1]] (by simp) rfl)
    revert hcut
    decide

end YlongHttp.Qpack
