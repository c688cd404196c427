import YlongHttp.Model.Transfer

/-! # The progress of transfers

What is read is handed on in its order as long as nothing fails within a piece. The counts are right
as long as the operator takes all that it is offered and the reader of an upload gets empty buffers,
the total where a header `Content` repeats the content length. -/

namespace YlongHttp.Client

open List Option

/-! ## Downloads -/

namespace Downloader

/-- What is read is handed on once and in its order. -/
structure InOrder (s : Download) : Prop where
  inOrder : s.accepted <+: s.read
  offered : ∀ data start, s.awaited = .download data start → s.accepted ++ data.drop start = s.read
  complete : s.awaited = .idle true → s.accepted = s.read

/-- What a download promises to its operator. -/
structure Exact (d : Downloader) (s : Download) : Prop extends InOrder s where
  safe : s.awaited ≠ .panicked
  count : ∀ r ∈ s.reports, r.downloaded = r.accepted
  total : ∀ r ∈ s.reports, ∀ n, contentLength d.headers = some n → r.total = some n

/-- Neither the operator nor the progress fails as long as something of a piece is left. -/
def Persists (s : Download) : DownloadAnswer → Prop
  | .download size => ∀ data start, s.awaited = .download data start → size ≠ none
  | .progress ok => ∀ data start, s.awaited = .progress data start → start ≠ data.length → ok = true
  | _ => True

/-- The operator takes all that it is offered, of a body whose length is a `u64`. -/
def TakesAll (s : Download) : DownloadAnswer → Prop
  | .download size => ∀ data start, s.awaited = .download data start →
      size = some (data.length - start) ∧ s.read.length < 2 ^ 64
  | _ => True

/-- The condition holds of each answer from the state on. -/
def Always (condition : Download → DownloadAnswer → Prop) (d : Downloader) :
    Download → List (ℕ × DownloadAnswer) → Prop
  | _, [] => True
  | s, (wait, answer) :: answers => condition s answer ∧ ∀ s',
      d.step { s with clock := s.clock + wait } answer = some s' → Always condition d s' answers

theorem Always.cons {condition : Download → DownloadAnswer → Prop} {d : Downloader}
    {s s' : Download} {wait : ℕ} {answer : DownloadAnswer} {answers : List (ℕ × DownloadAnswer)}
    (hanswer : condition s answer)
    (hstep : d.step { s with clock := s.clock + wait } answer = some s')
    (hrest : Always condition d s' answers) : Always condition d s ((wait, answer) :: answers) :=
  ⟨hanswer, fun _ h => some.inj (hstep.symm.trans h) ▸ hrest⟩

/-- The data that was read is handed on, or lost when it is too late. -/
def Delivered (late : Prop) (read accepted : Bytes) : Awaited → Prop
  | .download data size | .progress data size => accepted ++ data.drop size = read
  | .data | .finish | .idle true => accepted = read
  | .start | .idle false => accepted <+: read ∧ (accepted = read ∨ late)
  | .panicked => accepted <+: read

def Late (d : Downloader) (s : Download) : Prop :=
  ∃ info, s.info = some info ∧ d.isTimeout info s.clock

def Ordered (d : Downloader) (s : Download) : Prop :=
  Delivered (d.Late s) s.read s.accepted s.awaited

structure Counted (d : Downloader) (s : Download) : Prop where
  fresh : s.info = none → s.accepted = []
  counted : ∀ info, s.info = some info → info.downloadedBytes = s.accepted.length ∧
    info.totalBytes = (d.newInfo 0).totalBytes
  reports : ∀ r ∈ s.reports, r.downloaded = r.accepted ∧ r.total = (d.newInfo 0).totalBytes
  safe : s.awaited ≠ .panicked
  offered : ∀ data size, s.awaited = .download data size → size = 0
  taken : ∀ data size, s.awaited = .progress data size → size = data.length

variable {d : Downloader} {s s' : Download} {info : DownloadInfo} {answer : DownloadAnswer}
  {condition : Download → DownloadAnswer → Prop} {ok : Bool} {octets : Option Bytes}
  {size : Option ℕ}

theorem Delivered.mono {late later : Prop} {read accepted : Bytes} {awaited : Awaited}
    (h : Delivered late read accepted awaited) (hlate : late → later) :
    Delivered later read accepted awaited := by
  rcases awaited with (_ | _) | _ | _ | _ | _ | _ | _
  case idle.false => exact h.imp_right (.imp_right hlate)
  case start => exact h.imp_right (.imp_right hlate)
  all_goals exact h

theorem Ordered.wait (h : d.Ordered s) (wait : ℕ) : d.Ordered { s with clock := s.clock + wait } :=
  h.mono fun ⟨info, hinfo, htimeout⟩ => by
    refine ⟨info, hinfo, ?_⟩
    rw [isTimeout] at htimeout ⊢
    split at htimeout
    · simp only [decide_eq_true_eq] at htimeout ⊢
      omega
    · cases htimeout

theorem delivered_offer {data read : Bytes} {size : ℕ} (hinfo : s.info = some info)
    (hread : s.accepted ++ data.drop size = read) :
    Delivered (d.Late s) read s.accepted (d.offer s info data size) := by
  rw [offer]
  split
  · next hsize =>
      rw [hsize, drop_length, append_nil] at hread
      exact hread
  · split
    · next htimeout => exact ⟨⟨_, hread⟩, .inr ⟨info, hinfo, htimeout⟩⟩
    · exact hread

theorem Ordered.call (h : d.Ordered s) (hstep : d.step s .call = some s') : d.Ordered s' := by
  rw [Ordered] at h
  rw [step] at hstep
  cases hawaited : s.awaited with
  | idle ok =>
    rw [hawaited] at hstep h
    cases hstep
    cases ok with
    | true => exact ⟨h ▸ prefix_rfl, .inl h⟩
    | false =>
      refine h.imp_right (.imp_right fun ⟨info, hinfo, htimeout⟩ => ⟨info, ?_, htimeout⟩)
      rw [hinfo]
      rfl
  | _ =>
    rw [hawaited] at hstep
    cases hstep

theorem Ordered.progress (h : d.Ordered s) (hpersists : Persists s (.progress ok))
    (hstep : d.step s (.progress ok) = some s') : d.Ordered s' := by
  rw [Ordered] at h
  obtain ⟨info, hinfo, hstep⟩ := bind_eq_some_iff.mp hstep
  cases hawaited : s.awaited with
  | start =>
    rw [hawaited] at hstep h
    cases hstep
    rw [Ordered]
    dsimp only
    split
    · next hgoes =>
        obtain heq | ⟨info', hinfo', htimeout⟩ := h.2
        · exact heq
        · obtain rfl := some.inj (hinfo.symm.trans hinfo')
          rw [Bool.and_eq_true, Bool.not_eq_true'] at hgoes
          rw [htimeout] at hgoes
          cases hgoes.2
    · exact h
  | finish =>
    rw [hawaited] at hstep h
    cases hstep
    cases ok with
    | true => exact h
    | false => exact ⟨h ▸ prefix_rfl, .inl h⟩
  | progress data size =>
    rw [hawaited] at hstep h
    cases hstep
    cases ok with
    | true => exact delivered_offer hinfo h
    | false =>
      have hsize : size = data.length := not_not.mp fun hne => nomatch hpersists data size hawaited hne
      rw [hsize, Delivered, drop_length, append_nil] at h
      exact ⟨h ▸ prefix_rfl, .inl h⟩
  | _ =>
    rw [hawaited] at hstep
    cases hstep

theorem Ordered.data (h : d.Ordered s) (hstep : d.step s (.data octets) = some s') :
    d.Ordered s' := by
  rw [Ordered] at h
  cases octets with
  | none =>
    rw [step] at hstep
    split at hstep
    · next hawaited =>
        rw [hawaited] at h
        cases hstep
        exact ⟨h ▸ prefix_rfl, .inl h⟩
    · cases hstep
  | some octets =>
    obtain ⟨info, hinfo, hstep⟩ := bind_eq_some_iff.mp hstep
    split at hstep
    · next hawaited =>
        rw [hawaited.1] at h
        replace h : s.accepted = s.read := h
        cases hstep
        rw [Ordered]
        dsimp only
        split
        · next hnil =>
            rw [hnil, append_nil]
            exact h
        · exact delivered_offer hinfo (by rw [drop_zero, h])
    · cases hstep

theorem Ordered.download (h : d.Ordered s) (hpersists : Persists s (.download size))
    (hstep : d.step s (.download size) = some s') : d.Ordered s' := by
  rw [Ordered] at h
  cases size with
  | none =>
    rw [step] at hstep
    split at hstep
    · next data start hawaited => exact absurd rfl (hpersists data start hawaited)
    · cases hstep
  | some size =>
    obtain ⟨info, hinfo, hstep⟩ := bind_eq_some_iff.mp hstep
    split at hstep
    · next data start hawaited =>
        rw [hawaited] at h
        replace h : s.accepted ++ data.drop start = s.read := h
        split at hstep
        · have hread : s.accepted ++ (data.drop start).take size ++ data.drop (start + size) =
              s.read := by
            rw [append_assoc, ← drop_drop, take_append_drop, h]
          cases hstep
          split
          · exact hread
          · exact ⟨_, hread⟩
        · cases hstep
    · cases hstep

theorem Ordered.step (h : d.Ordered s) (hpersists : Persists s answer)
    (hstep : d.step s answer = some s') : d.Ordered s' := by
  cases answer with
  | call => exact h.call hstep
  | progress ok => exact h.progress hpersists hstep
  | data octets => exact h.data hstep
  | download size => exact h.download hpersists hstep

theorem Ordered.inOrder (h : d.Ordered s) : InOrder s where
  inOrder := by
    rw [Ordered] at h
    rcases hawaited : s.awaited with (_ | _) | _ | _ | _ | _ | _ | _ <;> rw [hawaited] at h
    case idle.false => exact h.1
    case start => exact h.1
    case download => exact ⟨_, h⟩
    case progress => exact ⟨_, h⟩
    case panicked => exact h
    all_goals exact (show s.accepted = s.read from h) ▸ prefix_rfl
  offered data start hawaited := by rwa [Ordered, hawaited] at h
  complete hawaited := by rwa [Ordered, hawaited] at h

/-! ## Their counts -/

theorem Counted.report (h : d.Counted s) (hinfo : s.info = some info) :
    ∀ r ∈ (report s info).reports, r.downloaded = r.accepted ∧
      r.total = (d.newInfo 0).totalBytes := by
  intro r hr
  rcases mem_append.mp hr with hr | hr
  · exact h.reports r hr
  · rw [mem_singleton.mp hr]
    exact h.counted info hinfo

theorem Counted.call (h : d.Counted s) (hstep : d.step s .call = some s') : d.Counted s' := by
  rw [Downloader.step] at hstep
  split at hstep
  · cases hstep
    refine ⟨fun hinfo => absurd hinfo (some_ne_none _), fun info hinfo => ?_, h.reports, nofun,
      nofun, nofun⟩
    cases hold : s.info with
    | some old =>
      rw [hold] at hinfo
      exact h.counted info (hold.trans hinfo)
    | none =>
      rw [hold] at hinfo
      cases hinfo
      exact ⟨by rw [h.fresh hold]; rfl, rfl⟩
  · cases hstep

theorem Counted.progress (h : d.Counted s) (hstep : d.step s (.progress ok) = some s') :
    d.Counted s' := by
  obtain ⟨info, hinfo, hstep⟩ := bind_eq_some_iff.mp hstep
  have hreport := h.report hinfo
  cases hawaited : s.awaited with
  | start =>
    rw [hawaited] at hstep
    cases hstep
    refine ⟨h.fresh, h.counted, hreport, ?_, ?_, ?_⟩ <;> dsimp only <;> split <;> nofun
  | finish =>
    rw [hawaited] at hstep
    cases hstep
    exact ⟨h.fresh, h.counted, hreport, nofun, nofun, nofun⟩
  | progress data size =>
    rw [hawaited] at hstep
    cases hstep
    rw [h.taken data size hawaited, offer, if_pos rfl]
    refine ⟨h.fresh, h.counted, hreport, ?_, ?_, ?_⟩ <;> dsimp only <;> split <;> nofun
  | _ =>
    rw [hawaited] at hstep
    cases hstep

theorem Counted.data (h : d.Counted s) (hstep : d.step s (.data octets) = some s') :
    d.Counted s' := by
  cases octets with
  | none =>
    rw [Downloader.step] at hstep
    split at hstep
    · cases hstep
      exact ⟨h.fresh, h.counted, h.reports, nofun, nofun, nofun⟩
    · cases hstep
  | some octets =>
    obtain ⟨info, hinfo, hstep⟩ := bind_eq_some_iff.mp hstep
    split at hstep
    · cases hstep
      have hoffer : ∀ awaited, awaited = (if octets = [] then .finish else d.offer s info octets 0) →
          awaited ≠ .panicked ∧ (∀ data size, awaited = .download data size → size = 0) ∧
            ∀ data size, awaited ≠ .progress data size := by
        rintro _ rfl
        rw [offer]
        split
        · exact ⟨nofun, nofun, nofun⟩
        · split
          · exact ⟨nofun, nofun, nofun⟩
          · split
            · exact ⟨nofun, nofun, nofun⟩
            · refine ⟨nofun, fun data size heq => ?_, nofun⟩
              cases heq
              rfl
      obtain ⟨hsafe, hoffered, hnot⟩ := hoffer _ rfl
      exact ⟨h.fresh, h.counted, h.reports, hsafe, hoffered, fun data size heq =>
        absurd heq (hnot data size)⟩
    · cases hstep

theorem Counted.download (h : d.Counted s) (hordered : d.Ordered s)
    (hall : TakesAll s (.download size)) (hstep : d.step s (.download size) = some s') :
    d.Counted s' := by
  cases size with
  | none =>
    rw [Downloader.step] at hstep
    split at hstep
    · next data start hawaited => cases (hall data start hawaited).1
    · cases hstep
  | some size =>
    obtain ⟨info, hinfo, hstep⟩ := bind_eq_some_iff.mp hstep
    split at hstep
    · next data start hawaited =>
        obtain ⟨hsize, hfits⟩ := hall data start hawaited
        obtain rfl := h.offered data start hawaited
        obtain rfl : size = data.length := some.inj hsize
        have hlength := congrArg length (hordered.inOrder.offered data 0 hawaited)
        have hcounted := h.counted info hinfo
        rw [drop_zero, length_append] at hlength
        rw [if_pos (Nat.zero_add _).le] at hstep
        dsimp only at hstep
        rw [if_pos (by omega)] at hstep
        cases hstep
        refine ⟨fun hnone => absurd hnone (some_ne_none _), fun info' hinfo' => ?_, h.reports, nofun,
          nofun, fun data' size heq => ?_⟩
        · cases hinfo'
          refine ⟨?_, hcounted.2⟩
          rw [drop_zero, take_length, length_append]
          exact congrArg (· + data.length) hcounted.1
        · cases heq
          exact Nat.zero_add _
    · cases hstep

theorem Counted.step (h : d.Counted s) (hordered : d.Ordered s) (hall : TakesAll s answer)
    (hstep : d.step s answer = some s') : d.Counted s' := by
  cases answer with
  | call => exact h.call hstep
  | progress ok => exact h.progress hstep
  | data octets => exact h.data hstep
  | download size => exact h.download hordered hall hstep

theorem Counted.persists (h : d.Counted s) (hall : TakesAll s answer) : Persists s answer := by
  cases answer with
  | call | data => trivial
  | progress ok => exact fun data start hawaited hne => absurd (h.taken data start hawaited) hne
  | download size =>
    intro data start hawaited
    rw [(hall data start hawaited).1]
    exact some_ne_none _

theorem ordered_new (d : Downloader) : d.Ordered Downloader.new := rfl

theorem counted_new (d : Downloader) : d.Counted Downloader.new where
  fresh _ := rfl
  counted _ hinfo := by cases hinfo
  reports _ hr := by cases hr
  safe := nofun
  offered := nofun
  taken := nofun

/-- What an answer that meets the condition preserves, a run of such answers does. -/
theorem run_inv {inv : Download → Prop} {answers : List (ℕ × DownloadAnswer)}
    (hnew : inv Downloader.new)
    (hstep : ∀ s wait answer s', inv s → condition s answer →
      d.step { s with clock := s.clock + wait } answer = some s' → inv s')
    (hall : Always condition d new answers) (h : d.run answers = some s) : inv s := by
  rw [run] at h
  generalize new = s₀ at hall h hnew
  induction answers generalizing s₀ with
  | nil =>
    cases h
    exact hnew
  | cons first answers ih =>
    obtain ⟨wait, answer⟩ := first
    rw [foldlM_cons] at h
    obtain ⟨s₁, hfirst, hrun⟩ := bind_eq_some_iff.mp h
    exact ih s₁ (hall.2 s₁ hfirst) hrun (hstep s₀ wait answer s₁ hnew hall.1 hfirst)

theorem run_inOrder {answers : List (ℕ × DownloadAnswer)} (hall : Always Persists d new answers)
    (h : d.run answers = some s) : InOrder s :=
  Ordered.inOrder <| run_inv (ordered_new d) (fun _ wait _ _ hordered hpersists =>
    (hordered.wait wait).step hpersists) hall h

/-- Where there is a content length, a header `Content` repeats it. -/
def ContentIsLength (headers : Headers) : Prop :=
  ∀ n, contentLength headers = some n →
    (headers.get (str "Content")).bind (fun value => parseUnsigned (2 ^ 64) value.toString) = some n

theorem run_exact {answers : List (ℕ × DownloadAnswer)} (htotal : ContentIsLength d.headers)
    (hall : Always TakesAll d new answers) (h : d.run answers = some s) : d.Exact s := by
  have hinv : d.Ordered s ∧ d.Counted s := by
    refine @run_inv d s TakesAll (fun s => d.Ordered s ∧ d.Counted s) _
      ⟨ordered_new d, counted_new d⟩ ?_ hall h
    rintro s wait answer s' ⟨hordered, hcounted⟩ htakes hstep
    have hordered' := hordered.wait wait
    have hcounted' : d.Counted { s with clock := s.clock + wait } := { hcounted with }
    exact ⟨hordered'.step (hcounted'.persists htakes) hstep, hcounted'.step hordered' htakes hstep⟩
  obtain ⟨hordered, hcounted⟩ := hinv
  exact { hordered.inOrder with
    safe := hcounted.safe
    count := fun r hr => (hcounted.reports r hr).1
    total := fun r hr n hn => (hcounted.reports r hr).2.trans (htotal n hn) }

end Downloader

/-! ## Uploads -/

namespace Uploader

structure Inv (s : Upload) : Prop where
  counted : s.uploadedBytes.getD 0 = s.produced
  reports : ∀ r ∈ s.reports, r.1 = r.2

/-- No read that brings octets has some in its buffer already. -/
def FillsEmpty (calls : List UploadCall) : Prop :=
  ∀ filled size, .pollRead filled true (some size) ∈ calls → filled = 0

/-- How many octets the reader produces. -/
def produces : UploadCall → ℕ
  | .pollRead _ true (some size) => size
  | _ => 0

theorem Inv.step {s : Upload} (h : Inv s) {call : UploadCall} (hempty : FillsEmpty [call])
    (hfits : s.produced + produces call < 2 ^ 64) :
    ∃ s', step s call = some s' ∧ Inv s' ∧ s'.produced ≤ s.produced + produces call := by
  cases call with
  | reuse => exact ⟨_, rfl, ⟨rfl, h.reports⟩, Nat.zero_le _⟩
  | pollRead filled progress reader =>
    have hreports : ∀ r ∈ s.reports ++ [(s.uploadedBytes.getD 0, s.produced)], r.1 = r.2 := by
      intro r hr
      rcases mem_append.mp hr with hr | hr
      · exact h.reports r hr
      · rw [mem_singleton.mp hr]
        exact h.counted
    rcases progress with _ | _
    · exact ⟨_, rfl, ⟨h.counted, hreports⟩, le_rfl⟩
    · cases reader with
      | none => exact ⟨_, rfl, ⟨h.counted, hreports⟩, le_rfl⟩
      | some size =>
        obtain rfl := hempty filled size mem_cons_self
        rw [← h.counted, ← Nat.zero_add (produces _)] at hfits
        refine ⟨_, if_pos hfits, ⟨?_, hreports⟩, le_rfl⟩
        rw [Nat.zero_add]
        exact congrArg (· + size) h.counted

theorem run_inv {calls : List UploadCall} {s : Upload} (h : Inv s) (hempty : FillsEmpty calls)
    (hfits : s.produced + (calls.map produces).sum < 2 ^ 64) :
    ∃ s', calls.foldlM step s = some s' ∧ Inv s' := by
  induction calls generalizing s with
  | nil => exact ⟨s, rfl, h⟩
  | cons call calls ih =>
    rw [map_cons, sum_cons] at hfits
    obtain ⟨s₁, hstep, hinv, hle⟩ := h.step (fun filled size hmem =>
      hempty filled size (mem_cons.mpr (.inl (mem_singleton.mp hmem)))) (by omega)
    obtain ⟨s', hrun, hinv'⟩ := ih hinv
      (fun filled size hmem => hempty filled size (mem_cons_of_mem _ hmem)) (by omega)
    exact ⟨s', by rw [foldlM_cons, hstep]; exact hrun, hinv'⟩

/-- Every count that was reported is what the reader had produced. -/
def Exact (calls : List UploadCall) : Prop :=
  ∃ s, run calls = some s ∧ ∀ r ∈ s.reports, r.1 = r.2

theorem exact {calls : List UploadCall} (hempty : FillsEmpty calls)
    (hfits : (calls.map produces).sum < 2 ^ 64) : Exact calls := by
  obtain ⟨s, hrun, hinv⟩ := @run_inv calls
    { uploadedBytes := none, produced := 0, reports := [] } ⟨rfl, nofun⟩ hempty (by rwa [Nat.zero_add])
  exact ⟨s, hrun, hinv.reports⟩

end Uploader

/-! ## Both -/

/-- Downloads in which nothing fails within a piece hand it on in its order. Those in which the
operator takes all that it is offered are exact, where `Content` is the length, and so are uploads
whose reader fills empty buffers. -/
theorem transfer_progress (d : Downloader) (answers : List (ℕ × DownloadAnswer))
    (calls : List UploadCall) :
    (Downloader.Always Downloader.Persists d Downloader.new answers →
      ∀ s, d.run answers = some s → Downloader.InOrder s) ∧
    (Downloader.ContentIsLength d.headers →
      Downloader.Always Downloader.TakesAll d Downloader.new answers →
      ∀ s, d.run answers = some s → d.Exact s) ∧
    (Uploader.FillsEmpty calls → (calls.map Uploader.produces).sum < 2 ^ 64 →
      Uploader.Exact calls) :=
  ⟨fun hall _ h => Downloader.run_inOrder hall h,
    fun htotal hall _ h => Downloader.run_exact htotal hall h,
    fun hempty hfits => Uploader.exact hempty hfits⟩

/-- Three octets, taken as one and two by a first operator, and as a whole by another. -/
theorem transfer_progress_three :
    ∃ headers s s', contentLength headers = some 3 ∧
      (Downloader.mk headers none).run
        [(0, .call), (0, .progress true), (0, .data (some [1, 2, 3])), (0, .download (some 1)),
          (0, .progress true), (0, .download (some 2))] = some s ∧ Downloader.InOrder s ∧
      (Downloader.mk headers none).run
        [(0, .call), (0, .progress true), (0, .data (some [1, 2, 3])), (0, .download (some 3)),
          (0, .progress true)] = some s' ∧ (Downloader.mk headers none).Exact s' ∧
      Uploader.Exact [.pollRead 0 true (some 2), .pollRead 3 true none, .reuse,
        .pollRead 0 true (some 4)] := by
  obtain ⟨headers, hlength, htotal⟩ : ∃ headers, contentLength headers = some 3 ∧
      Downloader.ContentIsLength headers := by
    refine ⟨((Headers.new.append (str "Content") (str "3")).bind
      (·.append (str "Content-Length") (str "3"))).get (by decide +kernel), by decide +kernel, ?_⟩
    intro n hn
    rw [← hn]
    decide +kernel
  obtain ⟨hfirst, -, -⟩ := transfer_progress ⟨headers, none⟩ [(0, .call), (0, .progress true),
    (0, .data (some [1, 2, 3])), (0, .download (some 1)), (0, .progress true),
    (0, .download (some 2))] []
  obtain ⟨-, hwhole, -⟩ := transfer_progress ⟨headers, none⟩ [(0, .call), (0, .progress true),
    (0, .data (some [1, 2, 3])), (0, .download (some 3)), (0, .progress true)] []
  obtain ⟨-, -, hupload⟩ := transfer_progress ⟨headers, none⟩ [] [.pollRead 0 true (some 2),
    .pollRead 3 true none, .reuse, .pollRead 0 true (some 4)]
  refine ⟨headers, _, _, hlength, rfl, hfirst ?_ _ rfl, rfl, hwhole htotal ?_ _ rfl,
    hupload (fun filled size hmem => ?_) (by decide)⟩
  · exact .cons trivial rfl (.cons nofun rfl (.cons trivial rfl (.cons (fun _ _ _ => nofun) rfl
      (.cons (fun _ _ _ _ => rfl) rfl (.cons (fun _ _ _ => nofun) rfl trivial)))))
  · refine .cons trivial rfl (.cons trivial rfl (.cons trivial rfl (.cons ?_ rfl
      (.cons trivial rfl trivial))))
    intro data start hawaited
    cases hawaited
    exact ⟨rfl, (by decide : 3 < 2 ^ 64)⟩
  · simp only [mem_cons, UploadCall.pollRead.injEq, reduceCtorEq, and_false, not_mem_nil, or_false,
      false_or, some_inj] at hmem
    exact hmem.elim (·.1) (·.1)

/-- Three octets that are read as one piece, and accepted as two, count as six: the first progress
is ahead of what was accepted. The total is unknown, though the content length is given. A buffer
that held three octets makes two octets count as five. -/
theorem transfer_progress_partial :
    (∃ headers, Headers.new.append (str "Content-Length") (str "3") = some headers ∧
      contentLength headers = some 3 ∧
      ((Downloader.mk headers none).run
        [(0, .call), (0, .progress true), (0, .data (some [1, 2, 3])), (0, .download (some 1)),
          (0, .progress true), (0, .download (some 2)), (0, .progress true)]).map (·.reports) =
        some [⟨0, none, 0⟩, ⟨3, none, 1⟩, ⟨6, none, 3⟩]) ∧
    (Uploader.run [.pollRead 3 true (some 2), .pollRead 0 true none]).map (·.reports) =
      some [(0, 0), (5, 2)] := by
  refine ⟨⟨_, rfl, ?_, ?_⟩, rfl⟩
  · decide +kernel
  · decide +kernel

end YlongHttp.Client
