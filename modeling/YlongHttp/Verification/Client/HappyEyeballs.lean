import YlongHttp.Model.HappyEyeballs

/-! # Happy Eyeballs gives up only when everything has failed

An address is in a future that is still to run, or an attempt to connect to it has failed. Each
branch of the selections keeps this, since the future that goes on after an error begins with the
first address of its family. -/

namespace YlongHttp.Dns

open List

variable {α ε : Type}

/-! ## The families -/

theorem splitPreferredAddrs_eq (isIpv6 : α → Bool) (addrs : List α) :
    splitPreferredAddrs isIpv6 addrs =
      (addrs.filter fun addr => isIpv6 addr == (addrs.head?.map isIpv6).getD false,
        addrs.filter fun addr => !(isIpv6 addr == (addrs.head?.map isIpv6).getD false)) := by
  rw [splitPreferredAddrs, partition_eq_filter_filter]
  rfl

theorem splitPreferredAddrs_perm (isIpv6 : α → Bool) (addrs : List α) :
    ((splitPreferredAddrs isIpv6 addrs).1 ++ (splitPreferredAddrs isIpv6 addrs).2).Perm addrs := by
  rw [splitPreferredAddrs_eq]
  exact filter_append_perm _ addrs

/-! ## One future -/

def Failed (attempts : List (α × Except (ConnectError ε) Unit)) (addr : α) : Prop :=
  ∃ e, (addr, .error e) ∈ attempts

/-- Of the addresses, those that are not among the `others` are still to be tried or failed. -/
structure Covers (addrs others : List α) (attempts : List (α × Except (ConnectError ε) Unit))
    (fut : Connecting α ε) : Prop where
  mem : ∀ addr ∈ fut.addrs, addr ∈ addrs
  tried : ∀ addr ∈ addrs, addr ∈ others ∨ addr ∈ fut.addrs ∨ Failed attempts addr

def Settled (addrs others : List α) (attempts : List (α × Except (ConnectError ε) Unit)) :
    Except (ConnectError ε) α → Prop
  | .ok addr => addr ∈ addrs ∧ (addr, .ok ()) ∈ attempts
  | .error _ => ∀ addr ∈ addrs, addr ∈ others ∨ Failed attempts addr

variable {addrs others : List α} {attempts : List (α × Except (ConnectError ε) Unit)}
  {fut : Connecting α ε}

theorem Covers.mono (h : Covers addrs others attempts fut)
    (more : List (α × Except (ConnectError ε) Unit)) :
    Covers addrs others (attempts ++ more) fut where
  mem := h.mem
  tried addr haddr :=
    (h.tried addr haddr).imp_right (.imp_right fun ⟨e, he⟩ => ⟨e, mem_append_left _ he⟩)

theorem Covers.next (h : Covers addrs others attempts fut) :
    fut.next.elim (Settled addrs others attempts) (Covers addrs others attempts) := by
  rw [Connecting.next]
  cases haddrs : fut.addrs with
  | cons addr rest => exact h
  | nil =>
    intro addr haddr
    have htried := h.tried addr haddr
    rw [haddrs] at htried
    simpa using htried

theorem Covers.resume (h : Covers addrs others attempts fut)
    (result : Except (ConnectError ε) Unit) :
    (fut.resume result).elim
      (Settled addrs others (attempts ++ fut.addrs.head?.toList.map (·, result)))
      (Covers addrs others (attempts ++ fut.addrs.head?.toList.map (·, result))) := by
  obtain ⟨left, timeout, unexpected⟩ := fut
  cases left with
  | nil => exact (append_nil attempts).symm ▸ h.next
  | cons addr rest =>
    cases result with
    | ok => exact ⟨h.mem addr mem_cons_self, by simp⟩
    | error e =>
      refine Covers.next ⟨fun a ha => h.mem a (mem_cons_of_mem _ ha), fun a ha => ?_⟩
      have hlast : Failed (attempts ++ [(addr, .error e)]) addr := ⟨e, by simp⟩
      rcases (h.mono [(addr, .error e)]).tried a ha with hothers | hleft | hfailed
      · exact .inl hothers
      · rcases mem_cons.mp hleft with rfl | hrest
        · exact .inr (.inr hlast)
        · exact .inr (.inl hrest)
      · exact .inr (.inr hfailed)

theorem Settled.connect {second : RemoteAddrs α} (hsec : ∀ addr ∈ second.addrs, addr ∈ addrs)
    {e : ConnectError ε} (h : Settled addrs second.addrs attempts (.error e)) :
    Covers addrs [] attempts second.connect :=
  ⟨hsec, fun addr haddr => .inr (h addr haddr)⟩

/-! ## The selections -/

namespace HappyEyeballs

/-- In each phase no address is lost: the family that a selection does not wait for is tried after
it, from its start. -/
def PhaseInv (addrs : List α) (preferred : RemoteAddrs α) (s : Eyeballs α ε) : Prop :=
  match s.phase with
  | .single fut => Covers addrs [] s.attempts fut
  | .outer second fut =>
    (∀ addr ∈ second.addrs, addr ∈ addrs) ∧ Covers addrs second.addrs s.attempts fut ∧
      ∀ addr ∈ addrs, addr ∈ preferred.addrs ∨ addr ∈ second.addrs
  | .inner second preferredFut secondFut =>
    (∀ addr ∈ second.addrs, addr ∈ addrs) ∧ Covers addrs second.addrs s.attempts preferredFut ∧
      Covers addrs preferred.addrs s.attempts secondFut
  | .done stream => Settled addrs [] s.attempts stream

variable {self : HappyEyeballs α} {s s' : Eyeballs α ε} {attempted : Attempted ε}

theorem settle_inv {other : RemoteAddrs α} (hother : ∀ addr ∈ other.addrs, addr ∈ addrs)
    {stream : Except (ConnectError ε) α} (h : Settled addrs other.addrs attempts stream) :
    PhaseInv addrs self.preferredAddr ⟨settle other.connect stream, attempts⟩ := by
  cases stream with
  | ok addr => exact h
  | error e => exact h.connect hother

variable {completed : Except (ConnectError ε) α → Phase α ε} {pending : Connecting α ε → Phase α ε}
  {c : Completion ε}

theorem poll_inv (h : s.poll fut attempted completed pending = some s')
    (hcovers : Covers addrs others s.attempts fut)
    (hcompleted : ∀ attempts stream, Settled addrs others attempts stream →
      PhaseInv addrs self.preferredAddr ⟨completed stream, attempts⟩)
    (hpend : ∀ more fut', Covers addrs others (s.attempts ++ more) fut' →
      PhaseInv addrs self.preferredAddr ⟨pending fut', s.attempts ++ more⟩) :
    PhaseInv addrs self.preferredAddr s' := by
  obtain ⟨result, -, rfl⟩ := Option.map_eq_some_iff.mp h
  have hresume := hcovers.resume result
  cases hnext : fut.resume result with
  | inl stream =>
    rw [hnext] at hresume
    exact hcompleted _ stream hresume
  | inr fut' =>
    rw [hnext] at hresume
    exact hpend _ fut' hresume

theorem step_inv (hpreferred : ∀ addr ∈ self.preferredAddr.addrs, addr ∈ addrs)
    (hinv : PhaseInv addrs self.preferredAddr s) (h : self.step s c = some s') :
    PhaseInv addrs self.preferredAddr s' := by
  rw [PhaseInv.eq_def] at hinv
  rw [step.eq_def] at h
  cases hphase : s.phase with
  | single fut =>
    rw [hphase] at h hinv
    cases c with
    | first attempted =>
      exact poll_inv h hinv (fun _ _ hsettled => hsettled) fun _ _ hcovers => hcovers
    | second attempted => cases h
    | delay => cases h
  | outer second fut =>
    rw [hphase] at h hinv
    obtain ⟨hsec, hfut, hboth⟩ := hinv
    cases c with
    | first attempted =>
      exact poll_inv h hfut (fun _ _ => settle_inv hsec)
        fun _ _ hcovers => ⟨hsec, hcovers, hboth⟩
    | second attempted => cases h
    | delay =>
      cases h
      exact ⟨hsec, ⟨hpreferred, fun addr haddr => (hboth addr haddr).symm.imp_right .inl⟩,
        hsec, fun addr haddr => (hboth addr haddr).imp_right .inl⟩
  | inner second preferredFut secondFut =>
    rw [hphase] at h hinv
    obtain ⟨hsec, hfut, hother⟩ := hinv
    cases c with
    | first attempted =>
      exact poll_inv h hfut (fun _ _ => settle_inv hsec)
        fun more _ hcovers => ⟨hsec, hcovers, hother.mono more⟩
    | second attempted =>
      exact poll_inv h hother (fun _ _ => settle_inv hpreferred)
        fun more _ hcovers => ⟨hsec, hfut.mono more, hcovers⟩
    | delay => cases h
  | done stream =>
    rw [hphase] at h
    cases c <;> cases h

theorem connect_inv (isIpv6 : α → Bool) (addrs : List α) (config : EyeBallConfig) :
    PhaseInv addrs (new isIpv6 addrs config).preferredAddr
      ((new isIpv6 addrs config).connect : Eyeballs α ε) ∧
    ∀ addr ∈ (new isIpv6 addrs config).preferredAddr.addrs, addr ∈ addrs := by
  have hmem : ∀ addr, addr ∈ addrs ↔ addr ∈ (splitPreferredAddrs isIpv6 addrs).1 ∨
      addr ∈ (splitPreferredAddrs isIpv6 addrs).2 := fun addr =>
    (splitPreferredAddrs_perm isIpv6 addrs).mem_iff.symm.trans mem_append
  refine ⟨?_, fun addr haddr => (hmem addr).mpr (.inl haddr)⟩
  by_cases hsec : (splitPreferredAddrs isIpv6 addrs).2 = []
  · rw [PhaseInv.eq_def, connect, new]
    dsimp only
    rw [if_pos hsec]
    refine ⟨fun addr haddr => (hmem addr).mpr (.inl haddr), fun addr haddr => ?_⟩
    have hor := (hmem addr).mp haddr
    rw [hsec] at hor
    exact .inr (.inl (hor.resolve_right not_mem_nil))
  · rw [PhaseInv.eq_def, connect, new]
    dsimp only
    rw [if_neg hsec]
    exact ⟨fun addr haddr => (hmem addr).mpr (.inr haddr),
      ⟨fun addr haddr => (hmem addr).mpr (.inl haddr), fun addr haddr =>
        ((hmem addr).mp haddr).symm.imp_right .inl⟩, fun addr => (hmem addr).mp⟩

theorem run_inv {isIpv6 : α → Bool} {config : EyeBallConfig} {completions : List (Completion ε)}
    (h : (new isIpv6 addrs config).run completions = some s) :
    PhaseInv addrs (new isIpv6 addrs config).preferredAddr s := by
  obtain ⟨hinv, hpreferred⟩ := @connect_inv α ε isIpv6 addrs config
  rw [run] at h
  generalize connect _ = s₀ at h hinv
  induction completions generalizing s₀ with
  | nil =>
    cases h
    exact hinv
  | cons c completions ih =>
    rw [foldlM_cons] at h
    obtain ⟨s₁, hstep, hrun⟩ := Option.bind_eq_some_iff.mp h
    exact ih s₁ hrun (step_inv hpreferred hinv hstep)

/-- The two families are the addresses, those of the family of the first one in front. Whatever
completes, and in whatever order: an error comes only after an attempt to connect to each of the
addresses has failed, and a stream from an attempt to connect to one of them. -/
theorem connect_outcome (isIpv6 : α → Bool) (addrs : List α) (hne : addrs ≠ [])
    (config : EyeBallConfig) :
    ((splitPreferredAddrs isIpv6 addrs).1 ++ (splitPreferredAddrs isIpv6 addrs).2).Perm addrs ∧
    (∀ addr ∈ (splitPreferredAddrs isIpv6 addrs).1, isIpv6 addr = isIpv6 (addrs.head hne)) ∧
    (∀ addr ∈ (splitPreferredAddrs isIpv6 addrs).2, isIpv6 addr ≠ isIpv6 (addrs.head hne)) ∧
    ∀ (completions : List (Completion ε)) (s : Eyeballs α ε),
      (HappyEyeballs.new isIpv6 addrs config).run completions = some s →
        (∀ e, s.phase = .done (.error e) → ∀ addr ∈ addrs, ∃ e, (addr, .error e) ∈ s.attempts) ∧
        ∀ addr, s.phase = .done (.ok addr) → addr ∈ addrs ∧ (addr, .ok ()) ∈ s.attempts := by
  have hhead : (addrs.head?.map isIpv6).getD false = isIpv6 (addrs.head hne) := by
    rw [head?_eq_some_head hne]
    rfl
  refine ⟨splitPreferredAddrs_perm isIpv6 addrs, fun addr haddr => ?_, fun addr haddr => ?_,
    fun completions s h => ?_⟩
  · rw [splitPreferredAddrs_eq, hhead] at haddr
    simpa using (mem_filter.mp haddr).2
  · rw [splitPreferredAddrs_eq, hhead] at haddr
    simpa using (mem_filter.mp haddr).2
  · have hinv := run_inv h
    rw [PhaseInv.eq_def] at hinv
    constructor
    · intro e hphase addr haddr
      rw [hphase] at hinv
      exact (hinv addr haddr).resolve_left not_mem_nil
    · intro addr hphase
      rw [hphase] at hinv
      exact hinv

/-- Two addresses of IPv6 around one of IPv4. The delay starts the preferred family anew. -/
theorem connect_outcome_run :
    ∃ s : Eyeballs (ℕ × Bool) String,
      (HappyEyeballs.new Prod.snd [(1, true), (2, false), (3, true)] ⟨some 60, none⟩).run
        [.first (.failed "refused"), .delay, .second .elapsed, .first .elapsed,
          .first (.failed "unreachable")] = some s ∧
      s.phase = .done (.error (.io "unreachable")) ∧
      ∀ addr ∈ [(1, true), (2, false), (3, true)], ∃ e, (addr, .error e) ∈ s.attempts := by
  have hrun := (@connect_outcome _ String Prod.snd [(1, true), (2, false), (3, true)]
    (cons_ne_nil _ _) ⟨some 60, none⟩).2.2.2
    [.first (.failed "refused"), .delay, .second .elapsed, .first .elapsed,
      .first (.failed "unreachable")]
  exact ⟨_, rfl, rfl, (hrun _ rfl).1 _ rfl⟩

/-! ## The end of every run -/

theorem resume_lt {fut' : Connecting α ε} {result : Except (ConnectError ε) Unit}
    (h : fut.resume result = .inr fut') : fut'.addrs.length < fut.addrs.length := by
  obtain ⟨addrs, timeout, unexpected⟩ := fut
  cases result with
  | ok => cases addrs <;> cases h
  | error e =>
    rcases addrs with _ | ⟨addr, _ | ⟨next, rest⟩⟩ <;> cases h
    exact Nat.lt_succ_self _

/-- No more completions than these are to come. A delay starts the preferred family anew, and a
selection that fails tries the other family from its start. -/
def left (self : HappyEyeballs α) : Phase α ε → ℕ
  | .single fut => fut.addrs.length + 1
  | .outer second fut => fut.addrs.length + self.preferredAddr.addrs.length +
      second.addrs.length + max self.preferredAddr.addrs.length second.addrs.length + 3
  | .inner second preferredFut secondFut => preferredFut.addrs.length + secondFut.addrs.length +
      max self.preferredAddr.addrs.length second.addrs.length + 2
  | .done _ => 0

theorem settle_left (other : RemoteAddrs α) (stream : Except (ConnectError ε) α) :
    self.left (settle other.connect stream) ≤ other.addrs.length + 1 := by
  cases stream with
  | ok addr => exact Nat.zero_le _
  | error e => exact le_rfl

theorem poll_left {n : ℕ} (h : s.poll fut attempted completed pending = some s')
    (hcompleted : ∀ stream, self.left (completed stream) < n)
    (hpend : ∀ fut', fut'.addrs.length < fut.addrs.length → self.left (pending fut') < n) :
    self.left s'.phase < n := by
  obtain ⟨result, -, rfl⟩ := Option.map_eq_some_iff.mp h
  cases hnext : fut.resume result with
  | inl stream => exact hcompleted stream
  | inr fut' => exact hpend fut' (resume_lt hnext)

theorem step_left (h : self.step s c = some s') :
    self.left s'.phase < self.left s.phase := by
  rw [step.eq_def] at h
  cases hphase : s.phase with
  | single fut =>
    rw [hphase] at h
    cases c with
    | first attempted =>
      exact poll_left h (fun _ => Nat.succ_pos _) fun _ hlt => Nat.succ_lt_succ hlt
    | _ => cases h
  | outer second fut =>
    rw [hphase] at h
    cases c with
    | first attempted =>
      exact poll_left h (fun stream => (settle_left second stream).trans_lt (by rw [left]; omega))
        fun fut' hlt => by rw [left, left]; omega
    | delay =>
      cases h
      change self.preferredAddr.addrs.length + second.addrs.length + _ + 2 < _ + _ + _ + _ + 3
      omega
    | _ => cases h
  | inner second preferredFut secondFut =>
    rw [hphase] at h
    cases c with
    | first attempted =>
      exact poll_left h (fun stream => (settle_left second stream).trans_lt (by rw [left]; omega))
        fun fut' hlt => by rw [left, left]; omega
    | second attempted =>
      exact poll_left h (fun stream => (settle_left _ stream).trans_lt (by rw [left]; omega))
        fun fut' hlt => by rw [left, left]; omega
    | _ => cases h
  | done stream =>
    rw [hphase] at h
    cases c <;> cases h

theorem run_left {completions : List (Completion ε)}
    (h : completions.foldlM self.step s = some s') :
    completions.length + self.left s'.phase ≤ self.left s.phase := by
  induction completions generalizing s with
  | nil =>
    cases h
    rw [length_nil, zero_add]
  | cons c completions ih =>
    rw [foldlM_cons] at h
    obtain ⟨s₁, hstep, hrun⟩ := Option.bind_eq_some_iff.mp h
    have hleft := step_left hstep
    have hrest := ih hrun
    rw [length_cons]
    omega

/-- Whatever completes, and in whatever order: a call goes on for at most three completions for
each address and three more. -/
theorem connect_ends (isIpv6 : α → Bool) (addrs : List α) (config : EyeBallConfig)
    {completions : List (Completion ε)}
    (h : (HappyEyeballs.new isIpv6 addrs config).run completions = some s) :
    completions.length ≤ 3 * addrs.length + 3 := by
  have hleft := run_left h
  have hperm := (splitPreferredAddrs_perm isIpv6 addrs).length_eq
  rw [length_append] at hperm
  rw [HappyEyeballs.connect, new] at hleft
  by_cases hsec : (splitPreferredAddrs isIpv6 addrs).2 = [] <;>
    simp only [hsec, ↓reduceIte, left, RemoteAddrs.connect] at hleft <;> omega

/-- Both families start, and the preferred one starts again after the other has failed. -/
theorem connect_ends_refused :
    [Completion.delay, .second (.failed "refused"), .first (.failed "refused")].length ≤ 9 :=
  connect_ends Prod.snd [(1, true), (2, false)] ⟨none, none⟩ rfl

end HappyEyeballs

end YlongHttp.Dns
