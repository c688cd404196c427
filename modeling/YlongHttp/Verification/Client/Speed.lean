import YlongHttp.Model.SpeedLimit

/-! # Transfers are not faster than their limit -/

namespace YlongHttp.SpeedLimit

open SpeedLimit

variable {rate now dataSize : ℕ} {self next : SpeedLimit} {closed : Option Period}
  {periods : List Period}

/-- The limiters that calls lead to, with the periods that were completed. No transfer is started
before the delay of the one before it is over. -/
inductive Reached (rate : ℕ) : SpeedLimit → List Period → Prop
  | new {self : SpeedLimit} : SpeedLimit.new rate speedCheckPeriod = .ok self → Reached rate self []
  | step {self next : SpeedLimit} {call : Call} {closed : Option Period} {periods : List Period} :
      Reached rate self periods → (∀ now, call = .start now → self.delay = none) →
      self.step call = .ok (next, closed) → Reached rate next (closed.toList ++ periods)

def Limited (rate : ℕ) (p : Period) : Prop :=
  0 < rate ∧ fromMillis (p.bytes * 1000 / rate) ≤ p.elapsed + p.delay

structure Inv (rate : ℕ) (limit : SpeedLimit) : Prop where
  rate_eq : limit.rate = rate
  period_eq : limit.period = speedCheckPeriod
  allowed_eq : limit.maxSpeedAllowedBytes = rate
  delayed : ∀ delay ∈ limit.delay, limit.start = none ∧
    Limited rate { bytes := limit.periodData, elapsed := limit.elapsedTime, delay }

def Open (self : SpeedLimit) : Prop :=
  self.elapsedTime < speedCheckPeriod ∧ self.periodData < self.rate

instance : Decidable self.Open := inferInstanceAs (Decidable (_ ∧ _))

def Fits (self : SpeedLimit) : Prop :=
  self.periodData < 2 ^ 64 ∧ (self.Open ∨ 0 < self.rate ∧ self.periodData * 1000 < 2 ^ 64)

def counted (self : SpeedLimit) (start now dataSize : ℕ) : SpeedLimit :=
  { self with start := none, elapsedTime := self.elapsedTime + (now - start)
              periodData := self.periodData + dataSize }

def Sound (self : SpeedLimit) : Call → Prop
  | .start _ | .ready => True
  | .delay now dataSize | .limit now dataSize =>
    ∀ start ∈ self.start, (self.counted start now dataSize).Fits

def ending (self : SpeedLimit) : Option ℕ :=
  if self.Open then none
  else some (fromMillis (self.periodData * 1000 / self.rate) - self.elapsedTime)

theorem lt_limited (htime : self.elapsedTime < speedCheckPeriod)
    (hallowed : self.rate ≤ self.periodData) (hrate : 0 < self.rate) :
    self.elapsedTime < fromMillis (self.periodData * 1000 / self.rate) := by
  have hsec : 1000 ≤ self.periodData * 1000 / self.rate := by
    rw [Nat.le_div_iff_mul_le hrate, Nat.mul_comm]
    exact Nat.mul_le_mul_right 1000 hallowed
  rw [speedCheckPeriod] at htime
  rw [fromMillis]
  omega

variable {wait : SpeedLimit → ℕ → SpeedLimit × Option Period}

theorem limitPeriod_ok_iff {start : ℕ} {result : SpeedLimit × Option Period} (h : Inv rate self)
    (hstart : self.start = some start) :
    self.limitPeriod wait now dataSize = .ok result ↔
      (self.counted start now dataSize).Fits ∧
        result = match (self.counted start now dataSize).ending with
          | none => (self.counted start now dataSize, none)
          | some 0 => (self.counted start now dataSize).nextPeriod 0
          | some delay => wait (self.counted start now dataSize) delay := by
  have hperiod : (self.counted start now dataSize).period = speedCheckPeriod := h.period_eq
  have hallowed : (self.counted start now dataSize).maxSpeedAllowedBytes =
      (self.counted start now dataSize).rate := h.allowed_eq.trans h.rate_eq.symm
  have hobserve : self.observe start now dataSize =
      if (self.counted start now dataSize).periodData < 2 ^ 64 then
        .ok (self.counted start now dataSize) else .error .overflow := rfl
  rw [limitPeriod, hstart, Fits]
  simp only [hobserve]
  generalize self.counted start now dataSize = s at *
  by_cases hsum : s.periodData < 2 ^ 64
  · rw [if_pos hsum]
    simp only [bind, Except.bind, pure, Except.pure, hperiod, hallowed, ending, hsum, true_and]
    by_cases hopen : s.Open
    · rw [if_pos hopen.1, if_neg (Nat.not_le.mpr hopen.2), if_pos hopen]
      simp [hopen, eq_comm]
    · rw [if_neg hopen]
      by_cases hfits : 0 < s.rate ∧ s.periodData * 1000 < 2 ^ 64
      · have hlimited : s.limitedTime = .ok (fromMillis (s.periodData * 1000 / s.rate)) := by
          rw [limitedTime, if_pos hfits.2, if_neg hfits.1.ne']
        by_cases hlate : s.elapsedTime < fromMillis (s.periodData * 1000 / s.rate)
        · obtain ⟨delay, hdelay⟩ := Nat.exists_eq_succ_of_ne_zero (Nat.sub_pos_of_lt hlate).ne'
          simp only [hlimited, untilLimited, if_pos hlate.le, if_pos hlate, hdelay, hopen, hfits,
            true_and, or_true]
          split_ifs with htime hdata
          · simp [eq_comm]
          · exact absurd ⟨htime, Nat.not_le.mp hdata⟩ hopen
          · simp [eq_comm]
        · have hzero : fromMillis (s.periodData * 1000 / s.rate) - s.elapsedTime = 0 := by omega
          have htime : ¬s.elapsedTime < speedCheckPeriod := fun htime =>
            hlate (lt_limited htime (Nat.not_lt.mp fun hdata => hopen ⟨htime, hdata⟩) hfits.1)
          simp only [hlimited, if_neg hlate, hzero, if_neg htime, hopen, hfits, true_and, or_true]
          simp [eq_comm]
      · have hfault : ∃ e, s.limitedTime = .error e := by
          rw [limitedTime]
          split_ifs with hthousand hrate
          · exact ⟨_, rfl⟩
          · exact absurd ⟨Nat.pos_of_ne_zero hrate, hthousand⟩ hfits
          · exact ⟨_, rfl⟩
        obtain ⟨e, hfault⟩ := hfault
        simp only [hfault, hopen, hfits, false_and, or_self, iff_false]
        split_ifs with htime hdata
        · exact nofun
        · exact absurd ⟨htime, Nat.not_le.mp hdata⟩ hopen
        · exact nofun
  · rw [if_neg hsum]
    exact iff_of_false nofun fun hand => hsum hand.1.1

theorem limitPeriod_runs (h : Inv rate self) :
    (∃ result, self.limitPeriod wait now dataSize = .ok result) ↔
      ∀ start ∈ self.start, (self.counted start now dataSize).Fits := by
  cases hstart : self.start with
  | none => exact iff_of_true ⟨_, by rw [limitPeriod, hstart]⟩ nofun
  | some start =>
    simp only [limitPeriod_ok_iff h hstart, Option.mem_some_iff, forall_eq', exists_and_left,
      exists_eq, and_true]

theorem nextPeriod_inv {s : SpeedLimit} {delay : ℕ} (h : Inv rate s) (hdelay : s.delay = none)
    (hlimited : Limited rate { bytes := s.periodData, elapsed := s.elapsedTime, delay }) :
    Inv rate (s.nextPeriod delay).1 ∧ ∀ p ∈ (s.nextPeriod delay).2, Limited rate p := by
  refine ⟨⟨h.rate_eq, h.period_eq, h.allowed_eq, fun delay hsome => ?_⟩, ?_⟩
  · cases hsome.symm.trans hdelay
  · rintro p ⟨⟩
    exact hlimited

theorem limitPeriod_inv (h : Inv rate self)
    (hwait : ∀ s delay, Inv rate s → s.start = none → s.delay = none →
      Limited rate { bytes := s.periodData, elapsed := s.elapsedTime, delay } →
      Inv rate (wait s delay).1 ∧ ∀ p ∈ (wait s delay).2, Limited rate p)
    (hstep : self.limitPeriod wait now dataSize = .ok (next, closed)) :
    Inv rate next ∧ ∀ p ∈ closed, Limited rate p := by
  cases hstart : self.start with
  | none =>
    rw [limitPeriod, hstart] at hstep
    cases hstep
    exact ⟨h, nofun⟩
  | some start =>
    obtain ⟨hfits, hres⟩ := (limitPeriod_ok_iff h hstart).mp hstep
    have hidle : self.delay = none := by
      cases hdelay : self.delay with
      | none => rfl
      | some delay => exact absurd (hstart.symm.trans (h.delayed delay hdelay).1) nofun
    have hcounted : Inv rate (self.counted start now dataSize) :=
      ⟨h.rate_eq, h.period_eq, h.allowed_eq, fun delay hdelay => by
        exact absurd (hdelay.symm.trans hidle) nofun⟩
    have hrate : (self.counted start now dataSize).rate = rate := h.rate_eq
    have hnone : (self.counted start now dataSize).start = none := rfl
    have hdelay : (self.counted start now dataSize).delay = none := hidle
    generalize self.counted start now dataSize = s at *
    rw [ending] at hres
    by_cases hopen : s.Open
    · rw [if_pos hopen] at hres
      cases hres
      exact ⟨hcounted, nofun⟩
    · have hpos : 0 < rate := hrate ▸ (hfits.2.resolve_left hopen).1
      rw [if_neg hopen, hrate] at hres
      cases hend : fromMillis (s.periodData * 1000 / rate) - s.elapsedTime with
      | zero =>
        rw [hend] at hres
        cases hres
        exact nextPeriod_inv hcounted hdelay ⟨hpos, by dsimp only; omega⟩
      | succ delay =>
        rw [hend] at hres
        have hkept := hwait s (delay + 1) hcounted hnone hdelay ⟨hpos, by dsimp only; omega⟩
        rw [← show _ = wait s (delay + 1) from hres] at hkept
        exact hkept

theorem step_inv {call : Call} (h : Inv rate self)
    (hcall : ∀ now, call = .start now → self.delay = none)
    (hstep : self.step call = .ok (next, closed)) :
    Inv rate next ∧ ∀ p ∈ closed, Limited rate p := by
  cases call with
  | start now =>
    cases hstep
    refine ⟨⟨h.rate_eq, h.period_eq, h.allowed_eq, fun delay hsome => ?_⟩, nofun⟩
    exact absurd (hsome.symm.trans (hcall now rfl)) nofun
  | ready =>
    rw [step, pollMaxLimitedDelay] at hstep
    cases hdelay : self.delay with
    | none =>
      rw [hdelay] at hstep
      cases hstep
      exact ⟨h, nofun⟩
    | some delay =>
      rw [hdelay] at hstep
      cases hstep
      have hinv : Inv rate { self with delay := none } :=
        ⟨h.rate_eq, h.period_eq, h.allowed_eq, nofun⟩
      exact nextPeriod_inv hinv rfl (h.delayed delay hdelay).2
  | delay now dataSize =>
    refine limitPeriod_inv h (fun s delay hs hnone _ hlimited => ?_) hstep
    refine ⟨⟨hs.rate_eq, hs.period_eq, hs.allowed_eq, fun delay' hsome => ?_⟩, nofun⟩
    cases hsome
    exact ⟨hnone, hlimited⟩
  | limit now dataSize =>
    exact limitPeriod_inv h (fun s delay hs _ hdelay hlimited =>
      nextPeriod_inv hs hdelay hlimited) hstep

theorem reached_inv (h : Reached rate self periods) :
    Inv rate self ∧ ∀ p ∈ periods, Limited rate p := by
  induction h with
  | @new self hnew =>
    rw [new] at hnew
    split_ifs at hnew
    cases hnew
    exact ⟨⟨rfl, rfl, Nat.mul_one rate, nofun⟩, nofun⟩
  | step _ hcall hstep ih =>
    obtain ⟨hinv, hclosed⟩ := step_inv ih.1 hcall hstep
    refine ⟨hinv, fun p hp => ?_⟩
    rcases List.mem_append.mp hp with hp | hp
    · exact hclosed p (Option.mem_toList.mp hp)
    · exact ih.2 p hp

/-- Every completed period is limited, and the next call does not panic just when it is sound. -/
theorem limited_and_sound_iff (h : Reached rate self periods) (call : Call) :
    (∀ p ∈ periods, Limited rate p) ∧
      ((∃ result, self.step call = .ok result) ↔ self.Sound call) := by
  obtain ⟨hinv, hlimited⟩ := reached_inv h
  refine ⟨hlimited, ?_⟩
  cases call with
  | start now => exact iff_of_true ⟨_, rfl⟩ trivial
  | ready => exact iff_of_true ⟨_, rfl⟩ trivial
  | delay now dataSize => exact limitPeriod_runs hinv
  | limit now dataSize => exact limitPeriod_runs hinv

def limiter (rate : ℕ) : SpeedLimit :=
  { rate, period := speedCheckPeriod, periodData := 0, elapsedTime := 0
    maxSpeedAllowedBytes := rate, start := none, delay := none }

theorem reached_started (hrate : rate < 2 ^ 64) :
    Reached rate { limiter rate with start := some 0 } [] := by
  have hnew : new rate speedCheckPeriod = .ok (limiter rate) := by
    rw [new, show speedCheckPeriod / 1000000000 = 1 from rfl, Nat.mul_one, if_pos hrate]
    rfl
  have hstart : (limiter rate).step (.start 0) =
      .ok ({ limiter rate with start := some 0 }, none) := rfl
  exact (Reached.new hnew).step (fun _ _ => rfl) hstart

/-- Ten bytes in no time, at five bytes in a second. -/
theorem limited_and_sound_ten :
    (∀ p ∈ [{ bytes := 10, elapsed := 0, delay := 2000000000 }], Limited 5 p) ∧
      ((∃ result, (limiter 5).step .ready = .ok result) ↔ (limiter 5).Sound .ready) := by
  have hdelay : step { limiter 5 with start := some 0 } (.delay 0 10) =
      .ok ({ limiter 5 with periodData := 10, delay := some 2000000000 }, none) := by
    decide +kernel
  have hready : step { limiter 5 with periodData := 10, delay := some 2000000000 }
      .ready = .ok (limiter 5, some { bytes := 10, elapsed := 0, delay := 2000000000 }) := rfl
  refine limited_and_sound_iff
    (((reached_started (by decide)).step ?_ hdelay).step ?_ hready) .ready
  · exact nofun
  · exact nofun

/-- A rate of zero is accepted, and divided by. -/
theorem limit_zero_panics : ¬∀ (rate : ℕ) (self : SpeedLimit) (periods : List Period),
    Reached rate self periods → ∀ now dataSize, self.periodData + dataSize < 2 ^ 50 →
      ∃ result, self.step (.delay now dataSize) = .ok result := by
  intro h
  obtain ⟨result, hres⟩ := h 0 _ [] (reached_started (by decide)) 0 1 (by decide)
  have hpanic : step { limiter 0 with start := some 0 } (.delay 0 1) =
      .error .divideByZero := by decide +kernel
  cases hpanic.symm.trans hres

end YlongHttp.SpeedLimit
