import Mathlib.Tactic

/-! # Speed limits (`util/progress/rate_limit.rs`)

Instants and durations are counted in nanoseconds. -/

namespace YlongHttp

/-- The panics of the arithmetic. -/
inductive SpeedFault where
  | overflow | divideByZero | underflow
deriving DecidableEq

def speedCheckPeriod : ℕ := 1000000000

def fromMillis (n : ℕ) : ℕ := n * 1000000

/-- The fields of a `SpeedLimit` that limit the maximum; `delay` is how long the sleep takes. -/
structure SpeedLimit where
  rate : ℕ
  period : ℕ
  periodData : ℕ
  elapsedTime : ℕ
  maxSpeedAllowedBytes : ℕ
  start : Option ℕ
  delay : Option ℕ
deriving DecidableEq

/-- What `next_period` leaves behind, with the delay that came before it. -/
structure Period where
  bytes : ℕ
  elapsed : ℕ
  delay : ℕ
deriving DecidableEq

namespace SpeedLimit

def new (rate period : ℕ) : Except SpeedFault SpeedLimit :=
  if rate * (period / 1000000000) < 2 ^ 64 then
    .ok { rate, period, periodData := 0, elapsedTime := 0
          maxSpeedAllowedBytes := rate * (period / 1000000000), start := none, delay := none }
  else .error .overflow

variable (self : SpeedLimit)

def initIfNotStart (now : ℕ) : SpeedLimit :=
  { self with start := some (self.start.getD now) }

def nextPeriod (delay : ℕ) : SpeedLimit × Option Period :=
  ({ self with periodData := 0, start := none, elapsedTime := 0 },
    some { bytes := self.periodData, elapsed := self.elapsedTime, delay })

/-- `poll_max_limited_delay`, when the sleep is over. -/
def pollMaxLimitedDelay : SpeedLimit × Option Period :=
  match self.delay with
  | some delay => { self with delay := none }.nextPeriod delay
  | none => (self, none)

/-- What was transferred since `start` is added to the period. -/
def observe (start now dataSize : ℕ) : Except SpeedFault SpeedLimit :=
  if self.periodData + dataSize < 2 ^ 64 then
    .ok { self with start := none, elapsedTime := self.elapsedTime + (now - start)
                    periodData := self.periodData + dataSize }
  else .error .overflow

/-- The minimum time to transfer the data of the period within the speed limit. -/
def limitedTime : Except SpeedFault ℕ :=
  if self.periodData * 1000 < 2 ^ 64 then
    if self.rate = 0 then .error .divideByZero
    else .ok (fromMillis (self.periodData * 1000 / self.rate))
  else .error .overflow

def untilLimited (limitedTime : ℕ) : Except SpeedFault ℕ :=
  if self.elapsedTime ≤ limitedTime then .ok (limitedTime - self.elapsedTime)
  else .error .underflow

/-- What `delay_max_speed_limit` and `limit_max_speed` do, which differ in how they wait. -/
def limitPeriod (wait : SpeedLimit → ℕ → SpeedLimit × Option Period) (self : SpeedLimit)
    (now dataSize : ℕ) : Except SpeedFault (SpeedLimit × Option Period) :=
  match self.start with
  | none => .ok (self, none)
  | some start => do
    let self ← self.observe start now dataSize
    if self.elapsedTime < self.period then
      if self.maxSpeedAllowedBytes ≤ self.periodData then
        let limited ← self.limitedTime
        let delay ← self.untilLimited limited
        return wait self delay
      else return (self, none)
    else
      let limited ← self.limitedTime
      if self.elapsedTime < limited then
        let delay ← self.untilLimited limited
        return wait self delay
      else return self.nextPeriod 0

def delayMaxSpeedLimit (now dataSize : ℕ) : Except SpeedFault (SpeedLimit × Option Period) :=
  self.limitPeriod (fun self delay => ({ self with delay := some delay }, none)) now dataSize

/-- `limit_max_speed`, whose sleep is over when it returns. -/
def limitMaxSpeed (now dataSize : ℕ) : Except SpeedFault (SpeedLimit × Option Period) :=
  self.limitPeriod nextPeriod now dataSize

/-- The calls of a body that is sent or received. -/
inductive Call where
  | start (now : ℕ)
  | ready
  | delay (now dataSize : ℕ)
  | limit (now dataSize : ℕ)

def step (self : SpeedLimit) : Call → Except SpeedFault (SpeedLimit × Option Period)
  | .start now => .ok (self.initIfNotStart now, none)
  | .ready => .ok self.pollMaxLimitedDelay
  | .delay now dataSize => self.delayMaxSpeedLimit now dataSize
  | .limit now dataSize => self.limitMaxSpeed now dataSize

end SpeedLimit

end YlongHttp
