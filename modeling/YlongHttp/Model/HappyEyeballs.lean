import Mathlib.Tactic

/-! # Happy Eyeballs (`async_impl/dns/happy_eyeballs.rs`, `async_impl/dns/resolver.rs`)

`connect` goes on when one of the things it waits for completes, in whatever order they do.
`select!` drops the futures that it does not choose. Durations are counted in milliseconds. -/

namespace YlongHttp.Dns

variable {α ε : Type}

/-- `SocketAddr::is_ipv6` is given from outside. -/
def splitPreferredAddrs (isIpv6 : α → Bool) (addrs : List α) : List α × List α :=
  let isIpv6First := (addrs.head?.map isIpv6).getD false
  addrs.partition fun addr => isIpv6 addr == isIpv6First

/-! ## Attempts -/

inductive ConnectError (ε : Type) where
  /-- "Invalid domain". -/
  | notConnected
  | timedOut
  | io (e : ε)

/-- How `TcpStream::connect` ends, or the timer before it. -/
inductive Attempted (ε : Type) where
  | stream
  | failed (e : ε)
  | elapsed

/-- `connect`, of one address. Without a timeout there is no timer. -/
def connect (timeout : Option ℕ) : Attempted ε → Option (Except (ConnectError ε) Unit)
  | .stream => some (.ok ())
  | .failed e => some (.error (.io e))
  | .elapsed => timeout.map fun _ => .error .timedOut

/-- The loop of `RemoteAddrs::connect`: the addresses from the one that is tried now. -/
structure Connecting (α ε : Type) where
  addrs : List α
  timeout : Option ℕ
  unexpected : Option (ConnectError ε)

namespace Connecting

/-- The head of the loop and what stands behind it. -/
def next (self : Connecting α ε) : Except (ConnectError ε) α ⊕ Connecting α ε :=
  match self.addrs with
  | [] => .inl (.error (self.unexpected.getD .notConnected))
  | _ :: _ => .inr self

/-- The attempt ends with the result. -/
def resume (self : Connecting α ε) (result : Except (ConnectError ε) Unit) :
    Except (ConnectError ε) α ⊕ Connecting α ε :=
  match self.addrs, result with
  | [], _ => self.next
  | addr :: _, .ok () => .inl (.ok addr)
  | _ :: addrs, .error e => { self with addrs, unexpected := some e : Connecting α ε }.next

end Connecting

structure RemoteAddrs (α : Type) where
  addrs : List α
  timeout : Option ℕ

def RemoteAddrs.connect (self : RemoteAddrs α) : Connecting α ε :=
  { addrs := self.addrs, timeout := self.timeout, unexpected := none }

/-! ## Both families -/

structure EyeBallConfig where
  timeout : Option ℕ
  delay : Option ℕ

def happyEyeballsPreferredTimeoutMs : ℕ := 300

structure DelayedAddrs (α : Type) where
  addrs : RemoteAddrs α
  delay : ℕ

structure HappyEyeballs (α : Type) where
  preferredAddr : RemoteAddrs α
  delayAddr : Option (DelayedAddrs α)

/-- `time.checked_div(addrs.len() as u32)`, of the timeout if there is one. -/
def shareOf (timeout : Option ℕ) (addrs : List α) : Option ℕ :=
  timeout.bind fun time =>
    if addrs.length % 2 ^ 32 = 0 then none else some (time / (addrs.length % 2 ^ 32))

def HappyEyeballs.new (isIpv6 : α → Bool) (addrs : List α) (config : EyeBallConfig) :
    HappyEyeballs α :=
  let (preferred, second) := splitPreferredAddrs isIpv6 addrs
  { preferredAddr := { addrs := preferred, timeout := shareOf config.timeout preferred }
    delayAddr :=
      if second = [] then none
      else some
        { addrs := { addrs := second, timeout := shareOf config.timeout second }
          delay := config.delay.getD happyEyeballsPreferredTimeoutMs } }

/-- What `HappyEyeballs::connect` waits for. -/
inductive Phase (α ε : Type) where
  /-- The only family there is, or the future that the selection has left. -/
  | single (fut : Connecting α ε)
  /-- The preferred family or the delay. -/
  | outer (second : RemoteAddrs α) (preferredFut : Connecting α ε)
  /-- Both families. -/
  | inner (second : RemoteAddrs α) (preferredFut secondFut : Connecting α ε)
  | done (stream : Except (ConnectError ε) α)

inductive Completion (ε : Type) where
  /-- The attempt of the single future or of the preferred family. -/
  | first (attempted : Attempted ε)
  | second (attempted : Attempted ε)
  | delay

/-- The call with the attempts that have ended so far. -/
structure Eyeballs (α ε : Type) where
  phase : Phase α ε
  attempts : List (α × Except (ConnectError ε) Unit)

/-- `if stream.is_err() { stream_fut.await } else { stream }`. -/
def settle (streamFut : Connecting α ε) : Except (ConnectError ε) α → Phase α ε
  | .error _ => .single streamFut
  | .ok stream => .done (.ok stream)

/-- One of the futures goes on: it completes the selection or stays in it. -/
def Eyeballs.poll (self : Eyeballs α ε) (fut : Connecting α ε) (attempted : Attempted ε)
    (completed : Except (ConnectError ε) α → Phase α ε) (pending : Connecting α ε → Phase α ε) :
    Option (Eyeballs α ε) :=
  (connect fut.timeout attempted).map fun result =>
    { phase := (fut.resume result).elim completed pending
      attempts := self.attempts ++ fut.addrs.head?.toList.map (·, result) }

namespace HappyEyeballs

/-- The call of `connect`. -/
def connect (self : HappyEyeballs α) : Eyeballs α ε where
  phase :=
    match self.delayAddr with
    | none => .single self.preferredAddr.connect
    | some second => .outer second.addrs self.preferredAddr.connect
  attempts := []

def step (self : HappyEyeballs α) (s : Eyeballs α ε) (c : Completion ε) : Option (Eyeballs α ε) :=
  match s.phase, c with
  | .single fut, .first attempted => s.poll fut attempted .done .single
  | .outer second preferredFut, .first attempted =>
    s.poll preferredFut attempted (settle second.connect) (.outer second)
  | .outer second _, .delay =>
    some { s with phase := .inner second self.preferredAddr.connect second.connect }
  | .inner second preferredFut secondFut, .first attempted =>
    s.poll preferredFut attempted (settle second.connect) fun fut => .inner second fut secondFut
  | .inner second preferredFut secondFut, .second attempted =>
    s.poll secondFut attempted (settle self.preferredAddr.connect) (.inner second preferredFut)
  | _, _ => none

def run (self : HappyEyeballs α) (completions : List (Completion ε)) : Option (Eyeballs α ε) :=
  completions.foldlM self.step self.connect

end HappyEyeballs

end YlongHttp.Dns
