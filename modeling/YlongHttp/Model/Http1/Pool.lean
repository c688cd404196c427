import Mathlib.Data.List.AList
import Mathlib.Logic.Function.Basic
import YlongHttp.Model.Basic

/-! # The pool of HTTP/1 connections (`util/pool.rs`, `async_impl/pool.rs`, `util/dispatcher.rs`)

The tasks that share the connections to one origin take turns. Every access to an atomic flag
is a turn of its own, and so is every call of the semaphore. -/

namespace YlongHttp.Http1

abbrev ConnId := ℕ

/-- `Inner`, without the I/O object. -/
structure Inner where
  occupied : Bool
  shutdown : Bool

namespace Inner

def new : Inner := { occupied := false, shutdown := false }

/-- `Http1Dispatcher::dispatch`, a compare-and-exchange. -/
def dispatch (self : Inner) : Option Inner :=
  if self.occupied then none else some { self with occupied := true }

end Inner

/-- Where a task is on the way from `Conns::conn` to the end of its request. -/
inductive Task where
  /-- Before `usable.acquire`. -/
  | acquire
  /-- In `exist_h1_conn`, before the lock of the list. -/
  | exist
  /-- At the head of the loop of `exist_h1_conn`. -/
  | check (idx : ℕ) (conn : Option ConnId)
  /-- The dispatcher at `idx` is not shut down, and there is no connection yet. -/
  | dispatch (idx : ℕ)
  /-- In `connector.connect`. -/
  | connect
  /-- In `dispatch_h1_conn`, before the lock of the list. -/
  | push (conn : ConnId)
  /-- With an `Http1Conn`: the request and the body of its response. -/
  | request (conn : ConnId)
  /-- With a permit only, which is given back next. -/
  | release
  | done
deriving DecidableEq

/-- `Conns`. The connections have the numbers below `made`. -/
structure Conns where
  maxConnNum : ℕ
  /-- The permits that `usable` has left. -/
  usable : ℕ
  locked : Bool
  list : List ConnId
  inner : ConnId → Inner
  made : ℕ

namespace Conns

def new (maxConnNum : ℕ) : Conns where
  maxConnNum
  usable := maxConnNum
  locked := false
  list := []
  inner _ := .new
  made := 0

def setInner (self : Conns) (conn : ConnId) (inner : Inner) : Conns :=
  { self with inner := Function.update self.inner conn inner }

/-- A turn of one task. -/
inductive Turn : Conns → Task → Conns → Task → Prop
  | acquire {self : Conns} : 0 < self.usable →
      Turn self .acquire { self with usable := self.usable - 1 } .exist
  /-- A task that is dropped while it waits for a permit. -/
  | cancel {self : Conns} : Turn self .acquire self .done
  | lock {self : Conns} : self.locked = false →
      Turn self .exist { self with locked := true } (.check 0 none)
  | discard {self : Conns} {idx : ℕ} {conn : Option ConnId} {c : ConnId} :
      self.list[idx]? = some c → (self.inner c).shutdown = true →
      Turn self (.check idx conn) { self with list := self.list.eraseIdx idx } (.check idx conn)
  | keep {self : Conns} {idx : ℕ} {conn c : ConnId} :
      self.list[idx]? = some c → (self.inner c).shutdown = false →
      Turn self (.check idx (some conn)) self (.check (idx + 1) (some conn))
  | valid {self : Conns} {idx : ℕ} {c : ConnId} :
      self.list[idx]? = some c → (self.inner c).shutdown = false →
      Turn self (.check idx none) self (.dispatch idx)
  | dispatched {self : Conns} {idx : ℕ} {c : ConnId} {inner : Inner} :
      self.list[idx]? = some c → (self.inner c).dispatch = some inner →
      Turn self (.dispatch idx) (self.setInner c inner) (.check (idx + 1) (some c))
  | taken {self : Conns} {idx : ℕ} {c : ConnId} :
      self.list[idx]? = some c → (self.inner c).dispatch = none →
      Turn self (.dispatch idx) self (.check (idx + 1) none)
  | reuse {self : Conns} {idx : ℕ} {conn : ConnId} : self.list.length ≤ idx →
      Turn self (.check idx (some conn)) { self with locked := false } (.request conn)
  | connect {self : Conns} {idx : ℕ} : self.list.length ≤ idx →
      Turn self (.check idx none) { self with locked := false } .connect
  /-- The connection is refused or speaks HTTP/2, or the task is dropped. -/
  | failed {self : Conns} : Turn self .connect self .release
  | connected {self : Conns} :
      Turn self .connect
        { self.setInner self.made { Inner.new with occupied := true } with made := self.made + 1 }
        (.push self.made)
  | push {self : Conns} {conn : ConnId} : self.locked = false →
      Turn self (.push conn) { self with list := self.list ++ [conn] } (.request conn)
  /-- `shutdown`, of the connection or of its `CancelGuard`. -/
  | shutdown {self : Conns} {conn : ConnId} :
      Turn self (.request conn) (self.setInner conn { self.inner conn with shutdown := true })
        (.request conn)
  | drop {self : Conns} {conn : ConnId} :
      Turn self (.request conn) (self.setInner conn { self.inner conn with occupied := false })
        .release
  | release {self : Conns} : Turn self .release { self with usable := self.usable + 1 } .done

end Conns

/-- The connections to one origin, and the tasks that share them. -/
structure Origin where
  conns : Conns
  tasks : List Task

inductive Origin.Step : Origin → Origin → Prop
  | turn {conns conns' : Conns} {task task' : Task} (before after : List Task) :
      conns.Turn task conns' task' →
      Step { conns, tasks := before ++ task :: after }
        { conns := conns', tasks := before ++ task' :: after }

/-- `Pool`. Clones of `Conns` share what is behind them. -/
structure Pool (K : Type) where
  pool : AList fun _ : K => Origin

namespace Pool

variable {K : Type} [DecidableEq K]

def get (self : Pool K) (key : K) (allowedNum : ℕ) : Origin :=
  match self.pool.lookup key with
  | some origin => origin
  | none => { conns := .new allowedNum, tasks := [] }

/-- A new task in `connect_to`, or a turn of one that is there. -/
inductive Step (maxConnNum : ℕ) : Pool K → Pool K → Prop
  | connectTo {self : Pool K} (key : K) :
      Step maxConnNum self { pool := self.pool.insert key { self.get key maxConnNum with
        tasks := (self.get key maxConnNum).tasks ++ [.acquire] } }
  | origin {self : Pool K} {key : K} {origin origin' : Origin} :
      self.pool.lookup key = some origin → origin.Step origin' →
      Step maxConnNum self { pool := self.pool.insert key origin' }

/-- The pools in the runs of a client. -/
inductive Reached (maxConnNum : ℕ) : Pool K → Prop
  | new : Reached maxConnNum { pool := ∅ }
  | step {pool pool' : Pool K} : Reached maxConnNum pool → pool.Step maxConnNum pool' →
      Reached maxConnNum pool'

end Pool

end YlongHttp.Http1
