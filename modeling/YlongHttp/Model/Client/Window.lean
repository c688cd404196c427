import YlongHttp.Model.H2.Frame

/-! # Flow-control windows of the client (`util/h2/buffer/{window,settings}.rs`)

The windows are `i32`. An operation on them whose exact result does not fit panics, as in a
build that checks for overflow. -/

namespace YlongHttp

/-- Where the code of the connection can panic: in the arithmetic of the send windows, in that
of the receive windows, or where the number of concurrent streams is decreased. -/
inductive Panic where
  | sendWindow
  | recvWindow
  | concurrency

/-- An `i32`. -/
abbrev I32 := { n : ℤ // -2 ^ 31 ≤ n ∧ n < 2 ^ 31 }

/-- `n as i32`, for a `u32`. -/
def asI32 (n : UInt32) : I32 := ⟨n.toBitVec.toInt, n.toBitVec.le_toInt, n.toBitVec.toInt_lt⟩

/-- `n as u32`, for an `i32` that is not negative. -/
def I32.asU32 (n : I32) : UInt32 := UInt32.ofNat n.val.toNat

/-- The result of an `i32` operation whose exact value is `n`. -/
def checkedI32 (panic : Panic) (n : ℤ) : Except Panic I32 :=
  if h : -2 ^ 31 ≤ n ∧ n < 2 ^ 31 then .ok ⟨n, h⟩ else .error panic

def maxFlowControlWindow : UInt32 := ((1 : UInt32) <<< 31) - 1

structure SendWindow where
  size : I32

namespace SendWindow

def new (size : I32) : SendWindow := { size }

def sizeAvailable (self : SendWindow) : UInt32 := if self.size.val < 0 then 0 else self.size.asU32

def reduceSize (self : SendWindow) (size : UInt32) : Except Panic SendWindow := do
  return { size := ← checkedI32 .sendWindow (self.size.val - (asI32 size).val) }

/-- `increase_size`: the addition is an `overflowing_add`. -/
def increaseSize (self : SendWindow) (size : UInt32) : Except H2Error SendWindow :=
  let curr := self.size.val + (asI32 size).val
  if h : -2 ^ 31 ≤ curr ∧ curr < 2 ^ 31 then
    if curr > (asI32 maxFlowControlWindow).val then .error (.connectionError .flowControlError)
    else .ok { size := ⟨curr, h⟩ }
  else .error (.connectionError .flowControlError)

def sendData (self : SendWindow) (size : UInt32) : Except Panic SendWindow := do
  return { size := ← checkedI32 .sendWindow (self.size.val - (asI32 size).val) }

end SendWindow

structure RecvWindow where
  /-- The window the server sees. -/
  notification : I32
  /-- The window the client keeps. -/
  actual : I32

namespace RecvWindow

def new (size : I32) : RecvWindow := { notification := size, actual := size }

variable (self : RecvWindow)

def unreleasedSize : Except Panic (Option UInt32) := do
  let unreleased ← checkedI32 .recvWindow (self.actual.val - self.notification.val)
  if unreleased.val ≤ 0 then
    return none
  let twice ← checkedI32 .recvWindow (unreleased.val * 2)
  if twice.val > self.notification.val then
    return some unreleased.asU32
  return none

def actualSize : I32 := self.actual

def notificationAvailable : UInt32 :=
  if self.notification.val < 0 then 0 else self.notification.asU32

def reduceActual (size : UInt32) : Except Panic RecvWindow := do
  return { self with actual := ← checkedI32 .recvWindow (self.actual.val - (asI32 size).val) }

def increaseActual (size : UInt32) : Except Panic RecvWindow := do
  return { self with actual := ← checkedI32 .recvWindow (self.actual.val + (asI32 size).val) }

def reduceNotification (size : UInt32) : Except Panic RecvWindow := do
  return { self with notification := ← checkedI32 .recvWindow (self.notification.val - (asI32 size).val) }

def increaseNotification (size : UInt32) : Except Panic RecvWindow := do
  return { self with notification := ← checkedI32 .recvWindow (self.notification.val + (asI32 size).val) }

def checkWindowUpdate (id : StreamId) : Except Panic (RecvWindow × Option Frame) := do
  match ← self.unreleasedSize with
  | some size =>
    return (← self.increaseNotification size,
      some { id, flags := { bits := 0 }, payload := .windowUpdate size })
  | none => return (self, none)

def recvData (size : UInt32) : Except Panic RecvWindow := do
  return { self with notification := ← checkedI32 .recvWindow (self.notification.val - (asI32 size).val) }

end RecvWindow

structure FlowControl where
  recvWindow : RecvWindow
  sendWindow : SendWindow

namespace FlowControl

def new (connRecvWindow connSendWindow : UInt32) : FlowControl where
  recvWindow := .new (asI32 connRecvWindow)
  sendWindow := .new (asI32 connSendWindow)

def checkConnRecvWindowUpdate (self : FlowControl) : Except Panic (FlowControl × Option Frame) := do
  let (recvWindow, update) ← self.recvWindow.checkWindowUpdate 0
  return ({ self with recvWindow }, update)

def setupRecvWindow (self : FlowControl) (size : UInt32) : Except Panic FlowControl := do
  let setup := size
  let actual := UInt32.ofInt self.recvWindow.actualSize.val
  if setup > actual then
    return { self with recvWindow := ← self.recvWindow.increaseActual (setup - actual) }
  return { self with recvWindow := ← self.recvWindow.reduceActual (actual - setup) }

def increaseSendSize (self : FlowControl) (size : UInt32) : Except H2Error FlowControl :=
  match self.sendWindow.increaseSize size with
  | .error e => .error e
  | .ok sendWindow => .ok { self with sendWindow }

def sendSizeAvailable (self : FlowControl) : ℕ := self.sendWindow.sizeAvailable.toNat

def recvNotificationSizeAvailable (self : FlowControl) : UInt32 :=
  self.recvWindow.notificationAvailable

def sendData (self : FlowControl) (size : UInt32) : Except Panic FlowControl := do
  return { self with sendWindow := ← self.sendWindow.sendData size }

def recvData (self : FlowControl) (size : UInt32) : Except Panic FlowControl := do
  return { self with recvWindow := ← self.recvWindow.recvData size }

end FlowControl

end YlongHttp
