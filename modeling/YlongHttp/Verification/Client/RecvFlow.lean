import YlongHttp.Verification.Client.Ids

/-! # Flow control of what the client receives -/

namespace YlongHttp

open List ConnManager RecvWindow Entry Streams FlowControl
open Library

variable {R : Rules}
variable {entry : Entry} {s s' : Streams} {log : List Entry} {id : StreamId}
  {recvWindow w w' : RecvWindow} {n : ℕ} {connUpdate update : Option Frame} {octets : Bytes}
  {frame : Frame} {stream : Stream} {c c' : Conn}

/-! ## Arithmetic of a receive window -/

/-- The WINDOW_UPDATE frame that gives back `n` octets. -/
def windowUpdate (id : StreamId) (n : ℤ) : Frame :=
  { id, flags := { bits := 0 }, payload := .windowUpdate (UInt32.ofNat n.toNat) }

namespace RecvWindow

variable {w : RecvWindow} {n : ℕ}

def isLow (size n : ℤ) : Prop := n < 2 * (size - n)

instance (size n : ℤ) : Decidable (isLow size n) := inferInstanceAs (Decidable (n < 2 * (size - n)))

/-- What is given back, and twice that, fits into an `i32`. -/
structure Fits (w : RecvWindow) : Prop where
  actual : 0 ≤ w.actual.val
  notification : 0 ≤ w.notification.val
  unreleased : w.actual.val - w.notification.val < 2 ^ 30

theorem unreleasedSize_eq (hw : w.Fits) :
    w.unreleasedSize = .ok (if isLow w.actual.val w.notification.val then
      some (UInt32.ofNat (w.actual.val - w.notification.val).toNat) else none) := by
  obtain ⟨hactual, hnote, hfits⟩ := hw
  have hlt := w.notification.2
  have hsub : -2 ^ 31 ≤ w.actual.val - w.notification.val ∧
      w.actual.val - w.notification.val < 2 ^ 31 := by omega
  rw [unreleasedSize, checkedI32_of_fits _ hsub]
  change (if w.actual.val - w.notification.val ≤ 0 then _ else _) = _
  split
  · rename_i hle
    rw [if_neg (by rw [isLow]; omega)]
    rfl
  · rename_i hpos
    have htwice : -2 ^ 31 ≤ (w.actual.val - w.notification.val) * 2 ∧
        (w.actual.val - w.notification.val) * 2 < 2 ^ 31 := by omega
    rw [checkedI32_of_fits _ htwice]
    change (if (w.actual.val - w.notification.val) * 2 > w.notification.val then _ else _) = _
    by_cases hlow : isLow w.actual.val w.notification.val
    · rw [if_pos (by rw [isLow] at hlow; omega), if_pos hlow]
      rfl
    · rw [if_neg (by rw [isLow] at hlow; omega), if_neg hlow]
      rfl

theorem checkWindowUpdate_eq (id : StreamId) (hw : w.Fits) :
    w.checkWindowUpdate id = .ok (if isLow w.actual.val w.notification.val then
      ({ w with notification := w.actual },
        some (windowUpdate id (w.actual.val - w.notification.val))) else (w, none)) := by
  rw [checkWindowUpdate, unreleasedSize_eq hw]
  obtain ⟨hactual, hnote, hfits⟩ := hw
  by_cases hlow : isLow w.actual.val w.notification.val
  · have hpos : 0 < w.actual.val - w.notification.val := by
      rw [isLow] at hlow
      omega
    have hsize : (asI32 (UInt32.ofNat (w.actual.val - w.notification.val).toNat)).val =
        w.actual.val - w.notification.val := by
      rw [asI32_ofNat (by omega)]
      omega
    have hlt := w.actual.2
    have hsum : -2 ^ 31 ≤ w.notification.val + (w.actual.val - w.notification.val) ∧
        w.notification.val + (w.actual.val - w.notification.val) < 2 ^ 31 := by omega
    simp only [if_pos hlow]
    change (do
      let w' ← w.increaseNotification _
      return (w', some (windowUpdate id (w.actual.val - w.notification.val)))) = _
    rw [increaseNotification, hsize, checkedI32_of_fits _ hsum]
    refine congrArg Except.ok (Prod.ext ?_ rfl)
    change ({ w with notification := ⟨_, _⟩ } : RecvWindow) = _
    congr 1
    exact Subtype.ext (by dsimp only; omega)
  · simp only [if_neg hlow]
    rfl

theorem notificationAvailable_toNat (w : RecvWindow) :
    w.notificationAvailable.toNat = w.notification.val.toNat := by
  rw [notificationAvailable]
  split
  · rename_i h
    rw [Int.toNat_of_nonpos h.le]
    rfl
  · exact w.notification.asU32_toNat

theorem recvData_eq (h : (n : ℤ) ≤ w.notification.val) :
    ∃ hfits, w.recvData (UInt32.ofNat n) =
      .ok { w with notification := ⟨w.notification.val - n, hfits⟩ } := by
  have hnote := w.notification.2
  have hfits : -2 ^ 31 ≤ w.notification.val - n ∧ w.notification.val - n < 2 ^ 31 := by omega
  refine ⟨hfits, ?_⟩
  rw [recvData, asI32_ofNat (by omega), checkedI32_of_fits _ hfits]
  rfl

theorem notificationAvailable_lt_iff (w : RecvWindow) (hn : n < 2 ^ 24)
    (hnonneg : 0 ≤ w.notification.val) :
    w.notificationAvailable < UInt32.ofNat n ↔ w.notification.val < n := by
  have hsize : UInt32.size = 2 ^ 32 := rfl
  rw [UInt32.lt_iff_toNat_lt, notificationAvailable_toNat, UInt32.toNat_ofNat_of_lt' (by omega)]
  omega

end RecvWindow

/-- The window after `n` octets have been received, with the update it sends. -/
structure RecvWindow.Takes (w w' : RecvWindow) (id : StreamId) (n : ℕ) (update : Option Frame) :
    Prop where
  le : (n : ℤ) ≤ w.notification.val
  actual : w'.actual = w.actual
  notification : w'.notification.val = if isLow w.actual.val (w.notification.val - n) then
    w.actual.val else w.notification.val - n
  update : update = if isLow w.actual.val (w.notification.val - n) then
    some (windowUpdate id (w.actual.val - (w.notification.val - n))) else none

theorem RecvWindow.charge_eq {w : RecvWindow} {id : StreamId} {n : ℕ} (hactual : 0 ≤ w.actual.val)
    (hle : (n : ℤ) ≤ w.notification.val)
    (hfits : w.actual.val - (w.notification.val - n) < 2 ^ 30) :
    ∃ w₁ w' update, w.recvData (UInt32.ofNat n) = .ok w₁ ∧ w₁.Fits ∧ w₁.actual = w.actual ∧
      w₁.notification.val = w.notification.val - n ∧
      w₁.checkWindowUpdate id = .ok (w', update) ∧ w.Takes w' id n update := by
  obtain ⟨hbounds, hrecv⟩ := recvData_eq hle
  have hw₁ : ({ w with notification := ⟨w.notification.val - n, hbounds⟩ } : RecvWindow).Fits :=
    ⟨hactual, by dsimp only; omega, hfits⟩
  have hcheck := checkWindowUpdate_eq id hw₁
  by_cases hlow : isLow w.actual.val (w.notification.val - n)
  · rw [if_pos hlow] at hcheck
    exact ⟨_, _, _, hrecv, hw₁, rfl, rfl, hcheck, hle, rfl, by rw [if_pos hlow], by rw [if_pos hlow]⟩
  · rw [if_neg hlow] at hcheck
    exact ⟨_, _, _, hrecv, hw₁, rfl, rfl, hcheck, hle, rfl, by rw [if_neg hlow], by rw [if_neg hlow]⟩

theorem releaseConnRecvWindow_eq {s : Streams} {n : ℕ} (hn : n < 2 ^ 24)
    (hactual : 0 ≤ s.flowControl.recvWindow.actual.val)
    (hnonneg : 0 ≤ s.flowControl.recvWindow.notification.val)
    (hfits : (n : ℤ) ≤ s.flowControl.recvWindow.notification.val →
      s.flowControl.recvWindow.actual.val -
        (s.flowControl.recvWindow.notification.val - n) < 2 ^ 30) :
    (s.flowControl.recvWindow.notification.val < n ∧
      s.releaseConnRecvWindow (UInt32.ofNat n) =
        .ok (s, .error (.connectionError .flowControlError))) ∨
    ∃ w update, s.flowControl.recvWindow.Takes w 0 n update ∧
      s.releaseConnRecvWindow (UInt32.ofNat n) =
        .ok ({ s with flowControl := { s.flowControl with recvWindow := w } }, .ok update) := by
  have hiff := s.flowControl.recvWindow.notificationAvailable_lt_iff hn hnonneg
  rw [releaseConnRecvWindow, recvNotificationSizeAvailable]
  by_cases hlt : s.flowControl.recvWindow.notification.val < n
  · rw [if_pos (hiff.mpr hlt)]
    exact .inl ⟨hlt, rfl⟩
  · obtain ⟨w₁, w, update, hrecv, -, -, -, hcheck, htakes⟩ :=
      @charge_eq s.flowControl.recvWindow 0 n hactual (by omega) (hfits (by omega))
    refine .inr ⟨w, update, htakes, ?_⟩
    rw [if_neg fun h => hlt (hiff.mp h), FlowControl.recvData, hrecv]
    simp only [bind, Except.bind, pure, Except.pure, checkConnRecvWindowUpdate, hcheck]

theorem releaseStreamRecvWindow_eq {s : Streams} {id : StreamId} {stream : Stream} {n : ℕ}
    (hn : n < 2 ^ 24) (hget : s.streamMap.lookup id = some stream)
    (hactual : 0 ≤ stream.recvWindow.actual.val)
    (hnonneg : 0 ≤ stream.recvWindow.notification.val)
    (hfits : (n : ℤ) ≤ stream.recvWindow.notification.val →
      stream.recvWindow.actual.val - (stream.recvWindow.notification.val - n) < 2 ^ 30) :
    (stream.recvWindow.notification.val < n ∧
      s.releaseStreamRecvWindow id (UInt32.ofNat n) =
        .ok (s, .error (.streamError id .flowControlError))) ∨
    (∃ recvWindow update, stream.recvWindow.Takes recvWindow id n update ∧
      s.releaseStreamRecvWindow id (UInt32.ofNat n) =
        .ok (s.setStream id { stream with recvWindow }, .ok update)) ∨
    ∃ recvWindow, stream.isInitOrActiveFlowControl = false ∧
      (n : ℤ) ≤ stream.recvWindow.notification.val ∧
      recvWindow.actual = stream.recvWindow.actual ∧
      recvWindow.notification.val = stream.recvWindow.notification.val - n ∧
      s.releaseStreamRecvWindow id (UInt32.ofNat n) =
        .ok (s.setStream id { stream with recvWindow }, .ok none) := by
  have hiff := stream.recvWindow.notificationAvailable_lt_iff hn hnonneg
  rw [releaseStreamRecvWindow]
  simp only [hget]
  by_cases hlt : stream.recvWindow.notification.val < n
  · rw [if_pos (hiff.mpr hlt)]
    exact .inl ⟨hlt, rfl⟩
  · obtain ⟨w₁, w, update, hrecv, hw₁, hactual₁, hnote₁, hcheck, htakes⟩ :=
      @charge_eq stream.recvWindow id n hactual (by omega) (hfits (by omega))
    refine .inr ?_
    rw [if_neg fun h => hlt (hiff.mp h), hrecv]
    simp only [bind, Except.bind, unreleasedSize_eq hw₁]
    by_cases hlow : isLow w₁.actual.val w₁.notification.val
    · simp only [if_pos hlow]
      by_cases hactive : stream.isInitOrActiveFlowControl = true
      · refine .inl ⟨w, update, htakes, ?_⟩
        rw [if_neg (by simp [hactive]), hcheck]
        simp only [setStream_setStream]
        rfl
      · refine .inr ⟨w₁, by simpa using hactive, by omega, hactual₁, hnote₁, ?_⟩
        rw [if_pos hactive]
        rfl
    · -- Nothing is to be given back, whatever the state of the stream.
      simp only [if_neg hlow]
      refine .inl ⟨w₁, none, ⟨by omega, hactual₁, ?_, ?_⟩, rfl⟩
      · rw [hactual₁, hnote₁] at hlow
        rw [if_neg hlow, hnote₁]
      · rw [hactual₁, hnote₁] at hlow
        rw [if_neg hlow]

/-! ## The credit of the server -/

/-- The octets that a WINDOW_UPDATE frame of the client gives for `id`. -/
def Entry.granted (id : StreamId) : Entry → ℤ
  | .sent frame =>
    match frame.payload with
    | .windowUpdate n => if frame.id = id then n.toNat else 0
    | _ => 0
  | _ => 0

def Entry.dataReceived : Entry → ℤ
  | .received frame =>
    match frame.payload with
    | .data octets => octets.length
    | _ => 0
  | _ => 0

def connCredit (log : List Entry) : ℤ :=
  defaultWindowSize.toNat + (log.map (granted 0)).sum -
    (log.map dataReceived).sum

/-- What the server may send on a stream of `size` octets, since it was opened. DATA that it
may not send is refused and not counted. -/
def streamCredit (size : ℤ) (id : StreamId) : List Entry → ℤ
  | [] => size
  | .opened id' :: log => if id' = id then size else streamCredit size id log
  | .sent frame :: log => streamCredit size id log + (sent frame).granted id
  | .received frame :: log =>
    let received := if frame.id = id then (received frame).dataReceived else 0
    if received ≤ streamCredit size id log then streamCredit size id log - received
    else streamCredit size id log

/-- Every WINDOW_UPDATE frame restores the configured size. -/
def Restored (connSize streamSize : ℤ) : List Entry → Prop
  | [] => True
  | .sent frame :: log =>
    (∀ n, frame.payload = .windowUpdate n → if frame.id = 0
      then connCredit (.sent frame :: log) = connSize
      else streamCredit streamSize frame.id (.sent frame :: log) = streamSize) ∧
      Restored connSize streamSize log
  | _ :: log => Restored connSize streamSize log

def Entry.isUncredited : Entry → Bool
  | .opened _ => false
  | .sent frame =>
    match frame.payload with
    | .windowUpdate _ => false
    | _ => true
  | .received frame =>
    match frame.payload with
    | .data _ => false
    | _ => true

theorem Entry.granted_of_isUncredited (h : entry.isUncredited = true) (id : StreamId) :
    entry.granted id = 0 := by
  cases entry with
  | opened | received => rfl
  | sent frame =>
    rw [isUncredited] at h
    rw [granted]
    cases hpay : frame.payload <;> simp_all

theorem Entry.dataReceived_of_isUncredited (h : entry.isUncredited = true) :
    entry.dataReceived = 0 := by
  cases entry with
  | opened | sent => rfl
  | received frame =>
    rw [isUncredited] at h
    rw [dataReceived]
    cases hpay : frame.payload <;> simp_all

theorem connCredit_cons (entry : Entry) (log : List Entry) :
    connCredit (entry :: log) = connCredit log + entry.granted 0 - entry.dataReceived := by
  simp only [connCredit, map_cons, sum_cons]
  ring

theorem connCredit_of_isUncredited (h : entry.isUncredited = true) (log : List Entry) :
    connCredit (entry :: log) = connCredit log := by
  rw [connCredit_cons, granted_of_isUncredited h, dataReceived_of_isUncredited h]
  ring

theorem streamCredit_of_isUncredited (h : entry.isUncredited = true) (size : ℤ) (id : StreamId)
    (log : List Entry) : streamCredit size id (entry :: log) = streamCredit size id log := by
  cases entry with
  | opened => cases h
  | sent frame => rw [streamCredit, granted_of_isUncredited h, add_zero]
  | received frame =>
    rw [streamCredit, dataReceived_of_isUncredited h, ite_self]
    split
    · rw [sub_zero]
    · rfl

theorem Restored.cons {connSize streamSize : ℤ} {entry : Entry} {log : List Entry}
    (h : Restored connSize streamSize log) (hent : entry.isUncredited = true) :
    Restored connSize streamSize (entry :: log) := by
  cases entry with
  | opened | received => exact h
  | sent frame =>
    refine ⟨fun n hn => ?_, h⟩
    rw [isUncredited, hn] at hent
    cases hent

/-! ## The windows and the credit -/

/-- The connection window is what the server may send, by the log. -/
structure ConnCredited (config : H2Config) (w : RecvWindow) (log : List Entry) :
    Prop where
  actual : w.actual.val = config.connWindowSize.toNat
  credit : w.notification.val = connCredit log
  nonneg : 0 ≤ w.notification.val
  prompt : ¬ isLow config.connWindowSize.toNat w.notification.val
  announced : w.notification.val ≤ config.connWindowSize.toNat ∨
    (config.connWindowSize < defaultWindowSize ∧ ∀ entry ∈ log, entry.granted 0 = 0)

/-- The window of a stream is what the server may send on it, by the log. -/
structure StreamCredited (config : H2Config) (id : StreamId) (stream : Stream)
    (log : List Entry) : Prop where
  actual : stream.recvWindow.actual.val = config.streamWindowSize.toNat
  credit : stream.recvWindow.notification.val = streamCredit config.streamWindowSize.toNat id log
  nonneg : 0 ≤ stream.recvWindow.notification.val
  le : stream.recvWindow.notification.val ≤ config.streamWindowSize.toNat
  prompt : stream.state.isClosed = false →
    ¬ isLow config.streamWindowSize.toNat stream.recvWindow.notification.val

structure Streams.Credited (config : H2Config) (s : Streams) (log : List Entry) :
    Prop where
  size : s.streamRecvWindowSize = config.streamWindowSize
  conn : ConnCredited config s.flowControl.recvWindow log
  stream : ∀ id stream, s.streamMap.lookup id = some stream → StreamCredited config id stream log
  restored : Restored config.connWindowSize.toNat config.streamWindowSize.toNat log
  settings : ∀ settings, .sent (localSettings settings) ∈ log →
    settings = createInitialSettings config
  recv : s.maxRecvId = initialMaxRecvStreamId
  limit : ∀ id stream, s.streamMap.lookup id = some stream → id < defaultMaxStreamId

/-- The receive windows have not changed, and no stream has been opened. -/
structure Streams.SameRecv (s s' : Streams) : Prop where
  size : s'.streamRecvWindowSize = s.streamRecvWindowSize
  conn : s'.flowControl.recvWindow = s.flowControl.recvWindow
  recv : s'.maxRecvId = s.maxRecvId
  each : s.Each (fun _ a b => b.recvWindow = a.recvWindow ∧
    (b.state.isClosed = false → a.state.isClosed = false)) s'

variable {config : H2Config}

theorem Streams.Credited.same (h : s.Credited config log) (hsame : s.SameRecv s') :
    s'.Credited config log where
  size := hsame.size.trans h.size
  conn := by rw [hsame.conn]; exact h.conn
  stream id stream hget := by
    obtain ⟨stream₀, hget₀, hwin, hclosed⟩ := hsame.each.after hget
    obtain ⟨hactual, hcredit, hnonneg, hle, hprompt⟩ := h.stream id stream₀ hget₀
    rw [← hwin] at hactual hcredit hnonneg hle hprompt
    exact ⟨hactual, hcredit, hnonneg, hle, fun hopen => hprompt (hclosed hopen)⟩
  restored := h.restored
  settings := h.settings
  recv := hsame.recv.trans h.recv
  limit id stream hget := by
    obtain ⟨stream₀, hget₀, -⟩ := hsame.each.after hget
    exact h.limit id stream₀ hget₀

theorem ConnCredited.cons {w : RecvWindow} {entry : Entry} {log : List Entry}
    (h : ConnCredited config w log) (hgranted : entry.granted 0 = 0)
    (hreceived : entry.dataReceived = 0) : ConnCredited config w (entry :: log) := by
  refine ⟨h.actual, ?_, h.nonneg, h.prompt, ?_⟩
  · rw [connCredit_cons, hgranted, hreceived, h.credit]
    ring
  · rcases h.announced with hle | ⟨hlt, hnone⟩
    · exact .inl hle
    · refine .inr ⟨hlt, fun entry' hent' => ?_⟩
      rcases mem_cons.mp hent' with rfl | hent'
      · exact hgranted
      · exact hnone entry' hent'

theorem Streams.Credited.uncredited (h : s.Credited config log) (hent : entry.isUncredited = true)
    (hset : ∀ settings, entry ≠ .sent (localSettings settings)) :
    s.Credited config (entry :: log) := by
  refine ⟨h.size, h.conn.cons (granted_of_isUncredited hent 0)
    (dataReceived_of_isUncredited hent), fun id stream hget => ?_,
    h.restored.cons hent, fun settings hmem => ?_, h.recv, h.limit⟩
  · obtain ⟨hactual, hcredit, hnonneg, hle, hprompt⟩ := h.stream id stream hget
    exact ⟨hactual, by rw [streamCredit_of_isUncredited hent, hcredit], hnonneg, hle, hprompt⟩
  · rcases mem_cons.mp hmem with heq | hmem
    · exact absurd heq.symm (hset settings)
    · exact h.settings settings hmem

/-! ## DATA frames -/

theorem granted_windowUpdate {j : StreamId} {n : ℤ} (hnonneg : 0 ≤ n) (hlt : n < 2 ^ 31) :
    (sent (windowUpdate id n)).granted j = if id = j then n else 0 := by
  have hsize : UInt32.size = 2 ^ 32 := rfl
  change (if id = j then ((UInt32.ofNat n.toNat).toNat : ℤ) else 0) = _
  rw [UInt32.toNat_ofNat_of_lt' (by omega), Int.toNat_of_nonneg hnonneg]

theorem RecvWindow.Takes.lacks (h : w.Takes w' id n update) (hactual : 0 ≤ w.actual.val) :
    (update = none ∧ w'.notification.val = w.notification.val - n ∧
      ¬ isLow w.actual.val (w.notification.val - n)) ∨
    ∃ m : ℤ, update = some (windowUpdate id m) ∧ 0 ≤ m ∧ m < 2 ^ 31 ∧
      w'.notification.val = w.actual.val ∧ w.notification.val - n + m = w.actual.val := by
  have hle := h.le
  have hlt := w.actual.2
  by_cases hlow : isLow w.actual.val (w.notification.val - n)
  · refine .inr ⟨w.actual.val - (w.notification.val - n), ?_, ?_, ?_, ?_, by omega⟩
    · rw [h.update, if_pos hlow]
    · rw [isLow] at hlow
      omega
    · omega
    · rw [h.notification, if_pos hlow]
  · refine .inl ⟨?_, ?_, hlow⟩
    · rw [h.update, if_neg hlow]
    · rw [h.notification, if_neg hlow]

theorem ConnCredited.takes (h : ConnCredited config w log) (hpay : frame.payload = .data octets)
    (htakes : w.Takes w' 0 octets.length update) :
    ConnCredited config w' (sentUpdate update ++ .received frame :: log) ∧
      (Restored config.connWindowSize.toNat config.streamWindowSize.toNat log →
        Restored config.connWindowSize.toNat config.streamWindowSize.toNat
          (sentUpdate update ++ .received frame :: log)) := by
  have hactual : 0 ≤ w.actual.val := by
    rw [h.actual]
    exact Int.natCast_nonneg _
  have hle := htakes.le
  have hreceived : (received frame).dataReceived = octets.length := by
    rw [dataReceived, hpay]
  have hcredit : connCredit (.received frame :: log) = w.notification.val - octets.length := by
    rw [connCredit_cons, hreceived, h.credit]
    simp [granted]
  rcases htakes.lacks hactual with ⟨rfl, hnote, hlow⟩ |
    ⟨n, rfl, hnonneg, hlt, hnote, hsum⟩
  · refine ⟨⟨by rw [htakes.actual, h.actual], by rw [hnote]; exact hcredit.symm,
      by omega, ?_, ?_⟩, fun hrestored => hrestored⟩
    · rw [hnote, ← h.actual]
      exact hlow
    · rcases h.announced with hannounced | ⟨hsmall, hnone⟩
      · exact .inl (by omega)
      · refine .inr ⟨hsmall, fun entry hent => ?_⟩
        rcases mem_cons.mp hent with rfl | hent
        · rfl
        · exact hnone entry hent
  · have hnew : connCredit (.sent (windowUpdate 0 n) :: .received frame :: log) =
        config.connWindowSize.toNat := by
      rw [connCredit_cons, hcredit, granted_windowUpdate hnonneg hlt, if_pos rfl, ← h.actual]
      simp only [dataReceived]
      omega
    refine ⟨⟨by rw [htakes.actual, h.actual], ?_, by omega, ?_, .inl ?_⟩, fun hrestored =>
      ⟨fun _ _ => ?_, hrestored⟩⟩
    · rw [hnote, h.actual]
      exact hnew.symm
    · rw [hnote, h.actual, isLow]
      omega
    · rw [hnote, h.actual]
    · exact (if_pos rfl).mpr hnew

theorem streamCredit_received (size : ℤ) (id : StreamId) (log : List Entry)
    (h : frame.payload = .data octets) :
    streamCredit size id (.received frame :: log) =
      if frame.id = id ∧ (octets.length : ℤ) ≤ streamCredit size id log then
        streamCredit size id log - octets.length else streamCredit size id log := by
  have hreceived : (received frame).dataReceived = octets.length := by
    rw [dataReceived, h]
  rw [streamCredit, hreceived]
  by_cases hid : frame.id = id
  · simp [hid]
  · simp [hid]

theorem streamCredit_sentUpdate {j : StreamId} (size : ℤ) (log : List Entry) (hne : j ≠ id)
    (hupd : ∀ frame, update = some frame → frame.id = j) :
    streamCredit size id (sentUpdate update ++ log) = streamCredit size id log := by
  cases update with
  | none => rfl
  | some frame =>
    change streamCredit size id log + (sent frame).granted id = _
    rw [granted, hupd frame rfl]
    cases frame.payload <;> simp [hne]

theorem RecvWindow.Takes.update_id (h : w.Takes w' id n update) :
    ∀ frame, update = some frame → frame.id = id := by
  intro frame hframe
  rw [h.update] at hframe
  split at hframe
  · cases hframe
    rfl
  · cases hframe

theorem StreamCredited.takes (h : StreamCredited config id stream log) (hid : id ≠ 0)
    (hframe : frame.id = id) (hpay : frame.payload = .data octets)
    (hconn : ∀ frame, connUpdate = some frame → frame.id = 0)
    (htakes : stream.recvWindow.Takes recvWindow id octets.length update) :
    StreamCredited config id { stream with recvWindow }
      (sentUpdate update ++ (sentUpdate connUpdate ++ .received frame :: log)) ∧
    ∀ frame', update = some frame' →
      streamCredit config.streamWindowSize.toNat id
        (sentUpdate update ++ (sentUpdate connUpdate ++ .received frame :: log)) =
        config.streamWindowSize.toNat := by
  have hactual : 0 ≤ stream.recvWindow.actual.val := by
    rw [h.actual]
    exact Int.natCast_nonneg _
  have hle := htakes.le
  have hcredit : streamCredit config.streamWindowSize.toNat id
      (sentUpdate connUpdate ++ .received frame :: log) =
      stream.recvWindow.notification.val - octets.length := by
    rw [streamCredit_sentUpdate _ _ hid.symm hconn, streamCredit_received _ _ _ hpay,
      if_pos ⟨hframe, by rw [← h.credit]; exact hle⟩, h.credit]
  have hactual' : recvWindow.actual.val = config.streamWindowSize.toNat := by
    rw [htakes.actual, h.actual]
  have hsize := h.le
  rcases htakes.lacks hactual with ⟨rfl, hnote, hlow⟩ |
    ⟨n, rfl, hnonneg, hlt, hnote, hsum⟩
  · refine ⟨⟨hactual', hnote.trans hcredit.symm, ?_, ?_, fun _ => ?_⟩, (fun _ h => nomatch h)⟩
    · change 0 ≤ recvWindow.notification.val
      omega
    · change recvWindow.notification.val ≤ _
      omega
    · change ¬ isLow _ recvWindow.notification.val
      rw [hnote, ← h.actual]
      exact hlow
  · have hnew : streamCredit config.streamWindowSize.toNat id (sentUpdate (some (windowUpdate id n)) ++
        (sentUpdate connUpdate ++ .received frame :: log)) = config.streamWindowSize.toNat := by
      change streamCredit _ id (sentUpdate connUpdate ++ .received frame :: log) +
        (sent (windowUpdate id n)).granted id = _
      rw [hcredit, granted_windowUpdate hnonneg hlt, if_pos rfl, hsum, h.actual]
    have hfull : recvWindow.notification.val = config.streamWindowSize.toNat := by
      rw [hnote, h.actual]
    refine ⟨⟨hactual', hfull.trans hnew.symm, ?_, ?_, fun _ => ?_⟩, fun _ _ => hnew⟩
    · change 0 ≤ recvWindow.notification.val
      omega
    · change recvWindow.notification.val ≤ _
      omega
    · change ¬ isLow _ recvWindow.notification.val
      rw [hfull, isLow]
      omega

theorem StreamCredited.takes_closed (h : StreamCredited config id stream log) (hid : id ≠ 0)
    (hframe : frame.id = id) (hpay : frame.payload = .data octets)
    (hconn : ∀ frame, connUpdate = some frame → frame.id = 0)
    (hclosed : stream.state.isClosed = true)
    (hle : (octets.length : ℤ) ≤ stream.recvWindow.notification.val)
    (hactual : recvWindow.actual = stream.recvWindow.actual)
    (hnote : recvWindow.notification.val = stream.recvWindow.notification.val - octets.length) :
    StreamCredited config id { stream with recvWindow }
      (sentUpdate connUpdate ++ .received frame :: log) := by
  have hsize := h.le
  refine ⟨by rw [hactual, h.actual], ?_, ?_, ?_, fun hopen => ?_⟩
  · rw [streamCredit_sentUpdate _ _ hid.symm hconn, streamCredit_received _ _ _ hpay,
      if_pos ⟨hframe, by rw [← h.credit]; exact hle⟩, ← h.credit]
    exact hnote
  · change 0 ≤ recvWindow.notification.val
    omega
  · change recvWindow.notification.val ≤ _
    omega
  · rw [show stream.state.isClosed = false from hopen] at hclosed
    cases hclosed

theorem StreamCredited.keeps {id j : StreamId} {stream : Stream} {frame : Frame} {octets : Bytes}
    {connUpdate update : Option Frame} {log : List Entry}
    (h : StreamCredited config j stream log) (hj : j ≠ 0) (hpay : frame.payload = .data octets)
    (hconn : ∀ frame, connUpdate = some frame → frame.id = 0)
    (hupd : ∀ frame, update = some frame → frame.id = id)
    (hother : j ≠ id ∨ update = none)
    (hrefused : frame.id ≠ j ∨ stream.recvWindow.notification.val < octets.length) :
    StreamCredited config j stream
      (sentUpdate update ++ (sentUpdate connUpdate ++ .received frame :: log)) := by
  refine ⟨h.actual, ?_, h.nonneg, h.le, h.prompt⟩
  have hbefore : streamCredit config.streamWindowSize.toNat j
      (sentUpdate connUpdate ++ .received frame :: log) =
      streamCredit config.streamWindowSize.toNat j log := by
    rw [streamCredit_sentUpdate _ _ hj.symm hconn, streamCredit_received _ _ _ hpay,
      if_neg fun hmem => ?_]
    rcases hrefused with hne | hlt
    · exact hne hmem.1
    · rw [h.credit] at hlt
      exact absurd hmem.2 (not_le.mpr hlt)
  rcases hother with hne | rfl
  · rw [streamCredit_sentUpdate _ _ hne.symm hupd, hbefore, h.credit]
  · change _ = streamCredit _ j (sentUpdate connUpdate ++ .received frame :: log)
    rw [hbefore, h.credit]

theorem RecvWindow.Takes.update_eq (h : w.Takes w' id n (some frame)) :
    ∃ m, frame = windowUpdate id m := by
  have hupd := h.update
  split at hupd
  · exact ⟨_, Option.some.inj hupd⟩
  · cases hupd

theorem localSettings_not_sentUpdate {settings : List Setting} (h : w.Takes w' id n update) :
    .sent (localSettings settings) ∉ sentUpdate update := by
  intro hmem
  rw [sentUpdate, Option.mem_toList, Option.map_eq_some_iff] at hmem
  obtain ⟨frame, rfl, hframe⟩ := hmem
  obtain ⟨m, rfl⟩ := h.update_eq
  cases hframe

theorem ConnCredited.fits (h : ConnCredited config w log) (hn : n < 2 ^ 24) :
    w.actual.val - (w.notification.val - n) < 2 ^ 30 := by
  have hactual := w.actual.2
  have hprompt := h.prompt
  rw [← h.actual, isLow] at hprompt
  omega

theorem StreamCredited.fits (h : StreamCredited config id stream log)
    (hsize : config.streamWindowSize.toNat < 2 ^ 30)
    (hle : (n : ℤ) ≤ stream.recvWindow.notification.val) :
    stream.recvWindow.actual.val - (stream.recvWindow.notification.val - n) < 2 ^ 30 := by
  rw [h.actual]
  omega

theorem ConnCredited.actual_nonneg (h : ConnCredited config w log) : 0 ≤ w.actual.val := by
  rw [h.actual]
  exact Int.natCast_nonneg _

theorem StreamCredited.actual_nonneg (h : StreamCredited config id stream log) :
    0 ≤ stream.recvWindow.actual.val := by
  rw [h.actual]
  exact Int.natCast_nonneg _

theorem Streams.Numbered.ne_zero (h : s.Numbered) (hget : s.streamMap.lookup id = some stream) :
    id ≠ 0 := by
  rintro rfl
  have hodd := h.odd 0 stream hget
  cases hodd

theorem Streams.Credited.takes_conn {s₁ : Streams} (h : s.Credited config log)
    (hpay : frame.payload = .data octets) (hlen : octets.length < 2 ^ 24)
    (hconn : s.releaseConnRecvWindow (UInt32.ofNat octets.length) = .ok (s₁, .ok update)) :
    ∃ w, s.flowControl.recvWindow.Takes w 0 octets.length update ∧
      s₁ = { s with flowControl := { s.flowControl with recvWindow := w } } ∧
      ConnCredited config w (sentUpdate update ++ .received frame :: log) ∧
      Restored config.connWindowSize.toNat config.streamWindowSize.toNat
        (sentUpdate update ++ .received frame :: log) ∧
      ∀ settings, .sent (localSettings settings) ∈
        sentUpdate update ++ .received frame :: log →
        settings = createInitialSettings config := by
  rcases releaseConnRecvWindow_eq hlen h.conn.actual_nonneg h.conn.nonneg
    (fun _ => h.conn.fits hlen) with ⟨-, heq⟩ | ⟨w, update', htakes, heq⟩
  · rw [hconn] at heq
    cases heq
  · rw [hconn] at heq
    cases heq
    obtain ⟨hcred, hrestored⟩ := h.conn.takes hpay htakes
    refine ⟨w, htakes, rfl, hcred, hrestored h.restored, fun settings hmem => ?_⟩
    rcases mem_append.mp hmem with hmem | hmem
    · exact absurd hmem (localSettings_not_sentUpdate htakes)
    · exact h.settings settings (mem_of_ne_of_mem (by simp) hmem)

theorem Streams.Credited.dataRefused {s s₁ : Streams} {frame : Frame} {octets : Bytes}
    {update : Option Frame} {e : H2Error} {log : List Entry} (h : s.Credited config log)
    (hnum : s.Numbered) (hpay : frame.payload = .data octets)
    (hlen : octets.length < 2 ^ 24)
    (hconn : s.releaseConnRecvWindow (UInt32.ofNat octets.length) = .ok (s₁, .ok update))
    (hstr : s₁.releaseStreamRecvWindow frame.id (UInt32.ofNat octets.length) = .ok (s₁, .error e)) :
    s₁.Credited config (sentUpdate update ++ .received frame :: log) := by
  obtain ⟨w, htakes, rfl, hcred, hrestored, hset⟩ := h.takes_conn hpay hlen hconn
  obtain ⟨-, -, stream, hget, hsize⟩ := releaseStreamRecvWindow_error hstr
  change s.streamMap.lookup frame.id = some stream at hget
  refine ⟨h.size, hcred, fun j stream' hget' => ?_, hrestored, hset, h.recv, h.limit⟩
  change s.streamMap.lookup j = some stream' at hget'
  refine @StreamCredited.keeps config 0 j stream' frame octets update none log
    (h.stream j stream' hget') (hnum.ne_zero hget') hpay htakes.update_id
    (fun _ h => nomatch h) (.inr rfl) ?_
  by_cases heq : frame.id = j
  · subst heq
    rw [hget] at hget'
    cases hget'
    exact .inr (((stream.recvWindow.notificationAvailable_lt_iff hlen
      (h.stream _ stream hget).nonneg)).mp hsize)
  · exact .inl heq

theorem Streams.Credited.dataAccepted {s s₁ s' : Streams} {frame : Frame} {octets : Bytes}
    {connUpdate update : Option Frame} {log : List Entry} (h : s.Credited config log)
    (hsize : config.streamWindowSize.toNat < 2 ^ 30) (hnum : s.Numbered)
    (hpay : frame.payload = .data octets) (hlen : octets.length < 2 ^ 24)
    (hcharges : s.Charges frame.id)
    (hconn : s.releaseConnRecvWindow (UInt32.ofNat octets.length) = .ok (s₁, .ok connUpdate))
    (hstr : s₁.releaseStreamRecvWindow frame.id (UInt32.ofNat octets.length) =
      .ok (s', .ok update)) :
    s'.Credited config
      (sentUpdate update ++ (sentUpdate connUpdate ++ .received frame :: log)) := by
  obtain ⟨w, htakes, rfl, hcred, hrestored, hset⟩ := h.takes_conn hpay hlen hconn
  have hkeeps : ∀ {update} (j : StreamId) (stream : Stream), s.streamMap.lookup j = some stream →
      j ≠ frame.id → (∀ frame', update = some frame' → frame'.id = frame.id) →
      StreamCredited config j stream
        (sentUpdate update ++ (sentUpdate connUpdate ++ .received frame :: log)) := by
    intro update j stream hget hne hupd
    exact (h.stream j stream hget).keeps (hnum.ne_zero hget) hpay htakes.update_id
      hupd (.inl hne) (.inl hne.symm)
  cases hget : s.streamMap.lookup frame.id with
  | none =>
    have hnone : ({ s with flowControl := { s.flowControl with
        recvWindow := w } } : Streams).streamMap.lookup frame.id = none := hget
    rw [releaseStreamRecvWindow] at hstr
    simp only [hnone] at hstr
    cases hstr
    refine ⟨h.size, hcred, fun j stream hget' => ?_, hrestored, hset, h.recv, h.limit⟩
    refine @hkeeps none j stream hget' (fun heq => ?_) (fun _ h => by cases h)
    rw [heq] at hget'
    change s.streamMap.lookup frame.id = some stream at hget'
    rw [hget] at hget'
    cases hget'
  | some stream =>
    have hcredit := h.stream frame.id stream hget
    have hid := hnum.ne_zero hget
    have hlookups : ∀ {recvWindow} j stream', (({ s with flowControl := { s.flowControl with
        recvWindow := w } } : Streams).setStream frame.id
          { stream with recvWindow }).streamMap.lookup j = some stream' →
        (j = frame.id ∧ stream' = { stream with recvWindow }) ∨
          (j ≠ frame.id ∧ s.streamMap.lookup j = some stream') := by
      intro recvWindow j stream' hget'
      by_cases heq : j = frame.id
      · subst heq
        exact .inl ⟨rfl, eq_of_lookup_setStream hget hget'⟩
      · rw [lookup_setStream_of_ne _ _ _ heq] at hget'
        exact .inr ⟨heq, hget'⟩
    have hlimit : ∀ {recvWindow} j stream', (({ s with flowControl := { s.flowControl with
        recvWindow := w } } : Streams).setStream frame.id
          { stream with recvWindow }).streamMap.lookup j = some stream' →
        j < defaultMaxStreamId := by
      intro recvWindow j stream' hget'
      rcases hlookups j stream' hget' with ⟨rfl, -⟩ | ⟨-, hget'⟩
      · exact h.limit _ stream hget
      · exact h.limit j stream' hget'
    rcases @releaseStreamRecvWindow_eq { s with flowControl := { s.flowControl with
      recvWindow := w } } frame.id stream octets.length hlen hget hcredit.actual_nonneg
      hcredit.nonneg (hcredit.fits hsize) with ⟨-, heq⟩ | ⟨recvWindow, update', htakes', heq⟩ |
      ⟨recvWindow, hactive, hle, hactual, hnote, heq⟩
    · rw [hstr] at heq
      cases heq
    · rw [hstr] at heq
      cases heq
      obtain ⟨hnew, hfull⟩ := hcredit.takes hid rfl hpay htakes.update_id htakes'
      refine ⟨h.size, ?_, fun j stream' hget' => ?_, ?_, fun settings hmem => ?_, h.recv, hlimit⟩
      · cases update with
        | none => exact hcred
        | some frame' =>
          obtain ⟨m, rfl⟩ := htakes'.update_eq
          refine hcred.cons ?_ rfl
          exact if_neg hid
      · rcases hlookups j stream' hget' with ⟨rfl, rfl⟩ | ⟨hne, hget'⟩
        · exact hnew
        · exact hkeeps j stream' hget' hne htakes'.update_id
      · cases update with
        | none => exact hrestored
        | some frame' =>
          obtain ⟨m, rfl⟩ := htakes'.update_eq
          refine ⟨fun _ _ => ?_, hrestored⟩
          exact (if_neg hid).mpr (hfull _ rfl)
      · rcases mem_append.mp hmem with hmem | hmem
        · exact absurd hmem (localSettings_not_sentUpdate htakes')
        · exact hset settings hmem
    · rw [hstr] at heq
      cases heq
      have hclosed : stream.state.isClosed = true := by
        by_contra hopen
        have hle : frame.id ≤ s.maxRecvId := by
          rw [h.recv]
          exact UInt32.le_of_lt (h.limit _ stream hget)
        rw [hcharges stream hget (by simpa using hopen) hle] at hactive
        cases hactive
      refine ⟨h.size, hcred, fun j stream' hget' => ?_, hrestored, hset, h.recv, hlimit⟩
      rcases hlookups j stream' hget' with ⟨rfl, rfl⟩ | ⟨hne, hget'⟩
      · exact hcredit.takes_closed hid rfl hpay htakes.update_id hclosed hle hactual
          hnote
      · exact @hkeeps none j stream' hget' hne (fun _ h => by cases h)

/-! ## Every action -/

theorem Streams.SameRecv.of_eq (hsize : s'.streamRecvWindowSize = s.streamRecvWindowSize)
    (hconn : s'.flowControl.recvWindow = s.flowControl.recvWindow)
    (hrecv : s'.maxRecvId = s.maxRecvId) (hmap : s'.streamMap = s.streamMap) : s.SameRecv s' :=
  ⟨hsize, hconn, hrecv, .of_lookup_eq (fun _ => by rw [hmap]) fun _ _ => ⟨rfl, fun h => h⟩⟩

theorem Streams.SameRecv.setStream {s s' : Streams} {id : StreamId} {stream stream' : Stream}
    (hget : s.streamMap.lookup id = some stream)
    (hmap : s'.streamMap = (s.setStream id stream').streamMap)
    (hwin : stream'.recvWindow = stream.recvWindow)
    (hclosed : stream'.state.isClosed = false → stream.state.isClosed = false)
    (hsize : s'.streamRecvWindowSize = s.streamRecvWindowSize)
    (hconn : s'.flowControl.recvWindow = s.flowControl.recvWindow)
    (hrecv : s'.maxRecvId = s.maxRecvId) : s.SameRecv s' := by
  refine ⟨hsize, hconn, hrecv, fun j => ?_⟩
  have heach : s.Each (fun _ a b => b.recvWindow = a.recvWindow ∧
      (b.state.isClosed = false → a.state.isClosed = false)) (s.setStream id stream') := by
    refine (Each.setStream hget).mono fun j a b hab => ?_
    split at hab
    · obtain ⟨rfl, rfl⟩ := hab
      exact ⟨hwin, hclosed⟩
    · rw [hab]
      exact ⟨rfl, fun h => h⟩
  have hj := heach j
  rwa [← hmap] at hj

theorem recvAcknowledged_initial (h : s.streamRecvWindowSize = config.streamWindowSize) :
    recvAcknowledged (createInitialSettings config) s = .ok s := by
  have happly : s.applyRecvInitialWindowSize config.streamWindowSize = .ok s := by
    rw [applyRecvInitialWindowSize, h]
    simp only [UInt32.lt_irrefl, gt_iff_lt, if_false]
    rw [← h]
  simp only [createInitialSettings, recvAcknowledged, happly]
  rfl

theorem Streams.Credited.opened {s : Streams} {log : List Entry} (h : s.Credited config log)
    (request : RequestWrapper) (hid : s.nextStreamId < defaultMaxStreamId) :
    (s.accepted request).Credited config (.opened s.nextStreamId :: log) := by
  have hrest : (s.accepted request).streamRecvWindowSize = s.streamRecvWindowSize ∧
      (s.accepted request).flowControl = s.flowControl ∧
      (s.accepted request).maxRecvId = s.maxRecvId := by
    rcases s.accepted_cases request with ⟨-, h⟩ | ⟨-, -, h⟩ <;> rw [h] <;> exact ⟨rfl, rfl, rfl⟩
  have hnew : (asI32 s.streamRecvWindowSize).val = config.streamWindowSize.toNat := by
    rw [h.size, asI32_val config.stream_le]
  refine ⟨hrest.1.trans h.size, ?_, fun id stream hget => ?_, h.restored, fun settings hmem => ?_,
    hrest.2.2.trans h.recv, fun id stream hget => ?_⟩
  · rw [hrest.2.1]
    exact h.conn.cons rfl rfl
  · rcases lookup_accepted hget with ⟨rfl, rfl⟩ | ⟨heq, hget⟩
    · refine ⟨hnew, ?_, ?_, ?_, fun _ => ?_⟩
      · rw [streamCredit, if_pos rfl]
        exact hnew
      · change 0 ≤ (asI32 s.streamRecvWindowSize).val
        omega
      · change (asI32 s.streamRecvWindowSize).val ≤ _
        omega
      · change ¬ isLow _ (asI32 s.streamRecvWindowSize).val
        rw [hnew, isLow]
        omega
    · obtain ⟨hactual, hcredit, hnonneg, hle, hprompt⟩ := h.stream id stream hget
      refine ⟨hactual, ?_, hnonneg, hle, hprompt⟩
      rw [streamCredit, if_neg fun h => heq h.symm, hcredit]
  · exact h.settings settings (mem_of_ne_of_mem (by simp) hmem)
  · rcases lookup_accepted hget with ⟨heq, -⟩ | ⟨-, hget⟩
    · rw [heq]
      exact hid
    · exact h.limit id stream hget

theorem increaseSendSize_recvWindow {flow flow' : FlowControl} {n : UInt32}
    (h : flow.increaseSendSize n = .ok flow') : flow'.recvWindow = flow.recvWindow := by
  rw [increaseSendSize] at h
  split at h
  · cases h
  · cases h
    rfl

theorem Entry.isUncredited_of_isDeferred (h : frame.isDeferred = true) :
    (received frame).isUncredited = true := by
  rw [Frame.isDeferred] at h
  rw [isUncredited]
  cases hpay : frame.payload <;> simp_all

theorem Entry.isUncredited_of_isAnswer (h : frame.isAnswer = true) :
    (sent frame).isUncredited = true ∧
      ∀ settings, sent frame ≠ .sent (localSettings settings) := by
  refine ⟨?_, fun settings heq => ?_⟩
  · rw [Frame.isAnswer] at h
    rw [isUncredited]
    cases hpay : frame.payload <;> simp_all
  · rw [sent.inj heq] at h
    exact absurd (show ({ bits := 0 } : FrameFlags).isAck = true from h) (by decide)

/-- What an action does to the receive windows and to the credit. -/
inductive RecvEffect (R : Rules) (c c' : Conn) : Prop where
  | same : c.streams.SameRecv c'.streams → c'.log = c.log → RecvEffect R c c'
  | logged (entry : Entry) : c.streams.SameRecv c'.streams → c'.log = entry :: c.log →
      entry.isUncredited = true →
      (∀ settings, entry ≠ .sent (localSettings settings)) →
      (∀ frame settings, entry = .sent frame → frame.payload = .settings settings →
        frame.flags.isAck = true) →
      (∀ frame parts, entry = .sent frame → frame.payload = .headers parts →
        ∃ stream, c.streams.streamMap.lookup frame.id = some stream) → RecvEffect R c c'
  | opened (request : RequestWrapper) : c.streams.nextStreamId < defaultMaxStreamId →
      c'.streams = c.streams.accepted request →
      c'.log = .opened c.streams.nextStreamId :: c.log → RecvEffect R c c'
  | dataAccepted {frame : Frame} {octets s₁ connUpdate streamUpdate} :
      frame.payload = .data octets → octets.length < 2 ^ 24 → c.streams.Charges frame.id →
      c.streams.releaseConnRecvWindow (UInt32.ofNat octets.length) = .ok (s₁, .ok connUpdate) →
      s₁.releaseStreamRecvWindow frame.id (UInt32.ofNat octets.length) =
        .ok (c'.streams, .ok streamUpdate) →
      c'.log = sentUpdate streamUpdate ++ (sentUpdate connUpdate ++ .received frame :: c.log) →
      RecvEffect R c c'
  | dataRefused {frame : Frame} {octets connUpdate e} :
      frame.payload = .data octets → octets.length < 2 ^ 24 →
      c.streams.releaseConnRecvWindow (UInt32.ofNat octets.length) =
        .ok (c'.streams, .ok connUpdate) →
      c'.streams.releaseStreamRecvWindow frame.id (UInt32.ofNat octets.length) =
        .ok (c'.streams, .error e) →
      c'.log = sentUpdate connUpdate ++ .received frame :: c.log → RecvEffect R c c'
  | acknowledged {settings : List Setting} : R.settings settings →
      recvAcknowledged settings c.streams = .ok c'.streams → c'.log = c.log → RecvEffect R c c'
  | stopped : c'.phase = .over → RecvEffect R c c'

theorem RecvEffect.received {c c' : Conn} {frame : Frame} (hsame : c.streams.SameRecv c'.streams)
    (hlog : c'.log = .received frame :: c.log) (hframe : ∀ octets, frame.payload ≠ .data octets) :
    RecvEffect R c c' := by
  refine .logged _ hsame hlog ?_ (fun _ h => nomatch h) (fun _ _ h => nomatch h)
    (fun _ _ h => nomatch h)
  rw [isUncredited]
  cases hpay : frame.payload <;> simp_all

theorem RecvEffect.sent {c c' : Conn} {frame : Frame} (hsame : c.streams.SameRecv c'.streams)
    (hlog : c'.log = .sent frame :: c.log) (hset : ∀ settings, frame.payload ≠ .settings settings)
    (hheaders : ∀ parts, frame.payload ≠ .headers parts)
    (hupd : ∀ n, frame.payload ≠ .windowUpdate n) : RecvEffect R c c' := by
  refine .logged _ hsame hlog ?_ (fun settings h => ?_) (fun _ settings h hpay => ?_)
    fun _ parts h hpay => ?_
  · rw [isUncredited]
    cases hpay : frame.payload <;> simp_all
  · rw [sent.inj h] at hset
    exact hset settings rfl
  · cases h
    exact absurd hpay (hset settings)
  · cases h
    exact absurd hpay (hheaders parts)

theorem Action.recvEffect (h : Action R c c') (hsound : c.Sound) : RecvEffect R c c' := by
  have hmoved : ∀ {s : Streams} {id : StreamId} {stream stream' : Stream} {e : StreamFrame}
      {state : H2StreamState}, s.streamMap.lookup id = some stream →
      e.move stream.state = some state → stream'.recvWindow = stream.recvWindow →
      s.SameRecv (s.moved id stream' state) := fun hget hmove hwin =>
    .setStream hget rfl hwin (fun _ => StreamFrame.not_isClosed_of_move hmove) rfl rfl rfl
  have hended : ∀ {s : Streams} {id : StreamId} {stream stream' : Stream} {reason : CloseReason},
      s.streamMap.lookup id = some stream → stream'.recvWindow = stream.recvWindow →
      s.SameRecv (s.ended id stream' reason) := fun hget hwin =>
    .setStream hget rfl hwin (fun h => nomatch h) rfl rfl rfl
  cases h with
  | opened request hid => exact .opened request hid rfl rfl
  | headers hget hhdr hmove =>
    obtain ⟨hid, parts, hparts⟩ := hsound.stored _ _ _ hget hhdr
    refine .logged _ (hmoved hget hmove rfl) rfl ?_ (fun settings heq => ?_)
      (fun frame settings heq hpay => ?_) fun frame _ heq _ => ?_
    · rw [isUncredited, hparts]
    · cases heq
      cases hparts
    · cases heq
      rw [hparts] at hpay
      cases hpay
    · cases heq
      exact ⟨_, by rw [hid]; exact hget⟩
  | data hget =>
    exact .sent (.setStream hget rfl rfl (fun h => h) rfl rfl rfl) rfl (fun _ h => nomatch h)
      (fun _ h => nomatch h) (fun _ h => nomatch h)
  | finished hget _ _ _ _ hmove =>
    exact .sent (hmoved hget hmove rfl) rfl (fun _ h => nomatch h) (fun _ h => nomatch h)
      (fun _ h => nomatch h)
  | waited hget => exact .same (.setStream hget rfl rfl (fun h => h) rfl rfl rfl) rfl
  | failed hget =>
    exact .sent (hended hget rfl) rfl (fun _ h => nomatch h) (fun _ h => nomatch h)
      (fun _ h => nomatch h)
  | frameReceived e _ hget hmove => exact .same (hmoved hget hmove rfl) rfl
  | remoteReset _ hpay hget => exact .received (hended hget rfl) rfl (by simp [hpay])
  | resetIgnored hpay => exact .received (.of_eq rfl rfl rfl rfl) rfl (by simp [hpay])
  | localReset told _ hget =>
    cases told with
    | false => exact .same (hended hget rfl) rfl
    | true =>
      exact .sent (hended hget rfl) rfl (fun _ h => nomatch h) (fun _ h => nomatch h)
        (fun _ h => nomatch h)
  | localResetLate hget =>
    exact .same (.setStream hget rfl rfl (fun h => nomatch h) rfl rfl rfl) rfl
  | settings hpay _ hbound hset =>
    have hresized := (recvSettings_resized hbound hsound.bounded hset).1
    refine .received ⟨by rw [hresized.rest], by rw [hresized.rest], by rw [hresized.rest],
      hresized.each.mono ?_⟩ rfl (by simp [hpay])
    rintro id a b ⟨w, rfl, -⟩
    exact ⟨rfl, fun h => h⟩
  | connUpdate hpay _ _ hflow =>
    exact .received (.of_eq rfl (increaseSendSize_recvWindow hflow) rfl rfl) rfl
      (by simp [hpay])
  | streamUpdate hpay _ hbound hreassign =>
    have henlarged := reassignStreamSendWindow_enlarged hbound hreassign
    refine .received ⟨by rw [henlarged.rest], by rw [henlarged.rest], by rw [henlarged.rest],
      henlarged.each.mono fun j a b hab => ?_⟩ rfl (by simp [hpay])
    split at hab
    · obtain ⟨w, rfl, -⟩ := hab
      exact ⟨rfl, fun h => h⟩
    · rw [hab]
      exact ⟨rfl, fun h => h⟩
  | dataAccepted hpay hlen hcharges hconn hstr =>
    exact .dataAccepted hpay hlen hcharges hconn hstr rfl
  | dataRefused hpay hlen hconn hstr => exact .dataRefused hpay hlen hconn hstr rfl
  | acknowledged hset hack => exact .acknowledged hset hack rfl
  | wentAway _ hunset =>
    have hunset := getUnsetStreams_unset hunset
    refine .same ⟨by rw [hunset.rest], by rw [hunset.rest], by rw [hunset.rest],
      hunset.each.mono fun j a b hab => ?_⟩ rfl
    split at hab
    · rw [hab]
      exact ⟨rfl, (fun h => nomatch h)⟩
    · rw [hab]
      exact ⟨rfl, fun h => h⟩
  | received hdeferred =>
    exact .logged _ (.of_eq rfl rfl rfl rfl) rfl (isUncredited_of_isDeferred hdeferred)
      (fun _ h => nomatch h) (fun _ _ h => nomatch h) (fun _ _ h => nomatch h)
  | sent hanswer =>
    obtain ⟨huncredited, hset⟩ := isUncredited_of_isAnswer hanswer
    refine .logged _ (.of_eq rfl rfl rfl rfl) rfl huncredited hset
      (fun frame settings heq hpay => ?_) fun frame parts heq hpay => ?_
    · cases heq
      rw [Frame.isAnswer, hpay] at hanswer
      exact hanswer
    · cases heq
      rw [Frame.isAnswer, hpay] at hanswer
      cases hanswer
  | stopped => exact .stopped rfl
  | admitted | taken | skipped | parkedStream | parkedConn =>
    exact .same (.of_eq rfl rfl rfl rfl) rfl

theorem Action.credited (h : Action R c c')
    (hR : ∀ settings, R.settings settings → settings = createInitialSettings config)
    (hsize : config.streamWindowSize.toNat < 2 ^ 30) (hsound : c.Sound)
    (hc : c.streams.Credited config c.log) (hphase : c'.phase ≠ .over) :
    c'.streams.Credited config c'.log := by
  cases h.recvEffect hsound with
  | same hsame hlog =>
    rw [hlog]
    exact hc.same hsame
  | logged entry hsame hlog huncredited hset =>
    rw [hlog]
    exact (hc.same hsame).uncredited huncredited hset
  | opened request hid hstreams hlog =>
    rw [hstreams, hlog]
    exact hc.opened request hid
  | dataAccepted hpay hlen hcharges hconn hstr hlog =>
    rw [hlog]
    exact hc.dataAccepted hsize hsound.numbered hpay hlen hcharges hconn hstr
  | dataRefused hpay hlen hconn hstr hlog =>
    rw [hlog]
    exact hc.dataRefused hsound.numbered hpay hlen hconn hstr
  | acknowledged hset hack hlog =>
    rw [hR _ hset, recvAcknowledged_initial hc.size] at hack
    rw [← Except.ok.inj hack, hlog]
    exact hc
  | stopped hover => exact absurd hover hphase

theorem Streams.Credited.not_trap
    (hR : ∀ settings, R.settings settings → settings = createInitialSettings config)
    (hsize : config.streamWindowSize.toNat < 2 ^ 30)
    (hc : c.phase ≠ .over → c.streams.Credited config c.log) : ¬ Trap R c .recvWindow := by
  intro h
  cases h with
  | settings _ h => cases recvSettings_panic h
  | acknowledged hset h =>
    rw [hR _ hset, recvAcknowledged_initial (hc (by simp)).size] at h
    cases h
  | connData hlen h =>
    have hcred := (hc (by simp)).conn
    rcases releaseConnRecvWindow_eq hlen hcred.actual_nonneg hcred.nonneg
      (fun _ => hcred.fits hlen) with ⟨-, heq⟩ | ⟨w, update, -, heq⟩
    · rw [heq] at h
      cases h
    · rw [heq] at h
      cases h
  | @streamData s s₁ log away id update panic octets hlen hconn h =>
    have hcred := hc (by simp)
    have hmap := releaseConnRecvWindow_streamMap hconn
    cases hget : s₁.streamMap.lookup id with
    | none =>
      rw [releaseStreamRecvWindow] at h
      simp only [hget] at h
      cases h
    | some stream =>
      have hstr := hcred.stream id stream (by rw [← hmap]; exact hget)
      rcases releaseStreamRecvWindow_eq hlen hget hstr.actual_nonneg hstr.nonneg
        (hstr.fits hsize) with ⟨-, heq⟩ | ⟨w, update, -, heq⟩ | ⟨w, -, -, -, -, heq⟩
      · rw [heq] at h
        cases h
      · rw [heq] at h
        cases h
      · rw [heq] at h
        cases h
  | wentAway _ h => cases getUnsetStreams_panic h

/-! ## The start of a connection -/

theorem setupRecvWindow_eq (size : UInt32) (hsize : size ≤ maxFlowControlWindow) :
    ∃ w : RecvWindow, w.actual.val = size.toNat ∧ w.notification.val = 65535 ∧
      (FlowControl.new defaultWindowSize
        defaultWindowSize).setupRecvWindow size = .ok { FlowControl.new
          defaultWindowSize defaultWindowSize with recvWindow := w } := by
  have hle : size.toNat ≤ 2147483647 := UInt32.le_iff_toNat_le.mp hsize
  have hdefault : (asI32 defaultWindowSize).val = 65535 :=
    asI32_val (n := defaultWindowSize) (by decide)
  have hactual : UInt32.ofInt (asI32 defaultWindowSize).val = 65535 := by
    rw [hdefault]
    rfl
  have hnat : (65535 : UInt32).toNat = 65535 := rfl
  simp only [setupRecvWindow, FlowControl.new, actualSize, RecvWindow.new, hactual]
  split
  · rename_i hlt
    have hlt : 65535 < size.toNat := UInt32.lt_iff_toNat_lt.mp hlt
    have hsub : (size - 65535).toNat = size.toNat - 65535 := by
      rw [UInt32.toNat_sub_of_le _ _ (UInt32.le_iff_toNat_le.mpr (by omega)), hnat]
    have hval : (asI32 (size - 65535)).val = size.toNat - 65535 := by
      rw [asI32_val (UInt32.le_iff_toNat_le.mpr (by rw [hsub]; change _ ≤ 2147483647; omega)), hsub]
      omega
    have hfits : -2 ^ 31 ≤ (asI32 defaultWindowSize).val + (asI32 (size - 65535)).val ∧
        (asI32 defaultWindowSize).val + (asI32 (size - 65535)).val < 2 ^ 31 := by omega
    refine ⟨⟨asI32 defaultWindowSize, ⟨_, hfits⟩⟩, by dsimp only; omega, hdefault, ?_⟩
    rw [increaseActual, checkedI32_of_fits _ hfits]
    rfl
  · rename_i hle'
    have hle' : size.toNat ≤ 65535 := UInt32.le_iff_toNat_le.mp (UInt32.not_lt.mp hle')
    have hsub : (65535 - size).toNat = 65535 - size.toNat := by
      rw [UInt32.toNat_sub_of_le _ _ (UInt32.le_iff_toNat_le.mpr (by omega)), hnat]
    have hval : (asI32 (65535 - size)).val = 65535 - size.toNat := by
      rw [asI32_val (UInt32.le_iff_toNat_le.mpr (by rw [hsub]; change _ ≤ 2147483647; omega)), hsub]
      omega
    have hfits : -2 ^ 31 ≤ (asI32 defaultWindowSize).val - (asI32 (65535 - size)).val ∧
        (asI32 defaultWindowSize).val - (asI32 (65535 - size)).val < 2 ^ 31 := by omega
    refine ⟨⟨asI32 defaultWindowSize, ⟨_, hfits⟩⟩, by dsimp only; omega, hdefault, ?_⟩
    rw [reduceActual, checkedI32_of_fits _ hfits]
    rfl

theorem start_credited (hconn : config.connWindowSize.toNat < 2 ^ 30 + 65535) :
    ∃ m, start config = .ok m ∧ m.streams.Credited config m.log := by
  obtain ⟨w, hactual, hnote, hsetup⟩ := setupRecvWindow_eq config.connWindowSize config.conn_le
  have hrelease := @releaseConnRecvWindow_eq (Streams.new config.streamWindowSize
    defaultWindowSize { FlowControl.new defaultWindowSize
      defaultWindowSize with recvWindow := w }) 0 (by decide)
    (by change 0 ≤ w.actual.val; omega) (by change 0 ≤ w.notification.val; omega)
    fun _ => by change w.actual.val - (w.notification.val - (0 : ℕ)) < _; omega
  rcases hrelease with ⟨hlt, -⟩ | ⟨w', update, htakes, hrelease⟩
  · change w.notification.val < (0 : ℕ) at hlt
    omega
  · change w.Takes w' 0 0 update at htakes
    have hstart : start config = .ok {
        state := .receive, nextState := .receive, settings := .synced
        streams := { Streams.new config.streamWindowSize defaultWindowSize
          { FlowControl.new defaultWindowSize defaultWindowSize with
            recvWindow := w } with flowControl :=
              { FlowControl.new defaultWindowSize defaultWindowSize with
                recvWindow := w' } }
        senders := [], currMessage := ∅, goAwayErrorCode := none, goingAway := none
        log := sentUpdate update ++ [.sent (localSettings (createInitialSettings config))]
        responses := [] } := by
      rw [start, hsetup]
      change (releaseConnRecvWindow _ (UInt32.ofNat 0) >>= _) = _
      rw [hrelease]
      cases update <;> rfl
    have hbase : connCredit
        [.sent (localSettings (createInitialSettings config))] = 65535 :=
      rfl
    refine ⟨_, hstart, rfl, ?_, (fun _ _ h => by cases h), ?_, fun settings hmem => ?_, rfl,
      (fun _ _ h => by cases h)⟩
    · change ConnCredited config w' _
      rcases htakes.lacks (by omega) with ⟨rfl, hsame, hlow⟩ | ⟨n, rfl, hnonneg, hlt, hfull, hsum⟩
      · refine ⟨by rw [htakes.actual, hactual], ?_, by omega, ?_, ?_⟩
        · rw [hsame, hnote]
          exact hbase.symm
        · rw [hsame, ← hactual]
          exact hlow
        · by_cases hsmall : config.connWindowSize.toNat < 65535
          · refine .inr ⟨UInt32.lt_iff_toNat_lt.mpr hsmall, fun entry hent => ?_⟩
            rw [mem_singleton.mp hent]
            rfl
          · exact .inl (by omega)
      · refine ⟨by rw [htakes.actual, hactual], ?_, by omega, ?_, .inl (by omega)⟩
        · change _ = connCredit (.sent (windowUpdate 0 n) :: [.sent _])
          rw [connCredit_cons, hbase, granted_windowUpdate hnonneg hlt, if_pos rfl, hfull]
          simp only [dataReceived]
          omega
        · rw [hfull, hactual, isLow]
          omega
    · rcases htakes.lacks (by omega) with ⟨rfl, -⟩ | ⟨n, rfl, hnonneg, hlt, hfull, hsum⟩
      · exact ⟨(fun _ h => by cases h), trivial⟩
      · refine ⟨fun _ _ => (if_pos rfl).mpr ?_, (fun _ h => by cases h), trivial⟩
        change connCredit (.sent (windowUpdate 0 n) :: [.sent _]) = _
        rw [connCredit_cons, hbase, granted_windowUpdate hnonneg hlt, if_pos rfl, ← hactual]
        simp only [dataReceived]
        omega
    · rcases mem_append.mp hmem with hmem | hmem
      · exact absurd hmem (localSettings_not_sentUpdate htakes)
      · cases mem_singleton.mp hmem
        rfl

/-! ## Runs -/

structure Conn.Credits (config : H2Config) (c : Conn) : Prop where
  sound : c.Sound
  credited : c.phase ≠ .over → c.streams.Credited config c.log

def ConnManager.initialOnly (config : H2Config) : Rules where
  resets _ _ := True
  goAway _ _ := True
  settings settings := settings = createInitialSettings config

theorem Action.credits (hsize : config.streamWindowSize.toNat < 2 ^ 30)
    (h : Action (initialOnly config) c c') (hc : c.Credits config) :
    c'.Credits config := by
  refine ⟨h.sound hc.sound, fun hphase => ?_⟩
  exact h.credited (fun _ h => h) hsize hc.sound
    (hc.credited fun hover => hphase (h.over hover)) hphase

namespace ConnManager

variable {m : ConnManager}

theorem permits_initialOnly (hset : ∀ settings, .sent (localSettings settings) ∈ m.log →
      settings = createInitialSettings config) (env : Environment) (event : Event) :
    Permits (initialOnly config) m env event :=
  permits_of_settings hset env event

theorem Reached.credits (hconn : config.connWindowSize.toNat < 2 ^ 30 + 65535)
    (hsize : config.streamWindowSize.toNat < 2 ^ 30) (h : Reached config m) :
    Holds (initialOnly config) (Conn.Credits config) m := by
  induction h with
  | start hstart =>
    obtain ⟨m', hstart', hcred⟩ := start_credited hconn
    rw [hstart] at hstart'
    cases hstart'
    exact .inl ⟨(start_streams hstart).1 _, start_sound hstart, fun _ => hcred⟩
  | step hreached hstep hr ih =>
    refine (ih.step (fun _ _ h hc => Action.credits hsize h hc)
      (fun _ hc => ⟨hc.sound.bounded, hc.sound.stored⟩) (fun halive => ?_) hstep).2 hr
    rcases ih with ⟨-, hm⟩ | ⟨hdead, -⟩
    · exact permits_initialOnly (hm.credited (by simp [conn])).settings _ _
    · exact absurd halive.healthy hdead.not_healthy

/-- With windows of this size no arithmetic of the receive windows overflows. They are what the
server may send by the frames so far, never more than the configured size once it has been
announced; every WINDOW_UPDATE restores this size, and none is overdue. -/
theorem recv_flow_control (hconn : config.connWindowSize.toNat < 2 ^ 30 + 65535)
    (hsize : config.streamWindowSize.toNat < 2 ^ 30) :
    (∃ m, start config = .ok m) ∧ ∀ m, Reached config m →
      (∀ env event, m.step env event ≠ .error .recvWindow) ∧
      (m.Healthy → ConnCredited config m.streams.flowControl.recvWindow m.log ∧
        (∀ id stream, m.streams.streamMap.lookup id = some stream →
          StreamCredited config id stream m.log) ∧
        Restored config.connWindowSize.toNat config.streamWindowSize.toNat m.log) := by
  refine ⟨?_, fun m hreached => ⟨fun env event => ?_, fun hhealthy => ?_⟩⟩
  · obtain ⟨m, hstart, -⟩ := start_credited hconn
    exact ⟨m, hstart⟩
  · have hholds := hreached.credits hconn hsize
    refine hholds.step_ne (fun _ _ h hc => Action.credits hsize h hc)
      (fun _ hc => ⟨hc.sound.bounded, hc.sound.stored⟩) (fun halive => ?_) fun c hc =>
      Streams.Credited.not_trap (fun _ h => h) hsize hc.credited
    rcases hholds with ⟨-, hm⟩ | ⟨hdead, -⟩
    · exact permits_initialOnly (hm.credited (by simp [conn])).settings env event
    · exact absurd halive.healthy hdead.not_healthy
  · have hm := (hreached.credits hconn hsize).of_healthy hhealthy
    have hcred := hm.credited (by simp [conn])
    exact ⟨hcred.conn, hcred.stream, hcred.restored⟩

/-- Three octets of a response are received. -/
theorem recv_flow_control_three_octets :
    ∃ m, Reached plainConfig m ∧ m.Healthy ∧ connCredit m.log = 65532 ∧
      m.streams.flowControl.recvWindow.notification.val = connCredit m.log := by
  have hsent := (Reached.start rfl).pending (.respPending [plainRequest [.pending]] false) rfl
  have hheaders := hsent.ready (.output responseHeaders) rfl
  have hdata := hheaders.ready (.output (threeOctets 0)) rfl
  have hhealthy := @recv_flow_control plainConfig (by decide) (by decide)
  exact ⟨_, hdata, ⟨rfl, .inl rfl⟩, rfl, ((hhealthy.2 _ hdata).2 ⟨rfl, .inl rfl⟩).1.credit⟩

def largestConfig : H2Config where
  maxFrameSize := 16384
  maxHeaderListSize := 16384
  headerTableSize := 4096
  enablePush := false
  connWindowSize := 2147483647
  streamWindowSize := 2147483647
  conn_le := by decide
  stream_le := by decide

/-- Twice what the largest connection window has over the default one is no `i32`. -/
theorem largest_window_overflows : start largestConfig = .error .recvWindow := rfl

end ConnManager

end YlongHttp
