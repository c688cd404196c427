import YlongHttp.Verification.Client.Arrivals
import YlongHttp.Verification.Client.RecvFlow

/-! # Receive windows of every size

As long as no arithmetic overflows, the client holds the server to what it may send by the
frames so far, whatever windows it is configured with. -/

namespace YlongHttp

open List Streams ConnManager
open Library

/-! ## Counting -/

namespace RecvWindow

/-- The window counts what the server may send. -/
structure Counts (w : RecvWindow) (credit : ℤ) : Prop where
  actual : 0 ≤ w.actual.val
  nonneg : 0 ≤ w.notification.val
  credit : w.notification.val = credit

end RecvWindow

/-- A WINDOW_UPDATE for `id`, if there is one, and what it gives. -/
inductive Grants (id : StreamId) : Option Frame → ℤ → Prop where
  | none : Grants id none 0
  | some {n : ℤ} : 0 ≤ n → n < 2 ^ 31 → Grants id (some (windowUpdate id n)) n

namespace RecvWindow

variable {w w' : RecvWindow} {credit : ℤ} {id : StreamId} {n : ℕ} {update : Option Frame}

theorem unreleasedSize_counts {size : UInt32} (hw : w.Counts credit)
    (h : w.unreleasedSize = .ok (some size)) :
    (size.toNat : ℤ) = w.actual.val - w.notification.val ∧ 0 < w.actual.val - w.notification.val := by
  obtain ⟨hactual, hnonneg, -⟩ := hw
  have hlt := w.actual.2
  rw [unreleasedSize] at h
  obtain ⟨unreleased, hunreleased, h⟩ := of_bind_ok h
  have hval := checkedI32_ok hunreleased
  split at h
  · cases h
  · rename_i hpos
    obtain ⟨twice, -, h⟩ := of_bind_ok h
    split at h
    · cases h
      rw [unreleased.asU32_toNat, hval]
      omega
    · cases h

theorem checkWindowUpdate_counts (hw : w.Counts credit)
    (h : w.checkWindowUpdate id = .ok (w', update)) :
    ∃ m, Grants id update m ∧ w'.Counts (credit + m) := by
  rw [checkWindowUpdate] at h
  obtain ⟨size, hsize, h⟩ := of_bind_ok h
  cases size with
  | none =>
    cases h
    exact ⟨0, .none, by rwa [add_zero]⟩
  | some size =>
    obtain ⟨hval, hpos⟩ := unreleasedSize_counts hw hsize
    have hlt := w.actual.2
    have hnonneg := hw.nonneg
    have hcredit := hw.credit
    obtain ⟨w₁, hw₁, h⟩ := of_bind_ok h
    cases h
    obtain ⟨i, hi, hw₁⟩ := of_bind_ok hw₁
    cases hw₁
    have hi := checkedI32_ok hi
    rw [asI32_val (UInt32.le_iff_toNat_le.mpr (by change _ ≤ 2147483647; omega)), hval] at hi
    refine ⟨size.toNat, ?_, hw.actual, ?_, ?_⟩
    · have hgrants := @Grants.some id size.toNat (by omega) (by omega)
      rwa [windowUpdate, Int.toNat_natCast, UInt32.ofNat_toNat] at hgrants
    · change 0 ≤ i.val
      omega
    · change i.val = _
      omega

theorem recvData_counts (hw : w.Counts credit) (hn : n < 2 ^ 24)
    (hle : ¬ w.notificationAvailable < UInt32.ofNat n) (h : w.recvData (UInt32.ofNat n) = .ok w') :
    (n : ℤ) ≤ credit ∧ w'.Counts (credit - n) := by
  rw [w.notificationAvailable_lt_iff hn hw.nonneg, hw.credit] at hle
  obtain ⟨hbounds, heq⟩ := recvData_eq (show (n : ℤ) ≤ w.notification.val by rw [hw.credit]; omega)
  rw [h] at heq
  cases heq
  have hcredit := hw.credit
  refine ⟨by omega, hw.actual, ?_, ?_⟩
  · change 0 ≤ w.notification.val - n
    omega
  · change w.notification.val - n = credit - n
    omega

end RecvWindow

section Release

variable {s s' : Streams} {credit : ℤ} {id : StreamId} {n : ℕ} {update : Option Frame}

theorem receives_counts {w w' : RecvWindow} (hw : w.Counts credit) (hn : n < 2 ^ 24)
    (hle : ¬ w.notificationAvailable < UInt32.ofNat n)
    (h : w.Receives id (UInt32.ofNat n) w' update) :
    (n : ℤ) ≤ credit ∧ ∃ m, Grants id update m ∧ w'.Counts (credit - n + m) := by
  cases h with
  | kept hrecv =>
    obtain ⟨hcredit, hcounts⟩ := RecvWindow.recvData_counts hw hn hle hrecv
    exact ⟨hcredit, 0, .none, by rwa [add_zero]⟩
  | checked hrecv hcheck =>
    obtain ⟨hcredit, hcounts⟩ := RecvWindow.recvData_counts hw hn hle hrecv
    exact ⟨hcredit, RecvWindow.checkWindowUpdate_counts hcounts hcheck⟩

theorem releaseConnRecvWindow_counts (hw : s.flowControl.recvWindow.Counts credit)
    (hn : n < 2 ^ 24) (h : s.releaseConnRecvWindow (UInt32.ofNat n) = .ok (s', .ok update)) :
    (n : ℤ) ≤ credit ∧ ∃ recvWindow m,
      s' = { s with flowControl := { s.flowControl with recvWindow } } ∧ Grants 0 update m ∧
        recvWindow.Counts (credit - n + m) := by
  cases h ▸ releaseConnRecvWindow_cases s (UInt32.ofNat n) with
  | @released recvWindow _ hle hrecv =>
    obtain ⟨hcredit, m, hgrants, hcounts⟩ := receives_counts hw hn hle hrecv
    exact ⟨hcredit, recvWindow, m, rfl, hgrants, hcounts⟩

theorem releaseConnRecvWindow_refuses {e : H2Error}
    (hw : s.flowControl.recvWindow.Counts credit) (hn : n < 2 ^ 24)
    (h : s.releaseConnRecvWindow (UInt32.ofNat n) = .ok (s', .error e)) : credit < n := by
  cases h ▸ releaseConnRecvWindow_cases s (UInt32.ofNat n) with
  | refused hlt =>
    have hlt := (s.flowControl.recvWindow.notificationAvailable_lt_iff hn hw.nonneg).mp hlt
    rwa [hw.credit] at hlt

variable {stream : Stream}

theorem releaseStreamRecvWindow_counts (hget : s.streamMap.lookup id = some stream)
    (hw : stream.recvWindow.Counts credit) (hn : n < 2 ^ 24)
    (h : s.releaseStreamRecvWindow id (UInt32.ofNat n) = .ok (s', .ok update)) :
    (n : ℤ) ≤ credit ∧ ∃ recvWindow m, s' = s.setStream id { stream with recvWindow } ∧
      Grants id update m ∧ recvWindow.Counts (credit - n + m) := by
  cases h ▸ releaseStreamRecvWindow_cases s id (UInt32.ofNat n) with
  | unknown hnone => cases hnone.symm.trans hget
  | @released _ recvWindow _ hget' hle hrecv =>
    cases hget.symm.trans hget'
    obtain ⟨hcredit, m, hgrants, hcounts⟩ := receives_counts hw hn hle hrecv
    exact ⟨hcredit, recvWindow, m, rfl, hgrants, hcounts⟩

theorem releaseStreamRecvWindow_refuses {e : H2Error} (hget : s.streamMap.lookup id = some stream)
    (hw : stream.recvWindow.Counts credit) (hn : n < 2 ^ 24)
    (h : s.releaseStreamRecvWindow id (UInt32.ofNat n) = .ok (s', .error e)) : credit < n := by
  cases h ▸ releaseStreamRecvWindow_cases s id (UInt32.ofNat n) with
  | refused hget' hlt =>
    cases hget.symm.trans hget'
    have hlt := (stream.recvWindow.notificationAvailable_lt_iff hn hw.nonneg).mp hlt
    rwa [hw.credit] at hlt

end Release

/-! ## The order of the frames -/

def Frame.MayFollow (frame : Frame) (log : List Entry) : Prop :=
  match frame.payload with
  | .settings _ => frame.flags.isAck = true
  | .headers _ => .opened frame.id ∈ log
  | .windowUpdate _ => frame.id = 0 ∨ .opened frame.id ∈ log
  | _ => True

def InOrder : List Entry → Prop
  | [] => True
  | .opened id :: log => id.toNat % 2 = 1 ∧ .opened id ∉ log ∧ InOrder log
  | .sent frame :: log => frame.MayFollow log ∧ InOrder log
  | .received _ :: log => InOrder log

def ConnManager.firstFrame (config : H2Config) : Frame :=
  localSettings (createInitialSettings config)

variable {config : H2Config}

variable {log : List Entry} {id : StreamId} {n : ℤ} {update : Option Frame}

theorem InOrder.not_localSettings (h : InOrder log) (settings : List Setting) :
    .sent (localSettings settings) ∉ log := by
  induction log with
  | nil => simp
  | cons entry log ih =>
    intro hmem
    rcases mem_cons.mp hmem with rfl | hlater
    · exact absurd (show ({ bits := 0 } : FrameFlags).isAck = true from h.1) (by decide)
    · cases entry with
      | opened id => exact ih h.2.2 hlater
      | sent frame => exact ih h.2 hlater
      | received frame => exact ih h hlater

theorem InOrder.sentUpdate (h : InOrder log) (hupd : Grants id update n)
    (hid : id = 0 ∨ .opened id ∈ log) :
    InOrder (sentUpdate update ++ log) := by
  cases hupd with
  | none => exact h
  | some => exact ⟨hid, h⟩

def Begins (config : H2Config) (log : List Entry) : Prop :=
  ∃ later, log = later ++ [.sent (firstFrame config)] ∧ InOrder later

theorem Begins.settings {log : List Entry} (h : Begins config log) {settings : List Setting}
    (hmem : .sent (localSettings settings) ∈ log) :
    settings = createInitialSettings config := by
  obtain ⟨later, rfl, horder⟩ := h
  rcases mem_append.mp hmem with hmem | hmem
  · exact absurd hmem (horder.not_localSettings settings)
  · cases mem_singleton.mp hmem
    rfl

theorem opened_mem_begins {later : List Entry} :
    .opened id ∈ later ++ [.sent (firstFrame config)] ↔ .opened id ∈ later := by
  simp

/-! ## The windows and the credit -/

theorem connCredit_sentUpdate (log : List Entry) (h : Grants id update n) :
    connCredit (sentUpdate update ++ log) = connCredit log + if id = 0 then n else 0 := by
  cases h with
  | none => simp [sentUpdate]
  | some hnonneg hlt =>
    change connCredit (.sent (windowUpdate id n) :: log) = _
    rw [connCredit_cons, granted_windowUpdate hnonneg hlt]
    simp [Entry.dataReceived]

theorem streamCredit_grants {j : StreamId} (size : ℤ) (log : List Entry) (h : Grants id update n) :
    streamCredit size j (sentUpdate update ++ log) =
      streamCredit size j log + if id = j then n else 0 := by
  cases h with
  | none => simp [sentUpdate]
  | some hnonneg hlt =>
    change streamCredit size j (.sent (windowUpdate id n) :: log) = _
    rw [streamCredit, granted_windowUpdate hnonneg hlt]

/-- The receive windows count what the server may send by the log. -/
structure Streams.Balanced (config : H2Config) (s : Streams) (log : List Entry) :
    Prop where
  size : s.streamRecvWindowSize = config.streamWindowSize
  conn : s.flowControl.recvWindow.Counts (connCredit log)
  stream : ∀ id stream, s.streamMap.lookup id = some stream →
    stream.recvWindow.Counts (streamCredit config.streamWindowSize.toNat id log)
  opened : ∀ id, .opened id ∈ log ↔ (s.streamMap.lookup id).isSome
  begins : Begins config log

namespace Streams.Balanced

variable {s s₁ s' : Streams} {log : List Entry} {frame : Frame} {octets : Bytes}
  {connUpdate update : Option Frame}

theorem same (h : s.Balanced config log) (hsame : s.SameRecv s') : s'.Balanced config log where
  size := hsame.size.trans h.size
  conn := by
    rw [hsame.conn]
    exact h.conn
  stream id stream hget := by
    obtain ⟨stream₀, hget₀, hwin, -⟩ := hsame.each.after hget
    rw [hwin]
    exact h.stream id stream₀ hget₀
  opened id := by
    rw [h.opened id, Option.isSome_iff_exists, Option.isSome_iff_exists]
    constructor
    · rintro ⟨stream, hget⟩
      obtain ⟨stream', hget', -⟩ := hsame.each.before hget
      exact ⟨stream', hget'⟩
    · rintro ⟨stream', hget'⟩
      obtain ⟨stream, hget, -⟩ := hsame.each.after hget'
      exact ⟨stream, hget⟩
  begins := h.begins

theorem logged {entry : Entry} (h : s.Balanced config log) (hent : entry.isUncredited = true)
    (hset : ∀ frame settings, entry = .sent frame → frame.payload = .settings settings →
      frame.flags.isAck = true)
    (hheaders : ∀ frame parts, entry = .sent frame → frame.payload = .headers parts →
      ∃ stream, s.streamMap.lookup frame.id = some stream) :
    s.Balanced config (entry :: log) where
  size := h.size
  conn := by
    rw [connCredit_of_isUncredited hent]
    exact h.conn
  stream id stream hget := by
    rw [streamCredit_of_isUncredited hent]
    exact h.stream id stream hget
  opened id := by
    rw [← h.opened id]
    refine ⟨fun hmem => ?_, mem_cons_of_mem _⟩
    rcases mem_cons.mp hmem with rfl | hmem
    · cases hent
    · exact hmem
  begins := by
    obtain ⟨later, rfl, horder⟩ := h.begins
    refine ⟨entry :: later, rfl, ?_⟩
    cases entry with
    | opened => cases hent
    | received => exact horder
    | sent frame =>
      refine ⟨?_, horder⟩
      rw [Frame.MayFollow]
      cases hpay : frame.payload with
      | settings settings => exact hset frame settings rfl hpay
      | headers parts =>
        obtain ⟨stream, hget⟩ := hheaders frame parts rfl hpay
        refine opened_mem_begins.mp ((h.opened frame.id).mpr ?_)
        rw [hget]
        rfl
      | windowUpdate n =>
        rw [Entry.isUncredited, hpay] at hent
        cases hent
      | _ => trivial

theorem accepted (h : s.Balanced config log) (hnum : s.Numbered) (request : RequestWrapper) :
    (s.accepted request).Balanced config (.opened s.nextStreamId :: log) := by
  have hrest : (s.accepted request).streamRecvWindowSize = s.streamRecvWindowSize ∧
      (s.accepted request).flowControl = s.flowControl := by
    rcases s.accepted_cases request with ⟨-, h⟩ | ⟨-, -, h⟩ <;> rw [h] <;> exact ⟨rfl, rfl⟩
  have hnew : (asI32 s.streamRecvWindowSize).val = config.streamWindowSize.toNat := by
    rw [h.size, asI32_val config.stream_le]
  refine ⟨hrest.1.trans h.size, ?_, fun id stream hget => ?_, fun id => ?_, ?_⟩
  · rw [hrest.2, connCredit_cons]
    simpa [Entry.granted, Entry.dataReceived] using h.conn
  · rw [streamCredit]
    rcases lookup_accepted hget with ⟨rfl, rfl⟩ | ⟨heq, hget⟩
    · rw [if_pos rfl]
      refine ⟨?_, ?_, hnew⟩
      · change 0 ≤ (asI32 s.streamRecvWindowSize).val
        omega
      · change 0 ≤ (asI32 s.streamRecvWindowSize).val
        omega
    · rw [if_neg fun h => heq h.symm]
      exact h.stream id stream hget
  · rw [s.streamMap_accepted]
    by_cases heq : id = s.nextStreamId
    · subst heq
      simp [AList.lookup_insert]
    · rw [AList.lookup_insert_ne heq, ← h.opened id]
      simp [heq]
  · obtain ⟨later, rfl, horder⟩ := h.begins
    refine ⟨.opened s.nextStreamId :: later, rfl, hnum.next_odd, fun hmem => ?_, horder⟩
    have hsome := (h.opened s.nextStreamId).mp (opened_mem_begins.mpr hmem)
    rw [hnum.lookup_next] at hsome
    cases hsome

theorem chargesConn (h : s.Balanced config log) (hpay : frame.payload = .data octets)
    (hlen : octets.length < 2 ^ 24)
    (hconn : s.releaseConnRecvWindow (UInt32.ofNat octets.length) = .ok (s₁, .ok connUpdate)) :
    ∃ recvWindow m, s₁ = { s with flowControl := { s.flowControl with recvWindow } } ∧
      Grants 0 connUpdate m ∧
      recvWindow.Counts (connCredit (sentUpdate connUpdate ++ .received frame :: log)) := by
  obtain ⟨-, recvWindow, m, rfl, hgrants, hcounts⟩ := releaseConnRecvWindow_counts h.conn hlen hconn
  refine ⟨recvWindow, m, rfl, hgrants, ?_⟩
  have hrecv : (Entry.received frame).dataReceived = octets.length := by
    rw [Entry.dataReceived, hpay]
  rw [connCredit_sentUpdate _ hgrants, connCredit_cons, hrecv, if_pos rfl]
  simpa [Entry.granted] using hcounts

theorem streamCredit_after {connGrant grant : ℤ} {j : StreamId} (size : ℤ) (hj : j ≠ 0)
    (hpay : frame.payload = .data octets) (hconn : Grants 0 connUpdate connGrant)
    (hstr : Grants frame.id update grant) :
    streamCredit size j (sentUpdate update ++ (sentUpdate connUpdate ++ .received frame :: log)) =
      if frame.id = j then
        (if (octets.length : ℤ) ≤ streamCredit size j log then
          streamCredit size j log - octets.length else streamCredit size j log) + grant
      else streamCredit size j log := by
  rw [streamCredit_grants _ _ hstr, streamCredit_grants _ _ hconn, if_neg fun h => hj h.symm,
    streamCredit_received _ _ _ hpay]
  by_cases hid : frame.id = j
  · simp [hid]
  · simp [hid]

theorem opened_after {connGrant grant : ℤ} {id : StreamId} (hconn : Grants 0 connUpdate connGrant)
    (hstr : Grants frame.id update grant) :
    .opened id ∈ sentUpdate update ++ (sentUpdate connUpdate ++ .received frame :: log) ↔
      .opened id ∈ log := by
  cases hconn <;> cases hstr <;> simp [sentUpdate]

theorem begins_after {connGrant grant : ℤ} (h : Begins config log)
    (hconn : Grants 0 connUpdate connGrant) (hstr : Grants frame.id update grant)
    (hid : update = none ∨ .opened frame.id ∈ log) :
    Begins config (sentUpdate update ++ (sentUpdate connUpdate ++ .received frame :: log)) := by
  obtain ⟨later, rfl, horder⟩ := h
  refine ⟨sentUpdate update ++ (sentUpdate connUpdate ++ .received frame :: later), by simp, ?_⟩
  have hrecv : InOrder (.received frame :: later) := horder
  have hconnOrder := hrecv.sentUpdate hconn (.inl rfl)
  rcases hid with rfl | hid
  · exact hconnOrder
  · refine hconnOrder.sentUpdate hstr (.inr ?_)
    rw [opened_mem_begins] at hid
    cases hconn <;> simp [sentUpdate, hid]

theorem dataRefused {e : H2Error} (h : s.Balanced config log) (hnum : s.Numbered)
    (hpay : frame.payload = .data octets) (hlen : octets.length < 2 ^ 24)
    (hconn : s.releaseConnRecvWindow (UInt32.ofNat octets.length) = .ok (s₁, .ok connUpdate))
    (hstr : s₁.releaseStreamRecvWindow frame.id (UInt32.ofNat octets.length) = .ok (s₁, .error e)) :
    s₁.Balanced config (sentUpdate connUpdate ++ .received frame :: log) := by
  obtain ⟨recvWindow, m, rfl, hgrants, hcounts⟩ := h.chargesConn hpay hlen hconn
  refine ⟨h.size, hcounts, fun j stream hget => ?_, fun id => ?_, ?_⟩
  · have hcredit : streamCredit config.streamWindowSize.toNat j
        (sentUpdate connUpdate ++ .received frame :: log) = _ :=
      @streamCredit_after log frame octets connUpdate none m 0 j
        config.streamWindowSize.toNat (hnum.ne_zero hget) hpay hgrants .none
    have hstreamCounts := h.stream j stream hget
    rw [hcredit]
    split
    · rename_i hid
      subst hid
      have hlt := releaseStreamRecvWindow_refuses hget hstreamCounts hlen hstr
      rw [if_neg (by omega), add_zero]
      exact hstreamCounts
    · exact hstreamCounts
  · rw [← h.opened id]
    exact @opened_after log frame connUpdate none m 0 id hgrants .none
  · exact @begins_after config log frame connUpdate none m 0 h.begins hgrants .none (.inl rfl)

theorem dataAccepted (h : s.Balanced config log) (hnum : s.Numbered)
    (hpay : frame.payload = .data octets) (hlen : octets.length < 2 ^ 24)
    (hconn : s.releaseConnRecvWindow (UInt32.ofNat octets.length) = .ok (s₁, .ok connUpdate))
    (hstr : s₁.releaseStreamRecvWindow frame.id (UInt32.ofNat octets.length) =
      .ok (s', .ok update)) :
    s'.Balanced config (sentUpdate update ++ (sentUpdate connUpdate ++ .received frame :: log)) := by
  obtain ⟨recvWindow, connGrant, rfl, hgrants, hcounts⟩ := h.chargesConn hpay hlen hconn
  cases hget : s.streamMap.lookup frame.id with
  | none =>
    have hnone : ({ s with flowControl := { s.flowControl with
        recvWindow } } : Streams).streamMap.lookup frame.id = none := hget
    rw [releaseStreamRecvWindow] at hstr
    simp only [hnone] at hstr
    cases hstr
    refine ⟨h.size, hcounts, fun j stream hget' => ?_, fun id => ?_,
      begins_after h.begins hgrants .none (.inl rfl)⟩
    · have hne : frame.id ≠ j := by
        rintro rfl
        rw [show s.streamMap.lookup frame.id = some stream from hget'] at hget
        cases hget
      rw [streamCredit_after _ (hnum.ne_zero hget') hpay hgrants .none, if_neg hne]
      exact h.stream j stream hget'
    · rw [← h.opened id]
      exact opened_after hgrants .none
  | some stream =>
    have hid := hnum.ne_zero hget
    obtain ⟨hle, window, grant, rfl, hgrants', hcounts'⟩ := releaseStreamRecvWindow_counts
      (show ({ s with flowControl := { s.flowControl with
        recvWindow } } : Streams).streamMap.lookup frame.id = some stream from hget)
      (h.stream frame.id stream hget) hlen hstr
    refine ⟨h.size, ?_, fun j stream' hget' => ?_, fun id => ?_,
      begins_after h.begins hgrants hgrants' (.inr ?_)⟩
    · rw [connCredit_sentUpdate _ hgrants', if_neg hid, add_zero]
      exact hcounts
    · change (s.setStream frame.id _).streamMap.lookup j = _ at hget'
      by_cases heq : j = frame.id
      · subst heq
        obtain rfl := eq_of_lookup_setStream hget hget'
        rw [streamCredit_after _ hid hpay hgrants hgrants', if_pos rfl, if_pos hle]
        exact hcounts'
      · rw [lookup_setStream_of_ne _ _ _ heq] at hget'
        rw [streamCredit_after _ (hnum.ne_zero hget') hpay hgrants hgrants',
          if_neg fun h => heq h.symm]
        exact h.stream j stream' hget'
    · rw [opened_after hgrants hgrants', h.opened id]
      change _ ↔ ((s.setStream frame.id _).streamMap.lookup id).isSome = true
      by_cases heq : id = frame.id
      · subst heq
        rw [lookup_setStream_self, hget]
        simp
      · rw [lookup_setStream_of_ne _ _ _ heq]
    · rw [h.opened, hget]
      rfl

end Streams.Balanced

/-! ## Runs -/

/-- The receive windows of a connection that is not over count what the server may send. -/
structure Conn.Balances (config : H2Config) (c : Conn) : Prop where
  sound : c.Sound
  balanced : c.phase ≠ .over → c.streams.Balanced config c.log

theorem Action.balances {c c' : Conn} (h : Action (initialOnly config) c c')
    (hc : c.Balances config) : c'.Balances config := by
  refine ⟨h.sound hc.sound, fun hphase => ?_⟩
  have hbal := hc.balanced fun hover => hphase (h.over hover)
  cases h.recvEffect hc.sound with
  | same hsame hlog =>
    rw [hlog]
    exact hbal.same hsame
  | logged entry hsame hlog huncredited _ hset hheaders =>
    rw [hlog]
    refine (hbal.same hsame).logged huncredited hset fun frame parts heq hpay => ?_
    obtain ⟨stream, hget⟩ := hheaders frame parts heq hpay
    obtain ⟨stream', hget', -⟩ := hsame.each.before hget
    exact ⟨stream', hget'⟩
  | opened request _ hstreams hlog =>
    rw [hstreams, hlog]
    exact hbal.accepted hc.sound.numbered request
  | dataAccepted hpay hlen _ hconn hstr hlog =>
    rw [hlog]
    exact hbal.dataAccepted hc.sound.numbered hpay hlen hconn hstr
  | dataRefused hpay hlen hconn hstr hlog =>
    rw [hlog]
    exact hbal.dataRefused hc.sound.numbered hpay hlen hconn hstr
  | acknowledged hset hack hlog =>
    rw [show _ = _ from hset, recvAcknowledged_initial hbal.size] at hack
    rw [← Except.ok.inj hack, hlog]
    exact hbal
  | stopped hover => exact absurd hover hphase

variable {m : ConnManager}

theorem start_balanced (h : start config = .ok m) :
    m.streams.Balanced config m.log := by
  obtain ⟨w, hactual, hnote, hsetup⟩ := setupRecvWindow_eq config.connWindowSize config.conn_le
  have hw : w.Counts 65535 := ⟨by omega, by omega, hnote⟩
  rw [start, hsetup] at h
  obtain ⟨flow, hflow, h⟩ := of_bind_ok h
  cases hflow
  obtain ⟨⟨streams, update⟩, hrelease, h⟩ := of_bind_ok h
  have hbase : connCredit [.sent (firstFrame config)] = 65535 := rfl
  cases update with
  | error e =>
    have hlt := @releaseConnRecvWindow_refuses _ _ _ 0 e hw (by decide) hrelease
    omega
  | ok update =>
    obtain ⟨-, recvWindow, n, rfl, hgrants, hcounts⟩ :=
      @releaseConnRecvWindow_counts _ _ _ 0 update hw (by decide) hrelease
    have hlog : m.log = sentUpdate update ++ [.sent (firstFrame config)] := by
      cases hgrants <;> cases h <;> rfl
    have hstreams : m.streams = { new config.streamWindowSize
        defaultWindowSize (.new defaultWindowSize
          defaultWindowSize) with
        flowControl := { FlowControl.new defaultWindowSize
          defaultWindowSize with recvWindow } } := by
      cases h
      rfl
    rw [hstreams, hlog]
    refine ⟨rfl, ?_, (fun _ _ h => by cases h), fun id => ?_, ?_⟩
    · rw [connCredit_sentUpdate _ hgrants, hbase, if_pos rfl]
      simpa using hcounts
    · cases hgrants <;> simp [sentUpdate, new]
    · cases hgrants with
      | none => exact ⟨[], rfl, trivial⟩
      | some => exact ⟨[_], rfl, .inl rfl, trivial⟩

namespace ConnManager

theorem Reached.balances (h : Reached config m) :
    Holds (initialOnly config) (Conn.Balances config) m := by
  induction h with
  | start hstart =>
    exact .inl ⟨(start_streams hstart).1 _, start_sound hstart, fun _ => start_balanced hstart⟩
  | step hreached hstep hr ih =>
    refine (ih.step (fun _ _ h hc => h.balances hc)
      (fun _ hc => ⟨hc.sound.bounded, hc.sound.stored⟩) (fun halive => ?_) hstep).2 hr
    rcases ih with ⟨-, hm⟩ | ⟨hdead, -⟩
    · have hbegins := (hm.balanced (by simp [conn])).begins
      exact permits_initialOnly (fun _ => hbegins.settings) _ _
    · exact absurd halive.healthy hdead.not_healthy

theorem Reached.balanced (h : Reached config m) (hhealthy : m.Healthy) :
    m.streams.Balanced config m.log :=
  (h.balances.of_healthy hhealthy).balanced (by simp [conn])

end ConnManager

end YlongHttp
