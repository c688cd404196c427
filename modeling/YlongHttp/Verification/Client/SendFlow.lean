import YlongHttp.Verification.Client.Ids

/-! # Flow control of what the client sends -/

namespace YlongHttp

open List Option Entry ConnManager Streams
open Library

variable {R : Rules}
variable {id : StreamId} {s s' : Streams} {log : List Entry} {update : Option Frame} {c c' : Conn}
  {config : H2Config} {m : ConnManager}

/-! ## Windows, from what has happened -/

def Entry.increment (id : StreamId) : Entry → ℕ
  | .received { id := id', payload := .windowUpdate n, .. } => if id' = id then n.toNat else 0
  | _ => 0

def Entry.dataSent : Entry → ℕ
  | .sent { payload := .data octets, .. } => octets.length
  | _ => 0

def Entry.dataSentOn (id : StreamId) : Entry → ℕ
  | .sent { id := id', payload := .data octets, .. } => if id' = id then octets.length else 0
  | _ => 0

def initialSize : List Entry → UInt32
  | [] => defaultWindowSize
  | .received { flags, payload := .settings settings, .. } :: log =>
    if flags.isAck then initialSize log else announcedSize settings (initialSize log)
  | _ :: log => initialSize log

def since (id : StreamId) (log : List Entry) : List Entry :=
  log.takeWhile fun entry => entry ≠ .opened id

def connWindow (log : List Entry) : ℤ :=
  65535 + (log.map (increment 0)).sum - (log.map dataSent).sum

def streamWindow (id : StreamId) (log : List Entry) : ℤ :=
  (initialSize log).toNat + ((since id log).map (increment id)).sum -
    ((since id log).map (dataSentOn id)).sum

def Entry.isNeutral : Entry → Bool
  | .opened _ => false
  | .received { flags, payload, .. } =>
    match payload with
    | .windowUpdate _ => false
    | .settings _ => flags.isAck
    | _ => true
  | .sent { payload, .. } =>
    match payload with
    | .data _ => false
    | _ => true

theorem since_cons {entry : Entry} (h : entry ≠ .opened id) (log : List Entry) :
    since id (entry :: log) = entry :: since id log := by
  rw [since, takeWhile_cons_of_pos (by simpa using h)]
  rfl

theorem since_opened (id : StreamId) (log : List Entry) : since id (.opened id :: log) = [] := by
  rw [since, takeWhile_cons_of_neg (by simp)]

@[simp] theorem since_received (id : StreamId) (frame : Frame) (log : List Entry) :
    since id (.received frame :: log) = .received frame :: since id log :=
  since_cons (by simp) log

@[simp] theorem since_sent (id : StreamId) (frame : Frame) (log : List Entry) :
    since id (.sent frame :: log) = .sent frame :: since id log :=
  since_cons (by simp) log

section Neutral

variable {entry : Entry} (h : entry.isNeutral = true)

include h

theorem Entry.isNeutral.ne_opened (id : StreamId) : entry ≠ .opened id := by
  rintro rfl
  cases h

theorem Entry.isNeutral.increment_eq (id : StreamId) : entry.increment id = 0 := by
  rcases entry with _ | ⟨_, _, payload⟩ | _
  · rfl
  · cases payload <;> first | rfl | cases h
  · rfl

theorem Entry.isNeutral.dataSent_eq : entry.dataSent = 0 := by
  rcases entry with _ | _ | ⟨_, _, payload⟩
  · rfl
  · rfl
  · cases payload <;> first | rfl | cases h

theorem Entry.isNeutral.dataSentOn_eq (id : StreamId) : entry.dataSentOn id = 0 := by
  rcases entry with _ | _ | ⟨_, _, payload⟩
  · rfl
  · rfl
  · cases payload <;> first | rfl | cases h

theorem Entry.isNeutral.initialSize_cons (log : List Entry) :
    initialSize (entry :: log) = initialSize log := by
  rcases entry with _ | ⟨_, flags, payload⟩ | _
  · rfl
  · cases payload with
    | settings settings =>
      have hack : flags.isAck = true := h
      rw [initialSize, if_pos hack]
    | _ => rfl
  · rfl

theorem connWindow_neutral (log : List Entry) : connWindow (entry :: log) = connWindow log := by
  simp [connWindow, isNeutral.increment_eq h, isNeutral.dataSent_eq h]

theorem streamWindow_neutral (id : StreamId) (log : List Entry) :
    streamWindow id (entry :: log) = streamWindow id log := by
  simp [streamWindow, since_cons (isNeutral.ne_opened h id),
    isNeutral.initialSize_cons h, isNeutral.increment_eq h, isNeutral.dataSentOn_eq h]

end Neutral

theorem connWindow_opened (id : StreamId) (log : List Entry) :
    connWindow (.opened id :: log) = connWindow log := by
  simp [connWindow, increment, dataSent]

theorem streamWindow_opened_self (id : StreamId) (log : List Entry) :
    streamWindow id (.opened id :: log) = (initialSize log).toNat := by
  simp [streamWindow, since_opened, initialSize]

theorem streamWindow_opened_of_ne {id' : StreamId} (h : id ≠ id') (log : List Entry) :
    streamWindow id' (.opened id :: log) = streamWindow id' log := by
  simp [streamWindow, since_cons (show opened id ≠ .opened id' by simpa using h), initialSize,
    increment, dataSentOn]

section Update

variable {frame : Frame} {n : UInt32} (h : frame.payload = .windowUpdate n)

include h

theorem connWindow_update (log : List Entry) :
    connWindow (.received frame :: log) =
      connWindow log + if frame.id = 0 then (n.toNat : ℤ) else 0 := by
  obtain ⟨id, flags, payload⟩ := frame
  cases h
  simp only [connWindow, map_cons, sum_cons, increment, dataSent]
  split <;> push_cast <;> omega

theorem initialSize_update (log : List Entry) :
    initialSize (.received frame :: log) = initialSize log := by
  obtain ⟨id, flags, payload⟩ := frame
  cases h
  rfl

theorem streamWindow_update (id : StreamId) (log : List Entry) :
    streamWindow id (.received frame :: log) =
      streamWindow id log + if frame.id = id then (n.toNat : ℤ) else 0 := by
  obtain ⟨id', flags, payload⟩ := frame
  cases h
  simp only [streamWindow, since_received, initialSize, map_cons, sum_cons, increment, dataSentOn]
  split <;> push_cast <;> omega

end Update

section Data

variable {frame : Frame} {octets : Bytes} (h : frame.payload = .data octets)

include h

theorem connWindow_data (log : List Entry) :
    connWindow (.sent frame :: log) = connWindow log - octets.length := by
  obtain ⟨id, flags, payload⟩ := frame
  cases h
  simp only [connWindow, map_cons, sum_cons, increment, dataSent]
  push_cast
  omega

theorem streamWindow_data (id : StreamId) (log : List Entry) :
    streamWindow id (.sent frame :: log) =
      streamWindow id log - if frame.id = id then (octets.length : ℤ) else 0 := by
  obtain ⟨id', flags, payload⟩ := frame
  cases h
  simp only [streamWindow, since_sent, initialSize, map_cons, sum_cons, increment, dataSentOn]
  split <;> push_cast <;> omega

end Data

section Settings

variable {frame : Frame} {settings : List Setting} (h : frame.payload = .settings settings)
  (hack : frame.flags.isAck = false)

include h hack

theorem initialSize_settings (log : List Entry) :
    initialSize (.received frame :: log) = announcedSize settings (initialSize log) := by
  obtain ⟨id, flags, payload⟩ := frame
  cases h
  rw [initialSize, if_neg (by simpa using hack)]

theorem connWindow_settings (log : List Entry) :
    connWindow (.received frame :: log) = connWindow log := by
  obtain ⟨id, flags, payload⟩ := frame
  cases h
  simp [connWindow, increment, dataSent]

theorem streamWindow_settings (id : StreamId) (log : List Entry) :
    streamWindow id (.received frame :: log) = streamWindow id log +
      ((announcedSize settings (initialSize log)).toNat - (initialSize log).toNat : ℤ) := by
  have hsize := initialSize_settings h hack log
  obtain ⟨id', flags, payload⟩ := frame
  cases h
  simp only [streamWindow, hsize, since_received, map_cons, sum_cons, increment, dataSentOn]
  omega

end Settings

/-! ## The windows of the client -/

/-- The send windows are those of what has happened, and no window is further below the initial
size than this size can be. -/
structure Balanced (s : Streams) (log : List Entry) : Prop where
  initial : s.streamSendWindowSize = initialSize log
  conn : s.flowControl.sendWindow.size.val = connWindow log
  stream : ∀ id stream, s.streamMap.lookup id = some stream →
    stream.sendWindow.size.val = streamWindow id log
  floor : ∀ id stream, s.streamMap.lookup id = some stream →
    -(2 ^ 31 - 1) ≤ stream.sendWindow.size.val - s.streamSendWindowSize.toNat

theorem Balanced.same (h : Balanced s log) (hsame : SameWindows s s') : Balanced s' log := by
  refine ⟨hsame.initial.trans h.initial, by rw [hsame.conn, h.conn],
    fun id stream hget => ?_, fun id stream hget => ?_⟩
  · obtain ⟨stream₀, hget₀, hwin⟩ := hsame.each.after hget
    rw [hwin]
    exact h.stream id stream₀ hget₀
  · obtain ⟨stream₀, hget₀, hwin⟩ := hsame.each.after hget
    rw [hwin, hsame.initial]
    exact h.floor id stream₀ hget₀

theorem Balanced.neutral {s : Streams} {log entries : List Entry} (h : Balanced s log)
    (hneutral : ∀ entry ∈ entries, entry.isNeutral = true) : Balanced s (entries ++ log) := by
  induction entries with
  | nil => exact h
  | cons entry entries ih =>
    have ih := ih fun e he => hneutral e (.tail entry he)
    have hent := hneutral entry (.head _)
    rw [cons_append]
    refine ⟨?_, ?_, fun id stream hget => ?_, ih.floor⟩
    · rw [ih.initial, isNeutral.initialSize_cons hent]
    · rw [ih.conn, connWindow_neutral hent]
    · rw [ih.stream id stream hget, streamWindow_neutral hent]

theorem Balanced.opened {s : Streams} {log : List Entry} (h : Balanced s log)
    (hbdd : s.Bounded) (request : RequestWrapper) :
    Balanced (s.accepted request) (.opened s.nextStreamId :: log) := by
  have hrest : (s.accepted request).streamSendWindowSize = s.streamSendWindowSize ∧
      (s.accepted request).flowControl = s.flowControl := by
    rcases s.accepted_cases request with ⟨-, h⟩ | ⟨-, -, h⟩ <;> rw [h] <;> exact ⟨rfl, rfl⟩
  have hsize : ((asI32 s.streamSendWindowSize).val : ℤ) = s.streamSendWindowSize.toNat :=
    asI32_val hbdd
  have hcases : ∀ id stream, (s.accepted request).streamMap.lookup id = some stream →
      (id = s.nextStreamId ∧ stream.sendWindow.size.val = s.streamSendWindowSize.toNat) ∨
        (s.nextStreamId ≠ id ∧ s.streamMap.lookup id = some stream) := by
    intro id stream hget
    rcases lookup_accepted hget with ⟨rfl, rfl⟩ | ⟨heq, hget⟩
    · exact .inl ⟨rfl, hsize⟩
    · exact .inr ⟨Ne.symm heq, hget⟩
  refine ⟨hrest.1.trans h.initial, ?_, fun id stream hget => ?_, fun id stream hget => ?_⟩
  · rw [hrest.2, h.conn, connWindow_opened]
  · obtain ⟨rfl, hwin⟩ | ⟨hne, hget⟩ := hcases id stream hget
    · rw [hwin, streamWindow_opened_self, h.initial]
    · rw [streamWindow_opened_of_ne hne]
      exact h.stream id stream hget
  · rw [hrest.1]
    obtain ⟨rfl, hwin⟩ | ⟨hne, hget⟩ := hcases id stream hget
    · rw [hwin]
      omega
    · exact h.floor id stream hget

theorem Balanced.data {s : Streams} {log : List Entry} {id : StreamId} {stream : Stream}
    {data : BodyDataRef} {octets : Bytes} {sendWindow connWindow : SendWindow} {flags : FrameFlags}
    (h : Balanced s log) (hbdd : s.Bounded) (hget : s.streamMap.lookup id = some stream)
    (hfits : (octets.length : ℤ) ≤ stream.sendWindow.size.val)
    (hstr : sendWindow.size.val = stream.sendWindow.size.val - octets.length)
    (hconn : connWindow.size.val = s.flowControl.sendWindow.size.val - octets.length) :
    Balanced (s.charged id stream data sendWindow connWindow)
      (.sent { id, flags, payload := .data octets } :: log) := by
  have hcases : ∀ j stream', (s.charged id stream data sendWindow connWindow).streamMap.lookup j =
      some stream' → (j = id ∧ stream'.sendWindow = sendWindow) ∨
        (id ≠ j ∧ s.streamMap.lookup j = some stream') := by
    intro j stream' hget'
    change (s.setStream id _).streamMap.lookup j = _ at hget'
    by_cases hj : j = id
    · subst hj
      obtain rfl := eq_of_lookup_setStream hget hget'
      exact .inl ⟨rfl, rfl⟩
    · rw [lookup_setStream_of_ne _ _ _ hj] at hget'
      exact .inr ⟨Ne.symm hj, hget'⟩
  refine ⟨h.initial, ?_, fun j stream' hget' => ?_, fun j stream' hget' => ?_⟩
  · rw [connWindow_data rfl, ← h.conn]
    exact hconn
  · rw [streamWindow_data rfl]
    obtain ⟨rfl, hwin⟩ | ⟨hne, hget'⟩ := hcases j stream' hget'
    · rw [hwin, hstr, if_pos rfl, h.stream j stream hget]
    · rw [if_neg hne, sub_zero]
      exact h.stream j stream' hget'
  · obtain ⟨rfl, hwin⟩ | ⟨hne, hget'⟩ := hcases j stream' hget'
    · -- After DATA the window is not negative.
      have hsize : s.streamSendWindowSize.toNat ≤ 2147483647 := UInt32.le_iff_toNat_le.mp hbdd
      change _ ≤ _ - (s.streamSendWindowSize.toNat : ℤ)
      rw [hwin]
      omega
    · exact h.floor j stream' hget'

theorem Balanced.finished {s : Streams} {log : List Entry} {id : StreamId} {flags : FrameFlags}
    (h : Balanced s log) : Balanced s (.sent { id, flags, payload := .data [] } :: log) := by
  refine ⟨h.initial, ?_, fun j stream hget => ?_, h.floor⟩
  · rw [connWindow_data rfl]
    simpa using h.conn
  · rw [streamWindow_data rfl]
    simpa using h.stream j stream hget

variable {frame : Frame} {settings : List Setting} {n : UInt32}

theorem Balanced.resized (h : Balanced s log) (hpay : frame.payload = .settings settings)
    (hack : frame.flags.isAck = false) (hresized : Resized s s')
    (hsize : s'.streamSendWindowSize = announcedSize settings s.streamSendWindowSize) :
    Balanced s' (.received frame :: log) := by
  refine ⟨?_, ?_, fun id stream hget => ?_, fun id stream hget => ?_⟩
  · rw [hsize, initialSize_settings hpay hack, h.initial]
  · rw [connWindow_settings hpay hack, hresized.rest]
    exact h.conn
  · obtain ⟨stream₀, hget₀, w, rfl, hw⟩ := hresized.each.after hget
    rw [streamWindow_settings hpay hack, ← h.stream id stream₀ hget₀, ← h.initial, ← hsize]
    exact hw
  · obtain ⟨stream₀, hget₀, w, rfl, hw⟩ := hresized.each.after hget
    have hfloor := h.floor id stream₀ hget₀
    dsimp only
    omega

theorem Balanced.enlarged (h : Balanced s log) (hpay : frame.payload = .windowUpdate n)
    (hid : frame.id ≠ 0) (henlarged : Enlarged frame.id n s s') :
    Balanced s' (.received frame :: log) := by
  have hrest : s'.streamSendWindowSize = s.streamSendWindowSize := by rw [henlarged.rest]
  have hwin : ∀ id stream, s'.streamMap.lookup id = some stream → ∃ stream₀,
      s.streamMap.lookup id = some stream₀ ∧ stream.sendWindow.size.val =
        stream₀.sendWindow.size.val + if frame.id = id then (n.toNat : ℤ) else 0 := by
    intro id stream hget
    obtain ⟨stream₀, hget₀, hrel⟩ := henlarged.each.after hget
    refine ⟨stream₀, hget₀, ?_⟩
    by_cases hj : id = frame.id
    · rw [if_pos hj] at hrel
      obtain ⟨w, rfl, hw⟩ := hrel
      rw [if_pos hj.symm]
      exact hw
    · rw [if_neg hj] at hrel
      rw [if_neg (Ne.symm hj), hrel, add_zero]
  refine ⟨by rw [hrest, h.initial, initialSize_update hpay], ?_, fun id stream hget => ?_,
    fun id stream hget => ?_⟩
  · rw [connWindow_update hpay, if_neg hid, add_zero, henlarged.rest]
    exact h.conn
  · obtain ⟨stream₀, hget₀, hw⟩ := hwin id stream hget
    rw [streamWindow_update hpay, hw, h.stream id stream₀ hget₀]
  · obtain ⟨stream₀, hget₀, hw⟩ := hwin id stream hget
    have hfloor := h.floor id stream₀ hget₀
    rw [hrest, hw]
    split <;> omega

theorem Balanced.connUpdate {s : Streams} {log : List Entry} {frame : Frame} {n : UInt32}
    {flowControl : FlowControl} (h : Balanced s log) (hnum : s.Numbered)
    (hpay : frame.payload = .windowUpdate n) (hid : frame.id = 0)
    (hn : n ≤ maxFlowControlWindow) (hflow : s.flowControl.increaseSendSize n = .ok flowControl) :
    Balanced { s with flowControl }.reassignConnSendWindow (.received frame :: log) := by
  rw [FlowControl.increaseSendSize] at hflow
  split at hflow
  · cases hflow
  · rename_i w hw
    cases hflow
    refine ⟨by rw [initialSize_update hpay]; exact h.initial, ?_, fun id stream hget => ?_, h.floor⟩
    · rw [connWindow_update hpay, if_pos hid, ← h.conn]
      exact SendWindow.increaseSize_ok hn hw
    · have hodd := hnum.odd id stream hget
      have hne : frame.id ≠ id := by
        rintro rfl
        rw [hid] at hodd
        cases hodd
      rw [streamWindow_update hpay, if_neg hne, add_zero]
      exact h.stream id stream hget

theorem Entry.isNeutral_of_deferred (h : frame.isDeferred = true) :
    (received frame).isNeutral = true := by
  obtain ⟨id, flags, payload⟩ := frame
  cases payload <;> first | rfl | cases h | exact h

theorem Entry.isNeutral_of_plain (h : frame.isPlain = true) :
    (sent frame).isNeutral = true := by
  obtain ⟨id, flags, payload⟩ := frame
  cases payload <;> first | rfl | cases h

theorem isNeutral_sentUpdate (h : ∀ frame, update = some frame → frame.isPlain = true) :
    ∀ entry ∈ sentUpdate update, entry.isNeutral = true :=
  forall_sentUpdate fun frame hframe => isNeutral_of_plain (h frame hframe)

theorem Action.balanced (h : Action R c c') (hsound : c.Sound) (hc : Balanced c.streams c.log)
    (hphase : c'.phase ≠ .over) : Balanced c'.streams c'.log := by
  have hneutral : ∀ {s log} {entry : Entry}, Balanced s log → entry.isNeutral = true →
      Balanced s (entry :: log) := fun hs hent =>
    @Balanced.neutral _ _ [_] hs (by simpa using hent)
  have hdata : ∀ {frame : Frame} {octets : Bytes}, frame.payload = .data octets →
      (Entry.received frame).isNeutral = true := by
    rintro ⟨id, flags, payload⟩ octets rfl
    rfl
  have hreset : ∀ {frame : Frame} {code : UInt32}, frame.payload = .rstStream code →
      (Entry.received frame).isNeutral = true := by
    rintro ⟨id, flags, payload⟩ code rfl
    rfl
  cases h with
  | opened request hid => exact hc.opened hsound.bounded request
  | @headers s log away id stream header state hget hhdr _ _ =>
    obtain ⟨-, parts, hparts⟩ := hsound.stored id stream header hget hhdr
    refine hneutral (hc.same (.moved _ _ hget rfl)) ?_
    obtain ⟨id', flags, payload⟩ := header
    cases hparts
    rfl
  | data hget _ _ _ _ _ hstr hconn hwin hconnWindow =>
    exact hc.data hsound.bounded hget hstr hwin hconnWindow
  | finished hget => exact hc.finished.same (.moved _ _ hget rfl)
  | @waited s log away id stream len data hget _ _ =>
    have hset : SameWindows s (s.setStream id { stream with data }) := .setStream hget rfl
    exact hc.same ⟨rfl, rfl, hset.each⟩
  | failed hget => exact hneutral (hc.same (.ended _ _ hget rfl)) rfl
  | frameReceived e _ hget => exact hc.same (.moved _ _ hget rfl)
  | remoteReset _ hpay hget => exact hneutral (hc.same (.ended _ _ hget rfl)) (hreset hpay)
  | resetIgnored hpay => exact hneutral hc (hreset hpay)
  | localReset told _ hget =>
    have hended := hc.same (.ended _ .localRst hget rfl)
    cases told with
    | false => exact hended
    | true => exact hneutral hended rfl
  | localResetLate hget => exact hc.same (.setStream hget rfl)
  | settings hpay hack hbound hsettings =>
    obtain ⟨hresized, -, hsize⟩ := recvSettings_resized hbound hsound.bounded hsettings
    exact hc.resized hpay hack hresized hsize
  | connUpdate hpay hid hbound hflow => exact hc.connUpdate hsound.numbered hpay hid hbound hflow
  | streamUpdate hpay hid hbound hreassign =>
    exact hc.enlarged hpay hid (reassignStreamSendWindow_enlarged hbound hreassign)
  | dataAccepted hpay _ _ hconn hstr =>
    have hsame := ((releaseConnRecvWindow_recvOnly hconn).trans
      (releaseStreamRecvWindow_recvOnly hstr)).sameWindows
    have hrecv := hneutral (hc.same hsame) (hdata hpay)
    exact (hrecv.neutral
      (isNeutral_sentUpdate (releaseConnRecvWindow_plain hconn))).neutral
      (isNeutral_sentUpdate (releaseStreamRecvWindow_plain hstr))
  | dataRefused hpay _ hconn =>
    have hrecv := hneutral (hc.same (releaseConnRecvWindow_recvOnly hconn).sameWindows)
      (hdata hpay)
    exact hrecv.neutral
      (isNeutral_sentUpdate (releaseConnRecvWindow_plain hconn))
  | acknowledged _ hacknowledged =>
    exact hc.same (recvAcknowledged_recvOnly hacknowledged).sameWindows
  | wentAway _ hunset =>
    have hunset := getUnsetStreams_unset hunset
    refine hc.same ⟨by rw [hunset.rest], by rw [hunset.rest], hunset.each.mono fun id a b hab => ?_⟩
    split at hab
    · rw [hab]
      rfl
    · rw [hab]
  | received hdeferred => exact hneutral hc (isNeutral_of_deferred hdeferred)
  | sent hanswer => exact hneutral hc (isNeutral_of_plain (Frame.isPlain_of_isAnswer hanswer))
  | stopped => exact absurd rfl hphase
  | admitted | taken | skipped | parkedStream | parkedConn =>
    exact hc.same (.of_eq rfl rfl rfl)

/-! ## DATA frames -/

/-- Both windows cover every DATA frame when it is sent. -/
def Covered (log : List Entry) : Prop :=
  ∀ future frame octets past, log = future ++ .sent frame :: past →
    frame.payload = .data octets →
    (octets.length : ℤ) ≤ connWindow past ∧ (octets.length : ℤ) ≤ streamWindow frame.id past

theorem Covered.cons {log : List Entry} {entry : Entry} (h : Covered log)
    (hent : ∀ frame octets, entry = .sent frame → frame.payload = .data octets →
      (octets.length : ℤ) ≤ connWindow log ∧ (octets.length : ℤ) ≤ streamWindow frame.id log) :
    Covered (entry :: log) := by
  intro future frame octets past hlog hpay
  cases future with
  | nil =>
    obtain ⟨rfl, rfl⟩ := cons.inj hlog
    exact hent frame octets rfl hpay
  | cons entry' future => exact h future frame octets past (cons.inj hlog).2 hpay

theorem Covered.append {log entries : List Entry} (h : Covered log)
    (hentries : ∀ entry ∈ entries, ∀ frame octets, entry = .sent frame →
      frame.payload ≠ .data octets) : Covered (entries ++ log) := by
  induction entries with
  | nil => exact h
  | cons entry entries ih =>
    refine (ih fun e he => hentries e (.tail entry he)).cons ?_
    intro frame octets hent hpay
    exact absurd hpay (hentries entry (.head _) frame octets hent)

theorem Frame.isPlain.not_data (h : frame.isPlain = true) (octets : Bytes) :
    frame.payload ≠ .data octets := by
  intro hpay
  rw [Frame.isPlain, hpay] at h
  cases h

theorem not_data_sentUpdate (h : ∀ frame, update = some frame → frame.isPlain = true) :
    ∀ entry ∈ sentUpdate update, ∀ frame octets, entry = .sent frame →
      frame.payload ≠ .data octets := by
  refine forall_sentUpdate fun frame hframe frame' octets heq => ?_
  cases heq
  exact Frame.isPlain.not_data (h frame hframe) octets

theorem Action.covered (h : Action R c c') (hsound : c.Sound)
    (hc : c.phase ≠ .over → Balanced c.streams c.log) (hcovered : Covered c.log) :
    Covered c'.log := by
  have hrecv : ∀ {log frame}, Covered log → Covered (.received frame :: log) := fun h =>
    h.cons fun _ _ h => nomatch h
  have hsent : ∀ {log} {frame : Frame}, Covered log → (∀ octets, frame.payload ≠ .data octets) →
      Covered (.sent frame :: log) := by
    rintro log frame h hframe
    refine h.cons fun frame' octets heq hpay => ?_
    cases heq
    exact absurd hpay (hframe octets)
  cases h with
  | opened request => exact hcovered.cons fun _ _ h => nomatch h
  | @headers s log away id stream header state hget hhdr _ _ =>
    obtain ⟨-, parts, hparts⟩ := hsound.stored id stream header hget hhdr
    exact hsent hcovered fun octets h => by
      rw [hparts] at h
      cases h
  | data hget _ _ _ _ _ hstr hconn =>
    have hbal := hc (by simp)
    refine hcovered.cons fun frame octets' heq hpay => ?_
    cases heq
    cases hpay
    rw [← hbal.conn, ← hbal.stream _ _ hget]
    exact ⟨hconn, hstr⟩
  | finished hget _ hstr hconn =>
    have hbal := hc (by simp)
    refine hcovered.cons fun frame octets' heq hpay => ?_
    cases heq
    cases hpay
    rw [← hbal.conn, ← hbal.stream _ _ hget]
    dsimp only [length_nil] at *
    omega
  | failed => exact hsent hcovered fun octets h => nomatch h
  | localReset told =>
    cases told with
    | false => exact hcovered
    | true => exact hsent hcovered fun octets h => nomatch h
  | dataAccepted _ _ _ hconn hstr =>
    exact ((hrecv hcovered).append
      (not_data_sentUpdate (releaseConnRecvWindow_plain hconn))).append
      (not_data_sentUpdate (releaseStreamRecvWindow_plain hstr))
  | dataRefused _ _ hconn =>
    exact (hrecv hcovered).append
      (not_data_sentUpdate (releaseConnRecvWindow_plain hconn))
  | remoteReset | resetIgnored | settings | connUpdate
  | streamUpdate | received => exact hrecv hcovered
  | sent hanswer =>
    exact hsent hcovered (Frame.isPlain.not_data (Frame.isPlain_of_isAnswer hanswer))
  | stopped hplain =>
    refine hcovered.append ?_
    rintro entry hent frame octets rfl
    exact Frame.isPlain.not_data (hplain _ hent) octets
  | admitted | taken | skipped | parkedStream | parkedConn | waited
  | frameReceived | localResetLate | acknowledged | wentAway => exact hcovered

/-! ## Runs -/

structure Conn.Flows (c : Conn) : Prop where
  sound : c.Sound
  balanced : c.phase ≠ .over → Balanced c.streams c.log
  covered : Covered c.log

theorem Action.flows (h : Action R c c') (hc : c.Flows) : c'.Flows where
  sound := h.sound hc.sound
  balanced hphase := by
    refine h.balanced hc.sound (hc.balanced ?_) hphase
    exact fun hover => hphase (h.over hover)
  covered := h.covered hc.sound hc.balanced hc.covered

theorem start_flows (h : start config = .ok m) : m.conn.Flows := by
  obtain ⟨-, -, flow, hstreams, hflow⟩ := start_streams h
  obtain ⟨update, hlog, hplain⟩ := start_log h
  have hsettings : (localSettings
      (createInitialSettings config)).isPlain = true := rfl
  have hentries : ∀ entry ∈ m.log, ∃ frame, entry = .sent frame ∧ frame.isPlain = true := by
    intro entry hent
    rw [hlog, mem_append, mem_singleton, sentUpdate, mem_toList, map_eq_some_iff] at hent
    rcases hent with ⟨frame, hframe, rfl⟩ | rfl
    · exact ⟨frame, rfl, hplain frame hframe⟩
    · exact ⟨_, rfl, hsettings⟩
  have hempty : Balanced m.streams [] := by
    rw [hstreams]
    refine ⟨rfl, by rw [new, hflow]; rfl, fun id stream hget => ?_, fun id stream hget => ?_⟩
    · cases hget
    · cases hget
  refine ⟨start_sound h, fun _ => ?_, ?_⟩
  · have hneutral := @Balanced.neutral _ _ m.log hempty fun entry hent => by
      obtain ⟨frame, rfl, hframe⟩ := hentries entry hent
      exact isNeutral_of_plain hframe
    rwa [append_nil] at hneutral
  · have hcovered : Covered (m.log ++ []) := by
      refine Covered.append (fun future frame octets past hlog _ => by simp at hlog) ?_
      rintro entry hent frame octets rfl
      obtain ⟨frame', hframe, hplain⟩ := hentries _ hent
      cases hframe
      exact Frame.isPlain.not_data hplain octets
    rwa [append_nil] at hcovered

theorem Reached.flows (h : ConnManager.Reached config m) :
    Holds anything Conn.Flows m :=
  Reached.holds (fun _ => start_flows) (fun _ _ h hc => h.flows hc)
    (fun _ hc => ⟨hc.sound.bounded, hc.sound.stored⟩) h

/-! ## No overflow -/

def Streams.Floored (s : Streams) : Prop :=
  ∀ id stream, s.streamMap.lookup id = some stream →
    -(2 ^ 31 - 1) ≤ stream.sendWindow.size.val - s.streamSendWindowSize.toNat

theorem Resized.floored (h : Resized s s') (hs : s.Floored) : s'.Floored := by
  intro id stream hget
  obtain ⟨stream₀, hget₀, w, rfl, hw⟩ := h.each.after hget
  have hfloor := hs id stream₀ hget₀
  dsimp only
  omega

theorem applySendInitialWindowSize_ok {s : Streams} {hash : HashOrder} {size : UInt32}
    (hbdd : s.Bounded) (hfloored : s.Floored) :
    ∃ r, s.applySendInitialWindowSize hash size = .ok r := by
  simp only [applySendInitialWindowSize]
  split
  · split <;> exact ⟨_, rfl⟩
  · split
    · rename_i hlt
      have hle := UInt32.lt_iff_toNat_lt.mp hlt
      have hcurrent : s.streamSendWindowSize.toNat ≤ 2147483647 := UInt32.le_iff_toNat_le.mp hbdd
      have hsub : (s.streamSendWindowSize - size).toNat =
          s.streamSendWindowSize.toNat - size.toNat :=
        UInt32.toNat_sub_of_le _ _ (UInt32.le_of_lt hlt)
      have hexcess : s.streamSendWindowSize - size ≤ maxFlowControlWindow := by
        rw [UInt32.le_iff_toNat_le, hsub]
        change _ ≤ 2147483647
        omega
      obtain ⟨s', hs'⟩ := @changeStreams_of_forall (hash.order s.streamMap.keys) _
        (fun stream => do
          return { stream with
            sendWindow := ← stream.sendWindow.reduceSize (s.streamSendWindowSize - size) })
        { s with streamSendWindowSize := size } (fun id stream hget _ => by
          have hfloor := hfloored id stream hget
          obtain ⟨w, hw⟩ := @SendWindow.reduceSize_of_le stream.sendWindow _ hexcess (by omega)
          exact ⟨_, by rw [hw]; rfl⟩) (hash.nodup_keys s)
      rw [reduceSendWindows, changeAll_ok.mpr hs']
      exact ⟨_, rfl⟩
    · exact ⟨_, rfl⟩

theorem recvSettings_ok {env : Environment} {settings : List Setting} {s : Streams}
    (hbound : ∀ n, .initialWindowSize n ∈ settings → n ≤ maxFlowControlWindow)
    (hbdd : s.Bounded) (hfloored : s.Floored) :
    ∃ r, recvSettings env settings s = .ok r := by
  induction settings generalizing s with
  | nil => exact ⟨_, rfl⟩
  | cons setting settings ih =>
    have hbound' : ∀ n, .initialWindowSize n ∈ settings → n ≤ maxFlowControlWindow :=
      fun n hn => hbound n (.tail setting hn)
    cases setting with
    | initialWindowSize size =>
      obtain ⟨⟨s₁, r₁⟩, happly⟩ := @applySendInitialWindowSize_ok s env.hash size hbdd hfloored
      rw [recvSettings, happly]
      cases r₁ with
      | error e => exact ⟨_, rfl⟩
      | ok u =>
        have hsize := hbound size (.head _)
        obtain ⟨hresized, hsize₁⟩ := applySendInitialWindowSize_resized hsize hbdd happly
        exact ih hbound' (by rwa [Bounded, hsize₁]) (hresized.floored hfloored)
    | maxConcurrentStreams num =>
      exact ih (s := s.applyMaxConcurrentStreams num) hbound' hbdd hfloored
    | headerTableSize | enablePush | maxFrameSize | maxHeaderListSize =>
      exact ih hbound' hbdd hfloored

theorem Conn.Flows.not_trap (hc : c.Flows) : ¬ Trap R c .sendWindow := by
  intro h
  cases h with
  | settings hbound herror =>
    obtain ⟨r, hr⟩ := recvSettings_ok hbound hc.sound.bounded (hc.balanced (by simp)).floor
    rw [hr] at herror
    cases herror
  | acknowledged _ h => cases recvAcknowledged_panic h
  | connData _ h => cases releaseConnRecvWindow_panic h
  | streamData _ _ h => cases releaseStreamRecvWindow_panic h
  | wentAway _ h => cases getUnsetStreams_panic h

/-! ## Windows that would grow too large -/

/-- A frame that would take a send window above 2^31-1. -/
inductive Overflows (s : Streams) (frame : Frame) : Prop where
  | conn (n : UInt32) : frame.payload = .windowUpdate n → frame.id = 0 →
      2 ^ 31 - 1 < s.flowControl.sendWindow.size.val + n.toNat → Overflows s frame
  | stream (n : UInt32) (stream : Stream) : frame.payload = .windowUpdate n → frame.id ≠ 0 →
      s.streamMap.lookup frame.id = some stream →
      2 ^ 31 - 1 < stream.sendWindow.size.val + n.toNat → Overflows s frame
  | settings (settings : List Setting) (n : UInt32) (id : StreamId) (stream : Stream) :
      frame.payload = .settings settings → frame.flags.isAck = false →
      .initialWindowSize n ∈ settings → s.streamMap.lookup id = some stream →
      2 ^ 31 - 1 < stream.sendWindow.size.val + (n.toNat - s.streamSendWindowSize.toNat : ℤ) →
      Overflows s frame

theorem recvSettings_window_le {env : Environment}
    (hbound : ∀ n, .initialWindowSize n ∈ settings → n ≤ maxFlowControlWindow) (hbdd : s.Bounded)
    (h : recvSettings env settings s = .ok (s', .ok ())) (hn : .initialWindowSize n ∈ settings)
    {stream : Stream} (hget : s.streamMap.lookup id = some stream) :
    stream.sendWindow.size.val + (n.toNat - s.streamSendWindowSize.toNat : ℤ) ≤ 2 ^ 31 - 1 := by
  induction settings generalizing s stream with
  | nil => cases hn
  | cons setting settings ih =>
    have hbound' : ∀ n, .initialWindowSize n ∈ settings → n ≤ maxFlowControlWindow :=
      fun n hn => hbound n (.tail setting hn)
    cases setting with
    | initialWindowSize size =>
      simp only [recvSettings] at h
      split at h
      · cases h
      · cases h
      · rename_i s₁ happly
        have hsize := hbound size (.head _)
        obtain ⟨hresized, hsize₁⟩ := applySendInitialWindowSize_resized hsize hbdd happly
        obtain ⟨_, hget₁, w, rfl, hw⟩ := hresized.each.before hget
        rw [hsize₁] at hw
        rcases mem_cons.mp hn with heq | hn
        · cases heq
          have hlt := w.size.property.2
          omega
        · have hle := ih hbound' (by rwa [Bounded, hsize₁]) h hn hget₁
          rw [hsize₁] at hle
          dsimp only at hle
          omega
    | maxConcurrentStreams num =>
      rcases mem_cons.mp hn with heq | hn
      · cases heq
      · exact ih (s := s.applyMaxConcurrentStreams num) hbound' hbdd h hn hget
    | headerTableSize | enablePush | maxFrameSize | maxHeaderListSize =>
      rcases mem_cons.mp hn with heq | hn
      · cases heq
      · exact ih hbound' hbdd h hn hget

namespace ConnManager

variable {m : ConnManager} {env : Environment} {received : ReceivedFrame}

/-- The client answers the frame with a GOAWAY frame of this error code. -/
def Answers (m : ConnManager) (env : Environment) (received : ReceivedFrame) (code : ErrorCode) :
    Prop :=
  ∃ m' r goaway, m.step env (.output received) = .ok (m', r) ∧ m'.goingAway = some goaway ∧
    goaway.errorCode = code.intoCode ∧
    (env.inputOpen = true →
      m'.log = .sent (goawayFrame goaway) :: .received received.frame :: m.log)

theorem answers_of_error {m₁ : ConnManager} {code : ErrorCode} (hst : m.state = .receive)
    (hframe : { m with log := .received received.frame :: m.log }.pollRecvFrame env received.frame =
      .ok (m₁, .ready (.error (.h2 (.connectionError code))))) (hgoing : m₁.goingAway = none)
    (hlog : m₁.log = .received received.frame :: m.log) : m.Answers env received code := by
  have hstep : m.step env (.output received) = .ok (m₁.manageConnError env code) := by
    simp only [step, hst, pollRecvMessage]
    rw [hst] at hframe
    rw [hframe]
    rfl
  refine ⟨(m₁.manageConnError env code).1, (m₁.manageConnError env code).2,
    ⟨code.intoCode, m₁.streams.latestRemoteId, []⟩, hstep,
    manageConnError_goingAway env code hgoing, rfl, fun hopen => ?_⟩
  rw [manageConnError_eq env code hgoing, if_pos hopen, (exitWith_same _ env _).2, ← hlog]

theorem answers_of_overflows (hm : m.conn.Flows) (hhealthy : m.goingAway = none)
    (hst : m.state = .receive) (h : Overflows m.streams received.frame) :
    m.Answers env received .flowControlError := by
  have hrefused : ∀ {m₁ : ConnManager}, m₁.goingAway = m.goingAway →
      m₁.log = .received received.frame :: m.log →
      { m with log := .received received.frame :: m.log }.pollRecvFrame env received.frame =
        .ok (m₁, .ready (.error (.h2 (.connectionError .flowControlError)))) →
      m.Answers env received .flowControlError := fun hgoing hlog hframe =>
    answers_of_error hst hframe (hgoing.trans hhealthy) hlog
  cases h with
  | conn n hpay hid hsize =>
    have herror := (SendWindow.increaseSize_error_iff (received.increment_le n hpay)).mpr hsize
    refine @hrefused { m with log := .received received.frame :: m.log } rfl rfl ?_
    simp only [pollRecvFrame, hpay, recvWindowFrame, hid, if_true,
      increaseConnSendWindow, FlowControl.increaseSendSize, herror]
  | stream n stream hpay hid hget hsize =>
    have herror := (SendWindow.increaseSize_error_iff (received.increment_le n hpay)).mpr hsize
    refine @hrefused { m with log := .received received.frame :: m.log } rfl rfl ?_
    simp only [pollRecvFrame, hpay, recvWindowFrame, hid, if_false,
      reassignStreamSendWindow, hget, herror]
    rfl
  | settings settings n id stream hpay hack hn hget hsize =>
    have hbal := hm.balanced (by simp [conn])
    have hbound := received.initialSize_le settings hpay
    obtain ⟨⟨s', r⟩, hr⟩ := @recvSettings_ok env _ _ hbound hm.sound.bounded hbal.floor
    change recvSettings env settings m.streams = _ at hr
    cases r with
    | ok u =>
      have hle := recvSettings_window_le hbound hm.sound.bounded hr hn hget
      exact absurd hsize (not_lt.mpr hle)
    | error e =>
      obtain rfl := recvSettings_error hr
      refine @hrefused { m with streams := s', log := .received received.frame :: m.log } rfl rfl ?_
      simp only [pollRecvFrame, hpay, recvSettingsFrame, hack, Bool.false_eq_true, if_false, hr]
      rfl

/-- Flow control of what the client sends. In every state of a connection without a connection
error its send windows are what has happened says, every DATA frame has fitted into both
windows, no operation on a window overflows, and what would take a window above 2^31-1 is
answered with FLOW_CONTROL_ERROR. -/
theorem send_flow_control {config : H2Config} {m : ConnManager} (h : Reached config m) :
    (m.Healthy → m.streams.flowControl.sendWindow.size.val = connWindow m.log ∧
      ∀ id stream, m.streams.streamMap.lookup id = some stream →
        stream.sendWindow.size.val = streamWindow id m.log) ∧
    (∀ env event, m.step env event ≠ .error .sendWindow ∧
      ∀ m' r, m.step env event = .ok (m', r) → Covered m'.log) ∧
    (m.Healthy → m.state = .receive → ∀ env received, Overflows m.streams received.frame →
      m.Answers env received .flowControlError) := by
  have hflows := Reached.flows h
  have hconn : m.Healthy → m.conn.Flows := hflows.of_healthy
  refine ⟨fun hhealthy => ?_, fun env event => ⟨?_, fun m' r hstep => ?_⟩,
    fun hhealthy hst env received hoverflows => ?_⟩
  · have hbal := (hconn hhealthy).balanced (by simp [conn])
    exact ⟨hbal.conn, hbal.stream⟩
  · exact Holds.step_ne (fun _ _ h hc => h.flows hc)
      (fun _ hc => ⟨hc.sound.bounded, hc.sound.stored⟩) hflows
      (fun _ => permits_anything _ _ _) fun _ hc => hc.not_trap
  · obtain ⟨⟨c, hc, hlog⟩, -⟩ := Holds.step (fun _ _ h hc => h.flows hc)
      (fun _ hc => ⟨hc.sound.bounded, hc.sound.stored⟩) hflows
      (fun _ => permits_anything _ _ _) hstep
    rw [← hlog]
    exact hc.covered
  · exact answers_of_overflows (hconn hhealthy) hhealthy.goingAway hst hoverflows

/-- Three octets of a body are sent. -/
theorem send_flow_control_three_octets :
    ∃ m, Reached plainConfig m ∧ m.Healthy ∧ connWindow m.log = 65532 ∧
      m.streams.flowControl.sendWindow.size.val = connWindow m.log := by
  have hsent := (Reached.start rfl).pending (.respPending [plainRequest [.octets [1, 2, 3]]] false) rfl
  exact ⟨_, hsent, ⟨rfl, .inl rfl⟩, rfl, ((send_flow_control hsent).1 ⟨rfl, .inl rfl⟩).1⟩

end ConnManager

end YlongHttp
