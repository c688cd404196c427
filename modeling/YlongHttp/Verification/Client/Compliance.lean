import YlongHttp.Verification.Client.Balance

/-! # A server that keeps to its windows

The client and a server exchange frames, in order in each direction. The server knows of the
client what the frames say that it has processed, and sends DATA only within the windows that
RFC 9113 gives it by them. -/

namespace YlongHttp

open List
open Library

/-! ## The server -/

/-- The windows of a server, for the connection, for new streams and for the streams it knows. -/
structure Server where
  connWindow : ℤ
  initialWindowSize : ℤ
  streamWindow : StreamId → Option ℤ

namespace Server

def new : Server := { connWindow := 65535, initialWindowSize := 65535, streamWindow := fun _ => none }

variable (self : Server)

def applySetting : Setting → Server
  | .initialWindowSize n => { self with
      initialWindowSize := n.toNat
      streamWindow := fun id =>
        (self.streamWindow id).map (· + (n.toNat - self.initialWindowSize)) }
  | _ => self

def opens (id : StreamId) : Server :=
  match self.streamWindow id with
  | none => { self with
      streamWindow := Function.update self.streamWindow id (some self.initialWindowSize) }
  | some _ => self

def increases (id : StreamId) (n : UInt32) : Server :=
  if id = 0 then { self with connWindow := self.connWindow + n.toNat }
  else { self with
    streamWindow := Function.update self.streamWindow id
      ((self.streamWindow id).map (· + (n.toNat : ℤ))) }

def process (frame : Frame) : Server :=
  match frame.payload with
  | .settings settings => if frame.flags.isAck then self else settings.foldl applySetting self
  | .headers _ => self.opens frame.id
  | .windowUpdate n => self.increases frame.id n
  | _ => self

/-- DATA of `n` octets may be sent on a stream: within both windows, or if it is empty. -/
def Allows (id : StreamId) (n : ℕ) : Prop :=
  ∃ window, self.streamWindow id = some window ∧
    (n = 0 ∨ ((n : ℤ) ≤ self.connWindow ∧ (n : ℤ) ≤ window))

def charge (id : StreamId) (n : ℕ) : Server := { self with
  connWindow := self.connWindow - n
  streamWindow := Function.update self.streamWindow id
    ((self.streamWindow id).map (· - (n : ℤ))) }

theorem streamWindow_opens (id j : StreamId) :
    (self.opens id).streamWindow j =
      if j = id then some ((self.streamWindow id).getD self.initialWindowSize)
      else self.streamWindow j := by
  rw [opens]
  cases hwin : self.streamWindow id with
  | none => exact Function.update_apply _ _ _ _
  | some window =>
    dsimp only
    split
    · rename_i heq
      rw [heq]
      exact hwin
    · rfl

theorem opens_rest (id : StreamId) :
    (self.opens id).connWindow = self.connWindow ∧
      (self.opens id).initialWindowSize = self.initialWindowSize := by
  rw [opens]
  cases self.streamWindow id <;> exact ⟨rfl, rfl⟩

theorem streamWindow_increases {id : StreamId} (hid : id ≠ 0) (n : UInt32) (j : StreamId) :
    (self.increases id n).streamWindow j =
      if j = id then (self.streamWindow id).map (· + (n.toNat : ℤ)) else self.streamWindow j := by
  rw [increases, if_neg hid]
  exact Function.update_apply _ _ _ _

theorem increases_rest {id : StreamId} (hid : id ≠ 0) (n : UInt32) :
    (self.increases id n).connWindow = self.connWindow ∧
      (self.increases id n).initialWindowSize = self.initialWindowSize := by
  rw [increases, if_neg hid]
  exact ⟨rfl, rfl⟩

theorem streamWindow_charge (id : StreamId) (n : ℕ) (j : StreamId) :
    (self.charge id n).streamWindow j =
      if j = id then (self.streamWindow id).map (· - (n : ℤ)) else self.streamWindow j :=
  Function.update_apply _ _ _ _

end Server

/-- A frame on its way to the client. Padding counts as DATA, and is gone when the frame has been
decoded. -/
structure Flight where
  received : ConnManager.ReceivedFrame
  padding : ℕ

def Flight.octets (flight : Flight) : ℕ :=
  match flight.received.frame.payload with
  | .data octets => octets.length + flight.padding
  | _ => 0

def Flight.id (flight : Flight) : StreamId := flight.received.frame.id

/-! ## The two parties -/

def sentFrames (log : List Entry) : List Frame :=
  (log.filterMap fun
    | .sent frame => some frame
    | _ => none).reverse

/-- The client and the server, with the frames on their way to the client. -/
structure Net where
  client : ConnManager
  server : Server
  /-- How many frames of the client the server has processed. -/
  processed : ℕ
  toClient : List Flight

inductive Net.Step : Net → Net → Prop where
  | turn {net : Net} {client env event r} : net.client.step env event = .ok (client, r) →
      (∀ e, r ≠ .ready (.error e)) → (∀ received, event ≠ .output received) →
      Step net { net with client }
  | delivered {net : Net} {client env r flight toClient} : net.toClient = flight :: toClient →
      net.client.state = .receive →
      net.client.step env (.output flight.received) = .ok (client, r) →
      (∀ e, r ≠ .ready (.error e)) → Step net { net with client, toClient }
  | processes {net : Net} {frame} : (sentFrames net.client.log)[net.processed]? = some frame →
      Step net { net with server := net.server.process frame, processed := net.processed + 1 }
  | sendsData {net : Net} {flight : Flight} {octets} :
      flight.received.frame.payload = .data octets →
      net.server.Allows flight.id flight.octets →
      Step net { net with
        server := net.server.charge flight.id flight.octets
        toClient := net.toClient ++ [flight] }
  | sendsOther {net : Net} {flight : Flight} :
      (∀ octets, flight.received.frame.payload ≠ .data octets) →
      Step net { net with toClient := net.toClient ++ [flight] }
  | promises {net : Net} {id : StreamId} : id ≠ 0 → id.toNat % 2 = 0 →
      Step net { net with server := net.server.opens id }

inductive Net.Reached (config : ConnManager.H2Config) : Net → Prop where
  | start {client} : ConnManager.start config = .ok client →
      Reached config { client, server := .new, processed := 0, toClient := [] }
  | step {net net'} : Reached config net → net.Step net' → Reached config net'

/-! ## What is on its way -/

def octetsIn (flights : List Flight) : ℕ := (flights.map Flight.octets).sum

variable (id : StreamId)

def octetsOn (flights : List Flight) : ℕ := octetsIn (flights.filter (·.id = id))

/-- What WINDOW_UPDATE frames give for `id`. -/
def grantsIn (frames : List Frame) : ℤ :=
  (frames.map fun frame => (Entry.sent frame).granted id).sum

theorem octetsIn_append (flights flights' : List Flight) :
    octetsIn (flights ++ flights') = octetsIn flights + octetsIn flights' := by
  rw [octetsIn, map_append, sum_append]
  rfl

theorem octetsOn_append (flights flights' : List Flight) :
    octetsOn id (flights ++ flights') = octetsOn id flights + octetsOn id flights' := by
  rw [octetsOn, filter_append, octetsIn_append]
  rfl

theorem octetsIn_singleton (flight : Flight) : octetsIn [flight] = flight.octets := by
  simp [octetsIn]

theorem octetsOn_singleton (flight : Flight) :
    octetsOn id [flight] = if flight.id = id then flight.octets else 0 := by
  rw [octetsOn]
  by_cases hid : flight.id = id <;> simp [hid, octetsIn]

theorem octetsOn_cons (flight : Flight) (flights : List Flight) :
    octetsOn id (flight :: flights) =
      (if flight.id = id then flight.octets else 0) + octetsOn id flights := by
  rw [← singleton_append, octetsOn_append, octetsOn_singleton]

theorem octetsIn_cons (flight : Flight) (flights : List Flight) :
    octetsIn (flight :: flights) = flight.octets + octetsIn flights := by
  rw [← singleton_append, octetsIn_append, octetsIn_singleton]

theorem grantsIn_append (frames frames' : List Frame) :
    grantsIn id (frames ++ frames') = grantsIn id frames + grantsIn id frames' := by
  rw [grantsIn, map_append, sum_append]
  rfl

theorem grantsIn_cons (frame : Frame) (frames : List Frame) :
    grantsIn id (frame :: frames) = (Entry.sent frame).granted id + grantsIn id frames := by
  rw [grantsIn, map_cons, sum_cons]
  rfl

theorem Entry.granted_nonneg (entry : Entry) (id : StreamId) : 0 ≤ entry.granted id := by
  cases entry with
  | opened | received => exact le_refl 0
  | sent frame =>
    rw [granted]
    split
    · split
      · exact Int.natCast_nonneg _
      · exact le_refl 0
    · exact le_refl 0

theorem grantsIn_nonneg (frames : List Frame) : 0 ≤ grantsIn id frames := by
  induction frames with
  | nil => exact le_refl 0
  | cons frame frames ih =>
    rw [grantsIn_cons]
    exact add_nonneg ((Entry.sent frame).granted_nonneg id) ih

/-! ## The windows of the server are covered by the credit -/

variable {config : ConnManager.H2Config}

/-- What the server may still send, what is on its way, and what is on its way to let it send
more, are covered by the credit that the client counts. -/
structure Credited (config : ConnManager.H2Config) (log : List Entry) (server : Server)
    (processed : ℕ) (flights : List Flight) : Prop where
  processed_le : processed ≤ (sentFrames log).length
  initial : 0 < processed → server.initialWindowSize = config.streamWindowSize.toNat
  unstarted : processed = 0 → ∀ id : StreamId, id.toNat % 2 = 1 → server.streamWindow id = none
  conn_nonneg : 0 ≤ server.connWindow
  stream_nonneg : ∀ (id : StreamId) window, id.toNat % 2 = 1 →
    server.streamWindow id = some window → 0 ≤ window
  conn : server.connWindow + octetsIn flights + grantsIn 0 ((sentFrames log).drop processed) ≤
    connCredit log
  stream : ∀ id : StreamId, id.toNat % 2 = 1 →
    (server.streamWindow id).getD config.streamWindowSize.toNat + octetsOn id flights +
      grantsIn id ((sentFrames log).drop processed) ≤
      streamCredit config.streamWindowSize.toNat id log
  unknown : ∀ id : StreamId, id.toNat % 2 = 1 → .opened id ∉ log →
    server.streamWindow id = none ∧ octetsOn id flights = 0

theorem sentFrames_sent (frame : Frame) (log : List Entry) :
    sentFrames (.sent frame :: log) = sentFrames log ++ [frame] := by
  simp [sentFrames]

@[simp] theorem sentFrames_opened (log : List Entry) :
    sentFrames (.opened id :: log) = sentFrames log := rfl

@[simp] theorem sentFrames_received (frame : Frame) (log : List Entry) :
    sentFrames (.received frame :: log) = sentFrames log := rfl

theorem mem_sentFrames {frame : Frame} {log : List Entry} :
    frame ∈ sentFrames log ↔ .sent frame ∈ log := by
  rw [sentFrames, mem_reverse, mem_filterMap]
  constructor
  · rintro ⟨entry, hmem, hent⟩
    cases entry with
    | sent frame' =>
      cases hent
      exact hmem
    | opened | received => cases hent
  · exact fun hmem => ⟨_, hmem, rfl⟩

theorem InOrder.granted_eq_zero {log : List Entry} (h : InOrder log) {id : StreamId}
    (hid : id ≠ 0) (hopened : .opened id ∉ log) {frame : Frame} (hmem : .sent frame ∈ log) :
    (Entry.sent frame).granted id = 0 := by
  induction log with
  | nil => cases hmem
  | cons entry log ih =>
    have hopened' : .opened id ∉ log := fun h => hopened (.tail _ h)
    rcases mem_cons.mp hmem with rfl | hmem'
    · have hfollows := h.1
      rw [Frame.MayFollow] at hfollows
      rw [Entry.granted]
      cases hpay : frame.payload with
      | windowUpdate n =>
        rw [hpay] at hfollows
        refine if_neg fun heq => ?_
        rcases hfollows with hzero | hfollows
        · exact hid (heq.symm.trans hzero)
        · rw [heq] at hfollows
          exact hopened' hfollows
      | _ => rfl
    · cases entry with
      | opened => exact ih h.2.2 hopened' hmem'
      | sent => exact ih h.2 hopened' hmem'
      | received => exact ih h hopened' hmem'

theorem Frame.MayFollow.cons {frame : Frame} {log : List Entry} (h : frame.MayFollow log)
    (entry : Entry) : frame.MayFollow (entry :: log) := by
  rw [MayFollow] at h ⊢
  cases hpay : frame.payload with
  | headers parts =>
    rw [hpay] at h
    exact mem_cons_of_mem entry h
  | windowUpdate n =>
    rw [hpay] at h
    exact h.imp_right (.tail entry)
  | _ =>
    rw [hpay] at h
    exact h

theorem InOrder.mayFollow {log : List Entry} (h : InOrder log) {frame : Frame}
    (hmem : .sent frame ∈ log) : frame.MayFollow log := by
  induction log with
  | nil => cases hmem
  | cons entry log ih =>
    rcases mem_cons.mp hmem with rfl | hmem'
    · exact h.1.cons _
    · cases entry with
      | opened => exact (ih h.2.2 hmem').cons _
      | sent => exact (ih h.2 hmem').cons _
      | received => exact (ih h hmem').cons _

theorem grantsIn_eq_zero {id : StreamId} {frames : List Frame}
    (h : ∀ frame ∈ frames, (Entry.sent frame).granted id = 0) : grantsIn id frames = 0 := by
  induction frames with
  | nil => rfl
  | cons frame frames ih =>
    rw [grantsIn_cons, h frame (.head _), ih fun frame hmem => h frame (.tail _ hmem), add_zero]

theorem ne_zero_of_odd {id : StreamId} (h : id.toNat % 2 = 1) : id ≠ 0 := by
  rintro rfl
  cases h

namespace Credited

variable {log : List Entry} {server : Server} {processed : ℕ} {flights : List Flight}
variable {frame : Frame} {later : List Entry} {n : ℕ}

/-! ### What the client does -/

theorem sent (h : Credited config log server processed flights) (frame : Frame) :
    Credited config (.sent frame :: log) server processed flights := by
  have hdrop : (sentFrames (.sent frame :: log)).drop processed =
      (sentFrames log).drop processed ++ [frame] := by
    rw [sentFrames_sent, drop_append_of_le_length h.processed_le]
  have hgrants : ∀ id, grantsIn id ((sentFrames (.sent frame :: log)).drop processed) =
      grantsIn id ((sentFrames log).drop processed) + (Entry.sent frame).granted id := by
    intro id
    rw [hdrop, grantsIn_append]
    simp [grantsIn]
  refine ⟨?_, h.initial, h.unstarted, h.conn_nonneg, h.stream_nonneg, ?_, fun id hid => ?_,
    fun id hid hopened => h.unknown id hid fun hmem => hopened (.tail _ hmem)⟩
  · rw [sentFrames_sent, length_append]
    exact h.processed_le.trans (Nat.le_add_right _ _)
  · have hconn := h.conn
    rw [hgrants, connCredit_cons]
    simp only [Entry.dataReceived]
    omega
  · have hstr := h.stream id hid
    rw [hgrants, streamCredit]
    omega

theorem opened {id : StreamId} {later : List Entry}
    (h : Credited config (later ++ [.sent (ConnManager.firstFrame config)]) server processed flights)
    (horder : InOrder (.opened id :: later)) :
    Credited config (.opened id :: later ++ [.sent (ConnManager.firstFrame config)]) server processed
      flights := by
  obtain ⟨hodd, hnew, horder⟩ := horder
  refine ⟨h.processed_le, h.initial, h.unstarted, h.conn_nonneg, h.stream_nonneg, ?_,
    fun j hj => ?_, fun j hj hopened => h.unknown j hj fun hmem => hopened (.tail _ hmem)⟩
  · rw [cons_append, connCredit_cons]
    simpa [Entry.granted, Entry.dataReceived] using h.conn
  · rw [cons_append, streamCredit]
    split
    · rename_i heq
      subst heq
      obtain ⟨hwin, hoct⟩ := h.unknown id hodd fun hmem => hnew (opened_mem_begins.mp hmem)
      have hgrants : grantsIn id ((sentFrames
          (later ++ [.sent (ConnManager.firstFrame config)])).drop processed) = 0 := by
        refine grantsIn_eq_zero fun frame hmem => ?_
        have hmem := mem_sentFrames.mp (mem_of_mem_drop hmem)
        rcases mem_append.mp hmem with hmem | hmem
        · exact horder.granted_eq_zero (ne_zero_of_odd hodd) hnew hmem
        · cases mem_singleton.mp hmem
          rfl
      rw [sentFrames_opened, hgrants, hwin, hoct]
      simp
    · exact h.stream j hj

variable {flight : Flight}

theorem arrives (h : Credited config log server processed (flight :: flights)) :
    Credited config (.received flight.received.frame :: log) server processed flights := by
  have hconn := h.conn
  rw [octetsIn_cons] at hconn
  have hrecv : (Entry.received flight.received.frame).dataReceived ≤ flight.octets := by
    rw [Entry.dataReceived, Flight.octets]
    cases flight.received.frame.payload <;> simp
  refine ⟨h.processed_le, h.initial, h.unstarted, h.conn_nonneg, h.stream_nonneg, ?_,
    fun id hid => ?_, fun id hid hopened => ?_⟩
  · rw [connCredit_cons]
    simp only [sentFrames_received, Entry.granted]
    omega
  · have hstr := h.stream id hid
    rw [octetsOn_cons] at hstr
    rw [sentFrames_received, streamCredit]
    by_cases heq : flight.received.frame.id = id
    · rw [if_pos (show flight.id = id from heq)] at hstr
      rw [if_pos heq]
      split <;> omega
    · rw [if_neg (show flight.id ≠ id from heq)] at hstr
      rw [if_neg heq]
      split <;> omega
  · obtain ⟨hwin, hoct⟩ := h.unknown id hid fun hmem => hopened (.tail _ hmem)
    rw [octetsOn_cons] at hoct
    exact ⟨hwin, by omega⟩

theorem continues {later : List Entry} (new : List Entry) (taken : List Flight)
    (h : Credited config (later ++ [.sent (ConnManager.firstFrame config)]) server processed
      (taken ++ flights))
    (harrivals : arrivals new = (taken.map (·.received.frame)).reverse)
    (horder : InOrder (new ++ later)) :
    Credited config (new ++ later ++ [.sent (ConnManager.firstFrame config)]) server processed
      flights := by
  induction new generalizing taken flights with
  | nil =>
    have htaken : taken = [] := by
      cases taken with
      | nil => rfl
      | cons flight taken => simp [arrivals] at harrivals
    subst htaken
    exact h
  | cons entry new ih =>
    cases entry with
    | opened id => exact (ih taken h harrivals horder.2.2).opened horder
    | sent frame => exact (ih taken h harrivals horder.2).sent frame
    | received frame =>
      rcases taken.eq_nil_or_concat with rfl | ⟨taken, flight, rfl⟩
      · cases harrivals
      · rw [concat_eq_append] at h harrivals
        have harrivals' : frame :: arrivals new =
            ((taken ++ [flight]).map (·.received.frame)).reverse := harrivals
        rw [map_append, reverse_append] at harrivals'
        obtain ⟨rfl, hrest⟩ := cons.inj harrivals'
        rw [append_assoc] at h
        exact (ih taken h hrest horder).arrives

/-! ### What the server does -/

theorem processed_succ {server' : Server} (h : Credited config log server processed flights)
    (hframe : (sentFrames log)[processed]? = some frame)
    (hinitial : server'.initialWindowSize = config.streamWindowSize.toNat)
    (hconn : server'.connWindow = server.connWindow + (Entry.sent frame).granted 0)
    (hnonneg : ∀ (id : StreamId) window, id.toNat % 2 = 1 →
      server'.streamWindow id = some window → 0 ≤ window)
    (hstr : ∀ id : StreamId, id.toNat % 2 = 1 →
      (server'.streamWindow id).getD config.streamWindowSize.toNat ≤
        (server.streamWindow id).getD config.streamWindowSize.toNat + (Entry.sent frame).granted id)
    (hunknown : ∀ id : StreamId, id.toNat % 2 = 1 → .opened id ∉ log →
      server.streamWindow id = none → server'.streamWindow id = none) :
    Credited config log server' (processed + 1) flights := by
  obtain ⟨hlt, hget⟩ := List.getElem?_eq_some_iff.mp hframe
  have hdrop : ∀ id, grantsIn id ((sentFrames log).drop processed) =
      (Entry.sent frame).granted id + grantsIn id ((sentFrames log).drop (processed + 1)) := by
    intro id
    rw [drop_eq_getElem_cons hlt, hget, grantsIn_cons]
  refine ⟨hlt, fun _ => hinitial, fun hzero => by omega, ?_, hnonneg, ?_, fun id hid => ?_,
    fun id hid hopened => ?_⟩
  · have hgranted := (Entry.sent frame).granted_nonneg 0
    have hbefore := h.conn_nonneg
    omega
  · have hbefore := h.conn
    rw [hdrop] at hbefore
    omega
  · have hbefore := h.stream id hid
    have hafter := hstr id hid
    rw [hdrop] at hbefore
    omega
  · obtain ⟨hwin, hoct⟩ := h.unknown id hid hopened
    exact ⟨hunknown id hid hopened hwin, hoct⟩

theorem processed_pos
    (hframe : (sentFrames (later ++ [.sent (ConnManager.firstFrame config)]))[processed]? =
      some frame) :
    (processed = 0 ∧ frame = ConnManager.firstFrame config) ∨
      (0 < processed ∧ .sent frame ∈ later) := by
  have hcons : sentFrames (later ++ [.sent (ConnManager.firstFrame config)]) =
      ConnManager.firstFrame config :: sentFrames later := by
    simp [sentFrames]
  rw [hcons] at hframe
  cases processed with
  | zero =>
    cases hframe
    exact .inl ⟨rfl, rfl⟩
  | succ processed => exact .inr ⟨Nat.succ_pos _, mem_sentFrames.mp (mem_of_getElem? hframe)⟩

theorem granted_firstFrame : (Entry.sent (ConnManager.firstFrame config)).granted id = 0 := rfl

theorem process_firstFrame (server : Server) :
    server.process (ConnManager.firstFrame config) = { server with
      initialWindowSize := config.streamWindowSize.toNat
      streamWindow := fun id => (server.streamWindow id).map
        (· + (config.streamWindowSize.toNat - server.initialWindowSize)) } := by
  have hack : (ConnManager.firstFrame config).flags.isAck = false :=
    show ({ bits := 0 } : FrameFlags).isAck = false by decide
  change (if (ConnManager.firstFrame config).flags.isAck then server
    else (ConnManager.createInitialSettings config).foldl Server.applySetting server) = _
  rw [hack]
  rfl

theorem processes_first
    (h : Credited config (later ++ [.sent (ConnManager.firstFrame config)]) server 0 flights) :
    Credited config (later ++ [.sent (ConnManager.firstFrame config)])
      (server.process (ConnManager.firstFrame config)) 1 flights := by
  have hnone : ∀ id : StreamId, id.toNat % 2 = 1 →
      (server.process (ConnManager.firstFrame config)).streamWindow id = none := by
    intro id hid
    rw [process_firstFrame]
    dsimp only
    rw [h.unstarted rfl id hid]
    rfl
  have hframe : (sentFrames (later ++ [.sent (ConnManager.firstFrame config)]))[0]? =
      some (ConnManager.firstFrame config) := by
    simp [sentFrames]
  refine h.processed_succ hframe ?_ ?_ (fun id window hid hwin => ?_) (fun id hid => ?_)
    fun id hid _ _ => hnone id hid
  · rw [process_firstFrame]
  · rw [process_firstFrame, granted_firstFrame, add_zero]
  · rw [hnone id hid] at hwin
    cases hwin
  · rw [hnone id hid, h.unstarted rfl id hid, granted_firstFrame, add_zero]

theorem processed_same (h : Credited config log server processed flights)
    (hframe : (sentFrames log)[processed]? = some frame) (hpos : 0 < processed)
    (hgranted : ∀ id, (Entry.sent frame).granted id = 0) :
    Credited config log server (processed + 1) flights :=
  h.processed_succ hframe (h.initial hpos) (by rw [hgranted, add_zero]) h.stream_nonneg
    (fun id _ => by rw [hgranted, add_zero]) fun _ _ _ hwin => hwin

theorem processed_opens (h : Credited config log server processed flights)
    (hframe : (sentFrames log)[processed]? = some frame) (hpos : 0 < processed)
    (hgranted : ∀ id, (Entry.sent frame).granted id = 0) (hopened : .opened frame.id ∈ log) :
    Credited config log (server.opens frame.id) (processed + 1) flights := by
  have hinitial := h.initial hpos
  obtain ⟨hconn, hsize⟩ := server.opens_rest frame.id
  refine h.processed_succ hframe (hsize.trans hinitial) (by rw [hconn, hgranted, add_zero])
    (fun id window hid hwin => ?_) (fun id hid => ?_) fun id hid hnew hnone => ?_
  · rw [Server.streamWindow_opens] at hwin
    split at hwin
    · rename_i heq
      subst heq
      cases hwin
      cases hwin : server.streamWindow frame.id with
      | none =>
        rw [Option.getD_none, hinitial]
        exact Int.natCast_nonneg _
      | some window => exact h.stream_nonneg frame.id window hid hwin
    · exact h.stream_nonneg id window hid hwin
  · rw [Server.streamWindow_opens, hgranted, add_zero]
    split
    · rename_i heq
      rw [heq, hinitial]
      exact le_refl _
    · exact le_refl _
  · have hne : id ≠ frame.id := by
      rintro rfl
      exact hnew hopened
    rw [Server.streamWindow_opens, if_neg hne]
    exact hnone

theorem processed_increases {n : UInt32} (h : Credited config log server processed flights)
    (hframe : (sentFrames log)[processed]? = some frame) (hpos : 0 < processed)
    (hpay : frame.payload = .windowUpdate n) :
    Credited config log (server.increases frame.id n) (processed + 1) flights := by
  have hinitial := h.initial hpos
  have hgranted : ∀ id, (Entry.sent frame).granted id = if frame.id = id then (n.toNat : ℤ) else 0 := by
    intro id
    rw [Entry.granted, hpay]
  by_cases hzero : frame.id = 0
  · rw [Server.increases, if_pos hzero]
    refine h.processed_succ hframe hinitial (by rw [hgranted, if_pos hzero]) h.stream_nonneg
      (fun id hid => ?_) fun _ _ _ hwin => hwin
    exact le_add_of_nonneg_right ((Entry.sent frame).granted_nonneg id)
  · obtain ⟨hconn, hsize⟩ := server.increases_rest hzero n
    refine h.processed_succ hframe (hsize.trans hinitial)
      (by rw [hconn, hgranted, if_neg hzero, add_zero]) (fun id window hid hwin => ?_)
      (fun id hid => ?_) fun id hid _ hnone => ?_
    · rw [Server.streamWindow_increases _ hzero] at hwin
      split at hwin
      · rename_i heq
        subst heq
        obtain ⟨window', hwin', rfl⟩ := Option.map_eq_some_iff.mp hwin
        have hnonneg := h.stream_nonneg frame.id window' hid hwin'
        omega
      · exact h.stream_nonneg id window hid hwin
    · rw [Server.streamWindow_increases _ hzero]
      split
      · rename_i heq
        subst heq
        rw [hgranted, if_pos rfl]
        cases server.streamWindow frame.id with
        | none => exact le_add_of_nonneg_right (Int.natCast_nonneg _)
        | some window => exact le_refl _
      · exact le_add_of_nonneg_right ((Entry.sent frame).granted_nonneg id)
    · rw [Server.streamWindow_increases _ hzero]
      split
      · rename_i heq
        rw [← heq, hnone]
        rfl
      · exact hnone

theorem processes {later : List Entry} {frame : Frame}
    (h : Credited config (later ++ [.sent (ConnManager.firstFrame config)]) server processed flights)
    (hframe : (sentFrames (later ++ [.sent (ConnManager.firstFrame config)]))[processed]? =
      some frame) (horder : InOrder later) :
    Credited config (later ++ [.sent (ConnManager.firstFrame config)]) (server.process frame)
      (processed + 1) flights := by
  obtain ⟨rfl, rfl⟩ | ⟨hpos, hmem⟩ := processed_pos hframe
  · exact h.processes_first
  · have hfollows := horder.mayFollow hmem
    have hsame : (∀ n, frame.payload ≠ .windowUpdate n) →
        ∀ id, (Entry.sent frame).granted id = 0 := by
      intro hne id
      rw [Entry.granted]
      cases hpay : frame.payload <;> simp_all
    rw [Frame.MayFollow] at hfollows
    rw [Server.process]
    cases hpay : frame.payload with
    | settings settings =>
      rw [hpay] at hfollows
      change frame.flags.isAck = true at hfollows
      simp only [hfollows, if_true]
      exact h.processed_same hframe hpos (hsame (by simp [hpay]))
    | headers parts =>
      rw [hpay] at hfollows
      exact h.processed_opens hframe hpos (hsame (by simp [hpay]))
        (opened_mem_begins.mpr hfollows)
    | windowUpdate n => exact h.processed_increases hframe hpos hpay
    | _ => exact h.processed_same hframe hpos (hsame (by simp [hpay]))

theorem sendsData {flight : Flight} (h : Credited config log server processed flights)
    (hallows : server.Allows flight.id flight.octets) :
    Credited config log (server.charge flight.id flight.octets) processed (flights ++ [flight]) := by
  obtain ⟨window, hwin, hfits⟩ := hallows
  have hconn := h.conn_nonneg
  refine ⟨h.processed_le, h.initial, fun hzero id hid => ?_, ?_, fun id window' hid hwin' => ?_,
    ?_, fun id hid => ?_, fun id hid hopened => ?_⟩
  · rw [Server.streamWindow_charge]
    split
    · rename_i heq
      rw [← heq, h.unstarted hzero id hid] at hwin
      cases hwin
    · exact h.unstarted hzero id hid
  · rw [Server.charge]
    rcases hfits with hempty | ⟨hle, -⟩
    · rw [hempty]
      simpa using hconn
    · dsimp only
      omega
  · rw [Server.streamWindow_charge] at hwin'
    split at hwin'
    · rename_i heq
      subst heq
      rw [hwin] at hwin'
      cases hwin'
      have hnonneg := h.stream_nonneg flight.id window hid hwin
      rcases hfits with hempty | ⟨-, hle⟩
      · rw [hempty]
        simpa using hnonneg
      · exact sub_nonneg.mpr hle
    · exact h.stream_nonneg id window' hid hwin'
  · have hbefore := h.conn
    rw [Server.charge, octetsIn_append, octetsIn_singleton]
    push_cast
    omega
  · have hbefore := h.stream id hid
    rw [Server.streamWindow_charge, octetsOn_append, octetsOn_singleton]
    by_cases heq : id = flight.id
    · subst heq
      rw [hwin] at hbefore
      rw [if_pos rfl, if_pos rfl, hwin]
      simp only [Option.getD_some, Option.map_some] at hbefore ⊢
      push_cast
      omega
    · rw [if_neg heq, if_neg fun h => heq h.symm, add_zero]
      exact hbefore
  · obtain ⟨hnone, hoct⟩ := h.unknown id hid hopened
    have hne : flight.id ≠ id := by
      rintro rfl
      rw [hnone] at hwin
      cases hwin
    rw [Server.streamWindow_charge, if_neg hne.symm, octetsOn_append, octetsOn_singleton,
      if_neg hne]
    exact ⟨hnone, hoct⟩

theorem sendsOther (h : Credited config log server processed flights)
    (hother : ∀ octets, flight.received.frame.payload ≠ .data octets) :
    Credited config log server processed (flights ++ [flight]) := by
  have hoct : flight.octets = 0 := by
    rw [Flight.octets]
    cases hpay : flight.received.frame.payload <;> simp_all
  have hin : octetsIn (flights ++ [flight]) = octetsIn flights := by
    rw [octetsIn_append, octetsIn_singleton, hoct, add_zero]
  have hon : ∀ id, octetsOn id (flights ++ [flight]) = octetsOn id flights := by
    intro id
    rw [octetsOn_append, octetsOn_singleton, hoct, ite_self, add_zero]
  exact ⟨h.processed_le, h.initial, h.unstarted, h.conn_nonneg, h.stream_nonneg,
    by rw [hin]; exact h.conn, fun id hid => by rw [hon]; exact h.stream id hid,
    fun id hid hopened => by rw [hon]; exact h.unknown id hid hopened⟩

theorem promises {id : StreamId} (h : Credited config log server processed flights)
    (heven : id.toNat % 2 = 0) : Credited config log (server.opens id) processed flights := by
  have hsame : ∀ j : StreamId, j.toNat % 2 = 1 →
      (server.opens id).streamWindow j = server.streamWindow j := by
    intro j hj
    rw [Server.streamWindow_opens, if_neg]
    rintro rfl
    omega
  have hrest := server.opens_rest id
  refine ⟨h.processed_le, fun hpos => hrest.2.trans (h.initial hpos), fun hzero j hj => ?_, ?_,
    fun j window hj hwin => ?_, ?_, fun j hj => ?_, fun j hj hopened => ?_⟩
  · rw [hsame j hj]
    exact h.unstarted hzero j hj
  · rw [hrest.1]
    exact h.conn_nonneg
  · rw [hsame j hj] at hwin
    exact h.stream_nonneg j window hj hwin
  · rw [hrest.1]
    exact h.conn
  · rw [hsame j hj]
    exact h.stream j hj
  · rw [hsame j hj]
    exact h.unknown j hj hopened

/-! ### What arrives next -/

variable {rest : List Flight}

theorem conn_next (h : Credited config log server processed flights)
    (hnext : flights = flight :: rest) (hn : flight.octets = n + flight.padding) :
    (n : ℤ) ≤ connCredit log := by
  have hconn := h.conn
  have hwin := h.conn_nonneg
  have hgrants := grantsIn_nonneg 0 ((sentFrames log).drop processed)
  rw [hnext, octetsIn_cons, hn] at hconn
  omega

theorem stream_next (h : Credited config log server processed flights)
    (hodd : flight.id.toNat % 2 = 1) (hnext : flights = flight :: rest)
    (hn : flight.octets = n + flight.padding) :
    (n : ℤ) ≤ streamCredit config.streamWindowSize.toNat flight.id log := by
  have hstr := h.stream flight.id hodd
  have hwin : 0 ≤ (server.streamWindow flight.id).getD (config.streamWindowSize.toNat : ℤ) := by
    cases hwin : server.streamWindow flight.id with
    | none => exact Int.natCast_nonneg _
    | some window => exact h.stream_nonneg flight.id window hodd hwin
  have hgrants := grantsIn_nonneg flight.id ((sentFrames log).drop processed)
  rw [hnext, octetsOn_cons, if_pos rfl, hn] at hstr
  omega

end Credited

/-! ## Every interleaving -/

/-- The client goes on and covers the server, or it has met an error and looks at nothing that
arrives. -/
structure Net.Covers (config : ConnManager.H2Config) (net : Net) : Prop where
  reached : ConnManager.Reached config net.client
  covered : net.client.Dead ∨ Credited config net.client.log net.server net.processed net.toClient

namespace Net

open ConnManager

variable {client : ConnManager}

theorem start_log (h : start config = .ok client) : arrivals client.log = [] := by
  rw [start] at h
  obtain ⟨flow, -, h⟩ := of_bind_ok h
  obtain ⟨⟨streams, update⟩, -, h⟩ := of_bind_ok h
  cases h
  dsimp only
  split <;> rfl

theorem credited_first : Credited config [.sent (firstFrame config)] .new 0 [] := by
  have hgrants : ∀ id, grantsIn id ((sentFrames [.sent (firstFrame config)]).drop 0) = 0 :=
    fun _ => rfl
  refine ⟨Nat.zero_le _, fun hpos => absurd hpos (lt_irrefl 0), fun _ _ _ => rfl, by decide,
    (fun _ _ _ h => nomatch h), ?_, fun id _ => ?_, fun _ _ _ => ⟨rfl, rfl⟩⟩
  · rw [hgrants]
    exact le_refl _
  · rw [hgrants, streamCredit, Credited.granted_firstFrame]
    simp [Server.new, octetsOn, octetsIn, streamCredit]

theorem covers_start (h : start config = .ok client) :
    Covers config { client, server := .new, processed := 0, toClient := [] } := by
  refine ⟨.start h, .inr ?_⟩
  obtain ⟨later, hlater, horder⟩ := (start_balanced h).begins
  have harrivals : arrivals later = [] := by
    have hnone := start_log h
    rw [hlater, arrivals, filterMap_append] at hnone
    exact (append_eq_nil_iff.mp hnone).1
  dsimp only
  rw [hlater]
  have hcred := @Credited.continues config .new 0 [] [] later [] credited_first harrivals
    (by rwa [append_nil])
  rwa [append_nil] at hcred

theorem Covers.turn {net : Net} {client : ConnManager} {env : Environment} {event : Event}
    {r : Poll (Except DispatchErrorKind Unit)} {taken toClient : List Flight}
    (h : net.Covers config) (hstep : net.client.step env event = .ok (client, r))
    (hr : ∀ e, r ≠ .ready (.error e)) (hflights : net.toClient = taken ++ toClient)
    (htaken : net.client.takes event = (taken.map (·.received.frame)).reverse) :
    Covers config { net with client, toClient } := by
  have hreached := h.reached.step hstep hr
  refine ⟨hreached, ?_⟩
  rcases h.covered with hdead | hcred
  · exact .inl (step_dead hdead hstep).1
  · rcases h.reached.balances with ⟨-, hbefore⟩ | ⟨hdead, -⟩
    · rcases hreached.balances with ⟨-, hafter⟩ | ⟨hdead, -⟩
      · obtain ⟨new, hlog, hnew⟩ := step_arrivals hstep
        obtain ⟨later, hlater, -⟩ := (hbefore.balanced (by simp [conn])).begins
        obtain ⟨later', hlater', horder⟩ := (hafter.balanced (by simp [conn])).begins
        change net.client.log = _ at hlater
        change client.log = _ at hlater'
        obtain rfl : new ++ later = later' := by
          rw [hlog, hlater, ← append_assoc] at hlater'
          exact append_cancel_right hlater'
        rw [hlater, hflights] at hcred
        refine .inr ?_
        dsimp only
        rw [hlater']
        exact hcred.continues new taken (hnew.trans htaken) horder
      · exact .inl hdead
    · exact .inl (step_dead hdead hstep).1

theorem Step.covers {net net' : Net} (h : net.Step net') (hnet : net.Covers config) :
    net'.Covers config := by
  cases h with
  | @turn client env event r hstep hr hevent =>
    refine @Covers.turn config net client env event r [] net.toClient hnet hstep hr rfl ?_
    cases event with
    | output received => exact absurd rfl (hevent received)
    | _ => cases hst : net.client.state <;> simp [takes, hst]
  | @delivered client env r flight toClient hflights hst hstep hr =>
    refine @Covers.turn config net client env _ r [flight] toClient hnet hstep hr hflights ?_
    simp [takes, hst]
  | @processes frame hframe =>
    refine ⟨hnet.reached, ?_⟩
    rcases hnet.covered with hdead | hcred
    · exact .inl hdead
    · rcases hnet.reached.balances with ⟨-, hbalances⟩ | ⟨hdead, -⟩
      · obtain ⟨later, hlater, horder⟩ := (hbalances.balanced (by simp [conn])).begins
        change net.client.log = _ at hlater
        rw [hlater] at hcred hframe
        refine .inr ?_
        dsimp only
        rw [hlater]
        exact hcred.processes hframe horder
      · exact .inl hdead
  | sendsData _ hallows => exact ⟨hnet.reached, hnet.covered.imp_right (·.sendsData hallows)⟩
  | sendsOther hother => exact ⟨hnet.reached, hnet.covered.imp_right (·.sendsOther hother)⟩
  | promises _ heven => exact ⟨hnet.reached, hnet.covered.imp_right (·.promises heven)⟩

theorem Reached.covers {net : Net} (h : Reached config net) : net.Covers config := by
  induction h with
  | start hstart => exact covers_start hstart
  | step _ hstep ih => exact hstep.covers ih

/-- Whatever is on its way, and whatever windows the client is configured with: the connection
and the stream take the next DATA of a server that keeps to its windows. -/
theorem compliant_server_accepted {net : Net} (h : Reached config net) {flight : Flight}
    {toClient : List Flight} {octets : Bytes} (hstate : net.client.state = .receive)
    (hnext : net.toClient = flight :: toClient)
    (hdata : flight.received.frame.payload = .data octets) {s : Streams}
    {answer : Except H2Error (Option Frame)}
    (hconn : net.client.streams.releaseConnRecvWindow (UInt32.ofNat octets.length) =
      .ok (s, answer)) :
    (∃ update, answer = .ok update) ∧
      ∀ s' answer', s.releaseStreamRecvWindow flight.received.frame.id
          (UInt32.ofNat octets.length) = .ok (s', answer') → ∃ update, answer' = .ok update := by
  have hcovers := h.covers
  have hdead : ¬ net.client.Dead := by
    intro hdead
    obtain ⟨e, hexit | ⟨hsend, -⟩⟩ := hdead.state
    · rw [hstate] at hexit
      cases hexit
    · rw [hstate] at hsend
      cases hsend
  have hcred := hcovers.covered.resolve_left hdead
  obtain ⟨-, hbalances⟩ := hcovers.reached.balances.resolve_right fun h => hdead h.1
  have hbal := hbalances.balanced (by simp [conn])
  have hlen := flight.received.data_lt octets hdata
  have hoct : flight.octets = octets.length + flight.padding := by rw [Flight.octets, hdata]
  constructor
  · cases answer with
    | ok update => exact ⟨update, rfl⟩
    | error e =>
      have hlt := releaseConnRecvWindow_refuses hbal.conn hlen hconn
      exact absurd hlt (not_lt.mpr (hcred.conn_next hnext hoct))
  · intro s' answer' hstr
    cases answer' with
    | ok update => exact ⟨update, rfl⟩
    | error e =>
      have hmap := releaseConnRecvWindow_streamMap hconn
      cases hlookup : s.streamMap.lookup flight.received.frame.id with
      | none =>
        rw [Streams.releaseStreamRecvWindow, hlookup] at hstr
        cases hstr
      | some stream =>
        have hbefore : net.client.streams.streamMap.lookup flight.received.frame.id =
            some stream := by
          rw [← hmap]
          exact hlookup
        have hlt := releaseStreamRecvWindow_refuses hlookup (hbal.stream _ _ hbefore)
          hlen hstr
        have hodd := hbalances.sound.numbered.odd _ _ hbefore
        exact absurd hlt (not_lt.mpr (hcred.stream_next hodd hnext hoct))

def smallConfig : H2Config := { plainConfig with streamWindowSize := 10, stream_le := by decide }

def paddedData : Flight where
  received := threeOctets 0
  padding := 7

/-- The server has learned of the small windows and uses one of them up. -/
theorem compliant_server_accepted_padded :
    ∃ net s, Reached smallConfig net ∧ net.client.state = .receive ∧ net.toClient = [paddedData] ∧
      net.client.streams.releaseConnRecvWindow (UInt32.ofNat 3) = .ok (s, .ok none) ∧
      ∀ s' answer, s.releaseStreamRecvWindow 1 (UInt32.ofNat 3) = .ok (s', answer) →
        ∃ update, answer = .ok update := by
  have hreq := (@Reached.start smallConfig _ rfl).step (@Step.turn _ _ plainEnvironment
    (.respPending [plainRequest [.pending]] false) .pending rfl (by simp) (by simp))
  have hset := hreq.step (@Step.processes _ (firstFrame smallConfig) rfl)
  have hheaders := hset.step (@Step.processes _
    responseHeaders.frame rfl)
  have hallows : Server.Allows (((Server.new.process (firstFrame smallConfig)).process
      responseHeaders.frame)) 1 10 :=
    ⟨10, rfl, .inr ⟨by decide, by decide⟩⟩
  have hdata := hheaders.step (@Step.sendsData _ paddedData [1, 2, 3] rfl hallows)
  exact ⟨_, _, hdata, rfl, rfl, rfl, (compliant_server_accepted hdata rfl rfl rfl rfl).2⟩

end Net

end YlongHttp
