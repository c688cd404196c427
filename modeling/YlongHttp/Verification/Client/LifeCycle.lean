import YlongHttp.Verification.Client.Queues

/-! # The life cycle of a stream, in the frames that are sent -/

namespace YlongHttp

open List ConnManager Entry Streams Conn StreamFrame
open Library

variable {R : Rules}
variable {id : StreamId} {log : List Entry} {entry : Entry} {frame : Frame} {e : StreamFrame}
  {a b state : H2StreamState} {away eos : Bool} {s s' : Streams} {c c' : Conn}
  {stream stream' : Stream} {phase : Phase} {parts : Parts} {octets : Bytes} {flags : FrameFlags}

/-! ## What has been sent -/

def Entry.headersId : Entry → Option StreamId
  | .sent frame =>
    match frame.payload with
    | .headers _ => some frame.id
    | _ => none
  | _ => none

def headersSent (log : List Entry) : List StreamId := log.filterMap headersId

def Entry.isReset (id : StreamId) : Entry → Bool
  | .sent frame | .received frame =>
    match frame.payload with
    | .rstStream _ => decide (frame.id = id)
    | _ => false
  | .opened _ => false

def Ended (id : StreamId) (log : List Entry) : Prop :=
  EndSent id log ∨ ∃ entry ∈ log, entry.isReset id = true

def Entry.ends (id : StreamId) (entry : Entry) : Bool := entry.endsStream id || entry.isReset id

theorem ended_iff : Ended id log ↔ ∃ entry ∈ log, entry.ends id = true := by
  rw [Ended, ← any_endsStream_iff, any_eq_true]
  refine ⟨?_, ?_⟩
  · rintro (⟨entry, hent, h⟩ | ⟨entry, hent, h⟩)
    · exact ⟨entry, hent, by simp [ends, h]⟩
    · exact ⟨entry, hent, by simp [ends, h]⟩
  · rintro ⟨entry, hent, h⟩
    rcases Bool.or_eq_true_iff.mp h with h | h
    · exact .inl ⟨entry, hent, h⟩
    · exact .inr ⟨entry, hent, h⟩

theorem Ended.of_cons (h : Ended id (entry :: log)) : entry.ends id = true ∨ Ended id log := by
  obtain ⟨entry', hent, hends⟩ := ended_iff.mp h
  rcases mem_cons.mp hent with rfl | hent
  · exact .inl hends
  · exact .inr (ended_iff.mpr ⟨entry', hent, hends⟩)

theorem Ended.tail (h : Ended id (entry :: log)) (hent : entry.ends id = false) : Ended id log := by
  rcases h.of_cons with hends | hbefore
  · rw [hent] at hends
    cases hends
  · exact hbefore

theorem Ended.of_append {entries : List Entry} (h : Ended id (entries ++ log))
    (hentries : ∀ entry ∈ entries, entry.ends id = false) : Ended id log := by
  obtain ⟨entry, hent, hends⟩ := ended_iff.mp h
  rcases mem_append.mp hent with hent | hent
  · rw [hentries entry hent] at hends
    cases hends
  · exact ended_iff.mpr ⟨entry, hent, hends⟩

theorem Entry.ends_of_isPlain (h : frame.isPlain = true) (id : StreamId) :
    (sent frame).ends id = false := by
  rw [Frame.isPlain] at h
  rw [ends, endsStream, Frame.isPlain, isReset]
  cases hpay : frame.payload <;> simp_all

theorem Entry.ends_received (h : (received frame).ends id = true) :
    frame.id = id ∧ ∃ code, frame.payload = .rstStream code := by
  change isReset id (.received frame) = true at h
  rw [isReset] at h
  cases hpay : frame.payload <;> simp_all

/-- What the life cycle of a stream asks of an entry, after those before it. -/
def Entry.InOrder (before : List Entry) : Entry → Prop
  | .sent frame =>
    match frame.payload with
    | .headers _ => frame.id.toNat % 2 = 1 ∧ frame.id.toNat ≤ 2 ^ 31 - 1 ∧
        (∀ id ∈ headersSent before, id < frame.id) ∧ ¬ Ended frame.id before
    | .data _ => frame.id ∈ headersSent before ∧ ¬ Ended frame.id before
    | .rstStream _ => frame.id ∈ headersSent before ∧ frame.flags.isEndStream = false
    | _ => True
  | _ => True

/-- Each entry is in order with what went before it. -/
def LifeCycle : List Entry → Prop
  | [] => True
  | entry :: before => entry.InOrder before ∧ LifeCycle before

theorem Entry.InOrder.of_plain {before : List Entry} (h : entry.isPlain = true) :
    entry.InOrder before := by
  cases entry with
  | opened | received => trivial
  | sent frame =>
    rw [isPlain, Frame.isPlain] at h
    rw [InOrder]
    cases hpay : frame.payload <;> simp_all

theorem Entry.headersId_of_plain (h : entry.isPlain = true) : entry.headersId = none := by
  cases entry with
  | opened | received => rfl
  | sent frame =>
    rw [isPlain, Frame.isPlain] at h
    rw [headersId]
    cases hpay : frame.payload <;> simp_all

theorem LifeCycle.append {entries log : List Entry} (h : LifeCycle log)
    (hentries : ∀ entry ∈ entries, entry.isPlain = true) : LifeCycle (entries ++ log) := by
  induction entries with
  | nil => exact h
  | cons entry entries ih =>
    exact ⟨.of_plain (hentries entry (.head _)),
      ih fun entry' h' => hentries entry' (.tail entry h')⟩

theorem headersSent_append {entries log : List Entry}
    (hentries : ∀ entry ∈ entries, entry.isPlain = true) :
    headersSent (entries ++ log) = headersSent log := by
  rw [headersSent, filterMap_append]
  rw [filterMap_eq_nil_iff.mpr fun entry h => headersId_of_plain (hentries entry h)]
  rfl

/-! ## Streams whose HEADERS are still to be sent -/

def H2StreamState.isUnsent : H2StreamState → Bool
  | .idle | .open .waitHeaders _ | .remoteHalfClosed .waitHeaders => true
  | _ => false

theorem StreamFrame.isUnsent_of_received (he : e.isReceived = true) (h : e.move a = some b) :
    b.isUnsent = a.isUnsent ∧ (b.isClosed = true → a.isUnsent = false) := by
  cases e with
  | recvHeaders eos | recvData eos =>
    rcases a with _ | ⟨_ | _, _ | _⟩ | _ | ⟨_ | _⟩ | ⟨_ | _⟩ | _ <;> cases eos <;> cases h <;>
      exact ⟨rfl, by simp [H2StreamState.isClosed, H2StreamState.isUnsent]⟩
  | sendHeaders | sendData => cases he

theorem StreamFrame.isUnsent_of_sendHeaders (h : (sendHeaders eos).move a = some b) :
    a.isUnsent = true ∧ b.isUnsent = false := by
  rcases a with _ | ⟨_ | _, _ | _⟩ | _ | ⟨_ | _⟩ | ⟨_ | _⟩ | _ <;> cases eos <;> cases h <;>
    exact ⟨rfl, rfl⟩

theorem StreamFrame.isUnsent_of_sendData (h : (sendData eos).move a = some b) :
    a.isUnsent = false ∧ b.isUnsent = false := by
  rcases a with _ | ⟨_ | _, _ | _⟩ | _ | ⟨_ | _⟩ | ⟨_ | _⟩ | _ <;> cases eos <;> cases h <;>
    exact ⟨rfl, rfl⟩

theorem H2StreamState.isUnsent_of_isClosed (h : state.isClosed = true) :
    state.isUnsent = false := by
  cases state <;> first | rfl | cases h

theorem H2StreamState.isSending_of_isUnsent (h : state.isUnsent = true) :
    state.isSending = true := by
  cases state <;> first | rfl | cases h

def Streams.unsent (s : Streams) (id : StreamId) : Bool :=
  (s.streamMap.lookup id).any fun stream => stream.header.isSome

def Conn.ahead (c : Conn) : List StreamId :=
  c.phase.taken ++ c.streams.pendingSend ++ c.streams.pendingConcurrency

def Conn.line (c : Conn) : List StreamId := c.ahead.filter c.streams.unsent

def Streams.parked (s : Streams) : List StreamId := s.pendingStreamWindow ++ s.pendingConnWindow

/-- What a connection keeps as long as it goes on. -/
structure Conn.Course (c : Conn) : Prop where
  header : ∀ id stream, c.streams.streamMap.lookup id = some stream →
    stream.header.isSome = stream.state.isUnsent
  line : ((headersSent c.log).reverse ++ c.line).Pairwise (· < ·)
  known : ∀ id ∈ headersSent c.log, ∃ stream, c.streams.streamMap.lookup id = some stream ∧
    stream.header = none
  sent : ∀ id stream, c.streams.streamMap.lookup id = some stream → stream.state.isClosed = false →
    stream.header = none → id ∈ headersSent c.log
  parked : ∀ id ∈ c.streams.parked, c.streams.unsent id = false
  ended : ∀ id, Ended id c.log → 2 ^ 31 - 1 < id.toNat ∨
    ∃ stream, c.streams.streamMap.lookup id = some stream ∧ stream.state.isSending = false
  recv : c.streams.maxRecvId = initialMaxRecvStreamId
  limit : ∀ id stream, c.streams.streamMap.lookup id = some stream → id < defaultMaxStreamId

/-- The HEADERS frame is kept as long as the stream is open. -/
def Stream.Steady (a b : Stream) : Prop :=
  (b.header = a.header ∧ b.state.isUnsent = a.state.isUnsent ∧
    b.state.isClosed = a.state.isClosed) ∨ (b.header = none ∧ b.state.isClosed = true)

theorem Stream.Steady.refl (a : Stream) : a.Steady a := .inl ⟨rfl, rfl, rfl⟩

/-- No HEADERS are sent. -/
structure Conn.Steady (c c' : Conn) : Prop where
  each : c.streams.Each (fun _ a b => a.Steady b) c'.streams
  line : (c'.ahead.filter c.streams.unsent).Sublist c.line
  parked : ∀ id ∈ c'.streams.parked, id ∈ c.streams.parked ∨ c.streams.unsent id = false
  recv : c'.streams.maxRecvId = c.streams.maxRecvId
  log : headersSent c'.log = headersSent c.log

theorem Streams.unsent_of_steady (h : s.Each (fun _ a b => a.Steady b) s')
    (hunsent : s'.unsent id = true) : s.unsent id = true := by
  cases hget' : s'.streamMap.lookup id with
  | none => simp [unsent, hget'] at hunsent
  | some stream' =>
    obtain ⟨stream, hget, hsteady⟩ := h.after hget'
    rw [unsent, hget', Option.any_some] at hunsent
    rw [unsent, hget, Option.any_some]
    rcases hsteady with ⟨hhdr, -⟩ | ⟨hhdr, -⟩
    · rwa [hhdr] at hunsent
    · rw [hhdr] at hunsent
      cases hunsent

theorem Conn.Course.steady (hc : c.Course) (h : c.Steady c')
    (hstarts : c.streams.NoneStarts c'.streams)
    (hended : ∀ id, Ended id c'.log → Ended id c.log ∨ 2 ^ 31 - 1 < id.toNat ∨
      ∃ stream, c'.streams.streamMap.lookup id = some stream ∧ stream.state.isSending = false) :
    c'.Course where
  header id stream hget := by
    obtain ⟨stream₀, hget₀, hsteady⟩ := h.each.after hget
    rcases hsteady with ⟨hhdr, hunsent, -⟩ | ⟨hhdr, hclosed⟩
    · rw [hhdr, hunsent, hc.header id stream₀ hget₀]
    · rw [hhdr, H2StreamState.isUnsent_of_isClosed hclosed]
      rfl
  line := by
    have hle : ∀ id, c'.streams.unsent id = true → c.streams.unsent id = true :=
      fun id => unsent_of_steady h.each
    have hline : c'.line.Sublist (c'.ahead.filter c.streams.unsent) := monotone_filter_right _ hle
    rw [h.log]
    exact hc.line.sublist (.append (.refl _) (hline.trans h.line))
  known id hid := by
    rw [h.log] at hid
    obtain ⟨stream₀, hget₀, hhdr₀⟩ := hc.known id hid
    obtain ⟨stream, hget, hsteady⟩ := h.each.before hget₀
    refine ⟨stream, hget, ?_⟩
    rcases hsteady with ⟨hhdr, -⟩ | ⟨hhdr, -⟩
    · rw [hhdr, hhdr₀]
    · exact hhdr
  sent id stream hget hopen hnone := by
    obtain ⟨stream₀, hget₀, hsteady⟩ := h.each.after hget
    rw [h.log]
    rcases hsteady with ⟨hhdr, -, hclosed⟩ | ⟨-, hclosed⟩
    · exact hc.sent id stream₀ hget₀ (hclosed ▸ hopen) (hhdr ▸ hnone)
    · rw [hclosed] at hopen
      cases hopen
  parked id hid := by
    rw [Bool.eq_false_iff]
    intro hunsent
    have hbefore := unsent_of_steady h.each hunsent
    rcases h.parked id hid with hmem | hfalse
    · rw [hc.parked id hmem] at hbefore
      cases hbefore
    · rw [hfalse] at hbefore
      cases hbefore
  ended id hid := by
    rcases hended id hid with hbefore | hnow
    · rcases hc.ended id hbefore with hlarge | ⟨stream₀, hget₀, hsending⟩
      · exact .inl hlarge
      · obtain ⟨stream, hget, hstarts⟩ := hstarts.before hget₀
        refine .inr ⟨stream, hget, ?_⟩
        rw [Bool.eq_false_iff]
        intro hsends
        rw [hstarts hsends] at hsending
        cases hsending
    · exact hnow
  recv := h.recv.trans hc.recv
  limit id stream hget := by
    obtain ⟨stream₀, hget₀, -⟩ := h.each.after hget
    exact hc.limit id stream₀ hget₀

/-! ## Every action -/

theorem Streams.unsent_eq_false (hget : s.streamMap.lookup id = some stream)
    (hhdr : stream.header = none) : s.unsent id = false := by
  simp [unsent, hget, hhdr]

theorem Streams.Each.steady_setStream (hget : s.streamMap.lookup id = some stream)
    (hmap : s'.streamMap = (s.setStream id stream').streamMap) (hsteady : stream.Steady stream') :
    s.Each (fun _ a b => a.Steady b) s' := by
  have heach : s.Each (fun _ a b => a.Steady b) (s.setStream id stream') := by
    refine (Each.setStream hget).mono fun j a b hab => ?_
    split at hab
    · obtain ⟨rfl, rfl⟩ := hab
      exact hsteady
    · rw [hab]
      exact .refl a
  intro j
  have hj := heach j
  rwa [← hmap] at hj

theorem RecvOnly.steady (h : RecvOnly s s') : s.Each (fun _ a b => a.Steady b) s' := by
  refine h.each.mono ?_
  rintro id a b ⟨w, rfl⟩
  exact .inl ⟨rfl, rfl, rfl⟩

variable {log' : List Entry} {away' : Bool}

theorem Conn.Steady.of_each
    (heach : s.Each (fun _ a b => a.Steady b) s') (hsend : s'.pendingSend = s.pendingSend)
    (hconcurrency : s'.pendingConcurrency = s.pendingConcurrency)
    (hwin : s'.pendingStreamWindow = s.pendingStreamWindow)
    (hconn : s'.pendingConnWindow = s.pendingConnWindow) (hrecv : s'.maxRecvId = s.maxRecvId)
    (hlog : headersSent log' = headersSent log) :
    Conn.Steady ⟨s, phase, log, away⟩ ⟨s', phase, log', away'⟩ where
  each := heach
  line := by rw [Conn.line, Conn.ahead, Conn.ahead, hsend, hconcurrency]
  parked id hid := by
    change id ∈ s'.parked at hid
    rw [Streams.parked, hwin, hconn] at hid
    exact .inl hid
  recv := hrecv
  log := hlog

theorem Conn.Steady.idle (h : c.Steady ⟨s', .input id, log, away⟩) :
    c.Steady ⟨s', .idle, log, away⟩ where
  each := h.each
  line := by
    refine List.Sublist.trans (List.Sublist.filter _ ?_) h.line
    simp only [ahead, Phase.taken, append_assoc, nil_append]
    exact sublist_append_right _ _
  parked := h.parked
  recv := h.recv
  log := h.log

theorem Conn.Steady.requeued {ids : List StreamId}
    (heach : s.Each (fun _ a b => a.Steady b) s')
    (hsend : s'.pendingSend = s.pendingSend ++ ids) (hids : ∀ id ∈ ids, s.unsent id = false)
    (hconcurrency : s'.pendingConcurrency = s.pendingConcurrency)
    (hparked : s'.parked ⊆ s.parked) (hrecv : s'.maxRecvId = s.maxRecvId)
    (hlog : headersSent log' = headersSent log) :
    Conn.Steady ⟨s, .idle, log, away⟩ ⟨s', .idle, log', away'⟩ where
  each := heach
  line := by
    have hnil : ids.filter s.unsent = [] :=
      filter_eq_nil_iff.mpr fun id hid => by simp [hids id hid]
    simp only [Conn.line, Conn.ahead, hsend, hconcurrency, filter_append, hnil, append_nil]
    exact .refl _
  parked id hid := .inl (hparked hid)
  recv := hrecv
  log := hlog

theorem Resized.steady (h : Resized s s') : s.Each (fun _ a b => a.Steady b) s' := by
  refine h.each.mono ?_
  rintro id a b ⟨w, rfl, -⟩
  exact .inl ⟨rfl, rfl, rfl⟩

theorem Enlarged.steady {n : UInt32} (h : Enlarged id n s s') :
    s.Each (fun _ a b => a.Steady b) s' := by
  refine h.each.mono fun j a b hab => ?_
  split at hab
  · obtain ⟨w, rfl, -⟩ := hab
    exact .inl ⟨rfl, rfl, rfl⟩
  · rw [hab]
    exact .refl a

theorem Unset.steady {last : StreamId} (h : Unset last s s') :
    s.Each (fun _ a b => a.Steady b) s' := by
  refine h.each.mono fun j a b hab => ?_
  split at hab
  · rw [hab]
    exact .inr ⟨rfl, rfl⟩
  · rw [hab]
    exact .refl a

theorem Streams.Each.steady_refl (s : Streams) (h : s'.streamMap = s.streamMap) :
    s.Each (fun _ a b => a.Steady b) s' :=
  .of_lookup_eq (fun _ => by rw [h]) fun _ a => .refl a

theorem Conn.Steady.of_log (hlog : headersSent log' = headersSent log) :
    Steady ⟨s, phase, log, away⟩ ⟨s, phase, log', away'⟩ :=
  .of_each (.steady_refl s rfl) rfl rfl rfl rfl rfl hlog

theorem RecvOnly.settled (h : RecvOnly s s') (hlog : headersSent log' = headersSent log) :
    Steady ⟨s, phase, log, away⟩ ⟨s', phase, log', away'⟩ :=
  .of_each h.steady (by rw [h.rest]) (by rw [h.rest]) (by rw [h.rest]) (by rw [h.rest])
    (by rw [h.rest]) hlog

theorem Conn.Course.steady_moved (hc : c.Course)
    (hget : c.streams.streamMap.lookup id = some stream)
    (hmove : e.move stream.state = some state) (hhdr : stream'.header = stream.header)
    (hunsent : state.isUnsent = stream.state.isUnsent ∧
      (state.isClosed = true → stream.state.isUnsent = false)) :
    stream.Steady { stream' with state } := by
  cases hclosed : state.isClosed with
  | false =>
    refine .inl ⟨hhdr, hunsent.1, ?_⟩
    rw [not_isClosed_of_move hmove]
    exact hclosed
  | true =>
    refine .inr ⟨?_, hclosed⟩
    have hsome := hc.header id stream hget
    rw [hunsent.2 hclosed] at hsome
    change stream'.header = none
    rw [hhdr]
    exact Option.not_isSome_iff_eq_none.mp (by simp [hsome])

theorem Conn.Course.header_none (hc : c.Course)
    (hget : c.streams.streamMap.lookup id = some stream)
    (hunsent : stream.state.isUnsent = false) : stream.header = none := by
  have hsome := hc.header id stream hget
  rw [hunsent] at hsome
  exact Option.not_isSome_iff_eq_none.mp (by simp [hsome])

theorem Conn.Course.not_ended (hc : c.Course)
    (hget : c.streams.streamMap.lookup id = some stream)
    (hsending : stream.state.isSending = true) : ¬ Ended id c.log := by
  intro hended
  rcases hc.ended id hended with hlarge | ⟨stream', hget', hsends⟩
  · have hlt : id.toNat < 2147483647 := UInt32.lt_iff_toNat_lt.mp (hc.limit id stream hget)
    omega
  · rw [hget] at hget'
    cases hget'
    rw [hsending] at hsends
    cases hsends

theorem Conn.Course.opened {s : Streams} {log : List Entry}
    (hc : Conn.Course ⟨s, .idle, log, false⟩) (hnum : s.Numbered)
    (hqueued : Conn.Queued ⟨s, .idle, log, false⟩) (request : RequestWrapper)
    (hid : s.nextStreamId < defaultMaxStreamId) :
    Conn.Course ⟨s.accepted request, .idle, .opened s.nextStreamId :: log, false⟩ := by
  have hnone := hnum.lookup_next
  have hget : ∀ id, (s.accepted request).streamMap.lookup id =
      if id = s.nextStreamId then some (s.fresh request) else s.streamMap.lookup id := by
    intro id
    rw [s.streamMap_accepted]
    split
    · rename_i heq
      rw [heq, AList.lookup_insert]
    · rename_i hne
      rw [AList.lookup_insert_ne hne]
  have hold : ∀ id stream, s.streamMap.lookup id = some stream → id ≠ s.nextStreamId := by
    rintro id stream hstr rfl
    rw [hnone] at hstr
    cases hstr
  have hkeep : ∀ id stream, s.streamMap.lookup id = some stream →
      (s.accepted request).streamMap.lookup id = some stream := by
    intro id stream hstr
    rw [hget, if_neg (hold id stream hstr), hstr]
  have hunsent : ∀ id stream, s.streamMap.lookup id = some stream →
      (s.accepted request).unsent id = s.unsent id := by
    intro id stream hstr
    rw [unsent, unsent, hkeep id stream hstr, hstr]
  have hrest : (s.accepted request).parked = s.parked ∧
      (s.accepted request).maxRecvId = s.maxRecvId := by
    rcases s.accepted_cases request with ⟨-, h⟩ | ⟨-, -, h⟩ <;> rw [h] <;> exact ⟨rfl, rfl⟩
  have hqueue : ∀ id ∈ s.parked, id ∈ Conn.queue ⟨s, .idle, log, false⟩ := by
    intro id hid
    rcases mem_append.mp hid with hid | hid <;> simp [Conn.queue, hid]
  have hline : Conn.line ⟨s.accepted request, .idle, .opened s.nextStreamId :: log, false⟩ =
      Conn.line ⟨s, .idle, log, false⟩ ++ [s.nextStreamId] := by
    have hahead : Conn.ahead ⟨s.accepted request, .idle, .opened s.nextStreamId :: log, false⟩ =
        Conn.ahead ⟨s, .idle, log, false⟩ ++ [s.nextStreamId] := by
      rcases s.accepted_cases request with ⟨-, h⟩ | ⟨-, hempty, h⟩
      · rw [h]
        simp [ahead]
      · rw [h]
        simp [ahead, hempty]
    have hnew : (s.accepted request).unsent s.nextStreamId = true := by
      rw [unsent, hget, if_pos rfl]
      rfl
    rw [Conn.line, hahead, filter_append, Conn.line]
    congr 1
    · refine filter_congr fun id hid => ?_
      obtain ⟨stream, hstr⟩ := hqueued.known id (by
        simp only [ahead, Phase.taken, nil_append, mem_append] at hid
        rcases hid with hid | hid <;> simp [queue, hid])
      exact hunsent id stream hstr
    · change [s.nextStreamId].filter (s.accepted request).unsent = _
      rw [filter_cons_of_pos hnew, filter_nil]
  refine ⟨fun id stream hstr => ?_, ?_, fun id hid => ?_, fun id stream hstr hopen hhdr => ?_,
    fun id hid => ?_, fun id hended => ?_, ?_, fun id stream hstr => ?_⟩
  · change (s.accepted request).streamMap.lookup id = some stream at hstr
    rw [hget] at hstr
    split at hstr
    · cases hstr
      rfl
    · exact hc.header id stream hstr
  · rw [hline, ← append_assoc]
    change ((headersSent log).reverse ++ _ ++ [s.nextStreamId]).Pairwise (· < ·)
    refine pairwise_append.mpr ⟨hc.line, pairwise_singleton _ _, fun id hid j hj => ?_⟩
    obtain rfl := mem_singleton.mp hj
    rcases mem_append.mp hid with hid | hid
    · obtain ⟨stream, hstr, -⟩ := hc.known id (mem_reverse.mp hid)
      exact hnum.lt_next id stream hstr
    · have hmem := (mem_filter.mp hid).1
      obtain ⟨stream, hstr⟩ := hqueued.known id (by
        simp only [ahead, Phase.taken, nil_append, mem_append] at hmem
        rcases hmem with hmem | hmem <;> simp [queue, hmem])
      exact hnum.lt_next id stream hstr
  · obtain ⟨stream, hstr, hhdr⟩ := hc.known id hid
    exact ⟨stream, hkeep id stream hstr, hhdr⟩
  · change (s.accepted request).streamMap.lookup id = some stream at hstr
    rw [hget] at hstr
    split at hstr
    · cases hstr
      cases hhdr
    · exact hc.sent id stream hstr hopen hhdr
  · change id ∈ (s.accepted request).parked at hid
    rw [hrest.1] at hid
    obtain ⟨stream, hstr⟩ := hqueued.known id (hqueue id hid)
    exact (hunsent id stream hstr).trans (hc.parked id hid)
  · rcases hended.of_cons with h | h
    · cases h
    · rcases hc.ended id h with hlarge | ⟨stream, hstr, hsending⟩
      · exact .inl hlarge
      · exact .inr ⟨stream, hkeep id stream hstr, hsending⟩
  · exact hrest.2.trans hc.recv
  · change (s.accepted request).streamMap.lookup id = some stream at hstr
    rw [hget] at hstr
    split at hstr
    · rename_i heq
      rw [heq]
      exact hid
    · exact hc.limit id stream hstr

theorem headersSent_cons_headers (log : List Entry) (h : frame.payload = .headers parts) :
    headersSent (.sent frame :: log) = frame.id :: headersSent log := by
  rw [headersSent, filterMap_cons_some (b := frame.id) (by rw [headersId, h])]
  rfl

theorem Conn.Course.headers {s : Streams} {log : List Entry} {away : Bool} {id : StreamId}
    {stream : Stream} {header : Frame} {parts : Parts} {state : H2StreamState} {phase : Phase}
    (hc : Conn.Course ⟨s, .input id, log, away⟩) (hqueued : Conn.Queued ⟨s, .input id, log, away⟩)
    (hget : s.streamMap.lookup id = some stream) (hhdr : stream.header = some header)
    (hid : header.id = id) (hparts : header.payload = .headers parts)
    (hmove : (StreamFrame.sendHeaders header.flags.isEndStream).move stream.state = some state)
    (hphase : phase = .idle ∨ phase = .input id) :
    Conn.Course ⟨s.moved id { stream with header := none } state, phase, .sent header :: log,
      away⟩ := by
  obtain ⟨hbefore, hafter⟩ := isUnsent_of_sendHeaders hmove
  have hself : (s.moved id { stream with header := none } state).streamMap.lookup id =
      some { stream with header := none, state } := by
    change (s.setStream id _).streamMap.lookup id = _
    simp [hget]
  have hother : ∀ j, j ≠ id → (s.moved id { stream with header := none } state).streamMap.lookup j =
      s.streamMap.lookup j := fun j hj => s.lookup_setStream_of_ne _ _ hj
  have hsent : headersSent (.sent header :: log) = id :: headersSent log := by
    rw [headersSent_cons_headers log hparts, hid]
  have hnot : id ∉ s.pendingSend ++ s.pendingConcurrency := by
    intro hmem
    have hnodup := hqueued.nodup
    simp only [Conn.queue, Phase.taken] at hnodup
    refine (nodup_append.mp hnodup).2.2 id ?_ id (by simp) rfl
    rcases mem_append.mp hmem with hmem | hmem <;> simp [hmem]
  have hline : Conn.line ⟨s, .input id, log, away⟩ = id :: Conn.line
      ⟨s.moved id { stream with header := none } state, phase, .sent header :: log, away⟩ := by
    have hunsent : s.unsent id = true := by simp [Streams.unsent, hget, hhdr]
    have hunsent' : (s.moved id { stream with header := none } state).unsent id = false :=
      Streams.unsent_eq_false hself rfl
    have hrest : (s.pendingSend ++ s.pendingConcurrency).filter
        (s.moved id { stream with header := none } state).unsent =
        (s.pendingSend ++ s.pendingConcurrency).filter s.unsent := by
      refine filter_congr fun j hj => ?_
      rw [unsent, unsent, hother j fun heq => hnot (heq ▸ hj)]
    have htaken : (phase.taken ++ s.pendingSend ++ s.pendingConcurrency).filter
        (s.moved id { stream with header := none } state).unsent =
        (s.pendingSend ++ s.pendingConcurrency).filter
          (s.moved id { stream with header := none } state).unsent := by
      rcases hphase with rfl | rfl
      · rfl
      · rw [Phase.taken, append_assoc, singleton_append, filter_cons_of_neg (by simp [hunsent'])]
    change (([id] ++ s.pendingSend) ++ s.pendingConcurrency).filter s.unsent = id ::
      (phase.taken ++ s.pendingSend ++ s.pendingConcurrency).filter _
    rw [htaken, hrest, append_assoc, singleton_append, filter_cons_of_pos hunsent]
  refine ⟨fun j stream' hget' => ?_, ?_, fun j hj => ?_, fun j stream' hget' hopen hnone => ?_,
    fun j hj => ?_, fun j hended => ?_, hc.recv, fun j stream' hget' => ?_⟩
  · change (s.moved id _ state).streamMap.lookup j = some stream' at hget'
    by_cases heq : j = id
    · subst heq
      rw [hself] at hget'
      cases hget'
      exact hafter.symm
    · rw [hother j heq] at hget'
      exact hc.header j stream' hget'
  · have hpairwise := hc.line
    rw [hline] at hpairwise
    rw [hsent, reverse_cons, append_assoc, singleton_append]
    exact hpairwise
  · change j ∈ headersSent (.sent header :: log) at hj
    rw [hsent] at hj
    by_cases heq : j = id
    · subst heq
      exact ⟨_, hself, rfl⟩
    · obtain ⟨stream', hget', hnone⟩ :=
        hc.known j ((mem_cons.mp hj).resolve_left heq)
      exact ⟨stream', (hother j heq).trans hget', hnone⟩
  · change (s.moved id _ state).streamMap.lookup j = some stream' at hget'
    change j ∈ headersSent (.sent header :: log)
    rw [hsent]
    by_cases heq : j = id
    · rw [heq]
      exact (.head _)
    · rw [hother j heq] at hget'
      exact mem_cons_of_mem _ (hc.sent j stream' hget' hopen hnone)
  · by_cases heq : j = id
    · subst heq
      exact unsent_eq_false hself rfl
    · have hparked := hc.parked j hj
      rw [unsent] at hparked ⊢
      rw [hother j heq]
      exact hparked
  · by_cases heq : j = id
    · subst heq
      rcases hended.of_cons with hends | hbefore'
      · -- The HEADERS frame itself has END_STREAM, which closes the side of the client.
        refine .inr ⟨_, hself, ?_⟩
        have hend : header.flags.isEndStream = true := by
          simpa [ends, endsStream, isReset, hparts, Frame.isPlain, hid] using hends
        rw [hend] at hmove
        exact not_isSending_of_end (.inl hmove)
      · exact absurd hbefore' (hc.not_ended hget (H2StreamState.isSending_of_isUnsent hbefore))
    · rcases hended.of_cons with hends | hbefore'
      · have hne : header.id ≠ j := fun h => heq (h.symm.trans hid)
        simp [ends, endsStream, isReset, hparts, hne] at hends
      · rcases hc.ended j hbefore' with hlarge | ⟨stream', hget', hsending⟩
        · exact .inl hlarge
        · exact .inr ⟨stream', (hother j heq).trans hget', hsending⟩
  · change (s.moved id _ state).streamMap.lookup j = some stream' at hget'
    by_cases heq : j = id
    · rw [heq]
      exact hc.limit id stream hget
    · rw [hother j heq] at hget'
      exact hc.limit j stream' hget'

variable {j : StreamId} {payload : Payload}

theorem Entry.ends_data :
    (sent { id, flags := { bits := 0 }, payload := .data octets }).ends j = false := by
  simp [ends, endsStream, isReset, isEndStream_zero]

theorem Entry.ends_self (h : (sent { id, flags, payload }).ends j = true) : j = id := by
  rcases Bool.or_eq_true_iff.mp h with h | h
  · simp only [endsStream, Bool.and_eq_true, decide_eq_true_eq] at h
    exact h.1.symm
  · cases payload <;> simp_all [isReset]

theorem Entry.ends_of_isDeferred (h : frame.isDeferred = true) (id : StreamId) :
    (received frame).ends id = false := by
  rw [Bool.eq_false_iff]
  intro hends
  obtain ⟨-, code, hpay⟩ := ends_received hends
  rw [Frame.isDeferred, hpay] at h
  cases h

theorem Entry.ends_received_of_ne (hpay : frame.payload = payload)
    (h : ∀ code, payload ≠ .rstStream code) (id : StreamId) :
    (received frame).ends id = false := by
  rw [Bool.eq_false_iff]
  intro hends
  obtain ⟨-, code, hreset⟩ := ends_received hends
  exact h code (hpay.symm.trans hreset)

theorem Ended.of_ends (hmap : s'.streamMap = (s.setStream id stream').streamMap)
    (hget : s.streamMap.lookup id = some stream) (hsending : stream'.state.isSending = false)
    (hends : ∀ j, entry.ends j = true → j = id) (j : StreamId) (h : Ended j (entry :: log)) :
    Ended j log ∨ 2 ^ 31 - 1 < j.toNat ∨
      ∃ stream, s'.streamMap.lookup j = some stream ∧ stream.state.isSending = false := by
  rcases h.of_cons with hself | hbefore
  · obtain rfl := hends j hself
    refine .inr (.inr ⟨stream', ?_, hsending⟩)
    rw [hmap, lookup_setStream_self, hget]
    rfl
  · exact .inl hbefore

theorem ends_sentUpdate {update : Option Frame}
    (h : ∀ frame, update = some frame → frame.isPlain = true) (id : StreamId) :
    ∀ entry ∈ sentUpdate update, entry.ends id = false :=
  forall_sentUpdate fun frame hframe => ends_of_isPlain (h frame hframe) id

theorem Action.course (h : Action R c c') (hsound : c.Sound) (hqueued : c.Queued) (hc : c.Course)
    (hphase : c'.phase ≠ .over) : c'.Course := by
  cases h with
  | @opened s log request hid => exact hc.opened hsound.numbered hqueued request hid
  | @admitted s log id ids hpend _ =>
    refine hc.steady ⟨.steady_refl s rfl, ?_, fun _ h => .inl h, rfl, rfl⟩ (.of_eq rfl)
      fun _ h => .inl h
    simp only [line, ahead, pushBackPendingSend,
      increaseCurrentConcurrency, hpend, append_assoc, singleton_append]
    exact .refl _
  | @taken s log id ids hpend =>
    refine hc.steady ⟨.steady_refl s rfl, ?_, fun _ h => .inl h, rfl, rfl⟩ (.of_eq rfl)
      fun _ h => .inl h
    simp only [line, ahead, Phase.taken, hpend, singleton_append, nil_append]
    exact .refl _
  | @headers s log away id stream header state hget hhdr hmove _ =>
    obtain ⟨hid, parts, hparts⟩ := hsound.stored id stream header hget hhdr
    refine hc.headers hqueued hget hhdr hid hparts hmove ?_
    split
    · exact .inl rfl
    · exact .inr rfl
  | @data s log away id stream len data octets w w' hget hmove _ _ _ _ _ _ _ _ =>
    refine hc.steady (.of_each (.steady_setStream hget rfl (.inl ⟨rfl, rfl, rfl⟩)) rfl rfl rfl
      rfl rfl rfl) (.setStream hget fun h => h) fun j h => .inl (h.tail ends_data)
  | @finished s log away id stream data state len hget _ _ _ _ hmove _ =>
    have hunsent := isUnsent_of_sendData hmove
    refine hc.steady (Steady.idle (.of_each (.steady_setStream hget rfl
      (hc.steady_moved hget hmove rfl ⟨hunsent.2.trans hunsent.1.symm, fun _ => hunsent.1⟩))
      rfl rfl rfl rfl rfl rfl)) (.moved hget hmove) ?_
    exact Ended.of_ends rfl hget (not_isSending_of_end (.inr hmove))
      fun _ => ends_self
  | @skipped s log away id stream _ _ =>
    exact hc.steady (Steady.idle (.of_log rfl)) (.of_eq rfl) fun _ h => .inl h
  | @parkedStream s log away id stream hget hhdr _ =>
    refine hc.steady ⟨.steady_refl s rfl, (Steady.idle (@Steady.of_log log away s _ log away
      rfl)).line, fun j hj => ?_, rfl, rfl⟩ (.of_eq rfl) fun _ h => .inl h
    rcases mem_append.mp hj with hj | hj
    · rcases mem_insert_iff.mp hj with rfl | hj
      · exact .inr (unsent_eq_false hget hhdr)
      · exact .inl (mem_append_left _ hj)
    · exact .inl (mem_append_right _ hj)
  | @parkedConn s log away id stream hget hhdr _ =>
    refine hc.steady ⟨.steady_refl s rfl, (Steady.idle (@Steady.of_log log away s _ log away
      rfl)).line, fun j hj => ?_, rfl, rfl⟩ (.of_eq rfl) fun _ h => .inl h
    rcases mem_append.mp hj with hj | hj
    · exact .inl (mem_append_left _ hj)
    · rcases mem_append.mp hj with hj | hj
      · exact .inl (mem_append_right _ hj)
      · rw [mem_singleton.mp hj]
        exact .inr (unsent_eq_false hget hhdr)
  | @waited s log away id stream len data hget hhdr _ =>
    have hset : s.NoneStarts (s.setStream id { stream with data }) := .setStream hget fun h => h
    refine hc.steady ⟨.steady_setStream hget rfl (.inl ⟨rfl, rfl, rfl⟩), ?_,
      fun _ h => .inl h, rfl, rfl⟩ hset fun _ h => .inl h
    have hunsent := unsent_eq_false hget hhdr
    change (([] ++ (s.pendingSend ++ [id])) ++ s.pendingConcurrency).filter s.unsent |>.Sublist
      ((([id] ++ s.pendingSend) ++ s.pendingConcurrency).filter s.unsent)
    simp [filter_append, hunsent]
  | @failed s log away id stream len data code hget _ _ _ _ =>
    refine hc.steady (Steady.idle (.of_each (.steady_setStream hget rfl
      (.inr ⟨rfl, rfl⟩)) rfl rfl rfl rfl rfl rfl)) (.ended hget) ?_
    exact Ended.of_ends rfl hget rfl fun _ => ends_self
  | @frameReceived s log away id stream state e hreceived hget hmove _ =>
    exact hc.steady (.of_each (.steady_setStream hget rfl (hc.steady_moved hget hmove rfl
      (isUnsent_of_received hreceived hmove))) rfl rfl rfl rfl rfl rfl)
      (.moved hget hmove) fun _ h => .inl h
  | @remoteReset s log away stream frame code _ _ hget _ _ =>
    refine hc.steady (.of_each (.steady_setStream hget rfl (.inr ⟨rfl, rfl⟩)) rfl rfl rfl rfl
      rfl rfl) (.ended hget) ?_
    exact Ended.of_ends rfl hget rfl fun _ hends => (ends_received hends).1.symm
  | @resetIgnored s log away frame code _ hignored =>
    refine hc.steady (.of_log rfl) (.of_eq rfl)
      fun j hended => ?_
    rcases hended.of_cons with hends | hbefore
    · obtain ⟨rfl, -⟩ := ends_received hends
      rcases hignored with hlarge | ⟨stream, hget, hclosed⟩
      · rw [show s.maxRecvId = initialMaxRecvStreamId from hc.recv] at hlarge
        exact .inr (.inl (UInt32.lt_iff_toNat_lt.mp hlarge))
      · exact .inr (.inr ⟨stream, hget, H2StreamState.not_isSending_of_isClosed hclosed⟩)
    · exact .inl hbefore
  | @localReset s log away id stream code told _ hget _ _ =>
    refine hc.steady (.of_each (.steady_setStream hget rfl (.inr ⟨rfl, rfl⟩)) rfl rfl rfl rfl
      rfl ?_) (.ended hget) ?_
    · cases told <;> rfl
    · cases told with
      | false => exact fun j hended => .inl hended
      | true => exact Ended.of_ends rfl hget rfl fun _ => ends_self
  | @localResetLate s log away id stream hget hst =>
    refine hc.steady (.of_each (.steady_setStream hget rfl (.inl ⟨rfl, ?_, ?_⟩)) rfl rfl rfl
      rfl rfl rfl) (.setStream hget (fun h => by cases h)) fun _ h => .inl h
    · rw [hst]
      rfl
    · rw [hst]
      rfl
  | @settings s s' log away env settings frame hpay _ hbound hsettings =>
    have hresized := (recvSettings_resized hbound hsound.bounded hsettings).1
    have hends := ends_received_of_ne hpay (by simp)
    have hrest := hresized.rest
    refine hc.steady ?_ hresized.noneStarts fun j h => .inl (h.tail (hends j))
    rcases hresized.queues with ⟨hnil, ids, hids, hsend⟩ | ⟨hwin, hsend, -⟩
    · refine Steady.requeued hresized.steady hsend (fun id hid => ?_) (by rw [hrest])
        (fun id hid => ?_) (by rw [hrest]) rfl
      · exact hc.parked id (mem_append_left _ (hids.mem_iff.mp hid))
      · rw [parked, hnil, hrest] at hid
        exact mem_append_right _ hid
    · exact .of_each hresized.steady hsend (by rw [hrest]) hwin (by rw [hrest]) (by rw [hrest])
        rfl
  | @connUpdate s log away n flow frame hpay _ _ _ =>
    have hends := ends_received_of_ne hpay (by simp)
    refine hc.steady ?_ (.of_eq rfl) fun j h => .inl (h.tail (hends j))
    refine @Steady.requeued log away s _ _ away s.pendingConnWindow (.steady_refl s rfl) rfl
      (fun id hid => ?_) rfl (fun id hid => ?_) rfl rfl
    · exact hc.parked id (mem_append_right _ hid)
    · rw [parked, mem_append] at hid
      exact mem_append_left _ (hid.resolve_right (by simp [reassignConnSendWindow]))
  | @streamUpdate s s' log away n frame hpay _ hbound hreassign =>
    have henlarged := reassignStreamSendWindow_enlarged hbound hreassign
    have hends := ends_received_of_ne hpay (by simp)
    have hrest := henlarged.rest
    refine hc.steady ?_ henlarged.noneStarts fun j h => .inl (h.tail (hends j))
    rcases henlarged.queues with ⟨hmem, hwin, hsend⟩ | ⟨-, hwin, hsend⟩
    · refine Steady.requeued henlarged.steady hsend (fun id hid => ?_) (by rw [hrest])
        (fun id hid => ?_) (by rw [hrest]) rfl
      · rw [mem_singleton.mp hid]
        exact hc.parked _ (mem_append_left _ hmem)
      · rw [parked, hwin, hrest] at hid
        rcases mem_append.mp hid with hid | hid
        · exact mem_append_left _ (mem_of_mem_erase hid)
        · exact mem_append_right _ hid
    · exact .of_each henlarged.steady hsend (by rw [hrest]) hwin (by rw [hrest])
        (by rw [hrest]) rfl
  | @dataAccepted s s₁ s' log away octets update update' frame hpay _ _ hconn hstr =>
    have honly := (releaseConnRecvWindow_recvOnly hconn).trans
      (releaseStreamRecvWindow_recvOnly hstr)
    have hends := ends_received_of_ne hpay (by simp)
    have hconn' := releaseConnRecvWindow_plain hconn
    have hstr' := releaseStreamRecvWindow_plain hstr
    have hlog : headersSent (sentUpdate update' ++ (sentUpdate update ++ .received frame :: log)) =
        headersSent log := by
      rw [headersSent_append (sentUpdate_plain hstr'), headersSent_append (sentUpdate_plain hconn')]
      rfl
    refine hc.steady (honly.settled hlog) honly.noneStarts fun j hended => ?_
    exact .inl (((hended.of_append (ends_sentUpdate hstr' j)).of_append
      (ends_sentUpdate hconn' j)).tail (hends j))
  | @dataRefused s s₁ log away octets update e frame hpay _ hconn _ =>
    have honly := releaseConnRecvWindow_recvOnly hconn
    have hends := ends_received_of_ne hpay (by simp)
    have hconn' := releaseConnRecvWindow_plain hconn
    have hlog : headersSent (sentUpdate update ++ .received frame :: log) = headersSent log := by
      rw [headersSent_append (sentUpdate_plain hconn')]
      rfl
    refine hc.steady (honly.settled hlog) honly.noneStarts fun j hended => ?_
    exact .inl ((hended.of_append (ends_sentUpdate hconn' j)).tail (hends j))
  | acknowledged _ hack =>
    have honly := recvAcknowledged_recvOnly hack
    exact hc.steady (honly.settled rfl) honly.noneStarts fun _ h => .inl h
  | wentAway _ hunset =>
    have hunset := getUnsetStreams_unset hunset
    exact hc.steady (.of_each hunset.steady (by rw [hunset.rest]) (by rw [hunset.rest])
      (by rw [hunset.rest]) (by rw [hunset.rest]) (by rw [hunset.rest]) rfl)
      hunset.noneStarts fun _ h => .inl h
  | @received s log away frame hdeferred =>
    exact hc.steady (.of_log rfl) (.of_eq rfl)
      fun j h => .inl (h.tail (ends_of_isDeferred hdeferred j))
  | @sent s log away frame hanswer =>
    have hplain := Frame.isPlain_of_isAnswer hanswer
    refine hc.steady (.of_log ?_) (.of_eq rfl)
      fun j h => .inl (h.tail (ends_of_isPlain hplain j))
    exact @headersSent_append [.sent frame] log fun entry hent => by
      rw [mem_singleton.mp hent]
      exact hplain
  | stopped => exact absurd rfl hphase

def Conn.Announced (R : Rules) (c : Conn) : Prop :=
  ∀ id, R.resets .byClient id → id ∈ headersSent c.log

structure Conn.Cycles (c : Conn) : Prop where
  waits : c.Waits
  lifeCycle : LifeCycle c.log
  course : c.phase ≠ .over → c.Course

theorem Conn.Course.headers_inOrder {header : Frame} (hc : Conn.Course ⟨s, .input id, log, away⟩)
    (hnum : s.Numbered) (hget : s.streamMap.lookup id = some stream)
    (hhdr : stream.header = some header) (hid : header.id = id)
    (hparts : header.payload = .headers parts)
    (hmove : (StreamFrame.sendHeaders header.flags.isEndStream).move stream.state = some state) :
    (Entry.sent header).InOrder log := by
  have hunsent : s.unsent id = true := by simp [Streams.unsent, hget, hhdr]
  have hline : id ∈ Conn.line ⟨s, .input id, log, away⟩ :=
    mem_filter.mpr ⟨by simp [Conn.ahead, Phase.taken], hunsent⟩
  have hlimit : id.toNat < 2147483647 := UInt32.lt_iff_toNat_lt.mp (hc.limit id stream hget)
  simp only [Entry.InOrder, hparts, hid]
  refine ⟨hnum.odd id stream hget, by omega, fun j hj => ?_, ?_⟩
  · exact (pairwise_append.mp hc.line).2.2 j (mem_reverse.mpr hj) id hline
  · exact hc.not_ended hget
      (H2StreamState.isSending_of_isUnsent (isUnsent_of_sendHeaders hmove).1)

theorem Conn.Course.data_inOrder (hc : Conn.Course ⟨s, phase, log, away⟩)
    (hget : s.streamMap.lookup id = some stream)
    (hmove : (StreamFrame.sendData eos).move stream.state = some state) :
    (Entry.sent { id, flags, payload := .data octets }).InOrder log := by
  have hhdr := hc.header_none hget (isUnsent_of_sendData hmove).1
  have hopen := not_isClosed_of_move hmove
  refine ⟨hc.sent id stream hget hopen hhdr, hc.not_ended hget ?_⟩
  rcases hst : stream.state with _ | _ | _ | recv | _ | reason
  case localHalfClosed =>
    rw [hst] at hmove
    cases hmove
  case closed =>
    rw [hst] at hopen
    cases hopen
  all_goals rfl

theorem Action.lifeCycle (h : Action R c c') (hannounced : c.Announced R) (hc : c.Cycles) :
    LifeCycle c'.log := by
  have hcourse : c.phase ≠ .over → c.Course := hc.course
  have hlog := hc.lifeCycle
  cases h with
  | @headers s log away id stream header state hget hhdr hmove _ =>
    obtain ⟨hid, parts, hparts⟩ := hc.waits.sound.stored id stream header hget hhdr
    exact ⟨(hcourse (by simp)).headers_inOrder hc.waits.sound.numbered hget hhdr hid hparts
      hmove, hlog⟩
  | data hget hmove | finished hget _ _ _ _ hmove =>
    exact ⟨(hcourse (by simp)).data_inOrder hget hmove, hlog⟩
  | failed hget hhdr hopen =>
    exact ⟨⟨(hcourse (by simp)).sent _ _ hget hopen hhdr, isEndStream_zero⟩, hlog⟩
  | localReset told hresets =>
    cases told with
    | false => exact hlog
    | true => exact ⟨⟨hannounced _ hresets, isEndStream_zero⟩, hlog⟩
  | dataAccepted _ _ _ hconn hstr =>
    exact LifeCycle.append (LifeCycle.append ⟨trivial, hlog⟩
      (sentUpdate_plain (releaseConnRecvWindow_plain hconn)))
      (sentUpdate_plain (releaseStreamRecvWindow_plain hstr))
  | dataRefused _ _ hconn =>
    exact LifeCycle.append ⟨trivial, hlog⟩
      (sentUpdate_plain (releaseConnRecvWindow_plain hconn))
  | sent hanswer => exact ⟨.of_plain (Frame.isPlain_of_isAnswer hanswer), hlog⟩
  | stopped hentries => exact hlog.append hentries
  | opened | remoteReset | resetIgnored | settings | connUpdate
  | streamUpdate | received => exact ⟨trivial, hlog⟩
  | admitted | taken | skipped | parkedStream | parkedConn | waited
  | frameReceived | localResetLate | acknowledged | wentAway => exact hlog

theorem Action.log_subset (h : Action R c c') : c.log ⊆ c'.log := by
  cases h with
  | localReset told =>
    cases told with
    | false => exact List.Subset.refl _
    | true => exact subset_cons_self _ _
  | dataAccepted | dataRefused =>
    intro entry hent
    simp [hent]
  | stopped => exact subset_append_right _ _
  | admitted | taken | skipped | parkedStream | parkedConn | waited
  | frameReceived | localResetLate | acknowledged | wentAway =>
    exact List.Subset.refl _
  | _ => exact subset_cons_self _ _

theorem Action.cycles (h : Action R c c') (hannounced : c.Announced R) (hc : c.Cycles) :
    c'.Cycles where
  waits := h.waits hc.waits
  lifeCycle := h.lifeCycle hannounced hc
  course hphase := by
    have hbefore : c.phase ≠ .over := fun hover => hphase (h.over hover)
    exact h.course hc.waits.sound (hc.waits.queued hbefore) (hc.course hbefore) hphase

theorem Action.announced (h : Action R c c') (hc : c.Announced R) : c'.Announced R := by
  intro id hresets
  obtain ⟨entry, hent, hid⟩ := mem_filterMap.mp (hc id hresets)
  exact mem_filterMap.mpr ⟨entry, h.log_subset hent, hid⟩

/-! ## END_STREAM -/

theorem LifeCycle.endsStream_le_one (h : LifeCycle log) (id : StreamId) :
    log.countP (endsStream id) ≤ 1 := by
  induction log with
  | nil => exact Nat.zero_le 1
  | cons entry before ih =>
    obtain ⟨hinOrder, hbefore⟩ := h
    cases hends : entry.endsStream id with
    | false =>
      rw [countP_cons_of_neg (by simp [hends])]
      exact ih hbefore
    | true =>
      rw [countP_cons_of_pos hends]
      have hnone : ¬ Ended id before → before.countP (endsStream id) = 0 := by
        intro hnot
        refine countP_eq_zero.mpr fun entry' hent' hends' => hnot (ended_iff.mpr ?_)
        exact ⟨entry', hent', by simp [ends, hends']⟩
      cases entry with
      | opened | received => cases hends
      | sent frame =>
        simp only [endsStream, Bool.and_eq_true, decide_eq_true_eq] at hends
        obtain ⟨rfl, heos, hplain⟩ := hends
        rw [Entry.InOrder] at hinOrder
        cases hpay : frame.payload with
        | headers parts =>
          simp only [hpay] at hinOrder
          rw [hnone hinOrder.2.2.2]
        | data octets =>
          simp only [hpay] at hinOrder
          rw [hnone hinOrder.2]
        | rstStream code =>
          simp only [hpay] at hinOrder
          rw [hinOrder.2] at heos
          cases heos
        | _ =>
          rw [Frame.isPlain, hpay] at hplain
          cases hplain

/-! ## Runs -/

theorem start_cycles {config : H2Config} {m : ConnManager}
    (h : start config = .ok m) : m.conn.Cycles := by
  obtain ⟨-, -, flow, hstreams, -⟩ := start_streams h
  obtain ⟨update, hlog, hplain⟩ := start_log h
  have hempty : ∀ id, m.streams.streamMap.lookup id = none := by
    rw [hstreams]
    exact fun _ => rfl
  have hentries : ∀ entry ∈ m.log, entry.isPlain = true := by
    intro entry hent
    rw [hlog, mem_append, sentUpdate, Option.mem_toList, Option.map_eq_some_iff] at hent
    rcases hent with ⟨frame, hframe, rfl⟩ | hent
    · exact hplain frame hframe
    · rw [mem_singleton.mp hent]
      rfl
  have hnil : headersSent m.log = [] :=
    filterMap_eq_nil_iff.mpr fun entry hent => headersId_of_plain (hentries entry hent)
  refine ⟨start_waits h, ?_, fun _ => ⟨fun id stream hget => ?_, ?_, fun id hid => ?_,
    fun id stream hget => ?_, fun id hid => ?_, fun id hended => ?_, ?_, fun id stream hget => ?_⟩⟩
  · have hlife := @LifeCycle.append m.log [] trivial hentries
    rwa [append_nil] at hlife
  · rw [conn, hempty] at hget
    cases hget
  · change ((headersSent m.log).reverse ++ m.conn.line).Pairwise (· < ·)
    rw [hnil, line, ahead, conn, hstreams]
    exact List.Pairwise.nil
  · change id ∈ headersSent m.log at hid
    rw [hnil] at hid
    cases hid
  · rw [conn, hempty] at hget
    cases hget
  · change id ∈ m.streams.parked at hid
    rw [parked, hstreams] at hid
    cases hid
  · obtain ⟨entry, hent, hends⟩ := ended_iff.mp hended
    have hent' : entry ∈ sentUpdate update ++
        [.sent (localSettings (createInitialSettings config))] := hlog ▸ hent
    have hplain' := hentries entry hent
    cases entry with
    | opened => cases hplain'
    | received frame =>
      rw [mem_append, sentUpdate, Option.mem_toList, Option.map_eq_some_iff] at hent'
      rcases hent' with ⟨frame', -, heq⟩ | hent'
      · cases heq
      · cases mem_singleton.mp hent'
    | sent frame =>
      rw [ends_of_isPlain hplain' id] at hends
      cases hends
  · change m.streams.maxRecvId = _
    rw [hstreams]
    rfl
  · rw [conn, hempty] at hget
    cases hget

/-- A stream is opened, or a HEADERS or DATA frame is sent. -/
def Entry.isRequest : Entry → Bool
  | .opened _ => true
  | .sent frame => match frame.payload with
    | .headers _ | .data _ => true
    | _ => false
  | .received _ => false

/-- The server is going away, and no stream is at its turn. -/
structure Conn.Leaving (L : List Entry) (c : Conn) : Prop where
  sound : c.Sound
  away : c.away = true
  phase : ∀ id, c.phase ≠ .input id
  requests : c.log.filter isRequest = L

theorem Entry.filter_plain {entries : List Entry}
    (h : ∀ entry ∈ entries, entry.isPlain = true) :
    (entries ++ log).filter isRequest = log.filter isRequest := by
  rw [filter_append, filter_eq_nil_iff.mpr fun entry hent => ?_, nil_append]
  have hplain := h entry hent
  cases entry with
  | opened => cases hplain
  | received => simp [isRequest]
  | sent frame =>
    rw [isPlain, Frame.isPlain] at hplain
    rw [isRequest]
    cases hpay : frame.payload <;> simp_all

theorem Action.leaving {L : List Entry} (h : Action R c c') (hc : c.Leaving L) :
    c'.Leaving L := by
  have hsound := h.sound hc.sound
  obtain ⟨-, haway, hphase, rfl⟩ := hc
  cases h with
  | opened | admitted | taken => cases haway
  | headers | data | finished | skipped | parkedStream | parkedConn | waited | failed =>
    exact absurd rfl (hphase _)
  | dataAccepted _ _ _ hconn hstr =>
    refine ⟨hsound, haway, hphase, ?_⟩
    rw [filter_plain (sentUpdate_plain (releaseStreamRecvWindow_plain hstr)),
      filter_plain (sentUpdate_plain (releaseConnRecvWindow_plain hconn))]
    rfl
  | dataRefused _ _ hconn =>
    exact ⟨hsound, haway, hphase,
      filter_plain (sentUpdate_plain (releaseConnRecvWindow_plain hconn))⟩
  | sent hanswer =>
    exact ⟨hsound, haway, hphase,
      @filter_plain _ [_] (forall_mem_singleton.mpr (Frame.isPlain_of_isAnswer hanswer))⟩
  | stopped hentries => exact ⟨hsound, haway, (fun id h => by cases h), filter_plain hentries⟩
  | localReset told => exact ⟨hsound, haway, hphase, by cases told <;> rfl⟩
  | wentAway => exact ⟨hsound, rfl, hphase, rfl⟩
  | _ => exact ⟨hsound, haway, hphase, rfl⟩

namespace ConnManager

variable {config : H2Config}

def telling (m : ConnManager) : Rules where
  resets kind id := kind = .byClient → id ∈ headersSent m.log
  goAway _ _ := True
  settings _ := True

/-- The HEADERS, DATA and RST_STREAM frames of every run are sent in the order of the life cycle
of their streams, where the client resets no stream before its HEADERS. -/
theorem stream_life_cycle {log : List Entry} (h : KeptLog telling config log) :
    LifeCycle log ∧ ∀ id, log.countP (Entry.endsStream id) ≤ 1 := by
  obtain ⟨c, hc, rfl⟩ := @KeptLog.holds telling config Conn.Cycles Conn.Announced
    (fun _ _ => trivial) (fun R c c' haction hc => ⟨haction.cycles hc.2 hc.1, haction.announced hc.2⟩)
    (fun m id h => h rfl) (fun c hc => ⟨hc.waits.sound.bounded, hc.waits.sound.stored⟩)
    (fun m => start_cycles) log h
  exact ⟨hc.lifeCycle, hc.lifeCycle.endsStream_le_one⟩

/-- A request with a body of three octets is sent in three frames. -/
theorem stream_life_cycle_three_octets :
    ∃ log, KeptLog telling plainConfig log ∧ headersSent log = [1] ∧ EndSent 1 log ∧
      LifeCycle log := by
  have hsent := @Kept.step telling plainConfig _ _ plainEnvironment
    (.respPending [plainRequest [.octets [1, 2, 3]]] false) .pending (.start rfl)
    (fun _ => trivial) rfl (by simp)
  exact ⟨_, .reached hsent, rfl, by decide, (stream_life_cycle (.reached hsent)).1⟩

/-- A stream that waits for its turn is reset before its HEADERS are sent. -/
theorem reset_before_headers :
    ∃ log, Recorded plainConfig log ∧ .sent (rstStream 3 .protocolError) ∈ log ∧
      3 ∉ headersSent log ∧ ¬ LifeCycle log := by
  have hlimited := (Reached.start rfl).ready (limitStreams 1) rfl
  have hwaits := hlimited.pending
    (.respPending [plainRequest [.pending], plainRequest [.pending]] false) rfl
  have hreset := hwaits.ready (.outputExit (.h2 (.streamError 3 .protocolError))) rfl
  exact ⟨_, .reached hreset, by decide, by decide, fun h => absurd h.1.1 (by decide)⟩

/-- What a run goes on to. -/
abbrev Later : ConnManager → ConnManager → Prop :=
  Relation.ReflTransGen fun m m' => ∃ env event r, m.step env event = .ok (m', r) ∧
    ∀ e, r ≠ .ready (.error e)

/-- Once the server is going away, no stream is opened any more and no HEADERS or DATA frame is
sent, not even the rest of a body. -/
theorem goAway_stops_requests {m m' : ConnManager} (h : Reached config m)
    (haway : m.goAwayErrorCode.isSome = true) (hlater : m.Later m') :
    m'.log.filter isRequest = m.log.filter isRequest := by
  have hholds : Holds anything (Conn.Leaving (m.log.filter isRequest)) m := by
    rcases @Reached.holds config Conn.Sound (fun _ => start_sound) (fun _ _ => Action.sound)
      (fun _ hc => ⟨hc.bounded, hc.stored⟩) m h with ⟨halive, hsound⟩ | ⟨hdead, c, hsound, hlog⟩
    · exact .inl ⟨halive, hsound, haway, (fun id h => by cases h), rfl⟩
    · exact .inr ⟨hdead, ⟨c.streams, .over, c.log, true⟩, ⟨⟨hsound.bounded, hsound.stored,
        hsound.numbered⟩, rfl, (fun id h => by cases h), hlog ▸ rfl⟩, hlog⟩
  have hends : Holds anything (Conn.Leaving (m.log.filter isRequest)) m' := by
    induction hlater with
    | refl => exact hholds
    | tail _ hstep ih =>
      obtain ⟨env, event, r, hstep, hr⟩ := hstep
      exact (ih.step (fun _ _ => Action.leaving) (fun _ hc => ⟨hc.sound.bounded, hc.sound.stored⟩)
        (fun _ => permits_anything _ _ _) hstep).2 hr
  obtain ⟨c, hc, hlog⟩ := hends.recorded
  exact hlog ▸ hc.requests

/-- A request that comes after a GOAWAY frame, while the first stream is still open. -/
theorem goAway_stops_requests_queued :
    ∃ m m' : ConnManager, Reached plainConfig m ∧ m.goAwayErrorCode = some 0 ∧
      m'.log.filter isRequest = m.log.filter isRequest := by
  have hopened := (Reached.start rfl).pending (.respPending [plainRequest [.pending]] false) rfl
  have haway := hopened.ready (.output ⟨goawayFrame ⟨0, 1, []⟩, by simp [goawayFrame],
    by simp [goawayFrame], by simp [goawayFrame]⟩) rfl
  exact ⟨_, _, haway, rfl, goAway_stops_requests haway rfl (.single
    ⟨plainEnvironment, .respPending [plainRequest [.pending]] false, .pending, rfl, by simp⟩)⟩

end ConnManager

end YlongHttp
