import YlongHttp.Verification.H3.Conservation

/-! # A turn of the stream manager loses nothing of a request -/

namespace YlongHttp.H3

open List H3.FrameEncoder H3.Streams
open Library

theorem Unsent.of_stream {v : View} (h : Unsent v) (stream : Option BidirectionalStream) :
    Unsent { v with stream } :=
  ⟨h.produced, h.log, h.instructions, h.fin⟩

namespace Account

variable {r : Request} {v : View} {p : Produced} {datas : List Bytes}
  {octets insts rest left inst : Bytes}

theorem of_stream (h : Account r v p datas octets insts rest left inst)
    (stream : Option BidirectionalStream) :
    Account r { v with stream } p datas octets insts rest left inst :=
  ⟨h.produced, h.lines, h.sent, h.instructions, h.body, h.fin, h.order⟩

theorem write {left' inst' : Bytes} (h : Account r v p datas [] [] rest left inst)
    (hleft : octets ++ left' = left) (hinst : insts ++ inst' = inst) :
    Account r v p datas octets insts rest left' inst' where
  produced := h.produced
  lines := h.lines
  sent := by rw [← h.sent, ← hleft, append_nil, append_assoc]
  instructions := by rw [← h.instructions, ← hinst, append_nil, append_assoc]
  body := h.body
  fin hfin := by
    obtain ⟨-, -, rfl, rfl, hrest⟩ := h.fin hfin
    obtain ⟨hoct, hleft⟩ := append_eq_nil_iff.mp hleft
    obtain ⟨hinsts, hinst⟩ := append_eq_nil_iff.mp hinst
    exact ⟨hoct, hinsts, hleft, hinst, hrest⟩
  order := h.order

theorem send (h : Account r v p datas octets insts rest left inst) (s : Sent)
    (hs : s.octets = octets) (hfin : s.fin = false) :
    Account r { v with log := v.log ++ [s] } p datas [] insts rest left inst where
  produced := h.produced
  lines := h.lines
  sent := by
    rw [← h.sent, octetsOf, flatMap_append, flatMap_singleton, hs, append_nil]
    rfl
  instructions := h.instructions
  body := h.body
  fin hlast := by
    obtain ⟨t, ht, htfin⟩ := hlast
    rcases mem_append.mp ht with ht | ht
    · obtain ⟨-, hrest⟩ := h.fin ⟨t, ht, htfin⟩
      exact ⟨rfl, hrest⟩
    · obtain rfl := mem_singleton.mp ht
      cases hfin.symm.trans htfin
  order := by
    refine pairwise_append.mpr ⟨h.order, pairwise_singleton _ _, ?_⟩
    intro a ha b hb hafin
    obtain rfl := mem_singleton.mp hb
    exact hs.trans (h.fin ⟨a, ha, hafin⟩).1

theorem sendInstructions (h : Account r v p datas octets insts rest left inst) (s : Sent)
    (hs : s.octets = insts) :
    Account r { v with instructions := v.instructions ++ [s] } p datas octets [] rest left inst where
  produced := h.produced
  lines := h.lines
  sent := h.sent
  instructions := by
    rw [← h.instructions, octetsOf, flatMap_append, flatMap_singleton, hs, append_nil]
    rfl
  body := h.body
  fin hfin := by
    obtain ⟨hoct, -, hrest⟩ := h.fin hfin
    exact ⟨hoct, rfl, hrest⟩
  order := h.order

theorem finish (h : Account r v p datas [] [] [] [] []) (s : Sent) (hs : s.octets = []) :
    Account r { v with log := v.log ++ [s] } p datas [] [] [] [] [] where
  produced := h.produced
  lines := h.lines
  sent := by
    rw [← h.sent, octetsOf, flatMap_append, flatMap_singleton, hs, append_nil]
    rfl
  instructions := h.instructions
  body := h.body
  fin _ := ⟨rfl, rfl, rfl, rfl, rfl⟩
  order := by
    refine pairwise_append.mpr ⟨h.order, pairwise_singleton _ _, ?_⟩
    intro a _ b hb _
    obtain rfl := mem_singleton.mp hb
    exact hs

theorem take {data : Bytes} (h : Account r v p datas [] [] (data ++ rest) [] [])
    (hne : data ≠ []) : Account r v p (datas ++ [data]) [] [] rest (dataOctets data) [] where
  produced := h.produced
  lines := h.lines
  sent := by
    have hsent := h.sent
    rw [append_nil, append_nil] at hsent
    rw [append_nil, hsent, flatMap_append, flatMap_singleton, append_assoc]
  instructions := h.instructions
  body := by rw [← h.body, flatten_append, flatten_singleton, append_assoc]
  fin hfin := by
    obtain ⟨-, -, -, -, hrest⟩ := h.fin hfin
    exact (hne (append_eq_nil_iff.mp hrest).1).elim
  order := h.order

end Account

namespace Steady

variable {read : BodyRead} {reads : List BodyRead}

theorem tail (h : Steady (read :: reads)) : Steady reads := fun read hread => h read (.tail _ hread)

theorem pollRead {len : ℕ} (h : Steady reads)
    (hroom : len = 0 → ∀ octets rest, reads ≠ .octets octets :: rest) :
    ∃ reads', Steady reads' ∧
      ((BodyDataRef.pollRead { body := some reads } len = ({ body := some reads' }, .pending) ∧
        bodyOctets reads' = bodyOctets reads) ∨
      ∃ octets, BodyDataRef.pollRead { body := some reads } len =
          ({ body := some reads' }, .ready octets) ∧
        octets ++ bodyOctets reads' = bodyOctets reads ∧
        (octets = [] → bodyOctets reads' = [])) := by
  cases reads with
  | nil => exact ⟨[], h, .inr ⟨[], rfl, rfl, fun _ => rfl⟩⟩
  | cons read reads =>
    cases read with
    | failed => exact ((h _ (.head _)).1 rfl).elim
    | pending => exact ⟨reads, h.tail, .inl ⟨rfl, rfl⟩⟩
    | octets octets =>
      have hne : octets ≠ [] := fun hnil => (h _ (.head _)).2 (congrArg BodyRead.octets hnil)
      by_cases hfits : octets.length ≤ len
      · refine ⟨reads, h.tail, .inr ⟨octets, ?_, rfl, fun hnil => (hne hnil).elim⟩⟩
        rw [BodyDataRef.pollRead]
        exact if_pos hfits
      · refine ⟨.octets (octets.drop len) :: reads, ?_, .inr ⟨octets.take len, ?_, ?_, ?_⟩⟩
        · intro read hread
          rcases mem_cons.mp hread with rfl | hread
          · refine ⟨nofun, fun hnil => hfits (drop_eq_nil_iff.mp ?_)⟩
            exact BodyRead.octets.inj hnil
          · exact h.tail read hread
        · rw [BodyDataRef.pollRead]
          exact if_neg hfits
        · rw [bodyOctets, flatMap_cons, ← append_assoc, take_append_drop]
          rfl
        · intro hnil
          rcases take_eq_nil_iff.mp hnil with hzero | hnil
          · exact (hroom hzero octets reads rfl).elim
          · exact (hne hnil).elim

end Steady

namespace FrameEncoder

variable {self : FrameEncoder} {id : ℕ} {e : EncodedH3Stream}

theorem produces_none (h : self.streams.lookup id = none) : self.produces id = none := by
  rw [produces, h]

variable {inst : Bytes}

theorem produces_writing {left : Bytes} (h : self.streams.lookup id = some e)
    (hwriting : e.Writing left inst) : self.produces id = none := by
  have hst : e.state ≠ .encodingHeadersFrame := by
    cases hwriting with
    | rest hrest => rcases hrest with hst | hst <;> rw [hst] <;> nofun
    | fields message ty parts ins hst | dataFrame data hst | dataPayload data hst => rw [hst]; nofun
  rw [produces, h]
  exact if_neg fun hhead => hst hhead.1

theorem produces_head {q : Qpack.QpackEncoder} {fields : Bytes}
    (h : self.streams.lookup id = some e) (hhead : e.Head)
    (hencode : self.qpackEncoder.encode e.streamId = some (q, fields, inst)) :
    self.produces id = some { lines := self.qpackEncoder.fieldIter, fields, inst } := by
  rw [produces, h]
  dsimp only
  rw [if_pos ⟨hhead.state, hhead.message⟩, hencode]
  rfl

end FrameEncoder

namespace StreamManager

variable {r : Request} {quic : Quic} {m : StreamManager} {fuel : ℕ}
variable {m' : StreamManager} {e' : EncodedH3Stream} {q : Qpack.QpackEncoder}
  {stream : BidirectionalStream} {fin : Bool} {data : Bytes}

def Unharmed (r : Request) (e : Fault DispatchErrorKind) (m : StreamManager) : Prop :=
  e ≠ .panic → Stands r m

/-! ## Calls of the QUIC library -/

variable {P : StreamManager → Prop} {id i : ℕ} {e : EncodedH3Stream} {inst left : Bytes}
  {p : Produced}

theorem triple_orQuic {α : Type} {result : Except QuicError α} (hP : ∀ m, P m → Stands r m) :
    Triple P (orQuic result) (fun _ => P) (Unharmed r) := by
  cases result with
  | ok a => exact .pure a fun _ hm => hm
  | error e => exact .throw _ fun m hm _ => hP m hm

theorem triple_streamWritable (hasked : ∀ {m : StreamManager} (asked : ℕ), P m → P { m with asked })
    (hP : ∀ m, P m → Stands r m) :
    Triple P (streamWritable quic) (fun _ => P) (Unharmed r) :=
  .bind (Q := fun _ => P) (fun _ hm => hasked _ hm) fun _ => triple_orQuic hP

def Accepts (quic : Quic) : Prop := ∀ n, quic.send n = .ok ()

/-! ## A call of the encoder -/

/-- The frame may be encoded; if `quiet`, no instructions come of it. -/
inductive Ready (r : Request) (quiet : Prop) (m : StreamManager) : Prop where
  | head (stream : BidirectionalStream) : Headed r m stream →
      (∀ e, m.encoder.streams.lookup r.id = some e →
        m.encoder.qpackEncoder.fieldIter = some r.lines) →
      (quiet → ∀ e q fields inst, m.encoder.streams.lookup r.id = some e →
        m.encoder.qpackEncoder.encode e.streamId = some (q, fields, inst) → inst = []) →
      Ready r quiet m
  | going (stream : BidirectionalStream) (p : Produced) (datas : List Bytes)
      (rest left inst : Bytes) : Going r m stream p datas [] [] rest left inst →
      stream.Unread rest → stream.encoding = true →
      (quiet → ∀ e, m.encoder.streams.lookup r.id = some e → inst = []) → Ready r quiet m

/-- Such octets and instructions are under way, which are all that was left if there are none. -/
def Flight (r : Request) (quiet : Prop) (octets insts : Bytes) (final : Prop)
    (m : StreamManager) : Prop :=
  ∃ stream p datas rest left inst, Going r m stream p datas octets insts rest left inst ∧
    stream.Unread rest ∧ stream.encoding = true ∧ (quiet → insts = [] ∧ inst = []) ∧
    (final → left = [] ∧ inst = [])

variable {quiet : Prop}

theorem Ready.held (h : Ready r quiet m) : Held r m := by
  cases h with
  | head stream h => exact .headed stream h
  | going stream p datas rest left inst h hunread henc =>
    exact .going stream p datas rest left inst h hunread henc

theorem Ready.stands (h : Ready r quiet m) : Stands r m := .held h.held

theorem Ready.of_view (h : Ready r quiet m) (hopened : Opened r.qpackId m')
    (hview : m'.view r.id r.qpackId = m.view r.id r.qpackId)
    (hqpack : m'.encoder.qpackEncoder = m.encoder.qpackEncoder) : Ready r quiet m' := by
  cases h with
  | head stream h hlines hinst =>
    have hent := congrArg View.entry hview
    refine .head stream (h.of_view hopened hview) ?_ fun hquiet e q fields inst he => ?_
    · exact fun e he => hqpack ▸ hlines e (hent.symm.trans he)
    · rw [hqpack]
      exact hinst hquiet e q fields inst (hent.symm.trans he)
  | going stream p datas rest left inst h hunread henc hinst =>
    exact .going stream p datas rest left inst (h.of_view hopened hview) hunread henc
      fun hquiet e he => hinst hquiet e ((congrArg View.entry hview).symm.trans he)

theorem Ready.asked (asked : ℕ) (h : Ready r quiet m) : Ready r quiet { m with asked } :=
  h.of_view h.held.opened rfl rfl

theorem encode_none (h : m.encoder.streams.lookup id = none) :
    encodeFrame id m = .error (.error (.h3 (.serialize .internalError))) m := by
  have hencode : m.encoder.encode id decodeBufSize decodeBufSize =
      (m.encoder, .error (.error (.serialize .internalError))) := by
    rw [encode, if_neg (by decide), h]
  rw [encodeFrame_eq, hencode, produces_none h]
  simp

def encoded (m : StreamManager) (id : ℕ) (e : EncodedH3Stream) (q : Qpack.QpackEncoder)
    (p : Option Produced) : StreamManager :=
  { m with
    encoder := { qpackEncoder := q, streams := modify id (fun _ => e) m.encoder.streams }
    produced := m.produced ++ (p.map fun p => (id, p)).toList }

theorem lookup_encoded {p : Option Produced} (h : m.encoder.streams.lookup id = some e) :
    (m.encoded id e' q p).encoder.streams.lookup id = some e' := by
  rw [encoded, lookup_modify_self, h]
  rfl

theorem encodeFrame_ok {octets insts : Bytes} (h : m.encoder.streams.lookup id = some e)
    (hloop : e.encodeLoop decodeBufSize decodeBufSize decodeBufSize m.encoder.qpackEncoder [] =
      ((e', q), .ok (octets, insts))) :
    encodeFrame id m = .ok (octets, insts) (m.encoded id e' q (m.encoder.produces id)) := by
  have hencode : m.encoder.encode id decodeBufSize decodeBufSize =
      ({ qpackEncoder := q, streams := modify id (fun _ => e') m.encoder.streams },
        .ok (octets, insts)) := by
    rw [encode, if_neg (by decide), h]
    dsimp only
    rw [hloop]
  rw [encodeFrame_eq, hencode]
  rfl

theorem encodeFrame_panic (h : m.encoder.streams.lookup id = some e)
    (hloop : (e.encodeLoop decodeBufSize decodeBufSize decodeBufSize m.encoder.qpackEncoder []).2 =
      .error .panic) : ∃ m', encodeFrame id m = .error .panic m' := by
  have hencode : (m.encoder.encode id decodeBufSize decodeBufSize).2 = .error .panic := by
    rw [encode, if_neg (by decide), h]
    exact hloop
  rw [encodeFrame_eq]
  rcases hres : m.encoder.encode id decodeBufSize decodeBufSize with ⟨encoder, result⟩
  rw [hres] at hencode
  obtain rfl : result = .error .panic := hencode
  exact ⟨_, rfl⟩

theorem Going.encoded {datas : List Bytes} {octets insts rest left' inst' : Bytes}
    (h : Going r m stream p datas [] [] rest left inst)
    (hent : m.encoder.streams.lookup r.id = some e) (hwriting : e'.Writing left' inst')
    (hleft : octets ++ left' = left) (hinst : insts ++ inst' = inst) :
    Going r (m.encoded r.id e' q none) stream p datas octets insts rest left' inst' where
  opened := h.opened
  found := h.found
  header := h.header
  writing e'' he'' := by
    cases ((lookup_encoded hent).symm.trans he'')
    exact hwriting
  account := by
    have haccount := h.account.write hleft hinst
    refine ⟨?_, haccount.lines, haccount.sent, haccount.instructions, haccount.body,
      haccount.fin, haccount.order⟩
    exact (congrArg (filter _) (append_nil _)).trans haccount.produced

theorem Headed.encoded {octets insts : Bytes} (h : Headed r m stream)
    (hent : m.encoder.streams.lookup r.id = some e) (hlines : p.lines = some r.lines)
    (hwriting : e'.Writing left inst) (hleft : octets ++ left = headersOctets p.fields)
    (hinst : insts ++ inst = p.inst) :
    Going r (m.encoded r.id e' q (some p)) stream p [] octets insts r.body left inst where
  opened := h.coming.opened
  found := h.coming.found
  header := h.header
  writing e'' he'' := by
    cases ((lookup_encoded hent).symm.trans he'')
    exact hwriting
  account := by
    have hunsent := h.coming.unsent
    refine ⟨?_, hlines, ?_, ?_, rfl, ?_, ?_⟩
    · have hnone : m.produced.filter (·.1 = r.id) = [] := hunsent.produced
      change (m.produced ++ [(r.id, p)]).filter (·.1 = r.id) = _
      rw [filter_append, hnone]
      simp
    · have hlog : octetsOf ((m.encoded r.id e' q (some p)).view r.id r.qpackId).log = [] :=
        hunsent.log
      rw [hlog, nil_append, hleft, flatMap_nil, append_nil]
    · have hlog : octetsOf ((m.encoded r.id e' q (some p)).view r.id r.qpackId).instructions = [] :=
        hunsent.instructions
      rw [hlog, nil_append, hinst]
    · rintro ⟨s, hs, hfin⟩
      cases (hunsent.fin s hs).symm.trans hfin
    · refine pairwise_of_forall_mem_list fun a ha b _ hfin => ?_
      cases (hunsent.fin a ha).symm.trans hfin

theorem triple_encodeFrame : Triple (Ready r quiet) (encodeFrame r.id)
    (fun written => Flight r quiet written.1 written.2 (written.1 = [] ∧ written.2 = []))
    (Unharmed r) := by
  intro m hm
  cases hent : m.encoder.streams.lookup r.id with
  | none =>
    rw [encode_none hent]
    exact fun _ => hm.stands
  | some e =>
    cases hm with
    | head stream h hlines hinst =>
      have hcall := (h.head e hent).encodeLoop (q := m.encoder.qpackEncoder) decodeBufSize
        (show 1024 ≤ decodeBufSize by decide)
      obtain hpanic | ⟨q', fields, inst, e', octets, insts, hencode, hloop, hwrote⟩ := hcall
      · obtain ⟨m', hm'⟩ := encodeFrame_panic hent hpanic
        rw [hm']
        exact fun hne => (hne rfl).elim
      · rw [encodeFrame_ok hent hloop, produces_head hent (h.head e hent) hencode]
        obtain ⟨left', inst', hwriting, hoct, hinsts⟩ := hwrote.writing
        refine ⟨stream, _, [], _, left', inst',
          h.encoded hent (hlines e hent) hwriting hoct hinsts, h.coming.unread, h.encoding, ?_, ?_⟩
        · intro hquiet
          obtain rfl := hinst hquiet e _ _ _ hent hencode
          exact append_eq_nil_iff.mp hinsts
        · rintro ⟨rfl, rfl⟩
          exact absurd (hwrote.finished rfl rfl).1 (by simp [headersOctets, headersHead])
    | going stream p datas rest left inst h hunread henc hinst =>
      have hcall := (h.writing e hent).encodeLoop (q := m.encoder.qpackEncoder)
        (show 1024 ≤ decodeBufSize by decide) (show 0 < decodeBufSize by decide)
      obtain hpanic | ⟨e', octets, insts, hloop, hwrote⟩ := hcall
      · obtain ⟨m', hm'⟩ := encodeFrame_panic hent hpanic
        rw [hm']
        exact fun hne => (hne rfl).elim
      · rw [encodeFrame_ok hent hloop, produces_writing hent (h.writing e hent)]
        obtain ⟨left', inst', hwriting, hoct, hinsts⟩ := hwrote.writing
        refine ⟨stream, p, datas, rest, left', inst',
          h.encoded hent hwriting hoct hinsts, hunread, henc, ?_, ?_⟩
        · intro hquiet
          obtain rfl := hinst hquiet e hent
          exact append_eq_nil_iff.mp hinsts
        · rintro ⟨rfl, rfl⟩
          obtain ⟨rfl, rfl⟩ := hwrote.finished rfl rfl
          exact ⟨(append_eq_nil_iff.mp hoct).2, (append_eq_nil_iff.mp hinsts).2⟩

/-! ## Sending what is under way -/

def afterSend (m : StreamManager) (s : Sent) : StreamManager :=
  { m with asked := m.asked + 1, sent := m.sent ++ [s] }

theorem view_afterSend {q : ℕ} {octets : Bytes} (hq : q ≠ i) :
    (m.afterSend { request := i, id := i, octets, fin }).view i q =
      { m.view i q with
        log := (m.view i q).log ++ [{ request := i, id := i, octets, fin }] } := by
  simp [view, afterSend, hq.symm]

theorem view_afterSend_instructions {q : ℕ} {octets : Bytes} (hq : q ≠ i) :
    (m.afterSend { request := i, id := q, octets, fin }).view i q =
      { m.view i q with
        instructions := (m.view i q).instructions ++ [{ request := i, id := q, octets, fin }] } := by
  simp [view, afterSend, hq]

theorem streamSend_eq {request : ℕ} {octets : Bytes} (h : Accepts quic) :
    streamSend quic request id octets fin m = .ok ()
      (m.afterSend { request, id, octets, fin }) := by
  change EStateM.bind (EStateM.bind (ask quic.send) orQuic) _ m = _
  rw [EStateM.bind, EStateM.bind, ask]
  dsimp only
  rw [h]
  rfl

variable {octets insts : Bytes} {final : Prop}

theorem triple_sendInstructions (hacc : Accepts quic) (hq : r.qpackId ≠ r.id) :
    Triple (Flight r quiet octets insts final) (sendSome quic r.id r.qpackId insts)
      (fun _ => Flight r quiet octets [] final) (Unharmed r) := by
  refine .ite (fun hnone => .pure _ fun m hm => hnone ▸ hm) fun _ m hm => ?_
  rw [streamSend_eq hacc]
  obtain ⟨stream, p, datas, rest, left, inst, h, hunread, henc, hquiet, hfinal⟩ := hm
  refine ⟨stream, p, datas, rest, left, inst, ⟨h.opened, h.found, h.header, h.writing, ?_⟩, hunread,
    henc, fun hq => ⟨rfl, (hquiet hq).2⟩, hfinal⟩
  rw [view_afterSend_instructions hq]
  exact h.account.sendInstructions _ rfl

theorem flight_afterSend (hq : r.qpackId ≠ r.id) (hm : Flight r quiet octets [] final m) :
    Flight r quiet [] [] final
      (m.afterSend { request := r.id, id := r.id, octets, fin := false }) := by
  obtain ⟨stream, p, datas, rest, left, inst, h, hunread, henc, hquiet, hfinal⟩ := hm
  refine ⟨stream, p, datas, rest, left, inst, ⟨h.opened, h.found, h.header, h.writing, ?_⟩, hunread,
    henc, hquiet, hfinal⟩
  rw [view_afterSend hq]
  exact h.account.send _ rfl rfl

theorem triple_sendOctets (hacc : Accepts quic) (hq : r.qpackId ≠ r.id) :
    Triple (Flight r quiet octets [] final) (sendSome quic r.id r.id octets)
      (fun _ => Flight r quiet [] [] final) (Unharmed r) := by
  refine .ite (fun hnone => .pure _ fun m hm => hnone ▸ hm) fun _ m hm => ?_
  rw [streamSend_eq hacc]
  exact flight_afterSend hq hm

theorem Flight.ready (h : Flight r quiet [] [] final m) : Ready r quiet m := by
  obtain ⟨stream, p, datas, rest, left, inst, h, hunread, henc, hquiet, -⟩ := h
  exact .going stream p datas rest left inst h hunread henc fun hq _ _ => (hquiet hq).2

/-! ## The streams -/

theorem setEncoding_eq {encoding : Bool} (h : m.streams.stream? id = some stream) :
    onStreams (·.setEncoding id encoding) m =
      .ok () { m with streams := m.streams.setStream id { stream with encoding } } := by
  rw [onStreams, setEncoding, h]

theorem triple_endFrame (hfinal : final) :
    Triple (Flight r quiet [] [] final) (onStreams (·.setEncoding r.id false)) (fun _ => Idle r)
      (Unharmed r) := by
  intro m hm
  obtain ⟨stream, p, datas, rest, left, inst, h, hunread, henc, hquiet, hnone⟩ := hm
  obtain ⟨rfl, rfl⟩ := hnone hfinal
  rw [setEncoding_eq h.found]
  exact .going { stream with encoding := false } p datas rest
    ⟨h.opened, stream?_setStream_self h.found _, h.header, h.writing,
      h.account.of_stream _⟩ hunread rfl

/-- `poll_send_header` and `poll_send_frame` end between two frames or within one. -/
def Underway (r : Request) (m : StreamManager) : Prop := Held r m ∨ Idle r m

theorem Underway.stands (h : Underway r m) : Stands r m := h.elim .held .idle

theorem triple_sendHeaderLoop (hacc : Accepts quic) (hq : r.qpackId ≠ r.id) :
    Triple (Ready r False) (sendHeaderLoop quic r.qpackId r.id fuel) (fun _ => Underway r)
      (Unharmed r) := by
  have hwritable : Triple (Ready r False) (streamWritable quic) (fun _ => Ready r False)
      (Unharmed r) :=
    triple_streamWritable (fun asked => Ready.asked asked) fun _ => Ready.stands
  have hstop : Triple (Ready r False) (pure () : ManagerM Unit) (fun _ => Underway r)
      (Unharmed r) :=
    .pure _ fun _ hm => .inl hm.held
  induction fuel with
  | zero => exact .throw _ fun _ _ hne => (hne rfl).elim
  | succ fuel ih =>
    refine .bind hwritable fun _ => .ite (fun _ => ?_) fun _ => hstop
    refine .bind hwritable fun _ => .ite (fun _ => ?_) fun _ => hstop
    refine .bind triple_encodeFrame fun written => ?_
    refine .bind (triple_sendInstructions hacc hq) fun _ => ?_
    refine .bind (triple_sendOctets hacc hq) fun _ => .ite (fun hnone => ?_) fun _ => ?_
    · exact (triple_endFrame (And.symm hnone)).weaken (fun _ h => h) (fun _ _ => .inr)
        fun _ _ h => h
    · exact ih.weaken (fun _ h => h.ready) (fun _ _ h => h) fun _ _ h => h

theorem triple_sendFrameLoop (hacc : Accepts quic) (hq : r.qpackId ≠ r.id) :
    Triple (Ready r True) (sendFrameLoop quic r.id fuel) (fun _ => Underway r) (Unharmed r) := by
  induction fuel with
  | zero => exact .throw _ fun _ _ hne => (hne rfl).elim
  | succ fuel ih =>
    refine .bind (triple_streamWritable (fun asked => Ready.asked asked) fun _ => Ready.stands)
      fun _ => .ite (fun _ => ?_) fun _ => .pure _ fun _ hm => .inl hm.held
    refine .bind triple_encodeFrame fun ⟨octets, insts⟩ => ?_
    intro m hm
    obtain ⟨stream, p, datas, rest, left, inst, h, hunread, henc, hquiet, hfinal⟩ := hm
    obtain ⟨rfl, hinst⟩ := hquiet trivial
    have hflight : Flight r True octets [] (octets = []) m :=
      ⟨stream, p, datas, rest, left, inst, h, hunread, henc, fun _ => ⟨rfl, hinst⟩,
        fun hnone => hfinal ⟨hnone, rfl⟩⟩
    refine Triple.ite (P := Flight r True octets [] (octets = [])) (fun hnone => ?_)
      (fun _ => ?_) m hflight
    · subst hnone
      exact (triple_endFrame rfl).weaken (fun _ h => h) (fun _ _ => .inr) fun _ _ h => h
    · refine .bind (Q := fun _ => Flight r True [] [] (octets = [])) (fun m hm => ?_) fun _ =>
        ih.weaken (fun _ h => h.ready) (fun _ _ h => h) fun _ _ h => h
      rw [streamSend_eq hacc]
      exact flight_afterSend hq hm

/-! ## Setting a frame -/

theorem setFrame_header (hent : m.encoder.streams.lookup id = none) :
    ∃ e : EncodedH3Stream, e.Head ∧ setFrame id r.header m = .ok ()
      { m with encoder := { qpackEncoder := m.encoder.qpackEncoder.setParts r.parts,
                            streams := m.encoder.streams.insert id e } } := by
  refine ⟨{ EncodedH3Stream.new id with currentFrame := some r.header,
                                        state := .encodingHeadersFrame }, ⟨rfl, rfl, rfl, _, _, rfl⟩, ?_⟩
  rw [setFrame, onEncoder, FrameEncoder.setFrame, hent]
  rfl

theorem setFrame_data (hne : data ≠ [])
    (hent : ∀ e, m.encoder.streams.lookup id = some e → e.Writing [] []) :
    ∃ e : EncodedH3Stream, e.Writing (dataOctets data) [] ∧
      setFrame id { ty := dataFrameType, payload := .data data } m = .ok ()
        { m with encoder := { m.encoder with streams := m.encoder.streams.insert id e } } := by
  have hrest : ∃ e, (m.encoder.streams.lookup id).getD (.new id) = e ∧ e.AtRest ∧
      e.headersMessage = none ∧ e.payloadOffset = 0 := by
    cases hget : m.encoder.streams.lookup id with
    | none => exact ⟨.new id, rfl, .inl rfl, rfl, rfl⟩
    | some e => exact ⟨e, rfl, (hent e hget).atRest rfl rfl⟩
  obtain ⟨e, he, hrest, hmsg, hoff⟩ := hrest
  refine ⟨{ e with currentFrame := some { ty := dataFrameType, payload := .data data },
                   state := .encodingDataFrame }, .dataFrame data rfl hmsg rfl hoff hne, ?_⟩
  have hidle : ¬ (e.state ≠ .idle ∧ e.state ≠ .frameComplete) := by
    rintro ⟨hidle, hcomp⟩
    exact hrest.elim hidle hcomp
  rw [setFrame, onEncoder, FrameEncoder.setFrame, he]
  dsimp only
  rw [if_neg hidle, if_neg (by decide), if_pos rfl]
  rfl

/-! ## The header -/

theorem Underway.found (h : Underway r m) :
    ∃ stream, m.streams.stream? r.id = some stream ∧ stream.header = none := by
  rcases h with (⟨stream, h⟩ | ⟨stream, p, datas, rest, left, inst, h⟩) |
    (⟨stream, h, -, -, hhdr⟩ | ⟨stream, p, datas, rest, h⟩)
  · exact ⟨stream, h.coming.found, h.header⟩
  · exact ⟨stream, h.found, h.header⟩
  · exact ⟨stream, h.found, hhdr⟩
  · exact ⟨stream, h.found, h.header⟩

theorem Underway.of_view (h : Underway r m) (hopened : Opened r.qpackId m')
    (hview : m'.view r.id r.qpackId = m.view r.id r.qpackId) : Underway r m' :=
  h.imp (·.of_view hopened hview) (·.of_view hopened hview)

theorem Underway.opened (h : Underway r m) : Opened r.qpackId m := h.elim Held.opened Idle.opened

theorem getHeader_eq (h : m.streams.stream? id = some stream) :
    onStreams (·.getHeader id) m =
      .ok stream.header
        { m with streams := m.streams.setStream id { stream with header := none } } := by
  rw [onStreams, getHeader, h]

theorem triple_takeHeader : Triple (Stands r) (onStreams (·.getHeader r.id))
    (fun header m => header = some r.header ∧ (∃ stream, Fetched r m stream) ∨
      header = none ∧ Underway r m) (Unharmed r) := by
  have hunderway : Triple (Underway r) (onStreams (·.getHeader r.id))
      (fun header m => header = some r.header ∧ (∃ stream, Fetched r m stream) ∨
        header = none ∧ Underway r m) (Unharmed r) := by
    intro m h
    obtain ⟨stream, hfound, hhdr⟩ := h.found
    have hsame : { stream with header := none } = stream := by rw [← hhdr]
    rw [getHeader_eq hfound, hsame]
    refine .inr ⟨hhdr, h.of_view h.opened (view_streams ?_)⟩
    exact (stream?_setStream_self hfound stream).trans hfound.symm
  intro m hm
  cases hm with
  | waiting stream h henc hent hhdr =>
    rw [getHeader_eq h.found]
    refine .inl ⟨hhdr, { stream with header := none }, ⟨h.opened, ?_, h.unread, ?_⟩, rfl, hent⟩
    · exact stream?_setStream_self h.found _
    · exact h.unsent.of_stream _
  | held h => exact hunderway m (.inl h)
  | idle h => exact hunderway m (.inr h)

theorem Ready.afterSend_nil (hq : r.qpackId ≠ r.id) (h : Ready r quiet m) : Ready r quiet
    (m.afterSend { request := r.id, id := r.id, octets := [], fin := false }) := by
  cases h with
  | head stream h hlines hinst =>
    refine .head stream ⟨⟨h.coming.opened, h.coming.found, h.coming.unread, ?_⟩, h.header,
      h.encoding, h.head⟩ hlines hinst
    rw [view_afterSend hq]
    have hunsent := h.coming.unsent
    refine ⟨hunsent.produced, ?_, hunsent.instructions, ?_⟩
    · rw [octetsOf, flatMap_append, ← octetsOf, hunsent.log]
      rfl
    · intro s hs
      rcases mem_append.mp hs with hs | hs
      · exact hunsent.fin s hs
      · obtain rfl := mem_singleton.mp hs
        rfl
  | going stream p datas rest left inst h hunread henc hinst =>
    refine .going stream p datas rest left inst ⟨h.opened, h.found, h.header, h.writing, ?_⟩ hunread
      henc hinst
    rw [view_afterSend hq]
    exact h.account.send _ rfl rfl

theorem triple_openStream (hacc : Accepts quic) (hq : r.qpackId ≠ r.id) :
    Triple (Ready r quiet) (openStream quic r.id) (fun _ => Ready r quiet) (Unharmed r) := by
  refine .bind (Q := fun _ => Ready r quiet) (fun _ hm => hm.asked _) fun answer => ?_
  split
  · intro m hm
    rw [streamSend_eq hacc]
    exact hm.afterSend_nil hq
  · exact .pure _ fun _ hm => hm

theorem triple_pollSendHeader (hacc : Accepts quic) (hq : r.qpackId ≠ r.id) :
    Triple (fun m => ∃ stream, Fetched r m stream) (pollSendHeader quic fuel r.id r.header)
      (fun _ => Underway r) (Unharmed r) := by
  have hmark : Triple (fun m => ∃ stream, Fetched r m stream)
      (onStreams (·.setEncoding r.id true))
      (fun _ m => ∃ stream, Fetched r m stream ∧ stream.encoding = true) (Unharmed r) := by
    rintro m ⟨stream, h⟩
    rw [setEncoding_eq h.coming.found]
    exact ⟨{ stream with encoding := true }, ⟨⟨h.coming.opened,
      stream?_setStream_self h.coming.found _, h.coming.unread,
      h.coming.unsent.of_stream _⟩, h.header, h.entry⟩, rfl⟩
  have hset : Triple (fun m => ∃ stream, Fetched r m stream ∧ stream.encoding = true)
      (setFrame r.id r.header) (fun _ => Ready r False) (Unharmed r) := by
    rintro m ⟨stream, h, henc⟩
    obtain ⟨e, hhead, hres⟩ := setFrame_header (r := r) h.entry
    rw [hres]
    refine .head stream ⟨⟨h.coming.opened, h.coming.found, h.coming.unread, ?_⟩, h.header,
      henc, ?_⟩ (fun _ _ => rfl) nofun
    · have hunsent := h.coming.unsent
      exact ⟨hunsent.produced, hunsent.log, hunsent.instructions, hunsent.fin⟩
    · intro e' he'
      cases ((AList.lookup_insert _).symm.trans he')
      exact hhead
  have hid : Triple (Ready r False) qpackEncodeStreamId
      (fun id m => id = r.qpackId ∧ Ready r False m) (Unharmed r) :=
    (@triple_qpackEncodeStreamId _ (Ready r False) (· = r.qpackId) rfl
      fun _ hm => hm.held.opened).weaken (fun _ h => h) (fun _ _ h => h) fun _ _ hm _ => hm.stands
  refine .bind hmark fun _ => .bind hset fun _ => .bind hid fun id => ?_
  rintro m ⟨rfl, hm⟩
  exact Triple.bind (triple_openStream hacc hq)
    (fun _ => triple_sendHeaderLoop hacc hq) m hm

/-! ## A DATA frame -/

theorem isEncoding_eq (h : m.streams.stream? id = some stream) :
    isEncoding id m = .ok stream.encoding m := by
  rw [isEncoding, onStreams, encoding, h]

theorem triple_isEncoding' : Triple (Underway r) (isEncoding r.id)
    (fun encoding m => (encoding = true → Held r m) ∧ (encoding = false → Idle r m))
    (Unharmed r) := by
  intro m hm
  rcases hm with hheld | hidle
  · have henc : ∃ stream, m.streams.stream? r.id = some stream ∧ stream.encoding = true := by
      cases hheld with
      | headed stream h => exact ⟨stream, h.coming.found, h.encoding⟩
      | going stream p datas rest left inst h _ henc => exact ⟨stream, h.found, henc⟩
    obtain ⟨stream, hfound, henc⟩ := henc
    rw [isEncoding_eq hfound, henc]
    exact ⟨fun _ => hheld, nofun⟩
  · have henc : ∃ stream, m.streams.stream? r.id = some stream ∧ stream.encoding = false := by
      cases hidle with
      | withdrawn stream h henc | going stream p datas rest h _ henc =>
        exact ⟨stream, h.found, henc⟩
    obtain ⟨stream, hfound, henc⟩ := henc
    rw [isEncoding_eq hfound, henc]
    exact ⟨nofun, fun _ => hidle⟩

def Granted (r : Request) (data : Bytes) (m : StreamManager) : Prop :=
  ∃ stream p datas rest, Going r m stream p datas [] [] (data ++ rest) [] [] ∧
    stream.Unread rest ∧ stream.encoding = false ∧ data ≠ []

theorem triple_sendData (hacc : Accepts quic) (hq : r.qpackId ≠ r.id) :
    Triple (Granted r data)
      (pollSendFrame quic fuel r.id (some { ty := dataFrameType, payload := .data data }))
      (fun _ => Underway r) (Unharmed r) := by
  have hmark : Triple (Granted r data) (onStreams (·.setEncoding r.id true))
      (fun _ m => ∃ stream p datas rest, Going r m stream p datas [] [] (data ++ rest) [] [] ∧
        stream.Unread rest ∧ stream.encoding = true ∧ data ≠ []) (Unharmed r) := by
    rintro m ⟨stream, p, datas, rest, h, hunread, -, hne⟩
    rw [setEncoding_eq h.found]
    exact ⟨{ stream with encoding := true }, p, datas, rest, ⟨h.opened,
      stream?_setStream_self h.found _, h.header, h.writing, h.account.of_stream _⟩,
      hunread, rfl, hne⟩
  refine .bind hmark fun _ => .bind (Q := fun _ => Ready r True) ?_ fun _ =>
    triple_sendFrameLoop hacc hq
  rintro m ⟨stream, p, datas, rest, h, hunread, henc, hne⟩
  obtain ⟨e, hwriting, hres⟩ := setFrame_data hne h.writing
  rw [hres]
  refine .going stream p (datas ++ [data]) rest (dataOctets data) [] ⟨h.opened, h.found, h.header,
    ?_, ?_⟩ hunread henc fun _ _ _ => rfl
  · intro e' he'
    cases ((AList.lookup_insert _).symm.trans he')
    exact hwriting
  · have haccount := h.account.take hne
    exact ⟨haccount.produced, haccount.lines, haccount.sent, haccount.instructions, haccount.body,
      haccount.fin, haccount.order⟩

theorem triple_resume (hacc : Accepts quic) (hq : r.qpackId ≠ r.id) :
    Triple (Held r) (pollSendFrame quic fuel r.id none)
      (fun _ m => Unclean r m ∨ Underway r m) (fun e m => Unclean r m ∨ Unharmed r e m) := by
  refine .bind (Q := fun _ m => Unclean r m ∨ Ready r True m) (fun m hm => ?_) fun _ => ?_
  · by_cases hclean : Clean r ((m.resumed ++ [(r.id, m.encoder)]).filter (·.1 = r.id))
      (m.readsOf r.id)
    · have hgo : m.encoder.MayGoOn r.id r.lines :=
        hclean.resumed (r.id, m.encoder) (by simp)
      have hready : Ready r True m := by
        cases hm with
        | headed stream h =>
          have hhead : ∀ e, m.encoder.streams.lookup r.id = some e →
              m.encoder.qpackEncoder.fieldIter = some r.lines ∧ ∀ q fields inst,
                m.encoder.qpackEncoder.encode e.streamId = some (q, fields, inst) → inst = [] := by
            intro e he
            have hsame := hgo e he
            rw [(h.head e he).message] at hsame
            exact hsame (h.head e he).state
          exact .head stream h (fun e he => (hhead e he).1) fun _ e q fields inst he =>
            (hhead e he).2 q fields inst
        | going stream p datas rest left inst h hunread henc =>
          refine .going stream p datas rest left inst h hunread henc fun _ e he => ?_
          refine (h.writing e he).inst_eq fun message hmsg => ?_
          have hsame := hgo e he
          rw [hmsg] at hsame
          exact hsame
      exact .inr (hready.of_view hready.held.opened rfl rfl)
    · exact .inl hclean
  · exact .or (kept_unclean.sendFrameLoop trivial) (triple_sendFrameLoop hacc hq)

/-! ## Reading the body -/

def Complete (r : Request) (m : StreamManager) : Prop :=
  ∃ stream p datas, Going r m stream p datas [] [] [] [] [] ∧ stream.Unread [] ∧
    stream.encoding = false

def AfterRead (r : Request) (m : StreamManager) : DataReadState → Prop
  | .closed | .pending => Idle r m
  | .ready frame => ∃ data, frame = { ty := dataFrameType, payload := .data data } ∧ Granted r data m
  | .finish => Complete r m

theorem triple_pollSizedData {len : ℕ} :
    Triple (fun m => Idle r m ∧ ∀ stream, m.streams.stream? r.id = some stream → len = 0 →
        ∀ octets rest, stream.data ≠ { body := some (.octets octets :: rest) })
      (onStreams (·.pollSizedData r.id len)) (fun state m => AfterRead r m state) (Unharmed r) := by
  rintro m ⟨hm, hlen⟩
  cases hm with
  | withdrawn stream h henc hent hhdr hshut =>
    rw [onStreams, pollSizedData, h.found]
    dsimp only
    rw [if_pos hshut]
    exact .withdrawn stream h henc hent hhdr hshut
  | going stream p datas rest h hunread henc =>
    have hput : ∀ (data : BodyDataRef),
        Going r { m with streams := m.streams.setStream r.id { stream with data } }
          { stream with data } p datas [] [] rest [] [] := fun data =>
      ⟨h.opened, stream?_setStream_self h.found _, h.header, h.writing, h.account.of_stream _⟩
    rw [onStreams, pollSizedData, h.found]
    dsimp only
    by_cases hshut : stream.state = .shutdown
    · rw [if_pos hshut]
      exact .going stream p datas rest h hunread henc
    · rw [if_neg hshut]
      obtain ⟨reads, hdata, hsteady, rfl⟩ := hunread hshut
      have hroom : len = 0 → ∀ octets rest, reads ≠ .octets octets :: rest := by
        rintro hzero octets rest rfl
        exact hlen stream h.found hzero octets rest hdata
      rw [hdata]
      obtain ⟨reads', hsteady', ⟨hread, hsame⟩ | ⟨octets, hread, hsplit, hend⟩⟩ :=
        hsteady.pollRead hroom
      · rw [hread]
        refine .going { stream with data := { body := some reads' } } p datas _ ?_
          (fun _ => ⟨reads', rfl, hsteady', hsame⟩) henc
        exact (hput _).of_view h.opened rfl
      · rw [hread]
        dsimp only
        by_cases hnone : octets = []
        · rw [if_pos hnone]
          have hgoing := hput { body := some reads' }
          have hrest := hend hnone
          rw [← hsplit, hnone, hrest] at hgoing
          exact ⟨{ stream with data := { body := some reads' } }, p, datas, hgoing,
            fun _ => ⟨reads', rfl, hsteady', hrest⟩, henc⟩
        · rw [if_neg hnone]
          have hgoing := hput { body := some reads' }
          rw [← hsplit] at hgoing
          exact ⟨octets, rfl, { stream with data := { body := some reads' } }, p, datas,
            bodyOctets reads', hgoing, fun _ => ⟨reads', rfl, hsteady', rfl⟩, henc, hnone⟩

/-! ## One turn of the stream -/

def Fails (r : Request) (e : Fault DispatchErrorKind) (m : StreamManager) : Prop :=
  Unclean r m ∨ Unharmed r e m

section Unclean

variable {α : Type} {p : ManagerM α} {P : StreamManager → Prop} {Q : α → StreamManager → Prop}

theorem orUnclean (h : Triple P p Q (Unharmed r)) :
    Triple P p (fun a m => Unclean r m ∨ Q a m) (Fails r) :=
  h.weaken (fun _ h => h) (fun _ _ => .inr) fun _ _ => .inr

theorem unclean_or (hunclean : Keeps (Unclean r) p)
    (h : Triple P p (fun a m => Unclean r m ∨ Q a m) (Fails r)) :
    Triple (fun m => Unclean r m ∨ P m) p (fun a m => Unclean r m ∨ Q a m) (Fails r) := by
  rintro m (hm | hm)
  · exact hunclean.weaken (fun _ h => h) (fun _ _ => .inl) (fun _ _ => .inl) m hm
  · exact h m hm

end Unclean

theorem triple_pollReadBody' : Triple (Idle r) (pollReadBody quic r.id)
    (fun state m => Unclean r m ∨ AfterRead r m state) (Fails r) := by
  refine .bind (Q := fun _ => Idle r) (fun m hm => hm.of_view hm.opened rfl) fun answer => ?_
  cases answer with
  | error e => exact .throw _ fun m hm => .inr fun _ => .idle hm
  | ok capacity =>
    refine .bind (Q := fun _ m => Unclean r m ∨ Idle r m ∧ ∀ stream,
      m.streams.stream? r.id = some stream → min capacity defaultMaxFrameSize = 0 →
        ∀ octets rest, stream.data ≠ { body := some (.octets octets :: rest) })
      (fun m hm => ?_) fun _ => ?_
    · by_cases hclean : Clean r (m.resumedOf r.id)
          ((m.reads ++ [(r.id, min capacity defaultMaxFrameSize,
            (m.streams.stream? r.id).map (·.data))]).filter (·.1 = r.id))
      · refine .inr ⟨hm.of_view hm.opened rfl, fun stream hfound hzero octets rest hdata => ?_⟩
        refine hclean.reads (r.id, min capacity defaultMaxFrameSize,
          (m.streams.stream? r.id).map (·.data)) (by simp) hzero octets rest ?_
        have hfound : m.streams.stream? r.id = some stream := hfound
        rw [hfound, ← hdata]
        rfl
      · exact .inl hclean
    · exact unclean_or (keeps_onStreams fun _ hm => hm) (orUnclean triple_pollSizedData)

theorem triple_unlessStopped {p : ManagerM Unit}
    (h : Triple P p (fun _ m => Unclean r m ∨ Underway r m) (Fails r)) :
    Triple P (unlessStopped p)
      (fun ok m => Unclean r m ∨ Stands r m ∧ (ok = true → Underway r m)) (Fails r) := by
  refine .tryCatch (.bind h fun _ => .pure _ fun m hm => ?_) fun e => ?_
  · exact hm.imp_right fun hunderway => ⟨hunderway.stands, fun _ => hunderway⟩
  · split
    · exact .pure _ fun m hm => hm.imp_right fun hunharmed => ⟨hunharmed nofun, nofun⟩
    · exact .throw _ fun _ hm => hm

theorem triple_isEncoding_or : Triple (fun m => Unclean r m ∨ Underway r m) (isEncoding r.id)
    (fun encoding m => Unclean r m ∨
      ((encoding = true → Held r m) ∧ (encoding = false → Idle r m))) (Fails r) :=
  unclean_or (kept_unclean.isEncoding) (orUnclean triple_isEncoding')

theorem triple_sendLater : Triple (fun m => Unclean r m ∨ Held r m) (sendLater r.id)
    (fun _ m => Unclean r m ∨ Held r m) (Fails r) :=
  unclean_or kept_unclean.queue
    (orUnclean (r := r) (Q := fun _ => Held r) fun _ hm => hm.of_view hm.opened rfl)

theorem triple_readLoop {turns : ℕ} (hacc : Accepts quic) (hq : r.qpackId ≠ r.id) :
    Triple (fun m => Unclean r m ∨ Idle r m) (readLoop quic fuel r.id turns)
      (fun _ m => Unclean r m ∨ Stands r m) (Fails r) := by
  induction turns with
  | zero => exact .throw _ fun _ _ => .inr fun hne => (hne rfl).elim
  | succ turns ih =>
    refine .bind (unclean_or (kept_unclean.pollReadBody trivial) triple_pollReadBody')
      fun state => ?_
    split
    · exact .pure _ fun m hm => hm.imp_right .idle
    · exact .pure _ fun m hm => hm.imp_right .idle
    · rename_i frame
      have hsend : Triple (fun m => Unclean r m ∨ AfterRead r m (.ready frame))
          (pollSendFrame quic fuel r.id (some frame)) (fun _ m => Unclean r m ∨ Underway r m)
          (Fails r) := by
        refine unclean_or (kept_unclean.pollSendFrame trivial) ?_
        rintro m ⟨data, rfl, hm⟩
        exact orUnclean (triple_sendData hacc hq) m hm
      refine .bind (triple_unlessStopped hsend) fun ok => .ite (fun hok => ?_) fun _ => ?_
      · refine .bind (triple_isEncoding_or.weaken (fun _ hm => hm.imp_right fun h => h.2 hok)
          (fun _ _ h => h) fun _ _ h => h) fun encoding => .ite (fun henc => ?_)
          fun henc => ?_
        · exact triple_sendLater.weaken (fun _ hm => hm.imp_right fun h => h.1 henc)
            (fun _ _ hm => hm.imp_right .held) fun _ _ h => h
        · exact ih.weaken (fun _ hm => hm.imp_right fun h => h.2 (by simpa using henc))
            (fun _ _ h => h) fun _ _ h => h
      · exact .pure _ fun m hm => hm.imp_right And.left
    · refine unclean_or (kept_unclean.streamSend trivial trivial) fun m hm => ?_
      obtain ⟨stream, p, datas, h, hunread, henc⟩ := hm
      rw [streamSend_eq hacc]
      refine .inr (.idle (.going stream p datas [] ⟨h.opened, h.found, h.header, h.writing, ?_⟩
        hunread henc))
      rw [view_afterSend hq]
      exact h.account.finish _ rfl

theorem triple_resumeFrame (hacc : Accepts quic) (hq : r.qpackId ≠ r.id) :
    Triple (fun m => Unclean r m ∨ Underway r m) (resumeFrame quic fuel r.id)
      (fun go m => Unclean r m ∨ Stands r m ∧ (go = true → Idle r m)) (Fails r) := by
  refine .bind triple_isEncoding_or fun encoding => .ite (fun henc => ?_) fun henc => ?_
  · have hsend : Triple (fun m => Unclean r m ∨
        ((encoding = true → Held r m) ∧ (encoding = false → Idle r m)))
        (pollSendFrame quic fuel r.id none) (fun _ m => Unclean r m ∨ Underway r m) (Fails r) :=
      (unclean_or (kept_unclean.pollSendFrame trivial) (triple_resume hacc hq)).weaken
        (fun _ hm => hm.imp_right fun h => h.1 henc) (fun _ _ h => h) fun _ _ h => h
    refine .bind (triple_unlessStopped hsend) fun ok => .ite (fun hok => ?_) fun _ => ?_
    · refine .bind (triple_isEncoding_or.weaken (fun _ hm => hm.imp_right fun h => h.2 hok)
        (fun _ _ h => h) fun _ _ h => h) fun encoding => .ite (fun henc => ?_)
        fun henc => ?_
      · refine .bind (triple_sendLater.weaken (fun _ hm => hm.imp_right fun h => h.1 henc)
          (fun _ _ h => h) fun _ _ h => h) fun _ => .pure _ fun m hm => ?_
        exact hm.imp_right fun h => ⟨.held h, nofun⟩
      · refine .pure _ fun m hm => hm.imp_right fun h => ?_
        have hidle := h.2 (by simpa using henc)
        exact ⟨.idle hidle, fun _ => hidle⟩
    · exact .pure _ fun m hm => hm.imp_right fun h => ⟨h.1, nofun⟩
  · refine .pure _ fun m hm => hm.imp_right fun h => ?_
    have hidle := h.2 (by simpa using henc)
    exact ⟨.idle hidle, fun _ => hidle⟩

theorem triple_inputStreamFrame (hacc : Accepts quic) (hq : r.qpackId ≠ r.id) :
    Triple (fun m => Unclean r m ∨ Stands r m) (inputStreamFrame quic fuel r.id)
      (fun _ m => Unclean r m ∨ Stands r m) (Fails r) := by
  refine .bind (unclean_or (keeps_onStreams fun _ hm => hm) (orUnclean triple_takeHeader))
    fun header => ?_
  have hsend : Triple (fun m => Unclean r m ∨ (header = some r.header ∧
      (∃ stream, Fetched r m stream) ∨ header = none ∧ Underway r m))
      (sendHeader quic fuel r.id header) (fun _ m => Unclean r m ∨ Underway r m) (Fails r) := by
    refine unclean_or ?_ ?_
    · cases header with
      | none => exact .pure _
      | some header => exact kept_unclean.pollSendHeader trivial
    · rintro m (⟨rfl, hm⟩ | ⟨rfl, hm⟩)
      · exact orUnclean (triple_pollSendHeader hacc hq) m hm
      · exact .inr hm
  refine .bind hsend fun _ => .bind (triple_resumeFrame hacc hq) fun go => .ite (fun hgo => ?_)
    fun _ => .pure _ fun m hm => hm.imp_right And.left
  exact (triple_readLoop hacc hq).weaken (fun _ hm => hm.imp_right fun h => h.2 hgo)
    (fun _ _ h => h) fun _ _ h => h

end StreamManager

end YlongHttp.H3
