import YlongHttp.Verification.H3.View
import YlongHttp.Verification.H3.Writing

/-! # What becomes of the octets of a request

What was sent for a request, what is under way and what the frame encoder has left of it are its
frames, as long as the condition on the turns holds that nothing is thrown away. -/

namespace YlongHttp.H3

open Library

/-- A request, and the ids of its stream and of the own QPACK encoder stream. -/
structure Request where
  id : ℕ
  qpackId : ℕ
  parts : Parts
  ins : Option Bytes
  body : Bytes

namespace Request

def header (r : Request) : Frame := { ty := headersFrameType, payload := .headers r.parts r.ins }

def lines (r : Request) : List (Qpack.NameField × Bytes) := Qpack.partsFields r.parts

end Request

def octetsOf (log : List Sent) : Bytes := log.flatMap (·.octets)

def bodyOctets (reads : List BodyRead) : Bytes :=
  reads.flatMap fun
    | .octets octets => octets
    | _ => []

def Steady (reads : List BodyRead) : Prop := ∀ read ∈ reads, read ≠ .failed ∧ read ≠ .octets []

def BidirectionalStream.Unread (stream : BidirectionalStream) (rest : Bytes) : Prop :=
  stream.state ≠ .shutdown →
    ∃ reads, stream.data = { body := some reads } ∧ Steady reads ∧ bodyOctets reads = rest

/-- A frame may be gone on with in `poll_send_frame`: its instructions are written, or there are
none and the field lines are still its own. -/
def FrameEncoder.MayGoOn (self : FrameEncoder) (id : ℕ)
    (lines : List (Qpack.NameField × Bytes)) : Prop :=
  ∀ e, self.streams.lookup id = some e →
    match e.headersMessage with
    | some message => message.remainingInst = 0
    | none => e.state = .encodingHeadersFrame →
      self.qpackEncoder.fieldIter = some lines ∧
        ∀ q fields inst, self.qpackEncoder.encode e.streamId = some (q, fields, inst) → inst = []

/-- Nothing of the request is thrown away: where `poll_send_frame` went on with a frame it might
do so, and the body was not read without room while it had octets. -/
structure Clean (r : Request) (resumed : List (ℕ × FrameEncoder))
    (reads : List (ℕ × ℕ × Option BodyDataRef)) : Prop where
  resumed : ∀ entry ∈ resumed, entry.2.MayGoOn r.id r.lines
  reads : ∀ entry ∈ reads, entry.2.1 = 0 →
    ∀ octets rest, entry.2.2 ≠ some { body := some (.octets octets :: rest) }

def StreamManager.Unclean (r : Request) (m : StreamManager) : Prop :=
  ¬ Clean r (m.resumedOf r.id) (m.readsOf r.id)

namespace StreamManager

variable {r : Request} {m : StreamManager}

theorem kept_unclean : Kept (Unclean r) fun _ => True where
  setFrame _ _ hm := hm
  encode _ hm := hm
  asked _ hm := hm
  sent _ _ _ _ hm := hm
  resumed {m id} encoder _ hm hclean := by
    refine hm ⟨fun entry hent => hclean.resumed entry ?_, hclean.reads⟩
    change entry ∈ (m.resumed ++ [(id, encoder)]).filter _
    rw [List.filter_append]
    exact List.mem_append_left _ hent
  read {m id} len body _ hm hclean := by
    refine hm ⟨hclean.resumed, fun entry hent => hclean.reads entry ?_⟩
    change entry ∈ (m.reads ++ [(id, len, body)]).filter _
    rw [List.filter_append]
    exact List.mem_append_left _ hent
  getHeader _ hm := hm
  setEncoding _ _ hm := hm
  readBody _ _ hm := hm
  sendLater _ hm := hm
  next hm := hm
  admission hm := hm
  qpack := by
    refine (keeps_onStreams (P := Unclean r) fun _ hm => hm).weaken (fun _ h => h) ?_ fun _ _ h => h
    exact fun _ _ h => ⟨trivial, h⟩

end StreamManager

/-! ## The account of a request -/

/-- Nothing was sent for the request. -/
structure Unsent (v : View) : Prop where
  produced : v.produced = []
  log : octetsOf v.log = []
  instructions : octetsOf v.instructions = []
  fin : ∀ s ∈ v.log, s.fin = false

/-- What was sent for the request, what is under way and what is left of the current frame are
its HEADERS frame and DATA frames, and so are the instructions. The rest of the body is still to
be put into frames. -/
structure Account (r : Request) (v : View) (p : Produced) (datas : List Bytes)
    (octets insts rest left inst : Bytes) : Prop where
  produced : v.produced = [(r.id, p)]
  lines : p.lines = some r.lines
  sent : octetsOf v.log ++ octets ++ left = headersOctets p.fields ++ datas.flatMap dataOctets
  instructions : octetsOf v.instructions ++ insts ++ inst = p.inst
  body : datas.flatten ++ rest = r.body
  fin : (∃ s ∈ v.log, s.fin = true) → octets = [] ∧ insts = [] ∧ left = [] ∧ inst = [] ∧ rest = []
  order : v.log.Pairwise fun a b => a.fin = true → b.octets = []

namespace StreamManager

/-- Nothing was sent for the request, and its HEADERS frame waits in the stream, is set in the
frame encoder, or is gone. -/
structure Coming (r : Request) (m : StreamManager) (stream : BidirectionalStream) : Prop where
  opened : Opened r.qpackId m
  found : m.streams.stream? r.id = some stream
  unread : stream.Unread r.body
  unsent : Unsent (m.view r.id r.qpackId)

/-- The HEADERS frame was begun. -/
structure Going (r : Request) (m : StreamManager) (stream : BidirectionalStream) (p : Produced)
    (datas : List Bytes) (octets insts rest left inst : Bytes) : Prop where
  opened : Opened r.qpackId m
  found : m.streams.stream? r.id = some stream
  header : stream.header = none
  writing : ∀ e, m.encoder.streams.lookup r.id = some e → e.Writing left inst
  account : Account r (m.view r.id r.qpackId) p datas octets insts rest left inst

/-- The HEADERS frame is set in the frame encoder, if that still has the stream. -/
structure Headed (r : Request) (m : StreamManager) (stream : BidirectionalStream) : Prop where
  coming : Coming r m stream
  header : stream.header = none
  encoding : stream.encoding = true
  head : ∀ e, m.encoder.streams.lookup r.id = some e → e.Head

/-- A frame is half sent. -/
inductive Held (r : Request) (m : StreamManager) : Prop where
  | headed (stream : BidirectionalStream) : Headed r m stream → Held r m
  | going (stream : BidirectionalStream) (p : Produced) (datas : List Bytes)
      (rest left inst : Bytes) : Going r m stream p datas [] [] rest left inst →
      stream.Unread rest → stream.encoding = true → Held r m

/-- No frame is half sent, and the header was taken. -/
inductive Idle (r : Request) (m : StreamManager) : Prop where
  | withdrawn (stream : BidirectionalStream) : Coming r m stream → stream.encoding = false →
      m.encoder.streams.lookup r.id = none → stream.header = none → stream.state = .shutdown →
      Idle r m
  | going (stream : BidirectionalStream) (p : Produced) (datas : List Bytes) (rest : Bytes) :
      Going r m stream p datas [] [] rest [] [] → stream.Unread rest → stream.encoding = false →
      Idle r m

/-- How the request stands before a turn, and after it. -/
inductive Stands (r : Request) (m : StreamManager) : Prop where
  | waiting (stream : BidirectionalStream) : Coming r m stream → stream.encoding = false →
      m.encoder.streams.lookup r.id = none → stream.header = some r.header → Stands r m
  | held : Held r m → Stands r m
  | idle : Idle r m → Stands r m

/-- The header was just taken. -/
structure Fetched (r : Request) (m : StreamManager) (stream : BidirectionalStream) : Prop where
  coming : Coming r m stream
  header : stream.header = none
  entry : m.encoder.streams.lookup r.id = none

/-! What is said of a request depends only on what concerns it. -/

variable {r : Request} {m m' : StreamManager} {stream : BidirectionalStream} {p : Produced}
  {datas : List Bytes} {octets insts rest left inst : Bytes}

theorem Coming.of_view (h : Coming r m stream) (hopened : Opened r.qpackId m')
    (hview : m'.view r.id r.qpackId = m.view r.id r.qpackId) : Coming r m' stream :=
  ⟨hopened, (congrArg View.stream hview).trans h.found, h.unread, hview.symm ▸ h.unsent⟩

theorem Going.of_view (h : Going r m stream p datas octets insts rest left inst)
    (hopened : Opened r.qpackId m')
    (hview : m'.view r.id r.qpackId = m.view r.id r.qpackId) :
    Going r m' stream p datas octets insts rest left inst :=
  ⟨hopened, (congrArg View.stream hview).trans h.found, h.header,
    fun e he => h.writing e ((congrArg View.entry hview).symm.trans he), hview.symm ▸ h.account⟩

theorem Headed.of_view (h : Headed r m stream) (hopened : Opened r.qpackId m')
    (hview : m'.view r.id r.qpackId = m.view r.id r.qpackId) : Headed r m' stream :=
  ⟨h.coming.of_view hopened hview, h.header, h.encoding,
    fun e he => h.head e ((congrArg View.entry hview).symm.trans he)⟩

theorem Held.of_view (h : Held r m) (hopened : Opened r.qpackId m')
    (hview : m'.view r.id r.qpackId = m.view r.id r.qpackId) : Held r m' := by
  cases h with
  | headed stream h => exact .headed stream (h.of_view hopened hview)
  | going stream p datas rest left inst h hunread henc =>
    exact .going stream p datas rest left inst (h.of_view hopened hview) hunread henc

theorem Idle.of_view (h : Idle r m) (hopened : Opened r.qpackId m')
    (hview : m'.view r.id r.qpackId = m.view r.id r.qpackId) : Idle r m' := by
  cases h with
  | withdrawn stream h henc hent =>
    exact .withdrawn stream (h.of_view hopened hview) henc
      ((congrArg View.entry hview).trans hent) ‹_› ‹_›
  | going stream p datas rest h hunread henc =>
    exact .going stream p datas rest (h.of_view hopened hview) hunread henc

theorem Held.opened (h : Held r m) : Opened r.qpackId m := by
  cases h with
  | headed stream h => exact h.coming.opened
  | going stream p datas rest left inst h => exact h.opened

theorem Idle.opened (h : Idle r m) : Opened r.qpackId m := by
  cases h with
  | withdrawn stream h => exact h.opened
  | going stream p datas rest h => exact h.opened

theorem Stands.of_view (h : Stands r m) (hopened : Opened r.qpackId m')
    (hview : m'.view r.id r.qpackId = m.view r.id r.qpackId) : Stands r m' := by
  cases h with
  | waiting stream h henc hent hhdr =>
    exact .waiting stream (h.of_view hopened hview) henc
      ((congrArg View.entry hview).trans hent) hhdr
  | held h => exact .held (h.of_view hopened hview)
  | idle h => exact .idle (h.of_view hopened hview)

end StreamManager

end YlongHttp.H3
