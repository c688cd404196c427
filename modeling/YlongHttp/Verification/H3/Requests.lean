import YlongHttp.Verification.H3.Goaway
import YlongHttp.Verification.H3.Transmission

/-! # Requests are transmitted whole

Over a whole run of the stream manager, from the start of the connection. -/

namespace YlongHttp.H3

open List Option H3.Streams
open Library

namespace StreamManager

variable {r : Request} {quic : Quic} {m m' : StreamManager} {fuel i q : ℕ}
variable {streams : Streams} {encoder : FrameEncoder} {id : ℕ} {inst : Bytes} {as : List Action}

/-! ## Turns -/

def Safe (r : Request) (m : StreamManager) : Prop := Opened r.qpackId m ∧ (Unclean r m ∨ Stands r m)

theorem kept_safe (hq : r.qpackId ≠ r.id) : Kept (Safe r) (· ≠ r.id) := by
  have hview : Safe r = fun m => Opened r.qpackId m ∧
      (¬ Clean r (m.resumedOf r.id) (m.readsOf r.id) ∨
        ∃ m₀, m₀.view r.id r.qpackId = m.view r.id r.qpackId ∧ Stands r m₀) := by
    funext m
    refine propext (and_congr_right fun hopened => or_congr Iff.rfl ⟨fun h => ⟨m, rfl, h⟩, ?_⟩)
    rintro ⟨m₀, hview, h⟩
    exact h.of_view hopened hview.symm
  rw [hview]
  exact kept_view hq fun v resumed reads =>
    ¬ Clean r resumed reads ∨ ∃ m₀ : StreamManager, m₀.view r.id r.qpackId = v ∧ Stands r m₀

theorem triple_turn (hacc : Accepts quic) (hq : r.qpackId ≠ r.id) :
    Triple (Safe r) (pollInputRequest quic fuel) (fun _ => Safe r)
      (fun e m => Opened r.qpackId m ∧ Fails r e m) := by
  refine (kept_safe hq).turn (fun e m hm => ⟨hm.1, hm.2.imp_right fun h _ => h⟩) fun id hid => ?_
  obtain rfl := not_not.mp hid
  exact Triple.and (kept_opened.inputStreamFrame trivial) (triple_inputStreamFrame hacc hq)

/-! ## Other actions -/

theorem Stands.aside (h : Stands r m) (hopened : Opened r.qpackId { m with streams })
    (hlasts : m.streams.Lasts BidirectionalStream.Aside streams) : Stands r { m with streams } := by
  have hunread : ∀ {a b : BidirectionalStream} {rest : Bytes}, a.Aside b → a.Unread rest →
      b.Unread rest := by
    intro a b rest haside hunread hopen
    obtain ⟨reads, hdata, hsteady, hrest⟩ := hunread fun hshut => hopen (haside.shutdown hshut)
    exact ⟨reads, (haside.data hopen).trans hdata, hsteady, hrest⟩
  have hnone : ∀ {a b : BidirectionalStream}, a.Aside b → a.header = none → b.header = none :=
    fun haside => haside.later.header
  have hcoming : ∀ {stream stream' : BidirectionalStream}, Coming r m stream →
      streams.stream? r.id = some stream' → stream.Aside stream' →
      Coming r { m with streams } stream' := fun h hfound haside =>
    ⟨hopened, hfound, hunread haside h.unread, h.unsent.of_stream _⟩
  have hgoing : ∀ {stream stream' : BidirectionalStream} {p : Produced} {datas : List Bytes}
      {rest left inst : Bytes}, Going r m stream p datas [] [] rest left inst →
      streams.stream? r.id = some stream' → stream.Aside stream' →
      Going r { m with streams } stream' p datas [] [] rest left inst := fun h hfound haside =>
    ⟨hopened, hfound, hnone haside h.header, h.writing, h.account.of_stream _⟩
  cases h with
  | waiting stream h henc hent hhdr =>
    obtain ⟨stream', hfound, haside⟩ := hlasts _ _ h.found
    rcases haside.header with hsame | ⟨hgone, hshut⟩
    · exact .waiting stream' (hcoming h hfound haside) (haside.encoding.trans henc) hent
        (hsame.trans hhdr)
    · exact .idle (.withdrawn stream' (hcoming h hfound haside)
        (haside.encoding.trans henc) hent hgone hshut)
  | held h =>
    cases h with
    | headed stream h =>
      obtain ⟨stream', hfound, haside⟩ := hlasts _ _ h.coming.found
      exact .held (.headed stream' ⟨hcoming h.coming hfound haside, hnone haside h.header,
        haside.encoding.trans h.encoding, h.head⟩)
    | going stream p datas rest left inst h hread henc =>
      obtain ⟨stream', hfound, haside⟩ := hlasts _ _ h.found
      exact .held (.going stream' p datas rest left inst (hgoing h hfound haside)
        (hunread haside hread) (haside.encoding.trans henc))
  | idle h =>
    cases h with
    | withdrawn stream h henc hent hhdr hshut =>
      obtain ⟨stream', hfound, haside⟩ := hlasts _ _ h.found
      exact .idle (.withdrawn stream' (hcoming h hfound haside)
        (haside.encoding.trans henc) hent (hnone haside hhdr)
        (haside.shutdown hshut))
    | going stream p datas rest h hread henc =>
      obtain ⟨stream', hfound, haside⟩ := hlasts _ _ h.found
      exact .idle (.going stream' p datas rest (hgoing h hfound haside) (hunread haside hread)
        (haside.encoding.trans henc))

theorem Stands.forget (h : Stands r m)
    (hent : ∀ e, encoder.streams.lookup r.id = some e → m.encoder.streams.lookup r.id = some e) :
    Stands r { m with encoder } := by
  have hgone : m.encoder.streams.lookup r.id = none → encoder.streams.lookup r.id = none := by
    intro hnone
    refine eq_none_iff_forall_ne_some.mpr fun e he => ?_
    cases hnone.symm.trans (hent e he)
  have hcoming : ∀ {stream : BidirectionalStream}, Coming r m stream →
      Coming r { m with encoder } stream := fun h =>
    ⟨h.opened, h.found, h.unread, h.unsent.produced, h.unsent.log, h.unsent.instructions,
      h.unsent.fin⟩
  have hgoing : ∀ {stream : BidirectionalStream} {p : Produced} {datas : List Bytes}
      {rest left inst : Bytes}, Going r m stream p datas [] [] rest left inst →
      Going r { m with encoder } stream p datas [] [] rest left inst := fun h =>
    ⟨h.opened, h.found, h.header, fun e he => h.writing e (hent e he), h.account.produced,
      h.account.lines, h.account.sent, h.account.instructions, h.account.body, h.account.fin,
      h.account.order⟩
  cases h with
  | waiting stream h henc hnone hhdr => exact .waiting stream (hcoming h) henc (hgone hnone) hhdr
  | held h =>
    cases h with
    | headed stream h =>
      exact .held (.headed stream ⟨hcoming h.coming, h.header, h.encoding,
        fun e he => h.head e (hent e he)⟩)
    | going stream p datas rest left inst h hread henc =>
      exact .held (.going stream p datas rest left inst (hgoing h) hread henc)
  | idle h =>
    cases h with
    | withdrawn stream h henc hnone hhdr hshut =>
      exact .idle (.withdrawn stream (hcoming h) henc (hgone hnone) hhdr hshut)
    | going stream p datas rest h hread henc =>
      exact .idle (.going stream p datas rest (hgoing h) hread henc)

def Sends : Action → Prop
  | .input quic _ => Accepts quic
  | _ => True

def FreshFor (m : StreamManager) : Action → Prop
  | .call c _ => m.streams.Fresh c
  | _ => True

def AllFresh : StreamManager → List Action → Prop
  | _, [] => True
  | m, a :: as => FreshFor m a ∧ ∀ m', m.step a = some m' → AllFresh m' as

theorem lasts_outer {c : Call} (houter : c.outer = true) (hfresh : m.streams.Fresh c)
    (hcall : m.streams.call c = some streams) :
    m.streams.Lasts BidirectionalStream.Aside streams := by
  refine lasts_call_aside hfresh hcall ?_ ?_ ?_
  · rintro id encoding rfl
    cases houter
  · rintro id rfl
    cases houter
  · rintro id len rfl
    cases houter

theorem Safe.step {a : Action} (h : Safe r m) (hq : r.qpackId ≠ r.id) (hsends : Sends a)
    (hfresh : FreshFor m a) (hstep : m.step a = some m') : Safe r m' := by
  have hopened := h.1.step hstep
  obtain ⟨quic, fuel, rfl⟩ | ⟨c, houter, streams, rfl, hcall, rfl⟩ | ⟨encoder, rfl, hforget⟩ :=
    step_cases hstep
  · refine step_turn (triple_turn hsends hq) ?_ h hstep
    exact fun e m hm => ⟨hm.1, hm.2.imp_right fun hunharmed => hunharmed nofun⟩
  · exact ⟨hopened, h.2.imp_right fun h => h.aside hopened (lasts_outer houter hfresh hcall)⟩
  · exact ⟨hopened, h.2.imp_right fun h => h.forget fun e he => hforget he⟩

theorem Safe.steps (h : Safe r m) (hq : r.qpackId ≠ r.id) (hsends : ∀ a ∈ as, Sends a)
    (hfresh : AllFresh m as) (hsteps : m.steps as = some m') : Safe r m' := by
  induction as generalizing m with
  | nil => exact some.inj hsteps ▸ h
  | cons a as ih =>
    obtain ⟨m₁, hstep, hsteps⟩ := bind_eq_some_iff.mp hsteps
    exact ih (h.step hq (hsends a (.head _)) hfresh.1 hstep)
      (fun a ha => hsends a (.tail _ ha)) (hfresh.2 m₁ hstep) hsteps

/-! ## Before the request -/

def Untouched (i q : ℕ) (m : StreamManager) : Prop :=
  Opened q m ∧ ((m.view i q).stream = none →
    m.view i q = { stream := none, entry := none, log := [], instructions := [], produced := [] })

theorem kept_present : Kept (fun m => i ∈ m.streams.ids) fun _ => True where
  setFrame _ _ hm := hm
  encode _ hm := hm
  asked _ hm := hm
  sent _ _ _ _ hm := hm
  resumed _ _ hm := hm
  read _ _ _ hm := hm
  getHeader _ hm := (quiet_getHeader _ _).ids.symm ▸ hm
  setEncoding _ _ hm := (quiet_setEncoding _ _ _).ids.symm ▸ hm
  readBody _ _ hm := (quiet_pollSizedData _ _ _).ids.symm ▸ hm
  sendLater _ hm := hm
  next hm := hm
  admission hm := by
    rw [mem_ids] at hm ⊢
    rwa [stream?_tryConsumePendingConcurrency]
  qpack := by
    refine (keeps_onStreams (P := fun m => i ∈ m.streams.ids) fun m hm => ?_).weaken
      (fun _ h => h) (fun _ _ h => ⟨trivial, h⟩) fun _ _ h => h
    split
    · exact hm
    · split <;> rename_i heq <;> obtain ⟨rfl, -⟩ := Prod.mk.inj heq <;> exact hm

theorem keeps_untouched (hq : q ≠ i) : Keeps (Untouched i q) (pollInputRequest quic fuel) := by
  refine (kept_view hq fun v _ _ => v.stream = none → v =
    { stream := none, entry := none, log := [], instructions := [], produced := [] }).pollInputRequest
      fun id hid => ?_
  obtain rfl := not_not.mp hid
  intro m hm
  cases hfound : m.streams.stream? id with
  | none =>
    -- A stream that is not there is an error at once.
    have hres : inputStreamFrame quic fuel id m =
        .error (.error (connectionError .h3InternalError)) m := by
      change EStateM.bind (onStreams (·.getHeader id)) _ m = _
      rw [EStateM.bind, onStreams, getHeader, hfound]
    rw [hres]
    exact hm
  | some stream =>
    have hpresent : id ∈ m.streams.ids := mem_ids.mpr (by simp [hfound])
    have hkeeps : Keeps (Opened q) (inputStreamFrame quic fuel id) :=
      kept_opened.inputStreamFrame trivial
    have hboth := hkeeps.and (kept_present.inputStreamFrame trivial) m ⟨hm.1, hpresent⟩
    have hthere : ∀ m' : StreamManager, Opened q m' ∧ id ∈ m'.streams.ids → Untouched id q m' := by
      rintro m' ⟨hopened, hmem⟩
      refine ⟨hopened, fun hnone => ?_⟩
      rw [mem_ids] at hmem
      have hnone : m'.streams.stream? id = none := hnone
      simp [hnone] at hmem
    split <;> rename_i heq <;> rw [heq] at hboth <;> exact hthere _ hboth

theorem Untouched.step {a : Action} (h : Untouched i q m) (hq : q ≠ i) (hfresh : FreshFor m a)
    (hstep : m.step a = some m') : Untouched i q m' := by
  have hopened := h.1.step hstep
  obtain ⟨quic, fuel, rfl⟩ | ⟨c, houter, streams, rfl, hcall, rfl⟩ | ⟨encoder, rfl, hent⟩ :=
    step_cases hstep
  · exact step_input (keeps_untouched hq) h hstep
  · refine ⟨hopened, fun hnone => ?_⟩
    have hbefore : m.streams.stream? i = none := by
      refine eq_none_iff_forall_ne_some.mpr fun stream hstr => ?_
      obtain ⟨stream', hstr', -⟩ := lasts_outer houter hfresh hcall i stream hstr
      cases hnone.symm.trans hstr'
    have hview := h.2 hbefore
    rw [← hview]
    exact view_streams (hnone.trans hbefore.symm)
  · refine ⟨h.1, fun hnone => ?_⟩
    have hview := h.2 hnone
    have hgone : encoder.streams.lookup i = none := by
      refine eq_none_iff_forall_ne_some.mpr fun e he => ?_
      cases (congrArg View.entry hview).symm.trans (hent he)
    exact (view_encoder (hgone.trans (congrArg View.entry hview).symm)).trans hview

theorem Untouched.steps (h : Untouched i q m) (hq : q ≠ i) (hfresh : AllFresh m as)
    (hsteps : m.steps as = some m') : Untouched i q m' := by
  induction as generalizing m with
  | nil => exact some.inj hsteps ▸ h
  | cons a as ih =>
    obtain ⟨m₁, hstep, hsteps⟩ := bind_eq_some_iff.mp hsteps
    exact ih (h.step hq hfresh.1 hstep) (hfresh.2 m₁ hstep) hsteps

/-! ## The start of the connection -/

/-- Only unidirectional streams of the client were touched. -/
structure OnlyUni (m : StreamManager) : Prop where
  sent : ∀ s ∈ m.sent, s.id % 4 = 2 ∧ s.request % 4 = 2
  entry : ∀ id e, m.encoder.streams.lookup id = some e → id % 4 = 2
  produced : ∀ p ∈ m.produced, p.1 % 4 = 2

theorem OnlyUni.untouched (h : OnlyUni m) (hopened : Opened q m) (hi : i % 4 = 0) :
    Untouched i q m := by
  refine ⟨hopened, fun hnone => ?_⟩
  have hnone : m.streams.stream? i = none := hnone
  have hent : m.encoder.streams.lookup i = none :=
    eq_none_iff_forall_ne_some.mpr fun e he => by have := h.entry i e he; omega
  have hlog : m.sent.filter (·.id = i) = [] :=
    filter_eq_nil_iff.mpr fun s hs => by have := (h.sent s hs).1; simp; omega
  have hinst : m.sent.filter (fun s => s.request = i ∧ s.id = q) = [] :=
    filter_eq_nil_iff.mpr fun s hs => by have := (h.sent s hs).2; simp; omega
  have hproduced : m.produced.filter (·.1 = i) = [] :=
    filter_eq_nil_iff.mpr fun p hp => by have := h.produced p hp; simp; omega
  rw [view, hnone, hent, hlog, hinst, hproduced]

def At (streams : Streams) (m : StreamManager) : Prop := m.streams = streams ∧ OnlyUni m

theorem keeps_at_streamSend {octets : Bytes} {fin : Bool} (hid : id % 4 = 2) :
    Keeps (At streams) (streamSend quic id id octets fin) := by
  refine keeps_streamSend (fun _ hm => ⟨hm.1, hm.2.sent, hm.2.entry, hm.2.produced⟩)
    fun {m} hm => ⟨hm.1, fun s hs => ?_, hm.2.entry, hm.2.produced⟩
  rcases mem_append.mp hs with hs | hs
  · exact hm.2.sent s hs
  · obtain rfl := mem_singleton.mp hs
    exact ⟨hid, hid⟩

theorem keeps_at_setFrame {frame : Frame} (hid : id % 4 = 2) :
    Keeps (At streams) (setFrame id frame) := by
  refine keeps_onEncoder fun m hm => ⟨hm.1, hm.2.sent, fun id' e he => ?_, hm.2.produced⟩
  by_cases hne : id' = id
  · exact hne ▸ hid
  · refine hm.2.entry id' e ?_
    rw [← FrameEncoder.lookup_setFrame_of_ne hne frame]
    exact he

theorem keeps_at_encodeFrame (hid : id % 4 = 2) : Keeps (At streams) (encodeFrame id) := by
  refine .bind (fun m hm => ⟨hm.1, hm.2.sent, hm.2.entry, fun p hp => ?_⟩) fun _ =>
    keeps_onEncoder fun m hm => ⟨hm.1, hm.2.sent, fun id' e he => ?_, hm.2.produced⟩
  · rcases mem_append.mp hp with hp | hp
    · exact hm.2.produced p hp
    · rw [mem_toList, map_eq_some_iff] at hp
      obtain ⟨_, _, rfl⟩ := hp
      exact hid
  · by_cases hne : id' = id
    · exact hne ▸ hid
    · exact hm.2.entry id' e ((FrameEncoder.lookup_encode_of_ne hne _ _).symm.trans he)

theorem keeps_at_sendSettingsLoop (hid : id % 4 = 2) :
    Keeps (At streams) (sendSettingsLoop quic id fuel) := by
  induction fuel with
  | zero => exact .throw _
  | succ fuel ih =>
    refine .bind (keeps_at_encodeFrame hid) fun _ => .ite (.pure _) ?_
    exact .bind (keeps_at_streamSend hid) fun _ => ih

theorem onlyUni_init {settings : Settings}
    (hinit : init quic fuel settings .new = .ok () m) : OnlyUni m := by
  have hweak : ∀ {α : Type} {P : StreamManager → Prop} {p : ManagerM α}, Keeps P p →
      Triple P p (fun _ => P) fun _ _ => True :=
    fun h => h.weaken (fun _ h => h) (fun _ _ h => h) fun _ _ _ => trivial
  let control : Streams := { Streams.new with controlStreamId := some 2, nextUniStreamId := 6 }
  let encode : Streams := { control with qpackEncodeStreamId := some 6, nextUniStreamId := 10 }
  let decode : Streams := { encode with qpackDecodeStreamId := some 10, nextUniStreamId := 14 }
  have hcontrol : Triple (At .new) controlStreamId (fun id m => id = 2 ∧ At control m)
      fun _ _ => True := by
    rintro m ⟨hstreams, honly⟩
    rw [controlStreamId, onStreams, hstreams]
    exact ⟨rfl, rfl, honly.sent, honly.entry, honly.produced⟩
  have hencode : Triple (At control) qpackEncodeStreamId (fun id m => id = 6 ∧ At encode m)
      fun _ _ => True := by
    rintro m ⟨hstreams, honly⟩
    rw [qpackEncodeStreamId, onStreams, hstreams]
    exact ⟨rfl, rfl, honly.sent, honly.entry, honly.produced⟩
  have hdec : Triple (At encode) qpackDecodeStreamId (fun id m => id = 10 ∧ At decode m)
      fun _ _ => True := by
    rintro m ⟨hstreams, honly⟩
    rw [qpackDecodeStreamId, onStreams, hstreams]
    exact ⟨rfl, rfl, honly.sent, honly.entry, honly.produced⟩
  have hwhole : Triple (At .new) (init quic fuel settings) (fun _ => At decode)
      fun _ _ => True := by
    refine .bind hcontrol fun controlId => ?_
    rintro m ⟨rfl, hm⟩
    refine Triple.bind (hweak (keeps_at_streamSend rfl)) (fun _ =>
      .bind (hweak (keeps_at_setFrame rfl)) fun _ =>
      .bind (hweak (keeps_at_sendSettingsLoop rfl)) fun _ => .bind hencode fun encodeId => ?_) m hm
    rintro m ⟨rfl, hm⟩
    refine Triple.bind (hweak (keeps_at_streamSend rfl)) (fun _ =>
      .bind hdec fun decodeId => ?_) m hm
    rintro m ⟨rfl, hm⟩
    exact hweak (keeps_at_streamSend rfl) m hm
  have hend := hwhole .new ⟨rfl, (by rintro _ ⟨⟩), (fun id e he => by cases he), (by rintro _ ⟨⟩)⟩
  rw [hinit] at hend
  exact hend.2

/-! ## Whole runs -/

theorem AllFresh.append {as as' : List Action} (h : AllFresh m (as ++ as'))
    (hsteps : m.steps as = some m') : AllFresh m as ∧ AllFresh m' as' := by
  induction as generalizing m with
  | nil => exact ⟨trivial, some.inj hsteps ▸ h⟩
  | cons a as ih =>
    obtain ⟨m₁, hstep, hsteps⟩ := bind_eq_some_iff.mp hsteps
    obtain ⟨hfirst, hlast⟩ := ih (h.2 m₁ hstep) hsteps
    refine ⟨⟨h.1, fun m₂ hstep₂ => ?_⟩, hlast⟩
    cases hstep.symm.trans hstep₂
    exact hfirst

theorem Untouched.request {reads : List BodyRead} (h : Untouched r.id r.qpackId m)
    (hid : m.streams.getNextBidiStreamId.2 = some r.id) (hfresh : m.streams.nextBidiStreamId ∉ m.streams.ids)
    (hsteady : Steady reads) (hbody : bodyOctets reads = r.body)
    (hstep : m.step (.call (.request r.header { body := some reads }) rfl) = some m') :
    Safe r m' := by
  have hopened := h.1.step hstep
  obtain rfl : { m with streams := (m.streams.newUnidirectionalStream r.header
      { body := some reads }).1 } = m' := some.inj hstep
  have hnone : m.streams.stream? r.id = none := by
    have hsame : m.streams.nextBidiStreamId = r.id := by
      rw [getNextBidiStreamId] at hid
      dsimp only at hid
      split at hid
      · cases hid
      · exact some.inj hid
    rw [hsame, mem_ids] at hfresh
    simpa using hfresh
  have hview := h.2 hnone
  have hunsent : Unsent (m.view r.id r.qpackId) := by
    rw [hview]
    exact ⟨rfl, rfl, rfl, (by simp)⟩
  have hent : m.encoder.streams.lookup r.id = none := congrArg View.entry hview
  exact ⟨hopened, .inr (.waiting (.new r.header { body := some reads }) ⟨hopened,
    stream?_request hid, fun _ => ⟨reads, rfl, hsteady, hbody⟩, hunsent.of_stream _⟩ rfl
    hent rfl)⟩

/-- What was sent for a request: its HEADERS frame with the field section `p` and DATA frames
with `datas`, as far as they were sent, and the instructions that were produced for it. -/
structure Transmits (r : Request) (m : StreamManager) (p : Produced) (datas : List Bytes) :
    Prop where
  produced : (m.view r.id r.qpackId).produced = [(r.id, p)]
  lines : p.lines = some r.lines
  octets : octetsOf (m.view r.id r.qpackId).log <+:
    headersOctets p.fields ++ datas.flatMap dataOctets
  instructions : octetsOf (m.view r.id r.qpackId).instructions <+: p.inst
  body : datas.flatten <+: r.body
  /-- Where the frame encoder has nothing left, nothing is missing. -/
  atRest : ∀ e, m.encoder.streams.lookup r.id = some e → e.AtRest →
    octetsOf (m.view r.id r.qpackId).log = headersOctets p.fields ++ datas.flatMap dataOctets ∧
    octetsOf (m.view r.id r.qpackId).instructions = p.inst
  /-- The end comes after the whole request. -/
  fin : (∃ s ∈ (m.view r.id r.qpackId).log, s.fin = true) →
    octetsOf (m.view r.id r.qpackId).log = headersOctets p.fields ++ datas.flatMap dataOctets ∧
    octetsOf (m.view r.id r.qpackId).instructions = p.inst ∧ datas.flatten = r.body
  last : (m.view r.id r.qpackId).log.Pairwise fun a b => a.fin = true → b.octets = []

theorem Going.transmits {stream : BidirectionalStream} {p : Produced} {datas : List Bytes}
    {rest left : Bytes} (h : Going r m stream p datas [] [] rest left inst) :
    Transmits r m p datas := by
  have hsent := h.account.sent
  have hinst := h.account.instructions
  rw [append_nil] at hsent hinst
  refine ⟨h.account.produced, h.account.lines, ⟨left, hsent⟩, ⟨inst, hinst⟩,
    ⟨rest, h.account.body⟩, fun e he hrest => ?_, fun hfin => ?_, h.account.order⟩
  · obtain ⟨rfl, rfl⟩ := (h.writing e he).eq_nil hrest
    rw [append_nil] at hsent hinst
    exact ⟨hsent, hinst⟩
  · obtain ⟨-, -, rfl, rfl, rfl⟩ := h.account.fin hfin
    have hbody := h.account.body
    rw [append_nil] at hsent hinst hbody
    exact ⟨hsent, hinst, hbody⟩

theorem Stands.transmits (h : Stands r m) :
    Unsent (m.view r.id r.qpackId) ∨ ∃ p datas, Transmits r m p datas := by
  cases h with
  | waiting stream h => exact .inl h.unsent
  | held h =>
    cases h with
    | headed stream h => exact .inl h.coming.unsent
    | going stream p datas rest left inst h => exact .inr ⟨p, datas, h.transmits⟩
  | idle h =>
    cases h with
    | withdrawn stream h => exact .inl h.unsent
    | going stream p datas rest h => exact .inr ⟨p, datas, h.transmits⟩

/-- In a run that throws nothing of a request away, the request is transmitted whole: nothing was
sent for it yet, or its HEADERS frame and the DATA frames of its body are, as far as they were
sent, what was sent on its stream, with the end after all of it, and the instructions that were
produced for it are what was sent for it on the encoder stream. -/
theorem requests_transmitted_whole {settings : Settings} {m₀ m₁ : StreamManager}
    {before after : List Action} {reads : List BodyRead}
    (hinit : StreamManager.init quic fuel settings .new = .ok () m₀) (hopened : Opened r.qpackId m₀)
    (hbefore : m₀.steps before = some m₁)
    (hid : m₁.streams.getNextBidiStreamId.2 = some r.id)
    (hrequest : QUICStreamType.ofId r.id = .clientInitialBidirectional)
    (hsteady : Steady reads) (hbody : bodyOctets reads = r.body)
    (hafter : m₁.steps (.call (.request r.header { body := some reads }) rfl :: after) = some m)
    (hfresh : AllFresh m₀
      (before ++ .call (.request r.header { body := some reads }) rfl :: after))
    (hsends : ∀ a ∈ after, Sends a) (hclean : Clean r (m.resumedOf r.id) (m.readsOf r.id)) :
    Unsent (m.view r.id r.qpackId) ∨ ∃ p datas, Transmits r m p datas := by
  have hmod : r.id % 4 = 0 := by
    rw [QUICStreamType.ofId] at hrequest
    split at hrequest <;> first | assumption | cases hrequest
  have hq : r.qpackId ≠ r.id := by
    obtain ⟨q, hq, hqmod⟩ := opened_init hinit
    obtain rfl : q = r.qpackId := some.inj (hq.symm.trans hopened)
    omega
  obtain ⟨hfreshBefore, hfreshRequest, hfreshAfter⟩ := hfresh.append hbefore
  have huntouched := ((onlyUni_init hinit).untouched hopened hmod).steps hq hfreshBefore hbefore
  obtain ⟨m₂, hstep, hafter⟩ := bind_eq_some_iff.mp hafter
  have hsafe := (huntouched.request hid hfreshRequest hsteady hbody hstep).steps hq hsends
    (hfreshAfter m₂ hstep) hafter
  exact (hsafe.2.resolve_left (not_not.mpr hclean)).transmits

def oneOctet : Request where
  id := 0
  qpackId := 6
  parts := .new
  ins := none
  body := [7]

def noRoom : Quic := { openQuic with capacity := fun _ => .ok 0 }

def oneTurn (quic : Quic) : Option StreamManager :=
  opened.steps [.call (.request oneOctet.header { body := some [.octets oneOctet.body] }) rfl,
    .input quic 8]

def summary (m : StreamManager) : List Sent × List Bytes × ℕ × List ℕ :=
  ((m.view 0 6).log, (m.view 0 6).produced.map (·.2.fields), (m.resumedOf 0).length,
    (m.readsOf 0).map (·.2.1))

/-- The request with its body. -/
theorem requests_transmitted_whole_one_octet : ∃ m p datas, oneTurn openQuic = some m ∧
    octetsOf (m.view 0 6).log = [1, 2, 0, 0, 0, 1, 7] ∧ Transmits oneOctet m p datas := by
  have hsummary : (oneTurn openQuic).map summary =
      some ([{ request := 0, id := 0, octets := [1, 2, 0, 0], fin := false },
        { request := 0, id := 0, octets := [0, 1, 7], fin := false },
        { request := 0, id := 0, octets := [], fin := true }], [[0, 0]], 0, [16384, 16384]) := by
    decide +kernel
  obtain ⟨m, hsteps, hm⟩ := map_eq_some_iff.mp hsummary
  obtain ⟨hlog, -, hresumed, hreads⟩ : _ ∧ _ ∧ _ ∧ _ := by
    simpa only [summary, Prod.mk.injEq] using hm
  have hclean : Clean oneOctet (m.resumedOf 0) (m.readsOf 0) := by
    refine ⟨fun entry hent => ?_, fun entry hent hzero => ?_⟩
    · rw [eq_nil_of_length_eq_zero hresumed] at hent
      cases hent
    · have hmem : entry.2.1 ∈ (m.readsOf 0).map (·.2.1) := mem_map_of_mem hent
      rw [hreads, hzero] at hmem
      simp at hmem
  have hfresh : AllFresh opened ([] ++ .call (.request oneOctet.header
      { body := some [.octets oneOctet.body] }) rfl :: [.input openQuic 8]) :=
    ⟨by change (_ : ℕ) ∉ _; decide +kernel, fun _ _ => ⟨trivial, fun _ _ => trivial⟩⟩
  rw [oneTurn] at hsteps
  have hopened : Opened 6 opened := by
    rw [Opened]
    decide +kernel
  have hid : opened.streams.getNextBidiStreamId.2 = some 0 := by decide +kernel
  have hwhole := requests_transmitted_whole (r := oneOctet) init_opened hopened
    (show opened.steps [] = some opened from rfl) hid rfl
    (by simp [Steady, oneOctet]) (append_nil _) hsteps hfresh
    (by simp [Sends, Accepts, openQuic]) hclean
  rcases hwhole with hunsent | ⟨p, datas, htransmits⟩
  · have hnone := hunsent.log
    change octetsOf (m.view 0 6).log = [] at hnone
    rw [hlog] at hnone
    cases hnone
  · exact ⟨m, p, datas, (by rw [oneTurn, hsteps]), by rw [hlog]; rfl, htransmits⟩

/-- Without room for a read the end is sent before the body. -/
theorem body_cut_off : ∃ m, oneTurn noRoom = some m ∧
    ¬ (Unsent (m.view 0 6) ∨ ∃ p datas, Transmits oneOctet m p datas) := by
  have hsummary : (oneTurn noRoom).map summary =
      some ([{ request := 0, id := 0, octets := [1, 2, 0, 0], fin := false },
        { request := 0, id := 0, octets := [], fin := true }], [[0, 0]], 0, [0]) := by
    decide +kernel
  obtain ⟨m, hsteps, hm⟩ := map_eq_some_iff.mp hsummary
  obtain ⟨hlog, hflds, -, -⟩ : _ ∧ _ ∧ _ ∧ _ := by simpa only [summary, Prod.mk.injEq] using hm
  refine ⟨m, hsteps, ?_⟩
  have hfin : ∃ s ∈ (m.view 0 6).log, s.fin = true := by
    rw [hlog]
    exact ⟨_, mem_cons_of_mem _ (.head _), rfl⟩
  rintro (hunsent | ⟨p, datas, htransmits⟩)
  · obtain ⟨s, hs, hlast⟩ := hfin
    cases (hunsent.fin s hs).symm.trans hlast
  · have hproduced : (m.view 0 6).produced = [(0, p)] := htransmits.produced
    have hp : p.fields = [0, 0] := by
      rw [hproduced] at hflds
      exact head_eq_of_cons_eq hflds
    obtain ⟨hoct, -, hbody⟩ := htransmits.fin hfin
    change octetsOf (m.view 0 6).log = _ at hoct
    have hhdr : octetsOf (m.view 0 6).log = headersOctets p.fields := by
      rw [hlog, hp]
      decide +kernel
    have hnone : datas.flatMap dataOctets = [] := by
      rw [hhdr] at hoct
      exact self_eq_append_right.mp hoct
    cases datas with
    | nil => cases hbody
    | cons data datas => cases hnone

end StreamManager

end YlongHttp.H3
