import YlongHttp.Verification.H3.Lasting

/-! # The frames of a response, and the grammar of a message

`recv_request_stream` hands HEADERS and DATA to `send_frame`, and nothing else. -/

namespace YlongHttp.H3

open List Option
open Library

/-! ## The grammar -/

namespace Frame

def isHeaders (frame : Frame) : Bool :=
  match frame.payload with
  | .headers _ _ => true
  | _ => false

def isData (frame : Frame) : Bool :=
  match frame.payload with
  | .data _ => true
  | _ => false

def isInterim (frame : Frame) : Bool :=
  match frame.payload with
  | .headers parts _ => parts.pseudo.status.any fun status =>
    status.length = 3 ∧ status.head? = some '1'.toUInt8
  | _ => false

variable {frame : Frame}

theorem isHeaders_of_isInterim (h : frame.isInterim) : frame.isHeaders := by
  rw [isInterim] at h
  rw [isHeaders]
  split at h
  · rfl
  · cases h

theorem isHeaders_of_isData (h : frame.isData) : frame.isHeaders = false := by
  rw [isData] at h
  rw [isHeaders]
  split at h
  · next hpay => rw [hpay]
  · cases h

end Frame

/-- What may follow the final HEADERS: any number of DATA, and at most one HEADERS at the end. -/
inductive MessageBody : List Frame → Prop
  | nil : MessageBody []
  | trailer {frame : Frame} (h : frame.isHeaders) : MessageBody [frame]
  | data {frame : Frame} {frames : List Frame} (h : frame.isData) (rest : MessageBody frames) :
      MessageBody (frame :: frames)

/-- A response, RFC 9114, section 4.1. -/
inductive ResponseMessage : List Frame → Prop
  | interim {frame : Frame} {frames : List Frame} (h : frame.isInterim)
      (rest : ResponseMessage frames) : ResponseMessage (frame :: frames)
  | final {frame : Frame} {frames : List Frame} (h : frame.isHeaders) (hfinal : ¬frame.isInterim)
      (rest : MessageBody frames) : ResponseMessage (frame :: frames)

def BodyPrefix (frames : List Frame) : Prop := ∃ rest, MessageBody (frames ++ rest)

def MessagePrefix (frames : List Frame) : Prop := ∃ rest, ResponseMessage (frames ++ rest)

section Grammar

variable {frame : Frame} {frames : List Frame}

theorem bodyPrefix_nil : BodyPrefix [] := ⟨[], .nil⟩

theorem bodyPrefix_data (h : frame.isData) : BodyPrefix (frame :: frames) ↔ BodyPrefix frames := by
  constructor
  · rintro ⟨rest, hrest⟩
    rw [cons_append] at hrest
    generalize htail : frames ++ rest = tail at hrest
    cases hrest with
    | trailer hheaders => simp [Frame.isHeaders_of_isData h] at hheaders
    | data _ hbody => exact ⟨rest, htail ▸ hbody⟩
  · rintro ⟨rest, hrest⟩
    exact ⟨rest, .data h hrest⟩

theorem bodyPrefix_headers (h : frame.isHeaders) : BodyPrefix (frame :: frames) ↔ frames = [] := by
  constructor
  · rintro ⟨rest, hrest⟩
    rw [cons_append] at hrest
    generalize htail : frames ++ rest = tail at hrest
    cases hrest with
    | trailer => exact (append_eq_nil_iff.mp htail).1
    | data hdata => simp [Frame.isHeaders_of_isData hdata] at h
  · rintro rfl
    exact ⟨[], .trailer h⟩

theorem messagePrefix_nil : MessagePrefix [] := by
  have hfinal : ResponseMessage [{ ty := headersFrameType, payload := .headers .new none }] :=
    .final rfl nofun .nil
  exact ⟨_, hfinal⟩

theorem messagePrefix_interim (h : frame.isInterim) :
    MessagePrefix (frame :: frames) ↔ MessagePrefix frames := by
  constructor
  · rintro ⟨rest, hrest⟩
    cases hrest with
    | interim _ htail => exact ⟨rest, htail⟩
    | final _ hfinal => exact absurd h hfinal
  · rintro ⟨rest, hrest⟩
    exact ⟨rest, .interim h hrest⟩

theorem messagePrefix_final (h : frame.isHeaders) (hfinal : ¬frame.isInterim) :
    MessagePrefix (frame :: frames) ↔ BodyPrefix frames := by
  constructor
  · rintro ⟨rest, hrest⟩
    cases hrest with
    | interim hinterim => exact absurd hinterim hfinal
    | final _ _ htail => exact ⟨rest, htail⟩
  · rintro ⟨rest, hrest⟩
    exact ⟨rest, .final h hfinal hrest⟩

theorem not_messagePrefix (h : ¬frame.isHeaders) : ¬MessagePrefix (frame :: frames) := by
  rintro ⟨rest, hrest⟩
  cases hrest with
  | interim hinterim => exact h (Frame.isHeaders_of_isInterim hinterim)
  | final hheaders => exact h hheaders

theorem messagePrefix_headers (h : frame.isHeaders) : MessagePrefix [frame] := by
  by_cases hinterim : frame.isInterim
  · exact (messagePrefix_interim hinterim).mpr messagePrefix_nil
  · exact (messagePrefix_final h hinterim).mpr bodyPrefix_nil

end Grammar

/-! ## The first frame that is refused -/

/-- The frame at which these frames leave the language `P`. -/
def FirstOffending (P : List Frame → Prop) (frames : List Frame) (n : ℕ) : Prop :=
  n < frames.length ∧ P (frames.take n) ∧ ¬P (frames.take (n + 1))

/-- A frame is refused where the language is left, and nowhere else. -/
structure RefusedBy (P : List Frame → Prop) (frames : List Frame) (refused : Option ℕ) : Prop where
  accepted : refused = none ↔ P frames
  first : ∀ n, refused = some n → FirstOffending P frames n

/-- The frames that `send_frame` takes from a state on: the first that it refuses. -/
def refusal : H3StreamState → List Frame → Option ℕ
  | _, [] => none
  | state, frame :: frames =>
    match BidirectionalStream.nextState state frame with
    | none => some 0
    | some state => (refusal state frames).map (· + 1)

section Refusal

variable {P Q : List Frame → Prop} {frame : Frame} {frames : List Frame} {refused : Option ℕ}

theorem refusedBy_nil (hnil : P []) : RefusedBy P [] none := ⟨by simp [hnil], nofun⟩

theorem refusedBy_first (hnil : P []) (hnot : ∀ frames, ¬P (frame :: frames)) :
    RefusedBy P (frame :: frames) (some 0) := by
  refine ⟨⟨nofun, fun hframes => absurd hframes (hnot frames)⟩, ?_⟩
  intro n hn
  cases hn
  exact ⟨by simp, hnil, hnot _⟩

theorem refusedBy_cons (hcons : ∀ frames, P (frame :: frames) ↔ Q frames)
    (hrest : RefusedBy Q frames refused) : RefusedBy P (frame :: frames) (refused.map (· + 1)) := by
  constructor
  · rw [map_eq_none_iff, hcons]
    exact hrest.accepted
  · intro n hn
    obtain ⟨m, hm, rfl⟩ := map_eq_some_iff.mp hn
    obtain ⟨hlt, hbefore, hbehind⟩ := hrest.first m hm
    refine ⟨by simpa using hlt, ?_, ?_⟩
    · rw [take_succ_cons]
      exact (hcons _).mpr hbefore
    · rw [take_succ_cons]
      exact fun hall => hbehind ((hcons _).mp hall)

end Refusal

/-- A frame of a kind that `recv_request_stream` hands on. -/
def Frame.isPart (frame : Frame) : Prop := frame.isHeaders ∨ frame.isData

section States

open BidirectionalStream

variable {state : H3StreamState} {frame : Frame} {frames : List Frame}

theorem nextState_headers (h : frame.isHeaders) : nextState state frame =
    match state with
    | .sending => some .headersReceived
    | .bodyReceived => some .trailerReceived
    | .shutdown => some .shutdown
    | _ => none := by
  obtain ⟨ty, payload⟩ := frame
  cases payload with
  | headers parts ins => cases state <;> rfl
  | _ => cases h

theorem nextState_data (h : frame.isData) : nextState state frame =
    match state with
    | .headersReceived | .bodyReceived => some .bodyReceived
    | .shutdown => some .shutdown
    | _ => none := by
  obtain ⟨ty, payload⟩ := frame
  cases payload with
  | data data => cases state <;> rfl
  | _ => cases h

theorem refusal_trailer (hparts : ∀ frame ∈ frames, frame.isPart) :
    RefusedBy (· = []) frames (refusal .trailerReceived frames) := by
  cases frames with
  | nil => exact refusedBy_nil rfl
  | cons frame frames =>
    have hnone : nextState .trailerReceived frame = none := by
      rcases hparts frame (.head _) with h | h
      · rw [nextState_headers h]
      · rw [nextState_data h]
    rw [refusal, hnone]
    exact refusedBy_first rfl fun _ => cons_ne_nil _ _

theorem refusal_body (hparts : ∀ frame ∈ frames, frame.isPart) :
    RefusedBy BodyPrefix frames (refusal .bodyReceived frames) := by
  induction frames with
  | nil => exact refusedBy_nil bodyPrefix_nil
  | cons frame frames ih =>
    have hrest : ∀ frame ∈ frames, frame.isPart := fun f hf => hparts f (.tail _ hf)
    rw [refusal]
    rcases hparts frame (.head _) with h | h
    · rw [nextState_headers h]
      exact refusedBy_cons (fun _ => bodyPrefix_headers h) (refusal_trailer hrest)
    · rw [nextState_data h]
      exact refusedBy_cons (fun _ => bodyPrefix_data h) (ih hrest)

/-- A HEADERS frame at the start is final, and DATA follows it. -/
def PlainStart : List Frame → Prop
  | first :: second :: _ => first.isHeaders → ¬first.isInterim ∧ second.isData
  | _ => True

theorem refusal_plain (hparts : ∀ frame ∈ frames, frame.isPart) (hplain : PlainStart frames) :
    RefusedBy MessagePrefix frames (refusal .sending frames) := by
  match frames with
  | [] => exact refusedBy_nil messagePrefix_nil
  | first :: frames =>
    rw [refusal]
    rcases hparts first (.head _) with h | h
    · rw [nextState_headers h]
      match frames with
      | [] =>
        refine ⟨?_, nofun⟩
        simpa [refusal] using messagePrefix_headers h
      | second :: frames =>
        obtain ⟨hfinal, hdata⟩ := hplain h
        have hrest : ∀ frame ∈ frames, frame.isPart := fun f hf => hparts f (.tail _ (.tail _ hf))
        refine refusedBy_cons (fun _ => messagePrefix_final h hfinal) ?_
        rw [refusal, nextState_data hdata]
        exact refusedBy_cons (fun _ => bodyPrefix_data hdata) (refusal_body hrest)
    · rw [nextState_data h]
      refine refusedBy_first messagePrefix_nil fun _ => not_messagePrefix ?_
      simp [Frame.isHeaders_of_isData h]

variable {first second : Frame}

theorem refusal_headers (hfirst : first.isHeaders) (hsec : second.isHeaders) :
    refusal .sending (first :: second :: frames) = some 1 := by
  rw [refusal, nextState_headers hfirst]
  dsimp only
  rw [refusal, nextState_headers hsec]
  rfl

theorem refusal_interim {n : ℕ} (hfirst : first.isHeaders) (hsec : second.isData)
    (h : refusal .sending (first :: second :: frames) = some n) : 2 ≤ n := by
  rw [refusal, nextState_headers hfirst] at h
  dsimp only at h
  rw [refusal, nextState_data hsec] at h
  obtain ⟨m, hm, rfl⟩ := map_eq_some_iff.mp h
  obtain ⟨k, -, rfl⟩ := map_eq_some_iff.mp hm
  omega

theorem plain_of_refusedBy (hparts : ∀ frame ∈ frames, frame.isPart)
    (h : RefusedBy MessagePrefix frames (refusal .sending frames)) : PlainStart frames := by
  match frames with
  | [] => trivial
  | [_] => trivial
  | first :: second :: frames =>
    intro hfirst
    have hsec := hparts second (.tail _ (.head _))
    by_cases hheaders : second.isHeaders
    · have hoffends := (h.first 1 (refusal_headers hfirst hheaders)).2.2
      refine absurd ?_ hoffends
      change MessagePrefix [first, second]
      by_cases hinterim : first.isInterim
      · exact (messagePrefix_interim hinterim).mpr (messagePrefix_headers hheaders)
      · exact (messagePrefix_final hfirst hinterim).mpr ((bodyPrefix_headers hheaders).mpr rfl)
    · have hdata := hsec.resolve_left hheaders
      refine ⟨fun hinterim => ?_, hdata⟩
      have hleft : ∀ frames, ¬MessagePrefix (first :: second :: frames) := fun frames hall =>
        not_messagePrefix hheaders ((messagePrefix_interim hinterim).mp hall)
      cases hrefusal : refusal .sending (first :: second :: frames) with
      | none => exact hleft frames (h.accepted.mp hrefusal)
      | some n =>
        obtain ⟨m, rfl⟩ := Nat.exists_eq_add_of_le (refusal_interim hfirst hdata hrefusal)
        have hbefore := (h.first _ hrefusal).2.1
        rw [Nat.add_comm, take_succ_cons, take_succ_cons] at hbefore
        exact hleft _ hbefore

end States

/-! ## Runs -/

/-- What happens to the streams while a response arrives: a frame of it is handed to
`send_frame`, or the messages that wait for room in a channel are sent. -/
inductive ResponseEvent where
  | received (frame : Frame) (answer : SendResult)
  | deliver (hash : SetOrder) (channel : ℕ → ℕ → SendResult)

namespace ResponseEvent

def frame? : ResponseEvent → Option Frame
  | .received frame _ => some frame
  | .deliver _ _ => none

def Open (id : ℕ) : ResponseEvent → Prop
  | .received _ answer => answer ≠ .closed
  | .deliver _ channel => ∀ n, channel id n ≠ .closed

end ResponseEvent

/-- The first error of `send_frame`, and how many frames it took before. -/
def firstError (id : ℕ) : Streams → List ResponseEvent → Option (ℕ × DispatchErrorKind)
  | _, [] => none
  | self, .deliver hash channel :: events =>
    firstError id (self.pollBlockedMessage hash channel).1 events
  | self, .received frame answer :: events =>
    match self.sendFrame id frame answer with
    | (_, .error e) => some (0, e)
    | (self, .ok ()) => (firstError id self events).map fun (n, e) => (n + 1, e)

section Runs

open BidirectionalStream H3.Streams

variable {self : Streams} {id : ℕ} {stream : BidirectionalStream} {state : H3StreamState}

theorem state_transmitMessage (message : RespMessage) (answer : SendResult) :
    (stream.transmitMessage message answer).state = stream.state := by
  cases answer <;> rfl

variable {channel : ℕ → SendResult} {frame : Frame}

theorem state_sendPending (hopen : ∀ n, channel n ≠ .closed) (pending : List RespMessage) (n : ℕ) :
    (sendPending channel pending n stream).1.state = stream.state := by
  induction pending generalizing n stream with
  | nil => rfl
  | cons message pending ih =>
    rw [sendPending]
    cases hanswer : channel n with
    | closed => exact absurd hanswer (hopen n)
    | full => rfl
    | sent => exact ih (n + 1)

theorem state_pollBlocked (hopen : ∀ n, channel n ≠ .closed) :
    (stream.pollBlocked channel).1.state = stream.state := by
  rw [pollBlocked]
  split
  · exact state_sendPending hopen _ 0
  · cases hanswer : channel 0 with
    | closed => exact absurd hanswer (hopen 0)
    | full => rfl
    | sent => exact state_sendPending hopen _ 1

def InState (self : Streams) (id : ℕ) (state : H3StreamState) : Prop :=
  ∃ stream, self.stream? id = some stream ∧ stream.state = state

theorem inState_pollBlockedStreams {channel : ℕ → ℕ → SendResult}
    (hopen : ∀ n, channel id n ≠ .closed) (ids newSet : List ℕ) (h : InState self id state) :
    InState (pollBlockedStreams channel ids newSet self).1 id state := by
  induction ids generalizing self newSet with
  | nil => exact h
  | cons id' ids ih =>
    rw [pollBlockedStreams]
    split
    · exact h
    · next other hother =>
        apply ih
        obtain ⟨stream, hstr, hst⟩ := h
        by_cases hid : id' = id
        · subst hid
          cases hother.symm.trans hstr
          exact ⟨_, stream?_setStream_self hstr _, (state_pollBlocked hopen).trans hst⟩
        · exact ⟨stream, (stream?_setStream_of_ne (Ne.symm hid) _).trans hstr, hst⟩

theorem inState_pollBlockedMessage {channel : ℕ → ℕ → SendResult} {hash : SetOrder}
    (hopen : ∀ n, channel id n ≠ .closed) (h : InState self id state) :
    InState (self.pollBlockedMessage hash channel).1 id state := by
  have hloop := inState_pollBlockedStreams hopen (hash.order self.pendingChannel) [] h
  rw [pollBlockedMessage]
  split
  · next heq =>
      rw [heq] at hloop
      exact hloop
  · next heq =>
      rw [heq] at hloop
      exact hloop

variable {answer : SendResult}

theorem sendFrame_refused (h : InState self id state) (hnext : nextState state frame = none) :
    self.sendFrame id frame answer = (self, .error (connectionError .h3FrameUnexpected)) := by
  obtain ⟨stream, hstr, rfl⟩ := h
  rw [sendFrame, hstr]
  dsimp only
  rw [hnext]

variable {next : H3StreamState}

theorem sendFrame_accepted (h : InState self id state) (hnext : nextState state frame = some next)
    (hst : state ≠ .shutdown) (hopen : answer ≠ .closed) :
    ∃ self', self.sendFrame id frame answer = (self', .ok ()) ∧ InState self' id next := by
  obtain ⟨stream, hstr, rfl⟩ := h
  rw [sendFrame, hstr]
  dsimp only
  rw [hnext]
  dsimp only
  rw [if_neg hst]
  split
  · exact ⟨_, rfl, _, stream?_setStream_self hstr _, rfl⟩
  · have hanswer : sendResult answer = .ok () := by
      cases answer with
      | closed => exact absurd rfl hopen
      | _ => rfl
    rw [hanswer]
    have hset := stream?_setStream_self hstr
      ({ stream with state := next }.transmitMessage (.output frame) answer)
    refine ⟨_, rfl, _, (stream?_pendIfFull _ id id answer).trans hset, ?_⟩
    rw [state_transmitMessage]

theorem nextState_ne_shutdown (hst : state ≠ .shutdown)
    (hnext : nextState state frame = some next) : next ≠ .shutdown := by
  rintro rfl
  rw [nextState.eq_def] at hnext
  split at hnext <;> simp_all

theorem firstError_eq {events : List ResponseEvent} (hopen : ∀ e ∈ events, e.Open id)
    (h : InState self id state) (hst : state ≠ .shutdown) :
    firstError id self events =
      (refusal state (events.filterMap ResponseEvent.frame?)).map
        fun n => (n, connectionError .h3FrameUnexpected) := by
  induction events generalizing self state with
  | nil => rfl
  | cons event events ih =>
    have hfirst := hopen event (.head _)
    have hrest : ∀ e ∈ events, e.Open id := fun e he => hopen e (.tail _ he)
    cases event with
    | deliver hash channel =>
      rw [filterMap_cons_none rfl, firstError]
      exact ih hrest (inState_pollBlockedMessage hfirst h) hst
    | received frame answer =>
      have hframes : (ResponseEvent.received frame answer :: events).filterMap
          ResponseEvent.frame? = frame :: events.filterMap ResponseEvent.frame? := rfl
      rw [hframes, firstError, refusal]
      cases hnext : nextState state frame with
      | none => rw [sendFrame_refused h hnext]; rfl
      | some next =>
        obtain ⟨self', hsend, hself'⟩ := sendFrame_accepted h hnext hst hfirst
        rw [hsend]
        dsimp only
        rw [ih hrest hself' (nextState_ne_shutdown hst hnext), Option.map_map, Option.map_map]
        rfl

/-- The answers to the frames of a response are those of the grammar: a frame is refused with
`H3FrameUnexpected`, and exactly at the first that the grammar does not allow. -/
structure AnswersGrammar (frames : List Frame) (error : Option (ℕ × DispatchErrorKind)) : Prop where
  accepted : error = none ↔ MessagePrefix frames
  refused : ∀ n e, error = some (n, e) →
    e = connectionError .h3FrameUnexpected ∧ FirstOffending MessagePrefix frames n

theorem answersGrammar_iff {frames : List Frame} {refused : Option ℕ} :
    AnswersGrammar frames (refused.map fun n => (n, connectionError .h3FrameUnexpected)) ↔
      RefusedBy MessagePrefix frames refused := by
  constructor
  · rintro ⟨haccepted, hrefused⟩
    refine ⟨by simpa using haccepted, fun n hn => ?_⟩
    exact (hrefused n _ (by rw [hn]; rfl)).2
  · rintro ⟨haccepted, hfirst⟩
    refine ⟨by simpa using haccepted, fun n e hne => ?_⟩
    obtain ⟨m, hm, heq⟩ := map_eq_some_iff.mp hne
    obtain ⟨rfl, rfl⟩ := Prod.mk.inj heq
    exact ⟨rfl, hfirst m hm⟩

/-- `send_frame` follows the grammar exactly on responses that begin with final HEADERS and have
a DATA behind them. -/
theorem response_order {events : List ResponseEvent} (hnew : InState self id .sending)
    (hopen : ∀ e ∈ events, e.Open id)
    (hparts : ∀ frame ∈ events.filterMap ResponseEvent.frame?, frame.isPart) :
    AnswersGrammar (events.filterMap ResponseEvent.frame?) (firstError id self events) ↔
      PlainStart (events.filterMap ResponseEvent.frame?) := by
  rw [firstError_eq hopen hnew nofun, answersGrammar_iff]
  exact ⟨plain_of_refusedBy hparts, refusal_plain hparts⟩

def oneRequest : Streams :=
  (H3.Streams.new.newUnidirectionalStream
    { ty := headersFrameType, payload := .headers .new none } { body := none }).1

def statusHeaders (status : Bytes) : Frame :=
  { ty := headersFrameType
    payload := .headers { Parts.new with
      pseudo := { PseudoHeaders.new with status := some status } } none }

theorem response_order_plain :
    PlainStart [statusHeaders (str "200"), { ty := dataFrameType, payload := .data [] }] ∧
    AnswersGrammar [statusHeaders (str "200"), { ty := dataFrameType, payload := .data [] }]
      (firstError 0 oneRequest [.received (statusHeaders (str "200")) .sent,
        .received { ty := dataFrameType, payload := .data [] } .full]) := by
  have hplain : PlainStart [statusHeaders (str "200"),
      { ty := dataFrameType, payload := .data [] }] := fun _ => ⟨by decide, rfl⟩
  refine ⟨hplain, (@response_order oneRequest 0
    [.received (statusHeaders (str "200")) .sent,
      .received { ty := dataFrameType, payload := .data [] } .full] ⟨_, rfl, rfl⟩ ?_ ?_).mpr
    hplain⟩
  · simp [ResponseEvent.Open]
  · simp [ResponseEvent.frame?, Frame.isPart, statusHeaders, Frame.isHeaders, Frame.isData]

/-- An interim response is refused, where the grammar goes on. -/
theorem interim_refused :
    ¬∀ events : List ResponseEvent, (∀ e ∈ events, e.Open 0) →
      (∀ frame ∈ events.filterMap ResponseEvent.frame?, frame.isPart) →
      AnswersGrammar (events.filterMap ResponseEvent.frame?) (firstError 0 oneRequest events) := by
  intro h
  have hinterim := h [.received (statusHeaders (str "103")) .sent,
    .received (statusHeaders (str "200")) .sent] (by simp [ResponseEvent.Open])
    (by simp [ResponseEvent.frame?, Frame.isPart, statusHeaders, Frame.isHeaders])
  have hrefused : firstError 0 oneRequest [.received (statusHeaders (str "103")) .sent,
      .received (statusHeaders (str "200")) .sent] =
      some (1, connectionError .h3FrameUnexpected) := by decide
  refine (hinterim.refused _ _ hrefused).2.2.2 ?_
  change MessagePrefix [statusHeaders (str "103"), statusHeaders (str "200")]
  exact (messagePrefix_interim (by decide)).mpr (messagePrefix_headers rfl)

end Runs

end YlongHttp.H3
