import YlongHttp.Verification.Client.Calls

/-! # Responses a stream accepts

A request and its response run in both directions at once. Whether the frames of one stream are
accepted depends on the state of that stream alone. -/

namespace YlongHttp

open List Option
open Library

variable {s : Streams} {id : StreamId} {state state' : H2StreamState} {e : StreamFrame}
  {es : List StreamFrame} {sent : List Bool}

/-! ## Responses -/

def StreamFrame.sentData : StreamFrame → Option Bool
  | .sendData eos => some eos
  | _ => none

/-- A response of RFC 9113 section 8.1: interim HEADERS, the final HEADERS, DATA frames, and
HEADERS with trailers. -/
structure Response where
  interim : ℕ
  content : ℕ
  trailers : Bool

def contentFrames (trailers : Bool) : ℕ → List StreamFrame
  | 0 => if trailers then [.recvHeaders true] else []
  | n + 1 => .recvData (n = 0 && !trailers) :: contentFrames trailers n

def Response.frames (r : Response) : List StreamFrame :=
  List.replicate r.interim (.recvHeaders false) ++
    .recvHeaders (r.content = 0 && !r.trailers) :: contentFrames r.trailers r.content

def requestFlags (data : ℕ) (finished : Bool) : List Bool :=
  List.replicate data false ++ if finished then [true] else []

/-- The rest of a request in any interleaving with its response. -/
structure Interleaving (response : Response) (data : ℕ) (finished : Bool)
    (es : List StreamFrame) : Prop where
  received : es.filter (·.isReceived) = response.frames
  sent : es.filterMap (·.sentData) = requestFlags data finished
  headers : ∀ eos, .sendHeaders eos ∉ es

def exchange (id : StreamId) : List StreamFrame → Streams → Option Streams
  | [], s => some s
  | e :: es, s =>
    match e.call id s with
    | .ok (s', .ok) => exchange id es s'
    | _ => none

/-- A stream whose request has been sent, in part or as a whole, and whose response has not
begun. It is one of the concurrent streams. -/
structure Requested (s : Streams) (id : StreamId) (whole : Bool) : Prop where
  known : id ≤ s.maxRecvId
  counted : 0 < s.currentConcurrentStreams
  state : s.streamState id =
    some (if whole then .localHalfClosed .waitHeaders else .open .waitData .waitHeaders)

/-! ## Moves -/

def moves : List StreamFrame → H2StreamState → Option H2StreamState
  | [], state => some state
  | e :: es, state => (e.move state).bind (moves es)

theorem Streams.streamState_moved {stream : Stream} (state : H2StreamState)
    (hget : s.streamMap.lookup id = some stream) :
    (s.moved id stream state).streamState id = some state := by
  change ((s.setStream id _).streamMap.lookup id).map Stream.state = _
  simp [hget]

theorem exchange_eq_moves (es : List StreamFrame) (hid : id ≤ s.maxRecvId)
    (hst : s.streamState id = some state)
    (hcnt : state.isClosed = false → 0 < s.currentConcurrentStreams) :
    (exchange id es s).map (·.streamState id) = (moves es state).map some := by
  induction es generalizing s state with
  | nil => simpa [exchange, moves] using hst
  | cons e es ih =>
    have hmax : ¬ s.maxRecvId < id := UInt32.not_lt.mpr hid
    obtain ⟨stream, hget, rfl⟩ := map_eq_some_iff.mp hst
    rw [exchange, moves, e.call_eq (fun _ => hmax) hget]
    cases hmove : e.move stream.state with
    | none =>
      have hne := e.refusal_ne_ok stream.state
      simp only [bind_none, map_none]
      split
      · simp_all
      · rfl
    | some state' =>
      have hopen : stream.state.isClosed = false := by
        by_contra hclosed
        rw [e.move_closed (by simpa using hclosed)] at hmove
        cases hmove
      have hcnt := hcnt hopen
      have hbecome : s.become id stream state' = .ok (s.moved id stream state') := by
        rw [Streams.become_eq, if_neg (by omega)]
      simp only [hbecome, Except.map, bind_some]
      refine ih hid (Streams.streamState_moved state' hget) fun h => ?_
      simpa [Streams.moved, h] using hcnt

/-! ## At most one HEADERS frame is accepted -/

def H2StreamState.responding : H2StreamState → Bool
  | .open _ .waitData | .localHalfClosed .waitData | .remoteHalfClosed _ | .closed _ => true
  | _ => false

def H2StreamState.awaiting : H2StreamState → Bool
  | .open .waitData .waitHeaders | .localHalfClosed .waitHeaders => true
  | _ => false

def StreamFrame.isRecvHeaders : StreamFrame → Bool
  | .recvHeaders _ => true
  | _ => false

theorem StreamFrame.move_responding (h : state.responding = true)
    (hmove : e.move state = some state') : e.isRecvHeaders = false ∧ state'.responding = true := by
  rcases e with eos | eos | eos | eos <;>
    rcases state with _ | ⟨_ | _, _ | _⟩ | _ | (_ | _) | (_ | _) | _ <;>
    cases eos <;> simp_all [move, H2StreamState.responding, isRecvHeaders] <;>
    subst hmove <;> rfl

theorem StreamFrame.move_awaiting (h : state.awaiting = true) (hmove : e.move state = some state') :
    (e.isRecvHeaders = true ∧ state'.responding = true) ∨
      (e.isRecvHeaders = false ∧ state'.awaiting = true) := by
  rcases e with eos | eos | eos | eos <;>
    rcases state with _ | ⟨_ | _, _ | _⟩ | _ | (_ | _) | (_ | _) | _ <;>
    cases eos <;>
    simp_all [move, H2StreamState.awaiting, isRecvHeaders] <;> subst hmove <;> rfl

theorem countP_of_responding (h : state.responding = true) (hmoves : moves es state = some state') :
    es.countP (·.isRecvHeaders) = 0 := by
  induction es generalizing state with
  | nil => rfl
  | cons e es ih =>
    obtain ⟨state₁, hmove, hmoves⟩ := bind_eq_some_iff.mp hmoves
    obtain ⟨hnot, hresponding⟩ := StreamFrame.move_responding h hmove
    rw [countP_cons, ih hresponding hmoves, hnot]
    rfl

theorem countP_of_awaiting (h : state.awaiting = true) (hmoves : moves es state = some state') :
    es.countP (·.isRecvHeaders) ≤ 1 := by
  induction es generalizing state with
  | nil => simp
  | cons e es ih =>
    obtain ⟨state₁, hmove, hmoves⟩ := bind_eq_some_iff.mp hmoves
    rw [countP_cons]
    obtain ⟨hheaders, hresponding⟩ | ⟨hnot, hawaiting⟩ := StreamFrame.move_awaiting h hmove
    · rw [countP_of_responding hresponding hmoves, hheaders]
      simp
    · have hle := ih hawaiting hmoves
      rw [hnot]
      simpa using hle

theorem countP_contentFrames (trailers : Bool) (n : ℕ) :
    (contentFrames trailers n).countP (·.isRecvHeaders) = trailers.toNat := by
  induction n with
  | zero => cases trailers <;> rfl
  | succ n ih => rw [contentFrames, countP_cons, ih]; rfl

theorem Response.countP_frames (r : Response) :
    r.frames.countP (·.isRecvHeaders) = r.interim + 1 + r.trailers.toNat := by
  rw [frames, countP_append, countP_cons, countP_contentFrames, countP_replicate]
  simp only [StreamFrame.isRecvHeaders, if_true]
  omega

theorem Interleaving.countP {response : Response} {data : ℕ} {finished : Bool}
    (h : Interleaving response data finished es) :
    es.countP (·.isRecvHeaders) = response.interim + 1 + response.trailers.toNat := by
  rw [← response.countP_frames, ← h.received, countP_filter]
  congr 1
  funext e
  cases e <;> rfl

/-! ## Plain responses are accepted -/

/-- What is left of a response without interim and trailing HEADERS and of the request, whose
end is to be sent where `ends` says so, in each state of the stream. -/
inductive Remaining (ends : Bool) : H2StreamState → List StreamFrame → List Bool → Prop where
  | awaiting (n k : ℕ) :
      Remaining ends (.open .waitData .waitHeaders)
        (.recvHeaders (n = 0 && !false) :: contentFrames false n) (requestFlags k ends)
  | awaitingSent (n : ℕ) : ends = true →
      Remaining ends (.localHalfClosed .waitHeaders)
        (.recvHeaders (n = 0 && !false) :: contentFrames false n) []
  | content (n k : ℕ) :
      Remaining ends (.open .waitData .waitData) (contentFrames false (n + 1))
        (requestFlags k ends)
  | contentSent (n : ℕ) : ends = true →
      Remaining ends (.localHalfClosed .waitData) (contentFrames false (n + 1)) []
  | responded (k : ℕ) : Remaining ends (.remoteHalfClosed .waitData) [] (requestFlags k ends)
  | done : ends = true → Remaining ends (.closed .endStream) [] []

theorem Remaining.receive (h : Remaining ends state (e :: recv) sent) :
    ∃ state', e.move state = some state' ∧ Remaining ends state' recv sent := by
  cases h with
  | awaiting n k =>
    cases n with
    | zero => exact ⟨_, rfl, .responded k⟩
    | succ n => exact ⟨_, rfl, .content n k⟩
  | awaitingSent n hends =>
    cases n with
    | zero => exact ⟨_, rfl, .done hends⟩
    | succ n => exact ⟨_, rfl, .contentSent n hends⟩
  | content n k =>
    cases n with
    | zero => exact ⟨_, rfl, .responded k⟩
    | succ n => exact ⟨_, rfl, .content n k⟩
  | contentSent n hends =>
    cases n with
    | zero => exact ⟨_, rfl, .done hends⟩
    | succ n => exact ⟨_, rfl, .contentSent n hends⟩

theorem requestFlags_eq_cons {k : ℕ} {eos : Bool} (h : requestFlags k ends = eos :: sent) :
    (eos = false ∧ ∃ k', sent = requestFlags k' ends) ∨ (eos = true ∧ ends = true ∧ sent = []) := by
  cases k with
  | zero => cases ends <;> simp_all [requestFlags]
  | succ k =>
    simp only [requestFlags, replicate_succ, cons_append, cons.injEq] at h
    exact .inl ⟨h.1.symm, k, h.2.symm⟩

theorem Remaining.send {eos : Bool} (h : Remaining ends state recv (eos :: sent)) :
    ∃ state', (StreamFrame.sendData eos).move state = some state' ∧
      Remaining ends state' recv sent := by
  generalize hflags : eos :: sent = flags at h
  cases h with
  | awaiting n k =>
    obtain ⟨rfl, k', rfl⟩ | ⟨rfl, rfl, rfl⟩ := requestFlags_eq_cons hflags.symm
    · exact ⟨_, rfl, .awaiting n k'⟩
    · exact ⟨_, rfl, .awaitingSent n rfl⟩
  | content n k =>
    obtain ⟨rfl, k', rfl⟩ | ⟨rfl, rfl, rfl⟩ := requestFlags_eq_cons hflags.symm
    · exact ⟨_, rfl, .content n k'⟩
    · exact ⟨_, rfl, .contentSent n rfl⟩
  | responded k =>
    obtain ⟨rfl, k', rfl⟩ | ⟨rfl, rfl, rfl⟩ := requestFlags_eq_cons hflags.symm
    · exact ⟨_, rfl, .responded k'⟩
    · exact ⟨_, rfl, .done rfl⟩
  | awaitingSent n hends => cases hflags
  | contentSent n hends => cases hflags
  | done hends => cases hflags

theorem Remaining.moves
    (h : Remaining ends state (es.filter (·.isReceived)) (es.filterMap (·.sentData)))
    (hheaders : ∀ eos, .sendHeaders eos ∉ es) :
    ∃ state', moves es state = some state' ∧ (ends = true → state' = .closed .endStream) := by
  induction es generalizing state with
  | nil =>
    refine ⟨state, rfl, fun hends => ?_⟩
    subst hends
    generalize hsent : filterMap _ _ = sent at h
    cases h with
    | responded k => cases k <;> cases hsent
    | done => rfl
  | cons e es ih =>
    have hrest : ∀ eos, .sendHeaders eos ∉ es := fun eos he => hheaders eos (.tail e he)
    obtain ⟨state₁, hmove, h₁⟩ : ∃ state₁, e.move state = some state₁ ∧
        Remaining ends state₁ (es.filter (·.isReceived)) (es.filterMap (·.sentData)) := by
      cases e with
      | recvHeaders eos | recvData eos => exact h.receive
      | sendHeaders eos => exact absurd (.head _) (hheaders eos)
      | sendData eos => exact h.send
    obtain ⟨state', hmoves, hend⟩ := ih h₁ hrest
    exact ⟨state', by rw [YlongHttp.moves, hmove]; exact hmoves, hend⟩

/-! ## Accepted responses -/

/-- A response is accepted, with every frame of it, in any interleaving with the rest of the
request, exactly when it has no interim and no trailing HEADERS; the stream is then closed once
the request has ended too. -/
theorem response_accepted_iff {s : Streams} {id : StreamId} {whole : Bool}
    (h : Requested s id whole) {response : Response} {data : ℕ} {finished : Bool}
    {es : List StreamFrame} (hes : Interleaving response data finished es)
    (hwhole : whole = true → requestFlags data finished = []) :
    (∃ s', exchange id es s = some s' ∧
        (whole = true ∨ finished = true → s'.streamState id = some (.closed .endStream))) ↔
      response.interim = 0 ∧ response.trailers = false := by
  obtain ⟨known, counted, state⟩ := h
  have hmoves := exchange_eq_moves es known state fun _ => counted
  constructor
  · rintro ⟨s', hs', -⟩
    rw [hs', map_some] at hmoves
    obtain ⟨state', hmoves, -⟩ := map_eq_some_iff.mp hmoves.symm
    have hle := countP_of_awaiting (by cases whole <;> rfl) hmoves
    rw [hes.countP] at hle
    cases htrailers : response.trailers <;> simp_all
  · rintro ⟨hinterim, htrailers⟩
    have hframes : response.frames =
        .recvHeaders (response.content = 0 && !false) :: contentFrames false response.content := by
      rw [Response.frames, hinterim, htrailers]
      rfl
    have hrem : Remaining (whole || finished)
        (if whole then .localHalfClosed .waitHeaders else .open .waitData .waitHeaders)
        (es.filter (·.isReceived)) (es.filterMap (·.sentData)) := by
      rw [hes.received, hes.sent, hframes]
      cases whole with
      | true =>
        rw [hwhole rfl]
        exact .awaitingSent _ rfl
      | false => exact .awaiting _ data
    obtain ⟨state', hmoves', hends⟩ := hrem.moves hes.headers
    rw [hmoves', map_some] at hmoves
    obtain ⟨s', hs', hst'⟩ := map_eq_some_iff.mp hmoves
    refine ⟨s', hs', fun hend => ?_⟩
    rw [hst', hends (by simpa using hend)]

/-- One concurrent stream, with id 1, in the state `state`. -/
def oneStream (state : H2StreamState) : Streams :=
  { Streams.new 65535 65535 (.new 65535 65535) with
    currentConcurrentStreams := 1
    streamMap := AList.singleton 1
      { recvWindow := .new (asI32 65535), sendWindow := .new (asI32 65535), state, header := none
        data := { body := none } } }

theorem response_accepted_with_content :
    ∃ s', exchange 1 [.recvHeaders false, .sendData true, .recvData true]
        (oneStream (.open .waitData .waitHeaders)) = some s' ∧
      s'.streamState 1 = some (.closed .endStream) := by
  have hrequested : Requested (oneStream (.open .waitData .waitHeaders)) 1 false :=
    ⟨by decide, by decide, by decide⟩
  have hinterleaving : Interleaving { interim := 0, content := 1, trailers := false } 0 true
      [.recvHeaders false, .sendData true, .recvData true] :=
    ⟨by decide, by decide, by decide⟩
  obtain ⟨s', hs', hclosed⟩ :=
    (response_accepted_iff hrequested hinterleaving (by decide)).mpr ⟨rfl, rfl⟩
  exact ⟨s', hs', hclosed (.inr rfl)⟩

/-- A 103 response ahead of the final one is refused. -/
theorem response_interim_refused :
    Requested (oneStream (.localHalfClosed .waitHeaders)) 1 true ∧
      Interleaving { interim := 1, content := 0, trailers := false } 0 false
        [.recvHeaders false, .recvHeaders true] ∧
      exchange 1 [.recvHeaders false, .recvHeaders true]
        (oneStream (.localHalfClosed .waitHeaders)) = none := by
  refine ⟨⟨by decide, by decide, by decide⟩, ⟨by decide, by decide, by decide⟩, ?_⟩
  decide

end YlongHttp
