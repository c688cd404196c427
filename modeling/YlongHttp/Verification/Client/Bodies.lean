import YlongHttp.Verification.Client.Reading
import YlongHttp.Verification.Client.Responses

/-! # The bodies of HTTP/2 responses

What the streams of a connection accept, the reader of the body reads to its end, unless the
response ends with its HEADERS. -/

namespace YlongHttp

open List Option

variable {e : StreamFrame} {ended : Bool} {state state' : H2StreamState} {es : List StreamFrame}
  {frames : List Frame}

/-! ## The frames of a body -/

namespace Frame

variable {frame : Frame}

def data? (frame : Frame) : Option Bytes :=
  match frame.payload with
  | .data data => some data
  | _ => none

def piece (frame : Frame) : Piece :=
  { octets := frame.data?.getD [], last := frame.flags.isEndStream }

def received (frame : Frame) : Option StreamFrame :=
  match frame.payload with
  | .headers _ => some (.recvHeaders frame.flags.isEndStream)
  | .data _ => some (.recvData frame.flags.isEndStream)
  | _ => none

theorem payload_of_data? {data : Bytes} (h : frame.data? = some data) :
    frame.payload = .data data := by
  rw [data?] at h
  split at h
  · next hpay =>
      cases h
      exact hpay
  · cases h

theorem data?_of_received {eos : Bool} (h : frame.received = some (.recvData eos)) :
    frame.data?.isSome ∧ frame.piece.last = eos := by
  rw [received] at h
  split at h
  · cases h
  · next hpay =>
      cases h
      rw [data?, hpay]
      exact ⟨rfl, rfl⟩
  · cases h

end Frame

/-! ## The reader -/

namespace Http2

theorem endsFrame_endRead (endStream : Bool) : EndsFrame endStream (endRead endStream) := by
  intro self dataLen
  cases endStream with
  | true => simp [endRead]
  | false =>
    by_cases hzero : dataLen = 0
    · simp [endRead, hzero]
    · simp [endRead, hzero]

theorem lawful_reader :
    reader.Lawful (fun frame => frame.data?.isSome) Frame.piece
      (Holding Frame.data? (·.flags.isEndStream)) where
  start := .idle false
  closed := Holding.isClosed
  pending _ _ := rfl
  idle := by
    intro io ended buf h
    rw [h.eq_idle rfl]
    rfl
  remaining := by
    intro io rest ended buf h hne _
    cases h with
    | idle => exact absurd rfl hne
    | held hdata hdrop hrest =>
      obtain ⟨io', hread, hat⟩ := readData_holding _
        { offset := _, remain := some _, isClosed := false } buf (endsFrame_endRead _) hdata
        hdrop rfl
      refine ⟨io', ?_, hat⟩
      rw [if_neg fun h => hne h.1] at hread
      simp only [reader, readRemainingData, Frame.payload_of_data? hdata, hdrop]
      exact hread
  message := by
    intro io frame buf h hplain _
    obtain ⟨octets, hdata⟩ := isSome_iff_exists.mp hplain
    have hoct : frame.piece.octets = octets := by
      rw [Frame.piece, hdata]
      rfl
    obtain ⟨io', hread, hat⟩ := readData_holding (·.flags.isEndStream)
      { offset := 0, remain := none, isClosed := false } buf
      (endsFrame_endRead frame.flags.isEndStream) hdata (@drop_zero _ octets) rfl
    rw [hoct, h.eq_idle rfl]
    refine ⟨io', ?_, hat⟩
    simp only [reader, matchChannelMessage, Frame.payload_of_data? hdata]
    exact hread

end Http2

/-! ## Accepted responses -/

/-- DATA frames, of which only the last may have END_STREAM. -/
inductive DataFrames : Bool → List StreamFrame → Prop
  | nil (ended : Bool) : DataFrames ended []
  | cons {eos : Bool} {es : List StreamFrame} (rest : DataFrames eos es) :
      DataFrames false (.recvData eos :: es)

def H2StreamState.receiving (ended : Bool) : H2StreamState → Bool
  | .open _ .waitData | .localHalfClosed .waitData => !ended
  | .remoteHalfClosed _ | .closed _ => ended
  | _ => false

theorem StreamFrame.move_receiving (h : state.receiving ended = true)
    (hmove : e.move state = some state') :
    (e.isReceived = false ∧ state'.receiving ended = true) ∨
      (ended = false ∧ ∃ eos, e = .recvData eos ∧ state'.receiving eos = true) := by
  rcases e with eos | eos | eos | eos <;>
    rcases state with _ | ⟨_ | _, _ | _⟩ | _ | (_ | _) | (_ | _) | _ <;>
    cases eos <;> simp_all [move, H2StreamState.receiving, isReceived] <;> subst hmove <;>
    simp_all

theorem StreamFrame.move_awaiting_headers (h : state.awaiting = true)
    (hmove : e.move state = some state') :
    (e.isReceived = false ∧ state'.awaiting = true) ∨
      ∃ eos, e = .recvHeaders eos ∧ state'.receiving eos = true := by
  rcases e with eos | eos | eos | eos <;>
    rcases state with _ | ⟨_ | _, _ | _⟩ | _ | (_ | _) | (_ | _) | _ <;>
    cases eos <;>
    simp_all [move, H2StreamState.awaiting, H2StreamState.receiving, isReceived] <;>
    subst hmove <;> simp_all

theorem dataFrames_of_moves (h : state.receiving ended = true)
    (hmoves : moves es state = some state') : DataFrames ended (es.filter (·.isReceived)) := by
  induction es generalizing state ended with
  | nil => exact .nil ended
  | cons e es ih =>
    obtain ⟨state₁, hmove, hrest⟩ := bind_eq_some_iff.mp hmoves
    obtain ⟨hsent, hst⟩ | ⟨rfl, eos, rfl, hst⟩ := StreamFrame.move_receiving h hmove
    · rw [filter_cons_of_neg (by simp [hsent])]
      exact ih hst hrest
    · exact .cons (ih hst hrest)

theorem headers_of_moves (h : state.awaiting = true) (hmoves : moves es state = some state') :
    es.filter (·.isReceived) = [] ∨
      ∃ eos rest, es.filter (·.isReceived) = .recvHeaders eos :: rest ∧ DataFrames eos rest := by
  induction es generalizing state with
  | nil => exact .inl rfl
  | cons e es ih =>
    obtain ⟨state₁, hmove, hrest⟩ := bind_eq_some_iff.mp hmoves
    obtain ⟨hsent, hst⟩ | ⟨eos, rfl, hst⟩ := StreamFrame.move_awaiting_headers h hmove
    · rw [filter_cons_of_neg (by simp [hsent])]
      exact ih hst hrest
    · exact .inr ⟨eos, _, rfl, dataFrames_of_moves hst hrest⟩

/-- The stream `id` accepts the frames, one after another, in between with frames of the request
that it sends. -/
def Accepted (id : StreamId) (s : Streams) (frames : List Frame) : Prop :=
  ∃ es : List StreamFrame, frames.map Frame.received = (es.filter (·.isReceived)).map some ∧
    (exchange id es s).isSome

theorem DataFrames.pieces (h : DataFrames ended es)
    (hframes : frames.map Frame.received = es.map some) :
    OneEnd ended (frames.map Frame.piece) ∧ ∀ frame ∈ frames, frame.data?.isSome := by
  induction h generalizing frames with
  | nil ended =>
    rw [map_nil, map_eq_nil_iff] at hframes
    subst hframes
    exact ⟨.nil ended, by simp⟩
  | cons rest ih =>
    rw [map_cons, map_eq_cons_iff] at hframes
    obtain ⟨frame, frames, rfl, hrecv, hframes⟩ := hframes
    obtain ⟨hdata, hlast⟩ := Frame.data?_of_received hrecv
    obtain ⟨hone, hall⟩ := ih hframes
    refine ⟨.cons (hlast ▸ hone), ?_⟩
    intro frame' hmem
    rcases mem_cons.mp hmem with rfl | hmem
    · exact hdata
    · exact hall frame' hmem

theorem Accepted.pieces {id : StreamId} {s : Streams} {whole : Bool} {head : Frame}
    (h : Accepted id s (head :: frames)) (hs : Requested s id whole) :
    OneEnd head.flags.isEndStream (frames.map Frame.piece) ∧
      ∀ frame ∈ frames, frame.data?.isSome := by
  obtain ⟨es, hframes, haccepted⟩ := h
  have hmoves := exchange_eq_moves es hs.known hs.state fun _ => hs.counted
  obtain ⟨s', hs'⟩ := isSome_iff_exists.mp haccepted
  rw [hs', map_some] at hmoves
  obtain ⟨state', hmoves, -⟩ := map_eq_some_iff.mp hmoves.symm
  obtain hnil | ⟨eos, rest, hrecv, hrest⟩ := headers_of_moves (by cases whole <;> rfl) hmoves
  · rw [hnil] at hframes
    cases hframes
  · rw [hrecv, map_cons, map_cons, cons.injEq] at hframes
    have heos : head.flags.isEndStream = eos := by
      have hhead := hframes.1
      rw [Frame.received] at hhead
      split at hhead <;> simp_all
    rw [heos]
    exact hrest.pieces hframes.2

/-! ## Bodies -/

/-- The body of an accepted response is read exactly if and only if END_STREAM is not on its
HEADERS. -/
theorem response_read_exactly {s : Streams} {id : StreamId} {whole : Bool}
    (hs : Requested s id whole) {head : Frame} {frames : List Frame}
    (haccepted : Accepted id s (head :: frames)) :
    ReadExactly Http2.reader Frame.piece head.flags.isEndStream frames ↔
      head.flags.isEndStream = false := by
  obtain ⟨hone, hplain⟩ := haccepted.pieces hs
  constructor
  · intro h
    by_contra hended
    have hended : head.flags.isEndStream = true := by simpa using hended
    rw [hended] at hone h
    have hnil := map_eq_nil_iff.mp hone.eq_nil
    subst hnil
    -- the channel has nothing, and is asked
    obtain ⟨⟨hres, -⟩, -⟩ := h.after [] (.start []) (by simp [Open]) rfl .refl (.inl rfl)
      rfl .none 1 Nat.one_pos
    cases hres
  · intro hended
    rw [hended] at hone ⊢
    exact Http2.lawful_reader.readExactly hplain hone

/-- HEADERS, and DATA frames of which one is empty and the last has END_STREAM. -/
theorem data_read_exactly :
    Accepted 1 (oneStream (.localHalfClosed .waitHeaders))
        [⟨1, ⟨0x4⟩, .headers .new⟩, ⟨1, ⟨0x0⟩, .data [1, 2]⟩, ⟨1, ⟨0x0⟩, .data []⟩,
          ⟨1, ⟨0x1⟩, .data [3]⟩] ∧
      ReadExactly Http2.reader Frame.piece false
        [⟨1, ⟨0x0⟩, .data [1, 2]⟩, ⟨1, ⟨0x0⟩, .data []⟩, ⟨1, ⟨0x1⟩, .data [3]⟩] := by
  have haccepted : Accepted 1 (oneStream (.localHalfClosed .waitHeaders))
      [⟨1, ⟨0x4⟩, .headers .new⟩, ⟨1, ⟨0x0⟩, .data [1, 2]⟩, ⟨1, ⟨0x0⟩, .data []⟩,
        ⟨1, ⟨0x1⟩, .data [3]⟩] :=
    ⟨[.recvHeaders false, .recvData false, .recvData false, .recvData true], by decide, by decide⟩
  have hrequested : Requested (oneStream (.localHalfClosed .waitHeaders)) 1 true :=
    ⟨by decide, by decide, by decide⟩
  exact ⟨haccepted, (response_read_exactly hrequested haccepted).mpr rfl⟩

/-- A response that ends with its HEADERS. -/
theorem headers_only_waits :
    Requested (oneStream (.localHalfClosed .waitHeaders)) 1 true ∧
      Accepted 1 (oneStream (.localHalfClosed .waitHeaders)) [⟨1, ⟨0x5⟩, .headers .new⟩] ∧
      ¬ReadExactly Http2.reader Frame.piece true [] := by
  refine ⟨⟨by decide, by decide, by decide⟩, ⟨[.recvHeaders true], by decide, by decide⟩, ?_⟩
  intro h
  obtain ⟨⟨hres, -⟩, -⟩ := h.after [] (.start []) (by simp [Open]) rfl .refl (.inl rfl)
    rfl .none 1 Nat.one_pos
  cases hres

end YlongHttp
