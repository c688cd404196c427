import YlongHttp.Verification.H3.Delivery
import YlongHttp.Verification.H3.View

/-! # A stream that was shut down sends nothing more

As long as its encoding is done, a turn of the stream manager leaves it alone. -/

namespace YlongHttp.H3

open Library

namespace StreamManager

variable {i fuel q : ℕ} {stream : BidirectionalStream} {log : List Sent} {quic : Quic}

/-- The request stream `i` is left as it is, and so is what was sent on it. -/
structure Leaves (i q : ℕ) (stream : BidirectionalStream) (log : List Sent)
    (m : StreamManager) : Prop where
  stream : m.streams.stream? i = some stream
  log : m.sent.filter (·.id = i) = log
  opened : Opened q m

theorem kept_leaves (hq : q ≠ i) : Kept (Leaves i q stream log) (· ≠ i) := by
  have hview : Leaves i q stream log = fun m => Opened q m ∧
      ((m.view i q).stream = some stream ∧ (m.view i q).log = log) := by
    funext m
    exact propext ⟨fun h => ⟨h.opened, h.stream, h.log⟩, fun h => ⟨h.2.1, h.2.2, h.1⟩⟩
  rw [hview]
  exact kept_view hq fun v _ _ => v.stream = some stream ∧ v.log = log

/-! ## The stream itself -/

/-- Shut down, with its header taken and no frame half sent. -/
structure Silent (stream : BidirectionalStream) : Prop where
  state : stream.state = .shutdown
  header : stream.header = none
  encoding : stream.encoding = false

theorem triple_getHeader (hsilent : Silent stream) :
    Triple (Leaves i q stream log) (onStreams (·.getHeader i))
      (fun header m => header = none ∧ Leaves i q stream log m) (fun _ => Leaves i q stream log) := by
  intro m hm
  rw [onStreams, Streams.getHeader, hm.stream]
  dsimp only
  have hsame : { stream with header := none } = stream := by rw [← hsilent.header]
  rw [hsame]
  exact ⟨hsilent.header, Streams.stream?_setStream_self hm.stream stream, hm.log, hm.opened⟩

theorem triple_isEncoding (hsilent : Silent stream) :
    Triple (Leaves i q stream log) (isEncoding i)
      (fun encoding m => encoding = false ∧ Leaves i q stream log m) (fun _ => Leaves i q stream log) := by
  intro m hm
  rw [isEncoding, onStreams, Streams.encoding, hm.stream]
  exact ⟨hsilent.encoding, hm⟩

theorem triple_pollReadBody (hq : q ≠ i) (hsilent : Silent stream) :
    Triple (Leaves i q stream log) (pollReadBody quic i)
      (fun state m => state = .closed ∧ Leaves i q stream log m) (fun _ => Leaves i q stream log) := by
  refine Triple.bind ((kept_leaves hq).ask _) fun answer => ?_
  split
  · exact Triple.throw _ fun _ hm => hm
  · refine @Triple.bind _ _ _ _ _ (fun _ => Leaves i q stream log) _ _ _ _
      (fun m hm => ⟨hm.stream, hm.log, hm.opened⟩) fun _ => ?_
    intro m hm
    rw [onStreams, Streams.pollSizedData, hm.stream]
    dsimp only
    rw [if_pos hsilent.state]
    exact ⟨rfl, hm⟩

theorem keeps_inputStreamFrame (hq : q ≠ i) (hsilent : Silent stream) :
    Keeps (Leaves i q stream log) (inputStreamFrame quic fuel i) := by
  refine Triple.bind (triple_getHeader hsilent) fun header => ?_
  intro m hm
  obtain ⟨rfl, hm⟩ := hm
  have hresume : Keeps (Leaves i q stream log) (resumeFrame quic fuel i) := by
    refine Triple.bind (triple_isEncoding hsilent) fun encoding => ?_
    intro m hm
    obtain ⟨rfl, hm⟩ := hm
    exact hm
  have hread : Keeps (Leaves i q stream log) (readLoop quic fuel i fuel) := by
    cases fuel with
    | zero => exact .throw _
    | succ fuel =>
      refine Triple.bind (triple_pollReadBody hq hsilent) fun state => ?_
      intro m hm
      obtain ⟨rfl, hm⟩ := hm
      exact hm
  refine Keeps.bind (.pure _) (fun _ => .bind hresume fun _ => ?_) m hm
  exact .ite hread (.pure _)

theorem keeps_pollInputRequest (hq : q ≠ i) (hsilent : Silent stream) :
    Keeps (Leaves i q stream log) (pollInputRequest quic fuel) := by
  refine (kept_leaves hq).pollInputRequest fun id hid => ?_
  obtain rfl := not_not.mp hid
  exact keeps_inputStreamFrame hq hsilent

end StreamManager

end YlongHttp.H3
