import YlongHttp.Library.Triple
import YlongHttp.Model.H3.Manager

/-! # What a turn of the HTTP/3 stream manager keeps

A property that each call of a part keeps is kept by a turn that touches the streams one after
another. -/

namespace YlongHttp.H3

open Library

namespace StreamManager

variable {P : StreamManager → Prop} {may : ℕ → Prop} {id fuel : ℕ} {quic : Quic}

/-- The property is kept by what a turn does to the streams that it may touch. -/
structure Kept (P : StreamManager → Prop) (may : ℕ → Prop) : Prop where
  setFrame : ∀ {m : StreamManager} {id : ℕ} (frame : Frame), may id → P m →
    P { m with encoder := (m.encoder.setFrame id frame).1 }
  encode : ∀ {m : StreamManager} {id : ℕ}, may id → P m → P { m with
    encoder := (m.encoder.encode id decodeBufSize decodeBufSize).1
    produced := m.produced ++ ((m.encoder.produces id).map fun r => (id, r)).toList }
  asked : ∀ {m : StreamManager} (asked : ℕ), P m → P { m with asked }
  sent : ∀ {m : StreamManager} {request id : ℕ} (octets : Bytes) (fin : Bool), may request →
    may id → P m → P { m with sent := m.sent ++ [{ request, id, octets, fin }] }
  resumed : ∀ {m : StreamManager} {id : ℕ} (encoder : FrameEncoder), may id → P m →
    P { m with resumed := m.resumed ++ [(id, encoder)] }
  read : ∀ {m : StreamManager} {id : ℕ} (len : ℕ) (body : Option BodyDataRef), may id → P m →
    P { m with reads := m.reads ++ [(id, len, body)] }
  getHeader : ∀ {m : StreamManager} {id : ℕ}, may id → P m →
    P { m with streams := (m.streams.getHeader id).1 }
  setEncoding : ∀ {m : StreamManager} {id : ℕ} (encoding : Bool), may id → P m →
    P { m with streams := (m.streams.setEncoding id encoding).1 }
  readBody : ∀ {m : StreamManager} {id : ℕ} (len : ℕ), may id → P m →
    P { m with streams := (m.streams.pollSizedData id len).1 }
  sendLater : ∀ {m : StreamManager} (id : ℕ), P m →
    P { m with streams := m.streams.pushBackPendingSend id }
  next : ∀ {m : StreamManager}, P m → P { m with streams := m.streams.nextStream.1 }
  admission : ∀ {m : StreamManager}, P m →
    P { m with streams := m.streams.tryConsumePendingConcurrency }
  qpack : Triple P qpackEncodeStreamId (fun id m => may id ∧ P m) fun _ => P

/-! ## Calls of the parts -/

theorem keeps_onStreams {α : Type} {f : Streams → Streams × Except DispatchErrorKind α}
    (hf : ∀ m : StreamManager, P m → P { m with streams := (f m.streams).1 }) :
    Keeps P (onStreams f) := by
  intro m hm
  have hsame := hf m hm
  rw [onStreams]
  rcases hres : f m.streams with ⟨streams, result⟩
  rw [hres] at hsame
  cases result <;> exact hsame

theorem keeps_onEncoder {α : Type} {f : FrameEncoder → FrameEncoder × Except (Fault H3Error) α}
    (hf : ∀ m : StreamManager, P m → P { m with encoder := (f m.encoder).1 }) :
    Keeps P (onEncoder f) := by
  intro m hm
  have hsame := hf m hm
  rw [onEncoder]
  rcases hres : f m.encoder with ⟨encoder, (⟨_ | _⟩ | _)⟩ <;> rw [hres] at hsame <;>
    exact hsame

theorem encodeFrame_eq (m : StreamManager) : encodeFrame id m =
    match m.encoder.encode id decodeBufSize decodeBufSize with
    | (encoder, result) =>
      let m' := { m with
        encoder
        produced := m.produced ++ ((m.encoder.produces id).map fun r => (id, r)).toList }
      match result with
      | .ok written => .ok written m'
      | .error (.error e) => .error (.error (.h3 e)) m'
      | .error .panic => .error .panic m' := by
  change onEncoder (·.encode id decodeBufSize decodeBufSize) _ = _
  rw [onEncoder]
  rcases m.encoder.encode id decodeBufSize decodeBufSize with ⟨encoder, (⟨_ | _⟩ | _)⟩ <;> rfl

theorem keeps_orQuic {α : Type} {result : Except QuicError α} : Keeps P (orQuic result) := by
  cases result with
  | ok a => exact .pure a
  | error e => exact .throw _

variable {request : ℕ} {octets : Bytes}

theorem keeps_streamSend {fin : Bool}
    (hasked : ∀ {m : StreamManager} (asked : ℕ), P m → P { m with asked })
    (hsent : ∀ {m : StreamManager}, P m → P { m with sent := m.sent ++ [{ request, id, octets, fin }] }) :
    Keeps P (streamSend quic request id octets fin) :=
  .bind (fun _ hm => hasked _ hm) fun _ => .bind keeps_orQuic fun _ _ hm => hsent hm

theorem keeps_unlessStopped {p : ManagerM Unit} (hp : Keeps P p) : Keeps P (unlessStopped p) := by
  refine .tryCatch (.bind hp fun _ => .pure _) fun e => ?_
  split
  · exact .pure _
  · exact .throw _

namespace Kept

theorem ask {α : Type} (h : Kept P may) (answer : ℕ → α) : Keeps P (StreamManager.ask answer) :=
  fun _ hm => h.asked _ hm

theorem streamWritable (h : Kept P may) : Keeps P (streamWritable quic) :=
  .bind (h.ask _) fun _ => keeps_orQuic

theorem streamSend {fin : Bool} (h : Kept P may) (hreq : may request) (hid : may id) :
    Keeps P (streamSend quic request id octets fin) :=
  keeps_streamSend (fun asked => h.asked asked) fun hm => h.sent octets fin hreq hid hm

theorem sendSome (h : Kept P may) (hreq : may request) (hid : may id) :
    Keeps P (sendSome quic request id octets) :=
  .ite (.pure _) (h.streamSend hreq hid)

variable {frame : Frame}

theorem putFrame (h : Kept P may) (hid : may id) : Keeps P (StreamManager.setFrame id frame) := by
  refine keeps_onEncoder fun m hm => ?_
  have hframe := h.setFrame frame hid hm
  rcases hres : m.encoder.setFrame id frame with ⟨encoder, result⟩
  rw [hres] at hframe
  exact hframe

theorem encodeFrame (h : Kept P may) (hid : may id) : Keeps P (encodeFrame id) := by
  intro m hm
  have henc := h.encode hid hm
  rw [encodeFrame_eq]
  rcases hres : m.encoder.encode id decodeBufSize decodeBufSize with ⟨encoder, (⟨_ | _⟩ | _)⟩ <;>
    rw [hres] at henc <;> exact henc

theorem isEncoding (_ : Kept P may) : Keeps P (isEncoding id) := keeps_onStreams fun _ hm => hm

theorem markEncoding {encoding : Bool} (h : Kept P may) (hid : may id) :
    Keeps P (onStreams (·.setEncoding id encoding)) :=
  keeps_onStreams fun _ hm => h.setEncoding encoding hid hm

theorem queue (h : Kept P may) : Keeps P (StreamManager.sendLater id) :=
  keeps_onStreams fun _ hm => h.sendLater id hm

/-! ## One stream -/

theorem sendHeaderLoop {qpackId : ℕ} (h : Kept P may) (hqpack : may qpackId) (hid : may id) :
    Keeps P (sendHeaderLoop quic qpackId id fuel) := by
  induction fuel with
  | zero => exact .throw _
  | succ fuel ih =>
    refine .bind h.streamWritable fun _ => .ite ?_ (.pure _)
    refine .bind h.streamWritable fun _ => .ite ?_ (.pure _)
    refine .bind (h.encodeFrame hid) fun _ => ?_
    refine .bind (h.sendSome hid hqpack) fun _ => .bind (h.sendSome hid hid) fun _ => ?_
    exact .ite (h.markEncoding hid) ih

theorem openStream (h : Kept P may) (hid : may id) : Keeps P (openStream quic id) := by
  refine .bind (h.ask _) fun answer => ?_
  split
  · exact h.streamSend hid hid
  · exact .pure _

theorem pollSendHeader (h : Kept P may) (hid : may id) :
    Keeps P (pollSendHeader quic fuel id frame) := by
  refine .bind (h.markEncoding hid) fun _ => .bind (h.putFrame hid) fun _ => ?_
  refine Triple.bind h.qpack fun qpackId => ?_
  intro m hm
  exact Keeps.bind (h.openStream hid) (fun _ => h.sendHeaderLoop hm.1 hid) m hm.2

theorem sendFrameLoop (h : Kept P may) (hid : may id) : Keeps P (sendFrameLoop quic id fuel) := by
  induction fuel with
  | zero => exact .throw _
  | succ fuel ih =>
    refine .bind h.streamWritable fun _ => .ite ?_ (.pure _)
    refine .bind (h.encodeFrame hid) fun _ => .ite (h.markEncoding hid) ?_
    exact .bind (h.streamSend hid hid) fun _ => ih

theorem pollSendFrame {frame : Option Frame} (h : Kept P may) (hid : may id) :
    Keeps P (pollSendFrame quic fuel id frame) := by
  cases frame with
  | none => exact .bind (fun m hm => h.resumed _ hid hm) fun _ => h.sendFrameLoop hid
  | some frame =>
    exact .bind (h.markEncoding hid) fun _ => .bind (h.putFrame hid) fun _ => h.sendFrameLoop hid

theorem pollReadBody (h : Kept P may) (hid : may id) : Keeps P (pollReadBody quic id) := by
  refine .bind (h.ask _) fun answer => ?_
  split
  · exact .throw _
  · refine .bind (fun m hm => h.read _ _ hid hm) fun _ => ?_
    exact keeps_onStreams fun _ hm => h.readBody _ hid hm

theorem readLoop {turns : ℕ} (h : Kept P may) (hid : may id) :
    Keeps P (readLoop quic fuel id turns) := by
  induction turns with
  | zero => exact .throw _
  | succ turns ih =>
    refine .bind (h.pollReadBody hid) fun state => ?_
    split
    · exact .pure _
    · exact .pure _
    · refine .bind (keeps_unlessStopped (h.pollSendFrame hid)) fun _ => .ite ?_ (.pure _)
      exact .bind h.isEncoding fun _ => .ite h.queue ih
    · exact h.streamSend hid hid

theorem resumeFrame (h : Kept P may) (hid : may id) : Keeps P (resumeFrame quic fuel id) := by
  refine .bind h.isEncoding fun _ => .ite ?_ (.pure _)
  refine .bind (keeps_unlessStopped (h.pollSendFrame hid)) fun _ => .ite ?_ (.pure _)
  exact .bind h.isEncoding fun _ => .ite (.bind h.queue fun _ => .pure _) (.pure _)

theorem inputStreamFrame (h : Kept P may) (hid : may id) :
    Keeps P (inputStreamFrame quic fuel id) := by
  refine .bind (keeps_onStreams fun _ hm => h.getHeader hid hm) fun header => ?_
  refine .bind ?_ fun _ => .bind (h.resumeFrame hid) fun _ => ?_
  · cases header with
    | none => exact .pure _
    | some header => exact h.pollSendHeader hid
  · exact .ite (h.readLoop hid) (.pure _)

/-! ## A turn -/

theorem turn {E : Fault DispatchErrorKind → StreamManager → Prop} (h : Kept P may)
    (hfails : ∀ e m, P m → E e m)
    (hrest : ∀ id, ¬ may id →
      Triple P (StreamManager.inputStreamFrame quic fuel id) (fun _ => P) E) :
    Triple P (StreamManager.pollInputRequest quic fuel) (fun _ => P) E := by
  have hkeeps : ∀ {α : Type} {p : ManagerM α}, Keeps P p → Triple P p (fun _ => P) E :=
    fun hp => hp.weaken (fun _ h => h) (fun _ _ h => h) hfails
  have hloop : ∀ turns, Triple P (inputLoop quic fuel turns) (fun _ => P) E := by
    intro turns
    induction turns with
    | zero => exact hkeeps (.pure _)
    | succ turns ih =>
      refine .bind (hkeeps (keeps_onStreams fun _ hm => h.next hm)) fun next => ?_
      split
      · rename_i id
        refine .bind ?_ fun _ => ih
        by_cases hid : may id
        · exact hkeeps (h.inputStreamFrame hid)
        · exact hrest id hid
      · exact hkeeps (.pure _)
  refine .bind (hkeeps (keeps_onStreams fun _ hm => h.admission hm)) fun _ => ?_
  exact .bind (Q := fun _ => P) (fun m hm => hm) fun _ => hloop _

theorem pollInputRequest (h : Kept P may)
    (hrest : ∀ id, ¬ may id → Keeps P (StreamManager.inputStreamFrame quic fuel id)) :
    Keeps P (pollInputRequest quic fuel) :=
  h.turn (fun _ _ hm => hm) hrest

end Kept

variable {m m' : StreamManager}

theorem step_turn {E : Fault DispatchErrorKind → StreamManager → Prop}
    (h : Triple P (pollInputRequest quic fuel) (fun _ => P) E)
    (hfails : ∀ e m, E (.error e) m → P m) (hm : P m) (hstep : m.step (.input quic fuel) = some m') : P m' := by
  have hkeeps := h m hm
  rw [step] at hstep
  split at hstep
  · cases hstep
  · rename_i heq
    rw [heq] at hkeeps
    exact Option.some.inj hstep ▸ hfails _ _ hkeeps
  · rename_i heq
    rw [heq] at hkeeps
    exact Option.some.inj hstep ▸ hkeeps

theorem step_input (h : Keeps P (pollInputRequest quic fuel)) (hm : P m)
    (hstep : m.step (.input quic fuel) = some m') : P m' :=
  step_turn h (fun _ _ hm => hm) hm hstep

end StreamManager

end YlongHttp.H3
