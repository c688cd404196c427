import YlongHttp.Library.Except
import YlongHttp.Model.Client.Streams

/-! # What the calls on a stream do

HEADERS and DATA frames, in both directions, move a stream from one state to another. The
four calls for them differ only in these moves: they change nothing but the stream, and
decrease the number of concurrent streams when the move closes it. -/

namespace YlongHttp

open Library Except Streams

/-- A HEADERS or DATA frame of a stream, from the server or to it, with its END_STREAM flag. -/
inductive StreamFrame where
  | recvHeaders (eos : Bool)
  | recvData (eos : Bool)
  | sendHeaders (eos : Bool)
  | sendData (eos : Bool)
deriving DecidableEq

variable {e : StreamFrame} {state : H2StreamState}

namespace StreamFrame

def isReceived : StreamFrame → Bool
  | .recvHeaders _ | .recvData _ => true
  | _ => false

def call (id : StreamId) (s : Streams) : StreamFrame → Except Panic (Streams × FrameRecvState)
  | .recvHeaders eos => s.recvHeaders id eos
  | .recvData eos => s.recvData id eos
  | .sendHeaders eos => s.sendHeadersFrame id eos
  | .sendData eos => s.sendDataFrame id eos

def move : StreamFrame → H2StreamState → Option H2StreamState
  | .recvHeaders eos, .idle =>
    some (if eos then .remoteHalfClosed .waitHeaders else .open .waitHeaders .waitData)
  | .recvHeaders eos, .open send .waitHeaders =>
    some (if eos then .remoteHalfClosed send else .open send .waitData)
  | .recvHeaders eos, .reservedRemote =>
    some (if eos then .closed .endStream else .localHalfClosed .waitData)
  | .recvHeaders eos, .localHalfClosed .waitHeaders =>
    some (if eos then .closed .endStream else .localHalfClosed .waitData)
  | .recvData eos, .open send .waitData =>
    some (if eos then .remoteHalfClosed send else .open send .waitData)
  | .recvData eos, .localHalfClosed .waitData =>
    some (if eos then .closed .endStream else .localHalfClosed .waitData)
  | .sendHeaders eos, .idle =>
    some (if eos then .localHalfClosed .waitHeaders else .open .waitData .waitHeaders)
  | .sendHeaders eos, .open .waitHeaders recv =>
    some (if eos then .localHalfClosed recv else .open .waitData recv)
  | .sendHeaders eos, .remoteHalfClosed .waitHeaders =>
    some (if eos then .closed .endStream else .remoteHalfClosed .waitData)
  | .sendData eos, .open .waitData recv =>
    some (if eos then .localHalfClosed recv else .open .waitData recv)
  | .sendData eos, .remoteHalfClosed .waitData =>
    some (if eos then .closed .endStream else .remoteHalfClosed .waitData)
  | _, _ => none

theorem move_closed (h : state.isClosed = true) : e.move state = none := by
  cases state with
  | closed reason => cases e <;> rfl
  | _ => cases h

theorem not_isClosed_of_move {a b : H2StreamState} (h : e.move a = some b) :
    a.isClosed = false := by
  cases hclosed : a.isClosed with
  | false => rfl
  | true =>
    rw [move_closed hclosed] at h
    cases h

end StreamFrame

/-- The streams once `id` has got the state `state`. -/
def Streams.become (s : Streams) (id : StreamId) (stream : Stream) (state : H2StreamState) :
    Except Panic Streams :=
  let s := s.setStream id { stream with state }
  if state.isClosed then s.decreaseCurrentConcurrency else .ok s

def Streams.moved (s : Streams) (id : StreamId) (stream : Stream) (state : H2StreamState) :
    Streams :=
  { s.setStream id { stream with state } with
    currentConcurrentStreams := s.currentConcurrentStreams - if state.isClosed then 1 else 0 }

theorem Streams.become_eq (s : Streams) (id : StreamId) (stream : Stream)
    (state : H2StreamState) :
    s.become id stream state =
      if state.isClosed = true ∧ s.currentConcurrentStreams = 0 then .error .concurrency
      else .ok (s.moved id stream state) := by
  by_cases hclosed : state.isClosed = true <;> by_cases hzero : s.currentConcurrentStreams = 0 <;>
    simp [become, moved, decreaseCurrentConcurrency, setStream, hclosed, hzero]

variable {id : StreamId} {s : Streams} {stream : Stream}

section Lookup

variable (s : Streams) (id : StreamId)

@[simp]
theorem Streams.lookup_setStream_self (stream : Stream) :
    (s.setStream id stream).streamMap.lookup id = (s.streamMap.lookup id).map fun _ => stream := by
  rw [setStream, lookup_modify_self]

variable {stream : Stream}

variable {s id} in
theorem Streams.eq_of_lookup_setStream {stream' next : Stream}
    (hget : s.streamMap.lookup id = some stream)
    (h : (s.setStream id stream').streamMap.lookup id = some next) : next = stream' := by
  rw [lookup_setStream_self, hget] at h
  exact (Option.some.inj h).symm

theorem Streams.lookup_setStream_of_ne (stream : Stream) {id' : StreamId} (h : id' ≠ id) :
    (s.setStream id stream).streamMap.lookup id' = s.streamMap.lookup id' := by
  rw [setStream, lookup_modify_of_ne h]

@[simp]
theorem Streams.keys_setStream (stream : Stream) :
    (s.setStream id stream).streamMap.keys = s.streamMap.keys := by
  rw [setStream, keys_modify]

theorem Streams.setStream_eq_self (h : s.streamMap.lookup id = some stream) :
    s.setStream id stream = s := by
  have hmap : modify id (fun _ => stream) s.streamMap = s.streamMap := by
    refine AList.ext (List.map_congr_left ?_ |>.trans (List.map_id _))
    intro e he
    by_cases hkey : e.1 = id
    · subst hkey
      have hget := AList.mem_lookup_iff.mpr he
      rw [h] at hget
      cases hget
      simp
    · simp [hkey]
  rw [setStream, hmap]

theorem Streams.setStream_setStream (stream stream' : Stream) :
    (s.setStream id stream).setStream id stream' = s.setStream id stream' := by
  have hmap : modify id (fun _ => stream') (modify id (fun _ => stream) s.streamMap) =
      modify id (fun _ => stream') s.streamMap := by
    refine AList.ext ?_
    simp only [Library.modify, mapVal, List.map_map]
    refine List.map_congr_left fun e _ => ?_
    by_cases hkey : e.1 = id <;> simp [hkey]
  rw [setStream, setStream, setStream, hmap]

theorem Streams.moved_setStream (stream stream' : Stream) (state : H2StreamState) :
    (s.setStream id stream).moved id stream' state = s.moved id stream' state := by
  rw [moved, moved, setStream_setStream]
  rfl

theorem Streams.moved_eq_self (h : s.streamMap.lookup id = some stream)
    (hopen : stream.state.isClosed = false) : s.moved id stream stream.state = s := by
  rw [moved, s.setStream_eq_self id h, hopen]
  rfl

end Lookup

theorem StreamFrame.move_sendData_false {state' : H2StreamState}
    (h : (StreamFrame.sendData false).move state = some state') : state' = state := by
  rcases state with _ | ⟨_ | _, _ | _⟩ | _ | (_ | _) | (_ | _) | _ <;> simp_all [move]

def StreamFrame.refusal (e : StreamFrame) (state : H2StreamState) : FrameRecvState :=
  if e.isReceived ∧ (state = .closed .localGoAway ∨ state = .closed .localRst) then .ignore
  else .err (.connectionError .protocolError)

theorem StreamFrame.call_eq (e : StreamFrame) (hid : e.isReceived = true → ¬ s.maxRecvId < id)
    (hget : s.streamMap.lookup id = some stream) :
    e.call id s =
      match e.move stream.state with
      | some state => (s.become id stream state).map (·, .ok)
      | none => .ok (s, e.refusal stream.state) := by
  have hself : ∀ state, state = stream.state → s.setStream id { stream with state } = s := by
    rintro _ rfl
    exact s.setStream_eq_self id hget
  cases e with
  | recvHeaders eos =>
    simp only [call, Streams.recvHeaders, gt_iff_lt, hid rfl, if_false, hget]
    split <;> cases eos <;> simp_all [move, refusal, isReceived, Streams.become,
      H2StreamState.isClosed, Except.map, bind, Except.bind, pure, Except.pure]
  | recvData eos =>
    simp only [call, Streams.recvData, gt_iff_lt, hid rfl, if_false, hget]
    split <;> cases eos <;> simp_all [move, refusal, isReceived, Streams.become,
      H2StreamState.isClosed, Except.map, bind, Except.bind, pure, Except.pure]
  | sendHeaders eos =>
    simp only [call, Streams.sendHeadersFrame, hget]
    split <;> cases eos <;> simp_all [move, refusal, isReceived, Streams.become,
      H2StreamState.isClosed, Except.map, bind, Except.bind, pure, Except.pure]
  | sendData eos =>
    simp only [call, Streams.sendDataFrame, hget]
    split <;> cases eos <;> simp_all [move, refusal, isReceived, Streams.become,
      H2StreamState.isClosed, Except.map, bind, Except.bind, pure, Except.pure]

theorem StreamFrame.call_of_unknown (e : StreamFrame)
    (hid : e.isReceived = true → ¬ s.maxRecvId < id) (hget : s.streamMap.lookup id = none) :
    e.call id s = .ok (s, .err (.connectionError .protocolError)) := by
  cases e with
  | recvHeaders eos => simp [call, Streams.recvHeaders, hid rfl, hget]
  | recvData eos => simp [call, Streams.recvData, hid rfl, hget]
  | sendHeaders eos => simp [call, sendHeadersFrame, hget]
  | sendData eos => simp [call, sendDataFrame, hget]

theorem StreamFrame.refusal_cases (e : StreamFrame) (state : H2StreamState) :
    (e.refusal state = .ignore ∧ e.isReceived = true) ∨
      e.refusal state = .err (.connectionError .protocolError) := by
  rw [refusal]
  split
  · rename_i h
    exact .inl ⟨rfl, h.1⟩
  · exact .inr rfl

theorem StreamFrame.refusal_ne_ok (e : StreamFrame) (state : H2StreamState) :
    e.refusal state ≠ .ok := by
  rcases e.refusal_cases state with ⟨h, -⟩ | h <;> simp [h]

/-- What a call for a frame of the stream `id` comes to. -/
inductive StreamFrame.Calls (e : StreamFrame) (id : StreamId) (s : Streams) :
    Except Panic (Streams × FrameRecvState) → Prop
  | ignored : e.isReceived = true → Calls e id s (.ok (s, .ignore))
  | refused : Calls e id s (.ok (s, .err (.connectionError .protocolError)))
  | moved {stream : Stream} {state : H2StreamState} : s.streamMap.lookup id = some stream →
      e.move stream.state = some state →
      (state.isClosed = true → 0 < s.currentConcurrentStreams) →
      Calls e id s (.ok (s.moved id stream state, .ok))
  | trapped {stream : Stream} {state : H2StreamState} : s.streamMap.lookup id = some stream →
      e.move stream.state = some state → state.isClosed = true →
      s.currentConcurrentStreams = 0 → Calls e id s (.error .concurrency)

theorem StreamFrame.call_cases (e : StreamFrame) (id : StreamId) (s : Streams) :
    e.Calls id s (e.call id s) := by
  by_cases hid : e.isReceived = true → ¬ s.maxRecvId < id
  · cases hget : s.streamMap.lookup id with
    | none =>
      rw [e.call_of_unknown hid hget]
      exact .refused
    | some stream =>
      rw [e.call_eq hid hget]
      cases hmove : e.move stream.state with
      | none =>
        obtain ⟨hrefusal, hreceived⟩ | hrefusal := e.refusal_cases stream.state
        · dsimp only
          rw [hrefusal]
          exact .ignored hreceived
        · dsimp only
          rw [hrefusal]
          exact .refused
      | some state =>
        dsimp only
        rw [s.become_eq]
        split
        · rename_i hzero
          exact .trapped hget hmove hzero.1 hzero.2
        · rename_i hpos
          exact .moved hget hmove fun hclosed =>
            Nat.pos_of_ne_zero fun hzero => hpos ⟨hclosed, hzero⟩
  · push Not at hid
    have hcall : e.call id s = .ok (s, .ignore) := by
      cases e <;> simp_all [call, Streams.recvHeaders, Streams.recvData, isReceived]
    rw [hcall]
    exact .ignored hid.1

/-! ### Receive windows -/

theorem checkedI32_error {panic panic' : Panic} {n : ℤ} (h : checkedI32 panic n = .error panic') :
    panic' = panic := by
  rw [checkedI32] at h
  split at h <;> cases h
  rfl

namespace RecvWindow

variable {w : RecvWindow} {size : UInt32} {panic : Panic}

theorem recvData_error (h : w.recvData size = .error panic) : panic = .recvWindow := by
  rcases of_bind_error h with h | ⟨_, _, h⟩
  · exact checkedI32_error h
  · cases h

theorem unreleasedSize_error (h : w.unreleasedSize = .error panic) : panic = .recvWindow := by
  rcases of_bind_error h with h | ⟨n, _, h⟩
  · exact checkedI32_error h
  · split at h
    · cases h
    · rcases of_bind_error h with h | ⟨twice, _, h⟩
      · exact checkedI32_error h
      · split at h <;> cases h

theorem checkWindowUpdate_error {id : StreamId} (h : w.checkWindowUpdate id = .error panic) :
    panic = .recvWindow := by
  rcases of_bind_error h with h | ⟨size, _, h⟩
  · exact unreleasedSize_error h
  · cases size with
    | none => cases h
    | some size =>
      rcases of_bind_error h with h | ⟨w', _, h⟩
      · rcases of_bind_error h with h | ⟨_, _, h⟩
        · exact checkedI32_error h
        · cases h
      · cases h

end RecvWindow

/-- What a window that takes in `size` octets comes to, and the frame it asks for: it is not always
looked at for one. -/
inductive RecvWindow.Receives (w : RecvWindow) (id : StreamId) (size : UInt32) :
    RecvWindow → Option Frame → Prop
  | kept {w' : RecvWindow} : w.recvData size = .ok w' → Receives w id size w' none
  | checked {w' w'' : RecvWindow} {update : Option Frame} : w.recvData size = .ok w' →
      w'.checkWindowUpdate id = .ok (w'', update) → Receives w id size w'' update

/-- What `release_conn_recv_window` comes to. -/
inductive Streams.ReleasesConn (s : Streams) (size : UInt32) :
    Except Panic (Streams × Except H2Error (Option Frame)) → Prop
  | refused : s.flowControl.recvWindow.notificationAvailable < size →
      ReleasesConn s size (.ok (s, .error (.connectionError .flowControlError)))
  | released {recvWindow : RecvWindow} {update : Option Frame} :
      ¬ s.flowControl.recvWindow.notificationAvailable < size →
      s.flowControl.recvWindow.Receives 0 size recvWindow update →
      ReleasesConn s size
        (.ok ({ s with flowControl := { s.flowControl with recvWindow } }, .ok update))
  | trapped : ReleasesConn s size (.error .recvWindow)

theorem Streams.releaseConnRecvWindow_cases (s : Streams) (size : UInt32) :
    s.ReleasesConn size (s.releaseConnRecvWindow size) := by
  rw [releaseConnRecvWindow]
  split
  · exact .refused ‹_›
  · rename_i hle
    rw [FlowControl.recvData]
    cases hrecv : s.flowControl.recvWindow.recvData size with
    | error panic =>
      rw [RecvWindow.recvData_error hrecv]
      exact .trapped
    | ok w =>
      change ReleasesConn s size (FlowControl.checkConnRecvWindowUpdate _ >>= _)
      rw [FlowControl.checkConnRecvWindowUpdate]
      cases hcheck : w.checkWindowUpdate 0 with
      | error panic =>
        rw [RecvWindow.checkWindowUpdate_error hcheck]
        exact .trapped
      | ok checked => exact .released hle (.checked hrecv hcheck)

/-- What `release_stream_recv_window` comes to. -/
inductive Streams.ReleasesStream (s : Streams) (id : StreamId) (size : UInt32) :
    Except Panic (Streams × Except H2Error (Option Frame)) → Prop
  | unknown : s.streamMap.lookup id = none → ReleasesStream s id size (.ok (s, .ok none))
  | refused {stream : Stream} : s.streamMap.lookup id = some stream →
      stream.recvWindow.notificationAvailable < size →
      ReleasesStream s id size (.ok (s, .error (.streamError id .flowControlError)))
  | released {stream : Stream} {recvWindow : RecvWindow} {update : Option Frame} :
      s.streamMap.lookup id = some stream → ¬ stream.recvWindow.notificationAvailable < size →
      stream.recvWindow.Receives id size recvWindow update →
      ReleasesStream s id size (.ok (s.setStream id { stream with recvWindow }, .ok update))
  | trapped : ReleasesStream s id size (.error .recvWindow)

theorem Streams.releaseStreamRecvWindow_cases (s : Streams) (id : StreamId) (size : UInt32) :
    s.ReleasesStream id size (s.releaseStreamRecvWindow id size) := by
  rw [releaseStreamRecvWindow]
  split
  · exact .unknown ‹_›
  · rename_i stream hget
    split
    · exact .refused hget ‹_›
    · rename_i hle
      cases hrecv : stream.recvWindow.recvData size with
      | error panic =>
        rw [RecvWindow.recvData_error hrecv]
        exact .trapped
      | ok w =>
        change ReleasesStream s id size (w.unreleasedSize >>= _)
        cases hsize : w.unreleasedSize with
        | error panic =>
          rw [RecvWindow.unreleasedSize_error hsize]
          exact .trapped
        | ok unreleased =>
          cases unreleased with
          | none => exact .released hget hle (.kept hrecv)
          | some unreleased =>
            change ReleasesStream s id size (if _ then _ else _)
            split
            · exact .released hget hle (.kept hrecv)
            · cases hcheck : w.checkWindowUpdate id with
              | error panic =>
                rw [RecvWindow.checkWindowUpdate_error hcheck]
                exact .trapped
              | ok checked =>
                change ReleasesStream s id size (.ok ((s.setStream id _).setStream id _, _))
                rw [setStream_setStream]
                exact .released hget hle (.checked hrecv hcheck)

end YlongHttp
