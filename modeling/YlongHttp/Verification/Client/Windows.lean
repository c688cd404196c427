import YlongHttp.Verification.Client.Actions

/-! # Arithmetic of the windows -/

namespace YlongHttp

open Library SendWindow

variable {n : ℤ} {len : ℕ}

theorem asI32_val {n : UInt32} (h : n ≤ maxFlowControlWindow) : (asI32 n).val = n.toNat := by
  have hn : n.toNat ≤ 2147483647 := UInt32.le_iff_toNat_le.mp h
  have hlt : n.toBitVec.toNat < 2 ^ 31 := by
    rw [UInt32.toNat_toBitVec]
    omega
  change n.toBitVec.toInt = n.toNat
  rw [BitVec.toInt_eq_toNat_of_lt (by omega), UInt32.toNat_toBitVec]

theorem asI32_ofNat {n : ℕ} (h : n < 2 ^ 31) : (asI32 (UInt32.ofNat n)).val = n := by
  have hsize : UInt32.size = 2 ^ 32 := rfl
  have hn : (UInt32.ofNat n).toNat = n := UInt32.toNat_ofNat_of_lt' (by omega)
  have hle : UInt32.ofNat n ≤ maxFlowControlWindow := by
    rw [UInt32.le_iff_toNat_le, hn]
    change n ≤ 2147483647
    omega
  rw [asI32_val hle, hn]

theorem I32.asU32_toNat (n : I32) : n.asU32.toNat = n.val.toNat := by
  obtain ⟨n, hle, hlt⟩ := n
  have hsize : UInt32.size = 2 ^ 32 := rfl
  exact UInt32.toNat_ofNat_of_lt' (by dsimp only; omega)

theorem checkedI32_ok {panic : Panic} {i : I32} (h : checkedI32 panic n = .ok i) : i.val = n := by
  rw [checkedI32] at h
  split at h
  · cases h
    rfl
  · cases h

theorem checkedI32_of_fits (panic : Panic) (h : -2 ^ 31 ≤ n ∧ n < 2 ^ 31) :
    checkedI32 panic n = .ok ⟨n, h⟩ := by
  rw [checkedI32, dif_pos h]

namespace SendWindow

variable {w w' : SendWindow} {n : UInt32}

theorem sizeAvailable_toNat (w : SendWindow) : w.sizeAvailable.toNat = w.size.val.toNat := by
  rw [sizeAvailable]
  split
  · rename_i h
    rw [Int.toNat_of_nonpos h.le]
    rfl
  · exact w.size.asU32_toNat

theorem sendData_ok {n : ℕ} (hn : n < 2 ^ 31) (h : w.sendData (UInt32.ofNat n) = .ok w') :
    w'.size.val = w.size.val - n := by
  obtain ⟨i, hi, h⟩ := of_bind_ok h
  cases h
  rw [checkedI32_ok hi, asI32_ofNat hn]

theorem sendData_of_le {n : ℕ} (h : (n : ℤ) ≤ w.size.val) :
    ∃ w', w.sendData (UInt32.ofNat n) = .ok w' := by
  obtain ⟨hle, hlt⟩ := w.size.property
  rw [sendData, asI32_ofNat (by omega), checkedI32_of_fits .sendWindow ⟨by omega, by omega⟩]
  exact ⟨_, rfl⟩

theorem increaseSize_ok (hn : n ≤ maxFlowControlWindow) (h : w.increaseSize n = .ok w') :
    w'.size.val = w.size.val + n.toNat := by
  simp only [increaseSize] at h
  split at h
  · split at h <;> cases h
    simp [asI32_val hn]
  · cases h

theorem increaseSize_error_iff (hn : n ≤ maxFlowControlWindow) :
    w.increaseSize n = .error (.connectionError .flowControlError) ↔
      2 ^ 31 - 1 < w.size.val + n.toNat := by
  have hmax : (asI32 maxFlowControlWindow).val = 2 ^ 31 - 1 := by decide
  obtain ⟨hle, hlt⟩ := w.size.property
  simp only [increaseSize, asI32_val hn, hmax]
  split
  · split <;> simp_all
  · simp only [true_iff]
    omega

theorem reduceSize_ok (hn : n ≤ maxFlowControlWindow) (h : w.reduceSize n = .ok w') :
    w'.size.val = w.size.val - n.toNat := by
  obtain ⟨i, hi, h⟩ := of_bind_ok h
  cases h
  rw [checkedI32_ok hi, asI32_val hn]

theorem reduceSize_of_le (hn : n ≤ maxFlowControlWindow) (h : -2 ^ 31 ≤ w.size.val - n.toNat) :
    ∃ w', w.reduceSize n = .ok w' := by
  obtain ⟨hle, hlt⟩ := w.size.property
  rw [reduceSize, asI32_val hn, checkedI32_of_fits .sendWindow ⟨h, by omega⟩]
  exact ⟨_, rfl⟩

end SendWindow

/-! ## Reading a body -/

theorem BodyDataRef.pollRead_length {data data' : BodyDataRef} {octets : Bytes}
    (h : data.pollRead len = (data', .ready octets)) : octets.length ≤ len := by
  rw [pollRead] at h
  split at h
  · cases h
    simp
  · cases h
    simp
  · cases h
  · cases h
  · split at h
    · rename_i hle
      cases h
      exact hle
    · cases h
      simp

/-- What `poll_read_body` can come to. -/
inductive Reading (s : Streams) (id : StreamId) :
    Streams → Except H2Error DataReadState → Prop where
  | unknown : s.streamMap.lookup id = none →
      Reading s id s (.error (.connectionError .intervalError))
  | closed {stream} : s.streamMap.lookup id = some stream → stream.state.isClosed = true →
      Reading s id s (.ok .closed)
  | parkedStream {stream} : s.streamMap.lookup id = some stream →
      stream.state.isClosed = false → stream.sendWindow.size.val ≤ 0 →
      Reading s id { s with pendingStreamWindow := s.pendingStreamWindow.insert id }
        (.ok .pending)
  | parkedConn {stream} : s.streamMap.lookup id = some stream →
      stream.state.isClosed = false → s.flowControl.sendWindow.size.val ≤ 0 →
      Reading s id { s with pendingConnWindow := s.pendingConnWindow ++ [id] } (.ok .pending)
  | octets {stream len data octets sendWindow connWindow} :
      s.streamMap.lookup id = some stream → stream.state.isClosed = false →
      stream.data.pollRead len = (data, .ready octets) → octets ≠ [] →
      octets.length ≤ len → len ≤ Streams.dataFrameSize →
      (octets.length : ℤ) ≤ stream.sendWindow.size.val →
      (octets.length : ℤ) ≤ s.flowControl.sendWindow.size.val →
      sendWindow.size.val = stream.sendWindow.size.val - (octets.length : ℤ) →
      connWindow.size.val = s.flowControl.sendWindow.size.val - (octets.length : ℤ) →
      Reading s id (s.charged id stream data sendWindow connWindow)
        (.ok (.ready { id, flags := { bits := 0 }, payload := .data octets }))
  | finish {stream data} {len : ℕ} : s.streamMap.lookup id = some stream →
      stream.state.isClosed = false → 0 < len → (len : ℤ) ≤ stream.sendWindow.size.val →
      (len : ℤ) ≤ s.flowControl.sendWindow.size.val →
      stream.data.pollRead len = (data, .ready []) →
      Reading s id (s.setStream id { stream with data })
        (.ok (.finish { id, flags := { bits := 1 }, payload := .data [] }))
  | failed {stream len data} : s.streamMap.lookup id = some stream →
      stream.state.isClosed = false → stream.data.pollRead len = (data, .failed) →
      Reading s id (s.setStream id { stream with data }) (.error (.streamError id .intervalError))
  | waiting {stream len data} : s.streamMap.lookup id = some stream →
      stream.state.isClosed = false → stream.data.pollRead len = (data, .pending) →
      Reading s id ((s.setStream id { stream with data }).pushBackPendingSend id) (.ok .pending)

theorem pollSizedData_reading {s : Streams} {id : StreamId} {stream : Stream}
    {r : Except Panic (Streams × Except H2Error DataReadState)}
    (hget : s.streamMap.lookup id = some stream) (hopen : stream.state.isClosed = false)
    (hpos : 0 < len) (hsize : len ≤ Streams.dataFrameSize)
    (hstr : (len : ℤ) ≤ stream.sendWindow.size.val)
    (hconn : (len : ℤ) ≤ s.flowControl.sendWindow.size.val) (h : s.pollSizedData id len = r) :
    ∃ s' read, r = .ok (s', read) ∧ Reading s id s' read := by
  subst h
  simp only [Streams.pollSizedData, hget]
  rcases hread : stream.data.pollRead len with ⟨data, octets | _ | _⟩
  · have hlen := BodyDataRef.pollRead_length hread
    dsimp only
    split
    · rename_i hpos
      obtain ⟨sendWindow, hsend⟩ := sendData_of_le (n := octets.length)
        (w := stream.sendWindow) (by omega)
      obtain ⟨connWindow, hconn'⟩ := sendData_of_le (n := octets.length)
        (w := s.flowControl.sendWindow) (by omega)
      have hlt : octets.length < 2 ^ 31 := by
        have h16 : Streams.dataFrameSize = 16384 := rfl
        omega
      refine ⟨_, _, by rw [hsend, FlowControl.sendData, hconn']; rfl, ?_⟩
      exact .octets hget hopen hread (List.ne_nil_of_length_pos hpos) hlen hsize (by omega)
        (by omega) (sendData_ok hlt hsend) (sendData_ok hlt hconn')
    · rename_i hzero
      obtain rfl : octets = [] := List.length_eq_zero_iff.mp (by omega)
      exact ⟨_, _, rfl, .finish hget hopen hpos hstr hconn hread⟩
  · exact ⟨_, _, rfl, .failed hget hopen hread⟩
  · exact ⟨_, _, rfl, .waiting hget hopen hread⟩

theorem pollReadBody_reading (s : Streams) (id : StreamId) :
    ∃ s' read, s.pollReadBody id = .ok (s', read) ∧ Reading s id s' read := by
  simp only [Streams.pollReadBody]
  cases hget : s.streamMap.lookup id with
  | none => exact ⟨_, _, rfl, .unknown hget⟩
  | some stream =>
    dsimp only
    split
    · rename_i hclosed
      exact ⟨_, _, rfl, .closed hget hclosed⟩
    · rename_i hopen
      have hopen : stream.state.isClosed = false := by simpa using hopen
      rw [FlowControl.sendSizeAvailable, sizeAvailable_toNat, sizeAvailable_toNat]
      split
      · exact ⟨_, _, rfl, .parkedStream hget hopen (by omega)⟩
      · split
        · exact ⟨_, _, rfl, .parkedConn hget hopen (by omega)⟩
        · have h16 : Streams.dataFrameSize = 16384 := rfl
          exact pollSizedData_reading hget hopen (by omega) (by omega) (by omega) (by omega) rfl

end YlongHttp
