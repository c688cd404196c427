import YlongHttp.Model.H2.Decoder
import YlongHttp.Verification.Client.Balance

/-! # Padding and flow control

The decoder takes the padding off a DATA frame before the manager charges the receive windows.
The server counts the whole payload of the frame, RFC 9113, section 6.9.1. -/

namespace YlongHttp

open List
open Library

/-! ## DATA frames as they are sent -/

/-- A DATA frame with its payload as the server sends it. -/
structure SentData where
  id : StreamId
  flags : FrameFlags
  payload : Bytes

namespace SentData

variable (sent : SentData)

def header : FrameHeader where
  streamId := sent.id
  flags := sent.flags.bits
  frameType := 0
  payloadLength := sent.payload.length

def isPadded : Prop := sent.header.isPadded = true ∧ sent.payload ≠ []

instance (sent : SentData) : Decidable sent.isPadded := inferInstanceAs (Decidable (_ ∧ _))

def overhead : ℕ := if sent.isPadded then (sent.payload.headD 0).toNat + 1 else 0

/-- A decoder at the payload of the frame, of which earlier segments have brought a part. -/
structure Arrives (sent : SentData) (decoder : FrameDecoder) (buf : Bytes) : Prop where
  header : decoder.header = sent.header
  payload : (if decoder.offset ≠ 0 then decoder.buffer ++ buf else buf) = sent.payload

def Decodes (frame : Frame) : Prop :=
  ∃ decoder buf, sent.Arrives decoder buf ∧
    (decoder.decodeDataPayload buf).2 = .ok (.complete frame)

/-- What the decoder does with the payload, once it has all of it. -/
def payloadOf (complete : Payload → FrameKind) : Except (Fault H2Error) FrameKind :=
  if sent.payload = [] then .ok (complete (.data []))
  else if sent.header.isPadded then
    if sent.payload.length ≤ (sent.payload.headD 0).toNat then .error (.error protocolError)
    else .ok (complete (.data
      ((sent.payload.take (sent.payload.length - (sent.payload.headD 0).toNat)).drop 1)))
  else .ok (complete (.data sent.payload))

theorem payloadOf_eq {sent : SentData} {d : FrameDecoder} (hd : d.header = sent.header) (p : Bytes)
    (hp : p = sent.payload) :
    (if d.header.payloadLength = 0 then (d, Except.ok (d.completeFrame (.data [])))
      else if d.header.isPadded then
        match p with
        | [] => (d, .error .panic)
        | b0 :: _ =>
          let paddedLength := b0.toNat
          if d.header.payloadLength ≤ paddedLength then (d, .error (.error protocolError))
          else
            let dataEndIndex := d.header.payloadLength - paddedLength
            if p.length < dataEndIndex then (d, .error .panic)
            else (d, .ok (d.completeFrame (.data ((p.take dataEndIndex).drop 1))))
      else if p.length < d.header.payloadLength then (d, .error .panic)
      else (d, .ok (d.completeFrame (.data (p.take d.header.payloadLength))))).2 =
    sent.payloadOf fun payload =>
      .complete { id := sent.id, flags := sent.flags, payload } := by
  subst hp
  have hlen : d.header.payloadLength = sent.payload.length := by rw [hd]; rfl
  have hcomp : ∀ payload, d.completeFrame payload =
      .complete { id := sent.id, flags := sent.flags, payload } := by
    intro payload
    rw [FrameDecoder.completeFrame, hd]
    rfl
  rw [payloadOf, hlen, hd]
  cases hoct : sent.payload with
  | nil => simp [hcomp]
  | cons b0 rest =>
    by_cases hpadded : sent.header.isPadded = true
    · by_cases hle : rest.length + 1 ≤ b0.toNat
      · simp only [hpadded, length_cons, Nat.succ_ne_zero, reduceCtorEq, if_false, if_true,
          headD_cons, hle]
      · have hlt : ¬rest.length + 1 < rest.length + 1 - b0.toNat := by omega
        simp only [hpadded, length_cons, Nat.succ_ne_zero, reduceCtorEq, if_false, if_true,
          headD_cons, hle, hlt, hcomp]
    · simp [hpadded, hcomp]

theorem decodeDataPayload_eq {sent : SentData} {decoder : FrameDecoder} {buf : Bytes}
    (h : sent.Arrives decoder buf) (hid : sent.id ≠ 0) :
    (decoder.decodeDataPayload buf).2 = sent.payloadOf fun payload =>
      .complete { id := sent.id, flags := sent.flags, payload } := by
  obtain ⟨hhdr, hpay⟩ := h
  have hstr : ¬isConnectionFrame decoder.header.streamId = true := by
    simpa [isConnectionFrame, hhdr, header] using hid
  rw [FrameDecoder.decodeDataPayload, if_neg hstr, FrameDecoder.withPayload]
  by_cases hoff : decoder.offset = 0
  · rw [if_neg (by simpa using hoff)] at hpay ⊢
    exact payloadOf_eq hhdr buf hpay
  · rw [if_pos hoff] at hpay ⊢
    exact @payloadOf_eq _ { decoder with
      buffer := decoder.buffer ++ buf, offset := decoder.offset + buf.length } hhdr _ hpay

def decoder : FrameDecoder := { FrameDecoder.new with header := sent.header }

theorem Decodes.data {sent : SentData} {frame : Frame} (h : sent.Decodes frame) :
    ∃ data, frame.payload = .data data ∧ data.length + sent.overhead = sent.payload.length := by
  obtain ⟨decoder, buf, harrives, hdec⟩ := h
  have hid : sent.id ≠ 0 := by
    intro hzero
    have hstr : isConnectionFrame decoder.header.streamId = true := by
      simpa [isConnectionFrame, harrives.header, header] using hzero
    rw [FrameDecoder.decodeDataPayload, if_pos hstr] at hdec
    cases hdec
  rw [decodeDataPayload_eq harrives hid, payloadOf] at hdec
  rw [overhead]
  by_cases hempty : sent.payload = []
  · rw [if_pos hempty] at hdec
    cases hdec
    exact ⟨[], rfl, by simp [isPadded, hempty]⟩
  · rw [if_neg hempty] at hdec
    by_cases hpadded : sent.header.isPadded = true
    · rw [if_pos hpadded] at hdec
      split at hdec
      · cases hdec
      · next hle =>
          cases hdec
          refine ⟨_, rfl, ?_⟩
          rw [if_pos ⟨hpadded, hempty⟩, length_drop, length_take]
          omega
    · rw [if_neg hpadded] at hdec
      cases hdec
      exact ⟨sent.payload, rfl, by simp [isPadded, hpadded]⟩

theorem overhead_eq_zero_iff : sent.overhead = 0 ↔ ¬sent.isPadded := by
  rw [overhead]
  split <;> simp_all

end SentData

/-! ## The two counts -/

def Frame.isDataFrame (frame : Frame) : Bool :=
  match frame.payload with
  | .data _ => true
  | _ => false

/-- The DATA frames that the server has sent, for those of the log, the last of them first. -/
inductive Sends : List Entry → List SentData → Prop
  | nil : Sends [] []
  | data {log : List Entry} {all : List SentData} {frame : Frame} {sent : SentData}
      (h : Sends log all) (hdecodes : sent.Decodes frame) :
      Sends (.received frame :: log) (sent :: all)
  | other {log : List Entry} {all : List SentData} {entry : Entry} (h : Sends log all)
      (hentry : ∀ frame, entry = .received frame → frame.isDataFrame = false) :
      Sends (entry :: log) all

def receivedData (log : List Entry) : List Frame :=
  log.filterMap fun entry =>
    match entry with
    | .received frame => if frame.isDataFrame then some frame else none
    | _ => none

variable {log : List Entry} {all : List SentData}

theorem Sends.of_receivedData (h : List.Forall₂ SentData.Decodes all (receivedData log)) :
    Sends log all := by
  induction log generalizing all with
  | nil =>
    cases h
    exact .nil
  | cons entry log ih =>
    cases entry with
    | opened id | sent frame => exact .other (ih h) fun frame heq => by cases heq
    | received frame =>
      cases hframe : frame.isDataFrame with
      | false =>
        have hrest : receivedData (.received frame :: log) = receivedData log := by
          simp [receivedData, hframe]
        refine .other (ih (hrest ▸ h)) ?_
        rintro frame' heq
        cases heq
        exact hframe
      | true =>
        have hrest : receivedData (.received frame :: log) = frame :: receivedData log := by
          simp [receivedData, hframe]
        rw [hrest] at h
        cases h with
        | cons hdecodes h => exact .data (ih h) hdecodes

def serverConnCredit (log : List Entry) (all : List SentData) : ℤ :=
  ConnManager.defaultWindowSize.toNat + (log.map (Entry.granted 0)).sum -
    (all.map fun sent => (sent.payload.length : ℤ)).sum

/-- What the server may send on a stream, as the server counts. Frames that the client refuses are
left out on both sides. -/
def serverStreamCredit (size : ℤ) (id : StreamId) : List Entry → List SentData → ℤ
  | [], _ => size
  | .opened id' :: log, all => if id' = id then size else serverStreamCredit size id log all
  | .sent frame :: log, all => serverStreamCredit size id log all + (Entry.sent frame).granted id
  | .received frame :: log, all =>
    if frame.isDataFrame then
      match all with
      | [] => serverStreamCredit size id log []
      | sent :: all =>
        let refused := (Entry.received frame).dataReceived > streamCredit size id log
        serverStreamCredit size id log all -
          if frame.id = id ∧ ¬refused then sent.payload.length else 0
    else serverStreamCredit size id log all

theorem dataReceived_of_not_isDataFrame {entry : Entry}
    (h : ∀ frame, entry = .received frame → frame.isDataFrame = false) : entry.dataReceived = 0 := by
  cases entry with
  | opened | sent => rfl
  | received frame =>
    have hframe := h frame rfl
    rw [Frame.isDataFrame] at hframe
    rw [Entry.dataReceived]
    split at hframe <;> simp_all

theorem Sends.connCredit (h : Sends log all) :
    connCredit log = serverConnCredit log all + (all.map SentData.overhead).sum := by
  induction h with
  | nil => rfl
  | @data log all frame sent h hdecodes ih =>
    obtain ⟨data, hpay, hlen⟩ := hdecodes.data
    have hgranted : (Entry.received frame).granted 0 = 0 := rfl
    have hrecv : (Entry.received frame).dataReceived = data.length := by
      rw [Entry.dataReceived, hpay]
    rw [connCredit_cons, ih, hgranted, hrecv]
    simp only [serverConnCredit, map_cons, sum_cons, hgranted, ← hlen]
    push_cast
    ring
  | other h hentry ih =>
    rw [connCredit_cons, ih, dataReceived_of_not_isDataFrame hentry]
    simp only [serverConnCredit, map_cons, sum_cons]
    ring

theorem Sends.streamCredit (h : Sends log all) (hpadded : ∀ sent ∈ all, ¬sent.isPadded) (size : ℤ)
    (id : StreamId) : streamCredit size id log = serverStreamCredit size id log all := by
  induction h with
  | nil => rfl
  | @data log all frame sent h hdecodes ih =>
    obtain ⟨data, hpay, hlen⟩ := hdecodes.data
    rw [(sent.overhead_eq_zero_iff).mpr (hpadded sent (.head _)), Nat.add_zero] at hlen
    have hframe : frame.isDataFrame = true := by rw [Frame.isDataFrame, hpay]
    have hrecv : (Entry.received frame).dataReceived = sent.payload.length := by
      rw [Entry.dataReceived, hpay, ← hlen]
    rw [YlongHttp.streamCredit, serverStreamCredit.eq_def]
    simp only [hframe, if_true]
    rw [hrecv, ← ih fun s hs => hpadded s (.tail _ hs)]
    by_cases hid : frame.id = id
    · by_cases hle : (sent.payload.length : ℤ) ≤ YlongHttp.streamCredit size id log
      · simp [hid, hle]
      · simp [hid, hle, not_le.mp hle]
    · simp [hid]
  | @other log all entry h hentry ih =>
    have ih := ih hpadded
    cases entry with
    | opened id' | sent frame => rw [YlongHttp.streamCredit, serverStreamCredit, ih]
    | received frame =>
      have hframe := hentry frame rfl
      rw [YlongHttp.streamCredit, dataReceived_of_not_isDataFrame hentry,
        serverStreamCredit.eq_def, ih]
      simp [hframe]

/-! ## Runs -/

namespace ConnManager

variable {config : H2Config}

/-- Every DATA frame is charged with its whole payload: the windows are what the server may send,
as the server counts, and the server is never left without credit. -/
structure ChargedInFull (config : H2Config) (m : ConnManager) (all : List SentData) : Prop where
  charge : ∀ sent ∈ all, ∀ frame data, sent.Decodes frame → frame.payload = .data data →
    data.length = sent.payload.length
  conn : m.streams.flowControl.recvWindow.notification.val = serverConnCredit m.log all
  stream : ∀ id stream, m.streams.streamMap.lookup id = some stream →
    stream.recvWindow.notification.val =
      serverStreamCredit config.streamWindowSize.toNat id m.log all
  /-- With windows the arithmetic of which does not overflow. -/
  fed : config.connWindowSize.toNat < 2 ^ 30 + 65535 → config.streamWindowSize.toNat < 2 ^ 30 →
    (0 < config.connWindowSize.toNat → 0 < serverConnCredit m.log all) ∧
    ∀ id stream, m.streams.streamMap.lookup id = some stream → stream.state.isClosed = false →
      0 < config.streamWindowSize.toNat →
        0 < serverStreamCredit config.streamWindowSize.toNat id m.log all

/-- In every state that a connection reaches, the windows are what the server may send if and only
if no DATA frame so far was padded. -/
theorem padding_charged {m : ConnManager} (h : Reached config m) (hhealthy : m.Healthy)
    {all : List SentData} (hall : Sends m.log all) :
    ChargedInFull config m all ↔ ∀ sent ∈ all, ¬sent.isPadded := by
  have hbal := h.balanced hhealthy
  constructor
  · intro hcharged sent hsent
    rw [← sent.overhead_eq_zero_iff]
    have hcredit := hbal.conn.credit
    rw [hcharged.conn, hall.connCredit] at hcredit
    have hsum : (all.map SentData.overhead).sum = 0 := by omega
    exact sum_eq_zero_iff.mp hsum _ (mem_map_of_mem hsent)
  · intro hpadded
    have hsum : (all.map SentData.overhead).sum = 0 := by
      rw [sum_eq_zero_iff]
      intro n hn
      obtain ⟨sent, hsent, rfl⟩ := mem_map.mp hn
      exact sent.overhead_eq_zero_iff.mpr (hpadded sent hsent)
    have hconn : connCredit m.log = serverConnCredit m.log all := by
      rw [hall.connCredit, hsum, Nat.cast_zero, add_zero]
    refine ⟨?_, ?_, ?_, ?_⟩
    · intro sent hsent frame data hdecodes hpay
      obtain ⟨data', hpay', hlen⟩ := hdecodes.data
      rw [sent.overhead_eq_zero_iff.mpr (hpadded sent hsent)] at hlen
      rw [hpay] at hpay'
      cases hpay'
      exact hlen
    · rw [hbal.conn.credit, hconn]
    · intro id stream hget
      rw [(hbal.stream id stream hget).credit, hall.streamCredit hpadded]
    · intro hconnSize hstreamSize
      have hcred : m.streams.Credited config m.log :=
        ((h.credits hconnSize hstreamSize).of_healthy hhealthy).credited
          (by simp [ConnManager.conn])
      constructor
      · intro hpos
        have hprompt := hcred.conn.prompt
        rw [hcred.conn.credit, hconn, RecvWindow.isLow] at hprompt
        omega
      · intro id stream hget hopen hpos
        have hprompt := (hcred.stream id stream hget).prompt hopen
        rw [(hcred.stream id stream hget).credit, hall.streamCredit hpadded,
          RecvWindow.isLow] at hprompt
        omega

theorem reached_threeOctets {bits : UInt8} (h : bits = 0 ∨ bits = paddedMask) :
    ∃ m, Reached plainConfig m ∧ m.Healthy ∧ receivedData m.log = [(threeOctets bits).frame] := by
  have hsent := (Reached.start rfl).pending (.respPending [plainRequest [.pending]] false) rfl
  have hheaders := hsent.ready (.output responseHeaders) rfl
  rcases h with rfl | rfl
  · have hdata := hheaders.ready (.output (threeOctets 0)) rfl
    exact ⟨_, hdata, ⟨rfl, .inl rfl⟩, rfl⟩
  · have hdata := hheaders.ready (.output (threeOctets paddedMask)) rfl
    exact ⟨_, hdata, ⟨rfl, .inl rfl⟩, rfl⟩

/-- The frame as it is without padding, and with a padding of no octets. -/
theorem padding_charged_plain :
    ∃ m, Reached plainConfig m ∧ m.Healthy ∧ ChargedInFull plainConfig m [⟨1, ⟨0⟩, [1, 2, 3]⟩] := by
  obtain ⟨m, hreached, hhealthy, hdata⟩ := reached_threeOctets (.inl rfl)
  have hsends : Sends m.log [⟨1, ⟨0⟩, [1, 2, 3]⟩] := by
    apply Sends.of_receivedData
    rw [hdata]
    exact .cons ⟨SentData.decoder ⟨1, ⟨0⟩, [1, 2, 3]⟩, [1, 2, 3], ⟨rfl, rfl⟩, by decide⟩ .nil
  exact ⟨m, hreached, hhealthy, (padding_charged hreached hhealthy hsends).mpr (by decide)⟩

/-- Padding of no octets has a length all the same. -/
theorem empty_padding_not_charged :
    ∃ m, Reached plainConfig m ∧ m.Healthy ∧ Sends m.log [⟨1, ⟨paddedMask⟩, [0, 1, 2, 3]⟩] ∧
      ¬ChargedInFull plainConfig m [⟨1, ⟨paddedMask⟩, [0, 1, 2, 3]⟩] := by
  obtain ⟨m, hreached, hhealthy, hdata⟩ := reached_threeOctets (.inr rfl)
  have hdecodes : SentData.Decodes ⟨1, ⟨paddedMask⟩, [0, 1, 2, 3]⟩ (threeOctets paddedMask).frame :=
    ⟨SentData.decoder ⟨1, ⟨paddedMask⟩, [0, 1, 2, 3]⟩, [0, 1, 2, 3], ⟨rfl, rfl⟩, by decide⟩
  have hsends : Sends m.log [⟨1, ⟨paddedMask⟩, [0, 1, 2, 3]⟩] := by
    apply Sends.of_receivedData
    rw [hdata]
    exact .cons hdecodes .nil
  refine ⟨m, hreached, hhealthy, hsends, ?_⟩
  intro h
  have hlen := h.charge _ (.head _) _ _ hdecodes rfl
  revert hlen
  decide

end ConnManager

end YlongHttp
