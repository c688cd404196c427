import YlongHttp.Model.H3.Encoder
import YlongHttp.Verification.H3.Varint

/-! # What one call of the frame encoder writes -/

namespace YlongHttp.H3

open List Nat
open Library
open Qpack (QpackEncoder partsFields)

theorem varint_headersFrameType : varint headersFrameType = [1] := by decide

theorem varint_dataFrameType : varint dataFrameType = [0] := by decide

theorem varint_settingsFrameType : varint settingsFrameType = [4] := by decide

variable (fields data : Bytes)

/-- The type and the length of a HEADERS frame around `fields`. -/
def headersHead : Bytes := 1 :: varint fields.length

def headersOctets : Bytes := headersHead fields ++ fields

/-- The type and the length of a DATA frame around `data`. -/
def dataHead : Bytes := 0 :: varint data.length

def dataOctets : Bytes := dataHead data ++ data

variable (pairs : List (ℕ × ℕ))

def pairsOctets : Bytes :=
  pairs.flatMap fun pair => varint pair.1 ++ varint pair.2

variable (settings : Settings)

/-- The pairs of a SETTINGS frame in the order of the encoder. -/
def Settings.all : List (ℕ × ℕ) :=
  settings.pairs ++ settings.additional.getD []

def settingsOctets : Bytes :=
  4 :: varint (pairsOctets settings.all).length ++ pairsOctets settings.all

def idOctets (ty id : ℕ) : Bytes := varint ty ++ varint (varint id).length ++ varint id

def Small (pair : ℕ × ℕ) : Prop := pair.1 < 2 ^ 62 ∧ pair.2 < 2 ^ 62

instance : DecidablePred Small := fun _ => inferInstanceAs (Decidable (_ ∧ _))

@[simp]
theorem pairsOctets_nil : pairsOctets [] = [] := rfl

theorem pairsOctets_cons (pair : ℕ × ℕ) (pairs : List (ℕ × ℕ)) :
    pairsOctets (pair :: pairs) = varint pair.1 ++ varint pair.2 ++ pairsOctets pairs := by
  rw [pairsOctets, flatMap_cons, pairsOctets]

theorem pairsOctets_append (pairs more : List (ℕ × ℕ)) :
    pairsOctets (pairs ++ more) = pairsOctets pairs ++ pairsOctets more :=
  flatMap_append

theorem length_pairsOctets_le : (pairsOctets pairs).length ≤ 16 * pairs.length := by
  induction pairs with
  | nil => exact zero_le _
  | cons pair pairs ih =>
    have hkey := length_varint_le pair.1
    have hval := length_varint_le pair.2
    rw [pairsOctets_cons, length_append, length_append, length_cons]
    omega

theorem pairsLen_eq {pairs : List (ℕ × ℕ)} (h : ∀ pair ∈ pairs, Small pair) :
    pairsLen pairs = some (pairsOctets pairs).length := by
  induction pairs with
  | nil => rfl
  | cons pair pairs ih =>
    obtain ⟨key, value⟩ := pair
    obtain ⟨hkey, hval⟩ := h (key, value) (.head _)
    rw [pairsLen, varintLen_of_lt hkey, varintLen_of_lt hval,
      ih fun pair hpair => h pair (.tail _ hpair), pairsOctets_cons]
    simp only [Option.bind_eq_bind, Option.bind_some, length_append]
    rfl

theorem encodePairs_eq {pairs : List (ℕ × ℕ)} (h : ∀ pair ∈ pairs, Small pair) {room : ℕ}
    (hroom : (pairsOctets pairs).length ≤ room) :
    encodePairs pairs room = .ok (pairsOctets pairs) := by
  induction pairs generalizing room with
  | nil => rfl
  | cons pair pairs ih =>
    obtain ⟨key, value⟩ := pair
    obtain ⟨hkey, hval⟩ := h (key, value) (.head _)
    rw [pairsOctets_cons, length_append, length_append] at hroom
    dsimp only at hroom hkey hval
    have hrest := ih (fun pair hpair => h pair (.tail _ hpair))
      (show (pairsOctets pairs).length ≤ room - (varint key).length - (varint value).length by omega)
    rw [encodePairs, encodeVarInteger_eq hkey (by omega), pairsOctets_cons]
    simp only [bind, Except.bind]
    rw [encodeVarInteger_eq hval (by omega)]
    dsimp only
    rw [hrest]
    rfl

theorem length_pairs_le : settings.pairs.length ≤ 5 := by
  have hone : ∀ (o : Option ℕ) (key : ℕ), ((o.map fun v => (key, v)).toList).length ≤ 1 := by
    intro o key
    cases o <;> simp
  have h₁ := hone settings.maxFieldSectionSize settingMaxFieldSectionSize
  have h₂ := hone settings.connectProtocolEnabled settingEnableConnectProtocol
  have h₃ := hone settings.qpackMaxTableCapacity settingQpackMaxTableCapacity
  have h₄ := hone settings.qpackBlockedStreams settingQpackBlockedStreams
  have h₅ := hone settings.h3Datagram settingH3Datagram
  rw [Settings.pairs]
  simp only [length_append]
  omega

namespace EncodedH3Stream

variable {e : EncodedH3Stream} {q q' : QpackEncoder} {room instRoom fuel : ℕ} {written : Bytes}

/-- The states between two frames. -/
def AtRest (e : EncodedH3Stream) : Prop := e.state = .idle ∨ e.state = .frameComplete

theorem AtRest.encodeLoop (h : e.AtRest) :
    e.encodeLoop room instRoom fuel q written = ((e, q), .ok (written, [])) := by
  cases fuel with
  | zero => rfl
  | succ fuel =>
    rw [EncodedH3Stream.encodeLoop]
    split
    · rfl
    · rcases h with hst | hst <;> rw [hst]

theorem encodeFrameType_eq {frame : Frame} (hframe : e.currentFrame = some frame)
    (hty : frame.ty < 2 ^ 62) (hroom : 8 ≤ room) :
    e.encodeFrameType room = .ok (varint frame.ty) := by
  have hlen := length_varint_le frame.ty
  rw [encodeFrameType, hframe]
  exact encodeVarInteger_eq hty (by omega)

def wrote (message : EncHeaders) (repr inst : Bytes) : EncHeaders :=
  { message with
    reprOffset := message.reprOffset + repr.length
    instOffset := message.instOffset + inst.length }

/-- The stream after a call that leaves `message` to be written. -/
def afterWrite (e : EncodedH3Stream) (message : EncHeaders) : EncodedH3Stream :=
  if message.remainingRepr = 0 ∧ message.remainingInst = 0 then
    { e with state := .frameComplete, headersMessage := none }
  else { e with headersMessage := some message }

theorem encodeHeadersReprAndInst_eq {message : EncHeaders} (h : e.headersMessage = some message) :
    e.encodeHeadersReprAndInst room instRoom =
      (e.afterWrite (wrote message ((message.fields.drop message.reprOffset).take room)
          ((message.inst.drop message.instOffset).take instRoom)),
        (message.fields.drop message.reprOffset).take room,
        (message.inst.drop message.instOffset).take instRoom) := by
  rw [encodeHeadersReprAndInst, h, afterWrite, wrote]
  dsimp only
  split <;> rfl

theorem encodeLoop_headersPayload {message : EncHeaders} {ty : ℕ} {parts : Parts}
    {ins : Option Bytes} (hst : e.state = .encodingHeadersPayload)
    (hframe : e.currentFrame = some { ty, payload := .headers parts ins })
    (hmsg : e.headersMessage = some message) (hroom : written.length < room) :
    e.encodeLoop room instRoom (fuel + 1) q written =
      ((e.afterWrite (wrote message
          ((message.fields.drop message.reprOffset).take (room - written.length))
          ((message.inst.drop message.instOffset).take instRoom)), q),
        .ok (written ++ (message.fields.drop message.reprOffset).take (room - written.length),
          (message.inst.drop message.instOffset).take instRoom)) := by
  rw [encodeLoop, if_neg (not_le.mpr hroom)]
  simp only [hst, encodeHeadersPayload, hframe, encodeHeadersWithQpack, hmsg,
    encodeHeadersReprAndInst_eq hmsg]

theorem encodeLoop_headersQpack {parts : Parts} {ins : Option Bytes}
    (hframe : e.currentFrame = some { ty := headersFrameType, payload := .headers parts ins })
    (hroom : 1024 ≤ room) :
    { e with state := .encodingHeadersPayload }.encodeLoop room instRoom (fuel + 1) q [1] =
      match { e with state := .encodingHeadersPayload }.encodeHeadersWithQpack q (room - 1)
        instRoom with
      | (self, .error err) => (self, .error err)
      | (self, .ok (payload, inst)) => (self, .ok ([1] ++ payload, inst)) := by
  rw [encodeLoop, if_neg (not_le.mpr (by simpa using by omega))]
  simp only [encodeHeadersPayload, hframe]
  rfl

theorem encodeLoop_headersFrame {parts : Parts} {ins : Option Bytes}
    (hst : e.state = .encodingHeadersFrame)
    (hframe : e.currentFrame = some { ty := headersFrameType, payload := .headers parts ins })
    (hmsg : e.headersMessage = none) (hroom : 1024 ≤ room) :
    (q.encode e.streamId = none ∧ (e.encodeLoop room instRoom (fuel + 2) q []).2 = .error .panic) ∨
    ∃ q' fields inst, q.encode e.streamId = some (q', fields, inst) ∧
      ((2 ^ 62 ≤ fields.length ∧ (e.encodeLoop room instRoom (fuel + 2) q []).2 = .error .panic) ∨
      (fields.length < 2 ^ 62 ∧ e.encodeLoop room instRoom (fuel + 2) q [] =
        (({ e with state := .encodingHeadersPayload }.afterWrite (wrote (.new fields inst)
            (fields.take (room - (headersHead fields).length)) (inst.take instRoom)), q'),
          .ok (headersHead fields ++ fields.take (room - (headersHead fields).length),
            inst.take instRoom)))) := by
  have hty : e.encodeFrameType room = .ok [1] :=
    (encodeFrameType_eq hframe (show headersFrameType < 2 ^ 62 by decide)
      (show 8 ≤ room by omega)).trans (congrArg Except.ok varint_headersFrameType)
  have hstart : e.encodeLoop room instRoom (fuel + 2) q [] =
      { e with state := .encodingHeadersPayload }.encodeLoop room instRoom (fuel + 1) q [1] := by
    rw [encodeLoop, if_neg (not_le.mpr (by simpa using by omega))]
    simp only [hst, hty, nil_append]
  rw [hstart, encodeLoop_headersQpack hframe hroom, encodeHeadersWithQpack]
  simp only [hmsg]
  cases henc : q.encode e.streamId with
  | none => exact .inl ⟨rfl, rfl⟩
  | some result =>
    obtain ⟨q', fields, inst⟩ := result
    refine .inr ⟨q', fields, inst, rfl, ?_⟩
    by_cases hsize : fields.length < 2 ^ 62
    · refine .inr ⟨hsize, ?_⟩
      have hlen := length_varint_le fields.length
      dsimp only
      rw [encodeVarInteger_eq hsize (by omega)]
      dsimp only
      rw [encodeHeadersReprAndInst_eq rfl]
      have hrest : room - 1 - (varint fields.length).length =
          room - (headersHead fields).length := by
        rw [headersHead, length_cons]
        omega
      simp only [EncHeaders.new, drop_zero, hrest, headersHead, cons_append]
      rfl
    · refine .inl ⟨not_lt.mp hsize, ?_⟩
      dsimp only
      rw [encodeVarInteger_panic (not_lt.mp hsize)]

variable {ty id : ℕ}

theorem encodeLoop_dataPayload {data : Bytes} (hst : e.state = .encodingDataPayload)
    (hframe : e.currentFrame = some { ty, payload := .data data }) (hroom : written.length < room) :
    e.encodeLoop room instRoom (fuel + 1) q written =
      ((if data.length - e.payloadOffset ≤ room - written.length then
          { e with payloadOffset := 0, state := .frameComplete }
        else { e with payloadOffset := e.payloadOffset + (room - written.length) }, q),
        .ok (written ++ (data.drop e.payloadOffset).take (room - written.length), [])) := by
  rw [encodeLoop, if_neg (not_le.mpr hroom)]
  simp only [hst, encodeDataPayload, hframe, ge_iff_le]
  split
  · rename_i hfits
    rw [take_of_length_le (by rwa [length_drop])]
    rfl
  · rfl

section

variable {data : Bytes} (hst : e.state = .encodingDataFrame)
  (hframe : e.currentFrame = some { ty := dataFrameType, payload := .data data })
  (hroom : 1024 ≤ room)
include hst hframe hroom

theorem encodeLoop_dataLen : e.encodeLoop room instRoom (fuel + 2) q [] =
    match encodeVarInteger data.length (room - 1) with
    | .error err => ((e, q), .error err)
    | .ok len => { e with state := .encodingDataPayload }.encodeLoop room instRoom (fuel + 1) q
        ([0] ++ len) := by
  have hty : e.encodeFrameType room = .ok [0] :=
    (encodeFrameType_eq hframe (show dataFrameType < 2 ^ 62 by decide)
      (show 8 ≤ room by omega)).trans (congrArg Except.ok varint_dataFrameType)
  rw [encodeLoop, if_neg (not_le.mpr (by simpa using by omega))]
  simp only [hst, hty, encodeDataLen, hframe, nil_append, length_nil,
    length_singleton]
  rfl

theorem encodeLoop_dataFrame :
    (2 ^ 62 ≤ data.length ∧ (e.encodeLoop room instRoom (fuel + 2) q []).2 = .error .panic) ∨
    (data.length < 2 ^ 62 ∧ e.encodeLoop room instRoom (fuel + 2) q [] =
      { e with state := .encodingDataPayload }.encodeLoop room instRoom (fuel + 1) q
        (dataHead data)) := by
  have hstart := @encodeLoop_dataLen e q room instRoom fuel data hst hframe hroom
  have hlen := length_varint_le data.length
  by_cases hsize : data.length < 2 ^ 62
  · refine .inr ⟨hsize, ?_⟩
    rw [hstart, encodeVarInteger_eq hsize (by omega)]
    rfl
  · refine .inl ⟨not_lt.mp hsize, ?_⟩
    rw [hstart, encodeVarInteger_panic (not_lt.mp hsize)]

end

theorem encodeLoop_settingsFrame {settings : Settings} (hst : e.state = .encodingSettingsFrame)
    (hframe : e.currentFrame = some { ty := settingsFrameType, payload := .settings settings })
    (hsmall : ∀ pair ∈ settings.all, Small pair)
    (hmany : (settings.additional.getD []).length ≤ 50) (hroom : 1024 ≤ room) :
    e.encodeLoop room instRoom (fuel + 2) q [] =
      (({ e with state := .frameComplete }, q), .ok (settingsOctets settings, [])) := by
  have hty : e.encodeFrameType room = .ok [4] :=
    (encodeFrameType_eq hframe (show settingsFrameType < 2 ^ 62 by decide)
      (show 8 ≤ room by omega)).trans (congrArg Except.ok varint_settingsFrameType)
  have hlen := length_varint_le (pairsOctets settings.all).length
  have hpairs := length_pairs_le settings
  have hoct := length_pairsOctets_le settings.all
  have hall : settings.all.length ≤ 55 := by
    rw [Settings.all, length_append]
    omega
  have hsize : encodeSettingsLen e (room - 1) = .ok (varint (pairsOctets settings.all).length) := by
    have hknown := pairsLen_eq fun pair hpair => hsmall pair (mem_append_left _ hpair)
    have hmore := pairsLen_eq fun pair hpair => hsmall pair (mem_append_right _ hpair)
    rw [encodeSettingsLen, hframe]
    dsimp only
    rw [hknown]
    dsimp only
    cases hadd : settings.additional with
    | none =>
      dsimp only
      have heq : settings.all = settings.pairs := by
        rw [Settings.all, hadd]
        exact append_nil _
      rw [heq] at hlen hoct ⊢
      exact encodeVarInteger_eq (by omega) (by omega)
    | some additional =>
      rw [hadd, Option.getD_some] at hmany hmore
      dsimp only
      rw [if_neg (not_lt.mpr hmany), hmore]
      dsimp only
      have heq : (pairsOctets settings.all).length =
          (pairsOctets settings.pairs).length + (pairsOctets additional).length := by
        rw [Settings.all, hadd, pairsOctets_append, length_append]
        rfl
      rw [← heq]
      exact encodeVarInteger_eq (by omega) (by omega)
  rw [encodeLoop, if_neg (Nat.not_le.mpr (by simpa using by omega))]
  simp only [hst, hty, length_nil, length_singleton, Nat.sub_zero, hsize, nil_append]
  rw [encodeLoop, if_neg (Nat.not_le.mpr (by simp only [length_append, length_singleton]; omega))]
  simp only [encodeSettingsPayload, hframe]
  rw [show settings.pairs ++ settings.additional.getD [] = settings.all from Eq.refl _,
    encodePairs_eq hsmall (by simp only [length_append, length_singleton]; omega)]
  rfl

theorem encodeId_eq (hid : id < 2 ^ 62) (hroom : 16 ≤ room) :
    e.encodeId id room = ({ e with state := .frameComplete },
      .ok (varint (varint id).length ++ varint id, (varint id).length)) := by
  have hlen := length_varint_le id
  have hsize := length_varint_le (varint id).length
  rw [encodeId, varintLen_of_lt hid]
  dsimp only
  rw [encodeVarInteger_eq (by omega) (by omega)]
  dsimp only
  rw [encodeVarInteger_eq hid (by omega)]
  rfl

theorem length_varint_length (id : ℕ) : (varint (varint id).length).length = 1 := by
  have hlen := length_varint_le id
  rw [length_varint, varintLen, if_pos (by omega)]
  rfl

theorem reported_id :
    reported (varint ty) (varint (varint id).length ++ varint id, (varint id).length) =
      (idOctets ty id).dropLast := by
  have hone := length_varint_length id
  rw [reported, dropLast_eq_take, idOctets, append_assoc]
  congr 1
  simp only [length_append, hone]
  omega

theorem encodeLoop_goawayFrame (hst : e.state = .encodingGoawayFrame)
    (hframe : e.currentFrame = some { ty := goawayFrameType, payload := .goaway id })
    (hid : id < 2 ^ 62) (hroom : 1024 ≤ room) :
    e.encodeLoop room instRoom (fuel + 1) q [] =
      (({ e with state := .frameComplete }, q), .ok ((idOctets goawayFrameType id).dropLast, [])) := by
  have hlen := length_varint_le goawayFrameType
  have hty : e.encodeFrameType room = .ok (varint goawayFrameType) :=
    encodeFrameType_eq hframe (show goawayFrameType < 2 ^ 62 by decide) (by omega)
  rw [encodeLoop, if_neg (not_le.mpr (by simpa using by omega))]
  simp only [hst, hty, encodeGoaway, hframe, length_nil, nil_append]
  rw [encodeId_eq hid (by omega)]
  simp only [Except.map, reported_id, hframe]

theorem encodeLoop_cancelPushFrame (hst : e.state = .encodingCancelPushFrame)
    (hframe : e.currentFrame = some { ty := cancelPushFrameType, payload := .cancelPush id })
    (hid : id < 2 ^ 62) (hroom : 1024 ≤ room) :
    e.encodeLoop room instRoom (fuel + 1) q [] =
      (({ e with state := .frameComplete }, q),
        .ok ((idOctets cancelPushFrameType id).dropLast, [])) := by
  have hlen := length_varint_le cancelPushFrameType
  have hty : e.encodeFrameType room = .ok (varint cancelPushFrameType) :=
    encodeFrameType_eq hframe (show cancelPushFrameType < 2 ^ 62 by decide) (by omega)
  rw [encodeLoop, if_neg (not_le.mpr (by simpa using by omega))]
  simp only [hst, hty, encodeCancelPush, hframe, length_nil, nil_append]
  rw [encodeId_eq hid (by omega)]
  simp only [Except.map, reported_id, hframe]

end EncodedH3Stream

end YlongHttp.H3
