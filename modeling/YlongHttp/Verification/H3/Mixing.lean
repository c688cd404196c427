import YlongHttp.Verification.H3.Encoding

/-! # Header blocks on the streams they were set on

The parts of a HEADERS frame wait in the QPACK encoder, which all streams share, from the call
of `set_frame` to the first call of `encode`. -/

namespace YlongHttp.H3

open List Option EncodedH3Stream AList H3.FrameEncoder
open Library
open Qpack (QpackEncoder partsFields)

/-- The field section is what the QPACK encoder, which has the parts, makes of them. -/
def Carries (id : ℕ) (parts : Parts) (q : QpackEncoder) (fields : Bytes) : Prop :=
  q.fieldIter = some (partsFields parts) ∧ ∃ q' inst, q.encode id = some (q', fields, inst)

/-- The field sections of the frames that were set, each from the encoder that took it up. -/
inductive Sections (id : ℕ) : List Parts → List QpackEncoder → List Bytes → Prop
  | nil : Sections id [] [] []
  | concat {set : List Parts} {asked : List QpackEncoder} {sections : List Bytes} {parts : Parts}
      {q : QpackEncoder} {fields : Bytes} (before : Sections id set asked sections)
      (carries : Carries id parts q fields) :
      Sections id (set ++ [parts]) (asked ++ [q]) (sections ++ [fields])

theorem Sections.length_eq {id : ℕ} {set : List Parts} {asked : List QpackEncoder}
    {sections : List Bytes} (h : Sections id set asked sections) :
    set.length = sections.length ∧ asked.length = sections.length := by
  induction h with
  | nil => exact ⟨rfl, rfl⟩
  | concat before carries ih => simpa using ih

theorem Sections.single {id : ℕ} {parts : Parts} {asked : List QpackEncoder} {fields : Bytes}
    (h : Sections id [parts] asked [fields]) : ∃ q, Carries id parts q fields := by
  generalize hset : [parts] = set at h
  generalize hfields : [fields] = sections at h
  cases h with
  | nil => cases hset
  | @concat _ _ _ _ q _ before carries =>
    rw [← nil_append [_], append_singleton_inj] at hset hfields
    rw [hset.2, hfields.2]
    exact ⟨q, carries⟩

def headersFrames (sections : List Bytes) : Bytes := (sections.map headersOctets).flatten

theorem headersFrames_append (sections : List Bytes) (fields : Bytes) :
    headersFrames (sections ++ [fields]) = headersFrames sections ++ headersOctets fields := by
  simp [headersFrames]

/-- The calls that put HEADERS frames into octets. -/
inductive HeadersCall where
  | setFrame (id : ℕ) (parts : Parts) (ins : Option Bytes)
  | encode (id room instRoom : ℕ)

/-- An encoder with the parts it has taken, the QPACK encoder as `encode` found it when it took them
up, and the octets it has given, for each stream. -/
structure Traffic where
  encoder : FrameEncoder
  set : ℕ → List Parts
  asked : ℕ → List QpackEncoder
  sent : ℕ → Bytes

namespace Traffic

variable {id : ℕ} {parts : Parts} {ins : Option Bytes}

def new (qpackEncoder : QpackEncoder) : Traffic where
  encoder := { qpackEncoder, streams := ∅ }
  set _ := []
  asked _ := []
  sent _ := []

def waits (t : Traffic) (id : ℕ) : Bool :=
  (t.encoder.streams.lookup id).any (·.state = .encodingHeadersFrame)

/-- One call; `none` is a panic. -/
def call (t : Traffic) : HeadersCall → Option Traffic
  | .setFrame id parts ins =>
    match t.encoder.setFrame id { ty := headersFrameType, payload := .headers parts ins } with
    | (encoder, .ok ()) =>
      some { t with encoder, set := Function.update t.set id (t.set id ++ [parts]) }
    | (encoder, .error _) => some { t with encoder }
  | .encode id room instRoom =>
    match t.encoder.encode id room instRoom with
    | (encoder, .ok (frame, _)) =>
      some { t with
        encoder, sent := Function.update t.sent id (t.sent id ++ frame)
        asked := if t.waits id then
          Function.update t.asked id (t.asked id ++ [t.encoder.qpackEncoder]) else t.asked }
    | (encoder, .error (.error _)) => some { t with encoder }
    | (_, .error .panic) => none

def calls : Traffic → List HeadersCall → Option Traffic
  | t, [] => some t
  | t, c :: cs => (t.call c).bind (calls · cs)

variable {t t' : Traffic}

/-- The octets given for a stream are those of its own frames, in order, and all of them once
the encoder has nothing left to write. -/
structure Carried (t : Traffic) (id : ℕ) : Prop where
  sections : ∃ sections,
    Sections id ((t.set id).take sections.length) (t.asked id) sections ∧
    t.sent id <+: headersFrames sections ∧
    (∀ stream, t.encoder.streams.lookup id = some stream → stream.AtRest →
      sections.length = (t.set id).length ∧ t.sent id = headersFrames sections)

def Waits (t : Traffic) (id : ℕ) : Prop :=
  ∃ stream, t.encoder.streams.lookup id = some stream ∧ stream.state = .encodingHeadersFrame

def Alone (t : Traffic) : HeadersCall → Prop
  | .setFrame id _ _ => ∀ id', id' ≠ id → ¬ t.Waits id'
  | .encode _ _ _ => True

def AllAlone : Traffic → List HeadersCall → Prop
  | _, [] => True
  | t, c :: cs => t.Alone c ∧ ∀ t', t.call c = some t' → t'.AllAlone cs

/-! ## One stream -/

/-- What a stream has of its frames: none is under way, the last one waits for its field
section, or this one is being written. -/
inductive Stage (id : ℕ) (q : QpackEncoder) :
    EncodedH3Stream → List Parts → List QpackEncoder → Bytes → Prop
  | rest {e : EncodedH3Stream} {set : List Parts} {asked : List QpackEncoder}
      {sections : List Bytes} (hrest : e.AtRest) (hmessage : e.headersMessage = none)
      (hall : Sections id set asked sections) :
      Stage id q e set asked (headersFrames sections)
  | waits {e : EncodedH3Stream} {set : List Parts} {asked : List QpackEncoder}
      {sections : List Bytes} {parts : Parts} {ins : Option Bytes}
      (hstate : e.state = .encodingHeadersFrame)
      (hmessage : e.headersMessage = none)
      (hframe : e.currentFrame = some { ty := headersFrameType, payload := .headers parts ins })
      (hq : q.fieldIter = some (partsFields parts))
      (hall : Sections id set asked sections) :
      Stage id q e (set ++ [parts]) asked (headersFrames sections)
  | writes {e : EncodedH3Stream} {set : List Parts} {asked : List QpackEncoder}
      {sections : List Bytes} {parts : Parts} {q₀ : QpackEncoder}
      {ins : Option Bytes} {message : EncHeaders} (hstate : e.state = .encodingHeadersPayload)
      (hmessage : e.headersMessage = some message)
      (hframe : e.currentFrame = some { ty := headersFrameType, payload := .headers parts ins })
      (hcarries : Carries id parts q₀ message.fields)
      (hall : Sections id set asked sections) :
      Stage id q e (set ++ [parts]) (asked ++ [q₀]) (headersFrames sections ++
        headersHead message.fields ++ message.fields.take message.reprOffset)

theorem Stage.other {id : ℕ} {q q' : QpackEncoder} {e : EncodedH3Stream} {set : List Parts}
    {asked : List QpackEncoder} {sent : Bytes} (h : Stage id q e set asked sent)
    (hstate : e.state ≠ .encodingHeadersFrame) : Stage id q' e set asked sent := by
  cases h with
  | rest hrest hmessage hall => exact .rest hrest hmessage hall
  | waits hwaits => exact (hstate hwaits).elim
  | writes hstate hmessage hframe hcarries hall => exact .writes hstate hmessage hframe hcarries hall

theorem Stage.written {id : ℕ} {q : QpackEncoder} {e : EncodedH3Stream} {set : List Parts}
    {asked : List QpackEncoder} {sections : List Bytes} {parts : Parts} {q₀ : QpackEncoder}
    {ins : Option Bytes} {message : EncHeaders} (hstate : e.state = .encodingHeadersPayload)
    (hframe : e.currentFrame = some { ty := headersFrameType, payload := .headers parts ins })
    (hcarries : Carries id parts q₀ message.fields) (hall : Sections id set asked sections) :
    Stage id q (e.afterWrite message) (set ++ [parts]) (asked ++ [q₀]) (headersFrames sections ++
      headersHead message.fields ++ message.fields.take message.reprOffset) := by
  rw [afterWrite]
  split
  · rename_i hdone
    have hwhole : message.fields.take message.reprOffset = message.fields :=
      take_of_length_le (Nat.le_of_sub_eq_zero hdone.1)
    rw [hwhole, append_assoc, ← headersOctets, ← headersFrames_append]
    exact .rest (.inr rfl) rfl (.concat hall hcarries)
  · exact .writes hstate rfl hframe hcarries hall

theorem Stage.encode {id room instRoom : ℕ} {q : QpackEncoder} {e : EncodedH3Stream}
    {set : List Parts} {asked : List QpackEncoder} {sent : Bytes} (h : Stage id q e set asked sent)
    (hid : e.streamId = id)
    (hroom : 1024 ≤ room) :
    (e.encodeLoop room instRoom room q []).2 = .error .panic ∨
      ∃ e' q' frame inst, e.encodeLoop room instRoom room q [] = ((e', q'), .ok (frame, inst)) ∧
        e'.streamId = id ∧ Stage id q' e' set
          (if e.state = .encodingHeadersFrame then asked ++ [q] else asked) (sent ++ frame) ∧
        e'.state ≠ .encodingHeadersFrame ∧ (e.state ≠ .encodingHeadersFrame → q' = q) := by
  obtain ⟨fuel, rfl⟩ : ∃ fuel, room = fuel + 2 := ⟨room - 2, by omega⟩
  have hafter : ∀ (e : EncodedH3Stream) (message : EncHeaders),
      (e.afterWrite message).streamId = e.streamId := by
    intro e message
    rw [afterWrite]
    split <;> rfl
  have hstate' : ∀ (e : EncodedH3Stream) (message : EncHeaders),
      e.state = .encodingHeadersPayload → (e.afterWrite message).state ≠ .encodingHeadersFrame := by
    intro e message hstate
    rw [afterWrite]
    split
    · exact fun heq => by cases heq
    · rw [hstate]
      exact fun heq => by cases heq
  cases h with
  | rest hrest hmessage hall =>
    have hstate : e.state ≠ .encodingHeadersFrame := by
      rcases hrest with hstate | hstate <;> rw [hstate] <;> decide
    refine .inr ⟨e, q, [], [], hrest.encodeLoop, hid, ?_, hstate, fun _ => rfl⟩
    rw [append_nil, if_neg hstate]
    exact .rest hrest hmessage hall
  | waits hstate hmessage hframe hq hall =>
    rename_i parts ins
    rcases @encodeLoop_headersFrame e q (fuel + 2) instRoom fuel parts ins
      hstate hframe hmessage hroom with ⟨-, hpanic⟩ | ⟨q', fields, inst, henc, hcases⟩
    · exact .inl hpanic
    · rcases hcases with ⟨-, hpanic⟩ | ⟨-, hloop⟩
      · exact .inl hpanic
      · refine .inr ⟨_, q', _, _, hloop, ?_, ?_, hstate' _ _ rfl, fun hne => (hne hstate).elim⟩
        · rw [hafter]
          exact hid
        · have hcarries : Carries id parts q fields := ⟨hq, q', inst, hid ▸ henc⟩
          rw [if_pos hstate]
          have hwritten := @Stage.written id q' { e with state := .encodingHeadersPayload } _ _ _
            parts _ ins (wrote (.new fields inst)
              (fields.take (fuel + 2 - (headersHead fields).length)) (inst.take instRoom))
            rfl hframe hcarries hall
          have htake : fields.take (0 + (fields.take (fuel + 2 - (headersHead fields).length)).length) =
              fields.take (fuel + 2 - (headersHead fields).length) := by
            rw [Nat.zero_add, length_take, ← take_take, take_length]
          simp only [wrote, EncHeaders.new, htake] at hwritten ⊢
          rwa [append_assoc] at hwritten
  | writes hstate hmessage hframe hcarries hall =>
    rename_i set asked sections parts q₀ ins message
    have hloop := @encodeLoop_headersPayload e q (fuel + 2) instRoom (fuel + 1) []
      message headersFrameType parts ins hstate hframe hmessage (by simp)
    refine .inr ⟨_, q, _, _, hloop, ?_, ?_, hstate' _ _ hstate, fun _ => rfl⟩
    · rw [hafter]
      exact hid
    · rw [if_neg (by rw [hstate]; decide)]
      have hwritten := @Stage.written id q e _ _ _ parts _ ins
        (wrote message ((message.fields.drop message.reprOffset).take (fuel + 2))
          ((message.inst.drop message.instOffset).take instRoom)) hstate hframe hcarries hall
      have htake : message.fields.take (message.reprOffset +
          ((message.fields.drop message.reprOffset).take (fuel + 2)).length) =
          message.fields.take message.reprOffset ++
            (message.fields.drop message.reprOffset).take (fuel + 2) := by
        rw [take_add, length_take, ← take_take, take_length]
      simp only [wrote, htake] at hwritten ⊢
      simpa only [append_assoc, nil_append, length_nil, Nat.sub_zero] using hwritten

/-! ## Runs -/

structure Inv (t : Traffic) : Prop where
  stage : ∀ id stream, t.encoder.streams.lookup id = some stream →
    stream.streamId = id ∧
      Stage id t.encoder.qpackEncoder stream (t.set id) (t.asked id) (t.sent id)
  unused : ∀ id, t.encoder.streams.lookup id = none →
    t.set id = [] ∧ t.asked id = [] ∧ t.sent id = []
  one : ∀ id id', t.Waits id → t.Waits id' → id = id'

theorem Inv.new (qpackEncoder : QpackEncoder) : Inv (.new qpackEncoder) := by
  refine ⟨fun id stream h => ?_, fun _ _ => ⟨rfl, rfl, rfl⟩, ?_⟩
  · cases h
  · rintro id id' ⟨stream, h, -⟩
    cases h

/-- The stream as `set_frame` finds it. -/
def found (t : Traffic) (id : ℕ) : EncodedH3Stream := (t.encoder.streams.lookup id).getD (.new id)

theorem Inv.found (h : t.Inv) (id : ℕ) : (t.found id).streamId = id ∧
    Stage id t.encoder.qpackEncoder (t.found id) (t.set id) (t.asked id) (t.sent id) := by
  rw [Traffic.found]
  cases hget : t.encoder.streams.lookup id with
  | some stream => exact h.stage id stream hget
  | none =>
    obtain ⟨hset, hasked, hsent⟩ := h.unused id hget
    refine ⟨rfl, ?_⟩
    rw [hset, hasked, hsent]
    exact .rest (.inl rfl) rfl .nil

theorem setFrame_rest (h : (t.found id).AtRest) :
    t.encoder.setFrame id { ty := headersFrameType, payload := .headers parts ins } =
      ({ qpackEncoder := t.encoder.qpackEncoder.setParts parts
         streams := t.encoder.streams.insert id { t.found id with
           currentFrame := some { ty := headersFrameType, payload := .headers parts ins }
           state := .encodingHeadersFrame } }, .ok ()) := by
  have hidle : ¬ ((t.found id).state ≠ .idle ∧ (t.found id).state ≠ .frameComplete) := by
    rintro ⟨hidle, hcomp⟩
    exact h.elim hidle hcomp
  rw [setFrame]
  rw [found] at hidle
  simp only [hidle, if_false, if_true]
  rfl

theorem setFrame_busy {frame : Frame} (h : ¬ (t.found id).AtRest) :
    t.encoder.setFrame id frame =
      ({ t.encoder with streams := t.encoder.streams.insert id (t.found id) },
        .error (.encode .repeatSetFrame)) := by
  have hbusy : (t.found id).state ≠ .idle ∧ (t.found id).state ≠ .frameComplete := not_or.mp h
  rw [setFrame]
  rw [found] at hbusy ⊢
  simp only [hbusy, ne_eq, not_false_eq_true, and_self, if_true]

theorem Inv.setFrame (h : t.Inv) (halone : t.Alone (.setFrame id parts ins))
    (hcall : t.call (.setFrame id parts ins) = some t') : t'.Inv := by
  obtain ⟨hid, hstage⟩ := h.found id
  by_cases hrest : (t.found id).AtRest
  · rw [call, setFrame_rest hrest] at hcall
    cases hcall
    have hmessage : (t.found id).headersMessage = none ∧ ∃ sections,
        Sections id (t.set id) (t.asked id) sections ∧ t.sent id = headersFrames sections := by
      generalize t.set id = set at hstage ⊢
      generalize t.asked id = asked at hstage ⊢
      generalize t.sent id = sent at hstage ⊢
      cases hstage with
      | rest _ hmessage hall => exact ⟨hmessage, _, hall, rfl⟩
      | waits hstate | writes hstate =>
        rcases hrest with hidle | hidle <;> rw [hstate] at hidle <;> cases hidle
    obtain ⟨hmessage, sections, hall, hsent⟩ := hmessage
    refine ⟨fun x stream hget => ?_, fun x hget => ?_, ?_⟩
    · by_cases hx : x = id
      · subst hx
        rw [lookup_insert] at hget
        cases hget
        refine ⟨hid, ?_⟩
        dsimp only
        rw [Function.update_self, hsent]
        exact .waits rfl hmessage rfl rfl hall
      · rw [lookup_insert_ne hx] at hget
        obtain ⟨hx', hold⟩ := h.stage x stream hget
        refine ⟨hx', ?_⟩
        dsimp only
        rw [Function.update_of_ne hx]
        exact hold.other fun hstate => halone x hx ⟨stream, hget, hstate⟩
    · by_cases hx : x = id
      · subst hx
        rw [lookup_insert] at hget
        cases hget
      · rw [lookup_insert_ne hx] at hget
        dsimp only
        rw [Function.update_of_ne hx]
        exact h.unused x hget
    · have honly : ∀ x, Traffic.Waits { t with
          encoder := { qpackEncoder := t.encoder.qpackEncoder.setParts parts
                       streams := t.encoder.streams.insert id { t.found id with
                         currentFrame := some { ty := headersFrameType, payload := .headers parts ins }
                         state := .encodingHeadersFrame } }
          set := Function.update t.set id (t.set id ++ [parts]) } x → x = id := by
        rintro x ⟨stream, hget, hstate⟩
        by_contra hx
        rw [lookup_insert_ne hx] at hget
        exact halone x hx ⟨stream, hget, hstate⟩
      intro x x' hx hx'
      rw [honly x hx, honly x' hx']
  · rw [call, setFrame_busy hrest] at hcall
    cases hcall
    have hlookups : ∀ x stream, (t.encoder.streams.insert id (t.found id)).lookup x = some stream →
        t.encoder.streams.lookup x = some stream := by
      intro x stream hget
      by_cases hx : x = id
      · subst hx
        rw [lookup_insert] at hget
        cases hget
        rw [Traffic.found] at hrest ⊢
        cases hold : t.encoder.streams.lookup x with
        | some stream => rfl
        | none =>
          rw [hold] at hrest
          exact (hrest (.inl rfl)).elim
      · rwa [lookup_insert_ne hx] at hget
    refine ⟨fun x stream hget => h.stage x stream (hlookups x stream hget), fun x hget => ?_, ?_⟩
    · by_cases hx : x = id
      · subst hx
        rw [lookup_insert] at hget
        cases hget
      · rw [lookup_insert_ne hx] at hget
        exact h.unused x hget
    · rintro x x' ⟨stream, hget, hstate⟩ ⟨stream', hget', hstate'⟩
      exact h.one x x' ⟨stream, hlookups x stream hget, hstate⟩
        ⟨stream', hlookups x' stream' hget', hstate'⟩

theorem Inv.encode {id room instRoom : ℕ} (h : t.Inv)
    (hcall : t.call (.encode id room instRoom) = some t') : t'.Inv := by
  by_cases hroom : room < 1024
  · simp only [call, FrameEncoder.encode, hroom, if_true, some.injEq] at hcall
    exact hcall ▸ h
  · cases hget : t.encoder.streams.lookup id with
    | none =>
      simp only [call, FrameEncoder.encode, hroom, if_false, hget, some.injEq] at hcall
      exact hcall ▸ h
    | some stream =>
      obtain ⟨hid, hstage⟩ := h.stage id stream hget
      simp only [call, FrameEncoder.encode, hroom, if_false, hget] at hcall
      have hwaits : t.waits id = decide (stream.state = .encodingHeadersFrame) := by
        rw [waits, hget, any_some]
      rcases @Stage.encode id room instRoom _ stream _ _ _ hstage hid (Nat.not_lt.mp hroom) with
        hpanic | ⟨e', q', frame, inst, hloop, hid', hstage', hdone, hq⟩
      · rw [hpanic] at hcall
        cases hcall
      · rw [hloop] at hcall
        cases hcall
        have hasked (x : ℕ) (hx : x ≠ id) : (if t.waits id then
            Function.update t.asked id (t.asked id ++ [t.encoder.qpackEncoder])
          else t.asked) x = t.asked x := by
          split_ifs
          · exact Function.update_of_ne hx _ _
          · rfl
        refine ⟨fun x stream' hget' => ?_, fun x hget' => ?_, ?_⟩
        · by_cases hx : x = id
          · subst hx
            rw [lookup_modify_self, hget] at hget'
            cases hget'
            dsimp only
            rw [Function.update_self, hwaits]
            refine ⟨hid', ?_⟩
            simp only [decide_eq_true_eq]
            split_ifs at hstage' ⊢
            · rwa [Function.update_self]
            · exact hstage'
          · rw [lookup_modify_of_ne hx] at hget'
            obtain ⟨hx', hold⟩ := h.stage x stream' hget'
            dsimp only
            rw [Function.update_of_ne hx, hasked x hx]
            refine ⟨hx', ?_⟩
            by_cases hwaits : stream'.state = .encodingHeadersFrame
            · have hne : stream.state ≠ .encodingHeadersFrame := fun hstate =>
                hx (h.one x id ⟨stream', hget', hwaits⟩ ⟨stream, hget, hstate⟩)
              rw [hq hne]
              exact hold
            · exact hold.other hwaits
        · have hx : x ≠ id := by
            rintro rfl
            rw [lookup_modify_self, hget] at hget'
            cases hget'
          rw [lookup_modify_of_ne hx] at hget'
          dsimp only
          rw [Function.update_of_ne hx, hasked x hx]
          exact h.unused x hget'
        · have hold (t' : Traffic) (ht' : t'.encoder.streams =
              modify id (fun _ => e') t.encoder.streams) (x : ℕ) (hwaits' : t'.Waits x) :
              t.Waits x := by
            obtain ⟨stream', hget', hstate'⟩ := hwaits'
            rw [ht'] at hget'
            by_cases hx : x = id
            · subst hx
              rw [lookup_modify_self, hget] at hget'
              cases hget'
              exact (hdone hstate').elim
            · rw [lookup_modify_of_ne hx] at hget'
              exact ⟨stream', hget', hstate'⟩
          exact fun x x' hx hx' => h.one x x' (hold _ rfl x hx) (hold _ rfl x' hx')

theorem Inv.calls {cs : List HeadersCall} (h : t.Inv) (halone : t.AllAlone cs)
    (hcalls : t.calls cs = some t') : t'.Inv := by
  induction cs generalizing t with
  | nil => exact some.inj hcalls ▸ h
  | cons c cs ih =>
    obtain ⟨t₁, hcall, hcalls⟩ := bind_eq_some_iff.mp hcalls
    refine ih ?_ (halone.2 t₁ hcall) hcalls
    cases c with
    | setFrame id parts ins => exact h.setFrame halone.1 hcall
    | encode id room instRoom => exact h.encode hcall

theorem Stage.carried {q : QpackEncoder} {e : EncodedH3Stream} {set : List Parts}
    {asked : List QpackEncoder} {sent : Bytes} (h : Stage id q e set asked sent) :
    ∃ sections, Sections id (set.take sections.length) asked sections ∧
      sent <+: headersFrames sections ∧
      (e.AtRest → sections.length = set.length ∧ sent = headersFrames sections) := by
  cases h with
  | @rest _ _ sections hrest hmessage hall =>
    refine ⟨sections, ?_, prefix_refl _, fun _ => ⟨hall.length_eq.1.symm, rfl⟩⟩
    rwa [← hall.length_eq.1, take_length]
  | @waits _ _ sections parts ins hstate hmessage hframe hq hall =>
    refine ⟨sections, ?_, prefix_refl _, fun hrest => ?_⟩
    · rwa [← hall.length_eq.1, take_left]
    · rcases hrest with hidle | hidle <;> rw [hstate] at hidle <;> cases hidle
  | @writes set _ sections parts _ ins message hstate hmessage hframe hcarries hall =>
    refine ⟨sections ++ [message.fields], ?_, ?_, fun hrest => ?_⟩
    · have hlen : (sections ++ [message.fields]).length = (set ++ [parts]).length := by
        simp [hall.length_eq.1]
      rw [hlen, take_length]
      exact .concat hall hcarries
    · rw [headersFrames_append, headersOctets, append_assoc]
      exact (prefix_append_right_inj _).mpr
        ((prefix_append_right_inj _).mpr (List.take_prefix _ _))
    · rcases hrest with hidle | hidle <;> rw [hstate] at hidle <;> cases hidle

/-- In a run in which no HEADERS frame is set while the parts of another stream wait, every
stream gets the header blocks of its own frames, in order and whole. -/
theorem headers_not_mixed {qpackEncoder : QpackEncoder} {cs : List HeadersCall}
    (halone : (Traffic.new qpackEncoder).AllAlone cs)
    (hcalls : (Traffic.new qpackEncoder).calls cs = some t) (id : ℕ) : t.Carried id := by
  have hinv := (Inv.new qpackEncoder).calls halone hcalls
  cases hget : t.encoder.streams.lookup id with
  | some stream =>
    obtain ⟨sections, hall, hsent, hrest⟩ := (hinv.stage id stream hget).2.carried
    refine ⟨sections, hall, hsent, fun stream' hget' => ?_⟩
    cases hget.symm.trans hget'
    exact hrest
  | none =>
    obtain ⟨-, hasked, hsent⟩ := hinv.unused id hget
    refine ⟨[], hasked ▸ .nil, hsent ▸ List.nil_prefix, fun stream hget' => ?_⟩
    rw [hget] at hget'
    cases hget'

/-! ## Two requests -/

def methodParts (method : Bytes) : Parts :=
  { pseudo := { PseudoHeaders.new with method := some method }, map := .new }

theorem carries_method {index : ℕ} {method fields : Bytes}
    (hidx : Qpack.staticIndex .method method = .field index)
    {q : QpackEncoder} (h : Carries id (methodParts method) q fields) :
    fields = 0 :: 0 :: Qpack.indexed index true := by
  obtain ⟨hiter, q', inst, henc⟩ := h
  have hflds : partsFields (methodParts method) = [(.method, method)] := rfl
  rw [QpackEncoder.encode] at henc
  obtain ⟨⟨q₁, inst₁⟩, hcap, henc⟩ := bind_eq_some_iff.mp henc
  have hiter₁ : q₁.fieldIter = some [(.method, method)] := by
    rw [QpackEncoder.updateMaxDynamicTableCap] at hcap
    split at hcap
    · obtain ⟨rfl, -⟩ := Prod.mk.inj (some.inj hcap)
      rw [hiter, hflds]
    · obtain ⟨⟨table, updated⟩, -, heq⟩ := map_eq_some_iff.mp hcap
      dsimp only at heq
      split at heq <;> obtain ⟨rfl, -⟩ := Prod.mk.inj heq <;> exact hiter.trans (congrArg some hflds)
  obtain ⟨r, hr, hpre⟩ := bind_eq_some_iff.mp henc
  have hsearch : ∀ table allowBlock,
      Qpack.searchFiledFromTable table .method method allowBlock = .staticIndex index := by
    intro table allowBlock
    rw [Qpack.searchFiledFromTable, hidx]
  simp only [hiter₁, getD_some, Qpack.ReprEncoder.encodeFields,
    Qpack.ReprEncoder.encodeField, hsearch, bind_some, some.injEq] at hr
  subst hr
  obtain ⟨sectionPrefix, hsection, heq⟩ := map_eq_some_iff.mp hpre
  have hzero : sectionPrefix = [0, 0] := by
    have hnone : Qpack.ReprEncoder.getPrefix ((QpackEncoder.startSection q₁ inst₁).write
        (Qpack.indexed index true)) = some [0, 0] := rfl
    exact (some.inj (hnone.symm.trans hsection)).symm
  obtain ⟨-, heq⟩ := Prod.mk.inj heq
  obtain ⟨rfl, -⟩ := Prod.mk.inj heq
  rw [hzero]
  rfl

theorem alone_of_entries
    (h : ∀ e ∈ t.encoder.streams.entries, e.1 = id ∨ e.2.state ≠ .encodingHeadersFrame) :
    t.Alone (.setFrame id parts ins) := by
  rintro x hx ⟨stream, hget, hstate⟩
  rcases h ⟨x, stream⟩ (mem_lookup_iff.mp hget) with heq | hne
  · exact hx heq
  · exact hne hstate

def turns : List HeadersCall :=
  [.setFrame 0 (methodParts (str "GET")) none, .encode 0 1024 1024,
    .setFrame 4 (methodParts (str "POST")) none, .encode 4 1024 1024]

theorem headers_not_mixed_turns : ∃ t, (Traffic.new .default).calls turns = some t ∧
    t.sent 0 = [1, 3, 0, 0, 0xd1] ∧ t.Carried 0 := by
  obtain ⟨t, hcalls, hsent⟩ : ∃ t, (Traffic.new .default).calls turns = some t ∧
      t.sent 0 = [1, 3, 0, 0, 0xd1] := ⟨_, rfl, rfl⟩
  refine ⟨t, hcalls, hsent, headers_not_mixed ?_ hcalls 0⟩
  refine ⟨alone_of_entries (fun e he => by cases he), ?_⟩
  rintro _ ⟨⟩
  refine ⟨trivial, ?_⟩
  rintro _ ⟨⟩
  refine ⟨alone_of_entries ?_, ?_⟩
  · intro e he
    obtain rfl := mem_singleton.mp he
    exact .inr fun hstate => by cases hstate
  · rintro _ ⟨⟩
    exact ⟨trivial, fun _ _ => trivial⟩

/-- A request that is set before the other was encoded: its header block goes to the stream of
the other. -/
theorem headers_mixed : ∃ t, (Traffic.new .default).calls
    [.setFrame 0 (methodParts (str "GET")) none, .setFrame 4 (methodParts (str "POST")) none,
      .encode 0 1024 1024, .encode 4 1024 1024] = some t ∧
      t.sent 0 = [1, 3, 0, 0, 0xd4] ∧ t.sent 4 = [1, 2, 0, 0] ∧ ¬ t.Carried 0 := by
  refine ⟨_, rfl, rfl, rfl, ?_⟩
  rintro ⟨sections, hall, -, hrest⟩
  obtain ⟨hlen, hsent⟩ := hrest _ rfl (.inr rfl)
  obtain ⟨fields, rfl⟩ := length_eq_one_iff.mp hlen
  obtain ⟨q, hcarries⟩ := hall.single
  have hidx : Qpack.staticIndex .method (str "GET") = .field 17 := by decide
  rw [carries_method hidx hcarries] at hsent
  revert hsent
  decide

end Traffic

end YlongHttp.H3
