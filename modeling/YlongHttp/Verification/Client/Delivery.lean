import YlongHttp.Verification.Client.Keeping
import YlongHttp.Verification.Client.Runs

/-! # What reaches the task that waits for a response

A frame that a stream accepts is put in the channel of the stream, or waits for room in it. What
was handed to a stream so far are the frames it has accepted, in their order, and behind them
the error that ends it. -/

namespace YlongHttp

open List Streams RespMessage AList
open Library

def RespMessage.isExit : RespMessage → Bool
  | .output _ => false
  | .outputExit _ => true

def outputs (frames : List Frame) (id : StreamId) : List RespMessage :=
  (frames.filter fun frame => frame.id = id).map .output

theorem outputs_append (frames frames' : List Frame) (id : StreamId) :
    outputs (frames ++ frames') id = outputs frames id ++ outputs frames' id := by
  simp [outputs]

theorem outputs_self (frame : Frame) : outputs [frame] frame.id = [.output frame] := by
  simp [outputs]

theorem outputs_of_ne {frame : Frame} {id : StreamId} (h : id ≠ frame.id) :
    outputs [frame] id = [] := by
  simp [outputs, Ne.symm h]

/-- The frames of the server that a log has, the last one first. -/
def arrivals (log : List Entry) : List Frame :=
  log.filterMap fun
    | .received frame => some frame
    | _ => none

namespace ConnManager

variable {message : RespMessage} {r : Poll (Except H2Error Unit)} {exits : List DispatchErrorKind}
  {s' streams : Streams} {frame : Frame} {kind : DispatchErrorKind} {key : StreamId}
  {settings : List Setting}

def inChannel (m : ConnManager) (id : StreamId) : List RespMessage :=
  (m.responses.reverse.filter fun entry => entry.1 = id).map Prod.snd

def handed (m : ConnManager) (id : StreamId) : List RespMessage :=
  m.inChannel id ++ (m.currMessage.lookup id).toList

/-- The messages of a stream are its accepted frames in their order and at most one error. A
task that is gone has got the first of them. -/
structure OrderAt (m : ConnManager) (frames : List Frame) (id : StreamId)
    (exits : List DispatchErrorKind) : Prop where
  length : exits.length ≤ 1
  heard : id ∈ m.senders → m.handed id = outputs frames id ++ exits.map .outputExit
  unheard : id ∉ m.senders → m.currMessage.lookup id = none ∧
    m.inChannel id <+: outputs frames id ++ exits.map .outputExit

/-- What waits for the caller of the stream is in the order of `frames`. -/
def InOrder (m : ConnManager) (frames : List Frame) (id : StreamId) : Prop :=
  ∃ exits, m.OrderAt frames id exits

structure Orderly (m : ConnManager) (frames : List Frame) : Prop where
  nodup : m.senders.Nodup
  next : ∀ id, m.streams.nextStreamId ≤ id → m.streams.streamMap.lookup id = none
  unused : ∀ id, m.streams.streamMap.lookup id = none →
    id ∉ m.senders ∧ m.inChannel id = [] ∧ outputs frames id = []
  inOrder : ∀ id, ∃ exits, m.OrderAt frames id exits ∧ (exits ≠ [] → m.streams.ClosedAt id)

variable {m m' : ConnManager} {frames : List Frame} {env : Environment} {id : StreamId}

/-! ## Handing over -/

theorem inChannel_cons {responses : List (StreamId × RespMessage)}
    (hresponses : m'.responses = (id, message) :: responses) (hm : m.responses = responses)
    (id' : StreamId) :
    m'.inChannel id' = m.inChannel id' ++ if id = id' then [message] else [] := by
  simp only [inChannel, hresponses, hm, reverse_cons, filter_append, map_append]
  by_cases h : id = id' <;> simp [h]

/-- What handing a message to a stream does: the message is the last one of the stream, or the
task of the stream is gone. -/
structure Hands (m m' : ConnManager) (id : StreamId) (message : RespMessage) : Prop where
  streams : m'.streams = m.streams
  nodup : m.senders.Nodup → m'.senders.Nodup
  others : ∀ id' ≠ id, m'.inChannel id' = m.inChannel id' ∧
    m'.currMessage.lookup id' = m.currMessage.lookup id' ∧ (id' ∈ m'.senders ↔ id' ∈ m.senders)
  result : m.senders.Nodup →
    (id ∈ m.senders ∧ id ∈ m'.senders ∧ m'.handed id = m.handed id ++ [message]) ∨
      (id ∉ m'.senders ∧ m'.inChannel id = m.inChannel id ∧ m'.currMessage.lookup id = none)

theorem sendMessageToStream_hands (env : Environment) (message : RespMessage)
    (hfree : m.currMessage.lookup id = none) :
    Hands m (m.sendMessageToStream env id message).1 id message := by
  rw [sendMessageToStream]
  split
  · rename_i hmem
    split
    · refine ⟨rfl, fun h => h, fun id' hid' => ⟨?_, rfl, .rfl⟩, fun _ => .inl ⟨hmem, hmem, ?_⟩⟩
      · rw [inChannel_cons rfl rfl, if_neg (Ne.symm hid'), append_nil]
      · simp only [handed, hfree, Option.toList_none, append_nil]
        rw [inChannel_cons rfl rfl, if_pos rfl]
    · refine ⟨rfl, fun h => h.erase id, fun id' hid' => ⟨rfl, rfl, ?_⟩, fun h => .inr ⟨?_, rfl, hfree⟩⟩
      · exact mem_erase_of_ne hid'
      · exact h.not_mem_erase
    · refine ⟨rfl, fun h => h, fun id' hid' => ⟨rfl, ?_, .rfl⟩, fun _ => .inl ⟨hmem, hmem, ?_⟩⟩
      · exact lookup_insert_ne hid'
      · simp only [handed, hfree, lookup_insert, Option.toList_none, append_nil, Option.toList_some]
        rfl
  · rename_i hmem
    exact ⟨rfl, fun h => h, fun id' _ => ⟨rfl, rfl, .rfl⟩, fun _ => .inr ⟨hmem, rfl, hfree⟩⟩

theorem sendMessageToStream_ready {r : Except H2Error Unit}
    (h : m.sendMessageToStream env id message = (m', .ready r)) :
    m'.currMessage = m.currMessage := by
  rw [sendMessageToStream] at h
  split at h
  · split at h <;> cases h <;> rfl
  · cases h
    rfl

theorem OrderAt.exits_eq_nil (h : m.OrderAt frames id exits) (hmem : id ∈ m.senders)
    (huntold : ∀ message ∈ m.handed id, message.isExit = false) : exits = [] := by
  cases exits with
  | nil => rfl
  | cons kind exits =>
    have hin : outputExit kind ∈ m.handed id := by
      rw [h.heard hmem]
      simp
    exact absurd (huntold _ hin) (by simp [isExit])

theorem Orderly.output (h : m.Orderly frames) (hkeeps : m.streams.Keeps streams)
    (hknown : (m.streams.streamMap.lookup frame.id).isSome) (hopen : ¬ m.streams.ClosedAt frame.id)
    (hfree : m.currMessage.lookup frame.id = none)
    (hhands : Hands { m with streams } m' frame.id (.output frame)) :
    m'.Orderly (frames ++ [frame]) := by
  have hnodup := hhands.nodup h.nodup
  refine ⟨hnodup, fun id hid => ?_, fun id hid => ?_, fun id => ?_⟩
  · rw [hhands.streams, hkeeps.lookup_eq_none]
    refine h.next id ?_
    rwa [hhands.streams, hkeeps.nextStreamId] at hid
  · rw [hhands.streams, hkeeps.lookup_eq_none] at hid
    have hne : id ≠ frame.id := by
      rintro rfl
      rw [hid] at hknown
      cases hknown
    obtain ⟨hsenders, hchan, houtputs⟩ := h.unused id hid
    obtain ⟨hsame, -, hiff⟩ := hhands.others id hne
    exact ⟨fun hmem => hsenders (hiff.mp hmem), hsame.trans hchan,
      by rw [outputs_append, houtputs, outputs_of_ne hne, append_nil]⟩
  · obtain ⟨exits, horder, hclosed⟩ := h.inOrder id
    by_cases hne : id = frame.id
    · subst hne
      obtain rfl : exits = [] := by
        by_contra hexits
        exact hopen (hclosed hexits)
      refine ⟨[], ⟨by simp, ?_, ?_⟩, fun h => absurd rfl h⟩
      · intro hmem
        rcases hhands.result h.nodup with ⟨hbefore, -, hhanded⟩ | ⟨hgone, -, -⟩
        · have hold := horder.heard hbefore
          have hsame : ({ m with streams } : ConnManager).handed frame.id = m.handed frame.id := rfl
          rw [hhanded, hsame, hold, outputs_append, outputs_self]
          simp
        · exact absurd hmem hgone
      · intro hmem
        rcases hhands.result h.nodup with ⟨-, hafter, -⟩ | ⟨-, hchan, hget⟩
        · exact absurd hafter hmem
        · refine ⟨hget, ?_⟩
          rw [hchan, outputs_append]
          have hpre : m.inChannel frame.id <+: outputs frames frame.id := by
            by_cases hbefore : frame.id ∈ m.senders
            · have hold := horder.heard hbefore
              rw [handed, hfree] at hold
              simp only [Option.toList_none, append_nil, map_nil] at hold
              rw [hold]
            · simpa using (horder.unheard hbefore).2
          rw [map_nil, append_nil]
          exact hpre.trans (prefix_append _ _)
    · obtain ⟨hchan, hget, hiff⟩ := hhands.others id hne
      refine ⟨exits, ⟨horder.length, fun hmem => ?_, fun hmem => ?_⟩, fun hexits => ?_⟩
      · have hold := horder.heard (hiff.mp hmem)
        rw [handed, hchan, hget, outputs_append, outputs_of_ne hne, append_nil]
        exact hold
      · have hold := horder.unheard fun hbefore => hmem (hiff.mpr hbefore)
        rw [hchan, hget, outputs_append, outputs_of_ne hne, append_nil]
        exact hold
      · rw [hhands.streams]
        exact hkeeps.closed id (hclosed hexits)

theorem Orderly.exit (h : m.Orderly frames) (hclosed : m.streams.ClosedAt id)
    (hfree : m.currMessage.lookup id = none)
    (huntold : id ∈ m.senders → ∀ message ∈ m.handed id, message.isExit = false)
    (hhands : Hands m m' id (.outputExit kind)) : m'.Orderly frames := by
  refine ⟨hhands.nodup h.nodup, ?_, fun id' hid' => ?_, fun id' => ?_⟩
  · rw [hhands.streams]
    exact h.next
  · rw [hhands.streams] at hid'
    have hne : id' ≠ id := by
      rintro rfl
      obtain ⟨stream, hget, -⟩ := hclosed
      rw [hid'] at hget
      cases hget
    obtain ⟨hsenders, hchan, houtputs⟩ := h.unused id' hid'
    obtain ⟨hsame, -, hiff⟩ := hhands.others id' hne
    exact ⟨fun hmem => hsenders (hiff.mp hmem), hsame.trans hchan, houtputs⟩
  · obtain ⟨exits, horder, hexits⟩ := h.inOrder id'
    by_cases hne : id' = id
    · subst hne
      rcases hhands.result h.nodup with ⟨hbefore, hafter, hhanded⟩ | ⟨hgone, hchan, hget⟩
      · obtain rfl := horder.exits_eq_nil hbefore (huntold hbefore)
        refine ⟨[kind], ⟨by simp, fun _ => ?_, fun hmem => absurd hafter hmem⟩, fun _ => ?_⟩
        · rw [hhanded, horder.heard hbefore]
          simp
        · rw [hhands.streams]
          exact hclosed
      · refine ⟨exits, ⟨horder.length, fun hmem => absurd hmem hgone, fun _ => ⟨hget, ?_⟩⟩,
          fun _ => by rw [hhands.streams]; exact hclosed⟩
        rw [hchan]
        by_cases hbefore : id' ∈ m.senders
        · have hold := horder.heard hbefore
          rw [handed, hfree] at hold
          simp only [Option.toList_none, append_nil] at hold
          rw [hold]
        · exact (horder.unheard hbefore).2
    · obtain ⟨hchan, hget, hiff⟩ := hhands.others id' hne
      refine ⟨exits, ⟨horder.length, fun hmem => ?_, fun hmem => ?_⟩, fun h => ?_⟩
      · rw [handed, hchan, hget]
        exact horder.heard (hiff.mp hmem)
      · rw [hchan, hget]
        exact horder.unheard fun hbefore => hmem (hiff.mpr hbefore)
      · rw [hhands.streams]
        exact hexits h

/-! ## Waiting messages -/

/-- Messages have only moved on to their channels, or were dropped with the tasks they were
for. -/
structure Passes (m m' : ConnManager) : Prop where
  keeps : m.streams.Keeps m'.streams
  nodup : m.senders.Nodup → m'.senders.Nodup
  heard : m.senders.Nodup → ∀ id ∈ m'.senders, id ∈ m.senders ∧ m'.handed id = m.handed id
  unheard : ∀ id, id ∉ m'.senders → (id ∉ m.senders → m.currMessage.lookup id = none) →
    m'.currMessage.lookup id = none ∧ m'.inChannel id <+: m.handed id

theorem Passes.trans {m'' : ConnManager} (hnodup : m.senders.Nodup) (h : m.Passes m')
    (h' : m'.Passes m'') : m.Passes m'' where
  keeps := h.keeps.trans h'.keeps
  nodup hnodup := h'.nodup (h.nodup hnodup)
  heard hnodup id hmem := by
    obtain ⟨hmem', hhanded'⟩ := h'.heard (h.nodup hnodup) id hmem
    obtain ⟨hmem, hhanded⟩ := h.heard hnodup id hmem'
    exact ⟨hmem, hhanded'.trans hhanded⟩
  unheard id hmem hfree := by
    by_cases hmem' : id ∈ m'.senders
    · obtain ⟨hget, hpre⟩ := h'.unheard id hmem fun hnot => absurd hmem' hnot
      exact ⟨hget, (h.heard hnodup id hmem').2 ▸ hpre⟩
    · obtain ⟨hget, hpre⟩ := h.unheard id hmem' hfree
      obtain ⟨hget', hpre'⟩ := h'.unheard id hmem fun _ => hget
      refine ⟨hget', hpre'.trans ?_⟩
      rw [handed, hget]
      simpa using hpre

/-- No frame of the server has been recorded. -/
def Adds (m m' : ConnManager) : Prop := ∃ new, m'.log = new ++ m.log ∧ arrivals new = []

theorem Adds.of_log (h : m'.log = m.log) : Adds m m' := ⟨[], h, rfl⟩

theorem Adds.trans {m'' : ConnManager} (h : Adds m m') (h' : Adds m' m'') : Adds m m'' := by
  obtain ⟨new, hlog, hnew⟩ := h
  obtain ⟨new', hlog', hnew'⟩ := h'
  refine ⟨new' ++ new, by rw [hlog', hlog, append_assoc], ?_⟩
  rw [arrivals, filterMap_append]
  exact (congrArg₂ _ hnew' hnew :)

/-- The messages are where they were. -/
structure Still (m m' : ConnManager) : Prop where
  keeps : m.streams.Keeps m'.streams
  senders : m'.senders = m.senders
  currMessage : m'.currMessage = m.currMessage
  responses : m'.responses = m.responses
  state : m'.state = m.state
  adds : m.Adds m'

theorem Still.refl (m : ConnManager) : m.Still m := ⟨.refl _, rfl, rfl, rfl, rfl, .of_log rfl⟩

theorem Still.trans {m'' : ConnManager} (h : m.Still m') (h' : m'.Still m'') : m.Still m'' :=
  ⟨h.keeps.trans h'.keeps, h'.senders.trans h.senders, h'.currMessage.trans h.currMessage,
    h'.responses.trans h.responses, h'.state.trans h.state, h.adds.trans h'.adds⟩

theorem Still.inChannel (h : m.Still m') (id : StreamId) : m'.inChannel id = m.inChannel id := by
  rw [ConnManager.inChannel, ConnManager.inChannel, h.responses]

theorem Still.handed (h : m.Still m') (id : StreamId) : m'.handed id = m.handed id := by
  rw [ConnManager.handed, ConnManager.handed, h.inChannel, h.currMessage]

theorem Still.passes (h : m.Still m') : m.Passes m' where
  keeps := h.keeps
  nodup := by rw [h.senders]; exact fun h => h
  heard _ id hmem := ⟨h.senders ▸ hmem, h.handed id⟩
  unheard id hmem hfree := by
    rw [h.senders] at hmem
    rw [h.currMessage, h.inChannel]
    exact ⟨hfree hmem, prefix_append _ _⟩

theorem Orderly.turn (h : m.Orderly frames) (state nextState : ManagerState) :
    ({ m with state, nextState } : ConnManager).Orderly frames :=
  ⟨h.nodup, h.next, h.unused, fun id => by
    obtain ⟨exits, horder, hclosed⟩ := h.inOrder id
    exact ⟨exits, ⟨horder.length, horder.heard, horder.unheard⟩, hclosed⟩⟩

theorem Orderly.passes (h : m.Orderly frames) (hpasses : m.Passes m') : m'.Orderly frames := by
  refine ⟨hpasses.nodup h.nodup, fun id hid => ?_, fun id hid => ?_, fun id => ?_⟩
  · rw [hpasses.keeps.lookup_eq_none]
    rw [hpasses.keeps.nextStreamId] at hid
    exact h.next id hid
  · rw [hpasses.keeps.lookup_eq_none] at hid
    obtain ⟨hsenders, hchan, houtputs⟩ := h.unused id hid
    obtain ⟨exits, horder, -⟩ := h.inOrder id
    have hget := (horder.unheard hsenders).1
    have hgone : id ∉ m'.senders := fun hmem => hsenders (hpasses.heard h.nodup id hmem).1
    obtain ⟨-, hpre⟩ := hpasses.unheard id hgone fun _ => hget
    rw [handed, hchan, hget] at hpre
    exact ⟨hgone, by simpa using hpre, houtputs⟩
  · obtain ⟨exits, horder, hclosed⟩ := h.inOrder id
    refine ⟨exits, ⟨horder.length, fun hmem => ?_, fun hmem => ?_⟩,
      fun hexits => hpasses.keeps.closed id (hclosed hexits)⟩
    · obtain ⟨hbefore, hhanded⟩ := hpasses.heard h.nodup id hmem
      rw [hhanded, horder.heard hbefore]
    · obtain ⟨hget, hpre⟩ :=
        hpasses.unheard id hmem fun hnot => (horder.unheard hnot).1
      refine ⟨hget, hpre.trans ?_⟩
      by_cases hbefore : id ∈ m.senders
      · rw [horder.heard hbefore]
      · obtain ⟨hnone, hold⟩ := horder.unheard hbefore
        rw [handed, hnone]
        simpa using hold

theorem sendInput_still (m : ConnManager) (env : Environment) (frame : Frame) :
    m.Still (m.sendInput env frame).1 := by
  rw [sendInput]
  split
  · exact ⟨.refl _, rfl, rfl, rfl, rfl, [.sent frame], rfl, rfl⟩
  · exact .refl m

theorem dropBlocked_passes
    (h : { m with currMessage := m.currMessage.erase key }.dropBlocked env key = .ok m') :
    m.Passes m' ∧ m'.currMessage = m.currMessage.erase key := by
  have hdrop : ∀ m₁ : ConnManager, m.streams.Keeps m₁.streams →
      m₁.senders = m.senders.erase key → m₁.currMessage = m.currMessage.erase key →
      m₁.responses = m.responses →
      m.Passes m₁ ∧ m₁.currMessage = m.currMessage.erase key := by
    intro m₁ hkeeps hsenders hcurr hresponses
    have hchan : ∀ id, m₁.inChannel id = m.inChannel id := fun id => by
      rw [inChannel, inChannel, hresponses]
    refine ⟨⟨hkeeps, fun hnodup => ?_, fun hnodup id hmem => ?_, fun id hmem hnone => ?_⟩, hcurr⟩
    · rw [hsenders]
      exact hnodup.erase key
    · rw [hsenders] at hmem
      have hne : id ≠ key := by
        rintro rfl
        exact hnodup.not_mem_erase hmem
      refine ⟨mem_of_mem_erase hmem, ?_⟩
      rw [handed, handed, hchan, hcurr, lookup_erase_ne hne]
    · rw [hcurr, hchan]
      refine ⟨?_, prefix_append _ _⟩
      by_cases hid : id = key
      · rw [hid, lookup_erase]
      · rw [lookup_erase_ne hid]
        refine hnone fun hin => hmem ?_
        rw [hsenders]
        exact (mem_erase_of_ne hid).mpr hin
  simp only [dropBlocked] at h
  split at h
  · cases h
    exact hdrop _ (.refl _) rfl rfl rfl
  · split at h
    · cases h
      exact hdrop _ (.refl _) rfl rfl rfl
    · obtain ⟨⟨streams, ended⟩, hreset, h⟩ := of_bind_ok h
      have hkeeps := (sendLocalReset_keeps hreset).1
      dsimp only at h
      split at h
      · cases h
        have hstill := sendInput_still
          { m with
            currMessage := m.currMessage.erase key, streams, senders := m.senders.erase key }
          env (rstStream key .noError)
        exact hdrop _ (hkeeps.trans hstill.keeps) hstill.senders hstill.currMessage
          hstill.responses
      · cases h
        exact hdrop _ hkeeps rfl rfl rfl

theorem passes_sent (hget : m.currMessage.lookup key = some message) :
    m.Passes { m with
      currMessage := m.currMessage.erase key, responses := (key, message) :: m.responses } := by
  have hhanded : ∀ id, ({ m with
      currMessage := m.currMessage.erase key
      responses := (key, message) :: m.responses } : ConnManager).handed id = m.handed id := by
    intro id
    rw [handed, handed, inChannel_cons rfl rfl]
    by_cases hid : key = id
    · subst hid
      simp [hget]
    · simp [hid, lookup_erase_ne (Ne.symm hid)]
  refine ⟨.refl _, fun h => h, fun _ id hmem => ⟨hmem, hhanded id⟩, fun id hmem hfree => ?_⟩
  have hnone := hfree hmem
  have hne : id ≠ key := by
    rintro rfl
    rw [hget] at hnone
    cases hnone
  refine ⟨(lookup_erase_ne hne).trans hnone, ?_⟩
  rw [inChannel_cons rfl rfl, if_neg (Ne.symm hne), append_nil]
  exact prefix_append _ _

theorem pollBlocked_passes {keys : List StreamId} {blocked : Bool} (hnodup : m.senders.Nodup)
    (h : pollBlocked env keys m = .ok (m', blocked)) :
    m.Passes m' ∧ (blocked = false → ∀ id, m'.currMessage.lookup id ≠ none →
      m.currMessage.lookup id ≠ none ∧ id ∉ keys) := by
  induction keys generalizing m blocked with
  | nil =>
    cases h
    exact ⟨(Still.refl _).passes, fun _ id hid => ⟨hid, not_mem_nil⟩⟩
  | cons key keys ih =>
    rw [pollBlocked] at h
    split at h
    · rename_i hnone
      obtain ⟨hpasses, hleft⟩ := ih hnodup h
      refine ⟨hpasses, fun hblocked id hid => ?_⟩
      obtain ⟨hbefore, hmem⟩ := hleft hblocked id hid
      refine ⟨hbefore, fun hcons => ?_⟩
      rcases mem_cons.mp hcons with rfl | hcons
      · exact hbefore hnone
      · exact hmem hcons
    · rename_i message hget
      have hrest : ∀ m₁ : ConnManager, m₁.currMessage = m.currMessage.erase key →
          (blocked = false → ∀ id, m'.currMessage.lookup id ≠ none →
            m₁.currMessage.lookup id ≠ none ∧ id ∉ keys) →
          blocked = false → ∀ id, m'.currMessage.lookup id ≠ none →
            m.currMessage.lookup id ≠ none ∧ id ∉ key :: keys := by
        intro m₁ hcurr hleft hblocked id hid
        obtain ⟨hbefore, hmem⟩ := hleft hblocked id hid
        rw [hcurr] at hbefore
        have hne : id ≠ key := by
          rintro rfl
          exact hbefore (lookup_erase _ _)
        rw [lookup_erase_ne hne] at hbefore
        exact ⟨hbefore, by simp [hne, hmem]⟩
      split at h
      · have hsent := passes_sent hget
        obtain ⟨hpasses, hleft⟩ := ih (hsent.nodup hnodup) h
        exact ⟨hsent.trans hnodup hpasses, hrest _ rfl hleft⟩
      · obtain ⟨m₁, hdrop, h⟩ := of_bind_ok h
        obtain ⟨hdropped, hcurr⟩ := dropBlocked_passes hdrop
        obtain ⟨hpasses, hleft⟩ := ih (hdropped.nodup hnodup) h
        exact ⟨hdropped.trans hnodup hpasses, hrest m₁ hcurr hleft⟩
      · obtain ⟨⟨m₁, blocked₁⟩, hpoll, h⟩ := of_bind_ok h
        cases h
        exact ⟨(ih hnodup hpoll).1, fun h => by cases h⟩

/-! ## Handlers that send no message -/

theorem still_streams (h : m.streams.Keeps streams) : m.Still { m with streams } :=
  ⟨h, rfl, rfl, rfl, rfl, .of_log rfl⟩

theorem recvSettings_keeps {s : Streams} {r : Except H2Error Unit}
    (h : recvSettings env settings s = .ok (s', r)) : s.Keeps s' := by
  induction settings generalizing s with
  | nil =>
    cases h
    exact .refl _
  | cons setting settings ih =>
    cases setting with
    | maxConcurrentStreams num =>
      refine Streams.Keeps.trans ?_ (ih h)
      exact .of_map rfl rfl
    | initialWindowSize size =>
      simp only [recvSettings] at h
      cases happly : s.applySendInitialWindowSize env.hash size with
      | error panic => simp [happly] at h
      | ok applied =>
        obtain ⟨s₁, r₁⟩ := applied
        have hkeeps := applySendInitialWindowSize_keeps happly
        cases r₁ with
        | error e =>
          simp only [happly] at h
          cases h
          exact hkeeps
        | ok =>
          simp only [happly] at h
          exact hkeeps.trans (ih h)
    | _ => exact ih h

theorem recvAcknowledged_keeps {s : Streams} (h : recvAcknowledged settings s = .ok s') :
    s.Keeps s' := by
  induction settings generalizing s with
  | nil =>
    cases h
    exact .refl _
  | cons setting settings ih =>
    cases setting with
    | initialWindowSize size =>
      rw [recvAcknowledged] at h
      obtain ⟨s₁, happly, h⟩ := of_bind_ok h
      exact (applyRecvInitialWindowSize_keeps happly).trans (ih h)
    | _ => exact ih h

theorem recvSettingsFrame_still {r : Except DispatchErrorKind Unit}
    (h : m.recvSettingsFrame env frame settings = .ok (m', r)) : m.Still m' := by
  rw [recvSettingsFrame] at h
  split at h
  · obtain ⟨streams, hacknowledge, h⟩ := of_bind_ok h
    cases h
    refine ⟨?_, rfl, rfl, rfl, rfl, .of_log rfl⟩
    rw [acknowledge] at hacknowledge
    split at hacknowledge
    · exact recvAcknowledged_keeps hacknowledge
    · cases hacknowledge
      exact .refl _
  · obtain ⟨⟨streams, applied⟩, hsettings, h⟩ := of_bind_ok h
    have hstill := still_streams (recvSettings_keeps hsettings)
    dsimp only at h
    split at h
    · cases h
      exact hstill
    · have hsend := hstill.trans (sendInput_still { m with streams } env
        { id := frame.id, flags := { bits := 1 }, payload := frame.payload })
      rwa [← (Prod.mk.inj (Except.ok.inj h)).1]

theorem recvPingFrame_still (frame : Frame) (ping : Ping) :
    m.Still (m.recvPingFrame env frame ping).1 := by
  rw [recvPingFrame]
  split
  · exact .refl m
  · exact sendInput_still m env _

theorem sendUpdate_still (env : Environment) (update : Except H2Error (Option Frame)) :
    m.Still (m.sendUpdate env update).1 := by
  rw [sendUpdate.eq_def]
  split
  · exact .refl m
  · exact .refl m
  · exact sendInput_still m env _

theorem updateWindow_still {len : UInt32} {r : Except DispatchErrorKind Unit}
    (h : m.updateWindow env id len = .ok (m', r)) : m.Still m' := by
  rw [updateWindow] at h
  obtain ⟨⟨streams, update⟩, hconn, h⟩ := of_bind_ok h
  have hsend := (still_streams (releaseConnRecvWindow_keeps hconn)).trans
    (sendUpdate_still env update)
  dsimp only at h
  split at h
  · rename_i heq
    cases h
    rwa [heq] at hsend
  · rename_i m₁ heq
    rw [heq] at hsend
    obtain ⟨⟨streams₂, update₂⟩, hstr, h⟩ := of_bind_ok h
    have hlast := (hsend.trans (still_streams (releaseStreamRecvWindow_keeps hstr))).trans
      (sendUpdate_still env update₂)
    rwa [← (Prod.mk.inj (Except.ok.inj h)).1]

theorem recvWindowFrame_still (id : StreamId) (increment : UInt32) :
    m.Still (m.recvWindowFrame id increment).1 := by
  rw [recvWindowFrame]
  split
  · have hkeeps := m.streams.increaseConnSendWindow_keeps increment
    split
    · rename_i heq
      rw [heq] at hkeeps
      exact still_streams hkeeps
    · rename_i heq
      rw [heq] at hkeeps
      exact still_streams (hkeeps.trans (.of_map rfl rfl))
  · exact still_streams (reassignStreamSendWindow_keeps id increment)

theorem pollSendFrame_still {r : Except DispatchErrorKind Unit}
    (h : m.pollSendFrame env frame = .ok (m', r)) : m.Still m' := by
  rw [pollSendFrame] at h
  obtain ⟨⟨streams, state⟩, hsend, h⟩ := of_bind_ok h
  have hkeeps : m.streams.Keeps streams := by
    rw [sendFrame] at hsend
    split at hsend
    · exact (call_keeps (e := .sendHeaders frame.flags.isEndStream) hsend).1
    · exact (call_keeps (e := .sendData frame.flags.isEndStream) hsend).1
    · cases hsend
      exact .refl _
  have hstill := still_streams hkeeps
  dsimp only at h
  split at h
  · cases h
    exact hstill
  · rw [← (Prod.mk.inj (Except.ok.inj h)).1]
    exact hstill.trans (sendInput_still { m with streams } env frame)

theorem pollDealWithGoAway_still (m : ConnManager) (env : Environment) (code : UInt32) :
    m.Still (m.pollDealWithGoAway env code).1 := by
  have hpeer : ∀ goaway, m.Still (m.sendPeerGoaway env goaway).1 := by
    intro goaway
    have hset : m.Still { m with goingAway := some goaway } := ⟨.refl _, rfl, rfl, rfl, rfl, .of_log rfl⟩
    have hsend := hset.trans
      (sendInput_still { m with goingAway := some goaway } env (goawayFrame goaway))
    rw [sendPeerGoaway]
    cases m.goingAway with
    | none => exact hsend
    | some before =>
      dsimp only
      split
      · exact .refl m
      · exact hsend
  simp only [pollDealWithGoAway]
  split
  · have hstill := hpeer
      { errorCode := code, lastStreamId := m.streams.latestRemoteId, debugData := [] }
    split
    · rename_i heq
      rwa [heq] at hstill
    · rename_i heq
      rw [heq] at hstill
      split <;> exact hstill
  · exact .refl m

/-! ## Errors -/

def Free (m : ConnManager) : Prop := ∀ id, m.currMessage.lookup id = none

def Waiting (m : ConnManager) : Prop :=
  ∀ id, m.currMessage.lookup id ≠ none → m.streams.ClosedAt id ∧ m.state = .send

def Rest (m : ConnManager) : Prop := m.state ≠ .send → m.Free

theorem Free.waiting (h : m.Free) : m.Waiting := fun id hid => absurd (h id) hid

theorem Waiting.rest (h : m.Waiting) : m.Rest := by
  intro hst id
  by_contra hid
  exact hst (h id hid).2

theorem Waiting.still (h : m.Waiting) (hstill : m.Still m') : m'.Waiting := by
  intro id hid
  rw [hstill.currMessage] at hid
  obtain ⟨hclosed, hst⟩ := h id hid
  exact ⟨hstill.keeps.closed id hclosed, hstill.state.trans hst⟩

theorem Free.still (h : m.Free) (hstill : m.Still m') : m'.Free := by
  intro id
  rw [hstill.currMessage]
  exact h id

theorem Orderly.untold (h : m.Orderly frames) (hopen : ¬ m.streams.ClosedAt id)
    (hmem : id ∈ m.senders) : ∀ message ∈ m.handed id, message.isExit = false := by
  obtain ⟨exits, horder, hclosed⟩ := h.inOrder id
  obtain rfl : exits = [] := by
    by_contra hexits
    exact hopen (hclosed hexits)
  intro message hmsg
  rw [horder.heard hmem] at hmsg
  rw [map_nil, append_nil] at hmsg
  obtain ⟨frame, -, rfl⟩ := mem_map.mp hmsg
  rfl

theorem sendMessages_orderly {kind : DispatchErrorKind} {ids : List StreamId} (hids : ids.Nodup)
    (h : m.Orderly frames) (hclosed : ∀ id ∈ ids, m.streams.ClosedAt id)
    (hfree : ∀ id ∈ ids, m.currMessage.lookup id = none)
    (huntold : ∀ id ∈ ids, id ∈ m.senders → ∀ message ∈ m.handed id, message.isExit = false) :
    (sendMessages env (.outputExit kind) ids m).1.Orderly frames ∧
      ((sendMessages env (.outputExit kind) ids m).2 = false →
        (sendMessages env (.outputExit kind) ids m).1.currMessage = m.currMessage) := by
  induction ids generalizing m with
  | nil => exact ⟨h, fun _ => rfl⟩
  | cons id ids ih =>
    obtain ⟨hid, hids⟩ := nodup_cons.mp hids
    have hhands := @sendMessageToStream_hands m id env (.outputExit kind)
      (hfree id (.head _))
    have hord := h.exit (hclosed id (.head _)) (hfree id (.head _))
      (huntold id (.head _)) hhands
    have hne : ∀ id' ∈ ids, id' ≠ id := by
      rintro id' hmem rfl
      exact hid hmem
    obtain ⟨hrest, hcurr⟩ := ih hids hord
      (fun id' hmem => by
        rw [hhands.streams]
        exact hclosed id' (.tail id hmem))
      (fun id' hmem => by
        rw [(hhands.others id' (hne id' hmem)).2.1]
        exact hfree id' (.tail id hmem))
      (fun id' hmem hsender => by
        obtain ⟨hchan, hget, hiff⟩ := hhands.others id' (hne id' hmem)
        rw [handed, hchan, hget]
        exact huntold id' (.tail id hmem) (hiff.mp hsender))
    refine ⟨hrest, fun hblocked => ?_⟩
    simp only [sendMessages, Bool.or_eq_false_iff, decide_eq_false_iff_not] at hblocked ⊢
    rw [hcurr hblocked.1]
    cases hsend : m.sendMessageToStream env id (.outputExit kind) with
    | mk m₁ answer =>
      cases answer with
      | ready r => exact sendMessageToStream_ready hsend
      | pending => simp [hsend] at hblocked

def Leaves (m : ConnManager) (frames : List Frame) (r : Poll (Except DispatchErrorKind Unit)) :
    Prop :=
  m.Orderly frames ∧ ((∀ e, r ≠ .ready (.error e)) → m.Rest)

theorem exitWith_leaves (h : m.Orderly frames) (hfree : m.Free) (env : Environment)
    (e : DispatchErrorKind) : (m.exitWith env e).1.Leaves frames (m.exitWith env e).2 := by
  have hclear := m.streams.clearStreamsStates_keeps
  obtain ⟨hall, hnodup, hids⟩ := m.streams.clearStreamsStates.getAllUnclosedStreams_keeps
  have hstill : m.Still { m with streams := m.streams.clearStreamsStates.getAllUnclosedStreams.1 } :=
    still_streams (hclear.trans hall)
  have hopen : ∀ id ∈ m.streams.clearStreamsStates.getAllUnclosedStreams.2,
      ¬ m.streams.ClosedAt id := fun id hmem hclosed =>
    (hids id hmem).1 (hclear.closed id hclosed)
  have hperm := env.hash.perm m.streams.clearStreamsStates.getAllUnclosedStreams.2
  obtain ⟨hord, -⟩ := @sendMessages_orderly _ frames env e
    (env.hash.order m.streams.clearStreamsStates.getAllUnclosedStreams.2)
    (hperm.nodup_iff.mpr hnodup) (h.passes hstill.passes)
    (fun id hmem => (hids id (hperm.mem_iff.mp hmem)).2) (fun id _ => hfree id)
    (fun id hmem hsender => h.untold (hopen id (hperm.mem_iff.mp hmem)) hsender)
  simp only [exitWith, exitWithError]
  split
  · rename_i heq
    rw [heq] at hord
    exact ⟨hord.turn _ _, fun _ hst => absurd rfl hst⟩
  · rename_i heq
    rw [heq] at hord
    exact ⟨hord, fun h => absurd rfl (h e)⟩

theorem manageStreamError_orderly {code : ErrorCode} {r : Poll (Except DispatchErrorKind Unit)}
    (h : m.Orderly frames) (hwaiting : m.Waiting)
    (hmanage : m.manageStreamError env id code = .ok (m', r)) : m'.Orderly frames ∧ m'.Waiting := by
  rw [manageStreamError] at hmanage
  obtain ⟨⟨streams, ended⟩, hreset, hmanage⟩ := of_bind_ok hmanage
  obtain ⟨hkeeps, hclosed⟩ := sendLocalReset_keeps hreset
  have hstill := still_streams hkeeps
  dsimp only at hmanage
  cases ended with
  | ignore | err e =>
    cases hmanage
    exact ⟨h.passes hstill.passes, hwaiting.still hstill⟩
  | ok =>
    obtain ⟨hopen, hclosed⟩ := hclosed rfl
    have hsend := hstill.trans (sendInput_still { m with streams } env (rstStream id code))
    dsimp only at hmanage
    split at hmanage
    · rename_i m₁ e heq
      rw [heq] at hsend
      cases hmanage
      exact ⟨h.passes hsend.passes, hwaiting.still hsend⟩
    · rename_i m₁ heq
      have hquiet : (({ m with streams } : ConnManager).sendInput env (rstStream id code)).1.streams =
          streams := by
        rw [sendInput]
        split <;> rfl
      rw [heq] at hsend hquiet
      have hfree : m₁.currMessage.lookup id = none := by
        rw [hsend.currMessage]
        by_contra hid
        exact hopen (hwaiting id hid).1
      have hclosed₁ : m₁.streams.ClosedAt id := by
        rw [hquiet]
        exact hclosed
      have huntold : id ∈ m₁.senders → ∀ message ∈ m₁.handed id, message.isExit = false := by
        intro hmem
        rw [hsend.handed]
        exact h.untold hopen (hsend.senders ▸ hmem)
      have hhands := @sendMessageToStream_hands m₁ id env
        (.outputExit (.h2 (.streamError id code))) hfree
      have hord := (h.passes hsend.passes).exit hclosed₁ hfree huntold hhands
      have hwaiting₁ := hwaiting.still hsend
      split at hmanage
      · rename_i m₂ r₂ hmsg
        cases hmanage
        rw [hmsg] at hord hhands
        refine ⟨hord, fun id' hid' => ?_⟩
        rw [sendMessageToStream_ready hmsg] at hid'
        rw [hhands.streams]
        obtain ⟨hclosed', hst⟩ := hwaiting₁ id' hid'
        have hquiet' := sendMessageToStream_quiet m₁ env id
          (.outputExit (.h2 (.streamError id code)))
        rw [hmsg] at hquiet'
        exact ⟨hclosed', hquiet'.state.trans hst⟩
      · rename_i m₂ hmsg
        cases hmanage
        rw [hmsg] at hord hhands
        refine ⟨hord.turn _ _, fun id' hid' => ⟨?_, rfl⟩⟩
        change m₂.streams.ClosedAt id'
        rw [hhands.streams]
        by_cases hne : id' = id
        · rw [hne]
          exact hclosed₁
        · refine (hwaiting₁ id' ?_).1
          rw [← (hhands.others id' hne).2.1]
          exact hid'

theorem sendGoaway_leaves (h : m.Orderly frames) (hfree : m.Free) (env : Environment)
    (code : ErrorCode) (goaway : Goaway) :
    let answer : ConnManager × Poll (Except DispatchErrorKind Unit) :=
      match { m with goingAway := some goaway }.sendInput env (goawayFrame goaway) with
      | (self, .error e) => (self, .ready (.error e))
      | (self, .ok ()) => self.exitWith env (.h2 (.connectionError code))
    answer.1.Leaves frames answer.2 := by
  have hset : m.Still { m with goingAway := some goaway } := ⟨.refl _, rfl, rfl, rfl, rfl, .of_log rfl⟩
  have hsend := hset.trans (sendInput_still _ env (goawayFrame goaway))
  rcases hanswer : ({ m with goingAway := some goaway } : ConnManager).sendInput env
    (goawayFrame goaway) with ⟨m₁, e | _⟩
  · rw [hanswer] at hsend
    exact ⟨h.passes hsend.passes, fun h => absurd rfl (h e)⟩
  · rw [hanswer] at hsend
    exact exitWith_leaves (h.passes hsend.passes) (hfree.still hsend) env _

theorem manageConnError_leaves (h : m.Orderly frames) (hfree : m.Free) (env : Environment)
    (code : ErrorCode) :
    (m.manageConnError env code).1.Leaves frames (m.manageConnError env code).2 := by
  rw [manageConnError]
  cases m.goingAway with
  | none => exact sendGoaway_leaves h hfree env code _
  | some before =>
    dsimp only
    split
    · exact ⟨h, fun _ _ => hfree⟩
    · exact sendGoaway_leaves h hfree env code _

theorem manageRespError_leaves {r : Poll (Except DispatchErrorKind Unit)} (h : m.Orderly frames)
    (hfree : m.Free) (hmanage : m.manageRespError env kind = .ok (m', r)) : m'.Leaves frames r := by
  rw [manageRespError.eq_def] at hmanage
  split at hmanage
  · obtain ⟨hord, hwaiting⟩ := manageStreamError_orderly h hfree.waiting hmanage
    exact ⟨hord, fun _ => hwaiting.rest⟩
  · rename_i code
    have hleaves := manageConnError_leaves h hfree env code
    rwa [Except.ok.inj hmanage] at hleaves
  · have hleaves := exitWith_leaves h hfree env kind
    rwa [Except.ok.inj hmanage] at hleaves

/-! ## Frames -/

/-- The state machine of the streams accepts the frame. -/
def accepts (m : ConnManager) (env : Environment) (frame : Frame) : Bool :=
  match frame.payload with
  | .headers _ =>
    match m.streams.recvHeaders frame.id frame.flags.isEndStream with
    | .ok (_, .ok) => true
    | _ => false
  | .rstStream _ =>
    match m.streams.recvRemoteReset frame.id with
    | .ok (_, .ok) => true
    | _ => false
  | .data octets =>
    match m.updateWindow env frame.id (UInt32.ofNat octets.length) with
    | .ok (m, .ok ()) =>
      match m.streams.recvData frame.id frame.flags.isEndStream with
      | .ok (_, .ok) => true
      | _ => false
    | _ => false
  | _ => false

def acceptedFrame (m : ConnManager) (env : Environment) (frame : Frame) : List Frame :=
  if m.accepts env frame then [frame] else []

/-- No stream above the last one of a GOAWAY frame, which is told an error if the frame is
valid, was told one before. -/
def TellsOnce (m : ConnManager) (frame : Frame) : Prop :=
  ∀ goaway code, frame.payload = .goaway goaway → goaway.lastStreamId ≤ m.streams.maxSendId →
    ErrorCode.tryFrom goaway.errorCode = .ok code →
    ∀ id ∈ m.streams.streamMap.keys, goaway.lastStreamId < id → id ∈ m.senders →
      ∀ message ∈ m.inChannel id, message.isExit = false

def Handled (m : ConnManager) (frames : List Frame) {α : Type} (r : Poll α) : Prop :=
  m.Orderly frames ∧ (r ≠ .pending → m.Free)

theorem Handled.lift (h : m.Handled frames r) : m.Handled frames (liftPoll r) :=
  ⟨h.1, fun hr => h.2 (by rintro rfl; exact hr rfl)⟩

theorem Still.handled {α : Type} {r : Poll α} (hstill : m.Still m') (h : m.Orderly frames)
    (hfree : m.Free) : m'.Handled frames r :=
  ⟨h.passes hstill.passes, fun _ => hfree.still hstill⟩

theorem sendMessageToStream_free (hfree : m.Free)
    (h : m.sendMessageToStream env id message = (m', r)) (hr : r ≠ .pending) : m'.Free := by
  cases r with
  | ready r =>
    intro id'
    rw [sendMessageToStream_ready h]
    exact hfree id'
  | pending => exact absurd rfl hr

theorem output_handled (h : m.Orderly frames) (hfree : m.Free) (hkeeps : m.streams.Keeps streams)
    (hopen : (m.streams.streamMap.lookup frame.id).isSome ∧ ¬ m.streams.ClosedAt frame.id)
    (hsend : ({ m with streams } : ConnManager).sendMessageToStream env frame.id (.output frame) =
      (m', r)) : m'.Handled (frames ++ [frame]) r := by
  have hfree' : ({ m with streams } : ConnManager).Free := hfree
  have hhands := @sendMessageToStream_hands { m with streams } frame.id env (.output frame)
    (hfree frame.id)
  rw [hsend] at hhands
  exact ⟨h.output hkeeps hopen.1 hopen.2 (hfree frame.id) hhands,
    sendMessageToStream_free hfree' hsend⟩

theorem recvResetFrame_handled (h : m.Orderly frames) (hfree : m.Free) {code : UInt32}
    (hpay : frame.payload = .rstStream code) (hrecv : m.recvResetFrame env frame = .ok (m', r))
    : m'.Handled (frames ++ m.acceptedFrame env frame) r := by
  rw [recvResetFrame] at hrecv
  obtain ⟨⟨streams, ended⟩, hreset, hrecv⟩ := of_bind_ok hrecv
  obtain ⟨hkeeps, hopen⟩ := recvRemoteReset_keeps hreset
  rw [acceptedFrame, accepts, hpay]
  simp only [hreset]
  dsimp only at hrecv
  cases ended with
  | ok => exact output_handled h hfree hkeeps (hopen rfl) (Except.ok.inj hrecv)
  | err e | ignore =>
    cases hrecv
    simpa using (still_streams hkeeps).handled h hfree

end ConnManager

end YlongHttp
