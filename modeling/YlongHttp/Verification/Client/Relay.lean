import YlongHttp.Model.Client.RecvData
import YlongHttp.Verification.Client.Turnover

/-! # Responses reach their requests in order

The frames of a connection pass two tasks on their way to a request. The task that reads them
hands on every frame it has decoded, and the manager those that the streams accept. -/

namespace YlongHttp

open List RecvData
open Library

/-! ## The task that reads -/

def Frame.isSettings (frame : Frame) : Bool :=
  match frame.payload with
  | .settings _ => true
  | _ => false

def OutputMessage.frame? : OutputMessage → Option Frame
  | .output frame => if frame.isSettings then none else some frame
  | .outputExit _ => none

def FrameKind.frame? : FrameKind → Option Frame
  | .complete frame => if frame.isSettings then none else some frame
  | .partialFrame => none

namespace RecvData

variable {answer : Poll (Except DispatchErrorKind Unit)} {octets : Bytes}

def sent (r : RecvData) : List Frame := r.messages.reverse.filterMap (·.frame?)

def waiting (r : RecvData) : List Frame :=
  (r.currMessage.bind (·.frame?)).toList ++ (r.pendingIter.getD []).filterMap (·.frame?)

def decodedIn (r : RecvData) (env : RecvEnvironment) : List Frame :=
  match r.state, env.socket with
  | .read, .octets octets =>
    if octets = [] then []
    else
      match r.decoder.decode octets with
      | (_, .ok kinds) => kinds.filterMap (·.frame?)
      | _ => []
  | _, _ => []

def Idle (r : RecvData) : Prop := r.currMessage = none ∧ r.pendingIter = none

/-- Every frame that was decoded is on its way. -/
structure Relays (r : RecvData) (decoded : List Frame) : Prop where
  all : r.sent ++ r.waiting = decoded
  idle : r.state ≠ .send → r.Idle

/-- What a call that sends messages does: it has sent the first frames of `frames`, and unless
it fails the others wait. -/
structure Carries (r : RecvData) (frames : List Frame)
    (answer : Poll (Except DispatchErrorKind Unit)) : Prop where
  sent : r.sent <+: frames
  all : (∀ e, answer ≠ .ready (.error e)) → r.sent ++ r.waiting = frames
  pending : answer = .pending → r.state = .send
  idle : answer = .ready (.ok ()) → r.Idle

variable {r r' : RecvData} {env : RecvEnvironment} {frames decoded : List Frame}

theorem Idle.waiting (h : r.Idle) : r.waiting = [] := by
  rw [RecvData.waiting, h.1, h.2]
  rfl

theorem Carries.relays (h : r.Carries frames answer) (hok : ∀ e, answer ≠ .ready (.error e)) :
    r.Relays frames := by
  refine ⟨h.all hok, fun hst => ?_⟩
  cases answer with
  | pending => exact absurd (h.pending rfl) hst
  | ready result =>
    cases result with
    | error e => exact absurd rfl (hok e)
    | ok => exact h.idle rfl

theorem Relays.sent_prefix (h : r.Relays decoded) : r.sent <+: decoded := h.all ▸ prefix_append _ _

theorem transmitMessage_carries (h : r.Idle) (env : RecvEnvironment) (message : OutputMessage) :
    (r.transmitMessage env message).1.Carries (r.sent ++ message.frame?.toList)
      (r.transmitMessage env message).2 := by
  rw [transmitMessage]
  split
  · have hsent : ({ r with messages := message :: r.messages } : RecvData).sent =
        r.sent ++ message.frame?.toList := by
      simp only [sent, reverse_cons, filterMap_append]
      cases hframe : message.frame? <;> simp [hframe]
    refine ⟨by rw [hsent], fun _ => ?_, nofun, fun _ => h⟩
    rw [hsent]
    exact (congrArg _ h.waiting).trans (append_nil _)
  · exact ⟨prefix_append _ _, fun hne => absurd rfl (hne _), nofun, nofun⟩
  · refine ⟨prefix_append _ _, fun _ => ?_, fun _ => rfl, nofun⟩
    have hwaiting : ({ r with state := .send, currMessage := some message } : RecvData).waiting =
        message.frame?.toList := by
      simp only [waiting, h.2]
      simp
    rw [hwaiting]
    rfl

theorem message_frame (settings : SettingsState) (frame : Frame) :
    (∃ decoder, (r.message settings frame).1 = { r with decoder }) ∧
      (r.message settings frame).2.frame? = (FrameKind.complete frame).frame? := by
  simp only [message, updateSettings]
  split
  · rename_i self e heq
    split at heq
    · rename_i settings' hpay
      have hnone : (FrameKind.complete frame).frame? = none := by
        simp [FrameKind.frame?, Frame.isSettings, hpay]
      rw [hnone]
      split at heq
      · simp only [updateDecoderSettings] at heq
        split at heq
        · rw [← (Prod.mk.inj heq).1]
          exact ⟨⟨_, rfl⟩, rfl⟩
        · cases heq
          exact ⟨⟨_, rfl⟩, rfl⟩
      · cases heq
    · cases heq
  · rename_i self heq
    split at heq
    · split at heq
      · simp only [updateDecoderSettings] at heq
        split at heq
        · rw [← (Prod.mk.inj heq).1]
          exact ⟨⟨_, rfl⟩, rfl⟩
        · cases heq
      · cases heq
        exact ⟨⟨_, rfl⟩, rfl⟩
    · cases heq
      exact ⟨⟨_, rfl⟩, rfl⟩

theorem pollIteratorFrames_carries (h : r.Idle) (iter : List FrameKind) :
    (pollIteratorFrames env iter r).1.Carries (r.sent ++ iter.filterMap (·.frame?))
      (pollIteratorFrames env iter r).2 := by
  induction iter generalizing r with
  | nil =>
    refine ⟨by simp [pollIteratorFrames], fun _ => ?_, nofun, fun _ => h⟩
    rw [pollIteratorFrames, h.waiting]
    rfl
  | cons kind iter ih =>
    cases kind with
    | partialFrame => exact ih h
    | complete frame =>
      obtain ⟨⟨decoder, hdecoder⟩, hframe⟩ := message_frame (r := r) env.settings frame
      simp only [pollIteratorFrames]
      cases hmsg : r.message env.settings frame with
      | mk r₁ message =>
        rw [hmsg] at hdecoder hframe
        obtain rfl : r₁ = { r with decoder } := hdecoder
        have hidle : ({ r with decoder } : RecvData).Idle := h
        have hsent : ({ r with decoder } : RecvData).sent = r.sent := rfl
        have hcons : (FrameKind.complete frame :: iter).filterMap (·.frame?) =
            message.frame?.toList ++ iter.filterMap (·.frame?) := by
          rw [hframe]
          cases hkind : (FrameKind.complete frame).frame? <;> simp [hkind]
        have hcarr := transmitMessage_carries hidle env message
        cases htransmit : ({ r with decoder } : RecvData).transmitMessage env message with
        | mk r₂ answer =>
          rw [htransmit] at hcarr
          rw [hsent] at hcarr
          rw [hcons, ← append_assoc]
          cases answer with
          | pending =>
            refine ⟨hcarr.sent.trans (prefix_append _ _), fun _ => ?_,
              fun _ => hcarr.pending rfl, nofun⟩
            rw [← hcarr.all nofun, append_assoc]
            have hpend : r₂.pendingIter = none := by
              rw [transmitMessage] at htransmit
              split at htransmit <;> cases htransmit
              exact h.2
            simp [sent, waiting, hpend]
          | ready result =>
            cases result with
            | error e =>
              exact ⟨hcarr.sent.trans (prefix_append _ _),
                fun hne => absurd rfl (hne e), nofun, nofun⟩
            | ok =>
              have hidle₂ := hcarr.idle rfl
              have hall := hcarr.all nofun
              rw [hidle₂.waiting, append_nil] at hall
              rw [← hall]
              exact ih hidle₂

theorem pollPendingIter_carries (h : r.currMessage = none) :
    (r.pollPendingIter env).1.Carries (r.sent ++ r.waiting) (r.pollPendingIter env).2 := by
  rw [pollPendingIter]
  split
  · rename_i iter hiter
    have hwaiting : r.waiting = iter.filterMap (·.frame?) := by simp [waiting, h, hiter]
    rw [hwaiting]
    exact @pollIteratorFrames_carries { r with pendingIter := none } env ⟨h, rfl⟩ iter
  · rename_i hiter
    have hidle : r.Idle := ⟨h, hiter⟩
    rw [hidle.waiting, append_nil]
    exact ⟨prefix_rfl, fun _ => by rw [hidle.waiting, append_nil], nofun, fun _ => hidle⟩

theorem pollBlockedTask_carries (hst : r.state = .send) :
    (r.pollBlockedTask env).1.Carries (r.sent ++ r.waiting) (r.pollBlockedTask env).2 := by
  rw [pollBlockedTask]
  split
  · rename_i hcurr
    exact pollPendingIter_carries hcurr
  · rename_i message hcurr
    split
    · have hmoved : ({ r with
          currMessage := none, messages := message :: r.messages } : RecvData).sent ++
          ({ r with
            currMessage := none, messages := message :: r.messages } : RecvData).waiting =
          r.sent ++ r.waiting := by
        simp only [sent, waiting, hcurr, reverse_cons, filterMap_append, append_assoc]
        cases hframe : message.frame? <;> simp [hframe]
      rw [← hmoved]
      exact pollPendingIter_carries rfl
    · exact ⟨prefix_append _ _, fun hne => absurd rfl (hne _), nofun, nofun⟩
    · exact ⟨prefix_append _ _, fun _ => rfl, fun _ => hst, nofun⟩

def Leaves (r : RecvData) (decoded : List Frame) (answer : Poll (Except DispatchErrorKind Unit)) :
    Prop :=
  r.sent <+: decoded ∧ ((∀ e, answer ≠ .ready (.error e)) → r.Relays decoded)

theorem Carries.leaves (h : r.Carries frames answer) : r.Leaves frames answer := ⟨h.sent, h.relays⟩

theorem Leaves.turn {answer : Poll (Except DispatchErrorKind Unit)} (h : r.Leaves decoded answer)
    (nextState : DecodeState) : ({ r with nextState } : RecvData).Leaves decoded answer :=
  ⟨h.1, fun hok => ⟨(h.2 hok).all, (h.2 hok).idle⟩⟩

theorem readOctets_leaves (h : r.Idle) (hst : r.state = .read)
    (hsocket : env.socket = .octets octets) (hread : r.readOctets env octets = some (r', answer)) :
    r'.Leaves (r.sent ++ r.decodedIn env) answer := by
  simp only [decodedIn, hst, hsocket]
  rw [readOctets] at hread
  split at hread
  · rename_i hnil
    have hcarr := transmitMessage_carries h env (.outputExit .disconnect)
    cases htransmit : r.transmitMessage env (.outputExit .disconnect) with
    | mk r₁ answer₁ =>
      rw [htransmit] at hcarr hread
      cases hread
      rw [if_pos hnil]
      refine ⟨hcarr.sent, fun _ => ⟨?_, fun hne => absurd rfl hne⟩⟩
      -- A message that finds the channel closed is dropped, and the channel with it.
      rw [transmitMessage] at htransmit
      split at htransmit <;> cases htransmit
      · exact hcarr.all nofun
      · exact congrArg _ h.waiting
      · exact hcarr.all nofun
  · rename_i hne
    rw [if_neg hne]
    split at hread
    · rename_i decoder kinds hdec
      have hleaves := (@pollIteratorFrames_carries { r with decoder } env h kinds).leaves
      rw [hdec]
      split at hread
      · rename_i r₁ hpoll
        rw [hpoll] at hleaves
        cases hread
        exact ⟨hleaves.1, fun _ => ⟨(hleaves.2 nofun).all, (hleaves.2 nofun).idle⟩⟩
      · rwa [Option.some.inj hread] at hleaves
    · rename_i decoder e hdec
      have hleaves := (@transmitMessage_carries { r with decoder } h env
        (.outputExit (.h2 e))).leaves
      rw [hdec]
      split at hread
      · rename_i heq
        rw [heq] at hleaves
        cases hread
        exact ⟨hleaves.1, fun hne => absurd rfl (hne _)⟩
      · rename_i heq
        rw [heq] at hleaves
        cases hread
        exact hleaves
      · rename_i heq
        rw [heq] at hleaves
        cases hread
        exact hleaves.turn .read
    · cases hread

theorem turn_leaves (h : r.Relays decoded) (hturn : r.turn env = some (r', answer)) :
    r'.Leaves (decoded ++ r.decodedIn env) answer := by
  rw [turn] at hturn
  split at hturn
  · rename_i hst
    have hidle : r.Idle := h.idle (by rw [hst]; nofun)
    have hsent : r.sent = decoded := by
      have hall := h.all
      rwa [hidle.waiting, append_nil] at hall
    rw [← hsent]
    split at hturn
    · rename_i hsocket
      have hleaves := (transmitMessage_carries hidle env (.outputExit .io)).leaves
      have hnone : r.decodedIn env = [] := by simp only [decodedIn, hst, hsocket]
      rw [hnone]
      rw [transmitError] at hturn
      split at hturn
      · rename_i heq
        rw [heq] at hleaves
        cases hturn
        exact ⟨hleaves.1, fun hne => absurd rfl (hne _)⟩
      · rename_i heq
        rw [heq] at hleaves
        cases hturn
        exact hleaves.turn _
    · rename_i hsocket
      have hnone : r.decodedIn env = [] := by simp only [decodedIn, hst, hsocket]
      rw [hnone, append_nil]
      cases hturn
      exact ⟨prefix_rfl, fun _ => ⟨by rw [hidle.waiting, append_nil], fun _ => hidle⟩⟩
    · rename_i octets hsocket
      exact readOctets_leaves hidle hst hsocket hturn
  · rename_i hst
    have hnone : r.decodedIn env = [] := by simp only [decodedIn, hst]
    have hcarr := @pollBlockedTask_carries r env hst
    rw [h.all] at hcarr
    rw [hnone, append_nil]
    split at hturn
    · rename_i heq
      rw [heq] at hcarr
      cases hturn
      exact ⟨hcarr.sent, fun _ => ⟨hcarr.all nofun, fun _ => hcarr.idle rfl⟩⟩
    · have hleaves := hcarr.leaves
      rwa [Option.some.inj hturn] at hleaves
  · rename_i e hst
    have hnone : r.decodedIn env = [] := by simp only [decodedIn, hst]
    rw [hnone, append_nil]
    cases hturn
    exact ⟨h.sent_prefix, fun _ => h⟩

/-! ### Messages that were sent stay sent -/

theorem transmitMessage_messages (r : RecvData) (env : RecvEnvironment) (message : OutputMessage) :
    r.messages <:+ (r.transmitMessage env message).1.messages := by
  rw [transmitMessage]
  split
  · exact suffix_cons _ _
  · exact suffix_rfl
  · exact suffix_rfl

theorem pollIteratorFrames_messages (iter : List FrameKind) (r : RecvData) :
    r.messages <:+ (pollIteratorFrames env iter r).1.messages := by
  induction iter generalizing r with
  | nil => exact suffix_rfl
  | cons kind iter ih =>
    cases kind with
    | partialFrame => exact ih r
    | complete frame =>
      obtain ⟨⟨decoder, hdecoder⟩, -⟩ := message_frame (r := r) env.settings frame
      simp only [pollIteratorFrames]
      have hsent := transmitMessage_messages (r.message env.settings frame).1 env
        (r.message env.settings frame).2
      rw [congrArg messages hdecoder] at hsent
      split
      · rename_i heq
        rw [heq] at hsent
        exact hsent.trans (ih _)
      · rename_i heq
        rwa [heq] at hsent
      · rename_i heq
        rwa [heq] at hsent

theorem pollPendingIter_messages (r : RecvData) (env : RecvEnvironment) :
    r.messages <:+ (r.pollPendingIter env).1.messages := by
  rw [pollPendingIter]
  split
  · rename_i iter _
    exact pollIteratorFrames_messages iter { r with pendingIter := none }
  · exact suffix_rfl

theorem pollBlockedTask_messages (r : RecvData) (env : RecvEnvironment) :
    r.messages <:+ (r.pollBlockedTask env).1.messages := by
  rw [pollBlockedTask]
  split
  · exact pollPendingIter_messages r env
  · rename_i message _
    split
    · exact (suffix_cons message r.messages).trans (pollPendingIter_messages
        { r with currMessage := none, messages := message :: r.messages } env)
    · exact suffix_rfl
    · exact suffix_rfl

theorem readOctets_messages (h : r.readOctets env octets = some (r', answer)) :
    r.messages <:+ r'.messages := by
  rw [readOctets] at h
  split at h
  · rw [← (Prod.mk.inj (Option.some.inj h)).1]
    exact transmitMessage_messages r env _
  · split at h
    · rename_i decoder kinds _
      have hsent := @pollIteratorFrames_messages env kinds { r with decoder }
      split at h
      · rename_i heq
        rw [heq] at hsent
        cases h
        exact hsent
      · rwa [Option.some.inj h] at hsent
    · rename_i decoder e _
      have hsent := transmitMessage_messages { r with decoder } env (.outputExit (.h2 e))
      split at h <;> rename_i heq <;> rw [heq] at hsent <;> cases h <;> exact hsent
    · cases h

theorem turn_messages (h : r.turn env = some (r', answer)) : r.messages <:+ r'.messages := by
  rw [turn] at h
  split at h
  · split at h
    · have hsent := transmitMessage_messages r env (.outputExit .io)
      rw [transmitError] at h
      split at h <;> rename_i heq <;> rw [heq] at hsent <;> cases h <;> exact hsent
    · cases h
      exact suffix_rfl
    · exact readOctets_messages h
  · have hsent := pollBlockedTask_messages r env
    split at h
    · rename_i heq
      rw [heq] at hsent
      cases h
      exact hsent
    · rwa [Option.some.inj h] at hsent
  · cases h
    exact suffix_rfl

end RecvData

/-! ## Both tasks -/

def Poll.running : Poll (Except DispatchErrorKind Unit) → Bool
  | .ready (.error _) => false
  | _ => true

theorem Poll.ne_of_running {answer : Poll (Except DispatchErrorKind Unit)}
    (h : answer.running = true) : ∀ e, answer ≠ .ready (.error e) := by
  rintro e rfl
  cases h

def ConnManager.Event.message : ConnManager.Event → Option OutputMessage
  | .output received => some (.output received.frame)
  | .outputExit kind => some (.outputExit kind)
  | _ => none

/-- The task that reads and the manager. The manager takes the messages in the order in which
they were put in its channel. -/
structure Link where
  recv : RecvData
  reading : Bool
  manager : ConnManager
  managing : Bool
  taken : List OutputMessage
  /-- The frames that were decoded. -/
  decoded : List Frame
  /-- The frames that the streams accepted. -/
  accepted : List Frame

namespace Link

open ConnManager

variable {event : Event}

/-- One of the tasks takes a turn. The events of the manager are those that `meets` allows. -/
inductive Step (meets : ConnManager → Event → Prop) : Link → Link → Prop
  | read {link : Link} {env recv answer} : link.reading →
      env.settings = link.manager.settings → link.recv.turn env = some (recv, answer) →
      Step meets link { link with
        recv
        reading := answer.running
        decoded := link.decoded ++ link.recv.decodedIn env }
  | take {link : Link} {env event message manager answer} : link.managing →
      link.manager.state = .receive → event.message = some message →
      link.taken ++ [message] <+: link.recv.messages.reverse → meets link.manager event →
      link.manager.step env event = .ok (manager, answer) →
      Step meets link { link with
        manager
        managing := answer.running
        taken := link.taken ++ [message]
        accepted := link.accepted ++ link.manager.acceptedIn env event }
  | turn {link : Link} {env event manager answer} : link.managing → event.message = none →
      link.manager.step env event = .ok (manager, answer) →
      Step meets link { link with manager, managing := answer.running }

inductive Reached (config : H2Config) (meets : ConnManager → Event → Prop) : Link → Prop
  | start {manager} : ConnManager.start config = .ok manager →
      Reached config meets {
        recv := .new .new, reading := true, manager, managing := true
        taken := [], decoded := [], accepted := [] }
  | step {link link'} : Reached config meets link → link.Step meets link' →
      Reached config meets link'

/-- No frame is lost, repeated or overtaken on its way from the connection to the task that
waits for it. -/
structure InOrder (link : Link) : Prop where
  relayed : link.recv.sent <+: link.decoded
  waiting : link.reading → link.recv.sent ++ link.recv.waiting = link.decoded
  accepted : link.accepted.Sublist link.decoded
  delivered : ∀ id, link.manager.InOrder link.accepted id
  retried : link.managing → link.manager.Rest

variable {link link' : Link}

/-- What every turn keeps. -/
structure Ordered (link : Link) : Prop where
  relayed : link.recv.sent <+: link.decoded
  relays : link.reading → link.recv.Relays link.decoded
  taken : link.taken <+: link.recv.messages.reverse
  accepted : link.accepted.Sublist (link.taken.filterMap (·.frame?))
  orderly : link.manager.Orderly link.accepted
  rest : link.managing → link.manager.Rest

theorem Ordered.inOrder (h : link.Ordered) : link.InOrder where
  relayed := h.relayed
  waiting hreading := (h.relays hreading).all
  accepted := (h.accepted.trans (h.taken.sublist.filterMap _)).trans h.relayed.sublist
  delivered id := by
    obtain ⟨exits, horder, -⟩ := h.orderly.inOrder id
    exact ⟨exits, horder⟩
  retried := h.rest

variable (m : ConnManager)

theorem acceptedIn_sublist (env : Environment) {message : OutputMessage}
    (hmsg : event.message = some message) :
    (m.acceptedIn env event).Sublist ([message].filterMap (·.frame?)) := by
  cases event with
  | output received =>
    cases hmsg
    simp only [acceptedIn]
    split
    · rw [acceptedFrame]
      split
      · rename_i hacc
        have hset : received.frame.isSettings = false := by
          rw [accepts] at hacc
          rw [Frame.isSettings]
          split at hacc <;> simp_all
        simp [OutputMessage.frame?, hset]
      · exact nil_sublist _
    · exact nil_sublist _
  | outputExit kind => exact nil_sublist _
  | _ => cases hmsg

theorem acceptedIn_eq_nil (env : Environment) (hmsg : event.message = none) :
    m.acceptedIn env event = [] := by
  cases event with
  | output received => cases hmsg
  | _ => rfl

theorem tellsOnceIn_of_message_eq_none (hmsg : event.message = none) : m.TellsOnceIn event := by
  cases event with
  | output received => cases hmsg
  | _ => trivial

theorem Ordered.step (h : link.Ordered) (hstep : link.Step TellsOnceIn link') : link'.Ordered := by
  cases hstep with
  | read hreading hset hturn =>
    obtain ⟨hsent, hrelays⟩ := turn_leaves (h.relays hreading) hturn
    refine ⟨hsent, fun hrunning => hrelays (Poll.ne_of_running hrunning), ?_, h.accepted,
      h.orderly, h.rest⟩
    exact h.taken.trans (List.reverse_prefix.mpr (turn_messages hturn))
  | take hmanaging hst hmsg htaken hmeets hturn =>
    obtain ⟨hord, hrest⟩ := step_leaves h.orderly (h.rest hmanaging) hmeets hturn
    refine ⟨h.relayed, h.relays, htaken, ?_, hord,
      fun hrunning => hrest (Poll.ne_of_running hrunning)⟩
    rw [filterMap_append]
    exact h.accepted.append (acceptedIn_sublist link.manager _ hmsg)
  | turn hmanaging hmsg hturn =>
    have hmeets := tellsOnceIn_of_message_eq_none link.manager hmsg
    obtain ⟨hord, hrest⟩ := step_leaves h.orderly (h.rest hmanaging) hmeets hturn
    rw [acceptedIn_eq_nil link.manager _ hmsg, append_nil] at hord
    exact ⟨h.relayed, h.relays, h.taken, h.accepted, hord,
      fun hrunning => hrest (Poll.ne_of_running hrunning)⟩

end Link

namespace Link

open ConnManager

end Link

end YlongHttp
