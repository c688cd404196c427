import YlongHttp.Model.Basic

/-! # `multipart/form-data` messages (`body/mime/simple.rs`) -/

namespace YlongHttp.FormData

inductive Polled where
  | ready | pending | failed

/-- The answers of a reader: `give n` are `n + 1` octets, or what there is room for and left. -/
inductive Answer where
  | pending | failed
  | give (n : ℕ)

/-- A cursor, or the reader of a stream: `reuse` takes a `File` back to its start, but not a
`&[u8]`. -/
inductive Source where
  | bytes
  | stream (rewinds : Bool)

/-- `MultiPartState`, with how far its content was read. -/
structure MultiPartState where
  source : Source
  content : Bytes
  pos : ℕ

def bytes (content : Bytes) : MultiPartState := { source := .bytes, content, pos := 0 }

/-- The next octets, which are then passed. -/
def MultiPartState.take (self : MultiPartState) (n : ℕ) : Bytes × MultiPartState :=
  ((self.content.drop self.pos).take n,
    { self with pos := self.pos + ((self.content.drop self.pos).take n).length })

/-- The `states`, cut at `index`; those before it stand in reverse. -/
structure MultiPartStates where
  passed : List MultiPartState
  ahead : List MultiPartState

namespace MultiPartStates

/-- `reuse` of the states, as long as no reader fails; one that fails is left somewhere. -/
def reuseAll : List MultiPartState → List (Option ℕ) → List MultiPartState × Bool
  | [], _ => ([], true)
  | state :: states, outcomes =>
    match state.source with
    | .bytes =>
      let (states, ok) := reuseAll states outcomes
      ({ state with pos := 0 } :: states, ok)
    | .stream rewinds =>
      match outcomes.head?.join with
      | some pos => ({ state with pos } :: states, false)
      | none =>
        let (states, ok) := reuseAll states outcomes.tail
        ((if rewinds then { state with pos := 0 } else state) :: states, ok)

def reuse (self : MultiPartStates) (outcomes : List (Option ℕ)) : MultiPartStates × Bool :=
  let (states, ok) := reuseAll (self.passed.reverse ++ self.ahead) outcomes
  ({ passed := [], ahead := states }, ok)

/-- What is left to do, for the loop of `poll_read`. -/
def pending (self : MultiPartStates) (room : ℕ) (answers : List Answer) : ℕ :=
  self.ahead.length + answers.length + room

/-- `poll_read_curr`, with the answers that are not used. -/
def pollReadCurr (self : MultiPartStates) (room : ℕ) (answers : List Answer) :
    MultiPartStates × Bytes × Polled × List Answer :=
  match self.ahead with
  | [] => (self, [], .ready, answers)
  | state :: ahead =>
    match state.source with
    | .bytes =>
      let (out, state) := state.take room
      (if out.length < room then { passed := state :: self.passed, ahead }
        else { self with ahead := state :: ahead }, out, .ready, answers)
    | .stream _ =>
      match answers with
      | .give n :: answers =>
        let (out, state) := state.take (min (n + 1) room)
        (if out = [] then { passed := state :: self.passed, ahead }
          else { self with ahead := state :: ahead }, out, .ready, answers)
      | .failed :: answers => (self, [], .failed, answers)
      | .pending :: answers => (self, [], .pending, answers)
      | [] => (self, [], .pending, [])

theorem pollReadCurr_pending {self next : MultiPartStates} {room : ℕ} {answers rest : List Answer}
    {out : Bytes} (hroom : room ≠ 0) (hahead : self.ahead ≠ [])
    (h : self.pollReadCurr room answers = (next, out, .ready, rest)) :
    next.pending (room - out.length) rest < self.pending room answers := by
  rw [pollReadCurr] at h
  cases hstates : self.ahead with
  | nil => exact absurd hstates hahead
  | cons state ahead =>
    rw [hstates] at h
    cases hsource : state.source with
    | bytes =>
      simp only [hsource] at h
      cases h
      split_ifs <;> simp only [pending, hstates, List.length_cons] <;> omega
    | stream rewinds =>
      simp only [hsource] at h
      rcases answers with _ | ⟨_ | _ | n, answers⟩ <;> cases h
      split_ifs <;> simp only [pending, hstates, List.length_cons] <;> omega

def pollRead (self : MultiPartStates) (room : ℕ) (answers : List Answer) :
    MultiPartStates × Bytes × Polled :=
  if _ : room = 0 then (self, [], .ready)
  else if _ : self.ahead = [] then (self, [], .ready)
  else
    match _ : self.pollReadCurr room answers with
    | (next, out, .ready, answers') =>
      let (last, more, polled) := next.pollRead (room - out.length) answers'
      (last, out ++ more, polled)
    | (next, out, polled, _) => (next, out, polled)
termination_by self.pending room answers
decreasing_by exact pollReadCurr_pending ‹_› ‹_› ‹_›

end MultiPartStates

structure Part where
  name : Option Bytes
  fileName : Option Bytes
  mime : Option Bytes
  length : Option ℕ
  body : Option MultiPartState

inductive ReadStatus where
  | never
  | reading (states : MultiPartStates)
  | finish (states : MultiPartStates)

structure MultiPart where
  parts : List Part
  boundary : Bytes
  status : ReadStatus

/-- The octets around the value of a parameter or a header, where there is one. -/
def around (before : String) (value : Option Bytes) (after : String) : Option Bytes :=
  value.map fun value => str before ++ value ++ str after

variable (boundary : Bytes)

/-- What `build_status` makes of a part. -/
def Part.states (part : Part) : List MultiPartState :=
  [bytes (str "--" ++ boundary ++ str "\r\n"), bytes (str "Content-Disposition: form-data")] ++
    ((around "; name=\"" part.name "\"").map bytes).toList ++
    ((around "; filename=\"" part.fileName "\"").map bytes).toList ++ [bytes (str "\r\n")] ++
    ((around "Content-Type: " part.mime "\r\n").map bytes).toList ++ [bytes (str "\r\n")] ++
    part.body.toList ++ [bytes (str "\r\n")]

namespace MultiPart

/-- The sum of `total_bytes` for one part, without its length. -/
def partBytes (part : Part) : ℕ :=
  (2 + boundary.length + 2) + 30 + (part.name.map (9 + ·.length)).getD 0 +
    (part.fileName.map (13 + ·.length)).getD 0 + 2 + (part.mime.map (16 + ·.length)).getD 0 +
    (2 + 2)

/-- A sum of `u64` values; one that does not fit panics, as in a build that checks for overflow. -/
def checkedU64 (size : ℕ) : Except (Fault Empty) ℕ :=
  if size < 2 ^ 64 then .ok size else .error .panic

/-- `total_bytes`, behind the parts that gave `size`. The terms are not negative, so the sums
within a part fit where the last one does. -/
def bytesFrom (size : ℕ) : List Part → Except (Fault Empty) (Option ℕ)
  | [] => (checkedU64 (size + (2 + boundary.length + 4))).map some
  | part :: parts =>
    match part.length with
    | none => .ok none
    | some length =>
      match checkedU64 (size + length + partBytes boundary part) with
      | .ok size => bytesFrom size parts
      | .error fault => .error fault

variable (self : MultiPart)

def totalBytes : Except (Fault Empty) (Option ℕ) := bytesFrom self.boundary 0 self.parts

def states : List MultiPartState :=
  self.parts.flatMap (·.states self.boundary) ++ [bytes (str "--" ++ self.boundary ++ str "--\r\n")]

def buildStatus : MultiPart :=
  { self with parts := self.parts.map fun part => { part with body := none }
              status := .reading { passed := [], ahead := self.states } }

/-- `poll_read`, in the state `Reading`. -/
def pollReading (states : MultiPartStates) (room : ℕ) (answers : List Answer) :
    MultiPart × Bytes × Polled :=
  if room = 0 then (self, [], .ready)
  else
    match states.pollRead room answers with
    | (states, out, .ready) =>
      ({ self with status := if out = [] then .finish states else .reading states }, out, .ready)
    | (states, out, .pending) =>
      ({ self with status := .reading states }, out, if out = [] then .pending else .ready)
    | (states, out, .failed) => ({ self with status := .reading states }, out, .failed)

def pollRead (room : ℕ) (answers : List Answer) : MultiPart × Bytes × Polled :=
  match self.status with
  | .never => self.buildStatus.pollReading { passed := [], ahead := self.states } room answers
  | .reading states => self.pollReading states room answers
  | .finish _ => (self, [], .ready)

/-- `reuse`, with `reuse_inner`; whether it is `Ok`. -/
def reuse (outcomes : List (Option ℕ)) : MultiPart × Bool :=
  match self.status with
  | .never => (self, true)
  | .reading states =>
    let (states, ok) := states.reuse outcomes
    ({ self with status := .reading states }, ok)
  | .finish states =>
    -- The error is returned before the states are put back.
    match states.reuse outcomes with
    | (states, true) => ({ self with status := .reading states }, true)
    | (_, false) => ({ self with status := .never }, false)

end MultiPart

end YlongHttp.FormData
