import YlongHttp.Verification.Http1.Waiting

/-! # Heads that come in segments -/

namespace YlongHttp.Http1

open HeadState

/-- Segments that are fed in order until there is a head or an error. What is not consumed is the
rest of the last call and the segments that are not fed. -/
def feed : ResponseDecoder → List Bytes → Except (Fault HttpError) (Option (ResponsePart × Bytes))
  | _, [] => .ok none
  | decoder, segment :: segments =>
    match decoder.decode segment with
    | .error e => .error e
    | .ok (decoder, none) => feed decoder segments
    | .ok (_, some (part, rest)) => .ok (some (part, rest ++ segments.flatten))

/-- The same answer, or an error in both. -/
def Same : Except (Fault HttpError) (Option (ResponsePart × Bytes)) →
    Except (Fault HttpError) (Option (ResponsePart × Bytes)) → Prop
  | .ok head, .ok head' => head = head'
  | .error _, .error _ => True
  | _, _ => False

def outcome : Result (ResponsePart × Bytes) →
    Except (Fault HttpError) (Option (ResponsePart × Bytes))
  | .error e => .error (.error e)
  | .ok (.inl _) => .ok none
  | .ok (.inr head) => .ok (some head)

variable {segments : List Bytes}

theorem feed_eq {s : HeadState} {d : ResponseDecoder} (h : s.Represented d)
    (hne : ∀ segment ∈ segments, segment ≠ []) :
    feed d segments = outcome (s.run (s.kept segments)) := by
  induction segments generalizing s d with
  | nil => rfl
  | cons segment segments ih =>
    have hagrees := decode_agrees h (hne segment (.head _))
    rw [kept, run_append, feed]
    rcases hrun : s.run (s.strip segment) with e | s' | ⟨part, rest⟩
    · rw [hrun] at hagrees
      rw [hagrees]
      rfl
    · rw [hrun] at hagrees
      obtain ⟨d', hdec, hd'⟩ := hagrees
      rw [hdec]
      exact ih hd' fun r hr => hne r (.tail segment hr)
    · rw [hrun] at hagrees
      obtain ⟨d', hdec⟩ := hagrees
      rw [hdec]
      rfl

theorem kept_singleton (s : HeadState) (segment : Bytes) : s.kept [segment] = s.strip segment := by
  rw [kept]
  split <;> simp [kept]

theorem feed_whole (h : segments.flatten ≠ []) :
    feed .new [segments.flatten] = outcome (init.run segments.flatten) := by
  have hne : ∀ segment ∈ [segments.flatten], segment ≠ [] := by
    intro segment hseg
    rwa [List.mem_singleton.mp hseg]
  rw [feed_eq represented_init hne, kept_singleton]
  rfl

theorem same_self (result : Except (Fault HttpError) (Option (ResponsePart × Bytes))) :
    Same result result := by
  cases result with
  | error e => trivial
  | ok head => rfl

/-- The segments are read as the whole if and only if no CR is dropped between two of them, or the
octets without the dropped ones are rejected too. -/
theorem feed_same_iff (hsegments : segments ≠ []) (hne : ∀ segment ∈ segments, segment ≠ []) :
    Same (feed .new segments) (feed .new [segments.flatten]) ↔
      HeadState.init.kept segments = segments.flatten ∨
        ∃ e, HeadState.init.run (HeadState.init.kept segments) = .error e := by
  have hflatten : segments.flatten ≠ [] := by
    obtain ⟨segment, segments, rfl⟩ := List.exists_cons_of_ne_nil hsegments
    exact List.append_ne_nil_of_left_ne_nil (hne segment (.head _)) _
  rw [feed_eq represented_init hne, feed_whole hflatten]
  by_cases hkept : HeadState.init.kept segments = segments.flatten
  · rw [hkept]
    exact iff_of_true (same_self _) (.inl rfl)
  · rw [or_iff_right hkept]
    -- A second CR is rejected in the whole.
    match hrun : HeadState.init.run segments.flatten with
    | .ok next => exact absurd (kept_of_ok hrun) hkept
    | .error e =>
      match HeadState.init.run (HeadState.init.kept segments) with
      | .error e' => exact iff_of_true trivial ⟨e', rfl⟩
      | .ok (.inl s) | .ok (.inr head) => exact iff_of_false id nofun

/-- A cut between the CR of a field line and its LF. -/
theorem feed_same_iff_cut :
    Same (feed .new [str "HTTP/1.1 200 OK\r\nA:b\r", str "\n\r\n"])
        (feed .new [[str "HTTP/1.1 200 OK\r\nA:b\r", str "\n\r\n"].flatten]) ↔
      HeadState.init.kept [str "HTTP/1.1 200 OK\r\nA:b\r", str "\n\r\n"] =
          [str "HTTP/1.1 200 OK\r\nA:b\r", str "\n\r\n"].flatten ∨
        ∃ e, HeadState.init.run
          (HeadState.init.kept [str "HTTP/1.1 200 OK\r\nA:b\r", str "\n\r\n"]) = .error e :=
  feed_same_iff (by nofun) (by decide)

/-- The CR of a field line, and a second one in the next segment. -/
theorem not_feed_same :
    ¬Same (feed .new [str "HTTP/1.1 200 OK\r\nA:b\r", str "\r\n\r\n"])
      (feed .new [[str "HTTP/1.1 200 OK\r\nA:b\r", str "\r\n\r\n"].flatten]) := by
  have hsegments : ∀ segment ∈ [str "HTTP/1.1 200 OK\r\nA:b\r", str "\r\n\r\n"], segment ≠ [] := by
    decide
  have hwhole : (HeadState.init.run
      [str "HTTP/1.1 200 OK\r\nA:b\r", str "\r\n\r\n"].flatten).isOk = false := by
    decide
  have hcut : (HeadState.init.run
      (HeadState.init.kept [str "HTTP/1.1 200 OK\r\nA:b\r", str "\r\n\r\n"])).isOk = true := by
    decide
  rw [feed_eq represented_init hsegments, feed_whole (by decide)]
  match hrun : HeadState.init.run [str "HTTP/1.1 200 OK\r\nA:b\r", str "\r\n\r\n"].flatten with
  | .ok next =>
    rw [hrun] at hwhole
    cases hwhole
  | .error e =>
    match hkept : HeadState.init.run
      (HeadState.init.kept [str "HTTP/1.1 200 OK\r\nA:b\r", str "\r\n\r\n"]) with
    | .error e' =>
      rw [hkept] at hcut
      cases hcut
    | .ok (.inl s) => exact id
    | .ok (.inr head) => exact id

end YlongHttp.Http1
