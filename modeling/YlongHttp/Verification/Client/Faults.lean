import YlongHttp.Verification.Client.Runs

/-! # Where the manager can panic -/

namespace YlongHttp

open Library Streams StreamFrame

variable {s : Streams} {ids : List StreamId} {settings : List Setting}

namespace ConnManager

variable {R : Rules} {m : ConnManager} {env : Environment} {event : Event} {panic : Panic}

theorem step_dead_ne (hm : m.Dead) (env : Environment) (event : Event) (panic : Panic) :
    m.step env event ≠ .error panic := by
  intro h
  obtain ⟨_, _, hstep, -⟩ := step_dead_ok hm env event
  cases h.symm.trans hstep

theorem Holds.step_ne {P : Conn → Prop} (hP : ∀ c c', Action R c c' → P c → P c')
    (hstored : ∀ c, P c → c.streams.Bounded ∧ c.streams.Stored) (h : Holds R P m)
    (hperm : m.Alive R → Permits R m env event) (htrap : ∀ c, P c → ¬ Trap R c panic) :
    m.step env event ≠ .error panic := by
  rcases h with ⟨halive, hm⟩ | ⟨hdead, -⟩
  · intro hstep
    obtain ⟨hbdd, hstored⟩ := hstored _ hm
    have hcomes := step_settles halive (hperm halive) hbdd hstored
    rw [hstep] at hcomes
    obtain ⟨c, hpath, hfault⟩ := hcomes
    exact htrap c (Path.preserves hP hpath hm) hfault
  · exact step_dead_ne hdead env event panic

end ConnManager

/-! ## Which call panics where -/

variable {size : UInt32}

theorem releaseConnRecvWindow_panic {panic : Panic}
    (h : s.releaseConnRecvWindow size = .error panic) : panic = .recvWindow := by
  cases h ▸ releaseConnRecvWindow_cases s size
  rfl

theorem releaseStreamRecvWindow_panic {id : StreamId} {panic : Panic}
    (h : s.releaseStreamRecvWindow id size = .error panic) : panic = .recvWindow := by
  cases h ▸ releaseStreamRecvWindow_cases s id size
  rfl

theorem moveRecvWindows_panic {move : RecvWindow → Except Panic RecvWindow} {panic : Panic}
    (hmove : ∀ w p, move w = .error p → p = .recvWindow)
    (h : Streams.moveRecvWindows move ids s = .error panic) : panic = .recvWindow := by
  obtain ⟨stream, hchange⟩ := changeAll_error h
  rcases of_bind_error hchange with hw | ⟨_, _, hw⟩
  · exact hmove _ _ hw
  · cases hw

theorem recvAcknowledged_panic {panic : Panic}
    (h : ConnManager.recvAcknowledged settings s = .error panic) : panic = .recvWindow := by
  have hone : ∀ {n : ℤ} {f : I32 → RecvWindow} {p : Panic},
      (do return f (← checkedI32 .recvWindow n) : Except Panic RecvWindow) = .error p →
        p = .recvWindow := by
    intro n f p h
    rcases of_bind_error h with h | ⟨_, _, h⟩
    · exact checkedI32_error h
    · cases h
  induction settings generalizing s with
  | nil => cases h
  | cons setting settings ih =>
    cases setting with
    | initialWindowSize size =>
      rcases of_bind_error h with h | ⟨s₁, _, h⟩
      · simp only [applyRecvInitialWindowSize] at h
        split at h
        · refine moveRecvWindows_panic (fun w p hw => ?_) h
          rcases of_bind_error hw with hw | ⟨_, _, hw⟩
          · exact hone hw
          · exact hone hw
        · split at h
          · exact moveRecvWindows_panic (fun w p hw => hone hw) h
          · cases h
      · exact ih h
    | headerTableSize | enablePush | maxFrameSize | maxHeaderListSize
    | maxConcurrentStreams => exact ih h

theorem reduceSendWindows_panic {excess : UInt32} {panic : Panic}
    (h : Streams.reduceSendWindows excess ids s = .error panic) : panic = .sendWindow := by
  obtain ⟨stream, hchange⟩ := changeAll_error h
  rcases of_bind_error hchange with hw | ⟨_, _, hw⟩
  · rcases of_bind_error hw with hw | ⟨_, _, hw⟩
    · exact checkedI32_error hw
    · cases hw
  · cases hw

theorem recvSettings_panic {env : Environment} {panic : Panic}
    (h : ConnManager.recvSettings env settings s = .error panic) : panic = .sendWindow := by
  induction settings generalizing s with
  | nil => cases h
  | cons setting settings ih =>
    cases setting with
    | initialWindowSize size =>
      rw [ConnManager.recvSettings] at h
      split at h
      · rename_i happly
        cases h
        simp only [applySendInitialWindowSize] at happly
        split at happly
        · split at happly <;> cases happly
        · split at happly
          · rcases of_bind_error happly with h | ⟨_, _, h⟩
            · exact reduceSendWindows_panic h
            · cases h
          · cases happly
      · cases h
      · exact ih h
    | headerTableSize | enablePush | maxFrameSize | maxHeaderListSize
    | maxConcurrentStreams => exact ih h

theorem getUnsetStreams_panic {last : StreamId} {panic : Panic}
    (h : s.getUnsetStreams last = .error panic) : panic = .concurrency := by
  have hloop : ∀ (ids : List StreamId) (s : Streams),
      unsetStreams last ids s = .error panic → panic = .concurrency := by
    intro ids
    induction ids with
    | nil => exact fun s h => nomatch h
    | cons id ids ih =>
      intro s h
      rw [unsetStreams] at h
      split at h
      · exact ih s h
      · split at h
        · rcases of_bind_error h with h | ⟨s₁, _, h⟩
          · rw [unsetStream] at h
            split at h
            · cases h
            · cases h
            · rw [decreaseCurrentConcurrency] at h
              split at h <;> cases h
              rfl
          · rcases of_bind_error h with h | ⟨_, _, h⟩
            · exact ih s₁ h
            · cases h
        · exact ih s h
  exact hloop _ _ h

end YlongHttp
