import YlongHttp.Verification.Http1.Pool

/-! # Connections that are shut down

The flag of a connection is read in one turn, and the connection is claimed in another. In between
its holder may shut it down and give it back. -/

namespace YlongHttp.Http1

open Conns

namespace Conns

variable {c c' : Conns} {task task' : Task}

def Awaited (c : Conns) (tasks : List Task) (conn : ConnId) : Prop :=
  ∃ idx, .dispatch idx ∈ tasks ∧ c.list[idx]? = some conn

def Snatched (c : Conns) (task task' : Task) (others : List Task) : Prop :=
  ∃ conn, task = .request conn ∧ task' = .release ∧ (c.inner conn).shutdown = true ∧
    c.Awaited others conn

theorem not_snatched_of_ne {others : List Task} (h : task' ≠ .release) :
    ¬c.Snatched task task' others :=
  fun ⟨_, _, hrelease, _⟩ => h hrelease

theorem not_snatched_nil : ¬c.Snatched task task' [] :=
  fun ⟨_, _, _, _, _, hmem, _⟩ => List.not_mem_nil hmem

theorem Turn.inner_cases (h : c.Turn task c' task') (hlocked : c.locked = true)
    (hother : task.locks = false) (hmade : c.made ∉ c.list) {conn : ConnId}
    (hmem : conn ∈ c'.list) :
    c'.list = c.list ∧ (c'.inner conn = c.inner conn ∨ task = .request conn ∧
      ((c'.inner conn).occupied = (c.inner conn).occupied ∨
        task' = .release ∧ (c'.inner conn).shutdown = (c.inner conn).shutdown)) := by
  cases h with
  | lock hfree | push hfree => simp [hlocked] at hfree
  | connected =>
    have hne : conn ≠ c.made := fun heq => hmade (heq ▸ hmem)
    exact ⟨rfl, .inl (Function.update_of_ne hne _ _)⟩
  | @shutdown x =>
    refine ⟨rfl, ?_⟩
    by_cases hconn : conn = x
    · subst hconn
      exact .inr ⟨rfl, .inl (by simp [setInner])⟩
    · exact .inl (Function.update_of_ne hconn _ _)
  | @drop x =>
    refine ⟨rfl, ?_⟩
    by_cases hconn : conn = x
    · subst hconn
      exact .inr ⟨rfl, .inr ⟨rfl, by simp [setInner]⟩⟩
    · exact .inl (Function.update_of_ne hconn _ _)
  | discard | keep | valid | dispatched | taken | reuse | connect => cases hother
  | _ => exact ⟨rfl, .inl rfl⟩

theorem Turn.dispatch_live (h : c.Turn task c' task') {idx : ℕ} (htask : task' = .dispatch idx)
    {conn : ConnId} (hlist : c'.list[idx]? = some conn) : (c'.inner conn).shutdown = false := by
  cases h with
  | valid hidx hlive =>
    cases htask
    rw [hidx] at hlist
    cases hlist
    exact hlive
  | discard => cases htask
  | _ => cases htask

end Conns

namespace Origin

variable {o : Origin}

def Guarded (o : Origin) : Prop :=
  ∀ conn, o.conns.Awaited o.tasks conn → (o.conns.inner conn).shutdown = true →
    (o.conns.inner conn).occupied = true

theorem Guarded.connectTo (h : o.Guarded) : Guarded { o with tasks := o.tasks ++ [.acquire] } := by
  rintro conn ⟨idx, hmem, hlist⟩ hshutdown
  exact h conn ⟨idx, by simpa using hmem, hlist⟩ hshutdown

variable {c c' : Conns} {task task' : Task} {before after : List Task}

theorem Guarded.turn (h : Guarded { conns := c, tasks := before ++ task :: after })
    (hinv : Inv { conns := c, tasks := before ++ task :: after })
    (hturn : c.Turn task c' task') (hkept : ¬c.Snatched task task' (before ++ after)) :
    Guarded { conns := c', tasks := before ++ task' :: after } := by
  rintro conn ⟨idx, hmem, hlist⟩ hshutdown
  rcases mem_split hmem with hself | hother
  · have hlive := hturn.dispatch_live hself.symm hlist
    rw [hlive] at hshutdown
    cases hshutdown
  · obtain ⟨hlocked, htask⟩ := hinv.alone hother rfl
    obtain ⟨hsame, hinner⟩ := hturn.inner_cases hlocked htask (hinv.fresh _ (Nat.le_refl _)).1
      (List.mem_of_getElem? hlist)
    dsimp only at hlist hshutdown ⊢
    rw [hsame] at hlist
    have hbefore := h conn ⟨idx, mem_of_mem_others hother, hlist⟩
    dsimp only at hbefore
    rcases hinner with hinner | ⟨rfl, hoccupied | ⟨rfl, hflag⟩⟩
    · rw [hinner] at hshutdown ⊢
      exact hbefore hshutdown
    · rw [hoccupied]
      exact (hinv.occupied rfl).1
    · rw [hflag] at hshutdown
      exact absurd ⟨conn, rfl, rfl, hshutdown, idx, hother, hlist⟩ hkept

end Origin

namespace Pool

variable {K : Type} [DecidableEq K] {maxConnNum : ℕ} {pool : Pool K}

/-- The runs without such a turn. -/
inductive Orderly (maxConnNum : ℕ) : Pool K → Prop
  | new : Orderly maxConnNum { pool := ∅ }
  | connectTo {self : Pool K} (key : K) : Orderly maxConnNum self →
      Orderly maxConnNum { pool := self.pool.insert key { self.get key maxConnNum with
        tasks := (self.get key maxConnNum).tasks ++ [.acquire] } }
  | turn {self : Pool K} {key : K} {conns conns' : Conns} {task task' : Task}
      (before after : List Task) : Orderly maxConnNum self →
      self.pool.lookup key = some { conns, tasks := before ++ task :: after } →
      conns.Turn task conns' task' → ¬conns.Snatched task task' (before ++ after) →
      Orderly maxConnNum
        { pool := self.pool.insert key { conns := conns', tasks := before ++ task' :: after } }

theorem Orderly.reached (h : pool.Orderly maxConnNum) : pool.Reached maxConnNum := by
  induction h with
  | new => exact .new
  | connectTo key _ ih => exact ih.step (.connectTo key)
  | turn before after _ horigin hturn _ ih =>
    exact ih.step (.origin horigin (.turn before after hturn))

theorem Orderly.next (h : pool.Orderly maxConnNum) {key : K} {c c' : Conns} {task task' : Task}
    (before after : List Task)
    (horigin : pool.pool.lookup key = some { conns := c, tasks := before ++ task :: after })
    (hturn : c.Turn task c' task') (hkept : ¬c.Snatched task task' (before ++ after)) :
    ∃ pool : Pool K, pool.Orderly maxConnNum ∧
      pool.pool.lookup key = some { conns := c', tasks := before ++ task' :: after } :=
  ⟨_, h.turn before after horigin hturn hkept, AList.lookup_insert _⟩

theorem Orderly.arrive (h : pool.Orderly maxConnNum) {key : K} {c : Conns} {tasks : List Task}
    (horigin : pool.pool.lookup key = some { conns := c, tasks }) :
    ∃ pool : Pool K, pool.Orderly maxConnNum ∧
      pool.pool.lookup key = some { conns := c, tasks := tasks ++ [.acquire] } :=
  ⟨_, h.connectTo key, by rw [AList.lookup_insert, get, horigin]⟩

theorem Orderly.guarded (h : pool.Orderly maxConnNum) {key : K} {origin : Origin}
    (horigin : pool.pool.lookup key = some origin) : origin.Guarded := by
  induction h generalizing key origin with
  | new => cases horigin
  | @connectTo self key' _ ih =>
    by_cases hkey : key = key'
    · subst hkey
      rw [AList.lookup_insert] at horigin
      cases horigin
      cases hget : self.pool.lookup key with
      | none =>
        simp only [get, hget]
        rintro conn ⟨idx, hmem, hlist⟩
        cases hlist
      | some origin =>
        simp only [get, hget]
        exact (ih hget).connectTo
    · rw [AList.lookup_insert_ne hkey] at horigin
      exact ih horigin
  | @turn self key' conns conns' task task' before after hself hget hturn hkept ih =>
    by_cases hkey : key = key'
    · subst hkey
      rw [AList.lookup_insert] at horigin
      cases horigin
      exact (ih hget).turn (hself.reached.inv hget).1 hturn hkept
    · rw [AList.lookup_insert_ne hkey] at horigin
      exact ih horigin

/-- In the runs in which no holder gives back a connection that is shut down while another task
awaits it, the handle of a connection is not got once the connection is shut down. -/
theorem shut_down_not_reused (before after : List Task) (h : pool.Orderly maxConnNum) {key : K}
    {c c' : Conns} {task task' : Task}
    (horigin : pool.pool.lookup key = some { conns := c, tasks := before ++ task :: after })
    (hturn : c.Turn task c' task') {conn : ConnId} (hnew : task.conn? ≠ some conn)
    (hconn : task'.conn? = some conn) : (c'.inner conn).shutdown = false := by
  have hguarded := h.guarded horigin
  cases hturn with
  | @dispatched idx x inner hlist hdispatch =>
    obtain rfl : x = conn := Option.some.inj hconn
    rw [Inner.dispatch] at hdispatch
    split at hdispatch
    · cases hdispatch
    · rename_i hfree
      cases hdispatch
      by_contra hshutdown
      rw [Bool.not_eq_false] at hshutdown
      refine hfree (hguarded x ⟨idx, by simp, hlist⟩ ?_)
      simpa [setInner] using hshutdown
  | connected =>
    obtain rfl : c.made = conn := Option.some.inj hconn
    simp [setInner, Inner.new]
  | discard | keep | reuse | push | shutdown => exact absurd hconn hnew
  | _ => cases hconn

/-- A connection that is given back in order is got again. -/
theorem shut_down_not_reused_idle :
    ∃ (pool : Pool Unit) (c c' : Conns), pool.Orderly 1 ∧ pool.pool.lookup () =
        some { conns := c, tasks := [.done, .dispatch 0] } ∧
      c.Turn (.dispatch 0) c' (.check 1 (some 0)) ∧ (c'.inner 0).shutdown = false := by
  have hnew := (@Orderly.new Unit _ 1).connectTo ()
  obtain ⟨p₁, h₁, l₁⟩ := hnew.next [] [] (AList.lookup_insert _) (.acquire Nat.one_pos)
    not_snatched_nil
  obtain ⟨p₂, h₂, l₂⟩ := h₁.next [] [] l₁ (.lock rfl) not_snatched_nil
  obtain ⟨p₃, h₃, l₃⟩ := h₂.next [] [] l₂ (.connect (Nat.le_refl _)) not_snatched_nil
  obtain ⟨p₄, h₄, l₄⟩ := h₃.next [] [] l₃ .connected not_snatched_nil
  obtain ⟨p₅, h₅, l₅⟩ := h₄.next [] [] l₄ (.push rfl) not_snatched_nil
  obtain ⟨p₆, h₆, l₆⟩ := h₅.next [] [] l₅ .drop not_snatched_nil
  obtain ⟨p₇, h₇, l₇⟩ := h₆.next [] [] l₆ .release not_snatched_nil
  obtain ⟨p₈, h₈, l₈⟩ := h₇.arrive l₇
  obtain ⟨p₉, h₉, l₉⟩ := h₈.next [.done] [] l₈ (.acquire Nat.one_pos)
    (not_snatched_of_ne nofun)
  obtain ⟨p₁₀, h₁₀, l₁₀⟩ := h₉.next [.done] [] l₉ (.lock rfl) (not_snatched_of_ne nofun)
  obtain ⟨p₁₁, h₁₁, l₁₁⟩ := h₁₀.next [.done] [] l₁₀ (.valid rfl rfl)
    (not_snatched_of_ne nofun)
  refine ⟨p₁₁, _, _, h₁₁, l₁₁, .dispatched rfl rfl, ?_⟩
  exact shut_down_not_reused [.done] [] h₁₁ l₁₁ (.dispatched rfl rfl) nofun rfl

/-- The second task reads the flag of the connection of the first, which then shuts the connection
down and gives it back. The second one gets it. -/
theorem shut_down_reused :
    ∃ (pool : Pool Unit) (c c' : Conns), pool.Reached 2 ∧ pool.pool.lookup () =
        some { conns := c, tasks := [.release, .dispatch 0] } ∧
      c.Turn (.dispatch 0) c' (.check 1 (some 0)) ∧ (c.inner 0).shutdown = true ∧
      (c'.inner 0).shutdown = true := by
  have hnew := (@Reached.new Unit _ 2).step (.connectTo ())
  obtain ⟨p₁, h₁, l₁⟩ := hnew.turn [] [] (AList.lookup_insert _) (.acquire Nat.two_pos)
  obtain ⟨p₂, h₂, l₂⟩ := h₁.turn [] [] l₁ (.lock rfl)
  obtain ⟨p₃, h₃, l₃⟩ := h₂.turn [] [] l₂ (.connect (Nat.le_refl _))
  obtain ⟨p₄, h₄, l₄⟩ := h₃.turn [] [] l₃ .connected
  obtain ⟨p₅, h₅, l₅⟩ := h₄.turn [] [] l₄ (.push rfl)
  obtain ⟨p₆, h₆, l₆⟩ := h₅.connectTo l₅
  obtain ⟨p₇, h₇, l₇⟩ := h₆.turn [.request 0] [] l₆ (.acquire Nat.one_pos)
  obtain ⟨p₈, h₈, l₈⟩ := h₇.turn [.request 0] [] l₇ (.lock rfl)
  obtain ⟨p₉, h₉, l₉⟩ := h₈.turn [.request 0] [] l₈ (.valid rfl rfl)
  obtain ⟨p₁₀, h₁₀, l₁₀⟩ := h₉.turn [] [.dispatch 0] l₉ .shutdown
  obtain ⟨p₁₁, h₁₁, l₁₁⟩ := h₁₀.turn [] [.dispatch 0] l₁₀ .drop
  exact ⟨p₁₁, _, _, h₁₁, l₁₁, .dispatched rfl rfl, rfl, rfl⟩

end Pool

end YlongHttp.Http1
