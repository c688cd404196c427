import YlongHttp.Library.Counting
import YlongHttp.Model.Http1.Pool

/-! # The bound on the connections of a pool

A task connects only after it has found every connection of the list in use. A connection in use
has a permit, and so has the task. -/

namespace YlongHttp.Http1

open List Http1.Task Nat
open Library

namespace Task

def holdsPermit : Task → Bool
  | .acquire | .done => false
  | _ => true

def conn? : Task → Option ConnId
  | .check _ conn => conn
  | .push conn | .request conn => some conn
  | _ => none

def connects : Task → Bool
  | .connect | .push _ => true
  | _ => false

def locks : Task → Bool
  | .check _ _ | .dispatch _ => true
  | _ => false

def search? : Task → Option ℕ
  | .check idx none | .dispatch idx => some idx
  | _ => none

theorem locks_of_search? {task : Task} {idx : ℕ} (h : task.search? = some idx) :
    task.locks = true := by
  cases task with
  | check idx conn => rfl
  | dispatch idx => rfl
  | _ => cases h

end Task

variable {conn : ConnId}

namespace Conns

variable {c c' : Conns} {task task' : Task}

def live (c : Conns) (conn : ConnId) : Bool := !(c.inner conn).shutdown

def busy (c : Conns) (conn : ConnId) : Bool := c.live conn && (c.inner conn).occupied

def unfree (c : Conns) (idx : ℕ) : ℕ :=
  (c.list.take idx).countP c.live + (c.list.drop idx).countP c.busy

/-! ## What one turn does -/

theorem Turn.maxConnNum (h : c.Turn task c' task') : c'.maxConnNum = c.maxConnNum := by
  cases h <;> rfl

theorem Turn.permits (h : c.Turn task c' task') :
    c'.usable + task'.holdsPermit.toNat = c.usable + task.holdsPermit.toNat := by
  cases h with
  | acquire hpos =>
    have hsub : c.usable - 1 + 1 = c.usable := Nat.sub_add_cancel hpos
    simpa [Task.holdsPermit] using hsub
  | _ => rfl

theorem Turn.locks (h : c.Turn task c' task') (hlock : task.locks = true → c.locked = true) :
    c'.locked.toNat + task.locks.toNat = c.locked.toNat + task'.locks.toNat := by
  cases h with
  | lock hfree => simp [locks, hfree]
  | reuse | connect => simp [locks, hlock rfl]
  | _ => rfl

def held (task : Task) (conn : ConnId) : ℕ := (decide (task.conn? = some conn)).toNat

theorem Turn.handles (h : c.Turn task c' task')
    (hfresh : (c.inner c.made).occupied = false)
    (hheld : ∀ conn, task.conn? = some conn → (c.inner conn).occupied = true) (conn : ConnId) :
    (c'.inner conn).occupied.toNat + held task conn =
      (c.inner conn).occupied.toNat + held task' conn := by
  cases h with
  | @dispatched idx x inner hlist hdispatch =>
    rw [Inner.dispatch] at hdispatch
    split at hdispatch
    · cases hdispatch
    · rename_i hfree
      cases hdispatch
      by_cases hconn : conn = x
      · subst hconn
        simp [setInner, held, conn?, hfree]
      · simp [setInner, held, conn?, hconn, Ne.symm hconn]
  | connected =>
    by_cases hconn : conn = c.made
    · subst hconn
      simp [setInner, held, conn?, hfresh]
    · simp [setInner, held, conn?, hconn, Ne.symm hconn]
  | @shutdown x =>
    by_cases hconn : conn = x
    · subst hconn
      simp [setInner, held]
    · simp [setInner, held, hconn]
  | @drop x =>
    have hoccupied := hheld x rfl
    by_cases hconn : conn = x
    · subst hconn
      simp [setInner, held, conn?, hoccupied]
    · simp [setInner, held, conn?, hconn, Ne.symm hconn]
  | _ => simp [held, conn?]

theorem Turn.unfree_le (h : c.Turn task c' task') (hlock : c.locked = true)
    (hother : task.locks = false) (hmade : c.made ∉ c.list) (idx : ℕ) :
    c'.unfree idx ≤ c.unfree idx ∧ task'.connects.toNat ≤ task.connects.toNat := by
  have hsame : ∀ inner conn, (∀ x ∈ c.list, x = conn → (inner.shutdown = true ∨
      inner.shutdown = (c.inner x).shutdown) ∧ (inner.occupied = false ∨
      inner.occupied = (c.inner x).occupied)) → (c.setInner conn inner).unfree idx ≤ c.unfree idx := by
    intro inner conn hinner
    refine Nat.add_le_add (countP_mono_left fun x hx hlive => ?_)
      (countP_mono_left fun x hx hbusy => ?_)
    · have hmem := mem_of_mem_take hx
      by_cases hconn : x = conn
      · subst hconn
        obtain ⟨hshutdown, -⟩ := hinner x hmem rfl
        simp only [live, setInner, Function.update_self] at hlive
        rcases hshutdown with hshutdown | hshutdown
        · simp [hshutdown] at hlive
        · simpa [live, hshutdown] using hlive
      · simpa [live, setInner, hconn] using hlive
    · have hmem := mem_of_mem_drop hx
      by_cases hconn : x = conn
      · subst hconn
        obtain ⟨hshutdown, hoccupied⟩ := hinner x hmem rfl
        simp only [busy, live, setInner, Function.update_self] at hbusy
        rcases hshutdown with hshutdown | hshutdown <;>
          rcases hoccupied with hoccupied | hoccupied <;>
          simp_all [busy, live]
      · simpa [busy, live, setInner, hconn] using hbusy
  cases h with
  | lock hfree => simp [hlock] at hfree
  | connected =>
    refine ⟨hsame _ _ fun x hx heq => ?_, le_refl _⟩
    subst heq
    exact absurd hx hmade
  | push hfree => simp [hlock] at hfree
  | shutdown => exact ⟨hsame _ _ fun x _ heq => ⟨.inl rfl, .inr (by rw [heq])⟩, le_refl _⟩
  | drop => exact ⟨hsame _ _ fun x _ heq => ⟨.inr (by rw [heq]), .inl rfl⟩, le_refl _⟩
  | discard | keep | valid | dispatched | taken | reuse | connect => cases hother
  | _ => exact ⟨le_refl _, zero_le _⟩

theorem Turn.list_subset (h : c.Turn task c' task') (hmem : conn ∈ c'.list) :
    conn ∈ c.list ∨ task = .push conn := by
  cases h with
  | discard => exact .inl ((eraseIdx_sublist _ _).subset hmem)
  | push =>
    rcases mem_append.mp hmem with hmem | hmem
    · exact .inl hmem
    · rw [mem_singleton.mp hmem]
      exact .inr rfl
  | _ => exact .inl hmem

theorem Turn.made_le (h : c.Turn task c' task') : c.made ≤ c'.made := by
  cases h with
  | connected => exact le_succ _
  | _ => exact le_refl _

theorem Turn.conn_old (h : c.Turn task c' task') (hconn : task'.conn? = some conn) :
    task.conn? = some conn ∨ conn ∈ c.list ∨ conn < c'.made := by
  cases h with
  | dispatched hlist =>
    cases hconn
    exact .inr (.inl (mem_of_getElem? hlist))
  | connected =>
    cases hconn
    exact .inr (.inr (lt_succ_self _))
  | discard | keep | reuse | push | shutdown => exact .inl hconn
  | _ => cases hconn

theorem Turn.nodup (h : c.Turn task c' task') (hnodup : c.list.Nodup)
    (hunlisted : ∀ conn, task = .push conn → conn ∉ c.list) : c'.list.Nodup := by
  cases h with
  | discard => exact hnodup.sublist (eraseIdx_sublist _ _)
  | @push conn _ =>
    rw [nodup_append]
    refine ⟨hnodup, nodup_singleton _, ?_⟩
    rintro x hx y hy rfl
    rw [mem_singleton.mp hy] at hx
    exact hunlisted _ rfl hx
  | _ => exact hnodup

theorem Turn.live_le (h : c.Turn task c' task') (hmade : c.made ∉ c.list)
    (hconnect : task' ≠ .connect) :
    c'.list.countP c'.live + task'.connects.toNat ≤ c.list.countP c.live + task.connects.toNat := by
  have hset : ∀ inner conn, (∀ x ∈ c.list, x = conn → (inner.shutdown = true ∨
      inner.shutdown = (c.inner x).shutdown)) →
      c.list.countP (c.setInner conn inner).live ≤ c.list.countP c.live := by
    intro inner conn hinner
    refine countP_mono_left fun x hx hlive => ?_
    by_cases hconn : x = conn
    · subst hconn
      simp only [live, setInner, Function.update_self] at hlive
      rcases hinner x hx rfl with hshutdown | hshutdown
      · simp [hshutdown] at hlive
      · simpa [live, hshutdown] using hlive
    · simpa [live, setInner, hconn] using hlive
  cases h with
  | discard => exact Nat.add_le_add_right (eraseIdx_sublist _ _).countP_le _
  | @dispatched idx x inner hlist hdispatch =>
    refine Nat.add_le_add_right (hset _ _ fun y _ heq => .inr ?_) _
    rw [Inner.dispatch] at hdispatch
    split at hdispatch
    · cases hdispatch
    · cases hdispatch
      rw [heq]
  | connect => exact absurd rfl hconnect
  | connected =>
    refine Nat.add_le_add_right (hset _ _ fun x hx heq => ?_) _
    rw [heq] at hx
    exact absurd hx hmade
  | @push conn _ =>
    have hlive : ({ c with list := c.list ++ [conn] } : Conns).live = c.live := rfl
    rw [hlive, countP_append, countP_singleton]
    simp only [connects, Bool.toNat_false, Bool.toNat_true]
    split <;> omega
  | shutdown => exact Nat.add_le_add_right (hset _ _ fun _ _ _ => .inl rfl) _
  | drop => exact Nat.add_le_add_right (hset _ _ fun _ _ heq => .inr (by rw [heq])) _
  | failed => exact le_succ _
  | _ => exact le_refl _

theorem Turn.search (h : c.Turn task c' task') {idx' : ℕ} (hsearch : task'.search? = some idx') :
    (task = .exist ∧ c'.unfree idx' = c.list.countP c.busy) ∨
      ∃ idx, task.search? = some idx ∧ c'.unfree idx' ≤ c.unfree idx := by
  cases h with
  | lock =>
    cases hsearch
    refine .inl ⟨rfl, ?_⟩
    rw [unfree, take_zero, drop_zero, countP_nil, zero_add]
    rfl
  | @discard idx conn x hlist hshutdown =>
    cases conn with
    | some conn => cases hsearch
    | none =>
      obtain rfl : idx' = idx := (Option.some.inj hsearch).symm
      refine .inr ⟨idx', rfl, ?_⟩
      rw [unfree, unfree, eraseIdx_eq_take_drop_succ]
      have hlt : idx' < c.list.length := (List.getElem?_eq_some_iff.mp hlist).1
      have htake : (c.list.take idx').length = idx' := by simp [le_of_lt hlt]
      rw [take_append_of_le_length htake.ge, take_of_length_le htake.le,
        drop_append_of_le_length htake.ge, drop_of_length_le htake.le, nil_append]
      refine Nat.add_le_add_left (List.Sublist.countP_le ?_) _
      rw [← drop_drop]
      exact drop_sublist 1 _
  | valid =>
    cases hsearch
    exact .inr ⟨_, rfl, le_refl _⟩
  | @taken idx x hlist hdispatch =>
    cases hsearch
    refine .inr ⟨idx, rfl, ?_⟩
    obtain ⟨hlt, hx⟩ := List.getElem?_eq_some_iff.mp hlist
    have hoccupied : (c.inner x).occupied = true := by
      rw [Inner.dispatch] at hdispatch
      split at hdispatch
      · assumption
      · cases hdispatch
    have hbusy : c.busy x = c.live x := by simp [busy, hoccupied]
    rw [unfree, unfree, take_succ_eq_append_getElem hlt, drop_eq_getElem_cons hlt, hx,
      countP_append, countP_singleton, countP_cons, hbusy]
    omega
  | _ => cases hsearch

end Conns

namespace Origin

variable {o o' : Origin}

/-- What holds between the turns of the tasks. -/
structure Inv (o : Origin) : Prop where
  permits : o.conns.usable + o.tasks.countP (·.holdsPermit) = o.conns.maxConnNum
  locks : o.tasks.countP (·.locks) = o.conns.locked.toNat
  handles : ∀ conn, (o.tasks.countP fun t => t.conn? = some conn) =
    (o.conns.inner conn).occupied.toNat
  fresh : ∀ conn, o.conns.made ≤ conn → conn ∉ o.conns.list ∧ (o.conns.inner conn).occupied = false
  nodup : o.conns.list.Nodup
  unlisted : ∀ conn, .push conn ∈ o.tasks → conn ∉ o.conns.list
  bound : o.conns.list.countP o.conns.live + o.tasks.countP (·.connects) ≤ o.conns.maxConnNum
  search : ∀ task ∈ o.tasks, ∀ idx, task.search? = some idx →
    o.conns.unfree idx + o.tasks.countP (·.connects) + 1 ≤ o.conns.maxConnNum

theorem Inv.new (maxConnNum : ℕ) : Inv { conns := .new maxConnNum, tasks := [] } where
  permits := rfl
  locks := rfl
  handles _ := rfl
  fresh _ _ := ⟨not_mem_nil, rfl⟩
  nodup := nodup_nil
  unlisted _ h := absurd h not_mem_nil
  bound := zero_le _
  search _ h := absurd h not_mem_nil

theorem Inv.connectTo (h : o.Inv) : Inv { o with tasks := o.tasks ++ [.acquire] } where
  permits := by simpa [countP_append, holdsPermit] using h.permits
  locks := by simpa [countP_append, Task.locks] using h.locks
  handles conn := by simpa [countP_append, conn?] using h.handles conn
  fresh := h.fresh
  nodup := h.nodup
  unlisted conn hmem := h.unlisted conn (by simpa using hmem)
  bound := by simpa [countP_append, connects] using h.bound
  search task hmem idx hsearch := by
    rcases mem_append.mp hmem with hmem | hmem
    · simpa [countP_append, connects] using h.search task hmem idx hsearch
    · rw [mem_singleton.mp hmem] at hsearch
      cases hsearch

section Turn

variable {c c' : Conns} {task task' : Task} {before after : List Task}

theorem Inv.locked (h : Inv { conns := c, tasks := before ++ task :: after })
    (htask : task.locks = true) : c.locked = true := by
  have hlocks := h.locks
  rw [countP_split, htask] at hlocks
  cases hlocked : c.locked with
  | true => rfl
  | false =>
    rw [hlocked] at hlocks
    simp at hlocks

variable {t : Task}

theorem Inv.alone (h : Inv { conns := c, tasks := before ++ task :: after })
    (ht : t ∈ before ++ after) (hlocks : t.locks = true) :
    c.locked = true ∧ task.locks = false := by
  have hcnt := h.locks
  rw [countP_split, ← countP_append] at hcnt
  have hpos : 0 < (before ++ after).countP (·.locks) := countP_pos_iff.mpr ⟨t, ht, hlocks⟩
  have hbound : c.locked.toNat ≤ 1 := Bool.toNat_le _
  dsimp only at hcnt
  constructor
  · cases hc : c.locked with
    | true => rfl
    | false =>
      rw [hc] at hcnt
      simp only [Bool.toNat_false] at hcnt
      omega
  · cases htask : task.locks with
    | false => rfl
    | true =>
      rw [htask] at hcnt
      simp only [Bool.toNat_true] at hcnt
      omega

theorem Inv.occupied (h : Inv { conns := c, tasks := before ++ task :: after })
    (htask : task.conn? = some conn) : (c.inner conn).occupied = true ∧
      ∀ task' ∈ before ++ after, task'.conn? ≠ some conn := by
  have hhandles := h.handles conn
  rw [countP_split, decide_eq_true htask] at hhandles
  have hoccupied : (c.inner conn).occupied = true := by
    by_contra hfree
    rw [Bool.not_eq_true] at hfree
    simp [hfree] at hhandles
  refine ⟨hoccupied, fun task' hmem heq => ?_⟩
  have hpos : 0 < (before ++ after).countP fun t => t.conn? = some conn :=
    countP_pos_iff.mpr ⟨task', hmem, by simpa using heq⟩
  rw [countP_append] at hpos
  simp only [hoccupied, Bool.toNat_true] at hhandles
  omega

theorem Inv.busy_le (h : Inv { conns := c, tasks := before ++ .exist :: after }) :
    c.list.countP c.busy + (before ++ after).countP (·.connects) + 1 ≤ c.maxConnNum := by
  have hbusy : c.list.countP c.busy ≤
      (before ++ after).countP fun t => t.conn?.any (· ∈ c.list) := by
    refine countP_le_holders h.nodup _ fun conn _ hbusy => ?_
    have hoccupied : (c.inner conn).occupied = true := (Bool.and_eq_true_iff.mp hbusy).2
    have hhandles := h.handles conn
    rw [countP_split, ← countP_append, hoccupied] at hhandles
    change (before ++ after).countP _ + 0 = 1 at hhandles
    omega
  have hperm := h.permits
  rw [countP_split, ← countP_append] at hperm
  have hadd : ((before ++ after).countP fun t => t.conn?.any (· ∈ c.list)) +
      (before ++ after).countP (·.connects) ≤ (before ++ after).countP (·.holdsPermit) := by
    refine countP_add_le fun t ht => ?_
    cases t with
    | check idx conn => cases conn <;> simp [conn?, connects, holdsPermit, Bool.toNat_le]
    | push conn =>
      have hunlisted : conn ∉ c.list := h.unlisted conn (by
        rcases mem_append.mp ht with ht | ht
        · exact mem_append_left _ ht
        · exact mem_append_right _ (.tail _ ht))
      simp [conn?, connects, holdsPermit, hunlisted]
    | request conn => simp [conn?, connects, holdsPermit, Bool.toNat_le]
    | _ => simp [conn?, connects, holdsPermit]
  change c.usable + ((before ++ after).countP (·.holdsPermit) + 1) = c.maxConnNum at hperm
  omega

theorem mem_of_mem_others (ht : t ∈ before ++ after) : t ∈ before ++ task :: after := by
  rcases mem_append.mp ht with ht | ht
  · exact mem_append_left _ ht
  · exact mem_append_right _ (.tail task ht)

theorem mem_split (ht : t ∈ before ++ task :: after) : t = task ∨ t ∈ before ++ after := by
  rcases mem_append.mp ht with ht | ht
  · exact .inr (mem_append_left _ ht)
  · rcases mem_cons.mp ht with ht | ht
    · exact .inl ht
    · exact .inr (mem_append_right _ ht)

theorem Inv.turn (h : Inv { conns := c, tasks := before ++ task :: after })
    (hturn : c.Turn task c' task') : Inv { conns := c', tasks := before ++ task' :: after } := by
  have hmade : c.made ∉ c.list := (h.fresh _ (le_refl _)).1
  have hhandles := hturn.handles (h.fresh _ (le_refl _)).2 fun conn hconn =>
    (h.occupied hconn).1
  have hconnects := h.bound
  rw [countP_split] at hconnects
  refine ⟨?_, ?_, fun conn => ?_, fun conn hconn => ?_, ?_, fun conn hpush => ?_, ?_,
    fun t ht idx hsearch => ?_⟩
  · have hperm := h.permits
    rw [countP_split] at hperm ⊢
    have hkept := hturn.permits
    rw [hturn.maxConnNum]
    dsimp only at hperm ⊢
    omega
  · have hlocks := h.locks
    rw [countP_split] at hlocks ⊢
    have hkept := hturn.locks h.locked
    dsimp only at hlocks ⊢
    omega
  · have hhandled := h.handles conn
    rw [countP_split] at hhandled ⊢
    have hkept := hhandles conn
    simp only [Conns.held] at hkept
    dsimp only at hhandled ⊢
    omega
  · have hnew := h.fresh conn (hturn.made_le.trans hconn)
    refine ⟨fun hmem => ?_, ?_⟩
    · rcases hturn.list_subset hmem with hmem | rfl
      · exact hnew.1 hmem
      · have hconn : (push conn).conn? = some conn := rfl
        have hoccupied := (h.occupied hconn).1
        rw [hnew.2] at hoccupied
        cases hoccupied
    · have hkept := hhandles conn
      have hnone : task'.conn? ≠ some conn := by
        intro heq
        rcases hturn.conn_old heq with heq | hmem | hlt
        · have hoccupied := (h.occupied heq).1
          rw [hnew.2] at hoccupied
          cases hoccupied
        · exact hnew.1 hmem
        · exact absurd hconn (Nat.not_le_of_lt hlt)
      have hfree : (c.inner conn).occupied = false := hnew.2
      simp only [Conns.held, hfree, decide_eq_false hnone, Bool.toNat_false] at hkept
      exact Bool.toNat_eq_zero.mp (Nat.add_eq_zero_iff.mp hkept).1
  · exact hturn.nodup h.nodup fun conn heq => h.unlisted conn (by simp [heq])
  · intro hmem
    rcases mem_split hpush with heq | hother
    · -- The connection of the task that pushes next is new.
      cases hturn with
      | connected =>
        cases heq
        exact hmade hmem
      | discard => cases heq
      | _ => cases heq
    · rcases hturn.list_subset hmem with hmem | rfl
      · exact h.unlisted conn (mem_of_mem_others hother) hmem
      · exact (h.occupied rfl).2 _ hother rfl
  · rw [countP_split, hturn.maxConnNum]
    by_cases hconnect : task' = .connect
    · subst hconnect
      cases hturn with
      | @connect idx hidx =>
        have hfound := h.search (.check idx none) (by simp) idx rfl
        rw [countP_split] at hfound
        have hunfree : c.unfree idx = c.list.countP c.live := by
          rw [Conns.unfree, take_of_length_le hidx, drop_of_length_le hidx]
          rfl
        rw [hunfree] at hfound
        change c.list.countP c.live + (_ + 1) ≤ _
        change _ + (_ + 0) + 1 ≤ _ at hfound
        dsimp only at hfound ⊢
        omega
    · have hlive := hturn.live_le hmade hconnect
      dsimp only at hconnects ⊢
      omega
  · rw [countP_split, hturn.maxConnNum]
    dsimp only
    rcases mem_split ht with rfl | hother
    · rcases hturn.search hsearch with ⟨rfl, hbusy⟩ | ⟨idx', hidx', hunfree⟩
      · have hfound := h.busy_le
        rw [countP_append] at hfound
        rw [hbusy]
        cases hturn with
        | lock =>
          change _ + (_ + 0) + 1 ≤ _
          omega
      · have hfound := h.search _ (by simp) idx' hidx'
        rw [countP_split] at hfound
        dsimp only at hfound
        have hkept : t.connects = false := by
          cases t with
          | connect | push => cases hsearch
          | _ => rfl
        simp only [hkept, Bool.toNat_false]
        omega
    · have hlocks := locks_of_search? hsearch
      have hfound := h.search t (mem_of_mem_others hother) idx hsearch
      rw [countP_split] at hfound
      obtain ⟨hlocked, hfree⟩ := h.alone hother hlocks
      dsimp only at hfound
      obtain ⟨hunfree, hless⟩ := hturn.unfree_le hlocked hfree hmade idx
      omega

end Turn

theorem Inv.step (h : o.Inv) (hstep : o.Step o') : o'.Inv := by
  cases hstep with
  | turn before after hturn => exact h.turn hturn

end Origin

namespace Pool

variable {K : Type} [DecidableEq K] {maxConnNum : ℕ} {pool : Pool K}

theorem Reached.inv (h : pool.Reached maxConnNum) {key : K} {origin : Origin}
    (horigin : pool.pool.lookup key = some origin) :
    origin.Inv ∧ origin.conns.maxConnNum = maxConnNum := by
  induction h generalizing key origin with
  | new => cases horigin
  | @step self _ hreached hstep ih =>
    cases hstep with
    | connectTo key' =>
      by_cases hkey : key = key'
      · subst hkey
        rw [AList.lookup_insert] at horigin
        cases horigin
        cases hget : self.pool.lookup key with
        | none =>
          simp only [get, hget]
          exact ⟨(Origin.Inv.new maxConnNum).connectTo, rfl⟩
        | some before =>
          simp only [get, hget]
          exact ⟨(ih hget).1.connectTo, (ih hget).2⟩
      · rw [AList.lookup_insert_ne hkey] at horigin
        exact ih horigin
    | @origin key' before after hget hstep =>
      by_cases hkey : key = key'
      · subst hkey
        rw [AList.lookup_insert] at horigin
        cases horigin
        refine ⟨(ih hget).1.step hstep, ?_⟩
        cases hstep with
        | turn _ _ hturn => exact hturn.maxConnNum.trans (ih hget).2
      · rw [AList.lookup_insert_ne hkey] at horigin
        exact ih horigin

/-- In every run, the handle of a connection is with one task at most, and the connections of
an origin that are in use, idle or being made are as many as the limit allows. -/
theorem exclusive_and_bounded (h : pool.Reached maxConnNum) {key : K} {origin : Origin}
    (horigin : pool.pool.lookup key = some origin) :
    (∀ conn, (origin.tasks.countP fun t => t.conn? = some conn) ≤ 1) ∧
      origin.conns.list.countP origin.conns.live + origin.tasks.countP (·.connects) ≤
        maxConnNum := by
  obtain ⟨hinv, hmax⟩ := h.inv horigin
  refine ⟨fun conn => ?_, hmax ▸ hinv.bound⟩
  rw [hinv.handles]
  exact Bool.toNat_le _

theorem Reached.turn (h : pool.Reached maxConnNum) {key : K} {c c' : Conns} {task task' : Task}
    (before after : List Task)
    (horigin : pool.pool.lookup key = some { conns := c, tasks := before ++ task :: after })
    (hturn : c.Turn task c' task') : ∃ pool : Pool K, pool.Reached maxConnNum ∧
      pool.pool.lookup key = some { conns := c', tasks := before ++ task' :: after } :=
  ⟨_, h.step (.origin horigin (.turn before after hturn)), AList.lookup_insert _⟩

theorem Reached.connectTo (h : pool.Reached maxConnNum) {key : K} {c : Conns} {tasks : List Task}
    (horigin : pool.pool.lookup key = some { conns := c, tasks }) :
    ∃ pool : Pool K, pool.Reached maxConnNum ∧
      pool.pool.lookup key = some { conns := c, tasks := tasks ++ [.acquire] } :=
  ⟨_, h.step (.connectTo key), by rw [AList.lookup_insert, get, horigin]⟩

/-- A task connects and gives the connection back. The next one gets the same. -/
theorem exclusive_and_bounded_reuse :
    ∃ (pool : Pool Unit) (origin : Origin), pool.pool.lookup () = some origin ∧
      origin.conns.list = [0] ∧ origin.tasks = [.done, .request 0] ∧
      (∀ conn, (origin.tasks.countP fun t => t.conn? = some conn) ≤ 1) ∧
      origin.conns.list.countP origin.conns.live + origin.tasks.countP (·.connects) ≤ 1 := by
  have hnew := (@Reached.new Unit _ 1).step (.connectTo ())
  obtain ⟨p₁, h₁, l₁⟩ := hnew.turn [] [] (AList.lookup_insert _) (.acquire one_pos)
  obtain ⟨p₂, h₂, l₂⟩ := h₁.turn [] [] l₁ (.lock rfl)
  obtain ⟨p₃, h₃, l₃⟩ := h₂.turn [] [] l₂ (.connect (le_refl _))
  obtain ⟨p₄, h₄, l₄⟩ := h₃.turn [] [] l₃ .connected
  obtain ⟨p₅, h₅, l₅⟩ := h₄.turn [] [] l₄ (.push rfl)
  obtain ⟨p₆, h₆, l₆⟩ := h₅.turn [] [] l₅ .drop
  obtain ⟨p₇, h₇, l₇⟩ := h₆.turn [] [] l₆ .release
  obtain ⟨p₈, h₈, l₈⟩ := h₇.connectTo l₇
  obtain ⟨p₉, h₉, l₉⟩ := h₈.turn [.done] [] l₈ (.acquire one_pos)
  obtain ⟨p₁₀, h₁₀, l₁₀⟩ := h₉.turn [.done] [] l₉ (.lock rfl)
  obtain ⟨p₁₁, h₁₁, l₁₁⟩ := h₁₀.turn [.done] [] l₁₀ (.valid rfl rfl)
  obtain ⟨p₁₂, h₁₂, l₁₂⟩ := h₁₁.turn [.done] [] l₁₁ (.dispatched rfl rfl)
  obtain ⟨p₁₃, h₁₃, l₁₃⟩ := h₁₂.turn [.done] [] l₁₂ (.reuse (le_refl _))
  exact ⟨p₁₃, _, l₁₃, rfl, rfl, exclusive_and_bounded h₁₃ l₁₃⟩

/-- When all tasks are done, whether they ended well or were dropped, every permit is back, the
list is not locked and no connection is in use. -/
theorem all_given_back (h : pool.Reached maxConnNum) {key : K} {origin : Origin}
    (horigin : pool.pool.lookup key = some origin) (hdone : ∀ task ∈ origin.tasks, task = .done) :
    origin.conns.usable = maxConnNum ∧ origin.conns.locked = false ∧
      ∀ conn, (origin.conns.inner conn).occupied = false := by
  obtain ⟨hinv, hmax⟩ := h.inv horigin
  have hnone : ∀ p : Task → Bool, p .done = false → origin.tasks.countP p = 0 :=
    fun p hp => countP_eq_zero.mpr fun task htask => by simp [hdone task htask, hp]
  refine ⟨?_, ?_, fun conn => ?_⟩
  · have hpermits := hinv.permits
    rw [hnone _ rfl, add_zero] at hpermits
    exact hpermits.trans hmax
  · have hlocks := hinv.locks
    rw [hnone _ rfl] at hlocks
    exact Bool.toNat_eq_zero.mp hlocks.symm
  · have hhandles := hinv.handles conn
    rw [hnone _ rfl] at hhandles
    exact Bool.toNat_eq_zero.mp hhandles.symm

/-- A connection that is refused. -/
theorem all_given_back_refused :
    ∃ (pool : Pool Unit) (origin : Origin), pool.pool.lookup () = some origin ∧
      origin.tasks = [.done] ∧ origin.conns.usable = 1 ∧ origin.conns.locked = false ∧
      ∀ conn, (origin.conns.inner conn).occupied = false := by
  have hnew := (@Reached.new Unit _ 1).step (.connectTo ())
  obtain ⟨p₁, h₁, l₁⟩ := hnew.turn [] [] (AList.lookup_insert _) (.acquire one_pos)
  obtain ⟨p₂, h₂, l₂⟩ := h₁.turn [] [] l₁ (.lock rfl)
  obtain ⟨p₃, h₃, l₃⟩ := h₂.turn [] [] l₂ (.connect (le_refl _))
  obtain ⟨p₄, h₄, l₄⟩ := h₃.turn [] [] l₃ .failed
  obtain ⟨p₅, h₅, l₅⟩ := h₄.turn [] [] l₄ .release
  exact ⟨p₅, _, l₅, rfl, all_given_back h₅ l₅ (by simp)⟩

end Pool

end YlongHttp.Http1
