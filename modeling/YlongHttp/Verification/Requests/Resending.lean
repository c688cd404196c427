import YlongHttp.Model.SyncClient
import YlongHttp.Verification.Requests.Format

/-! # Bodies that the blocking client sends again

A message that is written whole has all that is left of the body, and takes it away from the
messages after it. -/

namespace YlongHttp.Client.Sync

open List

/-! ## Writing -/

variable (conn : Conn)

theorem writeAll_spec (octets : Bytes) :
    (conn.writeAll octets = none ∧ conn.writes.head? = some false) ∨
      (conn.writeAll octets = some { written := conn.written ++ octets, writes := conn.writes.tail } ∧
        conn.writes.head? ≠ some false) := by
  obtain ⟨written, writes⟩ := conn
  rcases writes with _ | ⟨_ | _, writes⟩
  · exact .inr ⟨rfl, by simp⟩
  · exact .inl ⟨rfl, rfl⟩
  · exact .inr ⟨rfl, by simp⟩

variable (writes : List Bool)

/-- The first `n` writes succeed. -/
def Goes (n : ℕ) : Prop := ∀ ok ∈ writes.take n, ok = true

theorem goes_zero : Goes writes 0 := by simp [Goes]

theorem goes_succ (n : ℕ) :
    Goes writes (n + 1) ↔ writes.head? ≠ some false ∧ Goes writes.tail n := by
  rcases writes with _ | ⟨_ | _, writes⟩ <;> simp [Goes]

variable {buf body : Bytes}

theorem flush_spec (hbuf : buf.length ≤ tempBufSize) :
    (flush conn buf = none ∧ buf.length = tempBufSize ∧ conn.writes.head? = some false) ∨
      ∃ conn' buf', flush conn buf = some (conn', buf') ∧ buf'.length < tempBufSize ∧
        conn'.written ++ buf' = conn.written ++ buf ∧
        ∀ n, Goes conn.writes ((buf.length + n) / tempBufSize) ↔
          Goes conn'.writes ((buf'.length + n) / tempBufSize) := by
  rw [flush]
  by_cases hfull : buf.length = tempBufSize
  · rw [if_pos hfull]
    obtain ⟨hnone, hhead⟩ | ⟨hsome, hhead⟩ := writeAll_spec conn buf
    · exact .inl ⟨by rw [hnone]; rfl, hfull, hhead⟩
    · refine .inr ⟨_, [], by rw [hsome]; rfl, by decide, append_nil _, ?_⟩
      intro n
      have hdiv : (buf.length + n) / tempBufSize = n / tempBufSize + 1 := by
        rw [hfull, Nat.add_comm, Nat.add_div_right _ (by decide)]
      rw [hdiv, goes_succ, length_nil, Nat.zero_add]
      exact and_iff_right hhead
  · rw [if_neg hfull]
    exact .inr ⟨conn, buf, rfl, by omega, rfl, fun _ => .rfl⟩

theorem encodePart_spec {fuel : ℕ} {buf part : Bytes} (hfuel : part.length < fuel)
    (hbuf : buf.length ≤ tempBufSize) :
    (encodePart fuel conn buf part = none ∧
        ¬Goes conn.writes ((buf.length + part.length) / tempBufSize)) ∨
      ∃ conn' buf', encodePart fuel conn buf part = some (conn', buf') ∧
        buf'.length < tempBufSize ∧ conn'.written ++ buf' = conn.written ++ buf ++ part ∧
        Goes conn.writes ((buf.length + part.length) / tempBufSize) := by
  induction fuel generalizing conn buf part with
  | zero => omega
  | succ fuel ih =>
    rw [encodePart]
    obtain ⟨hnone, hfull, hhead⟩ | ⟨conn₁, buf₁, hflush, hlt, hwritten, hgoes⟩ :=
      flush_spec conn hbuf
    · rw [hnone]
      refine .inl ⟨rfl, ?_⟩
      rw [hfull, Nat.add_comm, Nat.add_div_right _ (by decide), goes_succ]
      exact fun h => h.1 hhead
    · rw [hflush, hgoes]
      by_cases hzero : min part.length (tempBufSize - buf₁.length) = 0
      · have hpart : part = [] := length_eq_zero_iff.mp (by omega)
        subst hpart
        refine .inr ⟨conn₁, buf₁, by simp, hlt, by rw [hwritten, append_nil], ?_⟩
        rw [length_nil, Nat.add_zero, Nat.div_eq_of_lt hlt]
        exact goes_zero _
      · have hsum : (buf₁ ++ part.take (min part.length (tempBufSize - buf₁.length))).length +
            (part.drop (min part.length (tempBufSize - buf₁.length))).length =
              buf₁.length + part.length := by
          simp only [length_append, length_take, length_drop]
          omega
        have hrest := ih conn₁
          (show (part.drop (min part.length (tempBufSize - buf₁.length))).length < fuel by
            rw [length_drop]; omega)
          (show (buf₁ ++ part.take (min part.length (tempBufSize - buf₁.length))).length ≤
              tempBufSize by
            simp only [length_append, length_take]; omega)
        rw [hsum] at hrest
        simp only [hzero, if_false]
        obtain hfails | ⟨conn', buf', henc, hlt', hwritten', hok⟩ := hrest
        · exact .inl hfails
        · refine .inr ⟨conn', buf', henc, hlt', ?_, hok⟩
          rw [hwritten', ← hwritten]
          simp only [append_assoc, take_append_drop]

/-! ## The body -/

theorem data_spec (body : Bytes) (reads : List (Option ℕ)) {room : ℕ} (hroom : 0 < room) :
    (data body reads room = none ∧ reads.head? = some none) ∨
      ∃ octets left reads', data body reads room = some (octets, left, reads') ∧
        reads.head? ≠ some none ∧ octets ++ left = body ∧ octets.length ≤ room ∧
        (octets = [] → body = []) := by
  rcases reads with _ | ⟨_ | n, reads⟩
  · refine .inr ⟨_, _, _, rfl, by simp, take_append_drop _ _, by simp, ?_⟩
    intro hnil
    simpa [hroom.ne'] using hnil
  · exact .inl ⟨rfl, rfl⟩
  · refine .inr ⟨_, _, _, rfl, by simp, take_append_drop _ _, by simp, ?_⟩
    intro hnil
    have hpos : min (n + 1) room ≠ 0 := by omega
    simpa [hpos] using hnil

/-- What the loop over the body reads and writes. -/
structure BodySpec (conn : Conn) (buf body : Bytes) (reads : List (Option ℕ))
    (result : Option (Conn × Bytes) × Bytes) : Prop where
  suffix : result.2 <:+ body
  read : reads.head? ≠ some none → body ≠ [] → result.2 ≠ body
  error : reads.head? = some none → result = (none, body)
  whole : ∀ conn' buf', result.1 = some (conn', buf') →
    result.2 = [] ∧ conn'.written ++ buf' = conn.written ++ buf ++ body

theorem encodeBody_spec {fuel : ℕ} (reads : List (Option ℕ)) (hfuel : body.length < fuel)
    (hbuf : buf.length < tempBufSize) :
    BodySpec conn buf body reads (encodeBody fuel conn buf reads body) := by
  induction fuel generalizing conn buf body reads with
  | zero => omega
  | succ fuel ih =>
    rw [encodeBody, if_pos hbuf]
    obtain ⟨hnone, hhead⟩ | ⟨octets, left, reads', hdata, hhead, hsplit, hlen, hempty⟩ :=
      data_spec body reads (Nat.sub_pos_of_lt hbuf)
    · rw [hnone]
      refine ⟨suffix_refl _, fun h => absurd hhead h, fun _ => rfl, ?_⟩
      intro conn' buf' h
      cases h
    · rw [hdata]
      have hsuffix : left <:+ body := ⟨octets, hsplit⟩
      have hshorter : body ≠ [] → ∀ rest, rest <:+ left → rest ≠ body := by
        intro hbody rest hrest heq
        have hpos := length_pos_of_ne_nil fun hnil => hbody (hempty hnil)
        have hle := hrest.length_le
        rw [heq, ← hsplit, length_append] at hle
        omega
      obtain ⟨hnone, -, -⟩ | ⟨conn₁, buf₁, hflush, hlt, hwritten, -⟩ :=
        flush_spec conn (show (buf ++ octets).length ≤ tempBufSize by rw [length_append]; omega)
      · simp only [hnone]
        refine ⟨hsuffix, fun _ hbody => hshorter hbody left (suffix_refl _),
          fun h => absurd h hhead, ?_⟩
        intro conn' buf' h
        cases h
      · simp only [hflush]
        by_cases hnil : octets = []
        · rw [if_pos hnil]
          have hbody := hempty hnil
          subst hnil hbody
          have hleft : left = [] := hsplit
          subst hleft
          refine ⟨suffix_refl _, fun _ h => absurd rfl h, fun h => absurd h hhead, ?_⟩
          rintro conn' buf' h
          cases h
          exact ⟨rfl, by rw [hwritten, append_assoc]⟩
        · rw [if_neg hnil]
          have hpos := length_pos_of_ne_nil hnil
          have hrest := ih conn₁ reads'
            (show left.length < fuel by rw [← hsplit, length_append] at hfuel; omega) hlt
          refine ⟨hrest.suffix.trans hsuffix, fun _ hbody => hshorter hbody _ hrest.suffix,
            fun h => absurd h hhead, ?_⟩
          intro conn' buf' h
          obtain ⟨hend, hall⟩ := hrest.whole conn' buf' h
          refine ⟨hend, ?_⟩
          rw [hall, hwritten, ← hsplit, append_assoc, append_assoc, append_assoc]

/-! ## One message -/

/-- The attempt comes so far that it reads the body. -/
def Attempt.ReadsBody (self : Attempt) (part : Bytes) : Prop :=
  self.connects = true ∧ Goes self.writes (part.length / tempBufSize) ∧ self.reads.head? ≠ some none

structure WriteSpec (attempt : Attempt) (part body : Bytes) (result : Option Bytes × Bytes) :
    Prop where
  suffix : result.2 <:+ body
  kept : body ≠ [] → (result.2 = body ↔ ¬attempt.ReadsBody part)
  whole : ∀ octets, result.1 = some octets → octets = part ++ body

theorem write_spec (attempt : Attempt) (part body : Bytes) :
    WriteSpec attempt part body (write attempt part body) := by
  have hstays : ¬attempt.ReadsBody part → WriteSpec attempt part body (none, body) := by
    intro hnot
    exact ⟨suffix_refl _, fun _ => iff_of_true rfl hnot, fun _ h => by cases h⟩
  rw [write]
  by_cases hconnects : attempt.connects = true
  · rw [if_pos hconnects]
    obtain ⟨hnone, hfails⟩ | ⟨conn, buf, hpart, hlt, hwritten, hgoes⟩ :=
      encodePart_spec { written := [], writes := attempt.writes }
        (show part.length < part.length + 2 by omega)
        (show ([] : Bytes).length ≤ tempBufSize from Nat.zero_le _)
    · rw [hnone]
      rw [length_nil, Nat.zero_add] at hfails
      exact hstays fun h => hfails h.2.1
    · rw [length_nil, Nat.zero_add] at hgoes
      simp only [hpart]
      have hbody := encodeBody_spec conn attempt.reads
        (show body.length < body.length + 2 by omega) hlt
      generalize encodeBody (body.length + 2) conn buf attempt.reads body = result at hbody
      obtain ⟨sent, left⟩ := result
      have hkept : body ≠ [] → (left = body ↔ ¬attempt.ReadsBody part) := by
        intro hne
        by_cases hhead : attempt.reads.head? = some none
        · have hleft : left = body := congrArg Prod.snd (hbody.error hhead)
          exact iff_of_true hleft fun h => h.2.2 hhead
        · exact iff_of_false (hbody.read hhead hne) fun h => h ⟨hconnects, hgoes, hhead⟩
      cases sent with
      | none => exact ⟨hbody.suffix, hkept, fun _ h => by cases h⟩
      | some sent =>
        obtain ⟨conn', buf'⟩ := sent
        refine ⟨hbody.suffix, hkept, ?_⟩
        intro octets hoct
        have hall := (hbody.whole conn' buf' rfl).2
        rw [hwritten, nil_append, nil_append] at hall
        simp only [Conn.finish] at hoct
        rw [← hall]
        split at hoct
        · obtain ⟨hnone, -⟩ | ⟨hsome, -⟩ := writeAll_spec conn' buf'
          · rw [hnone] at hoct
            cases hoct
          · rw [hsome] at hoct
            cases hoct
            rfl
        · next hnil =>
            have hbuf : buf' = [] := length_eq_zero_iff.mp (not_not.mp hnil)
            cases hoct
            rw [hbuf, append_nil]
  · rw [if_neg hconnects]
    exact hstays fun h => hconnects h.1

/-! ## Runs -/

/-- Each message is written with what the one before has left of the body. -/
inductive Chain (part : Request Bytes → Bytes) : Bytes → List Sending → Prop
  | nil (body : Bytes) : Chain part body []
  | cons {sending : Sending} {rest : List Sending}
      (hwritten : sending.written =
        (write sending.attempt (part sending.request) sending.request.body).1)
      (hrest : Chain part (write sending.attempt (part sending.request) sending.request.body).2
        rest) :
      Chain part sending.request.body (sending :: rest)

variable {part : Request Bytes → Bytes}

theorem redirect_body (strategy : Strategy) (request : Request Bytes) (response : Response)
    (previous : List Uri) : (strategy.redirect request response previous).1.body = request.body := by
  have hfollow : ∀ request : Request Bytes,
      (strategy.follow request response previous).1.body = request.body := by
    intro request
    rw [Strategy.follow]
    split
    · rfl
    · split <;> rfl
  rw [Strategy.redirect]
  split
  · exact hfollow request.rewrite
  · split
    · exact hfollow request
    · rfl

theorem send_chain (config : ClientConfig) (part : Request Bytes → Bytes) (retries : ℕ)
    (previous : List Uri) (request : Request Bytes) (attempts : List Attempt) :
    Chain part request.body (send config part retries previous request attempts) := by
  induction attempts generalizing retries previous request with
  | nil => exact .nil _
  | cons attempt attempts ih =>
    have hretry : ∀ next : Request Bytes,
        Chain part next.body
          (if retries = 0 then [] else send config part (retries - 1) [] next attempts) := by
      intro next
      split
      · exact .nil _
      · exact ih _ _ next
    rw [send]
    cases hwrite : write attempt (part request) request.body with
    | mk written body =>
      have hcons : ∀ rest, Chain part body rest → Chain part request.body
          ({ request, attempt, written } :: rest) := by
        intro rest hrest
        have hchain := @Chain.cons part { request, attempt, written } rest
        rw [hwrite] at hchain
        exact hchain rfl hrest
      dsimp only
      split
      · next _ _ response _ =>
          apply hcons
          have hbody := redirect_body config.redirect { request with body } response previous
          split
          · exact .nil _
          · next next previous' hredirect =>
              rw [hredirect] at hbody
              have hnext : next.body = body := hbody
              rw [← hnext]
              split
              · next formatted hfmt =>
                  rw [← (Request.format_ok hfmt).2.1]
                  exact ih _ _ formatted
              · exact hretry next
          · next next previous' e hredirect =>
              rw [hredirect] at hbody
              have hnext : next.body = body := hbody
              rw [← hnext]
              exact hretry next
      · exact hcons _ (hretry { request with body })

theorem Chain.body_eq_iff {before after : List Sending} {sending : Sending}
    (h : Chain part body (before ++ sending :: after)) :
    sending.request.body <:+ body ∧ (body ≠ [] → (sending.request.body = body ↔
      ∀ earlier ∈ before, ¬earlier.attempt.ReadsBody (part earlier.request))) ∧
      ∀ octets, sending.written = some octets →
        octets = part sending.request ++ sending.request.body := by
  induction before generalizing body with
  | nil =>
    cases h with
    | cons hwritten hrest =>
      refine ⟨suffix_refl _, fun _ => iff_of_true rfl (by simp), ?_⟩
      rw [hwritten]
      exact (write_spec _ _ _).whole
  | cons earlier before ih =>
    cases h with
    | cons hwritten hrest =>
      have hspec := write_spec earlier.attempt (part earlier.request) earlier.request.body
      obtain ⟨hsuffix, hkept, hwhole⟩ := ih hrest
      refine ⟨hsuffix.trans hspec.suffix, ?_, hwhole⟩
      intro hne
      constructor
      · intro heq
        have hleft : (write earlier.attempt (part earlier.request) earlier.request.body).2 =
            earlier.request.body := by
          apply hspec.suffix.eq_of_length
          have hle := hsuffix.length_le
          rw [heq] at hle
          exact le_antisymm hspec.suffix.length_le hle
        rw [hleft] at hkept
        have hrest := (hkept hne).mp heq
        intro e he
        rcases mem_cons.mp he with rfl | he
        · exact (hspec.kept hne).mp hleft
        · exact hrest e he
      · intro hall
        have hleft := (hspec.kept hne).mpr (hall earlier (.head _))
        rw [hleft] at hkept
        exact (hkept hne).mpr fun e he => hall e (.tail _ he)

def CarriesBody (original request : Request Bytes) : Prop :=
  ∀ name ∈ updatedHeaders, request.headers.get name = original.headers.get name

/-- What is written again to carry the body carries all of it. -/
def ResendsWhole (part : Request Bytes → Bytes) (sendings : List Sending) : Prop :=
  ∀ first before sending after, sendings = first :: before ++ sending :: after →
    CarriesBody first.request sending.request → ∀ octets, sending.written = some octets →
      octets = part sending.request ++ first.request.body

/-- There is no body, or no attempt ahead of such a message has got as far as the body. -/
def KeepsBody (part : Request Bytes → Bytes) (sendings : List Sending) : Prop :=
  ∀ first before sending after, sendings = first :: before ++ sending :: after →
    CarriesBody first.request sending.request → sending.written.isSome → first.request.body ≠ [] →
      ∀ earlier ∈ first :: before, ¬earlier.attempt.ReadsBody (part earlier.request)

theorem Chain.resendsWhole_iff {sendings : List Sending} (h : Chain part body sendings) :
    ResendsWhole part sendings ↔ KeepsBody part sendings := by
  have hfirst : ∀ first rest, sendings = first :: rest → body = first.request.body := by
    rintro first rest rfl
    cases h
    rfl
  constructor
  · intro hwhole first before sending after hsplit hcarr hwritten hne
    obtain ⟨octets, hoct⟩ := Option.isSome_iff_exists.mp hwritten
    have hbody := hfirst first _ hsplit
    rw [hsplit] at h
    obtain ⟨-, hkept, hsent⟩ := h.body_eq_iff
    have heq := (hsent octets hoct).symm.trans
      (hwhole first before sending after hsplit hcarr octets hoct)
    rw [← hbody] at heq hne
    exact (hkept hne).mp (append_cancel_left heq)
  · intro hkeeps first before sending after hsplit hcarr octets hoct
    have hbody := hfirst first _ hsplit
    have hchain := h
    rw [hsplit] at hchain
    obtain ⟨hsuffix, hkept, hsent⟩ := hchain.body_eq_iff
    rw [hsent octets hoct, ← hbody]
    by_cases hne : body = []
    · rw [hne] at hsuffix ⊢
      rw [suffix_nil.mp hsuffix]
    · have hall := hkeeps first before sending after hsplit hcarr
        (Option.isSome_iff_exists.mpr ⟨octets, hoct⟩) (hbody ▸ hne)
      rw [(hkept hne).mpr hall]

/-- The bodies are sent again as they should be if and only if none of them had been begun. -/
theorem bodies_resent (config : ClientConfig) (part : Request Bytes → Bytes)
    (original : Request Bytes) (attempts : List Attempt) :
    ResendsWhole part (request config part original attempts) ↔
      KeepsBody part (request config part original attempts) := by
  rw [request]
  split
  · exact (Chain.nil []).resendsWhole_iff
  · exact (send_chain config part _ [] _ attempts).resendsWhole_iff

def putThree : Request Bytes where
  method := .put
  version := .http1_1
  headers := (Headers.new.insert (str "Content-Length") (str "3")).getD .new
  body := [1, 2, 3]
  uri := { scheme := some .http, authority := some { host := str "a", port := none },
           path := some (str "/"), query := none }

def unanswered : Attempt := { connects := true, writes := [], reads := [], response := none }

def movedToB : Attempt :=
  { unanswered with
    response := some
      { status := 307, headers := (Headers.new.insert (str "Location") (str "/b")).getD .new } }

/-- A client that was built without setting anything. -/
def plainConfig : ClientConfig := ⟨.http, .limitTimes (2 ^ 64 - 1), 0⟩

/-- A redirect with 307 of a request that has been written: the message to `/b` has the fields of
the first, and no body. -/
theorem body_gone :
    ¬∀ (config : ClientConfig) (part : Request Bytes → Bytes) (original : Request Bytes)
      (attempts : List Attempt), ResendsWhole part (request config part original attempts) := by
  intro h
  have hwhole := h plainConfig (fun _ => []) putThree [movedToB, unanswered]
  have hcount : (request plainConfig (fun _ => []) putThree [movedToB, unanswered]).length = 2 := by
    decide +kernel
  obtain ⟨first, next, hsendings⟩ := length_eq_two.mp hcount
  have hsent : ∀ s ∈ request plainConfig (fun _ => []) putThree [movedToB, unanswered],
      (s.written = some s.request.body) ∧
        updatedHeaders.map s.request.headers.get = updatedHeaders.map putThree.headers.get := by
    decide +kernel
  have hbodies : (request plainConfig (fun _ => []) putThree [movedToB, unanswered]).map
      (·.request.body) = [[1, 2, 3], []] := by
    decide +kernel
  rw [hsendings] at hwhole hsent hbodies
  obtain ⟨hfirst, hnext⟩ : first.request.body = [1, 2, 3] ∧ next.request.body = [] := by
    simpa using hbodies
  obtain ⟨-, hheaders⟩ := hsent first (by simp)
  obtain ⟨hwritten, hheaders'⟩ := hsent next (by simp)
  have hcarries : CarriesBody first.request next.request :=
    map_inj_left.mp (hheaders'.trans hheaders.symm)
  have hgone := hwhole first [] next [] rfl hcarries [] (hnext ▸ hwritten)
  rw [hfirst] at hgone
  cases hgone

end YlongHttp.Client.Sync
