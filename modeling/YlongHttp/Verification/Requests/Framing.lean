import Mathlib.Data.List.DropRight
import YlongHttp.Model.Messages
import YlongHttp.Verification.Requests.Chunks
import YlongHttp.Verification.Requests.Runs

/-! # Where the body of a request ends

The length fields are those of the request that was given, up to the first redirect that changes
the method. That one removes them and keeps the body. -/

namespace YlongHttp.Client

open List Option Nat

/-- The last transfer coding in the value, in lower case. -/
def finalCoding (value : Bytes) : Bytes :=
  let isOws (b : UInt8) : Bool := b = ' '.toUInt8 || b = '\t'.toUInt8
  let last := (value.splitOn ','.toUInt8).getLastD []
  ((last.dropWhile isOws).rdropWhile isOws).map toAsciiLowercase

variable (headers : Headers)

def Chunked : Prop :=
  ∃ value, headers.get (str "Transfer-Encoding") = some value ∧
    finalCoding value.toString = str "chunked"

/-- The headers tell a reader where the body ends. -/
def SelfDelimiting (body : Bytes) : Prop :=
  body = [] ∨ contentLength headers = some body.length ∨
    Chunked headers ∧ ∃ data, ChunkCoded data body

/-! ## What is written -/

def Reader.text (self : Reader) : Bytes := (self.takeWhile fun part => !part.isEmpty).flatten

variable {filled fuel fuel' : ℕ}

theorem textWritten_text (reader : Reader) (hfill : filled < tempBufSize) :
    ∃ fuel, textWritten fuel reader filled = some reader.text := by
  induction reader generalizing filled with
  | nil => exact ⟨1, rfl⟩
  | cons part rest ih =>
    -- A part may take several reads, so that the second induction is on its length.
    induction hn : part.length using Nat.strong_induction_on generalizing part filled with
    | _ n ihn =>
      subst hn
      cases part with
      | nil => exact ⟨1, by simp [textWritten, Reader.read, Reader.text]⟩
      | cons b part =>
        have hroom : 0 < tempBufSize - filled := Nat.sub_pos_of_lt hfill
        have hmod : ∀ n, n % tempBufSize < tempBufSize := fun n => mod_lt _ (by decide)
        by_cases hfits : (b :: part).length ≤ tempBufSize - filled
        · obtain ⟨fuel, hwritten⟩ := ih (hmod (filled + (b :: part).length))
          refine ⟨fuel + 1, ?_⟩
          rw [textWritten, Reader.read, take_of_length_le hfits, if_pos hfits]
          dsimp only
          rw [if_neg (cons_ne_nil _ _), hwritten]
          rfl
        · have hdrop : ((b :: part).drop (tempBufSize - filled)).length < (b :: part).length := by
            rw [length_drop]
            simp only [length_cons] at hfits ⊢
            omega
          have hne : ((b :: part).drop (tempBufSize - filled)) ≠ [] := by
            rw [Ne, drop_eq_nil_iff]
            exact hfits
          obtain ⟨fuel, hwritten⟩ := ihn _ hdrop ((b :: part).drop (tempBufSize - filled))
            (hmod (filled + ((b :: part).take (tempBufSize - filled)).length)) rfl
          refine ⟨fuel + 1, ?_⟩
          have htake : (b :: part).take (tempBufSize - filled) ≠ [] := by
            rw [Ne, take_eq_nil_iff]
            simp only [cons_ne_nil, or_false]
            exact hroom.ne'
          rw [textWritten, Reader.read, if_neg hfits]
          dsimp only
          rw [if_neg htake, hwritten]
          simp only [Reader.text, takeWhile_cons, isEmpty_cons, Bool.not_false,
            isEmpty_eq_false_iff.mpr hne, if_true, flatten_cons,
            map_some, ← append_assoc, take_append_drop]

variable {out : Bytes}

theorem textWritten_mono {reader : Reader} (h : textWritten fuel reader filled = some out)
    (hle : fuel ≤ fuel') : textWritten fuel' reader filled = some out := by
  induction fuel generalizing fuel' reader filled out with
  | zero => cases h
  | succ fuel ih =>
    obtain ⟨fuel', rfl⟩ := exists_eq_succ_of_ne_zero (ne_zero_of_lt hle)
    rcases hread : reader.read (tempBufSize - filled) with ⟨part, rest⟩
    rw [textWritten, hread] at h ⊢
    dsimp only at h ⊢
    by_cases hpart : part = []
    · rwa [if_pos hpart] at h ⊢
    · rw [if_neg hpart, map_eq_some_iff] at h
      obtain ⟨out', hout, rfl⟩ := h
      rw [if_neg hpart, ih hout (le_of_succ_le_succ hle)]
      rfl

theorem ChunkBody.written_mono {self : ChunkBody} (h : self.written fuel filled = some out)
    (hle : fuel ≤ fuel') : self.written fuel' filled = some out := by
  induction fuel generalizing fuel' self filled out with
  | zero => cases h
  | succ fuel ih =>
    obtain ⟨fuel', rfl⟩ := exists_eq_succ_of_ne_zero (ne_zero_of_lt hle)
    rcases hstep : self.step (tempBufSize - filled) with ⟨part, next⟩
    rw [ChunkBody.written, hstep] at h ⊢
    dsimp only at h ⊢
    by_cases hst : self.dataState = .finish
    · rwa [if_pos hst] at h ⊢
    · rw [if_neg hst, map_eq_some_iff] at h
      obtain ⟨out', hout, rfl⟩ := h
      rw [if_neg hst, ih hout (le_of_succ_le_succ hle)]
      rfl

variable (self : Sending Body)

def Sending.Writes (body : Bytes) : Prop :=
  ∃ fuel, encodeVariousBody fuel self.request self.event.reads = some body

theorem encodeVariousBody_mono {request : Request Body} {reads : List Bytes}
    (h : encodeVariousBody fuel request reads = some out) (hle : fuel ≤ fuel') :
    encodeVariousBody fuel' request reads = some out := by
  rw [encodeVariousBody] at h ⊢
  split at h
  · exact (if_pos ‹_›).trans h
  · rw [if_neg ‹_›]
    dsimp only at h ⊢
    split at h
    · exact (if_pos ‹_›).trans (ChunkBody.written_mono h hle)
    · exact (if_neg ‹_›).trans (textWritten_mono h hle)

theorem Sending.Writes.unique {self : Sending Body} {body body' : Bytes} (h : self.Writes body)
    (h' : self.Writes body') : body' = body := by
  obtain ⟨fuel, hbody⟩ := h
  obtain ⟨fuel', hbody'⟩ := h'
  have hmax := encodeVariousBody_mono hbody (le_max_left fuel fuel')
  rw [encodeVariousBody_mono hbody' (le_max_right fuel fuel')] at hmax
  exact some.inj hmax

/-! ## The length fields in a run -/

section
variable {B : Type} {config : ClientConfig} {reuse : B → B} {name : Bytes}

def lengthFields : List Bytes := [str "Content-Length", str "Transfer-Encoding"]

theorem lengthFields_distinct (h : name ∈ lengthFields) :
    HeaderName.fromBytes name ≠ HeaderName.fromBytes (str "Accept") ∧
      HeaderName.fromBytes name ≠ HeaderName.fromBytes (str "Host") ∧
      HeaderName.fromBytes name ∉ sensitiveHeaders.map HeaderName.fromBytes ∧
      HeaderName.fromBytes name ∈ updatedHeaders.map HeaderName.fromBytes := by
  revert name
  decide

def Sending.rewritten (self : Sending B) : Bool :=
  match self.event.answer with
  | .response response => rewrites response.status
  | _ => false

theorem Strategy.get_follow (self : Strategy) (request : Request B) (response : Response)
    (previous : List Uri) (h : name ∈ lengthFields) :
    (self.follow request response previous).1.headers.get name = request.headers.get name := by
  rw [Strategy.follow]
  cases location request response with
  | none => rfl
  | some location =>
    dsimp only
    cases self.trigger (previous ++ [request.uri]).length with
    | error e => rfl
    | ok trigger =>
      cases trigger with
      | stop => rfl
      | nextLink =>
        simp only [getLast?_concat]
        split
        · rw [Headers.get_removes, if_neg (lengthFields_distinct h).2.2.1]
        · rfl

theorem Sending.get_after (self : Sending B) (strategy : Strategy) (h : name ∈ lengthFields) :
    (self.after strategy).headers.get name =
      if self.rewritten then none else self.request.headers.get name := by
  rw [Sending.after, Sending.rewritten]
  cases self.event.answer with
  | refused => rfl
  | error => rfl
  | response response =>
    dsimp only
    rw [Strategy.redirect]
    by_cases hrewrites : rewrites response.status = true
    · rw [if_pos hrewrites, if_pos hrewrites, strategy.get_follow _ _ _ h, Request.rewrite,
        Headers.get_removes, if_pos (lengthFields_distinct h).2.2.2]
    · rw [if_neg hrewrites, if_neg hrewrites]
      split
      · exact strategy.get_follow _ _ _ h
      · rfl

theorem Sending.Hop.get {s s' : Sending B} (hop : s.Hop config reuse s')
    (h : name ∈ lengthFields) :
    s'.request.headers.get name = if s.rewritten then none else s.request.headers.get name := by
  obtain ⟨haccept, hhost, -⟩ := lengthFields_distinct h
  exact (Resent.get hop haccept hhost).trans (s.get_after config.redirect h)

theorem Sends.get {request : Request B} {sendings : List (Sending B)}
    (hsends : Sends config reuse request sendings) {k : ℕ} {s : Sending B}
    (hs : sendings[k]? = some s) (h : name ∈ lengthFields) :
    s.request.headers.get name =
      if (sendings.take k).any Sending.rewritten then none else request.headers.get name := by
  induction k generalizing s with
  | zero =>
    obtain ⟨haccept, hhost, -⟩ := lengthFields_distinct h
    exact (hsends.first hs).get haccept hhost
  | succ k ih =>
    have hlt : k < sendings.length := lt_of_succ_lt (List.getElem?_eq_some_iff.mp hs).1
    have hbefore : sendings[k]? = some sendings[k] := getElem?_eq_getElem hlt
    have htoList : (some sendings[k]).toList.any Sending.rewritten = sendings[k].rewritten := by
      simp
    rw [(hsends.hop hbefore hs).get h, ih hbefore, take_add_one, hbefore, any_append, htoList]
    cases (sendings.take k).any Sending.rewritten with
    | false => rw [Bool.false_or]; rfl
    | true => rw [Bool.true_or, if_pos rfl, ite_self]

end

/-! ## Bodies that are delimited -/

/-- A request can be told apart from the next: its body yields nothing; or no answer before has
changed the method, and the fields that were given are right for what the body yields. -/
def Sending.Framed (headers : Headers) (rewritten : Bool) : Prop :=
  let reader := self.request.body.reader self.event.reads
  self.request.body.isEmpty ∨
    if rewritten = false ∧ transferEncoding headers then
      Chunked headers ∧ ∃ (chunks : List Bytes) (last : Bytes), ChunkReads reader chunks last ∧
        last ≠ [] ∧ (hex last.length).length ≤
          tempBufSize - (chunks.length * ChunkBody.fullLength) % tempBufSize
    else reader.text = [] ∨ rewritten = false ∧ contentLength headers = some reader.text.length

theorem Sending.Framed.delimited {s : Sending Body} {headers : Headers} {rewritten : Bool}
    (h : s.Framed headers rewritten)
    (hget : ∀ name ∈ lengthFields,
      s.request.headers.get name = if rewritten then none else headers.get name) :
    ∃ body, s.Writes body ∧ SelfDelimiting s.request.headers body := by
  have hlength := hget (str "Content-Length") (by decide)
  have hcoding := hget (str "Transfer-Encoding") (by decide)
  have htransfer : transferEncoding s.request.headers =
      decide (rewritten = false ∧ transferEncoding headers = true) := by
    rw [transferEncoding, hcoding]
    cases rewritten with
    | true => rfl
    | false => simp [transferEncoding]
  by_cases hempty : s.request.body.isEmpty = true
  · exact ⟨[], ⟨0, if_pos hempty⟩, .inl rfl⟩
  · have hrest := h.resolve_left hempty
    by_cases hchunked : rewritten = false ∧ transferEncoding headers = true
    · rw [if_pos hchunked] at hrest
      obtain ⟨⟨value, hval, hfinal⟩, chunks, last, hreads, hne, hroom⟩ := hrest
      obtain ⟨fuel, body, hwritten, hcoded⟩ := ChunkBody.written_coded hreads hne hroom
      refine ⟨body, ⟨fuel, ?_⟩, .inr (.inr ⟨⟨value, ?_, hfinal⟩, _, hcoded⟩)⟩
      · rw [encodeVariousBody, if_neg hempty, htransfer, decide_eq_true hchunked]
        exact hwritten
      · rw [hcoding, hchunked.1]
        exact hval
    · rw [if_neg hchunked] at hrest
      obtain ⟨fuel, hwritten⟩ := textWritten_text (s.request.body.reader s.event.reads)
        (by decide : 0 < tempBufSize)
      refine ⟨(s.request.body.reader s.event.reads).text, ⟨fuel, ?_⟩, ?_⟩
      · rw [encodeVariousBody, if_neg hempty, htransfer, decide_eq_false hchunked]
        exact hwritten
      · rcases hrest with hnil | ⟨hrewritten, hcontent⟩
        · exact .inl hnil
        · refine .inr (.inl ?_)
          rw [contentLength, hlength, hrewritten]
          exact hcontent

/-- Each request of a run is delimited, where its fields are right for its body. -/
theorem request_delimited (config : ClientConfig) (request : Request Body) (events : List Event)
    (hframed : ∀ (k : ℕ) (s : Sending Body),
      (config.request Body.reuse request events)[k]? = some s → s.Framed request.headers
        (((config.request Body.reuse request events).take k).any Sending.rewritten)) :
    ∀ s ∈ config.request Body.reuse request events, ∃ body, s.Writes body ∧
      (∀ body', s.Writes body' → body' = body) ∧ SelfDelimiting s.request.headers body := by
  intro s hs
  obtain ⟨k, hk⟩ := mem_iff_getElem?.mp hs
  have hsends : Sends config Body.reuse request (config.request Body.reuse request events) :=
    request_sends request events
  obtain ⟨body, hwrites, hdelimits⟩ := (hframed k s hk).delimited fun name hname =>
    hsends.get hk hname
  exact ⟨body, hwrites, fun body' h' => hwrites.unique h', hdelimits⟩

/-- A slice that is sent with the length that the builder sets. -/
def sliceRequest (headers : Headers) : Request Body :=
  { method := .post, version := .http1_1, headers, body := .ofSlice (str "hi")
    uri := { scheme := some .http, authority := some { host := str "a", port := none },
             path := some (str "/"), query := none } }

def sliceHeaders : Headers := ((Body.ofSlice (str "hi")).headers .new).getD .new

theorem sliceHeaders_eq : (Body.ofSlice (str "hi")).headers .new = some sliceHeaders := by
  obtain ⟨headers, hsome⟩ := isSome_iff_exists.mp
    (by decide : ((Body.ofSlice (str "hi")).headers .new).isSome = true)
  rw [sliceHeaders, hsome, getD_some]

/-- A body that can be used again. -/
def answered (answer : Answer) : Event :=
  { reads := [], answer, redirectReuse := true, retryReuse := true }

def movedToB (status : ℕ) : Event :=
  answered (.response
    { status, headers := (Headers.new.insert (str "Location") (str "/b")).getD .new })

/-- The slice is sent to `/`, to the location of a 307, and as there is no answer again to it. -/
def resent : List (Sending Body) :=
  ClientConfig.request ⟨.http, .limitTimes 10, 1⟩ Body.reuse (sliceRequest sliceHeaders)
    [movedToB 307, answered .error, answered .error]

theorem request_delimited_resent :
    resent.length = 3 ∧ ∀ s ∈ resent, ∃ body, s.Writes body ∧
      (∀ body', s.Writes body' → body' = body) ∧ SelfDelimiting s.request.headers body := by
  have hall : (resent.all fun s => s.request.body.reader s.event.reads = [str "hi"] ∧
      s.rewritten = false) = true := by decide
  replace hall : ∀ s ∈ resent, s.request.body.reader s.event.reads = [str "hi"] ∧
      s.rewritten = false := fun s hs => of_decide_eq_true (List.all_eq_true.mp hall s hs)
  refine ⟨by decide, request_delimited _ _ _ fun k s hs => .inr ?_⟩
  have hkept : (resent.take k).any Sending.rewritten = false := by
    rw [List.any_eq_false]
    intro s' hs'
    rw [(hall s' (mem_of_mem_take hs')).2]
    exact Bool.false_ne_true
  have hplain : transferEncoding sliceHeaders = false := by decide
  have hlength : contentLength sliceHeaders = some 2 := by decide
  rw [(hall s (mem_of_getElem? hs)).1, if_neg (by simp [sliceRequest, hplain])]
  exact .inr ⟨hkept, hlength⟩

/-- A slice is sent again to the location of a 302, without its length. -/
theorem request_undelimited :
    ∃ (headers : Headers) (request : Request Body) (events : List Event) (s : Sending Body)
      (body : Bytes),
      (Body.ofSlice (str "hi")).headers .new = some headers ∧ request.headers = headers ∧
      request.body = .ofSlice (str "hi") ∧
      (ClientConfig.request ⟨.http, .limitTimes 10, 0⟩ Body.reuse request events)[1]? = some s ∧
      s.Writes body ∧ ¬SelfDelimiting s.request.headers body := by
  have hsent : ((ClientConfig.request ⟨.http, .limitTimes 10, 0⟩ Body.reuse
      (sliceRequest sliceHeaders) [movedToB 302, answered .error])[1]?.map fun s =>
        (encodeVariousBody 2 s.request s.event.reads, contentLength s.request.headers,
          (s.request.headers.get (str "Transfer-Encoding")).isSome)) =
          some (some (str "hi"), none, false) := by
    decide
  rw [map_eq_some_iff] at hsent
  obtain ⟨s, hs, hsent⟩ := hsent
  obtain ⟨hwrites, hrest⟩ := Prod.mk.inj hsent
  obtain ⟨hlength, hcoding⟩ := Prod.mk.inj hrest
  refine ⟨_, _, _, s, str "hi", sliceHeaders_eq, rfl, rfl, hs, ⟨2, hwrites⟩, ?_⟩
  rintro (hnil | hlen | ⟨⟨value, hval, -⟩, -⟩)
  · exact absurd hnil (by decide)
  · rw [hlength] at hlen
    cases hlen
  · rw [hval] at hcoding
    cases hcoding

end YlongHttp.Client
