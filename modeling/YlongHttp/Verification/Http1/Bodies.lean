import Mathlib.Data.List.DropRight
import YlongHttp.Model.Http1.Body

/-! # What the caller of a response body has -/

namespace YlongHttp.Http1

open List Http1.Polled Nat TextBodyDecoder
open Client (Method)

variable {bound room : ℕ} {buf ds value : Bytes} {decoder : TextBodyDecoder}

/-! ## The length of a body -/

def decimalStep (n : ℕ) (b : UInt8) : ℕ := 10 * n + (b.toNat - 48)

def natural (ds : Bytes) : ℕ := ds.foldl decimalStep 0

/-- `1*DIGIT`. -/
def IsDigits (ds : Bytes) : Prop := ds ≠ [] ∧ ∀ b ∈ ds, isAsciiDigit b = true

instance (ds : Bytes) : Decidable (IsDigits ds) :=
  @instDecidableAnd _ _ _ (List.decidableBAll _ ds)

def fieldElements (value : Bytes) : List Bytes :=
  let isOws (b : UInt8) : Bool := b = ' '.toUInt8 || b = '\t'.toUInt8
  ((value.splitOn ','.toUInt8).map fun part => (part.dropWhile isOws).rdropWhile isOws).filter
    (· ≠ [])

/-- Whether `chunked` is the last of the transfer codings. -/
def ChunkedLast (value : Bytes) : Prop :=
  (fieldElements value).getLast?.any (eqIgnoreAsciiCase (str "chunked")) = true

instance (value : Bytes) : Decidable (ChunkedLast value) := by
  rw [ChunkedLast]
  infer_instance

/-- The number of a `Content-Length`: one, or the same one again and again, and it fits into 64
bits. -/
def lengthOf (value : Bytes) : Option ℕ :=
  match fieldElements value with
  | [] => none
  | ds :: rest => if (∀ ds' ∈ rest, ds' = ds) ∧ IsDigits ds ∧ natural ds < 2 ^ 64 then
      some (natural ds) else none

def BodyLength.known (len : ℕ) : BodyLength := if len = 0 then .empty else .length len

/-- The length of the body of a response as RFC 9112, section 6.3, has it; `none` is an error. -/
def framing (method : Method) (part : ResponsePart) : Option BodyLength :=
  if method = .head ∨ isInformational part.status = true ∨ part.status = 204 ∨
      part.status = 304 ∨ method = .connect ∧ isSuccessful part.status = true then some .empty
  else
    match part.headers.get (str "Transfer-Encoding") with
    | some value =>
      -- HTTP/1.0 has no transfer codings: the framing is faulty.
      if part.version = .http1_0 then none
      else if ChunkedLast value.toString then some .chunk
      else some .untilClose
    | none =>
      match part.headers.get (str "Content-Length") with
      | some value => (lengthOf value.toString).map .known
      | none => some .untilClose

/-- Where the code and the RFC read a `Transfer-Encoding` alike. -/
def PlainCoding (value : Bytes) : Prop := str "chunked" <:+: value ↔ ChunkedLast value

/-- Where the code and the RFC read a `Content-Length` alike: no number has a plus sign, and one
that is in a list, or has white space around it, is alone. -/
structure PlainLength (value : Bytes) : Prop where
  unsigned : ∀ ds, value = '+'.toUInt8 :: ds → IsDigits ds → 2 ^ 64 ≤ natural ds
  alone : ∀ len, lengthOf value = some len → IsDigits value

def PlainFields (method : Method) (part : ResponsePart) : Prop :=
  method = .head ∨ isInformational part.status = true ∨ part.status = 204 ∨ part.status = 304 ∨
    (method = .connect ∧ isSuccessful part.status = true) ∨
    match part.headers.get (str "Transfer-Encoding") with
    | some value => part.version = .http1_0 ∨ PlainCoding value.toString
    | none => ∀ value ∈ part.headers.get (str "Content-Length"), PlainLength value.toString

theorem le_foldl_decimalStep (ds : Bytes) (acc : ℕ) : acc ≤ ds.foldl decimalStep acc := by
  induction ds generalizing acc with
  | nil => exact le_refl acc
  | cons d ds ih =>
    refine le_trans ?_ (ih (decimalStep acc d))
    rw [decimalStep]
    omega

theorem parseDigits_iff {acc n : ℕ} (hacc : acc < bound) :
    parseDigits bound acc ds = some n ↔
      (∀ b ∈ ds, isAsciiDigit b = true) ∧ ds.foldl decimalStep acc = n ∧ n < bound := by
  induction ds generalizing acc with
  | nil =>
    rw [parseDigits, Option.some_inj]
    constructor
    · rintro rfl
      exact ⟨(by simp), rfl, hacc⟩
    · exact fun h => h.2.1
  | cons d ds ih =>
    rw [parseDigits, foldl_cons, forall_mem_cons]
    by_cases hstep : isAsciiDigit d = true ∧ 10 * acc + (d.toNat - 48) < bound
    · rw [if_pos hstep, ih hstep.2, and_assoc, and_iff_right hstep.1]
      rfl
    · rw [if_neg hstep]
      refine iff_of_false (by simp) ?_
      rintro ⟨hdigits, hn, hlt⟩
      refine hstep ⟨hdigits.1, ?_⟩
      have hle := le_foldl_decimalStep ds (decimalStep acc d)
      rw [hn] at hle
      exact lt_of_le_of_lt hle hlt

theorem parseUnsigned_iff (hbound : 0 < bound) {len : ℕ} :
    parseUnsigned bound value = some len ↔
      len < bound ∧ ∃ ds, IsDigits ds ∧ natural ds = len ∧
        (value = ds ∨ value = '+'.toUInt8 :: ds) := by
  cases value with
  | nil =>
    refine iff_of_false nofun ?_
    rintro ⟨-, ds, hds, -, h | h⟩
    · exact hds.1 h.symm
    · cases h
  | cons b rest =>
    rw [parseUnsigned]
    by_cases hplus : b = '+'.toUInt8 ∧ rest ≠ []
    · obtain ⟨rfl, hrest⟩ := hplus
      rw [if_pos ⟨rfl, hrest⟩, parseDigits_iff hbound]
      constructor
      · rintro ⟨hdigits, hn, hlt⟩
        exact ⟨hlt, rest, ⟨hrest, hdigits⟩, hn, .inr rfl⟩
      · rintro ⟨hlt, ds, hds, hn, rfl | h⟩
        · exact absurd (hds.2 _ (.head _)) (by decide)
        · obtain ⟨-, rfl⟩ := cons.inj h
          exact ⟨hds.2, hn, hlt⟩
    · rw [if_neg hplus, parseDigits_iff hbound]
      constructor
      · rintro ⟨hdigits, hn, hlt⟩
        exact ⟨hlt, b :: rest, ⟨cons_ne_nil b rest, hdigits⟩, hn, .inl rfl⟩
      · rintro ⟨hlt, ds, hds, hn, rfl | h⟩
        · exact ⟨hds.2, hn, hlt⟩
        · obtain ⟨rfl, rfl⟩ := cons.inj h
          exact absurd ⟨rfl, hds.1⟩ hplus

theorem fieldElements_single (hne : value ≠ [])
    (h : ∀ b ∈ value, b ≠ ','.toUInt8 ∧ b ≠ ' '.toUInt8 ∧ b ≠ '\t'.toUInt8) :
    fieldElements value = [value] := by
  have hows : ∀ b ∈ value, ¬(decide (b = ' '.toUInt8) || decide (b = '\t'.toUInt8)) = true := by
    intro b hb
    simp [(h b hb).2.1, (h b hb).2.2]
  have hsplit : value.splitOn ','.toUInt8 = [value] :=
    splitOn_eq_singleton fun hmem => (h _ hmem).1 rfl
  rw [fieldElements, hsplit, map_singleton,
    dropWhile_eq_self_iff.mpr fun hpos => hows _ (getElem_mem hpos),
    rdropWhile_eq_self_iff.mpr fun hnil => hows _ (getLast_mem hnil)]
  simp [hne]

theorem plain_of_isAsciiDigit {b : UInt8} (h : isAsciiDigit b = true) :
    b ≠ ','.toUInt8 ∧ b ≠ ' '.toUInt8 ∧ b ≠ '\t'.toUInt8 := by
  refine ⟨?_, ?_, ?_⟩ <;> rintro rfl <;> exact absurd h (by decide)

theorem lengthOf_digits (h : IsDigits value) :
    lengthOf value = if natural value < 2 ^ 64 then some (natural value) else none := by
  rw [lengthOf, fieldElements_single h.1 fun b hb => plain_of_isAsciiDigit (h.2 b hb)]
  simp [h]

theorem lengthOf_plus (h : IsDigits ds) : lengthOf ('+'.toUInt8 :: ds) = none := by
  have hplain : ∀ b ∈ '+'.toUInt8 :: ds, b ≠ ','.toUInt8 ∧ b ≠ ' '.toUInt8 ∧ b ≠ '\t'.toUInt8 := by
    intro b hb
    rcases mem_cons.mp hb with rfl | hb
    · decide
    · exact plain_of_isAsciiDigit (h.2 b hb)
  have hnot : ¬IsDigits ('+'.toUInt8 :: ds) := fun hdigits =>
    absurd (hdigits.2 _ (.head _)) (by decide)
  rw [lengthOf, fieldElements_single (cons_ne_nil _ _) hplain]
  simp [hnot]

theorem parseUnsigned_lengthOf_iff :
    parseUnsigned (2 ^ 64) value = lengthOf value ↔ PlainLength value := by
  constructor
  · intro h
    refine ⟨fun ds hval hds => ?_, fun len hlen => ?_⟩
    · by_contra hlt
      have hsome := (parseUnsigned_iff (by decide)).mpr
        ⟨Nat.lt_of_not_le hlt, ds, hds, rfl, .inr hval⟩
      rw [h, hval, lengthOf_plus hds] at hsome
      cases hsome
    · obtain ⟨-, ds, hds, -, rfl | rfl⟩ := (parseUnsigned_iff (by decide)).mp (h.trans hlen)
      · exact hds
      · rw [lengthOf_plus hds] at hlen
        cases hlen
  · intro h
    have hparsed : ∀ len, parseUnsigned (2 ^ 64) value = some len →
        IsDigits value ∧ natural value = len ∧ len < 2 ^ 64 := by
      intro len hlen
      obtain ⟨hlt, ds, hds, hn, rfl | hplus⟩ := (parseUnsigned_iff (by decide)).mp hlen
      · exact ⟨hds, hn, hlt⟩
      · exact absurd (h.unsigned ds hplus hds) (by omega)
    have hread : ∀ len, lengthOf value = some len →
        IsDigits value ∧ natural value = len ∧ len < 2 ^ 64 := by
      intro len hlen
      have hdigits := h.alone len hlen
      rw [lengthOf_digits hdigits] at hlen
      split_ifs at hlen with hlt
      cases hlen
      exact ⟨hdigits, rfl, hlt⟩
    refine Option.ext fun len => ⟨fun hlen => ?_, fun hlen => ?_⟩
    · obtain ⟨hdigits, rfl, hlt⟩ := hparsed len hlen
      rw [lengthOf_digits hdigits, if_pos hlt]
    · obtain ⟨hdigits, rfl, hlt⟩ := hread len hlen
      exact (parseUnsigned_iff (by decide)).mpr ⟨hlt, value, hdigits, rfl, .inl rfl⟩

theorem map_known_inj {a b : Option ℕ} : a.map BodyLength.known = b.map .known ↔ a = b := by
  refine (Option.map_injective fun m n h => ?_).eq_iff
  simp only [BodyLength.known] at h
  split_ifs at h with hm hn hn
  · rw [hm, hn]
  · exact BodyLength.length.inj h

/-- The body of a response has the length that RFC 9112 gives it exactly where the fields that
count are plain. -/
theorem parse_framing_iff (method : Method) (part : ResponsePart) :
    (BodyLengthParser.parse { reqMethod := method, part }).toOption = framing method part ↔
      PlainFields method part := by
  rw [BodyLengthParser.parse, framing, PlainFields]
  by_cases hstat :
      (isInformational part.status || part.status = 204 || part.status = 304) = true
  · have hspec : isInformational part.status = true ∨ part.status = 204 ∨ part.status = 304 := by
      simpa [or_assoc] using hstat
    rw [if_pos hstat, if_pos (by tauto)]
    exact iff_of_true rfl (by tauto)
  · have hspec : ¬(isInformational part.status = true ∨ part.status = 204 ∨ part.status = 304) := by
      simpa [or_assoc] using hstat
    rw [if_neg hstat]
    by_cases hmethod : (method = .connect && isSuccessful part.status || method = .head) = true
    · have hnone : method = .head ∨ method = .connect ∧ isSuccessful part.status = true := by
        simpa [or_comm] using hmethod
      rw [if_pos hmethod, if_pos (by tauto)]
      exact iff_of_true rfl (by tauto)
    · have hsome : ¬(method = .head ∨ method = .connect ∧ isSuccessful part.status = true) := by
        simpa [or_comm] using hmethod
      rw [if_neg hmethod, if_neg (by tauto)]
      have hflds {P : Prop} : (method = .head ∨ isInformational part.status = true ∨
          part.status = 204 ∨ part.status = 304 ∨
          (method = .connect ∧ isSuccessful part.status = true) ∨ P) ↔ P := by tauto
      rw [hflds]
      cases part.headers.get (str "Transfer-Encoding") with
      | some value =>
        by_cases hver : part.version = .http1_0
        · simp only [hver, if_true, true_or, iff_true]
          rfl
        · simp only [hver, if_false, false_or, PlainCoding]
          by_cases hcode : str "chunked" <:+: value.toString
          · by_cases hlast : ChunkedLast value.toString <;> simp [hcode, hlast, Except.toOption]
          · by_cases hlast : ChunkedLast value.toString <;> simp [hcode, hlast, Except.toOption]
      | none =>
        cases part.headers.get (str "Content-Length") with
        | none => exact iff_of_true rfl nofun
        | some value =>
          simp only [Option.mem_def, Option.some.injEq, forall_eq']
          rw [← parseUnsigned_lengthOf_iff, ← map_known_inj]
          -- A `Content-Length` of 0 is an empty body.
          rcases parseUnsigned (2 ^ 64) value.toString with _ | _ | len <;> rfl

/-- `xchunked` is not `chunked`. -/
theorem parse_not_framing :
    ¬∀ (method : Method) (part : ResponsePart),
      (BodyLengthParser.parse { reqMethod := method, part }).toOption = framing method part := by
  intro h
  have hcode := h .get
    { version := .http1_1, status := 200
      headers := (Headers.new.insert (str "Transfer-Encoding") (str "xchunked")).getD .new }
  exact absurd hcode (by decide)

/-! ## Octets read ahead -/

def held : Option PreRead → Bytes
  | none => []
  | some pre => pre.bytes.drop pre.pos

@[simp] theorem held_none : held none = [] := rfl

theorem held_new (bytes : Bytes) : held (PreRead.new bytes) = bytes := by
  cases bytes with
  | nil => rfl
  | cons b bytes => rfl

theorem readInto_cases (pre : PreRead) (hroom : 0 < room) :
    ((pre.readInto room).1 = [] ∧ held (some pre) = []) ∨
    ∃ behind, pre.readInto room = ((held (some pre)).take room, behind) ∧
      (held (some pre)).take room ≠ [] ∧ held (some behind) = (held (some pre)).drop room := by
  have hlength : (held (some pre)).length = pre.bytes.length - pre.pos := length_drop
  by_cases hzero : min (pre.bytes.length - pre.pos) room = 0
  · refine .inl ⟨by rw [PreRead.readInto, if_pos hzero], eq_nil_of_length_eq_zero ?_⟩
    omega
  · have htake : (held (some pre)).take (min (pre.bytes.length - pre.pos) room)
        = (held (some pre)).take room := by
      rw [take_eq_take_iff]
      omega
    refine .inr ⟨_, by rw [PreRead.readInto, if_neg hzero]; exact congrArg (·, _) htake, ?_, ?_⟩
    · rw [← length_pos_iff, length_take]
      omega
    · change pre.bytes.drop (pre.pos + min (pre.bytes.length - pre.pos) room) = _
      rw [held, drop_drop]
      rcases le_total (pre.bytes.length - pre.pos) room with hle | hle
      · rw [drop_eq_nil_of_le (by omega), drop_eq_nil_of_le (by omega)]
      · rw [min_eq_right hle]

/-! ## Calls -/

theorem readAll_ended {σ : Type} (data : σ → ℕ → Socket → Polled σ) (capacities : List ℕ)
    {received : Received σ} {answer : Except BodyError Unit} (h : received.ended = some answer) :
    Received.readAll data capacities received = received := by
  cases capacities with
  | nil => rfl
  | cons capacity capacities => rw [Received.readAll, h]

theorem readAll_next {σ : Type} {data : σ → ℕ → Socket → Polled σ} {capacity : ℕ}
    {capacities : List ℕ} {body : σ} {socket : Socket} {delivered : Bytes} {next : Received σ}
    (h : (data body capacity socket).received delivered = next) :
    Received.readAll data (capacity :: capacities) { body, socket, delivered, ended := none } =
      Received.readAll data capacities next := by
  rw [Received.readAll, h]

theorem pollRead_octets (io : Http1Conn) {incoming : Bytes} (hne : incoming ≠ []) (hroom : 0 < room)
    (more : ℕ) (arrivals : List Arrival) (closed : Bool) :
    ∃ filled rest, filled ≠ [] ∧ incoming = filled ++ rest ∧
      io.pollRead room { incoming, arrivals := .octets more :: arrivals, closed } =
        (.ready (.ok filled), { incoming := rest, arrivals, closed := false }) := by
  refine ⟨_, _, ?_, (take_append_drop (min room (more + 1)) incoming).symm, ?_⟩
  · rw [← length_pos_iff] at hne ⊢
    rw [length_take]
    omega
  · have hopen : incoming.isEmpty = false := by simpa using hne
    rw [Http1Conn.pollRead, hopen]

/-! ## Bodies that the end of the connection ends -/

/-- What is delivered is a beginning of `whole`, and `Ok(0)` comes when it is all of it and the
connection has closed. -/
structure DeliveredWhole {σ : Type} (whole : Bytes) (received : Received σ) : Prop where
  beginning : received.delivered <+: whole
  ended : received.ended = some (.ok ()) →
    received.delivered = whole ∧ received.socket.closed = true

/-- One of the buffers takes the last of `size` octets and has room for more. -/
def Straddles : ℕ → List ℕ → Prop
  | _, [] => False
  | size, capacity :: capacities =>
    if capacity < size then Straddles (size - capacity) capacities else size < capacity

/-- The connection closes without an octet, and its end is read in the call that delivers the last
of the octets read ahead. -/
structure EndsWithPre (pre : Bytes) (socket : Socket) (capacities : List ℕ) : Prop where
  ahead : pre ≠ []
  nothing : socket.incoming = []
  ready : ∃ more arrivals, socket.arrivals = .octets more :: arrivals
  straddles : Straddles pre.length capacities

namespace UntilClose

variable {intercept : Interceptor}
variable {capacity room : ℕ} {front whole : Bytes} {io : Http1Conn} {socket socket' : Socket}
  {capacities : List ℕ}

theorem data_eq (self : UntilClose) (hcap : 0 < capacity) (socket : Socket) :
    ∃ pre, held pre = (held self.pre).drop capacity ∧ data intercept self capacity socket =
      readIo intercept { self with pre } ((held self.pre).take capacity) capacity socket := by
  rw [data, if_neg hcap.ne']
  obtain ⟨pre, io⟩ := self
  cases pre with
  | none => exact ⟨none, by simp, by simp⟩
  | some pre =>
    rcases readInto_cases pre hcap with ⟨hread, hheld⟩ | ⟨behind, hread, hne, hbehind⟩
    · refine ⟨none, by simp [hheld], ?_⟩
      simp [hread, hheld]
    · refine ⟨some behind, hbehind, ?_⟩
      simp only [hread, length_eq_zero_iff, hne, if_false]

theorem readIo_full (self : UntilClose) (hfull : capacity ≤ front.length) (socket : Socket) :
    readIo intercept self front capacity socket =
      { result := .ready (.ok front.length), body := self, octets := front, socket
        shutdown := false } := by
  rw [readIo]
  cases self.io with
  | none => rfl
  | some io => exact if_neg (by omega)

theorem readIo_room {self : UntilClose} (hio : self.io = some io) (hroom : front.length < capacity)
    (socket : Socket) :
    readIo intercept self front capacity socket =
      pollReadIo intercept { self with io := none } io front (capacity - front.length) socket := by
  rw [readIo, hio]
  exact if_pos hroom

theorem pollReadIo_octets (self : UntilClose) (front : Bytes) {filled : Bytes}
    (hfill : filled ≠ []) (hpoll : io.pollRead room socket = (.ready (.ok filled), socket'))
    (delivered : Bytes) :
    let received := (pollReadIo intercept self io front room socket).received delivered
    received = { body := self, socket := socket', delivered
                 ended := some (.error .interceptor) } ∨
      received = { body := { self with io := some io }, socket := socket'
                   delivered := delivered ++ (front ++ filled), ended := none } := by
  intro received
  have hlength : filled.length ≠ 0 := length_eq_zero_iff.not.mpr hfill
  cases hintercept : intercept filled with
  | error e =>
    left
    simp only [received, pollReadIo, hpoll, hlength, if_false, hintercept, Polled.received]
  | ok u =>
    right
    have hsome : (front ++ filled).length ≠ 0 := by
      rw [length_append]
      omega
    simp only [received, pollReadIo, hpoll, hlength, if_false, hintercept, Polled.received,
      ← length_append, hsome, take_length]

theorem pollReadIo_end (self : UntilClose) (io : Http1Conn) (front : Bytes) (room more : ℕ)
    (arrivals : List Arrival) (closed : Bool) (delivered : Bytes) :
    (pollReadIo intercept self io front room
      { incoming := [], arrivals := .octets more :: arrivals, closed }).received delivered =
      { body := self, socket := { incoming := [], arrivals, closed := true }, delivered
        ended := some (.ok ()) } := by
  simp [pollReadIo, Http1Conn.pollRead, Http1Conn.isStreamClosable, received]

theorem pollReadIo_pending (self : UntilClose) (hfront : front ≠ [])
    (hpoll : io.pollRead room socket = (.pending, socket')) (delivered : Bytes) :
    (pollReadIo intercept self io front room socket).received delivered =
      { body := { self with io := some io }, socket := socket', delivered := delivered ++ front
        ended := none } := by
  simp [pollReadIo, hpoll, hfront, received]

variable (intercept)

theorem readAll_rest (hpos : ∀ c ∈ capacities, 0 < c) :
    ∀ {self : UntilClose} {io : Http1Conn} {socket : Socket} {delivered : Bytes},
      held self.pre = [] → self.io = some io → delivered ++ socket.incoming = whole →
      DeliveredWhole whole (Received.readAll (data intercept) capacities
        { body := self, socket, delivered, ended := none }) := by
  induction capacities with
  | nil =>
    intro self io socket delivered _ _ hwhole
    exact ⟨⟨socket.incoming, hwhole⟩, nofun⟩
  | cons capacity capacities ih =>
    intro self io socket delivered hheld hio hwhole
    have hcap := hpos capacity (.head _)
    replace ih := @ih fun c hc => hpos c (.tail _ hc)
    obtain ⟨pre, hpre, hdata⟩ := @data_eq intercept capacity self hcap socket
    rw [hheld, drop_nil] at hpre
    rw [hheld, take_nil, readIo_room (by exact hio) (by simpa using hcap),
      length_nil, Nat.sub_zero] at hdata
    rw [readAll_next rfl, hdata]
    obtain ⟨incoming, arrivals, closed⟩ := socket
    cases arrivals with
    | nil => exact ih hpre rfl hwhole
    | cons arrival arrivals =>
      cases arrival with
      | pending => exact ih hpre rfl hwhole
      | error kind =>
        rw [readAll_ended _ _ rfl]
        exact ⟨⟨incoming, hwhole⟩, nofun⟩
      | octets more =>
        by_cases hincoming : incoming = []
        · subst hincoming
          rw [append_nil] at hwhole
          rw [pollReadIo_end, readAll_ended _ _ rfl]
          exact ⟨⟨[], by rw [append_nil]; exact hwhole⟩, fun _ => ⟨hwhole, rfl⟩⟩
        · obtain ⟨filled, rest, hfill, rfl, hpoll⟩ :=
            pollRead_octets io hincoming hcap more arrivals closed
          rcases pollReadIo_octets { self with pre, io := none } [] hfill hpoll delivered
            with h | h
          · rw [h, readAll_ended _ _ rfl]
            exact ⟨⟨_, hwhole⟩, nofun⟩
          · rw [h]
            exact ih hpre rfl (by rw [nil_append, append_assoc, hwhole])

theorem endsWithPre_drop {pre : Bytes} (hcap : capacity ≤ pre.length) :
    EndsWithPre (pre.drop capacity) socket capacities ↔
      EndsWithPre pre socket (capacity :: capacities) := by
  have hstraddles : Straddles pre.length (capacity :: capacities) ↔
      capacity < pre.length ∧ Straddles (pre.drop capacity).length capacities := by
    rw [Straddles, length_drop]
    by_cases h : capacity < pre.length
    · rw [if_pos h, and_iff_right h]
    · rw [if_neg h]
      omega
  constructor
  · rintro ⟨hahead, hnothing, hready, h⟩
    rw [← length_pos_iff, length_drop] at hahead
    exact ⟨length_pos_iff.mp (by omega), hnothing, hready, hstraddles.mpr ⟨by omega, h⟩⟩
  · rintro ⟨hahead, hnothing, hready, h⟩
    obtain ⟨hlt, h⟩ := hstraddles.mp h
    exact ⟨drop_eq_nil_iff.not.mpr (by omega), hnothing, hready, h⟩

theorem readAll_iff (hpos : ∀ c ∈ capacities, 0 < c) :
    ∀ {self : UntilClose} {io : Http1Conn} {socket : Socket} {delivered : Bytes},
      self.io = some io → delivered ++ (held self.pre ++ socket.incoming) = whole →
      (DeliveredWhole whole (Received.readAll (data intercept) capacities
        { body := self, socket, delivered, ended := none }) ↔
      ¬EndsWithPre (held self.pre) socket capacities) := by
  induction capacities with
  | nil =>
    intro self io socket delivered _ hwhole
    exact ⟨fun _ h => h.straddles, fun _ => ⟨⟨_, hwhole⟩, nofun⟩⟩
  | cons capacity capacities ih =>
    intro self io socket delivered hio hwhole
    by_cases hheld : held self.pre = []
    · rw [hheld, nil_append] at hwhole
      exact ⟨fun _ h => h.ahead hheld, fun _ => readAll_rest intercept hpos hheld hio hwhole⟩
    have hcap := hpos capacity (.head _)
    have hrest : ∀ c ∈ capacities, 0 < c := fun c hc => hpos c (.tail _ hc)
    obtain ⟨pre, hpre, hdata⟩ := @data_eq intercept capacity self hcap socket
    rw [readAll_next rfl, hdata]
    rcases lt_or_ge (held self.pre).length capacity with hroom | hfull
    · -- The connection is polled in the call that delivers the last octets read ahead.
      rw [drop_eq_nil_of_le (by omega)] at hpre
      rw [take_of_length_le (by omega), readIo_room (by exact hio) hroom]
      have hstraddles : Straddles (held self.pre).length (capacity :: capacities) := by
        rw [Straddles, if_neg (by omega)]
        exact hroom
      obtain ⟨incoming, arrivals, closed⟩ := socket
      have hpend {arrivals' : List Arrival}
          (hpoll : io.pollRead (capacity - (held self.pre).length) { incoming, arrivals, closed }
            = (.pending, { incoming, arrivals := arrivals', closed }))
          (hready : ∀ more arrivals', arrivals ≠ .octets more :: arrivals') :
          DeliveredWhole whole (Received.readAll (data intercept) capacities
            ((pollReadIo intercept { self with pre, io := none } io (held self.pre)
              (capacity - (held self.pre).length)
              { incoming, arrivals, closed }).received delivered)) ↔
          ¬EndsWithPre (held self.pre) { incoming, arrivals, closed }
            (capacity :: capacities) := by
        rw [pollReadIo_pending _ hheld hpoll]
        refine iff_of_true (readAll_rest intercept hrest hpre rfl ?_) fun h => ?_
        · rw [append_assoc]
          exact hwhole
        · obtain ⟨more, arrivals', hoct⟩ := h.ready
          exact hready more arrivals' hoct
      cases arrivals with
      | nil => exact hpend rfl nofun
      | cons arrival arrivals =>
        cases arrival with
        | pending => exact hpend rfl nofun
        | error kind =>
          rw [readAll_ended _ _ rfl]
          refine ⟨fun _ h => ?_, fun _ => ⟨⟨_, hwhole⟩, nofun⟩⟩
          obtain ⟨more, arrivals', hready⟩ := h.ready
          cases hready
        | octets more =>
          by_cases hincoming : incoming = []
          · subst hincoming
            rw [pollReadIo_end, readAll_ended _ _ rfl]
            refine iff_of_false (fun h => ?_)
              (not_not.mpr ⟨hheld, rfl, ⟨more, arrivals, rfl⟩, hstraddles⟩)
            have hall := (h.ended rfl).1
            rw [← hwhole] at hall
            simp [hheld] at hall
          · refine iff_of_true ?_ fun h => hincoming h.nothing
            obtain ⟨filled, rest, hfill, rfl, hpoll⟩ :=
              pollRead_octets io hincoming (Nat.sub_pos_of_lt hroom) more arrivals closed
            rcases pollReadIo_octets { self with pre, io := none } (held self.pre) hfill
              hpoll delivered with h | h
            · rw [h, readAll_ended _ _ rfl]
              exact ⟨⟨_, hwhole⟩, nofun⟩
            · rw [h]
              refine readAll_rest intercept hrest hpre rfl ?_
              rw [append_assoc, append_assoc]
              exact hwhole
    · have htaken : ((held self.pre).take capacity).length = capacity := by
        rw [length_take]
        omega
      rw [readIo_full _ htaken.ge, ← endsWithPre_drop hfull, ← hpre]
      have hnext : ((held self.pre).take capacity).length ≠ 0 := by omega
      simp only [received, hnext, if_false, take_length]
      refine ih hrest hio ?_
      rw [hpre, append_assoc, ← append_assoc (take _ _), take_append_drop]
      exact hwhole

end UntilClose

/-! ## Close-delimited bodies -/

def UntilClose.receive (intercept : Interceptor) (pre : Bytes) (socket : Socket)
    (capacities : List ℕ) : Received UntilClose :=
  Received.readAll (UntilClose.data intercept) capacities (.start (.new pre {}) socket)

/-- A body that ends with the connection is delivered whole, unless the connection closes without
an octet and its end is read together with the last of the octets read ahead. -/
theorem untilClose_delivered_iff (intercept : Interceptor) (pre incoming : Bytes)
    (arrivals : List Arrival) {capacities : List ℕ} (hpos : ∀ c ∈ capacities, 0 < c) :
    DeliveredWhole (pre ++ incoming)
        (UntilClose.receive intercept pre (.new incoming arrivals) capacities) ↔
      ¬EndsWithPre pre (.new incoming arrivals) capacities := by
  have hiff := @UntilClose.readAll_iff intercept (pre ++ incoming) capacities hpos (.new pre {}) {}
    (.new incoming arrivals) [] rfl (by rw [UntilClose.new, held_new]; rfl)
  rwa [UntilClose.new, held_new] at hiff

theorem untilClose_delivered_iff_pending :
    DeliveredWhole (str "ab" ++ [])
        (UntilClose.receive (fun _ => .ok ()) (str "ab") (.new [] [.pending, .octets 0]) [4, 4]) ↔
      ¬EndsWithPre (str "ab") (.new [] [.pending, .octets 0]) [4, 4] :=
  untilClose_delivered_iff _ _ _ _ (by decide)

/-- Two octets came with the head, and the connection is closed: the caller has none of them. -/
theorem pre_not_delivered :
    ¬∀ (pre incoming : Bytes) (arrivals : List Arrival) (capacities : List ℕ),
      (∀ c ∈ capacities, 0 < c) → DeliveredWhole (pre ++ incoming)
        (UntilClose.receive (fun _ => .ok ()) pre (.new incoming arrivals) capacities) := by
  intro h
  have hclosed := h (str "ab") [] [.octets 0] [4] (by decide)
  exact absurd (hclosed.ended (by decide)).1 (by decide)

/-! ## Bodies of a known length -/

def Arrival.isOctets : Arrival → Bool
  | .octets _ => true
  | _ => false

/-- Enough polls bring octets for all of them and then the end of the connection to come. -/
def Socket.Finishes (socket : Socket) : Prop :=
  socket.incoming.length < socket.arrivals.countP Arrival.isOctets

/-- Why a body of `n` octets ends with an error, where `whole` comes with `arrivals`. -/
def FailsFor (intercept : Interceptor) (n : ℕ) (whole : Bytes) (arrivals : List Arrival)
    (e : BodyError) : Prop :=
  (e = .bodyDecode "Response body incomplete" ∧ whole.length < n) ∨
  (e = .bodyDecode "Not eof" ∧ n < whole.length) ∨
  (e = .interceptor ∧ ∃ octets, intercept octets = .error ()) ∨
  ∃ kind, e = .bodyDecodeIo kind ∧ .error kind ∈ arrivals

/-- What is delivered is a beginning of `whole` with at most `n` octets, `Ok(0)` comes when they
are `n`, the end of the connection is an error, and every error has its cause. -/
structure DeliveredExactly {σ : Type} (intercept : Interceptor) (n : ℕ) (whole : Bytes)
    (arrivals : List Arrival) (received : Received σ) : Prop where
  beginning : received.delivered <+: whole
  atMost : received.delivered.length ≤ n
  ended : received.ended = some (.ok ()) → received.delivered.length = n
  short : received.socket.closed = true →
    received.ended = some (.error (.bodyDecode "Response body incomplete"))
  cause : ∀ e, received.ended = some (.error e) → FailsFor intercept n whole arrivals e

theorem decode_short (h : buf.length < decoder.left) :
    decoder.decode buf =
      ({ isComplete := false, rem := [] }, { left := decoder.left - buf.length }) := by
  have hmin : min decoder.left buf.length = buf.length := by omega
  simp [decode, show decoder.left ≠ 0 by omega, hmin, show decoder.left - buf.length ≠ 0 by omega]

theorem decode_exact (h : buf.length = decoder.left) :
    decoder.decode buf = ({ isComplete := true, rem := [] }, { left := 0 }) := by
  obtain ⟨left⟩ := decoder
  subst h
  rcases eq_or_ne buf [] with rfl | hbuf
  · rfl
  · simp [decode, hbuf]

theorem decode_redundant (h : decoder.left < buf.length) :
    (decoder.decode buf).1.isComplete = true ∧ (decoder.decode buf).1.rem.isEmpty = false := by
  rcases Nat.eq_zero_or_pos decoder.left with hzero | hpos
  · simp only [decode, hzero, if_true]
    refine ⟨trivial, ?_⟩
    rw [isEmpty_eq_false_iff, ← length_pos_iff]
    omega
  · have hmin : min decoder.left buf.length = decoder.left := by omega
    simp only [decode, hpos.ne', if_false, hmin]
    refine ⟨by simp, ?_⟩
    simpa using h

namespace Text

variable {self : Text} {delivered front : Bytes} {capacity room : ℕ} {socket : Socket}

/-- Between two calls: the decoder counts what is not delivered, and the connection is kept until
it has counted all. -/
structure Counting (n : ℕ) (whole : Bytes) (arrivals : List Arrival) (received : Received Text) :
    Prop where
  sum : received.delivered ++ (held received.body.pre ++ received.socket.incoming) = whole
  left : received.body.decoder.left + received.delivered.length = n
  io : received.body.io = if received.body.decoder.left = 0 then none else some {}
  opened : received.socket.closed = false
  behind : received.socket.arrivals <:+ arrivals

/-- What bounds the calls to come: each takes octets read ahead or polls the connection. -/
def toCome (received : Received Text) : ℕ :=
  (held received.body.pre).length + received.socket.arrivals.length

/-- After a call with at most `bound` to come before it, on a connection that finished or not. -/
def Counted (intercept : Interceptor) (n : ℕ) (whole : Bytes) (arrivals : List Arrival)
    (finishes : Prop) (bound : ℕ) (received : Received Text) : Prop :=
  (received.ended = none ∧ Counting n whole arrivals received ∧
    (finishes → received.socket.Finishes ∧ toCome received < bound)) ∨
  (received.ended ≠ none ∧ DeliveredExactly intercept n whole arrivals received)

variable {intercept : Interceptor} {n : ℕ} {whole : Bytes} {arrivals : List Arrival}
  {finishes : Prop} {bound : ℕ}

theorem counted_error {received : Received Text} {e : BodyError}
    (hended : received.ended = some (.error e)) (hbeginning : received.delivered <+: whole)
    (hn : received.delivered.length ≤ n) (hcause : FailsFor intercept n whole arrivals e)
    (hclosed : received.socket.closed = true → e = .bodyDecode "Response body incomplete") :
    Counted intercept n whole arrivals finishes bound received := by
  refine .inr ⟨by rw [hended]; nofun, hbeginning, hn, ?_, fun h => ?_, fun e' he => ?_⟩
  · rw [hended]
    nofun
  · rw [hended, hclosed h]
  · rw [hended] at he
    cases he
    exact hcause

theorem pollReadIo_octets {io : Http1Conn} {filled : Bytes} {socket' : Socket}
    (hpre : held self.pre = []) (hio : self.io = none) (hfill : filled ≠ [])
    (hn : self.decoder.left + (delivered.length + front.length) = n)
    (hsum : delivered ++ (front ++ (filled ++ socket'.incoming)) = whole)
    (hopen : socket'.closed = false) (hbehind : socket'.arrivals <:+ arrivals)
    (hbound : finishes → socket'.Finishes ∧ socket'.arrivals.length < bound)
    (hpoll : io.pollRead room socket = (.ready (.ok filled), socket')) :
    Counted intercept n whole arrivals finishes bound
      ((pollReadIo intercept self io front room socket).received delivered) := by
  have hlength : filled.length ≠ 0 := length_eq_zero_iff.not.mpr hfill
  have hfailed {received : Received Text} {e : BodyError}
      (hended : received.ended = some (.error e)) (hdel : received.delivered = delivered)
      (hsocket : received.socket = socket') (hcause : FailsFor intercept n whole arrivals e) :
      Counted intercept n whole arrivals finishes bound received := by
    refine counted_error hended (by rw [hdel]; exact ⟨_, hsum⟩) ?_ hcause fun h => ?_
    · rw [hdel]
      omega
    · rw [hsocket, hopen] at h
      cases h
  have hread {left : ℕ} {io' : Option Http1Conn}
      (hleft : left + filled.length = self.decoder.left)
      (hio' : io' = if left = 0 then none else some {})
      (hnext : (pollReadIo intercept self io front room socket).received delivered =
        { body := { self with decoder := { left }, io := io' }, socket := socket'
          delivered := delivered ++ (front ++ filled), ended := none }) :
      Counted intercept n whole arrivals finishes bound
        ((pollReadIo intercept self io front room socket).received delivered) := by
    rw [hnext]
    refine .inl ⟨rfl, ⟨?_, ?_, hio', hopen, hbehind⟩, fun h => ⟨(hbound h).1, ?_⟩⟩
    · simp only [hpre, nil_append, append_assoc]
      exact hsum
    · simp only [length_append]
      omega
    · simpa only [toCome, hpre, length_nil, zero_add] using (hbound h).2
  cases hintercept : intercept filled with
  | error e =>
    refine hfailed (e := .interceptor) ?_ ?_ ?_ (.inr (.inr (.inl ⟨rfl, filled, hintercept⟩))) <;>
      simp [pollReadIo, hpoll, hlength, hintercept, received]
  | ok u =>
    rcases Nat.lt_trichotomy filled.length self.decoder.left with hlt | heq | hgt
    · refine hread (Nat.sub_add_cancel hlt.le) (if_neg (Nat.sub_ne_zero_of_lt hlt)).symm ?_
      simp [pollReadIo, hpoll, hlength, hintercept, decode_short hlt, received]
    · refine @hread 0 _ (by omega) (if_pos rfl).symm ?_
      simp [pollReadIo, hpoll, hlength, hintercept, decode_exact heq, received, hio,
        Http1Conn.isStreamClosable]
    · obtain ⟨hcomp, hrem⟩ := decode_redundant hgt
      have hlong : n < whole.length := by
        simp only [← hsum, length_append]
        omega
      refine hfailed (e := .bodyDecode "Not eof") ?_ ?_ ?_ (.inr (.inl ⟨rfl, hlong⟩)) <;>
        simp [pollReadIo, hpoll, hlength, hintercept, hcomp, hrem, received]

theorem pollReadIo_counted (io : Http1Conn) (hpre : held self.pre = []) (hio : self.io = none)
    (hroom : 0 < room) (hleft : 0 < self.decoder.left)
    (hn : self.decoder.left + (delivered.length + front.length) = n)
    (hsum : delivered ++ (front ++ socket.incoming) = whole) (hopen : socket.closed = false)
    (hbehind : socket.arrivals <:+ arrivals) (hbound : socket.arrivals.length ≤ bound) :
    Counted intercept n whole arrivals socket.Finishes bound
      ((pollReadIo intercept self io front room socket).received delivered) := by
  have hpend {socket' : Socket} (hincoming : socket'.incoming = socket.incoming)
      (hclosed : socket'.closed = false) (hbehind : socket'.arrivals <:+ arrivals)
      (hbound : socket.Finishes → socket'.Finishes ∧ socket'.arrivals.length < bound)
      (hpoll : io.pollRead room socket = (.pending, socket')) :
      Counted intercept n whole arrivals socket.Finishes bound
        ((pollReadIo intercept self io front room socket).received delivered) := by
    have hnext : (pollReadIo intercept self io front room socket).received delivered =
        { body := { self with io := some io }, socket := socket', delivered := delivered ++ front
          ended := none } := by
      rcases eq_or_ne front [] with rfl | hfront
      · simp [pollReadIo, hpoll, received]
      · simp [pollReadIo, hpoll, hfront, received]
    rw [hnext]
    refine .inl ⟨rfl, ⟨?_, ?_, (if_neg hleft.ne').symm, hclosed, hbehind⟩,
      fun h => ⟨(hbound h).1, ?_⟩⟩
    · simp only [hpre, hincoming, nil_append, append_assoc]
      exact hsum
    · simpa using hn
    · simpa only [toCome, hpre, length_nil, zero_add] using (hbound h).2
  obtain ⟨rest, coming, closed⟩ := socket
  have hdel : delivered <+: whole := ⟨_, hsum⟩
  have hle : delivered.length ≤ n := by omega
  cases coming with
  | nil => exact hpend rfl hopen hbehind (fun h => absurd h (Nat.not_lt_zero _)) rfl
  | cons arrival coming =>
    have htail : coming <:+ arrivals := (suffix_cons _ _).trans hbehind
    cases arrival with
    | pending =>
      exact @hpend { incoming := rest, arrivals := coming, closed } rfl hopen htail
        (fun h => ⟨h, hbound⟩) rfl
    | error kind =>
      refine counted_error (e := .bodyDecodeIo kind) rfl hdel hle
        (.inr (.inr (.inr ⟨kind, rfl, hbehind.subset (.head _)⟩))) fun h => ?_
      change closed = true at h
      cases h.symm.trans hopen
    | octets more =>
      rcases eq_or_ne rest [] with rfl | hrest
      · have hend : (pollReadIo intercept self io front room
            { incoming := [], arrivals := .octets more :: coming, closed }).result =
            .ready (.error (.bodyDecode "Response body incomplete")) := by
          simp [pollReadIo, Http1Conn.pollRead, @decode_short [] _ hleft]
        have hshort : whole.length < n := by
          simp only [← hsum, length_append, length_nil]
          omega
        rw [received, hend]
        exact counted_error rfl hdel hle (.inl ⟨rfl, hshort⟩) fun _ => rfl
      · obtain ⟨filled, rest, hfill, rfl, hpoll⟩ :=
          pollRead_octets io hrest hroom more coming closed
        refine pollReadIo_octets hpre hio hfill hn hsum rfl htail
          (fun h => ⟨?_, Nat.lt_of_succ_le hbound⟩) hpoll
        have hlength := length_pos_iff.mpr hfill
        have hmore : countP Arrival.isOctets (.octets more :: coming) =
            countP Arrival.isOctets coming + 1 := countP_cons_of_pos rfl
        simp only [Socket.Finishes, length_append, hmore] at h ⊢
        omega

theorem readIo_counted (hcap : 0 < capacity)
    (hio : self.io = if self.decoder.left = 0 then none else some {})
    (hfront : self.decoder.left = 0 → front = [])
    (hroom : front.length < capacity → held self.pre = [])
    (hn : self.decoder.left + (delivered.length + front.length) = n)
    (hsum : delivered ++ (front ++ (held self.pre ++ socket.incoming)) = whole)
    (hopen : socket.closed = false) (hbehind : socket.arrivals <:+ arrivals)
    (hbound : front.length + (held self.pre).length + socket.arrivals.length ≤ bound) :
    Counted intercept n whole arrivals socket.Finishes bound
      ((readIo intercept self front capacity socket).received delivered) := by
  rcases Nat.eq_zero_or_pos self.decoder.left with hzero | hpos
  · -- All is delivered: this is the end of the body.
    obtain rfl := hfront hzero
    rw [hzero, if_pos rfl] at hio
    rw [readIo, hio]
    refine .inr ⟨nofun, ⟨_, hsum⟩, ?_, fun _ => ?_, fun h => ?_, nofun⟩
    · change delivered.length ≤ n
      omega
    · change delivered.length = n
      rw [← hn, hzero, zero_add, length_nil, add_zero]
    · change socket.closed = true at h
      cases h.symm.trans hopen
  · rw [if_neg hpos.ne'] at hio
    rw [readIo, hio]
    by_cases hlt : front.length < capacity
    · simp only [if_pos hlt]
      rw [hroom hlt, nil_append] at hsum
      exact pollReadIo_counted {} (hroom hlt) rfl (Nat.sub_pos_of_lt hlt) hpos hn hsum hopen hbehind
        (by omega)
    · have hsome : front.length ≠ 0 := by omega
      simp only [if_neg hlt, received, if_neg hsome, take_length]
      refine .inl ⟨rfl, ⟨?_, ?_, hio.trans (if_neg hpos.ne').symm, hopen, hbehind⟩,
        fun h => ⟨h, ?_⟩⟩
      · simp only [append_assoc]
        exact hsum
      · simpa using hn
      · simp only [toCome]
        omega

theorem data_counted (hcap : 0 < capacity)
    (h : Counting n whole arrivals { body := self, socket, delivered, ended := none }) :
    Counted intercept n whole arrivals socket.Finishes
      ((held self.pre).length + socket.arrivals.length)
      ((data intercept self capacity socket).received delivered) := by
  obtain ⟨hsum, hleft, hio, hopen, hbehind⟩ := h
  simp only at hsum hleft hio hopen hbehind
  rw [data, if_neg hcap.ne']
  obtain ⟨decoder, pre, io⟩ := self
  cases pre with
  | none =>
    exact readIo_counted hcap hio (fun _ => rfl) (fun _ => rfl) hleft hsum hopen hbehind (by simp)
  | some pre =>
    rcases readInto_cases pre hcap with ⟨hread, hheld⟩ | ⟨behind, hread, hne, hrest⟩
    · simp only [hread, length_nil, if_true]
      simp only [hheld] at hsum ⊢
      exact readIo_counted hcap hio (fun _ => rfl) (fun _ => rfl) hleft hsum hopen hbehind (by simp)
    · simp only at hsum hleft hio
      generalize hfront : (held (some pre)).take capacity = front at hread hne
      have hsplit : held (some pre) = front ++ held (some behind) := by
        rw [hrest, ← hfront, take_append_drop]
      rw [hsplit, append_assoc] at hsum
      have hlength : front.length ≠ 0 := length_eq_zero_iff.not.mpr hne
      simp only [hread, hlength, if_false, readRemaining, hsplit, length_append]
      rcases lt_trichotomy front.length decoder.left with hlt | heq | hgt
      · simp only [decode_short hlt, Bool.false_and, Bool.false_eq_true, if_false]
        refine readIo_counted hcap ?_ (fun h => ?_) (fun hroom => ?_) ?_ hsum hopen hbehind le_rfl
        · simp only [hio, if_neg (show decoder.left ≠ 0 by omega),
            if_neg (show decoder.left - front.length ≠ 0 by omega)]
        · exact absurd h (sub_ne_zero_of_lt hlt)
        · rw [hrest, drop_eq_nil_iff]
          rw [← hfront, length_take] at hroom
          omega
        · simp only
          omega
      · simp only [decode_exact heq, isEmpty_nil, Bool.not_true, Bool.and_false,
          Bool.false_eq_true, if_false, if_true, received, hlength, take_length]
        refine .inl ⟨rfl, ⟨?_, ?_, ?_, hopen, hbehind⟩, fun h => ⟨h, ?_⟩⟩
        · simp only [append_assoc]
          exact hsum
        · simp only [length_append]
          omega
        · cases io <;> rfl
        · simp only [toCome]
          omega
      · obtain ⟨hcomp, hrem⟩ := decode_redundant hgt
        simp only [hcomp, hrem, Bool.not_false, Bool.and_true, if_true]
        have hlong : n < whole.length := by
          simp only [← hsum, length_append]
          omega
        refine counted_error (e := .bodyDecode "Not eof") rfl ⟨_, hsum⟩ ?_
          (.inr (.inl ⟨rfl, hlong⟩)) fun h => ?_
        · change delivered.length ≤ n
          omega
        · change socket.closed = true at h
          cases h.symm.trans hopen

variable (intercept) in
theorem readAll_exactly {capacities : List ℕ} (hpos : ∀ c ∈ capacities, 0 < c) :
    ∀ {received : Received Text}, received.ended = none → Counting n whole arrivals received →
      let answered := Received.readAll (data intercept) capacities received
      DeliveredExactly intercept n whole arrivals answered ∧
        (received.socket.Finishes → toCome received ≤ capacities.length → answered.ended ≠ none) := by
  induction capacities with
  | nil =>
    intro received hended h
    refine ⟨⟨⟨_, h.sum⟩, ?_, fun hok => ?_, fun hclosed => ?_, fun e he => ?_⟩,
      fun hfinishes hle => ?_⟩
    · have hleft := h.left
      change received.delivered.length ≤ n
      omega
    · cases hended.symm.trans hok
    · cases h.opened.symm.trans hclosed
    · cases hended.symm.trans he
    · have hpolls := hfinishes.trans_le countP_le_length
      simp only [toCome, length_nil] at hle
      omega
  | cons capacity capacities ih =>
    rintro ⟨self, socket, delivered, ended⟩ rfl h
    rw [readAll_next rfl]
    rcases data_counted (hpos capacity (.head _)) h with ⟨hnone, hnext, hless⟩ | ⟨hsome, hend⟩
    · obtain ⟨hexactly, hends⟩ := ih (fun c hc => hpos c (.tail _ hc)) hnone hnext
      refine ⟨hexactly, fun hfinishes hle => ?_⟩
      obtain ⟨hfinishes', hlt⟩ := hless hfinishes
      exact hends hfinishes' (Nat.lt_succ_iff.mp (hlt.trans_le hle))
    · obtain ⟨answer, hanswer⟩ := Option.ne_none_iff_exists'.mp hsome
      rw [readAll_ended _ _ hanswer]
      exact ⟨hend, fun _ _ => hsome⟩

end Text

/-! ## Content-Length bodies -/

def Text.receive (intercept : Interceptor) (len : ℕ) (pre : Bytes) (socket : Socket)
    (capacities : List ℕ) : Received Text :=
  Received.readAll (Text.data intercept) capacities (.start (.new len pre {}) socket)

/-- A body of a known length is delivered exactly, and enough calls come to its end or to an error:
the error of a short body where the connection ends before its `n` octets. -/
theorem text_delivered (intercept : Interceptor) {n : ℕ} (hn : 1 ≤ n) (pre incoming : Bytes)
    (arrivals : List Arrival) {capacities : List ℕ} (hpos : ∀ c ∈ capacities, 0 < c) :
    let received := Text.receive intercept n pre (.new incoming arrivals) capacities
    DeliveredExactly intercept n (pre ++ incoming) arrivals received ∧
      (incoming.length < arrivals.countP Arrival.isOctets →
        pre.length + arrivals.length ≤ capacities.length → received.ended ≠ none) := by
  have hstart : Text.Counting n (pre ++ incoming) arrivals
      (.start (.new n pre {}) (.new incoming arrivals)) := by
    refine ⟨?_, rfl, (if_neg (one_le_iff_ne_zero.mp hn)).symm, rfl, suffix_rfl⟩
    simp [Received.start, Text.new, held_new, Socket.new]
  obtain ⟨hexactly, hends⟩ := Text.readAll_exactly intercept hpos rfl hstart
  refine ⟨hexactly, fun hfinishes hle => hends hfinishes ?_⟩
  simpa [Text.toCome, Received.start, Text.new, held_new, Socket.new] using hle

theorem text_delivered_three :
    let received := Text.receive (fun _ => .ok ()) 3 (str "ab")
      (.new (str "c") [.pending, .octets 0, .octets 4]) [1, 4, 4, 4, 4]
    DeliveredExactly (fun _ => .ok ()) 3 (str "ab" ++ str "c") [.pending, .octets 0, .octets 4]
      received ∧ received.ended ≠ none := by
  obtain ⟨hexactly, hends⟩ := text_delivered (fun _ => .ok ()) (by decide : 1 ≤ 3) (str "ab")
    (str "c") [.pending, .octets 0, .octets 4] (by decide : ∀ c ∈ [1, 4, 4, 4, 4], 0 < c)
  exact ⟨hexactly, hends (by decide) (by decide)⟩

end YlongHttp.Http1
