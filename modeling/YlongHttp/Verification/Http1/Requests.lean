import YlongHttp.Model.Http1.RequestEncoder

/-! # Two encoders with the same octets

The head of a request is stated without an encoder. Each part of an encoder owes some of it, and
a call of the part writes the start of what it owes. -/

namespace YlongHttp.Http1

open List
open Library

/-! ## The head -/

def requestTarget (uri : Uri) (isAbsolute : Bool) : Bytes :=
  if isAbsolute then uri.toString else uri.pathAndQuery.getD (str "/")

def headerLine (entry : HeaderName × HeaderValue) : Bytes :=
  entry.1.name ++ str ":" ++ entry.2.toVec ++ str "\r\n"

variable (part : RequestPart)

def requestHead (isAbsolute : Bool) : Bytes :=
  part.method.asStr ++ str " " ++ requestTarget part.uri isAbsolute ++ str " " ++
    part.version.asStr ++ str "\r\n" ++ part.headers.entries.flatMap headerLine ++ str "\r\n"

/-! ## Parts -/

/-- What is left of a token. -/
structure Rests (src : Bytes) (srcIdx : ℕ) (l : Bytes) : Prop where
  inside : srcIdx ≤ src.length
  eq : l = src.drop srcIdx

theorem Rests.start {src : Bytes} {srcIdx : ℕ} (h : srcIdx = 0) : Rests src srcIdx src := by
  subst h
  exact ⟨Nat.zero_le _, drop_zero.symm⟩

section Parts

variable {σ : Type}

def SendsAt (result : TokenResult σ) (room : ℕ) (owes : σ → Bytes → ℕ → Prop) (l : Bytes) (r : ℕ) :
    Prop :=
  ∃ w l', result = .ok w ∧ l = w.out ++ l' ∧ w.out.length ≤ room ∧ (w.complete = true → l' = []) ∧
    (w.complete = false → ∃ r', owes w.next l' r' ∧ l'.length + r' < l.length + r)

def Sends (encode : σ → ℕ → TokenResult σ) (owes : σ → Bytes → ℕ → Prop) : Prop :=
  ∀ self l r room, owes self l r → 0 < room → SendsAt (encode self room) room owes l r

variable {src l : Bytes} {srcIdx room : ℕ}

theorem writeData_cases (room : ℕ) (h : Rests src srcIdx l) :
    (l.length ≤ room ∧
      writeData src srcIdx room = .ok { complete := true, out := l, next := srcIdx }) ∨
    (room < l.length ∧ Rests src (srcIdx + room) (l.drop room) ∧ writeData src srcIdx room =
      .ok { complete := false, out := l.take room, next := srcIdx + room }) := by
  obtain ⟨hinside, rfl⟩ := h
  rw [length_drop]
  by_cases hfits : src.length - srcIdx ≤ room
  · refine .inl ⟨hfits, ?_⟩
    rw [writeData, if_neg (Nat.not_lt.mpr hinside), if_pos hfits]
  · refine .inr ⟨Nat.lt_of_not_le hfits, ⟨by omega, drop_drop⟩, ?_⟩
    rw [writeData, if_neg (Nat.not_lt.mpr hinside), if_neg hfits]

theorem drop_lt (hroom : 0 < room) (hlong : room < l.length) : (l.drop room).length < l.length := by
  rw [length_drop]
  omega

theorem sends_writeData {encode : σ → ℕ → TokenResult σ} {text : σ → Bytes} {idx : σ → ℕ}
    {next : σ → ℕ → σ}
    (henc : ∀ self room,
      encode self room = (writeData (text self) (idx self) room).map (·.map (next self)))
    (htext : ∀ self i, text (next self i) = text self) (hidx : ∀ self i, idx (next self i) = i) :
    Sends encode fun self l r => Rests (text self) (idx self) l ∧ r = 0 := by
  rintro self l r room ⟨hrests, rfl⟩ hroom
  rw [henc]
  rcases writeData_cases room hrests with ⟨hfits, hwrite⟩ | ⟨hlong, hlater, hwrite⟩
  · rw [hwrite]
    exact ⟨_, [], rfl, (append_nil l).symm, hfits, fun _ => rfl, nofun⟩
  · rw [hwrite]
    refine ⟨_, l.drop room, rfl, (take_append_drop room l).symm, length_take_le _ _,
      nofun, fun _ => ⟨0, ⟨?_, rfl⟩, drop_lt hroom hlong⟩⟩
    dsimp only [Written.map]
    rwa [htext, hidx]

variable {owes : σ → Bytes → ℕ → Prop}

theorem token_sends {stay : ℕ → σ} {complete : σ} {tail : Bytes} {r : ℕ}
    (hrests : Rests src srcIdx l) (hroom : 0 < room) (hcomp : owes complete tail r)
    (hstay : ∀ i l', Rests src i l' → owes (stay i) (l' ++ tail) (r + 1)) :
    SendsAt (token src srcIdx room stay complete) room owes (l ++ tail) (r + 1) := by
  rw [token]
  rcases writeData_cases room hrests with ⟨hfits, hwrite⟩ | ⟨hlong, hlater, hwrite⟩
  · rw [hwrite]
    refine ⟨_, tail, rfl, rfl, hfits, nofun, fun _ => ⟨r, hcomp, ?_⟩⟩
    rw [length_append]
    omega
  · rw [hwrite]
    refine ⟨_, l.drop room ++ tail, rfl, ?_, length_take_le _ _, nofun,
      fun _ => ⟨r + 1, hstay _ _ hlater, ?_⟩⟩
    · rw [← append_assoc, take_append_drop]
    · have hlt := drop_lt hroom hlong
      rw [length_append, length_append]
      omega

theorem endLine_sends {crlf : EncodeCrlf} {inner : List (HeaderName × HeaderValue)}
    {stay : EncodeCrlf → σ} {line : HeaderName → HeaderValue → List (HeaderName × HeaderValue) → σ}
    {last : σ} (hrests : Rests (str "\r\n") crlf.srcIdx l) (hroom : 0 < room)
    (hline : ∀ name value inner, owes (line name value inner)
      (((name, value) :: inner).flatMap headerLine) (4 * inner.length + 3))
    (hstay : ∀ crlf' l', Rests (str "\r\n") crlf'.srcIdx l' →
      owes (stay crlf') (l' ++ inner.flatMap headerLine) (4 * inner.length)) :
    SendsAt (endLine crlf room inner stay line last) room owes (l ++ inner.flatMap headerLine)
      (4 * inner.length) := by
  rw [endLine, EncodeCrlf.encode]
  rcases writeData_cases room hrests with ⟨hfits, hwrite⟩ | ⟨hlong, hlater, hwrite⟩
  · rw [hwrite]
    cases inner with
    | nil => exact ⟨_, [], rfl, rfl, hfits, fun _ => rfl, nofun⟩
    | cons entry inner =>
      obtain ⟨name, value⟩ := entry
      refine ⟨_, _, rfl, rfl, hfits, nofun, fun _ => ⟨_, hline name value inner, ?_⟩⟩
      rw [length_append, length_cons]
      omega
  · rw [hwrite]
    refine ⟨_, l.drop room ++ inner.flatMap headerLine, rfl, ?_, length_take_le _ _, nofun,
      fun _ => ⟨_, hstay _ _ hlater, ?_⟩⟩
    · rw [← append_assoc]
      exact congrArg (· ++ _) (take_append_drop room l).symm
    · have hlt := drop_lt hroom hlong
      rw [length_append, length_append]
      omega

end Parts

/-! ## The parts of both encoders -/

def EncodeMethod.Owes (self : EncodeMethod) (l : Bytes) (r : ℕ) : Prop :=
  Rests self.inner.asStr self.srcIdx l ∧ r = 0

def EncodeVersion.Owes (self : EncodeVersion) (l : Bytes) (r : ℕ) : Prop :=
  Rests self.inner.asStr self.srcIdx l ∧ r = 0

def EncodeSp.Owes (self : EncodeSp) (l : Bytes) (r : ℕ) : Prop :=
  Rests (str " ") self.srcIdx l ∧ r = 0

def EncodeCrlf.Owes (self : EncodeCrlf) (l : Bytes) (r : ℕ) : Prop :=
  Rests (str "\r\n") self.srcIdx l ∧ r = 0

theorem EncodeMethod.sends : Sends EncodeMethod.encode EncodeMethod.Owes :=
  sends_writeData (fun _ _ => rfl) (fun _ _ => rfl) fun _ _ => rfl

theorem EncodeVersion.sends : Sends EncodeVersion.encode EncodeVersion.Owes :=
  sends_writeData (fun _ _ => rfl) (fun _ _ => rfl) fun _ _ => rfl

theorem EncodeSp.sends : Sends EncodeSp.encode EncodeSp.Owes :=
  sends_writeData (fun _ _ => rfl) (fun _ _ => rfl) fun _ _ => rfl

theorem EncodeCrlf.sends : Sends EncodeCrlf.encode EncodeCrlf.Owes :=
  sends_writeData (fun _ _ => rfl) (fun _ _ => rfl) fun _ _ => rfl

/-! ## The URI -/

def EncodeUri.text (self : EncodeUri) : Bytes :=
  if self.isAbsolute then self.absolute else self.origin

def EncodeUri.Owes (self : EncodeUri) (l : Bytes) (r : ℕ) : Prop :=
  Rests self.text self.srcIdx l ∧ r = 0

theorem EncodeUri.sends : Sends EncodeUri.encode EncodeUri.Owes :=
  sends_writeData (fun _ _ => rfl) (fun _ _ => rfl) fun _ _ => rfl

namespace EncodeUriRef

def text (self : EncodeUriRef) : Bytes :=
  if self.isAbsolute then self.absolute.getD self.inner.toString
  else self.origin.getD (self.inner.pathAndQuery.getD (str "/"))

def Owes (self : EncodeUriRef) (l : Bytes) (r : ℕ) : Prop := Rests self.text self.srcIdx l ∧ r = 0

def kept (self : EncodeUriRef) (srcIdx : ℕ) : EncodeUriRef :=
  if self.isAbsolute then { self with absolute := some self.text, srcIdx }
  else { self with origin := some self.text, srcIdx }

theorem kept_text (self : EncodeUriRef) (srcIdx : ℕ) : (self.kept srcIdx).text = self.text := by
  cases h : self.isAbsolute <;> simp [kept, text, h]

theorem encode_eq (self : EncodeUriRef) (room : ℕ) :
    self.encode room = (writeData self.text self.srcIdx room).map (·.map self.kept) := by
  have hkept : self.kept = fun srcIdx => self.kept srcIdx := rfl
  cases h : self.isAbsolute <;> simp [encode, hkept, kept, text, h]

theorem sends : Sends EncodeUriRef.encode Owes :=
  sends_writeData encode_eq kept_text fun self i => by cases h : self.isAbsolute <;> simp [kept, h]

end EncodeUriRef

/-! ## The header lines -/

variable (name : HeaderName) (headers : Headers)

namespace EncodeHeader

/-- The header lines from the state on. The rank falls where a token is empty. -/
inductive Owes : EncodeHeader → Bytes → ℕ → Prop
  | name {self : EncodeHeader} {l : Bytes} : self.status = some .name →
      Rests self.name.name self.nameIdx l → self.colonIdx = 0 → self.valueIdx = 0 →
      Owes self (l ++ (str ":" ++ (self.value ++ (str "\r\n" ++ self.inner.flatMap headerLine))))
        (4 * self.inner.length + 3)
  | colon {self : EncodeHeader} {l : Bytes} : self.status = some .colon →
      Rests (str ":") self.colonIdx l → self.valueIdx = 0 →
      Owes self (l ++ (self.value ++ (str "\r\n" ++ self.inner.flatMap headerLine)))
        (4 * self.inner.length + 2)
  | value {self : EncodeHeader} {l : Bytes} : self.status = some .value →
      Rests self.value self.valueIdx l →
      Owes self (l ++ (str "\r\n" ++ self.inner.flatMap headerLine)) (4 * self.inner.length + 1)
  | crlf {self : EncodeHeader} {l : Bytes} {crlf : EncodeCrlf} : self.status = some (.crlf crlf) →
      Rests (str "\r\n") crlf.srcIdx l →
      Owes self (l ++ self.inner.flatMap headerLine) (4 * self.inner.length)
  | emptyHeader {self : EncodeHeader} : self.status = some .emptyHeader → Owes self [] 0

theorem line_owes (value : HeaderValue) (inner : List (HeaderName × HeaderValue)) :
    Owes (line name value inner) (((name, value) :: inner).flatMap headerLine)
      (4 * inner.length + 3) := by
  have howes : Owes (line name value inner) _ _ := .name rfl (.start rfl) rfl rfl
  rw [flatMap_cons, headerLine, append_assoc, append_assoc, append_assoc]
  exact howes

theorem new_owes : ∃ r, Owes (new headers) (headers.entries.flatMap headerLine) r := by
  rw [new]
  cases headers.entries with
  | nil => exact ⟨0, .emptyHeader rfl⟩
  | cons entry inner => exact ⟨_, line_owes entry.1 entry.2 inner⟩

theorem sends : Sends encode Owes := by
  intro self l r room howes hroom
  cases howes with
  | name hstat hrests hcolon hval =>
    rw [encode, hstat]
    exact token_sends hrests hroom (.colon rfl (.start hcolon) hval)
      fun _ _ hlater => .name rfl hlater hcolon hval
  | colon hstat hrests hval =>
    rw [encode, hstat]
    exact token_sends hrests hroom (.value rfl (.start hval))
      fun _ _ hlater => .colon rfl hlater hval
  | value hstat hrests =>
    rw [encode, hstat]
    exact token_sends hrests hroom (.crlf rfl (.start rfl)) fun _ _ hlater => .value rfl hlater
  | crlf hstat hrests =>
    rw [encode, hstat]
    exact endLine_sends hrests hroom line_owes fun _ _ hlater => .crlf rfl hlater
  | emptyHeader hstat =>
    rw [encode, hstat]
    exact ⟨_, [], rfl, rfl, Nat.zero_le _, fun _ => rfl, nofun⟩

end EncodeHeader

/-! ## The header lines, value by value -/

def laterValues (values : List Bytes) : Bytes := values.flatMap (str ", " ++ ·)

def joinValues : List Bytes → Bytes
  | [] => []
  | value :: values => value ++ laterValues values

theorem toVec_eq (value : HeaderValue) : value.toVec = joinValues value.inner := by
  rw [HeaderValue.toVec]
  induction value.inner with
  | nil => rfl
  | cons first values ih =>
    cases values with
    | nil =>
      rw [intersperse_singleton, flatten_singleton, joinValues, laterValues,
        flatMap_nil, append_nil]
    | cons second values =>
      rw [intersperse_cons_cons, flatten_cons, flatten_cons, ih, joinValues,
        joinValues, laterValues, laterValues, flatMap_cons, append_assoc]

namespace EncodeHeaderRef

/-- What is left of the value, and the rounds of the loop of `encodeValue` that it takes. -/
inductive ValueRests : EncodeHeaderRef → Bytes → ℕ → Prop
  | before {self : EncodeHeaderRef} {values : List Bytes} : self.valuePart = none →
      self.valueIter = some values →
      ValueRests self (if self.valuePartsWritten = 0 then joinValues values else laterValues values)
        (values.length + 1)
  | part {self : EncodeHeaderRef} {value separator l : Bytes} {values : List Bytes} :
      self.valuePart = some value → self.valueIter = some values →
      (if self.valueNeedsSeparator then Rests (str ", ") self.valueSeparatorIdx separator
        else separator = []) →
      Rests value self.valueIdx l →
      ValueRests self (separator ++ (l ++ laterValues values)) (values.length + 2)

/-- A call for the value comes to its end, or fills the buffer. -/
def ValueSends (inner : List (HeaderName × HeaderValue)) (result : TokenResult EncodeHeaderRef)
    (room : ℕ) (l : Bytes) : Prop :=
  ∃ w l', result = .ok w ∧ w.complete = false ∧ w.next.inner = inner ∧ l = w.out ++ l' ∧
    w.out.length ≤ room ∧ ((l' = [] ∧ w.next.status = some (.crlf .new)) ∨
      (w.out.length = room ∧ w.next.status = some .value ∧ ∃ n, w.next.ValueRests l' n))

variable {l : Bytes} {n : ℕ} {self : EncodeHeaderRef}

theorem ValueSends.after {inner : List (HeaderName × HeaderValue)}
    {result : TokenResult EncodeHeaderRef} {room : ℕ} {out : Bytes}
    (h : ValueSends inner result (room - out.length) l) (hout : out.length ≤ room) :
    ValueSends inner (result.map fun w => { w with out := out ++ w.out }) room (out ++ l) := by
  obtain ⟨w, l', rfl, hcomp, hinner, rfl, hle, hnext⟩ := h
  refine ⟨_, l', rfl, hcomp, hinner, (append_assoc _ _ _).symm, ?_, hnext.imp_right ?_⟩
  · dsimp only
    rw [length_append]
    omega
  · rintro ⟨hfull, hrest⟩
    refine ⟨?_, hrest⟩
    dsimp only
    rw [length_append]
    omega

section Value

variable {inner : List (HeaderName × HeaderValue)} {self : EncodeHeaderRef} {room : ℕ}
  {value separator l : Bytes} {values : List Bytes}
  (later : EncodeHeaderRef → ℕ → TokenResult EncodeHeaderRef)

theorem writeSeparator_sends (hinner : self.inner = inner) (hpart : self.valuePart = some value)
    (hiter : self.valueIter = some values)
    (hsep : if self.valueNeedsSeparator then Rests (str ", ") self.valueSeparatorIdx separator
      else separator = [])
    (hval : Rests value self.valueIdx l)
    (hlater : ∀ next room, next.inner = inner → next.valuePart = some value →
      next.valueIter = some values → next.valueNeedsSeparator = false →
      Rests value next.valueIdx l → ValueSends inner (later next room) room (l ++ laterValues values)) :
    ValueSends inner ((self.writeSeparator room).bind fun w =>
        w.andThen fun self => later self (room - w.out.length)) room
      (separator ++ (l ++ laterValues values)) := by
  rw [writeSeparator]
  split at hsep
  · next hneeds =>
      rw [if_pos hneeds]
      rcases writeData_cases room hsep with
        ⟨hfits, hwrite⟩ | ⟨hlong, hrests, hwrite⟩
      · rw [hwrite]
        exact (hlater { self with valueNeedsSeparator := false, valueSeparatorIdx := 0 } _ hinner
          hpart hiter rfl hval).after hfits
      · rw [hwrite]
        refine ⟨{ complete := false, out := separator.take room, next := { self with
            status := some .value, valueSeparatorIdx := self.valueSeparatorIdx + room } },
          separator.drop room ++ (l ++ laterValues values), rfl, rfl, hinner, ?_,
          length_take_le _ _, .inr ⟨length_take_of_le hlong.le, rfl, _, .part hpart hiter ?_ hval⟩⟩
        · dsimp only
          rw [← append_assoc (take _ _), take_append_drop]
        · rwa [if_pos hneeds]
  · next hneeds =>
      rw [if_neg hneeds, hsep]
      exact (hlater self (room - ([] : Bytes).length) hinner hpart hiter
        (Bool.eq_false_of_not_eq_true hneeds) hval).after (Nat.zero_le room)

theorem writePart_sends (hinner : self.inner = inner) (hpart : self.valuePart = some value)
    (hiter : self.valueIter = some values) (hneeds : self.valueNeedsSeparator = false)
    (hval : Rests value self.valueIdx l)
    (hlater : ∀ next room, next.inner = inner → next.valuePart = none →
      next.valueIter = some values → next.valuePartsWritten ≠ 0 →
      ValueSends inner (later next room) room (laterValues values)) :
    ValueSends inner ((self.writePart room).bind fun w =>
        w.andThen fun self => later self (room - w.out.length)) room (l ++ laterValues values) := by
  rw [writePart, hpart]
  dsimp only
  rcases writeData_cases room hval with ⟨hfits, hwrite⟩ | ⟨hlong, hrests, hwrite⟩
  · rw [hwrite]
    exact (hlater { self with
        valuePart := none, valueIdx := 0, valuePartsWritten := self.valuePartsWritten + 1 } _ hinner
      rfl hiter (Nat.succ_ne_zero _)).after hfits
  · rw [hwrite]
    have hnone : if self.valueNeedsSeparator then Rests (str ", ") self.valueSeparatorIdx []
        else ([] : Bytes) = [] := by
      rw [if_neg (by rw [hneeds]; exact Bool.false_ne_true)]
    have hrest : ValueRests { self with
        valuePart := some value, status := some .value, valueIdx := self.valueIdx + room }
        ([] ++ (l.drop room ++ laterValues values)) (values.length + 2) :=
      .part rfl hiter hnone hrests
    refine ⟨{ complete := false, out := l.take room, next := { self with
        valuePart := some value, status := some .value, valueIdx := self.valueIdx + room } },
      l.drop room ++ laterValues values, rfl, rfl, hinner, ?_, length_take_le _ _,
      .inr ⟨length_take_of_le hlong.le, rfl, _, hrest⟩⟩
    dsimp only
    rw [← append_assoc, take_append_drop]

end Value

theorem encodeValue_sends {fuel : ℕ} (room : ℕ) (h : self.ValueRests l n) (hfuel : n ≤ fuel) :
    ValueSends self.inner (encodeValue fuel self room) room l := by
  induction fuel generalizing self room l n with
  | zero => cases h <;> cases hfuel
  | succ fuel ih =>
    -- A part is written, and the loop goes on behind it.
    have hround : ∀ (next : EncodeHeaderRef) {value separator rest : Bytes} {values : List Bytes},
        self.nextPart = some next → next.inner = self.inner → next.valuePart = some value →
        next.valueIter = some values →
        (if next.valueNeedsSeparator then Rests (str ", ") next.valueSeparatorIdx separator
          else separator = []) → Rests value next.valueIdx rest → values.length + 1 ≤ fuel →
        ValueSends self.inner (encodeValue (fuel + 1) self room) room
          (separator ++ (rest ++ laterValues values)) := by
      intro next value separator rest values hnext hinner hpart hiter hsep hval hle
      rw [encodeValue, hnext]
      refine writeSeparator_sends (fun self room => (self.writePart room).bind fun w =>
        w.andThen fun self => encodeValue fuel self (room - w.out.length))
        hinner hpart hiter hsep hval ?_
      intro next room hinner hpart hiter hneeds hval
      refine writePart_sends (encodeValue fuel) hinner hpart hiter hneeds hval ?_
      intro next room hinner hpart hiter hwritten
      have hlater := ih room (.before hpart hiter) hle
      rwa [if_neg hwritten, hinner] at hlater
    cases h with
    | @part value separator l values hpart hiter hsep hval =>
      exact hround self (by rw [nextPart, hpart]) rfl hpart hiter hsep hval
        (Nat.le_of_succ_le_succ hfuel)
    | @before values hpart hiter =>
      cases values with
      | nil =>
        have hnext : self.nextPart = none := by rw [nextPart, hpart, hiter]
        rw [encodeValue, hnext]
        refine ⟨_, [], rfl, rfl, rfl, ?_, Nat.zero_le _, .inl ⟨rfl, rfl⟩⟩
        rw [joinValues, laterValues, flatMap_nil, ite_self]
        rfl
      | cons value values =>
        have hnext : self.nextPart = some { self with
            valueIter := some values, valuePart := some value, valueIdx := 0
            valueSeparatorIdx := 0, valueNeedsSeparator := self.valuePartsWritten ≠ 0 } := by
          rw [nextPart, hpart, hiter]
        have hle := Nat.le_of_succ_le_succ hfuel
        by_cases hfirst : self.valuePartsWritten = 0
        · have hnone : if decide (self.valuePartsWritten ≠ 0) then Rests (str ", ") 0 []
              else ([] : Bytes) = [] := by
            rw [if_neg (by simp [hfirst])]
          rw [if_pos hfirst]
          exact hround _ hnext rfl rfl rfl hnone (.start rfl) hle
        · have hsome : if decide (self.valuePartsWritten ≠ 0) then
              Rests (str ", ") 0 (str ", ") else str ", " = [] := by
            rw [if_pos (by simp [hfirst])]
            exact .start rfl
          rw [if_neg hfirst, laterValues, flatMap_cons, append_assoc]
          exact hround _ hnext rfl rfl rfl hsome (.start rfl) hle

/-- The value is not begun. -/
structure Fresh (header : EncodeHeaderRef) (values : List Bytes) : Prop where
  iter : header.valueIter = some values
  part : header.valuePart = none
  written : header.valuePartsWritten = 0

theorem Fresh.rests {values : List Bytes} (h : self.Fresh values) :
    self.ValueRests (joinValues values) (values.length + 1) := by
  have hrests := ValueRests.before h.part h.iter
  rwa [if_pos h.written] at hrests

/-- The header lines from the state on, as for `EncodeHeader`. -/
inductive Owes : EncodeHeaderRef → Bytes → ℕ → Prop
  | name {self : EncodeHeaderRef} {name : HeaderName} {values : List Bytes} {l : Bytes} :
      self.status = some .name → self.name = some name → Rests name.name self.nameIdx l →
      self.colonIdx = 0 → self.Fresh values →
      Owes self
        (l ++ (str ":" ++ (joinValues values ++ (str "\r\n" ++ self.inner.flatMap headerLine))))
        (4 * self.inner.length + 3)
  | colon {self : EncodeHeaderRef} {values : List Bytes} {l : Bytes} :
      self.status = some .colon → Rests (str ":") self.colonIdx l → self.Fresh values →
      Owes self (l ++ (joinValues values ++ (str "\r\n" ++ self.inner.flatMap headerLine)))
        (4 * self.inner.length + 2)
  | value {self : EncodeHeaderRef} {l : Bytes} {n : ℕ} : self.status = some .value →
      self.ValueRests l n →
      Owes self (l ++ (str "\r\n" ++ self.inner.flatMap headerLine)) (4 * self.inner.length + 1)
  | crlf {self : EncodeHeaderRef} {l : Bytes} {crlf : EncodeCrlf} :
      self.status = some (.crlf crlf) → Rests (str "\r\n") crlf.srcIdx l →
      Owes self (l ++ self.inner.flatMap headerLine) (4 * self.inner.length)
  | emptyHeader {self : EncodeHeaderRef} : self.status = some .emptyHeader → Owes self [] 0

theorem line_owes (value : HeaderValue) (inner : List (HeaderName × HeaderValue)) :
    Owes (line name value inner) (((name, value) :: inner).flatMap headerLine)
      (4 * inner.length + 3) := by
  have howes : Owes (line name value inner) _ _ := .name rfl rfl (.start rfl) rfl ⟨rfl, rfl, rfl⟩
  rw [flatMap_cons, headerLine, toVec_eq, append_assoc, append_assoc, append_assoc]
  exact howes

theorem new_owes : ∃ r, Owes (new headers) (headers.entries.flatMap headerLine) r := by
  rw [new]
  cases headers.entries with
  | nil => exact ⟨0, .emptyHeader rfl⟩
  | cons entry inner => exact ⟨_, line_owes entry.1 entry.2 inner⟩

theorem ValueRests.fuel (h : self.ValueRests l n) :
    n ≤ (self.valueIter.getD []).length + 2 := by
  cases h with
  | before _ hiter =>
    rw [hiter]
    exact Nat.le_succ _
  | part _ hiter =>
    rw [hiter]
    exact le_rfl

theorem sends : Sends encode Owes := by
  intro self l r room howes hroom
  cases howes with
  | name hstat hname hrests hcolon hfresh =>
    rw [encode, hstat]
    dsimp only
    rw [encodeName, hname]
    exact token_sends hrests hroom
      (.colon rfl (.start hcolon) ⟨hfresh.iter, hfresh.part, hfresh.written⟩)
      fun _ _ hlater => .name rfl rfl hlater hcolon ⟨hfresh.iter, hfresh.part, hfresh.written⟩
  | colon hstat hrests hfresh =>
    rw [encode, hstat]
    exact token_sends hrests hroom
      (.value rfl (Fresh.rests ⟨hfresh.iter, hfresh.part, hfresh.written⟩))
      fun _ _ hlater => .colon rfl hlater ⟨hfresh.iter, hfresh.part, hfresh.written⟩
  | @value l n hstat hrests =>
    rw [encode, hstat]
    have htaken : ValueRests { self with status := none } l n := by
      cases hrests with
      | before hpart hiter => exact .before hpart hiter
      | part hpart hiter hsep hval => exact .part hpart hiter hsep hval
    obtain ⟨w, l', hw, hcomp, hinner, rfl, hle, hnext⟩ := encodeValue_sends room htaken hrests.fuel
    refine ⟨w, l' ++ (str "\r\n" ++ self.inner.flatMap headerLine), hw,
      append_assoc _ _ _, hle, by rw [hcomp]; exact nofun, fun _ => ?_⟩
    rcases hnext with ⟨rfl, hcrlf⟩ | ⟨hfull, hval, n', hlater⟩
    · -- The value is at its end.
      have howes := Owes.crlf hcrlf (.start rfl)
      rw [hinner] at howes
      refine ⟨_, howes, ?_⟩
      simp only [length_append]
      omega
    · have howes := Owes.value hval hlater
      rw [hinner] at howes
      refine ⟨_, howes, ?_⟩
      simp only [length_append]
      omega
  | crlf hstat hrests =>
    rw [encode, hstat]
    exact endLine_sends hrests hroom line_owes fun _ _ hlater => .crlf rfl hlater
  | emptyHeader hstat =>
    rw [encode, hstat]
    exact ⟨_, [], rfl, rfl, Nat.zero_le _, fun _ => rfl, nofun⟩

end EncodeHeaderRef

/-! ## A part after another -/

/-- What parts owe, with a rank for each of them. -/
inductive Chain : List (Bytes → ℕ → Prop) → Bytes → ℕ → Prop
  | nil : Chain [] [] 0
  | cons {part : Bytes → ℕ → Prop} {parts : List (Bytes → ℕ → Prop)} {l later : Bytes}
      {r rank : ℕ} : part l r → Chain parts later rank →
      Chain (part :: parts) (l ++ later) (r + rank + 1)

namespace Encoder

variable {υ η : Type} {parts : DifferentParts υ η} {uriOwes : υ → Bytes → ℕ → Prop}
  {headersOwes : η → Bytes → ℕ → Prop}

structure PartsSend (parts : DifferentParts υ η) (uriOwes : υ → Bytes → ℕ → Prop)
    (headersOwes : η → Bytes → ℕ → Prop) : Prop where
  uri : Sends parts.uriEncode uriOwes
  headers : Sends parts.headersEncode headersOwes

section Owing

variable (parts uriOwes headersOwes)

def afterUri (self : Encoder υ η) : List (Bytes → ℕ → Prop) :=
  [self.uriSpPart.Owes, self.versionPart.Owes, self.versionCrlfPart.Owes,
    headersOwes self.headersPart, self.headersCrlfPart.Owes]

/-- The parts that are left. The form of the URI is settled before its part. -/
def owing (self : Encoder υ η) : List (Bytes → ℕ → Prop) :=
  let uriPart := parts.setAbsolute self.isAbsoluteUri self.uriPart
  let afterUri := self.afterUri headersOwes
  match self.encodeStatus with
  | .method => self.methodPart.Owes :: self.methodSpPart.Owes :: uriOwes uriPart :: afterUri
  | .methodSp => self.methodSpPart.Owes :: uriOwes uriPart :: afterUri
  | .uri => uriOwes self.uriPart :: afterUri
  | .uriSp => afterUri
  | .version => afterUri.drop 1
  | .versionCrlf => afterUri.drop 2
  | .header => afterUri.drop 3
  | .headerCrlf => afterUri.drop 4
  | .encodeFinished => []

def Owes (self : Encoder υ η) (l : Bytes) (r : ℕ) : Prop :=
  Chain (self.owing parts uriOwes headersOwes) l r

end Owing

/-- A round writes the start of what is owed, and comes nearer to the end. -/
def RoundSends (parts : DifferentParts υ η) (uriOwes : υ → Bytes → ℕ → Prop)
    (headersOwes : η → Bytes → ℕ → Prop)
    (result : Except (Fault HttpError) (Option (Bytes × Encoder υ η))) (room : ℕ) (l : Bytes)
    (r : ℕ) : Prop :=
  ∃ out next l' r', result = .ok (some (out, next)) ∧
    next.Owes parts uriOwes headersOwes l' r' ∧ l = out ++ l' ∧ out.length ≤ room ∧
    l'.length + r' < l.length + r

variable {l : Bytes} {r : ℕ}

theorem roundSends {σ : Type} {result : TokenResult σ} {room rank : ℕ} {owes : σ → Bytes → ℕ → Prop}
    {tail : Bytes} {later : List (Bytes → ℕ → Prop)} {next : Written σ → Encoder υ η}
    (h : SendsAt result room owes l r) (hlater : Chain later tail rank)
    (hcomp : ∀ out part, (next ⟨true, out, part⟩).owing parts uriOwes headersOwes = later)
    (hstay : ∀ out part,
      (next ⟨false, out, part⟩).owing parts uriOwes headersOwes = owes part :: later) :
    RoundSends parts uriOwes headersOwes (result.bind fun w => .ok (some (w.out, next w))) room
      (l ++ tail) (r + rank + 1) := by
  obtain ⟨⟨complete, out, part⟩, l', rfl, rfl, hle, hend, hrest⟩ := h
  dsimp only at hle hend hrest ⊢
  cases complete with
  | true =>
    refine ⟨out, next ⟨true, out, part⟩, tail, rank, rfl, ?_, ?_, hle, ?_⟩
    · rw [Owes, hcomp]
      exact hlater
    · rw [hend rfl, append_nil]
    · simp only [length_append]
      omega
  | false =>
    obtain ⟨r', howes, hlt⟩ := hrest rfl
    refine ⟨out, next ⟨false, out, part⟩, l' ++ tail, r' + rank + 1, rfl, ?_,
      append_assoc _ _ _, hle, ?_⟩
    · rw [Owes, hstay]
      exact .cons howes hlater
    · simp only [length_append] at hlt ⊢
      omega

section Round

variable {self : Encoder υ η} {l : Bytes} {r room : ℕ}

theorem round_sends (hparts : PartsSend parts uriOwes headersOwes)
    (h : self.Owes parts uriOwes headersOwes l r) (hroom : 0 < room) :
    RoundSends parts uriOwes headersOwes (round parts self room) room l r ∨
      (round parts self room = .ok none ∧ l = []) := by
  rw [Owes, owing] at h
  rw [round]
  cases hstat : self.encodeStatus <;> rw [hstat] at h
  case method =>
    cases h with
    | cons howes hlater =>
      exact .inl (roundSends (EncodeMethod.sends _ _ _ _ howes hroom) hlater (fun _ _ => rfl) fun _ _ => rfl)
  case methodSp =>
    cases h with
    | cons howes hlater =>
      exact .inl (roundSends (EncodeSp.sends _ _ _ _ howes hroom) hlater (fun _ _ => rfl) fun _ _ => rfl)
  case uri =>
    cases h with
    | cons howes hlater =>
      exact .inl (roundSends (hparts.uri _ _ _ _ howes hroom) hlater (fun _ _ => rfl) fun _ _ => rfl)
  case uriSp =>
    cases h with
    | cons howes hlater =>
      exact .inl (roundSends (EncodeSp.sends _ _ _ _ howes hroom) hlater (fun _ _ => rfl) fun _ _ => rfl)
  case version =>
    cases h with
    | cons howes hlater =>
      exact .inl (roundSends (EncodeVersion.sends _ _ _ _ howes hroom) hlater (fun _ _ => rfl) fun _ _ => rfl)
  case versionCrlf =>
    cases h with
    | cons howes hlater =>
      exact .inl (roundSends (EncodeCrlf.sends _ _ _ _ howes hroom) hlater (fun _ _ => rfl) fun _ _ => rfl)
  case header =>
    cases h with
    | cons howes hlater =>
      exact .inl (roundSends (hparts.headers _ _ _ _ howes hroom) hlater (fun _ _ => rfl) fun _ _ => rfl)
  case headerCrlf =>
    cases h with
    | cons howes hlater =>
      exact .inl (roundSends (EncodeCrlf.sends _ _ _ _ howes hroom) hlater (fun _ _ => rfl) fun _ _ => rfl)
  case encodeFinished =>
    cases h
    exact .inr ⟨rfl, rfl⟩

theorem paysBack (hparts : PartsSend parts uriOwes headersOwes) :
    PaysBack (step parts) (Owes parts uriOwes headersOwes) id where
  settled _ _ _ _ := rfl
  ends fuel s room l r hs hroom hstep := by
    rcases round_sends hparts hs hroom with ⟨out, next, l', r', hround, -⟩ | ⟨hround, hl⟩
    · rw [step, hround] at hstep
      cases hstep
    · exact hl
  writes fuel s room l r out next hs hroom hstep := by
    rcases round_sends hparts hs hroom with
      ⟨out', next', l', r', hround, hnext, hl, hle, hlt⟩ | ⟨hround, -⟩
    · rw [step, hround] at hstep
      cases hstep
      exact ⟨l', r', hnext, hl, hle, fun _ => rfl, fun _ => hlt⟩
    · rw [step, hround] at hstep
      cases hstep
  total fuel s room l r hs hroom _ := by
    rcases round_sends hparts hs hroom with ⟨out, next, l', r', hround, -⟩ | ⟨hround, -⟩
    · rw [step, hround]
      exact Option.some_ne_none _
    · rw [step, hround]
      exact Option.some_ne_none _

end Round

/-- Calls with any buffers that are not empty come to an end, and these are the octets that they
write. -/
structure Encodes (parts : DifferentParts υ η) (self : Encoder υ η) (octets : Bytes) : Prop where
  ends : ∀ rooms : ℕ → ℕ, (∀ i, 0 < rooms i) →
    ∃ n, Drains (step parts) self ((List.range n).map rooms) octets
  unique : ∀ (rooms : List ℕ) (written : Bytes), (∀ room ∈ rooms, 0 < room) →
    Drains (step parts) self rooms written → written = octets

theorem PartsSend.encodes (hparts : PartsSend parts uriOwes headersOwes) {self : Encoder υ η}
    (h : self.Owes parts uriOwes headersOwes l r) : Encodes parts self l where
  ends rooms hrooms := by
    obtain ⟨n, hn⟩ := @pours_total _ id l rooms hrooms fun _ => rfl
    refine ⟨n, ((paysBack hparts).drains_iff h ?_).mpr hn⟩
    intro room hroom
    obtain ⟨i, -, rfl⟩ := mem_map.mp hroom
    exact hrooms i
  unique rooms written hrooms hdrains :=
    (((paysBack hparts).drains_iff h hrooms).mp hdrains).eq fun _ => rfl

end Encoder

/-! ## The two encoders -/

theorem requestHead_eq (isAbsolute : Bool) :
    requestHead part isAbsolute =
      part.method.asStr ++ (str " " ++ (requestTarget part.uri isAbsolute ++ (str " " ++
        (part.version.asStr ++ (str "\r\n" ++ (part.headers.entries.flatMap headerLine ++
          (str "\r\n" ++ []))))))) := by
  simp only [requestHead, append_assoc, append_nil]

theorem Encoder.PartsSend.head_encodes {υ η : Type} {parts : DifferentParts υ η}
    {uriOwes : υ → Bytes → ℕ → Prop} {headersOwes : η → Bytes → ℕ → Prop} {uriPart : υ}
    {headersPart : η} {part : RequestPart} {isAbsolute : Bool} {r : ℕ}
    (hparts : PartsSend parts uriOwes headersOwes)
    (huri : uriOwes (parts.setAbsolute isAbsolute uriPart) (requestTarget part.uri isAbsolute) 0)
    (hheaders : headersOwes headersPart (part.headers.entries.flatMap headerLine) r) :
    Encodes parts ((Encoder.new part uriPart headersPart).absoluteUri isAbsolute)
      (requestHead part isAbsolute) := by
  rw [requestHead_eq]
  exact hparts.encodes (.cons ⟨.start rfl, rfl⟩ (.cons ⟨.start rfl, rfl⟩ (.cons huri
    (.cons ⟨.start rfl, rfl⟩ (.cons ⟨.start rfl, rfl⟩ (.cons ⟨.start rfl, rfl⟩
      (.cons hheaders (.cons ⟨.start rfl, rfl⟩ .nil))))))))

/-- Both encoders write the same head, whatever the buffers. -/
theorem request_encoders_agree (part : RequestPart) (isAbsolute : Bool) :
    Encoder.Encodes RequestEncoder.parts ((RequestEncoder.new part).absoluteUri isAbsolute)
        (requestHead part isAbsolute) ∧
      Encoder.Encodes RequestRefEncoder.parts
        ((RequestRefEncoder.new part).absoluteUri isAbsolute) (requestHead part isAbsolute) := by
  obtain ⟨r, hheaders⟩ := EncodeHeader.new_owes part.headers
  obtain ⟨r', hheaders'⟩ := EncodeHeaderRef.new_owes part.headers
  have hparts : Encoder.PartsSend RequestEncoder.parts EncodeUri.Owes EncodeHeader.Owes :=
    ⟨EncodeUri.sends, EncodeHeader.sends⟩
  have hparts' : Encoder.PartsSend RequestRefEncoder.parts EncodeUriRef.Owes EncodeHeaderRef.Owes :=
    ⟨EncodeUriRef.sends, EncodeHeaderRef.sends⟩
  exact ⟨hparts.head_encodes ⟨.start rfl, rfl⟩ hheaders,
    hparts'.head_encodes ⟨.start rfl, rfl⟩ hheaders'⟩

end YlongHttp.Http1
