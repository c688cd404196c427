import YlongHttp.Library.Bits
import YlongHttp.Model.Routes
import YlongHttp.Verification.Http1.Bodies

/-! # Alternative services

What a client keeps of an `Alt-Svc` field. -/

namespace YlongHttp.Client.AltSvc

open List
open Http1 (IsDigits natural parseUnsigned_iff)
open Qpack (fromUtf8)

variable {now limit : ℕ} {srcHost : Bytes}

/-! ## Pieces that are too short -/

/-- A known protocol with fewer than two octets behind the equality sign. -/
def Cut (piece : Bytes) : Prop :=
  ∃ protocol word rest, HttpVersion.tryFrom protocol ≠ none ∧ word.length < 2 ∧
    '='.toUInt8 ∉ word ∧ ';'.toUInt8 ∉ word ∧
    (∀ b ∈ rest.head?, b = '='.toUInt8 ∨ b = ';'.toUInt8) ∧
    piece = protocol ++ '='.toUInt8 :: (word ++ rest)

theorem exists_splitOn (c : UInt8) (text : Bytes) :
    ∃ part rest, text = part ++ rest ∧ c ∉ part ∧
      ((rest = [] ∧ text.splitOn c = [part]) ∨
        ∃ rest', rest = c :: rest' ∧ text.splitOn c = part :: rest'.splitOn c) := by
  by_cases hmem : c ∈ text
  · obtain ⟨part, rest, rfl, hpart⟩ := eq_append_cons_of_mem hmem
    exact ⟨part, c :: rest, rfl, hpart, .inr ⟨rest, rfl,
      splitOn_append_cons_self_of_not_mem hpart rest⟩⟩
  · exact ⟨text, [], (append_nil text).symm, hmem, .inl ⟨rfl, splitOn_eq_singleton hmem⟩⟩

variable {protocol core port name : Bytes} {b c : UInt8} {n : ℕ} {texts : List Bytes}

theorem tryFrom_plain (h : HttpVersion.tryFrom protocol ≠ none) :
    '='.toUInt8 ∉ protocol ∧ ';'.toUInt8 ∉ protocol ∧ protocol ≠ [] ∧
      ∀ b ∈ protocol, b ≠ ' '.toUInt8 ∧ b ≠ '\t'.toUInt8 := by
  rw [HttpVersion.tryFrom] at h
  split_ifs at h with h1 h2 h3
  · rw [h1]
    decide +kernel
  · rw [h2]
    decide +kernel
  · rw [h3]
    decide +kernel
  · exact absurd rfl h

theorem splitOn_protocol (h : HttpVersion.tryFrom protocol ≠ none) (rest : Bytes) :
    (protocol ++ '='.toUInt8 :: rest).splitOn '='.toUInt8 = protocol :: rest.splitOn '='.toUInt8 :=
  splitOn_append_cons_self_of_not_mem (tryFrom_plain h).1 rest

theorem parseAltSvc_eq_none_iff {piece : Bytes} :
    parseAltSvc now limit srcHost piece = none ↔ Cut piece := by
  obtain ⟨alternative, rest, rfl, halternative, hsplit⟩ := exists_splitOn ';'.toUInt8 piece
  obtain ⟨parameters, hparameters⟩ : ∃ parameters,
      (alternative ++ rest).splitOn ';'.toUInt8 = alternative :: parameters := by
    rcases hsplit with ⟨-, h⟩ | ⟨_, -, h⟩
    · exact ⟨[], h⟩
    · exact ⟨_, h⟩
  have hrest : ∀ b ∈ rest.head?, b = ';'.toUInt8 := by
    rcases hsplit with ⟨rfl, -⟩ | ⟨rest', rfl, -⟩
    · exact nofun
    · rintro b hb
      exact (Option.some.inj hb).symm
  rw [parseAltSvc, hparameters]
  simp only
  constructor
  · intro h
    obtain ⟨protocol, tail, rfl, hprotocol, hwords⟩ := exists_splitOn '='.toUInt8 alternative
    rcases hwords with ⟨-, hwords⟩ | ⟨tail', rfl, hwords⟩
    · rw [hwords] at h
      cases h
    · obtain ⟨word, tail, rfl, hword, hwords'⟩ := exists_splitOn '='.toUInt8 tail'
      obtain ⟨words, hsec⟩ : ∃ words, (word ++ tail).splitOn '='.toUInt8 = word :: words := by
        rcases hwords' with ⟨-, h⟩ | ⟨_, -, h⟩
        · exact ⟨[], h⟩
        · exact ⟨_, h⟩
      rw [hwords, hsec] at h
      simp only at h
      cases hver : HttpVersion.tryFrom protocol with
      | none =>
        rw [hver] at h
        cases h
      | some httpVersion =>
        rw [hver] at h
        simp only at h
        split_ifs at h with hshort
        refine ⟨protocol, word, tail ++ rest, by rw [hver]; exact nofun, hshort, hword,
          fun hin => halternative (by simp [hin]), ?_, by simp⟩
        rcases hwords' with ⟨rfl, -⟩ | ⟨_, rfl, -⟩
        · exact fun b hb => .inr (hrest b hb)
        · exact fun b hb => .inl (Option.some.inj hb).symm
  · rintro ⟨protocol, word, tail, hver, hshort, hword, hword', htail, hpiece⟩
    -- The semicolon comes behind the word.
    obtain ⟨tail, halt, rfl⟩ : ∃ x, alternative = protocol ++ '='.toUInt8 :: (word ++ x) ∧
        tail = x ++ rest := by
      have hassoc : alternative ++ rest = protocol ++ '='.toUInt8 :: word ++ tail := by
        rw [hpiece, append_assoc, cons_append]
      rcases append_eq_append_iff.mp hassoc with ⟨y, hy, hrest'⟩ | ⟨x, hx, htail'⟩
      · cases y with
        | nil => exact ⟨[], by simpa using hy.symm, by simpa using hrest'.symm⟩
        | cons b y =>
          have hb : b = ';'.toUInt8 := hrest b (by rw [hrest']; rfl)
          have hmem : ';'.toUInt8 ∈ protocol ++ '='.toUInt8 :: word := by simp [hy, hb]
          rw [mem_append, mem_cons] at hmem
          rcases hmem with h | h | h
          · exact absurd h (tryFrom_plain hver).2.1
          · exact absurd h (by decide)
          · exact absurd h hword'
      · exact ⟨x, by simpa using hx, htail'⟩
    obtain ⟨words, hwords⟩ : ∃ words, (word ++ tail).splitOn '='.toUInt8 = word :: words := by
      cases tail with
      | nil => exact ⟨[], by rw [append_nil, splitOn_eq_singleton hword]⟩
      | cons b tail =>
        rcases htail b rfl with rfl | rfl
        · exact ⟨_, splitOn_append_cons_self_of_not_mem hword tail⟩
        · exact absurd (by simp [halt]) halternative
    rw [halt, splitOn_protocol hver, hwords]
    cases hver' : HttpVersion.tryFrom protocol with
    | none => exact absurd hver' hver
    | some httpVersion => simp only [hver', hshort, if_true]

theorem mapM_eq_some_iff {α β : Type} {f : α → Option β} {as : List α} {bs : List β} :
    as.mapM f = some bs ↔ as.map f = bs.map some := by
  induction as generalizing bs with
  | nil => cases bs <;> simp
  | cons a as ih =>
    rw [mapM_cons, Option.bind_eq_bind, Option.bind_eq_some_iff]
    constructor
    · rintro ⟨b, hb, h⟩
      obtain ⟨bs', hbs', h⟩ := Option.bind_eq_some_iff.mp h
      cases h
      rw [map_cons, map_cons, hb, ih.mp hbs']
    · intro h
      cases bs with
      | nil => cases h
      | cons b bs =>
        rw [map_cons, map_cons] at h
        obtain ⟨hb, hbs⟩ := cons.inj h
        exact ⟨b, hb, Option.bind_eq_some_iff.mpr ⟨bs, ih.mpr hbs, rfl⟩⟩

theorem mapM_ne_none_iff {α β : Type} {f : α → Option β} {as : List α} :
    as.mapM f ≠ none ↔ ∀ a ∈ as, ¬f a = none := by
  induction as with
  | nil => exact iff_of_true nofun nofun
  | cons a as ih =>
    rw [mapM_cons, forall_mem_cons, ← ih]
    cases f a with
    | none => exact iff_of_false (fun h => h rfl) fun h => h.1 rfl
    | some b =>
      cases as.mapM f with
      | none => exact iff_of_false (fun h => h rfl) fun h => h.2 rfl
      | some bs => exact iff_of_true nofun ⟨nofun, nofun⟩

def uncleared (values : List Bytes) : List Bytes := values.takeWhile (· ≠ str "clear")

theorem newAltSvcs_ne_none_iff {values : List Bytes} : ∀ {services : List AltService},
    newAltSvcs now limit srcHost services values ≠ none ↔
      ∀ value ∈ uncleared values, ∀ piece ∈ value.splitOn ','.toUInt8, ¬Cut piece := by
  induction values with
  | nil => exact iff_of_true nofun nofun
  | cons value values ih =>
    intro services
    rw [newAltSvcs, uncleared]
    split_ifs with hclear
    · rw [takeWhile_cons_of_neg (by simpa using hclear)]
      exact iff_of_true nofun nofun
    · rw [takeWhile_cons_of_pos (by simpa using hclear), forall_mem_cons, ← uncleared]
      have hpieces : parseAltSvcs now limit srcHost value ≠ none ↔
          ∀ piece ∈ value.splitOn ','.toUInt8, ¬Cut piece := by
        rw [parseAltSvcs, ne_eq, Option.map_eq_none_iff, ← ne_eq, mapM_ne_none_iff]
        exact forall₂_congr fun piece _ => not_congr parseAltSvc_eq_none_iff
      rw [← hpieces]
      cases parseAltSvcs now limit srcHost value with
      | none => exact iff_of_false (fun h => h rfl) fun h => h.1 rfl
      | some more => exact ih.trans (and_iff_right nofun).symm

/-! ## Plain text -/

theorem utf8EncodeChar_ascii (h : b < 128) :
    String.utf8EncodeChar (Char.ofUInt8 b) = [b] := by
  have hval : (Char.ofUInt8 b).val.toNat = b.toNat := UInt8.toNat_toUInt32 b
  have hlt : b.toNat < 128 := h
  rw [String.utf8EncodeChar]
  simp only [hval]
  rw [if_pos (by omega)]
  simp

theorem fromUtf8_ascii {text : Bytes} (h : ∀ b ∈ text, b < 128) : fromUtf8 text = some text := by
  refine if_pos (ByteArray.validateUTF8_eq_true_iff.mpr ⟨text.map Char.ofUInt8, ?_⟩)
  rw [utf8Encode]
  have hflat : (text.map Char.ofUInt8).flatMap String.utf8EncodeChar = text := by
    induction text with
    | nil => rfl
    | cons b text ih =>
      rw [map_cons, flatMap_cons, utf8EncodeChar_ascii (h b (.head _)),
        ih fun c hc => h c (.tail b hc)]
      rfl
  rw [hflat]
  apply ByteArray.ext
  simp

theorem whitespaceAtFront_none (h : 32 < b ∧ b < 127) (rest : Bytes) :
    Mime.whitespaceAtFront (b :: rest) = none := by
  simp only [UInt8.lt_iff_toNat_lt, UInt8.reduceToNat] at h
  have hspace : ¬((9 ≤ b ∧ b ≤ 13) ∨ b = 32) := by
    simp only [UInt8.le_iff_toNat_le, ← UInt8.toNat_inj, UInt8.reduceToNat]
    omega
  have hwide : b ≠ 0xC2 ∧ b ≠ 0xE1 ∧ b ≠ 0xE2 ∧ b ≠ 0xE3 := by
    simp only [ne_eq, ← UInt8.toNat_inj, UInt8.reduceToNat]
    omega
  rcases rest with _ | ⟨c, _ | ⟨d, rest⟩⟩ <;> simp [Mime.whitespaceAtFront, hspace, hwide]

theorem whitespaceAtBack_none (h : 32 < b ∧ b < 127) (rest : Bytes) :
    Mime.whitespaceAtBack (b :: rest) = none := by
  simp only [UInt8.lt_iff_toNat_lt, UInt8.reduceToNat] at h
  have hspace : ¬((9 ≤ b ∧ b ≤ 13) ∨ b = 32) := by
    simp only [UInt8.le_iff_toNat_le, ← UInt8.toNat_inj, UInt8.reduceToNat]
    omega
  have hwide : b ≠ 0x85 ∧ b ≠ 0xA0 ∧ b ≠ 0x80 ∧ ¬0x80 ≤ b ∧ b ≠ 0xA8 ∧ b ≠ 0xA9 ∧ b ≠ 0xAF ∧
      b ≠ 0x9F := by
    simp only [ne_eq, UInt8.le_iff_toNat_le, ← UInt8.toNat_inj, UInt8.reduceToNat]
    omega
  rcases rest with _ | ⟨c, _ | ⟨d, rest⟩⟩ <;> simp [Mime.whitespaceAtBack, hspace, hwide]

def isOws (b : UInt8) : Bool := b = ' '.toUInt8 || b = '\t'.toUInt8

theorem whitespaceAtFront_ows (h : isOws b = true) (rest : Bytes) :
    Mime.whitespaceAtFront (b :: rest) = some rest := by
  rw [isOws, Bool.or_eq_true, decide_eq_true_eq, decide_eq_true_eq] at h
  rcases h with rfl | rfl <;> rfl

theorem whitespaceAtBack_ows (h : isOws b = true) (rest : Bytes) :
    Mime.whitespaceAtBack (b :: rest) = some rest := by
  rw [isOws, Bool.or_eq_true, decide_eq_true_eq, decide_eq_true_eq] at h
  rcases h with rfl | rfl <;> rfl

theorem dropSpaces_ows {space : Bytes → Option Bytes} (hcore : space core = none) {ows : Bytes}
    (hows : ∀ b ∈ ows, ∀ rest, space (b :: rest) = some rest) :
    ∀ {fuel : ℕ}, ows.length ≤ fuel → Mime.dropSpaces space fuel (ows ++ core) = core := by
  induction ows with
  | nil =>
    intro fuel _
    cases fuel with
    | zero => rfl
    | succ fuel => rw [nil_append, Mime.dropSpaces, hcore]
  | cons b ows ih =>
    intro fuel hfuel
    rw [length_cons] at hfuel
    cases fuel with
    | zero => omega
    | succ fuel =>
      rw [cons_append, Mime.dropSpaces, hows b mem_cons_self]
      exact ih (fun c hc => hows c (.tail b hc)) (by omega)

theorem trimStr_ows {before after : Bytes} (hbefore : ∀ b ∈ before, isOws b = true)
    (hafter : ∀ b ∈ after, isOws b = true) (hfirst : ∃ b rest, core = b :: rest ∧ 32 < b ∧ b < 127)
    (hlast : ∃ front b, core = front ++ [b] ∧ 32 < b ∧ b < 127) :
    Mime.trimStr (before ++ (core ++ after)) = core := by
  have hfront : Mime.dropSpaces Mime.whitespaceAtFront (before ++ (core ++ after)).length
      (before ++ (core ++ after)) = core ++ after := by
    obtain ⟨b, rest, rfl, hb⟩ := hfirst
    refine dropSpaces_ows (whitespaceAtFront_none hb _)
      (fun c hc => whitespaceAtFront_ows (hbefore c hc)) ?_
    rw [length_append]
    omega
  have hback : Mime.dropSpaces Mime.whitespaceAtBack (core ++ after).length
      (core ++ after).reverse = core.reverse := by
    obtain ⟨front, b, rfl, hb⟩ := hlast
    rw [reverse_append]
    have hows : ∀ c ∈ after.reverse, isOws c = true := fun c hc => hafter c (mem_reverse.mp hc)
    refine dropSpaces_ows ?_ (fun c hc => whitespaceAtBack_ows (hows c hc)) ?_
    · rw [reverse_append]
      exact whitespaceAtBack_none hb _
    · rw [length_reverse, length_append]
      omega
  rw [Mime.trimStr, hfront, hback, reverse_reverse]

/-! ## Lists of alternatives -/

def isAlpha (b : UInt8) : Bool :=
  ('A'.toUInt8 ≤ b && b ≤ 'Z'.toUInt8) || ('a'.toUInt8 ≤ b && b ≤ 'z'.toUInt8)

/-- `tchar`. -/
def isTchar (b : UInt8) : Bool :=
  isAsciiDigit b || isAlpha b ||
    [0x21, 0x23, 0x24, 0x25, 0x26, 0x27, 0x2A, 0x2B, 0x2D, 0x2E, 0x5E, 0x5F, 0x60, 0x7C,
      0x7E].contains b

def IsToken (text : Bytes) : Prop := text ≠ [] ∧ ∀ b ∈ text, isTchar b = true

/-- What may stand between quotation marks: `qdtext` and `quoted-pair`. -/
def isQuotedText : Bytes → Bool
  | [] => true
  | 0x5C :: b :: rest => isValidValueByte b && isQuotedText rest
  | b :: rest => b ≠ 0x5C && b ≠ '"'.toUInt8 && isValidValueByte b && isQuotedText rest

def unescape : Bytes → Bytes
  | [] => []
  | 0x5C :: b :: rest => b :: unescape rest
  | b :: rest => b :: unescape rest

/-- `unreserved`, `sub-delims` and the sign of `pct-encoded`. -/
def isNameOctet (b : UInt8) : Bool :=
  isAsciiDigit b || isAlpha b ||
    [0x21, 0x24, 0x25, 0x26, 0x27, 0x28, 0x29, 0x2A, 0x2B, 0x2C, 0x2D, 0x2E, 0x3B, 0x3D, 0x5F,
      0x7E].contains b

/-- `uri-host`: a name, which may be empty, or an `IP-literal`. -/
def IsUriHost (host : Bytes) : Prop :=
  (∀ b ∈ host, isNameOctet b = true) ∨
    ∃ address, host = '['.toUInt8 :: address ++ [']'.toUInt8] ∧
      ∀ b ∈ address, isNameOctet b = true ∨ b = ':'.toUInt8

/-- A parameter as it is written, with the white space around it. -/
structure AltParameter where
  before : Bytes
  name : Bytes
  quoted : Bool
  value : Bytes
  after : Bytes
  ows : ∀ b ∈ before ++ after, isOws b = true
  token : IsToken name
  written : if quoted then isQuotedText value = true else IsToken value

namespace AltParameter

def text (self : AltParameter) : Bytes :=
  let value := if self.quoted then '"'.toUInt8 :: self.value ++ ['"'.toUInt8] else self.value
  self.before ++ (self.name ++ '='.toUInt8 :: value ++ self.after)

def meaning (self : AltParameter) : Bytes := if self.quoted then unescape self.value else self.value

/-- What the semicolons, quoted or not, leave of it. -/
def pieces (self : AltParameter) : List Bytes := self.text.splitOn ';'.toUInt8

end AltParameter

/-- The piece of a parameter is taken for a lifetime. -/
def ReadsMa (piece : Bytes) : Prop :=
  ((Mime.trimStr piece).splitOn '='.toUInt8).head? = some (str "ma")

/-- An alternative as it is written, with what it means. -/
structure AltValue where
  before : Bytes
  protocol : Bytes
  authority : Bytes
  after : Bytes
  parameters : List AltParameter
  host : Bytes
  port : Bytes
  ows : ∀ b ∈ before ++ after, isOws b = true
  token : IsToken protocol
  quoted : isQuotedText authority = true
  means : unescape authority = host ++ ':'.toUInt8 :: port
  uriHost : IsUriHost host
  isPort : IsDigits port ∧ natural port < 2 ^ 16
  deltaSeconds : ∀ p ∈ parameters, p.name = str "ma" → IsDigits p.meaning

namespace AltValue

def quotedAuthority (self : AltValue) : Bytes :=
  '"'.toUInt8 :: (self.authority ++ '"'.toUInt8 :: self.after)

def text (self : AltValue) : Bytes :=
  [';'.toUInt8].intercalate
    ((self.before ++ (self.protocol ++ '='.toUInt8 :: self.quotedAuthority)) ::
      self.parameters.map AltParameter.text)

def seconds : List AltParameter → ℕ
  | [] => defaultMaxAge
  | p :: ps => if p.name = str "ma" then natural p.meaning else seconds ps

def service (now : ℕ) (srcHost : Bytes) (self : AltValue) : Option AltService :=
  (HttpVersion.tryFrom self.protocol).map fun httpVersion =>
    { httpVersion, srcHost, host := if self.host = [] then none else some self.host
      port := self.port, lifetime := now + seconds self.parameters }

/-- No comma is quoted, and in the alternatives of a known protocol no piece behind a semicolon that
is quoted ahead of the lifetime reads as one. -/
def Unbroken (self : AltValue) : Prop :=
  (∀ text ∈ self.authority :: self.parameters.map AltParameter.value, ','.toUInt8 ∉ text) ∧
    (HttpVersion.tryFrom self.protocol ≠ none →
      ∀ p ∈ self.parameters.takeWhile (·.name ≠ str "ma"), ∀ piece ∈ p.pieces.tail, ¬ReadsMa piece)

end AltValue

/-- All is UTF-8 up to the lifetime, and that is not quoted and fits. -/
def Readable : List AltParameter → Prop
  | [] => True
  | p :: ps => (∀ piece ∈ p.pieces, fromUtf8 piece ≠ none) ∧
      if p.name = str "ma" then p.quoted = false ∧ natural p.value < 2 ^ 64 else Readable ps

/-- An alternative that is written in the plainest way: no white space around the protocol and the
authority, and in the authority no equality sign, no semicolon, no escape and no second colon. -/
structure PlainAlt (now limit : ℕ) (value : AltValue) : Prop where
  before : value.before = []
  after : value.after = []
  authority : '='.toUInt8 ∉ value.authority ∧ ';'.toUInt8 ∉ value.authority ∧ 0x5C ∉ value.authority
  host : ':'.toUInt8 ∉ value.host
  readable : Readable value.parameters
  lifetime : now + AltValue.seconds value.parameters < limit

/-! ## One alternative -/

theorem isTchar_plain (h : isTchar b = true) :
    (32 < b ∧ b < 127) ∧ b ≠ '='.toUInt8 ∧ b ≠ ';'.toUInt8 ∧ b ≠ ','.toUInt8 := by
  revert h
  exact Library.forall_octet (by decide +kernel) b

theorem isOws_plain (h : isOws b = true) :
    b ≠ '='.toUInt8 ∧ b ≠ ';'.toUInt8 ∧ b ≠ ','.toUInt8 := by
  rw [isOws, Bool.or_eq_true, decide_eq_true_eq, decide_eq_true_eq] at h
  rcases h with rfl | rfl <;> decide

theorem unescape_length (text : Bytes) : (unescape text).length ≤ text.length := by
  fun_induction unescape text with
  | case1 => exact Nat.le_refl 0
  | case2 b rest ih | case3 b rest _ ih => simp only [length_cons]; omega

theorem unescape_eq_of_length {text : Bytes} (hquoted : isQuotedText text = true)
    (h : (unescape text).length = text.length) : 0x5C ∉ text := by
  fun_induction isQuotedText text with
  | case1 => exact not_mem_nil
  | case2 b rest ih =>
    rw [unescape, length_cons, length_cons, length_cons] at h
    have hle := unescape_length rest
    omega
  | case3 b rest hnot ih =>
    simp only [Bool.and_eq_true, decide_eq_true_eq] at hquoted
    rw [unescape, length_cons, length_cons] at h
    · rw [mem_cons, not_or]
      exact ⟨hquoted.1.1.1.symm, ih hquoted.2 (by omega)⟩
    · exact hnot

theorem unescape_plain {text : Bytes} (h : 0x5C ∉ text) : unescape text = text := by
  induction text with
  | nil => rfl
  | cons b text ih =>
    rw [mem_cons, not_or] at h
    rw [unescape, ih h.2]
    rintro c rest rfl
    exact absurd rfl h.1

theorem mem_unescape {text : Bytes} (hb : b ≠ 0x5C) (h : b ∈ text) :
    b ∈ unescape text := by
  fun_induction unescape text with
  | case1 => exact h
  | case2 c rest ih =>
    rcases mem_cons.mp h with h | h
    · exact absurd h hb
    · rcases mem_cons.mp h with rfl | h
      · exact (.head _)
      · exact mem_cons_of_mem c (ih h)
  | case3 c rest _ ih =>
    rcases mem_cons.mp h with rfl | h
    · exact (.head _)
    · exact mem_cons_of_mem c (ih h)

theorem isDigits_plain {ds : Bytes} (h : IsDigits ds) (hb : b ∈ ds) :
    b < 128 ∧ b ≠ '='.toUInt8 ∧ b ≠ '"'.toUInt8 := by
  have hdigit := h.2 b hb
  revert hdigit
  exact Library.forall_octet (by decide +kernel) b

theorem portFromStr_digits (h : IsDigits port ∧ natural port < 2 ^ 16) :
    portFromStr port = some port := by
  rw [portFromStr, asU16, (parseUnsigned_iff (by decide)).mpr ⟨h.2, port, h.1, rfl, .inl rfl⟩]
  rfl

theorem fromUtf8_eq_some {octets text : Bytes} (h : fromUtf8 octets = some text) :
    octets = text := by
  rw [fromUtf8] at h
  split_ifs at h
  exact Option.some.inj h

theorem readHostPort_append (hname : ':'.toUInt8 ∉ name) (rest : Bytes) :
    readHostPort (name ++ ':'.toUInt8 :: rest) =
      (if name = [] then some none else (fromUtf8 name).map some).bind fun host =>
        ((fromUtf8 rest).bind portFromStr).map (host, ·) := by
  have hidx : (name ++ ':'.toUInt8 :: rest).findIdx? (· == ':'.toUInt8) = some name.length := by
    have hnone : name.findIdx? (· == ':'.toUInt8) = none := by
      rw [findIdx?_eq_none_iff]
      exact fun b hb => beq_false_of_ne fun h => hname (h ▸ hb)
    rw [findIdx?_append, hnone, findIdx?_cons, beq_self_eq_true]
    simp
  rw [readHostPort, hidx]
  cases name with
  | nil =>
    simp only [nil_append, length_nil, drop_one, tail_cons, if_true]
    cases fromUtf8 rest with
    | none => rfl
    | some rest => cases hport : portFromStr rest <;> simp [hport]
  | cons b name =>
    have hdrop : (b :: name ++ ':'.toUInt8 :: rest).drop ((b :: name).length + 1) = rest := by simp
    have hlen : (b :: name).length ≠ 0 := Nat.succ_ne_zero _
    simp only [take_left, hdrop, if_neg hlen, if_neg (cons_ne_nil b name)]
    cases hhost : fromUtf8 (b :: name) with
    | none => rfl
    | some name' =>
      obtain rfl := fromUtf8_eq_some hhost
      cases fromUtf8 rest with
      | none => rfl
      | some rest => cases hport : portFromStr rest <;> simp [hport, hostFromStr]

theorem readHostPort_eq {text : Bytes} {host : Option Bytes}
    (h : readHostPort text = some (host, port)) :
    ∃ name, text = name ++ ':'.toUInt8 :: port ∧ ':'.toUInt8 ∉ name ∧
      host = if name = [] then none else some name := by
  by_cases hmem : ':'.toUInt8 ∈ text
  · obtain ⟨name, rest, rfl, hname⟩ := eq_append_cons_of_mem hmem
    rw [readHostPort_append hname] at h
    obtain ⟨host', hhost, h⟩ := Option.bind_eq_some_iff.mp h
    obtain ⟨port', hport, h⟩ := Option.map_eq_some_iff.mp h
    cases h
    obtain ⟨rest', hrest, hport⟩ := Option.bind_eq_some_iff.mp hport
    obtain ⟨n, -, rfl⟩ := Option.map_eq_some_iff.mp hport
    refine ⟨name, by rw [fromUtf8_eq_some hrest], hname, ?_⟩
    split_ifs at hhost ⊢ with hempty
    · exact (Option.some.inj hhost).symm
    · obtain ⟨name', hname', rfl⟩ := Option.map_eq_some_iff.mp hhost
      rw [fromUtf8_eq_some hname']
  · have hnone : text.findIdx? (· == ':'.toUInt8) = none := by
      rw [findIdx?_eq_none_iff]
      exact fun b hb => beq_false_of_ne fun h => hmem (h ▸ hb)
    rw [readHostPort, hnone] at h
    cases h

theorem readHostPort_ascii (hname : ':'.toUInt8 ∉ name) (hascii : ∀ b ∈ name, b < 128)
    (hport : IsDigits port ∧ natural port < 2 ^ 16) :
    readHostPort (name ++ ':'.toUInt8 :: port) =
      some (if name = [] then none else some name, port) := by
  rw [readHostPort_append hname, fromUtf8_ascii hascii,
    fromUtf8_ascii fun b hb => (isDigits_plain hport.1 hb).1, Option.bind_some,
    portFromStr_digits hport]
  split_ifs <;> rfl

namespace AltParameter

def writtenValue (self : AltParameter) : Bytes :=
  if self.quoted then '"'.toUInt8 :: self.value ++ ['"'.toUInt8] else self.value

theorem name_plain (self : AltParameter) : '='.toUInt8 ∉ self.name :=
  fun h => (isTchar_plain (self.token.2 _ h)).2.1 rfl

theorem trimStr_text (self : AltParameter) :
    Mime.trimStr self.text = self.name ++ '='.toUInt8 :: self.writtenValue := by
  have hows := self.ows
  simp only [mem_append] at hows
  rw [text, ← writtenValue]
  refine trimStr_ows (fun b hb => hows b (.inl hb)) (fun b hb => hows b (.inr hb)) ?_ ?_
  · obtain ⟨hne, htoken⟩ := self.token
    obtain ⟨b, name, hname⟩ := exists_cons_of_ne_nil hne
    refine ⟨b, name ++ '='.toUInt8 :: self.writtenValue, by rw [hname, cons_append], ?_⟩
    exact (isTchar_plain (htoken b (by simp [hname]))).1
  · have hwritten := self.written
    cases hquoted : self.quoted with
    | true =>
      exact ⟨self.name ++ '='.toUInt8 :: '"'.toUInt8 :: self.value, '"'.toUInt8,
        by simp [writtenValue, hquoted], by decide⟩
    | false =>
      rw [hquoted] at hwritten
      obtain ⟨hne, htoken⟩ := hwritten
      obtain ⟨value, b, hvalue⟩ := eq_nil_or_concat self.value |>.resolve_left hne
      refine ⟨self.name ++ '='.toUInt8 :: value, b, by simp [writtenValue, hquoted, hvalue], ?_⟩
      exact (isTchar_plain (htoken b (by simp [hvalue]))).1

theorem quotedValue_part (self : AltParameter) (hquoted : self.quoted = true) :
    ∀ part ∈ (self.writtenValue.splitOn '='.toUInt8).head?,
      ∃ part', part = '"'.toUInt8 :: part' := by
  have hvalue : self.writtenValue = '"'.toUInt8 :: (self.value ++ ['"'.toUInt8]) := by
    simp [writtenValue, hquoted]
  obtain ⟨part, rest, htext, -, hsplit⟩ := exists_splitOn '='.toUInt8 self.writtenValue
  have hhead : (self.writtenValue.splitOn '='.toUInt8).head? = some part := by
    rcases hsplit with ⟨-, h⟩ | ⟨_, -, h⟩
    · rw [h, head?_cons]
    · rw [h, head?_cons]
  rintro part' hpart'
  cases hhead.symm.trans hpart'
  rw [hvalue] at htext
  cases part with
  | cons b part => exact ⟨part, by rw [(cons.inj htext).1]⟩
  | nil =>
    rcases hsplit with ⟨rfl, -⟩ | ⟨rest', rfl, -⟩
    · cases htext
    · exact absurd (cons.inj htext).1 (by decide)

end AltParameter

theorem parseUnsigned_quoted {bound : ℕ} {rest : Bytes} :
    parseUnsigned bound ('"'.toUInt8 :: rest) ≠ some n := by
  rw [parseUnsigned, if_neg (fun h => absurd h.1 (by decide)), parseDigits,
    if_neg (fun h => absurd h.1 (by decide))]
  simp

theorem splitOn_intercalate_flatMap (c : UInt8) (hne : texts ≠ []) :
    ([c].intercalate texts).splitOn c = texts.flatMap (·.splitOn c) := by
  induction texts with
  | nil => exact absurd rfl hne
  | cons text texts ih =>
    cases texts with
    | nil => rw [intercalate_singleton, flatMap_singleton]
    | cons text' texts =>
      rw [intercalate_cons_cons, append_assoc, singleton_append, splitOn_append_cons_self,
        ih (cons_ne_nil _ _)]
      rfl

theorem dropSpaces_equals (y : Bytes) (fuel : ℕ) (x : Bytes) :
    ∃ x', Mime.dropSpaces Mime.whitespaceAtBack fuel (x ++ '='.toUInt8 :: y) =
      x' ++ '='.toUInt8 :: y := by
  have hequals : '='.toUInt8 = 61 := by decide
  induction fuel generalizing x with
  | zero => exact ⟨x, rfl⟩
  | succ fuel ih =>
    -- White space has no equality sign in it.
    have hstep : Mime.whitespaceAtBack (x ++ '='.toUInt8 :: y) = none ∨
        ∃ x', Mime.whitespaceAtBack (x ++ '='.toUInt8 :: y) = some (x' ++ '='.toUInt8 :: y) := by
      rcases x with _ | ⟨d, _ | ⟨c, _ | ⟨b, x⟩⟩⟩
      · exact .inl (whitespaceAtBack_none (by decide) _)
      · by_cases hd : (9 ≤ d ∧ d ≤ 13) ∨ d = 32
        · exact .inr ⟨[], by simp [Mime.whitespaceAtBack, hd]⟩
        · refine .inl ?_
          cases y <;> simp [Mime.whitespaceAtBack, hd, hequals]
      · by_cases hd : (9 ≤ d ∧ d ≤ 13) ∨ d = 32
        · exact .inr ⟨[c], by simp [Mime.whitespaceAtBack, hd]⟩
        · by_cases hc : c = 0xC2 ∧ (d = 0x85 ∨ d = 0xA0)
          · exact .inr ⟨[], by simp [Mime.whitespaceAtBack, hd, hc]⟩
          · exact .inl (by simp [Mime.whitespaceAtBack, hd, hc, hequals])
      · simp only [cons_append, Mime.whitespaceAtBack]
        split_ifs
        · exact .inr ⟨c :: b :: x, rfl⟩
        · exact .inr ⟨b :: x, rfl⟩
        · exact .inr ⟨x, rfl⟩
        · exact .inl rfl
    rw [Mime.dropSpaces]
    rcases hstep with hnone | ⟨x', hsome⟩
    · exact ⟨x, by rw [hnone]⟩
    · rw [hsome]
      exact ih x'

theorem AltParameter.not_readsMa (self : AltParameter) (hname : self.name ≠ str "ma")
    (more : Bytes) : ¬ReadsMa (self.before ++ (self.name ++ '='.toUInt8 :: more)) := by
  have hows := self.ows
  simp only [mem_append] at hows
  obtain ⟨b, name, hcore⟩ := exists_cons_of_ne_nil self.token.1
  have hplain := (isTchar_plain (self.token.2 b (by simp [hcore]))).1
  have hfront : Mime.dropSpaces Mime.whitespaceAtFront
      (self.before ++ (self.name ++ '='.toUInt8 :: more)).length
      (self.before ++ (self.name ++ '='.toUInt8 :: more)) = self.name ++ '='.toUInt8 :: more := by
    refine dropSpaces_ows (by rw [hcore]; exact whitespaceAtFront_none hplain _)
      (fun c hc => whitespaceAtFront_ows (hows c (.inl hc))) ?_
    rw [length_append]
    omega
  have hreverse : (self.name ++ '='.toUInt8 :: more).reverse =
      more.reverse ++ '='.toUInt8 :: self.name.reverse := by simp
  obtain ⟨back, hback⟩ := dropSpaces_equals self.name.reverse
    (self.name ++ '='.toUInt8 :: more).length more.reverse
  have htrim : Mime.trimStr (self.before ++ (self.name ++ '='.toUInt8 :: more)) =
      self.name ++ '='.toUInt8 :: back.reverse := by
    rw [Mime.trimStr, hfront, hreverse, hback]
    simp
  rw [ReadsMa, htrim, splitOn_append_cons_self_of_not_mem self.name_plain, head?_cons]
  exact fun h => hname (Option.some.inj h)

theorem maxAge_skip {pieces rest : List Bytes} (h : ∀ piece ∈ pieces, ¬ReadsMa piece) :
    maxAge (pieces ++ rest) = some n ↔
      (∀ piece ∈ pieces, fromUtf8 piece ≠ none) ∧ maxAge rest = some n := by
  induction pieces with
  | nil => exact (and_iff_right nofun).symm
  | cons piece pieces ih =>
    rw [cons_append, maxAge, forall_mem_cons, and_assoc,
      ← ih fun q hq => h q (.tail piece hq)]
    cases hutf : fromUtf8 piece with
    | none => exact iff_of_false nofun fun h => h.1 rfl
    | some text =>
      obtain rfl := fromUtf8_eq_some hutf
      have hmore := h piece (.head _)
      rw [ReadsMa] at hmore
      cases hwords : (Mime.trimStr piece).splitOn '='.toUInt8 with
      | nil => exact absurd hwords (splitOn_ne_nil _ _)
      | cons name words =>
        rw [hwords, head?_cons, Option.some.injEq] at hmore
        simp only [hwords, if_neg hmore]
        exact (and_iff_right (Option.some_ne_none _)).symm

theorem AltParameter.pieces_not_readsMa (self : AltParameter) (hname : self.name ≠ str "ma")
    (hmore : ∀ piece ∈ self.pieces.tail, ¬ReadsMa piece) : ∀ piece ∈ self.pieces, ¬ReadsMa piece := by
  have hfront : ';'.toUInt8 ∉ self.before ++ (self.name ++ ['='.toUInt8]) := by
    intro h
    rw [mem_append, mem_append, mem_singleton] at h
    rcases h with h | h | h
    · exact (isOws_plain (self.ows _ (mem_append_left _ h))).2.1 rfl
    · exact (isTchar_plain (self.token.2 _ h)).2.2.1 rfl
    · exact absurd h (by decide)
  obtain ⟨more, rest, hwritten, hclean, hsplit⟩ :=
    exists_splitOn ';'.toUInt8 (self.writtenValue ++ self.after)
  have htext : self.text = (self.before ++ (self.name ++ '='.toUInt8 :: more)) ++ rest := by
    rw [text, ← writtenValue, append_assoc self.name, cons_append, hwritten]
    simp
  have hfirst : ';'.toUInt8 ∉ self.before ++ (self.name ++ '='.toUInt8 :: more) := by
    have hassoc : self.before ++ (self.name ++ '='.toUInt8 :: more) =
        (self.before ++ (self.name ++ ['='.toUInt8])) ++ more := by simp
    rw [hassoc, mem_append, not_or]
    exact ⟨hfront, hclean⟩
  obtain ⟨others, hpieces⟩ : ∃ others, self.pieces =
      (self.before ++ (self.name ++ '='.toUInt8 :: more)) :: others := by
    rw [pieces, htext]
    rcases hsplit with ⟨rfl, -⟩ | ⟨rest', rfl, -⟩
    · exact ⟨[], by rw [append_nil, splitOn_eq_singleton hfirst]⟩
    · exact ⟨_, splitOn_append_cons_self_of_not_mem hfirst rest'⟩
  rw [hpieces] at hmore ⊢
  exact forall_mem_cons.mpr ⟨self.not_readsMa hname more, hmore⟩

theorem separator_plain (hc : c = ','.toUInt8 ∨ c = ';'.toUInt8) :
    isTchar c = false ∧ isOws c = false ∧ c ≠ '='.toUInt8 ∧ c ≠ '"'.toUInt8 := by
  rcases hc with rfl | rfl <;> decide

theorem AltParameter.not_mem_text (self : AltParameter) (hc : c = ','.toUInt8 ∨ c = ';'.toUInt8)
    (hvalue : c ∉ self.value) : c ∉ self.text := by
  obtain ⟨htchar, hows, heq, hquote⟩ := separator_plain hc
  have hspace : c ∉ self.before ++ self.after := fun h => by
    rw [self.ows c h] at hows
    cases hows
  have hname : c ∉ self.name := fun h => by
    rw [self.token.2 c h] at htchar
    cases htchar
  rw [mem_append, not_or] at hspace
  have hwritten : c ∉ self.writtenValue := by
    rw [AltParameter.writtenValue]
    split_ifs
    · simp [hvalue, hquote]
    · exact hvalue
  rw [AltParameter.text, ← AltParameter.writtenValue]
  simp [hspace, hname, heq, hwritten]

theorem AltParameter.pieces_seconds (self : AltParameter) (h : IsDigits self.meaning) :
    self.pieces = [self.text] := by
  refine splitOn_eq_singleton (self.not_mem_text (.inr rfl) fun hmem => ?_)
  have hmeaning : ';'.toUInt8 ∈ self.meaning := by
    rw [meaning]
    split_ifs
    · exact mem_unescape (by decide) hmem
    · exact hmem
  exact absurd (h.2 _ hmeaning) (by decide)

theorem maxAge_eq_some_iff {ps : List AltParameter}
    (hseconds : ∀ p ∈ ps, p.name = str "ma" → IsDigits p.meaning)
    (hpieces : ∀ p ∈ ps.takeWhile (·.name ≠ str "ma"), ∀ piece ∈ p.pieces.tail, ¬ReadsMa piece) :
    maxAge (ps.flatMap AltParameter.pieces) = some (AltValue.seconds ps) ↔ Readable ps := by
  induction ps with
  | nil => exact iff_of_true rfl trivial
  | cons p ps ih =>
    rw [flatMap_cons, Readable, AltValue.seconds]
    by_cases hname : p.name = str "ma"
    · have hdigits := hseconds p (.head _) hname
      rw [p.pieces_seconds hdigits, singleton_append, maxAge, forall_mem_singleton]
      cases hutf : fromUtf8 p.text with
      | none => exact iff_of_false nofun fun h => h.1 rfl
      | some text =>
        obtain rfl := fromUtf8_eq_some hutf
        simp only [p.trimStr_text, splitOn_append_cons_self_of_not_mem p.name_plain p.writtenValue]
        rw [and_iff_right (Option.some_ne_none _)]
        simp only [hname, if_true]
        cases hquoted : p.quoted with
        | true =>
          refine iff_of_false (fun h => ?_) fun h => absurd h.1 (by decide)
          obtain ⟨part, hpart, h⟩ := Option.bind_eq_some_iff.mp h
          obtain ⟨part', hpart', hparse⟩ := Option.bind_eq_some_iff.mp h
          obtain rfl := fromUtf8_eq_some hpart'
          obtain ⟨part', hpart'⟩ := p.quotedValue_part hquoted part hpart
          exact parseUnsigned_quoted (hpart' ▸ hparse)
        | false =>
          have hvalue : p.writtenValue = p.value := by simp [AltParameter.writtenValue, hquoted]
          have hmeaning : p.meaning = p.value := by simp [AltParameter.meaning, hquoted]
          rw [hmeaning] at hdigits ⊢
          rw [hvalue, splitOn_eq_singleton fun h => (isDigits_plain hdigits h).2.1 rfl,
            head?_cons, Option.bind_some,
            fromUtf8_ascii fun b hb => (isDigits_plain hdigits hb).1, Option.bind_some,
            parseUnsigned_iff (by decide)]
          rw [and_iff_right rfl]
          exact and_iff_left ⟨p.value, hdigits, rfl, .inl rfl⟩
    · rw [takeWhile_cons_of_pos (by simpa using hname), forall_mem_cons] at hpieces
      rw [maxAge_skip (p.pieces_not_readsMa hname hpieces.1), if_neg hname, if_neg hname,
        ih (fun q hq => hseconds q (.tail p hq)) hpieces.2]

theorem mem_intercalate (h : b ∈ [c].intercalate texts) :
    b = c ∨ ∃ text ∈ texts, b ∈ text := by
  induction texts with
  | nil => exact absurd h not_mem_nil
  | cons text texts ih =>
    cases texts with
    | nil =>
      rw [intercalate_singleton] at h
      exact .inr ⟨text, (.head _), h⟩
    | cons text' texts =>
      rw [intercalate_cons_cons, append_assoc, mem_append, mem_append, mem_singleton] at h
      rcases h with h | h | h
      · exact .inr ⟨text, (.head _), h⟩
      · exact .inl h
      · rcases ih h with h | ⟨t, ht, hb⟩
        · exact .inl h
        · exact .inr ⟨t, mem_cons_of_mem text ht, hb⟩

namespace AltValue

def alternative (self : AltValue) : Bytes :=
  self.before ++ (self.protocol ++ '='.toUInt8 :: self.quotedAuthority)

variable {c : UInt8} {self : AltValue}

theorem not_mem_quotedAuthority (self : AltValue) (hows : isOws c = false)
    (hquote : c ≠ '"'.toUInt8) : c ∉ self.quotedAuthority ↔ c ∉ self.authority := by
  have hafter : c ∉ self.after := fun h => by
    rw [self.ows c (mem_append_right _ h)] at hows
    cases hows
  simp [quotedAuthority, hquote, hafter]

theorem not_mem_alternative (self : AltValue) (hc : c = ','.toUInt8 ∨ c = ';'.toUInt8)
    (hauth : c ∉ self.authority) :
    c ∉ self.alternative := by
  obtain ⟨htchar, hows, heq, hquote⟩ := separator_plain hc
  have hbefore : c ∉ self.before := fun h => by
    rw [self.ows c (mem_append_left _ h)] at hows
    cases hows
  have hprotocol : c ∉ self.protocol := fun h => by
    rw [self.token.2 c h] at htchar
    cases htchar
  have hquoted := (self.not_mem_quotedAuthority hows hquote).mpr hauth
  simp [alternative, hbefore, hprotocol, heq, hquoted]

theorem comma_not_mem_text (hunbroken : self.Unbroken) :
    ','.toUInt8 ∉ self.text := by
  intro h
  rw [text, ← alternative] at h
  rcases mem_intercalate h with h | ⟨part, hpart, h⟩
  · exact absurd h (by decide)
  · rcases mem_cons.mp hpart with rfl | hpart
    · exact self.not_mem_alternative (.inl rfl) (hunbroken.1 _ (.head _)) h
    · obtain ⟨p, hp, rfl⟩ := mem_map.mp hpart
      exact p.not_mem_text (.inl rfl) (hunbroken.1 _ (.tail _ (mem_map_of_mem hp))) h

/-- What the code makes of an alternative: the authority ends at the first equality sign or
semicolon, and so do the pieces taken for parameters begin behind one that it has. -/
theorem parseAltSvc_text (self : AltValue) :
    ∃ word rest pieces, self.quotedAuthority = word ++ rest ∧
      ('='.toUInt8 ∉ word ∧ ';'.toUInt8 ∉ word) ∧
      (∀ b ∈ rest.head?, b = '='.toUInt8 ∨ b = ';'.toUInt8) ∧
      (';'.toUInt8 ∉ self.authority → pieces = self.parameters.flatMap AltParameter.pieces) ∧
      parseAltSvc now limit srcHost self.text =
        match HttpVersion.tryFrom (self.before ++ self.protocol) with
        | none => some none
        | some httpVersion =>
          if word.length < 2 then none
          else some do
            let (host, port) ← readHostPort (word.drop 1).dropLast
            let lifetime ← checkedAdd now limit (← maxAge pieces)
            return { httpVersion, srcHost, host, port, lifetime } := by
  obtain ⟨front, back, hquoted, hfront, hback⟩ := exists_splitOn ';'.toUInt8 self.quotedAuthority
  obtain ⟨word, tail, rfl, hword, htail⟩ := exists_splitOn '='.toUInt8 front
  have hname : '='.toUInt8 ∉ self.before ++ self.protocol ∧
      ';'.toUInt8 ∉ self.before ++ self.protocol := by
    simp only [mem_append, not_or]
    exact ⟨⟨fun h => (isOws_plain (self.ows _ (mem_append_left _ h))).1 rfl,
        fun h => (isTchar_plain (self.token.2 _ h)).2.1 rfl⟩,
      fun h => (isOws_plain (self.ows _ (mem_append_left _ h))).2.1 rfl,
      fun h => (isTchar_plain (self.token.2 _ h)).2.2.1 rfl⟩
  have hfirst : ';'.toUInt8 ∉ (self.before ++ self.protocol) ++ '='.toUInt8 :: (word ++ tail) := by
    rw [mem_append, mem_cons, not_or, not_or]
    exact ⟨hname.2, by decide, hfront⟩
  obtain ⟨others, hothers, hsplit⟩ : ∃ others, (back = [] → others = []) ∧
      self.alternative.splitOn ';'.toUInt8 =
        ((self.before ++ self.protocol) ++ '='.toUInt8 :: (word ++ tail)) :: others := by
    have halternative : self.alternative =
        ((self.before ++ self.protocol) ++ '='.toUInt8 :: (word ++ tail)) ++ back := by
      rw [alternative, hquoted]
      simp
    rw [halternative]
    rcases hback with ⟨rfl, -⟩ | ⟨back, rfl, -⟩
    · exact ⟨[], fun _ => rfl, by rw [append_nil, splitOn_eq_singleton hfirst]⟩
    · exact ⟨_, nofun, splitOn_append_cons_self_of_not_mem hfirst back⟩
  have htext : self.text.splitOn ';'.toUInt8 =
      ((self.before ++ self.protocol) ++ '='.toUInt8 :: (word ++ tail)) ::
        (others ++ self.parameters.flatMap AltParameter.pieces) := by
    rw [text, ← alternative, splitOn_intercalate_flatMap _ (cons_ne_nil _ _), flatMap_cons, hsplit,
      flatMap_map, cons_append]
    rfl
  obtain ⟨words, hwords⟩ : ∃ words, (word ++ tail).splitOn '='.toUInt8 = word :: words := by
    rcases htail with ⟨-, h⟩ | ⟨_, -, h⟩
    · exact ⟨_, h⟩
    · exact ⟨_, h⟩
  refine ⟨word, tail ++ back, others ++ self.parameters.flatMap AltParameter.pieces,
    by rw [hquoted, append_assoc], ⟨hword, fun h => hfront (mem_append_left _ h)⟩, ?_, ?_, ?_⟩
  · rcases htail with ⟨rfl, -⟩ | ⟨_, rfl, -⟩
    · rcases hback with ⟨rfl, -⟩ | ⟨_, rfl, -⟩
      · exact nofun
      · exact fun b hb => .inr (Option.some.inj hb).symm
    · exact fun b hb => .inl (Option.some.inj hb).symm
  · intro hauth
    have hnone := (self.not_mem_quotedAuthority (by decide) (by decide)).mpr hauth
    rcases hback with ⟨rfl, -⟩ | ⟨back, rfl, -⟩
    · rw [hothers rfl, nil_append]
    · exact absurd (by simp [hquoted]) hnone
  · rw [parseAltSvc, htext]
    dsimp only
    rewrite [splitOn_append_cons_self_of_not_mem hname.1, hwords]
    rfl

theorem tryFrom_before (h : HttpVersion.tryFrom (self.before ++ self.protocol) ≠ none) :
    self.before = [] := by
  by_contra hne
  obtain ⟨b, before, hbefore⟩ := exists_cons_of_ne_nil hne
  have hows := self.ows b (by simp [hbefore])
  have hplain := (tryFrom_plain h).2.2.2 b (by simp [hbefore])
  rw [isOws, Bool.or_eq_true, decide_eq_true_eq, decide_eq_true_eq] at hows
  exact hows.elim hplain.1 hplain.2

theorem word_iff (self : AltValue) {word rest : Bytes}
    (hquoted : self.quotedAuthority = word ++ rest)
    (hword : '='.toUInt8 ∉ word ∧ ';'.toUInt8 ∉ word)
    (hrest : ∀ b ∈ rest.head?, b = '='.toUInt8 ∨ b = ';'.toUInt8) :
    (word.drop 1).dropLast = unescape self.authority ↔ self.after = [] ∧
      '='.toUInt8 ∉ self.authority ∧ ';'.toUInt8 ∉ self.authority ∧ 0x5C ∉ self.authority := by
  have hnone : '='.toUInt8 ∉ self.authority → ';'.toUInt8 ∉ self.authority →
      word = self.quotedAuthority := by
    intro hequals hsemicolon
    rw [← self.not_mem_quotedAuthority (by decide) (by decide)] at hequals hsemicolon
    cases rest with
    | nil => rw [hquoted, append_nil]
    | cons b rest =>
      rcases hrest b rfl with rfl | rfl
      · exact absurd (by simp [hquoted]) hequals
      · exact absurd (by simp [hquoted]) hsemicolon
  constructor
  · intro h
    have hclean {c : UInt8} (hc : c ≠ 0x5C) (hnot : c ∉ word) : c ∉ self.authority := by
      intro hmem
      have hin := mem_unescape hc hmem
      rw [← h] at hin
      exact hnot (mem_of_mem_drop (mem_of_mem_dropLast hin))
    have hequals := hclean (by decide) hword.1
    have hsemicolon := hclean (by decide) hword.2
    have hlen := congrArg length h
    have hle := unescape_length self.authority
    rw [hnone hequals hsemicolon, quotedAuthority, drop_one, tail_cons, length_dropLast,
      length_append, length_cons] at hlen
    exact ⟨eq_nil_of_length_eq_zero (by omega), hequals, hsemicolon,
      unescape_eq_of_length self.quoted (by omega)⟩
  · rintro ⟨hafter, hequals, hsemicolon, hescape⟩
    rw [hnone hequals hsemicolon, quotedAuthority, hafter, unescape_plain hescape, drop_one,
      tail_cons, dropLast_append_cons, dropLast_singleton, append_nil]

theorem host_ascii (self : AltValue) : ∀ b ∈ self.host, b < 128 := by
  have hname {b : UInt8} (h : isNameOctet b = true) : b < 128 := by
    revert h
    exact Library.forall_octet (by decide +kernel) b
  rcases self.uriHost with h | ⟨address, hhost, h⟩
  · exact fun b hb => hname (h b hb)
  · intro b hb
    rw [hhost, mem_append, mem_cons, mem_singleton] at hb
    rcases hb with (rfl | hb) | rfl
    · decide
    · rcases h b hb with h | rfl
      · exact hname h
      · decide
    · decide

theorem parseAltSvc_text_iff (hunbroken : self.Unbroken) :
    parseAltSvc now limit srcHost self.text = some (self.service now srcHost) ↔
      (HttpVersion.tryFrom self.protocol ≠ none → PlainAlt now limit self) := by
  obtain ⟨word, rest, pieces, hquoted, hword, hrest, hpieces, hparse⟩ :=
    @parseAltSvc_text now limit srcHost self
  have hauth := self.word_iff hquoted hword hrest
  rw [hparse, service]
  by_cases hbefore : self.before = []
  · rw [hbefore, nil_append]
    cases hver : HttpVersion.tryFrom self.protocol with
    | none => exact iff_of_true rfl fun h => absurd rfl h
    | some httpVersion =>
      have hage := maxAge_eq_some_iff self.deltaSeconds (hunbroken.2 (by rw [hver]; exact nofun))
      simp only [Option.map_some]
      rw [forall_prop_of_true (Option.some_ne_none _)]
      constructor
      · intro h
        by_cases hshort : word.length < 2
        · rw [if_pos hshort] at h
          cases h
        rw [if_neg hshort] at h
        obtain ⟨⟨host, port⟩, hread, h⟩ := Option.bind_eq_some_iff.mp (Option.some.inj h)
        obtain ⟨seconds', hseconds, h⟩ := Option.bind_eq_some_iff.mp h
        obtain ⟨lifetime, hlifetime, h⟩ := Option.bind_eq_some_iff.mp h
        obtain ⟨rfl, rfl, rfl⟩ : host = (if self.host = [] then none else some self.host) ∧
            port = self.port ∧ lifetime = now + seconds self.parameters := by
          simpa using h
        obtain ⟨name, hname, hcolon, hhost⟩ := readHostPort_eq hread
        have hsame : name = self.host := by
          split_ifs at hhost with h1 h2
          · rw [h1, h2]
          · exact (Option.some.inj hhost).symm
        rw [hsame] at hname hcolon
        obtain ⟨hafter, hauthority⟩ := hauth.mp (hname.trans self.means.symm)
        rw [checkedAdd] at hlifetime
        split_ifs at hlifetime with hlimit
        have hmax : seconds' = seconds self.parameters := by
          have := Option.some.inj hlifetime
          omega
        rw [hmax] at hseconds hlimit
        rw [hpieces hauthority.2.1] at hseconds
        exact ⟨hbefore, hafter, hauthority, hcolon, hage.mp hseconds, hlimit⟩
      · intro h
        have hcore := hauth.mpr ⟨h.after, h.authority⟩
        have hread := readHostPort_ascii h.host self.host_ascii self.isPort
        rw [← self.means, ← hcore] at hread
        have hlong : ¬word.length < 2 := by
          intro hshort
          have hlen := congrArg length hcore
          rw [self.means, length_dropLast, length_drop, length_append, length_cons] at hlen
          omega
        simp only [if_neg hlong, hread, hpieces h.authority.2.1, hage.mpr h.readable, checkedAdd,
          h.lifetime, if_true, Option.bind_eq_bind, Option.bind_some, Option.pure_def]
  · have hunknown : HttpVersion.tryFrom (self.before ++ self.protocol) = none := by
      by_contra hknown
      exact hbefore (tryFrom_before hknown)
    rw [hunknown]
    cases hver : HttpVersion.tryFrom self.protocol with
    | none => exact iff_of_true rfl fun h => absurd rfl h
    | some httpVersion => exact iff_of_false nofun fun h => hbefore (h nofun).before

theorem equals_mem_text (self : AltValue) : '='.toUInt8 ∈ self.text := by
  have halternative : '='.toUInt8 ∈ self.alternative := by simp [alternative]
  rw [text, ← alternative]
  cases self.parameters.map AltParameter.text with
  | nil => rwa [intercalate_singleton]
  | cons text texts =>
    rw [intercalate_cons_cons, append_assoc]
    exact mem_append_left _ halternative

end AltValue

/-! ## Whole fields -/

/-- What stands between two commas; a list may have empty elements. -/
inductive AltElement where
  | blank (space : Bytes) (ows : ∀ b ∈ space, isOws b = true)
  | value (alternative : AltValue)

namespace AltElement

def text : AltElement → Bytes
  | blank space _ => space
  | value alternative => alternative.text

def service (now : ℕ) (srcHost : Bytes) : AltElement → Option AltService
  | blank _ _ => none
  | value alternative => alternative.service now srcHost

def Unbroken : AltElement → Prop
  | blank _ _ => True
  | value alternative => alternative.Unbroken

def Plain (now limit : ℕ) : AltElement → Prop
  | blank _ _ => True
  | value alternative =>
    HttpVersion.tryFrom alternative.protocol ≠ none → PlainAlt now limit alternative

theorem parseAltSvc_blank {space : Bytes} (ows : ∀ b ∈ space, isOws b = true) :
    parseAltSvc now limit srcHost space = some none := by
  have hsemicolon : ';'.toUInt8 ∉ space := fun h => (isOws_plain (ows _ h)).2.1 rfl
  have hequals : '='.toUInt8 ∉ space := fun h => (isOws_plain (ows _ h)).1 rfl
  rw [parseAltSvc, splitOn_eq_singleton hsemicolon]
  simp only [splitOn_eq_singleton hequals]

variable {self : AltElement}

theorem parseAltSvc_text_iff (hunbroken : self.Unbroken) :
    parseAltSvc now limit srcHost self.text = some (self.service now srcHost) ↔
      self.Plain now limit := by
  cases self with
  | blank space ows => exact iff_of_true (parseAltSvc_blank ows) trivial
  | value alternative => exact AltValue.parseAltSvc_text_iff hunbroken

theorem parseAltSvc_none (hunbroken : self.Unbroken) (h : self.service now srcHost = none) :
    parseAltSvc now limit srcHost self.text = some none := by
  rw [← h, parseAltSvc_text_iff hunbroken]
  cases self with
  | blank space ows => trivial
  | value alternative => exact fun hknown => absurd (Option.map_eq_none_iff.mp h) hknown

theorem comma_not_mem_text (hunbroken : self.Unbroken) :
    ','.toUInt8 ∉ self.text := by
  cases self with
  | blank space ows => exact fun h => (isOws_plain (ows _ h)).2.2 rfl
  | value alternative => exact AltValue.comma_not_mem_text hunbroken

theorem text_ne_clear (self : AltElement) : self.text ≠ str "clear" := by
  intro h
  cases self with
  | blank space ows =>
    have hmem : 'c'.toUInt8 ∈ space := by
      rw [show space = str "clear" from h]
      decide
    exact absurd (ows _ hmem) (by decide)
  | value alternative =>
    have hmem := alternative.equals_mem_text
    rw [show alternative.text = str "clear" from h] at hmem
    exact absurd hmem (by decide)

end AltElement

def altListText (elements : List AltElement) : Bytes :=
  [','.toUInt8].intercalate (elements.map AltElement.text)

variable {elements : List AltElement}

theorem splitOn_altListText (hne : elements ≠ []) (hunbroken : ∀ e ∈ elements, e.Unbroken) :
    (altListText elements).splitOn ','.toUInt8 = elements.map AltElement.text := by
  refine splitOn_intercalate _ (fun part hpart => ?_) (by simpa using hne)
  obtain ⟨e, he, rfl⟩ := mem_map.mp hpart
  exact AltElement.comma_not_mem_text (hunbroken e he)

theorem altListText_ne_clear (hne : elements ≠ []) (hunbroken : ∀ e ∈ elements, e.Unbroken) :
    altListText elements ≠ str "clear" := by
  intro h
  have hsplit := splitOn_altListText hne hunbroken
  rw [h, splitOn_eq_singleton (by decide : ','.toUInt8 ∉ str "clear")] at hsplit
  cases elements with
  | nil => exact hne rfl
  | cons e elements =>
    exact e.text_ne_clear (cons.inj hsplit).1.symm

variable {lists : List (List AltElement)}

theorem newAltSvcs_texts (hne : ∀ l ∈ lists, l ≠ [])
    (hunbroken : ∀ l ∈ lists, ∀ e ∈ l, e.Unbroken) : ∀ {services : List AltService},
    newAltSvcs now limit srcHost services (lists.map altListText) =
      ((lists.flatten.map AltElement.text).mapM (parseAltSvc now limit srcHost)).map
        fun results => some (services ++ results.filterMap id) := by
  induction lists with
  | nil =>
    intro services
    simp [newAltSvcs]
  | cons elements lists ih =>
    intro services
    have hsplit := splitOn_altListText (hne _ (.head _))
      (hunbroken _ (.head _))
    rw [map_cons, newAltSvcs, if_neg (altListText_ne_clear (hne _ (.head _))
      (hunbroken _ (.head _))), parseAltSvcs, hsplit, flatten_cons, map_append, mapM_append]
    cases (elements.map AltElement.text).mapM (parseAltSvc now limit srcHost) with
    | none => rfl
    | some results =>
      rw [Option.map_some, Option.bind_some, ih (fun l hl => hne l (.tail _ hl))
        fun l hl => hunbroken l (.tail _ hl)]
      cases (lists.flatten.map AltElement.text).mapM (parseAltSvc now limit srcHost) with
      | none => rfl
      | some results' => simp

theorem filterMap_eq_iff {α β : Type} {f g : α → Option β} {as : List α}
    (h : ∀ a ∈ as, g a = none → f a = none) :
    as.filterMap f = as.filterMap g ↔ ∀ a ∈ as, f a = g a := by
  have hlen {as : List α} (h : ∀ a ∈ as, g a = none → f a = none) :
      (as.filterMap f).length ≤ (as.filterMap g).length := by
    induction as with
    | nil => exact Nat.le_refl 0
    | cons a as ih =>
      have hle := ih fun b hb => h b (.tail a hb)
      have ha := h a (.head _)
      rw [filterMap_cons, filterMap_cons]
      cases hf : f a <;> cases hg : g a <;> simp_all
      omega
  constructor
  · intro heq
    induction as with
    | nil => exact nofun
    | cons a as ih =>
      have htail : ∀ b ∈ as, g b = none → f b = none := fun b hb => h b (.tail a hb)
      have ha := h a (.head _)
      rw [filterMap_cons, filterMap_cons] at heq
      rw [forall_mem_cons]
      cases hf : f a with
      | none =>
        cases hg : g a with
        | none =>
          rw [hf, hg] at heq
          exact ⟨rfl, ih htail heq⟩
        | some b =>
          rw [hf, hg] at heq
          replace heq : as.filterMap f = b :: as.filterMap g := heq
          have hle := hlen htail
          rw [heq, length_cons] at hle
          omega
      | some b =>
        cases hg : g a with
        | none => exact absurd (ha hg) (by rw [hf]; exact nofun)
        | some c =>
          rw [hf, hg] at heq
          obtain ⟨rfl, hrest⟩ := cons.inj heq
          exact ⟨rfl, ih htail hrest⟩
  · exact fun heq => filterMap_congr heq

def altServices (now : ℕ) (srcHost : Bytes) (lists : List (List AltElement)) : List AltService :=
  lists.flatten.filterMap (AltElement.service now srcHost)

theorem newAltSvcs_eq_some_iff (hne : ∀ l ∈ lists, l ≠ [])
    (hunbroken : ∀ l ∈ lists, ∀ e ∈ l, e.Unbroken) :
    newAltSvcs now limit srcHost [] (lists.map altListText) =
        some (some (altServices now srcHost lists)) ↔
      ∀ l ∈ lists, ∀ e ∈ l, e.Plain now limit := by
  have hflat : ∀ e ∈ lists.flatten, e.Unbroken := by
    intro e he
    obtain ⟨l, hl, hel⟩ := mem_flatten.mp he
    exact hunbroken l hl e hel
  have hplain : (∀ l ∈ lists, ∀ e ∈ l, e.Plain now limit) ↔
      ∀ e ∈ lists.flatten, parseAltSvc now limit srcHost e.text = some (e.service now srcHost) := by
    rw [forall_mem_flatten]
    refine forall₂_congr fun l hl => forall₂_congr fun e he => ?_
    exact (AltElement.parseAltSvc_text_iff (hunbroken l hl e he)).symm
  rw [newAltSvcs_texts hne hunbroken, hplain, altServices, Option.map_eq_some_iff]
  generalize lists.flatten = elements at hflat
  constructor
  · rintro ⟨results, hresults, hservices⟩
    rw [mapM_eq_some_iff, map_map] at hresults
    replace hservices := Option.some.inj hservices
    rw [nil_append] at hservices
    have hread (e : AltElement) (he : e ∈ elements) :
        parseAltSvc now limit srcHost e.text =
          some ((parseAltSvc now limit srcHost e.text).getD none) := by
      have hmem := mem_map_of_mem (f := parseAltSvc now limit srcHost ∘ AltElement.text) he
      rw [hresults] at hmem
      obtain ⟨result, -, hres⟩ := mem_map.mp hmem
      rw [show parseAltSvc now limit srcHost e.text = some result from hres.symm]
      rfl
    have hsame : results =
        elements.map fun e => (parseAltSvc now limit srcHost e.text).getD none := by
      have hmap := congrArg (map fun r => Option.getD r none) hresults
      rw [map_map, map_map] at hmap
      simpa [Function.comp_def] using hmap.symm
    rw [hsame, filterMap_map, Function.id_comp, filterMap_eq_iff] at hservices
    · intro e he
      rw [hread e he, hservices e he]
    · intro e he hnone
      rw [AltElement.parseAltSvc_none (hflat e he) hnone]
      rfl
  · intro h
    refine ⟨elements.map (AltElement.service now srcHost), ?_, ?_⟩
    · rw [mapM_eq_some_iff, map_map, map_map]
      exact map_congr_left h
    · rw [nil_append, filterMap_map, Function.id_comp]

/-- A field is taken without a panic exactly if none of its pieces is cut. An unbroken list is kept
as it should be exactly if its alternatives of known protocols are plain. -/
theorem setAltSvcs_iff {uri : Uri} {scheme : Scheme} {authority : Authority}
    (hscheme : uri.scheme = some scheme) (hauthority : uri.authority = some authority)
    {headers : Headers} {values : HeaderValue} (hvalues : headers.get (str "Alt-Svc") = some values)
    (self : AltServiceMap) :
    (self.setAltSvcs now limit uri headers ≠ none ↔
      ∀ value ∈ uncleared values.inner, ∀ piece ∈ value.splitOn ','.toUInt8, ¬Cut piece) ∧
    ∀ lists : List (List AltElement), (∀ l ∈ lists, l ≠ []) →
      (∀ l ∈ lists, ∀ e ∈ l, e.Unbroken) → values.inner = lists.map altListText →
      (self.setAltSvcs now limit uri headers =
          some (Function.update self ⟨scheme, authority⟩
            (some (altServices now authority.host lists))) ↔
        ∀ l ∈ lists, ∀ e ∈ l, e.Plain now limit) := by
  have hhost : uri.host = some authority.host := by rw [Uri.host, hauthority, Option.map_some]
  have hset : self.setAltSvcs now limit uri headers =
      (newAltSvcs now limit authority.host [] values.inner).map
        (Function.update self ⟨scheme, authority⟩) := by
    simp only [AltServiceMap.setAltSvcs, hscheme, hauthority, hhost, hvalues]
  rw [hset]
  refine ⟨?_, fun lists hne hunbroken hinner => ?_⟩
  · rw [ne_eq, Option.map_eq_none_iff]
    exact newAltSvcs_ne_none_iff
  · have hkept : newAltSvcs now limit authority.host [] (lists.map altListText) =
        some (some (altServices now authority.host lists)) ↔ _ :=
      newAltSvcs_eq_some_iff hne hunbroken
    rw [hinner, ← hkept, Option.map_eq_some_iff]
    constructor
    · rintro ⟨found, hfound, hupd⟩
      have hkey := congrFun hupd ⟨scheme, authority⟩
      rw [Function.update_self, Function.update_self] at hkey
      rw [hfound, hkey]
    · exact fun h => ⟨_, h, rfl⟩

/-- A response with one `Alt-Svc` field. -/
def altHeaders (value : HeaderValue) : Headers :=
  match HeaderName.fromBytes (str "Alt-Svc") with
  | none => .new
  | some name => Headers.new.insertName name value

theorem altHeaders_get (value : HeaderValue) :
    (altHeaders value).get (str "Alt-Svc") = some value := by
  have hname : HeaderName.fromBytes (str "Alt-Svc") =
      some { name := str "alt-svc", normal := by decide +kernel } := by decide +kernel
  rw [altHeaders, Headers.get, hname, Option.bind_some]
  simp only [Headers.find_insertName, if_true]

/-- A request for `https://example.com`. -/
def exampleUri : Uri :=
  { scheme := some .https, authority := some { host := str "example.com", port := none }
    path := none, query := none }

/-- The field `h2=`. -/
def cutField : HeaderValue := { inner := [str "h2="], isSensitive := false, valid := by decide }

/-- `ma=60`. -/
def minute : AltParameter where
  before := []
  name := str "ma"
  quoted := false
  value := str "60"
  after := []
  ows := nofun
  token := ⟨by decide, by decide +kernel⟩
  written := ⟨by decide, by decide +kernel⟩

/-- `v="p;q"`. -/
def semicolon : AltParameter where
  before := []
  name := str "v"
  quoted := true
  value := str "p;q"
  after := []
  ows := nofun
  token := ⟨by decide, by decide +kernel⟩
  written := by change isQuotedText _ = true; decide

/-- `h3=":443"` or the same of another protocol, with a semicolon that is never read. -/
def localAlt (protocol : Bytes) (parameters : List AltParameter) (token : IsToken protocol)
    (deltaSeconds : ∀ p ∈ parameters, p.name = str "ma" → IsDigits p.meaning) : AltValue where
  before := []
  protocol
  authority := str ":443"
  after := []
  parameters
  host := []
  port := str "443"
  ows := nofun
  token
  quoted := by decide
  means := by decide
  uriHost := .inl nofun
  isPort := by decide
  deltaSeconds

/-- `h3=":443";ma=60;v="p;q",foo=":443";v="p;q"`: no semicolon is quoted ahead of a lifetime that is
looked for. -/
def twoAlternatives : List AltElement :=
  [.value (localAlt (str "h3") [minute, semicolon] ⟨by decide, by decide +kernel⟩ (by decide)),
    .value (localAlt (str "foo") [semicolon] ⟨by decide, by decide +kernel⟩ (by decide))]

def twoField : HeaderValue :=
  { inner := [altListText twoAlternatives], isSensitive := false, valid := by decide }

theorem setAltSvcs_iff_quoted :
    AltServiceMap.setAltSvcs 0 (2 ^ 63) (fun _ => none) exampleUri (altHeaders twoField) =
      some (Function.update (fun _ : PoolKey => none)
        ⟨.https, { host := str "example.com", port := none }⟩
        (some [{ httpVersion := .http3, srcHost := str "example.com", host := none
                 port := str "443", lifetime := 60 }])) := by
  have hset := (@setAltSvcs_iff 0 (2 ^ 63) exampleUri .https
    { host := str "example.com", port := none } rfl rfl _ _ (altHeaders_get twoField)
    (fun _ => none)).2 [twoAlternatives]
  refine (hset (by decide) ?_ rfl).mpr ?_
  · rw [forall_mem_singleton, twoAlternatives, forall_mem_cons, forall_mem_singleton]
    exact ⟨⟨by decide, fun _ => nofun⟩, by decide, fun h => absurd rfl h⟩
  · rw [forall_mem_singleton, twoAlternatives, forall_mem_cons, forall_mem_singleton]
    refine ⟨fun _ => ⟨rfl, rfl, by decide, nofun, ?_, by decide⟩, fun h => absurd rfl h⟩
    exact ⟨by decide, (if_pos rfl).mpr (by decide)⟩

/-- An authority that is missing is a panic. -/
theorem altSvc_not_taken :
    ¬∀ (now limit : ℕ) (self : AltServiceMap) (uri : Uri) (headers : Headers),
      self.setAltSvcs now limit uri headers ≠ none ∧
      ∀ scheme authority values, uri.scheme = some scheme → uri.authority = some authority →
        headers.get (str "Alt-Svc") = some values →
        ∀ lists : List (List AltElement), (∀ l ∈ lists, l ≠ []) →
          values.inner = lists.map altListText →
          self.setAltSvcs now limit uri headers =
            some (Function.update self ⟨scheme, authority⟩
              (some (altServices now authority.host lists))) := by
  intro h
  have hset := (h 0 (2 ^ 63) (fun _ => none) exampleUri (altHeaders cutField)).1
  have hnew : newAltSvcs 0 (2 ^ 63) (str "example.com") [] cutField.inner = none := by
    decide +kernel
  simp only [AltServiceMap.setAltSvcs, exampleUri, Uri.host, Option.map_some,
    altHeaders_get] at hset
  rw [hnew] at hset
  exact hset rfl

end YlongHttp.Client.AltSvc
