import YlongHttp.Model.Basic

/-! # Header fields (`headers.rs`, `pseudo.rs`, `h2/parts.rs`)

A `HashMap` is modelled by the list of its entries, in the order its iterator yields
them; a new entry is put at the end. Nothing in the repository depends on that order. -/

namespace YlongHttp

open List

/-- `HEADER_CHARS`: the octets allowed in a field name, mapped to lower case, and 0 for
every other octet. -/
def headerChars : List UInt8 := [
  0, 0, 0, 0, 0, 0, 0, 0, 0, 0, 0, 0, 0, 0, 0, 0,
  0, 0, 0, 0, 0, 0, 0, 0, 0, 0, 0, 0, 0, 0, 0, 0,
  32, 33, 34, 35, 36, 37, 38, 39, 0, 0, 42, 43, 44, 45, 46, 47,
  48, 49, 50, 51, 52, 53, 54, 55, 56, 57, 0, 0, 0, 0, 0, 0,
  0, 97, 98, 99, 100, 101, 102, 103, 104, 105, 106, 107, 108, 109, 110, 111,
  112, 113, 114, 115, 116, 117, 118, 119, 120, 121, 122, 0, 0, 0, 94, 95,
  96, 97, 98, 99, 100, 101, 102, 103, 104, 105, 106, 107, 108, 109, 110, 111,
  112, 113, 114, 115, 116, 117, 118, 119, 120, 121, 122, 0, 124, 0, 126, 0,
  0, 0, 0, 0, 0, 0, 0, 0, 0, 0, 0, 0, 0, 0, 0, 0,
  0, 0, 0, 0, 0, 0, 0, 0, 0, 0, 0, 0, 0, 0, 0, 0,
  0, 0, 0, 0, 0, 0, 0, 0, 0, 0, 0, 0, 0, 0, 0, 0,
  0, 0, 0, 0, 0, 0, 0, 0, 0, 0, 0, 0, 0, 0, 0, 0,
  0, 0, 0, 0, 0, 0, 0, 0, 0, 0, 0, 0, 0, 0, 0, 0,
  0, 0, 0, 0, 0, 0, 0, 0, 0, 0, 0, 0, 0, 0, 0, 0,
  0, 0, 0, 0, 0, 0, 0, 0, 0, 0, 0, 0, 0, 0, 0, 0,
  0, 0, 0, 0, 0, 0, 0, 0, 0, 0, 0, 0, 0, 0, 0, 0]

def headerChar (b : UInt8) : UInt8 := headerChars.getD b.toNat 0

/-- `HeaderName::normalize`; `none` is `InvalidInput`. -/
def normalize (input : Bytes) : Option Bytes :=
  input.mapM fun b => if headerChar b = 0 then none else some (headerChar b)

theorem headerChar_fixed (b : UInt8) (h : headerChar b ≠ 0) :
    headerChar (headerChar b) = headerChar b := by
  have hall : headerChars.all (fun c => c == 0 || headerChar c == c) = true := by decide +kernel
  have hmem : headerChar b ∈ headerChars := by
    rw [headerChar, getD_eq_getElem?_getD] at h ⊢
    cases hget : headerChars[b.toNat]? with
    | none => exact absurd (by rw [hget]; rfl) h
    | some c => exact mem_of_getElem? hget
  simpa [h] using all_eq_true.mp hall _ hmem

theorem normalize_normalize {input name : Bytes} (h : normalize input = some name) :
    normalize name = some name := by
  induction input generalizing name with
  | nil =>
    obtain rfl : [] = name := Option.some.inj h
    rfl
  | cons b input ih =>
    simp only [normalize, mapM_cons, Option.bind_eq_bind, Option.bind_eq_some_iff,
      Option.pure_def, Option.some.injEq] at h
    obtain ⟨c, hc, rest, hrest, rfl⟩ := h
    split at hc
    · cases hc
    · rename_i hb
      cases hc
      have hfix := headerChar_fixed b hb
      have htail : mapM _ rest = some rest := ih hrest
      simp [normalize, mapM_cons, hfix, hb, htail]

/-- A field name: octets that `normalize` leaves alone. -/
structure HeaderName where
  name : Bytes
  normal : normalize name = some name
deriving DecidableEq

def HeaderName.fromBytes (bytes : Bytes) : Option HeaderName :=
  match h : normalize bytes with
  | none => none
  | some name => some { name, normal := normalize_normalize h }

/-- `HeaderValue::is_valid`. -/
def isValidValueByte (b : UInt8) : Bool := (b ≥ 32 && b ≠ 127) || b = 9

/-- A field value: the values a name was given, each of them valid. -/
structure HeaderValue where
  inner : List Bytes
  isSensitive : Bool
  valid : ∀ v ∈ inner, v.all isValidValueByte = true
deriving DecidableEq

def HeaderValue.fromBytes (bytes : Bytes) : Option HeaderValue :=
  if h : bytes.all isValidValueByte = true then
    some { inner := [bytes], isSensitive := false, valid := by simpa using h }
  else none

def HeaderValue.append (self other : HeaderValue) : HeaderValue where
  inner := self.inner ++ other.inner
  isSensitive := self.isSensitive
  valid := by
    intro v hv
    rcases List.mem_append.mp hv with hv | hv
    · exact self.valid v hv
    · exact other.valid v hv

/-- `HeaderValue::to_string`: the values joined with a comma and a space. It never
fails. -/
def HeaderValue.toString (value : HeaderValue) : Bytes :=
  (value.inner.intersperse (str ", ")).flatten

/-- A header map; no name occurs twice. -/
structure Headers where
  entries : List (HeaderName × HeaderValue)
  nodup : (entries.map Prod.fst).Nodup
deriving DecidableEq

def Headers.new : Headers := { entries := [], nodup := by simp }

/-- The entries after `HashMap::entry(name)` was appended to or inserted. -/
def appendEntry (name : HeaderName) (value : HeaderValue) :
    List (HeaderName × HeaderValue) → List (HeaderName × HeaderValue)
  | [] => [(name, value)]
  | (n, v) :: rest =>
    if n = name then (n, v.append value) :: rest
    else (n, v) :: appendEntry name value rest

theorem appendEntry_names (name : HeaderName) (value : HeaderValue)
    (entries : List (HeaderName × HeaderValue)) :
    (appendEntry name value entries).map Prod.fst =
      if name ∈ entries.map Prod.fst then entries.map Prod.fst
      else entries.map Prod.fst ++ [name] := by
  induction entries with
  | nil => rfl
  | cons entry rest ih =>
    obtain ⟨n, v⟩ := entry
    by_cases hn : n = name
    · simp [appendEntry, hn]
    · have hn' : ¬ name = n := fun h => hn h.symm
      simp only [appendEntry, hn, if_false, map_cons, ih, mem_cons, hn', false_or]
      split <;> simp

/-- `Headers::append`; `none` is an invalid name or value. -/
def Headers.append (headers : Headers) (name value : Bytes) : Option Headers :=
  (HeaderName.fromBytes name).bind fun name =>
    (HeaderValue.fromBytes value).map fun value =>
      { entries := appendEntry name value headers.entries
        nodup := by
          rw [appendEntry_names]
          split
          · exact headers.nodup
          · rename_i h
            exact List.nodup_append.mpr
              ⟨headers.nodup, by simp, by
                intro a ha b hb hab
                obtain rfl := List.mem_singleton.mp hb
                exact h (hab ▸ ha)⟩ }

structure PseudoHeaders where
  authority : Option Bytes
  method : Option Bytes
  path : Option Bytes
  scheme : Option Bytes
  status : Option Bytes
deriving DecidableEq

def PseudoHeaders.new : PseudoHeaders :=
  { authority := none, method := none, path := none, scheme := none, status := none }

/-- The payload of a HEADERS frame. -/
structure Parts where
  pseudo : PseudoHeaders
  map : Headers
deriving DecidableEq

def Parts.new : Parts := { pseudo := .new, map := .new }

end YlongHttp
