import YlongHttp.Verification.Hpack.Segmentation

/-! # The reference decoder of RFC 7541

A decoder of complete header blocks, written after the RFC and not after the source: the
integers and strings of section 5, the representations of section 6, and the tables of
sections 2.3, 4 and appendix A. The implementation limits that section 5.1 lets a decoder
set are ten octets after the prefix of an integer, and 64 bits for its value. -/

namespace YlongHttp.Rfc7541

/-! ## Integers and strings (section 5) -/

/-- The loop of the pseudocode of section 5.1, with its variables `I` and `M`. -/
def integerLoop : ℕ → ℕ → Bytes → Option (ℕ × ℕ × Bytes)
  | _, _, [] => none
  | i, m, b :: rest =>
    if b.toNat < 128 then some (i + b.toNat * 2 ^ m, m + 7, rest)
    else integerLoop (i + (b.toNat - 128) * 2 ^ m) (m + 7) rest

/-- An integer with a prefix of `n` bits. -/
def integer (n : ℕ) : Bytes → Option (ℕ × Bytes)
  | [] => none
  | b :: rest =>
    if b.toNat % 2 ^ n < 2 ^ n - 1 then some (b.toNat % 2 ^ n, rest)
    else
      (integerLoop (2 ^ n - 1) 0 rest).bind fun (i, m, rest) =>
        if i < 2 ^ 64 ∧ m ≤ 70 then some (i, rest) else none

noncomputable def huffman (octets : Bytes) : Option Bytes :=
  open Classical in
  if h : ∃ s, ∃ k ≤ 7, octetBits octets = codeBits s ++ List.replicate k true then some h.choose
  else none

/-- A string literal. -/
noncomputable def string : Bytes → Option (Bytes × Bytes)
  | [] => none
  | b :: bytes =>
    (integer 7 (b :: bytes)).bind fun (length, rest) =>
      if rest.length < length then none
      else
        (if b.toNat ≥ 128 then huffman (rest.take length) else some (rest.take length)).map
          fun s => (s, rest.drop length)

/-! ## Representations (section 6) -/

noncomputable def name (i : ℕ) (rest : Bytes) : Option (Name × Bytes) :=
  if i = 0 then (string rest).map fun (s, rest) => (.literal s, rest)
  else some (.index i, rest)

/-- A literal field whose index has a prefix of `n` bits. -/
noncomputable def literal (n : ℕ) (make : Name → Bytes → Representation) (bytes : Bytes) :
    Option (Representation × Bytes) :=
  (integer n bytes).bind fun (i, rest) =>
    (name i rest).bind fun (nm, rest) => (string rest).map fun (v, rest) => (make nm v, rest)

noncomputable def representation : Bytes → Option (Representation × Bytes)
  | [] => none
  | b :: bytes =>
    if b.toNat ≥ 128 then
      (integer 7 (b :: bytes)).bind fun (i, rest) => if i = 0 then none else some (.indexed i, rest)
    else if b.toNat ≥ 64 then literal 6 .literalWithIndexing (b :: bytes)
    else if b.toNat ≥ 32 then
      (integer 5 (b :: bytes)).map fun (n, rest) => (.sizeUpdate n, rest)
    else if b.toNat ≥ 16 then literal 4 .literalNeverIndexed (b :: bytes)
    else literal 4 .literalWithoutIndexing (b :: bytes)

/-! ## Tables (sections 2.3 and 4, appendix A) -/

def staticTable : List (Bytes × Bytes) := [
  (str ":authority", []),
  (str ":method", str "GET"),
  (str ":method", str "POST"),
  (str ":path", str "/"),
  (str ":path", str "/index.html"),
  (str ":scheme", str "http"),
  (str ":scheme", str "https"),
  (str ":status", str "200"),
  (str ":status", str "204"),
  (str ":status", str "206"),
  (str ":status", str "304"),
  (str ":status", str "400"),
  (str ":status", str "404"),
  (str ":status", str "500"),
  (str "accept-charset", []),
  (str "accept-encoding", str "gzip, deflate"),
  (str "accept-language", []),
  (str "accept-ranges", []),
  (str "accept", []),
  (str "access-control-allow-origin", []),
  (str "age", []),
  (str "allow", []),
  (str "authorization", []),
  (str "cache-control", []),
  (str "content-disposition", []),
  (str "content-encoding", []),
  (str "content-language", []),
  (str "content-length", []),
  (str "content-location", []),
  (str "content-range", []),
  (str "content-type", []),
  (str "cookie", []),
  (str "date", []),
  (str "etag", []),
  (str "expect", []),
  (str "expires", []),
  (str "from", []),
  (str "host", []),
  (str "if-match", []),
  (str "if-modified-since", []),
  (str "if-none-match", []),
  (str "if-range", []),
  (str "if-unmodified-since", []),
  (str "last-modified", []),
  (str "link", []),
  (str "location", []),
  (str "max-forwards", []),
  (str "proxy-authenticate", []),
  (str "proxy-authorization", []),
  (str "range", []),
  (str "referer", []),
  (str "refresh", []),
  (str "retry-after", []),
  (str "server", []),
  (str "set-cookie", []),
  (str "strict-transport-security", []),
  (str "transfer-encoding", []),
  (str "user-agent", []),
  (str "vary", []),
  (str "via", []),
  (str "www-authenticate", [])]

def entrySize (e : Bytes × Bytes) : ℕ := e.1.length + e.2.length + 32

/-- The newest entries that fit in `room` octets: the oldest ones are evicted first. -/
def fit : ℕ → List (Bytes × Bytes) → List (Bytes × Bytes)
  | _, [] => []
  | room, e :: rest => if entrySize e ≤ room then e :: fit (room - entrySize e) rest else []

/-- The dynamic table, the newest entry first. -/
structure Context where
  entries : List (Bytes × Bytes)
  maxSize : ℕ

variable (c : Context)

def Context.insert (e : Bytes × Bytes) : Context :=
  { c with
    entries :=
      if entrySize e ≤ c.maxSize then e :: fit (c.maxSize - entrySize e) c.entries else [] }

def Context.resize (n : ℕ) : Context := { entries := fit n c.entries, maxSize := n }

def Context.lookup (i : ℕ) : Option (Bytes × Bytes) :=
  if i = 0 then none else (staticTable ++ c.entries)[i - 1]?

/-! ## Blocks -/

def Context.nameOf : Name → Option Bytes
  | .index i => (c.lookup i).map Prod.fst
  | .literal s => some s

/-- What one representation does (section 3.2): the table after it and the field it adds to
the header list. `limit` is the configured SETTINGS_HEADER_TABLE_SIZE. -/
def Context.apply (limit : ℕ) (c : Context) :
    Representation → Option (Context × Option (Bytes × Bytes))
  | .indexed i => (c.lookup i).map fun e => (c, some e)
  | .literalWithIndexing nm v => (c.nameOf nm).map fun n => (c.insert (n, v), some (n, v))
  | .literalWithoutIndexing nm v => (c.nameOf nm).map fun n => (c, some (n, v))
  | .literalNeverIndexed nm v => (c.nameOf nm).map fun n => (c, some (n, v))
  | .sizeUpdate n => if n ≤ limit then some (c.resize n, none) else none

/-- The fields of a block and the table after it. Every representation takes an octet, so
that the fuel, one more than the octets, is never used up. -/
noncomputable def Context.blockLoop (limit : ℕ) :
    ℕ → Context → Bytes → Option (Context × List (Bytes × Bytes))
  | 0, _, _ => none
  | fuel + 1, c, bytes =>
    if bytes = [] then some (c, [])
    else
      (representation bytes).bind fun (r, rest) =>
        (c.apply limit r).bind fun (c', field) =>
          (Context.blockLoop limit fuel c' rest).map fun (c'', fields) =>
            (c'', field.toList ++ fields)

/-- A block: its fields, unless it is malformed or its header list exceeds `listLimit`, and
the table after it. -/
noncomputable def Context.block (limit listLimit : ℕ) (c : Context) (bytes : Bytes) :
    Option (Context × List (Bytes × Bytes)) :=
  (c.blockLoop limit (bytes.length + 1) bytes).filter fun r => (r.2.map entrySize).sum ≤ listLimit

noncomputable def Context.blocks (limit listLimit : ℕ) :
    Context → List Bytes → List (Option (List (Bytes × Bytes)))
  | _, [] => []
  | c, bytes :: blocks =>
    match c.block limit listLimit bytes with
    | none => [none]
    | some (c', fields) => some fields :: Context.blocks limit listLimit c' blocks

end YlongHttp.Rfc7541
