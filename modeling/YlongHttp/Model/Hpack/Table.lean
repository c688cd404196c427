import YlongHttp.Model.Headers

/-! # Static and dynamic tables (`h2/hpack/table.rs`) -/

namespace YlongHttp

/-- The name of a field in the tables. -/
inductive Header where
  | authority
  | method
  | path
  | scheme
  | status
  | other (s : Bytes)
deriving DecidableEq

def Header.len : Header → ℕ
  | .authority => 10
  | .method => 7
  | .path => 5
  | .scheme => 7
  | .status => 7
  | .other s => s.length

def Header.intoString : Header → Bytes
  | .authority => str ":authority"
  | .method => str ":method"
  | .path => str ":path"
  | .scheme => str ":scheme"
  | .status => str ":status"
  | .other s => s

abbrev Field := Header × Bytes

/-- The size of a table entry, with the overhead of RFC 7541, 4.1. -/
def Field.size (f : Field) : ℕ := f.1.len + f.2.length + 32

variable (fields : List Field)

def fieldsSize : ℕ := (fields.map Field.size).sum

/-- The newest entry comes first; `currSize` is the size of the entries. -/
structure DynamicTable where
  queue : List Field
  currSize : ℕ
  maxSize : ℕ
  size_eq : currSize = fieldsSize queue
deriving DecidableEq

variable (maxSize : ℕ)

def DynamicTable.withMaxSize : DynamicTable :=
  { queue := [], currSize := 0, maxSize, size_eq := rfl }

variable (self dynamic : DynamicTable)

def DynamicTable.headerName (index : ℕ) : Option Header :=
  self.queue[index]?.map Prod.fst

def DynamicTable.header (index : ℕ) : Option Field := self.queue[index]?

/-- The loop of `fit_size`, on the entries from the oldest to the newest. -/
def evict (maxSize : ℕ) : List Field → ℕ → List Field × ℕ
  | [], currSize => ([], currSize)
  | entry :: rest, currSize =>
    if currSize > maxSize then evict maxSize rest (currSize - entry.size)
    else (entry :: rest, currSize)

theorem fieldsSize_reverse : fieldsSize fields.reverse = fieldsSize fields := by
  simp [fieldsSize, List.sum_reverse]

theorem evict_size (entries : List Field) :
    (evict maxSize entries (fieldsSize entries)).2 =
      fieldsSize (evict maxSize entries (fieldsSize entries)).1 := by
  induction entries with
  | nil => rfl
  | cons entry rest ih =>
    have hsub : fieldsSize (entry :: rest) - entry.size = fieldsSize rest := by simp [fieldsSize]
    rw [evict, hsub]
    split
    · exact ih
    · rfl

/-- `fit_size`: the oldest entries go until the rest fits. -/
def DynamicTable.fitSize : DynamicTable where
  queue := (evict self.maxSize self.queue.reverse self.currSize).1.reverse
  currSize := (evict self.maxSize self.queue.reverse self.currSize).2
  maxSize := self.maxSize
  size_eq := by rw [self.size_eq, fieldsSize_reverse, ← fieldsSize_reverse self.queue, evict_size]

def DynamicTable.update (self : DynamicTable) (header : Header) (value : Bytes) : DynamicTable :=
  DynamicTable.fitSize
    { self with
      currSize := self.currSize + (header.len + value.length + 32)
      queue := (header, value) :: self.queue
      size_eq := by
        rw [self.size_eq]
        simp only [fieldsSize, List.map_cons, List.sum_cons, Field.size]
        omega }

def DynamicTable.updateSize (maxSize : ℕ) : DynamicTable :=
  DynamicTable.fitSize { self with maxSize }

inductive TableIndex where
  | header (i : ℕ)
  | headerName (i : ℕ)
deriving DecidableEq

/-- The loop of `DynamicTable::index`, with its counter and the name match so far. -/
def indexLoop (header : Header) (value : Bytes) :
    List Field → ℕ → Option TableIndex → Option TableIndex
  | [], _, found => found
  | (h, v) :: rest, n, found =>
    if header = h then
      if value = v then some (.header n)
      else indexLoop header value rest (n + 1) (found.or (some (.headerName n)))
    else indexLoop header value rest (n + 1) found

def DynamicTable.index (header : Header) (value : Bytes) : Option TableIndex :=
  indexLoop header value self.queue 0 none

namespace StaticTable

def headerName : ℕ → Option Header
  | 1 => some .authority
  | 2 | 3 => some .method
  | 4 | 5 => some .path
  | 6 | 7 => some .scheme
  | 8 | 9 | 10 | 11 | 12 | 13 | 14 => some .status
  | 15 => some (.other (str "accept-charset"))
  | 16 => some (.other (str "accept-encoding"))
  | 17 => some (.other (str "accept-language"))
  | 18 => some (.other (str "accept-ranges"))
  | 19 => some (.other (str "accept"))
  | 20 => some (.other (str "access-control-allow-origin"))
  | 21 => some (.other (str "age"))
  | 22 => some (.other (str "allow"))
  | 23 => some (.other (str "authorization"))
  | 24 => some (.other (str "cache-control"))
  | 25 => some (.other (str "content-disposition"))
  | 26 => some (.other (str "content-encoding"))
  | 27 => some (.other (str "content-language"))
  | 28 => some (.other (str "content-length"))
  | 29 => some (.other (str "content-location"))
  | 30 => some (.other (str "content-range"))
  | 31 => some (.other (str "content-type"))
  | 32 => some (.other (str "cookie"))
  | 33 => some (.other (str "date"))
  | 34 => some (.other (str "etag"))
  | 35 => some (.other (str "expect"))
  | 36 => some (.other (str "expires"))
  | 37 => some (.other (str "from"))
  | 38 => some (.other (str "host"))
  | 39 => some (.other (str "if-match"))
  | 40 => some (.other (str "if-modified-since"))
  | 41 => some (.other (str "if-none-match"))
  | 42 => some (.other (str "if-range"))
  | 43 => some (.other (str "if-unmodified-since"))
  | 44 => some (.other (str "last-modified"))
  | 45 => some (.other (str "link"))
  | 46 => some (.other (str "location"))
  | 47 => some (.other (str "max-forwards"))
  | 48 => some (.other (str "proxy-authenticate"))
  | 49 => some (.other (str "proxy-authorization"))
  | 50 => some (.other (str "range"))
  | 51 => some (.other (str "referer"))
  | 52 => some (.other (str "refresh"))
  | 53 => some (.other (str "retry-after"))
  | 54 => some (.other (str "server"))
  | 55 => some (.other (str "set-cookie"))
  | 56 => some (.other (str "strict-transport-security"))
  | 57 => some (.other (str "transfer-encoding"))
  | 58 => some (.other (str "user-agent"))
  | 59 => some (.other (str "vary"))
  | 60 => some (.other (str "via"))
  | 61 => some (.other (str "www-authenticate"))
  | _ => none

/-- `StaticTable::header`: only the entries that have a value. -/
def header : ℕ → Option Field
  | 2 => some (.method, str "GET")
  | 3 => some (.method, str "POST")
  | 4 => some (.path, str "/")
  | 5 => some (.path, str "/index.html")
  | 6 => some (.scheme, str "http")
  | 7 => some (.scheme, str "https")
  | 8 => some (.status, str "200")
  | 9 => some (.status, str "204")
  | 10 => some (.status, str "206")
  | 11 => some (.status, str "304")
  | 12 => some (.status, str "400")
  | 13 => some (.status, str "404")
  | 14 => some (.status, str "500")
  | 16 => some (.other (str "accept-encoding"), str "gzip, deflate")
  | _ => none

/-- The names `index_headers` matches, with the index it answers. -/
def indexNames : List (Bytes × ℕ) := [
  (str "accept-charset", 15),
  (str "accept-encoding", 16),
  (str "accept-language", 17),
  (str "accept-ranges", 18),
  (str "accept", 19),
  (str "access-control-allow-origin", 20),
  (str "age", 21),
  (str "allow", 22),
  (str "authorization", 23),
  (str "cache-control", 24),
  (str "content-disposition", 25),
  (str "content-encoding", 26),
  (str "content-language", 27),
  (str "content-length", 28),
  (str "content-location", 29),
  (str "content-range", 30),
  (str "content-type", 31),
  (str "cookie", 32),
  (str "date", 33),
  (str "etag", 34),
  (str "expect", 35),
  (str "expires", 36),
  (str "from", 37),
  (str "host", 38),
  (str "if-match", 39),
  (str "if-modified-since", 40),
  (str "if-none-match", 41),
  (str "if-range", 42),
  (str "if-unmodified-since", 43),
  (str "last-modified", 44),
  (str "link", 45),
  (str "location", 46),
  (str "max-forwards", 47),
  (str "proxy-authenticate", 48),
  (str "proxy-authorization", 49),
  (str "range", 50),
  (str "referer", 51),
  (str "refresh", 52),
  (str "retry-after", 53),
  (str "server", 54),
  (str "set-cookie", 55),
  (str "strict-transport-security", 56),
  (str "transfer-encoding", 57),
  (str "user-agent", 58),
  (str "vary", 59),
  (str "via", 60),
  (str "www-authenticate", 61)]

def indexHeaders (key value : Bytes) : Option TableIndex :=
  if key = str "accept-encoding" ∧ value = str "gzip, deflate" then some (.header 16)
  else (indexNames.lookup key).map .headerName

def index (header : Header) (value : Bytes) : Option TableIndex :=
  match header with
  | .authority => some (.headerName 1)
  | .method =>
    if value = str "GET" then some (.header 2)
    else if value = str "POST" then some (.header 3)
    else some (.headerName 2)
  | .path =>
    if value = str "/" then some (.header 4)
    else if value = str "/index.html" then some (.header 5)
    else some (.headerName 4)
  | .scheme =>
    if value = str "http" then some (.header 6)
    else if value = str "https" then some (.header 7)
    else some (.headerName 6)
  | .status =>
    if value = str "200" then some (.header 8)
    else if value = str "204" then some (.header 9)
    else if value = str "206" then some (.header 10)
    else if value = str "304" then some (.header 11)
    else if value = str "400" then some (.header 12)
    else if value = str "404" then some (.header 13)
    else if value = str "500" then some (.header 14)
    else some (.headerName 8)
  | .other s => indexHeaders s value

end StaticTable

namespace TableSearcher

def searchHeaderName (index : ℕ) : Option Header :=
  if index ≤ 61 then StaticTable.headerName index else dynamic.headerName (index - 62)

def searchHeader (dynamic : DynamicTable) (index : ℕ) : Option Field :=
  if index ≤ 61 then StaticTable.header index else dynamic.header (index - 62)

/-- `TableSearcher::index`. The last branch answers with a whole field although only its
name was found. -/
def index (header : Header) (value : Bytes) : Option TableIndex :=
  match StaticTable.index header value, dynamic.index header value with
  | some (.header i), _ => some (.header i)
  | _, some (.header i) => some (.header (i + 62))
  | some (.headerName i), _ => some (.headerName i)
  | _, some (.headerName i) => some (.header (i + 62))
  | _, _ => none

end TableSearcher

/-- `Parts::update`; `none` is the panic of the `unwrap`. -/
def Parts.update (self : Parts) (headers : Header) (value : Bytes) : Option Parts :=
  match headers with
  | .authority => some { self with pseudo := { self.pseudo with authority := some value } }
  | .method => some { self with pseudo := { self.pseudo with method := some value } }
  | .path => some { self with pseudo := { self.pseudo with path := some value } }
  | .scheme => some { self with pseudo := { self.pseudo with scheme := some value } }
  | .status => some { self with pseudo := { self.pseudo with status := some value } }
  | .other header => (self.map.append header value).map fun map => { self with map }

end YlongHttp
