import YlongHttp.Model.Headers

/-! # The QPACK tables (`h3/qpack/table.rs`)

Counters of type `usize` and `u64` are natural numbers; a subtraction that the source makes
without a check is written with the check, and its failure is a panic. -/

namespace YlongHttp.Qpack

inductive NameField where
  | authority
  | method
  | path
  | scheme
  | status
  | other (name : Bytes)
deriving DecidableEq

def NameField.len : NameField → ℕ
  | .authority => 10
  | .method => 7
  | .path => 5
  | .scheme => 7
  | .status => 7
  | .other name => name.length

def NameField.toString : NameField → Bytes
  | .authority => str ":authority"
  | .method => str ":method"
  | .path => str ":path"
  | .scheme => str ":scheme"
  | .status => str ":status"
  | .other name => name

structure DynamicField where
  index : ℕ
  name : NameField
  value : Bytes
  tracked : ℕ

def DynamicField.size (field : DynamicField) : ℕ := field.name.len + field.value.length + 32

def DynamicField.isTracked (field : DynamicField) : Bool := field.tracked > 0

structure DynamicTable where
  queue : List DynamicField
  usedCap : ℕ
  capacity : ℕ
  insertCount : ℕ
  removeCount : ℕ
  knownReceivedCount : ℕ

/-- `a - b` on `usize`; `none` is the underflow. -/
def checkedSub (a b : ℕ) : Option ℕ := if b ≤ a then some (a - b) else none

namespace DynamicTable

def withEmpty : DynamicTable where
  queue := []
  usedCap := 0
  capacity := 0
  insertCount := 0
  removeCount := 0
  knownReceivedCount := 0

/-- The loop of `can_evict`; `none` is the underflow of `used_cap`, `some none` the `None`
that is returned. The loop looks at the same entry in every turn. -/
def canEvictLoop (front : DynamicField) (known bound : ℕ) : ℕ → ℕ → ℕ → Option (Option ℕ)
  | 0, _, _ => none
  | fuel + 1, usedCap, canEvict =>
    if usedCap > bound then
      if front.isTracked ∨ front.index > known then some none
      else
        match checkedSub usedCap front.size with
        | none => none
        | some usedCap => canEvictLoop front known bound fuel usedCap (canEvict + 1)
    else some (some canEvict)

/-- `can_evict`; `none` is the underflow. Every turn of the loop takes at least 32 off
`used_cap`, so that it is not taken more than `used_cap` times. -/
def canEvict (table : DynamicTable) (required : ℕ) : Option (Option ℕ) :=
  if required > table.capacity then some none
  else
    match table.queue with
    | [] => some (some 0)
    | front :: _ =>
      canEvictLoop front table.knownReceivedCount (table.capacity - required)
        (table.usedCap + 1) table.usedCap 0

/-- `evict_drained`; `none` is an underflow of `used_cap` or the `unreachable!` of an
empty queue. -/
def evictDrained (table : DynamicTable) : ℕ → Option DynamicTable
  | 0 => some table
  | toEvict + 1 =>
    match table.queue with
    | [] => none
    | field :: queue =>
      match checkedSub table.usedCap field.size with
      | none => none
      | some usedCap =>
        evictDrained { table with queue, usedCap, removeCount := table.removeCount + 1 } toEvict

/-- `update_capacity`, with whether the capacity was set; `none` is a panic. -/
def updateCapacity (table : DynamicTable) (newCap : ℕ) : Option (DynamicTable × Bool) :=
  if newCap < table.capacity then
    match table.canEvict (table.capacity - newCap) with
    | none => none
    | some none => some (table, false)
    | some (some size) =>
      match table.evictDrained size with
      | none => none
      | some table => some ({ table with capacity := newCap }, true)
  else some ({ table with capacity := newCap }, true)

/-- The entry at an absolute index; `none` is the underflow of an index that was removed,
or the `unreachable!` of one that is not there. -/
def modifyField (table : DynamicTable) (index : ℕ) (f : DynamicField → Option DynamicField) :
    Option DynamicTable :=
  match checkedSub index table.removeCount with
  | none => none
  | some i =>
    match table.queue[i]? with
    | none => none
    | some field => (f field).map fun field => { table with queue := table.queue.set i field }

/-- `track_field`; `none` is a panic. -/
def trackField (table : DynamicTable) (index : ℕ) : Option DynamicTable :=
  table.modifyField index fun field => some { field with tracked := field.tracked + 1 }

/-- `untracked_field`; `none` is a panic. -/
def untrackedField (table : DynamicTable) (index : ℕ) : Option DynamicTable :=
  table.modifyField index fun field =>
    if field.tracked > 0 then some { field with tracked := field.tracked - 1 } else none

/-- `increase_known_receive_count`; `none` is the underflow or the failed `assert!`. -/
def increaseKnownReceiveCount (table : DynamicTable) (increment : ℕ) : Option DynamicTable :=
  match checkedSub increment 1 with
  | none => none
  | some n =>
    if table.knownReceivedCount + n < table.insertCount then
      some { table with knownReceivedCount := table.knownReceivedCount + n }
    else none

def maxEntries (table : DynamicTable) : ℕ := table.capacity / 32

/-- `update`, with the index of the new entry. -/
def update (table : DynamicTable) (name : NameField) (value : Bytes) : DynamicTable × ℕ :=
  let field : DynamicField := { index := table.insertCount, name, value, tracked := 0 }
  ({ table with
      queue := table.queue ++ [field]
      insertCount := table.insertCount + 1
      usedCap := table.usedCap + field.size }, table.insertCount)

/-- `fit_size`; the subtraction from `used_cap` is checked. -/
def fitSize (capacity : ℕ) : List DynamicField → ℕ → ℕ → Option (List DynamicField × ℕ × ℕ)
  | [], usedCap, removeCount => some ([], usedCap, removeCount)
  | field :: queue, usedCap, removeCount =>
    if usedCap > capacity then
      match checkedSub usedCap field.size with
      | none => none
      | some usedCap => fitSize capacity queue usedCap (removeCount + 1)
    else some (field :: queue, usedCap, removeCount)

/-- `update_size`; `none` is an underflow. -/
def updateSize (table : DynamicTable) (maxSize : ℕ) : Option DynamicTable :=
  (fitSize maxSize table.queue table.usedCap table.removeCount).map
    fun (queue, usedCap, removeCount) =>
      { table with queue, usedCap, removeCount, capacity := maxSize }

/-- `field`; the outer `none` is the underflow of an index that was removed. -/
def field (table : DynamicTable) (index : ℕ) : Option (Option (NameField × Bytes)) :=
  (checkedSub index table.removeCount).map fun i =>
    (table.queue[i]?).map fun field => (field.name, field.value)

/-- `field_name`; the outer `none` is the underflow of an index that was removed. -/
def fieldName (table : DynamicTable) (index : ℕ) : Option (Option NameField) :=
  (table.field index).map fun found => found.map Prod.fst

end DynamicTable

inductive TableIndex where
  | field (index : ℕ)
  | fieldName (index : ℕ)
  | none
deriving DecidableEq

/-- The loop of `DynamicTable::index`: the last entry with the name, among those that may
be referred to. -/
def DynamicTable.indexLoop (known : ℕ) (allowBlock : Bool) (name : NameField) (value : Bytes) :
    List DynamicField → TableIndex → TableIndex
  | [], index => index
  | field :: queue, index =>
    if field.index > known && !allowBlock then index
    else
      indexLoop known allowBlock name value queue
        (if name = field.name then
          if value = field.value then .field field.index else .fieldName field.index
        else index)

def DynamicTable.index (table : DynamicTable) (name : NameField) (value : Bytes)
    (allowBlock : Bool) : TableIndex :=
  indexLoop table.knownReceivedCount allowBlock name value table.queue .none

/-! ## The static table -/

/-- The entries of the static table, with the values that `StaticTable::field` knows. -/
def staticTable : List (NameField × Option Bytes) := [
  (.authority, none),
  (.path, some (str "/")),
  (.other (str "age"), some (str "0")),
  (.other (str "content-disposition"), none),
  (.other (str "content-length"), some (str "0")),
  (.other (str "cookie"), none),
  (.other (str "date"), none),
  (.other (str "etag"), none),
  (.other (str "if-modified-since"), none),
  (.other (str "if-none-match"), none),
  (.other (str "last-modified"), none),
  (.other (str "link"), none),
  (.other (str "location"), none),
  (.other (str "referer"), none),
  (.other (str "set-cookie"), none),
  (.method, some (str "CONNECT")),
  (.method, some (str "DELETE")),
  (.method, some (str "GET")),
  (.method, some (str "HEAD")),
  (.method, some (str "OPTIONS")),
  (.method, some (str "POST")),
  (.method, some (str "PUT")),
  (.scheme, some (str "http")),
  (.scheme, some (str "https")),
  (.status, some (str "103")),
  (.status, some (str "200")),
  (.status, some (str "304")),
  (.status, some (str "404")),
  (.status, some (str "503")),
  (.other (str "accept"), some (str "*/*")),
  (.other (str "accept"), some (str "application/dns-message")),
  (.other (str "accept-encoding"), some (str "gzip, deflate, br")),
  (.other (str "accept-ranges"), some (str "bytes")),
  (.other (str "access-control-allow-headers"), some (str "cache-control")),
  (.other (str "access-control-allow-headers"), some (str "content-type")),
  (.other (str "access-control-allow-origin"), some (str "*")),
  (.other (str "cache-control"), some (str "max-age=0")),
  (.other (str "cache-control"), some (str "max-age=2592000")),
  (.other (str "cache-control"), some (str "max-age=604800")),
  (.other (str "cache-control"), some (str "no-cache")),
  (.other (str "cache-control"), some (str "no-store")),
  (.other (str "cache-control"), some (str "public, max-age=31536000")),
  (.other (str "content-encoding"), some (str "br")),
  (.other (str "content-encoding"), some (str "gzip")),
  (.other (str "content-type"), some (str "application/dns-message")),
  (.other (str "content-type"), some (str "application/javascript")),
  (.other (str "content-type"), some (str "application/json")),
  (.other (str "content-type"), some (str "application/x-www-form-urlencoded")),
  (.other (str "content-type"), some (str "image/gif")),
  (.other (str "content-type"), some (str "image/jpeg")),
  (.other (str "content-type"), some (str "image/png")),
  (.other (str "content-type"), some (str "text/css")),
  (.other (str "content-type"), some (str "text/html; charset=utf-8")),
  (.other (str "content-type"), some (str "text/plain")),
  (.other (str "content-type"), some (str "text/plain;charset=utf-8")),
  (.other (str "range"), some (str "bytes=0-")),
  (.other (str "strict-transport-security"), some (str "max-age=31536000")),
  (.other (str "strict-transport-security"), some (str "max-age=31536000; includesubdomains")),
  (.other (str "strict-transport-security"), some (str "max-age=31536000; includesubdomains; preload")),
  (.other (str "vary"), some (str "accept-encoding")),
  (.other (str "vary"), some (str "origin")),
  (.other (str "x-content-type-options"), some (str "nosniff")),
  (.other (str "x-xss-protection"), some (str "1; mode=block")),
  (.status, some (str "100")),
  (.status, some (str "204")),
  (.status, some (str "206")),
  (.status, some (str "302")),
  (.status, some (str "400")),
  (.status, some (str "403")),
  (.status, some (str "421")),
  (.status, some (str "425")),
  (.status, some (str "500")),
  (.other (str "accept-language"), none),
  (.other (str "access-control-allow-credentials"), some (str "FALSE")),
  (.other (str "access-control-allow-credentials"), some (str "TRUE")),
  (.other (str "access-control-allow-headers"), some (str "*")),
  (.other (str "access-control-allow-methods"), some (str "get")),
  (.other (str "access-control-allow-methods"), some (str "get, post, options")),
  (.other (str "access-control-allow-methods"), some (str "options")),
  (.other (str "access-control-expose-headers"), some (str "content-length")),
  (.other (str "access-control-request-headers"), some (str "content-type")),
  (.other (str "access-control-request-method"), some (str "get")),
  (.other (str "access-control-request-method"), some (str "post")),
  (.other (str "alt-svc"), some (str "clear")),
  (.other (str "authorization"), none),
  (.other (str "content-security-policy"), some (str "script-src 'none'; object-src 'none'; base-uri 'none'")),
  (.other (str "early-data"), some (str "1")),
  (.other (str "expect-ct"), none),
  (.other (str "forwarded"), none),
  (.other (str "if-range"), none),
  (.other (str "origin"), none),
  (.other (str "purpose"), some (str "prefetch")),
  (.other (str "server"), none),
  (.other (str "timing-allow-origin"), some (str "*")),
  (.other (str "upgrade-insecure-requests"), some (str "1")),
  (.other (str "user-agent"), none),
  (.other (str "x-forwarded-for"), none),
  (.other (str "x-frame-options"), some (str "deny")),
  (.other (str "x-frame-options"), some (str "sameorigin"))]

/-- `StaticTable::field_name`. -/
def staticFieldName (index : ℕ) : Option NameField := staticTable[index]?.map Prod.fst

/-- `StaticTable::field`. -/
def staticField (index : ℕ) : Option (NameField × Bytes) :=
  staticTable[index]?.bind fun (name, value) => value.map fun value => (name, value)

/-- `StaticTable::index`: the entry with the name and the value, or else the first one with
the name, which for `access-control-allow-headers` is the one at 75. -/
def staticIndex (name : NameField) (value : Bytes) : TableIndex :=
  match staticTable.findIdx? fun entry => entry = (name, some value) with
  | some index => .field index
  | none =>
    if name = .other (str "access-control-allow-headers") then .fieldName 75
    else
      match staticTable.findIdx? fun entry => entry.1 = name with
      | some index => .fieldName index
      | none => .none

end YlongHttp.Qpack
