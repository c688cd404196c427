import YlongHttp.Model.Numeral

/-! # URIs (`request/uri/mod.rs`) -/

namespace YlongHttp

inductive InvalidUri where
  | invalidScheme | invalidAuthority | invalidPath | invalidByte | invalidFormat | invalidPort
  | uriMissScheme | uriMissPath | uriMissQuery | uriMissAuthority | uriMissHost
  | uriContainUserinfo | uriTooLong
deriving DecidableEq

inductive Scheme where
  | http | https
deriving DecidableEq

def Scheme.defaultPort : Scheme → ℕ
  | .http => 80
  | .https => 443

structure Authority where
  host : Bytes
  port : Option Bytes
deriving DecidableEq

structure Uri where
  scheme : Option Scheme
  authority : Option Authority
  path : Option Bytes
  query : Option Bytes
deriving DecidableEq

def asU16 (port : Bytes) : Option ℕ := parseUnsigned (2 ^ 16) port

/-- Whether an octet stands in the table, of which only the first half is not all `false`. -/
def inTable (table : List ℕ) (b : UInt8) : Bool := table.getD b.toNat 0 == 1

def uriValueBytes : List ℕ := [
  0,0,0,0,0,0,0,0,0,0,0,0,0,0,0,0,
  0,0,0,0,0,0,0,0,0,0,0,0,0,0,0,0,
  0,1,0,1,1,1,1,1,1,1,1,1,1,1,1,1,
  1,1,1,1,1,1,1,1,1,1,1,1,0,1,0,1,
  1,1,1,1,1,1,1,1,1,1,1,1,1,1,1,1,
  1,1,1,1,1,1,1,1,1,1,1,1,0,1,0,1,
  0,1,1,1,1,1,1,1,1,1,1,1,1,1,1,1,
  1,1,1,1,1,1,1,1,1,1,1,0,0,0,1,0]

def pathAndQueryBytes : List ℕ := [
  0,0,0,0,0,0,0,0,0,0,0,0,0,0,0,0,
  0,0,0,0,0,0,0,0,0,0,0,0,0,0,0,0,
  0,1,0,0,1,1,1,1,1,1,1,1,1,1,1,1,
  1,1,1,1,1,1,1,1,1,1,1,1,0,1,0,0,
  1,1,1,1,1,1,1,1,1,1,1,1,1,1,1,1,
  1,1,1,1,1,1,1,1,1,1,1,1,1,1,1,1,
  0,1,1,1,1,1,1,1,1,1,1,1,1,1,1,1,
  1,1,1,1,1,1,1,1,1,1,1,0,1,0,1,0]

variable (bytes : Bytes)

def schemeToken : Except InvalidUri (Option Scheme × Bytes) :=
  match bytes.findIdx? (· == ':'.toUInt8) with
  | some pos =>
    if pos ≠ 0 ∧ 2 < (bytes.drop pos).length ∧ (bytes.drop (pos + 1)).take 2 = str "//" then
      if eqIgnoreAsciiCase (bytes.take pos) (str "http") then
        .ok (some .http, bytes.drop (str "http://").length)
      else if eqIgnoreAsciiCase (bytes.take pos) (str "https") then
        .ok (some .https, bytes.drop (str "https://").length)
      else .error .invalidScheme
    else if pos = 0 then .error .invalidScheme
    else .ok (none, bytes)
  | none => .ok (none, bytes)

/-- What the loop of `authority_token` counts. -/
structure AuthorityScan where
  colonNum : ℕ
  leftBracket : Bool
  rightBracket : Bool

/-- The loop of `authority_token`, from the octet at `i` on. -/
def authorityScan : ℕ → AuthorityScan → Bytes → Except InvalidUri (ℕ × AuthorityScan)
  | i, scan, [] => .ok (i, scan)
  | i, scan, b :: rest =>
    if b = '/'.toUInt8 ∨ b = '?'.toUInt8 ∨ b = '#'.toUInt8 then .ok (i, scan)
    else if b = '['.toUInt8 then
      if i = 0 then authorityScan (i + 1) { scan with leftBracket := true } rest
      else if scan.leftBracket then .error .invalidAuthority
      else authorityScan (i + 1) scan rest
    else if b = ']'.toUInt8 then
      if scan.leftBracket then
        if scan.rightBracket then .error .invalidAuthority
        -- The colons between the brackets are those of an IPv6 address.
        else authorityScan (i + 1) { scan with rightBracket := true, colonNum := 0 } rest
      else authorityScan (i + 1) scan rest
    else if b = '@'.toUInt8 then .error .uriContainUserinfo
    else if b = ':'.toUInt8 then
      authorityScan (i + 1) { scan with colonNum := scan.colonNum + 1 } rest
    else if inTable uriValueBytes b then authorityScan (i + 1) scan rest
    else .error .invalidByte

def hostPort (auth : Bytes) (colonNum : ℕ) : Except InvalidUri Authority :=
  if colonNum ≠ 0 then
    match rsplitOnce ':'.toUInt8 auth with
    | some (host, port) =>
      if host = [] then .error .uriMissHost
      else if port = [] then .ok { host, port := none }
      else
        match asU16 port with
        | none => .error .invalidPort
        | some _ => .ok { host, port := some port }
    | none => .error .uriMissAuthority
  else .ok { host := auth, port := none }

def authorityParse (stop : ℕ) (scan : AuthorityScan) :
    Except InvalidUri (Option Authority × Bytes) := do
  if stop = 0 then return (none, bytes)
  if scan.leftBracket ^^ scan.rightBracket then throw .invalidAuthority
  if scan.colonNum > 1 then throw .invalidAuthority
  let authority ← hostPort (bytes.take stop) scan.colonNum
  return (some authority, bytes.drop stop)

def authorityToken : Except InvalidUri (Option Authority × Bytes) := do
  let (stop, scan) ← authorityScan 0 { colonNum := 0, leftBracket := false, rightBracket := false }
    bytes
  authorityParse bytes stop scan

/-- The loop of `path_token` and of `query_token`: where one of the stops is, or the end. -/
def tokenScan (stops : List UInt8) (valid : UInt8 → Bool) : ℕ → Bytes → Except InvalidUri ℕ
  | i, [] => .ok i
  | i, b :: rest =>
    if b ∈ stops then .ok i
    else if valid b then tokenScan stops valid (i + 1) rest
    else .error .invalidByte

def pathToken : Except InvalidUri (Option Bytes × Bytes) := do
  let stop ← tokenScan ['?'.toUInt8, '#'.toUInt8] (inTable pathAndQueryBytes) 0 bytes
  return (if stop ≠ 0 then some (bytes.take stop) else none, bytes.drop stop)

def queryToken : Except InvalidUri (Option Bytes) := do
  if bytes = [] then return none
  let stop ← tokenScan ['#'.toUInt8]
    (fun b => b = 0x3F || b = 0x60 || b = 0x7B || b = 0x7D || inTable pathAndQueryBytes b) 0 bytes
  return if stop = 0 then none else some (bytes.take stop)

def Scheme.fromBytes : Except InvalidUri Scheme :=
  if eqIgnoreAsciiCase bytes (str "http") then .ok .http
  else if eqIgnoreAsciiCase bytes (str "https") then .ok .https
  else .error .invalidScheme

def Authority.fromBytes : Except InvalidUri Authority := do
  if bytes = [] then throw .uriMissAuthority
  match ← authorityToken bytes with
  | (some auth, []) => return auth
  | _ => throw .invalidAuthority

def Authority.toStr (self : Authority) : Bytes :=
  match self.port with
  | some port => self.host ++ ':'.toUInt8 :: port
  | none => self.host

def Path.fromBytes : Except InvalidUri Bytes := do
  match ← pathToken bytes with
  | (some path, []) => return path
  | (none, []) => throw .uriMissPath
  | _ => throw .invalidPath

def Query.fromBytes : Except InvalidUri Bytes := do
  match ← queryToken bytes with
  | some query => return query
  | none => throw .uriMissQuery

namespace Uri

variable (self : Uri)

def host : Option Bytes := self.authority.map (·.host)

def port : Option Bytes := self.authority.bind (·.port)

def validityCheck (uri : Uri) : Except InvalidUri Uri :=
  match uri.scheme, uri.authority, uri.path, uri.query with
  | some _, none, _, _ => .error .uriMissAuthority
  | none, some _, some _, _ => .error .uriMissScheme
  | none, some _, _, some _ => .error .uriMissScheme
  | none, none, none, none => .error .invalidFormat
  | _, _, _, _ => .ok uri

/-- The setters of a `UriBuilder`, with the text that they are given. -/
inductive Setter where
  | scheme (text : Bytes)
  | authority (text : Bytes)
  | path (text : Bytes)
  | query (text : Bytes)

def Setter.apply : Setter → Except InvalidUri Uri
  | .scheme text => do return { self with scheme := some (← Scheme.fromBytes text) }
  | .authority text => do return { self with authority := some (← Authority.fromBytes text) }
  | .path text => do return { self with path := some (← Path.fromBytes text) }
  | .query text => do return { self with query := some (← Query.fromBytes text) }

/-- `UriBuilder::build`, after these setters. -/
def build (setters : List Setter) : Except InvalidUri Uri := do
  let uri ← setters.foldlM Setter.apply
    { scheme := none, authority := none, path := none, query := none }
  validityCheck uri

def maxUriLen : ℕ := 65534

/-- The query in what follows the path. -/
def afterPath : Bytes → Except InvalidUri (Option Bytes)
  | [] => .ok none
  | b :: rest =>
    if b = '?'.toUInt8 then queryToken rest
    else if b = '#'.toUInt8 then .ok none
    else .error .uriMissQuery

def fromBytes : Except InvalidUri Uri :=
  if bytes.length > maxUriLen then .error .uriTooLong
  else if bytes = [] then .error .invalidFormat
  else do
    let (scheme, rest) ← schemeToken bytes
    let (authority, rest) ← authorityToken rest
    let (path, rest) ← pathToken rest
    let query ← afterPath rest
    validityCheck { scheme, authority, path, query }

end Uri

end YlongHttp
