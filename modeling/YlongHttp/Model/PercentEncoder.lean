import YlongHttp.Model.Uri

/-! # Percent encoding (`request/uri/percent_encoding.rs`)

A character stands for its octets: those it is compared with have one octet, and every octet of
any other is at least 0x80. -/

namespace YlongHttp.PercentEncoder

def userinfoSet : Bytes := str " \"#<>?`\x7b\x7d/:;=@[]^|\\"
def fragmentSet : Bytes := str " \"<>`"
def pathSet : Bytes := str " \"#<>?`\x7b\x7d"
def querySet : Bytes := str " \"#<>'"

variable (b : UInt8)

/-- Tabs and line breaks are not pushed. -/
def isDropped : Bool := b = '\t'.toUInt8 || b = '\r'.toUInt8 || b = '\n'.toUInt8

def push (b : UInt8) : Bytes := if isDropped b then [] else [b]

def shouldPercentEncoding (set : Bytes) : Bool :=
  b < 0x20 || b = 0x7f || b ≥ 0x80 || set.contains b

def hexAscii : Bytes := str "0123456789ABCDEF"

def percentHex : Bytes :=
  [hexAscii.getD (b.toNat / 16) 0, hexAscii.getD (b.toNat % 16) 0]

def percentEncodingPush (set : Bytes) (b : UInt8) : Bytes :=
  if isDropped b then []
  else if shouldPercentEncoding b set then '%'.toUInt8 :: percentHex b
  else [b]

def isSchemeByte : Bool :=
  ('a'.toUInt8 ≤ b && b ≤ 'z'.toUInt8) || ('A'.toUInt8 ≤ b && b ≤ 'Z'.toUInt8) ||
    isAsciiDigit b || b = '+'.toUInt8 || b = '-'.toUInt8 || b = '.'.toUInt8

/-- What is written, and what is left to read; so for the parsers below. -/
def parseScheme : Bytes → Except InvalidUri (Bytes × Bytes)
  | [] => .error .invalidScheme
  | b :: rest =>
    if isSchemeByte b then do
      let (scheme, rest) ← parseScheme rest
      return (toAsciiLowercase b :: scheme, rest)
    else if b = ':'.toUInt8 then .ok ([b], rest)
    else .error .invalidScheme

variable (origin : Bytes)

def parseDoubleSlash : Except InvalidUri (Bytes × Bytes) :=
  let slashes := origin.takeWhile (· = '/'.toUInt8)
  if slashes.length = 2 then .ok (slashes, origin.drop 2) else .error .invalidScheme

/-- The octets of the authority, with the user information. -/
def isAuthorityByte : Bool := b ≠ '/'.toUInt8 && b ≠ '?'.toUInt8 && b ≠ '#'.toUInt8

/-- The user information, of which the first colon is kept. -/
def encodeUserinfo (info : Bytes) : Bytes :=
  let user := info.takeWhile (· ≠ ':'.toUInt8)
  user.flatMap (percentEncodingPush userinfoSet) ++
    match info.drop user.length with
    | [] => []
    | colon :: password => colon :: password.flatMap (percentEncodingPush userinfoSet)

def parseUserinfo : Except InvalidUri (Bytes × Bytes) :=
  match rsplitOnce '@'.toUInt8 (origin.takeWhile isAuthorityByte) with
  | none => .ok ([], origin)
  | some ([], _) =>
    let remaining := origin.drop 1
    if remaining.head?.any (!isAuthorityByte ·) then .error .uriMissHost else .ok ([], remaining)
  | some (info, _) => .ok (encodeUserinfo info ++ ['@'.toUInt8], origin.drop (info.length + 1))

def parseAuthority : Bytes × Bytes :=
  ((origin.takeWhile isAuthorityByte).flatMap push, origin.dropWhile isAuthorityByte)

def isPathByte : Bool := b ≠ '#'.toUInt8 && b ≠ '?'.toUInt8

def parsePath : Bytes × Bytes :=
  ((origin.takeWhile isPathByte).flatMap fun b =>
    if b = '/'.toUInt8 then push b else percentEncodingPush pathSet b,
    origin.dropWhile isPathByte)

def parseFragment : Bytes := origin.flatMap (percentEncodingPush fragmentSet)

def parseQuery : Bytes × Bytes :=
  let query := origin.takeWhile (· ≠ '#'.toUInt8)
  match origin.drop query.length with
  | [] => (query.flatMap (percentEncodingPush querySet), [])
  | hash :: rest => (query.flatMap (percentEncodingPush querySet) ++ push hash, rest)

def parseQueryAndFragment : Except InvalidUri Bytes :=
  match origin.dropWhile isDropped with
  | [] => .ok (parseFragment origin)
  | b :: rest =>
    if b = '?'.toUInt8 then
      let (query, rest) := parseQuery rest
      .ok (b :: query ++ parseFragment rest)
    else if b = '#'.toUInt8 then .ok (b :: parseFragment rest)
    else .error .invalidFormat

def parse : Except InvalidUri Bytes := do
  let (scheme, remaining) ← parseScheme origin
  let (slashes, remaining) ← parseDoubleSlash remaining
  let (userinfo, remaining) ← parseUserinfo remaining
  let (authority, remaining) := parseAuthority remaining
  let (path, remaining) := parsePath remaining
  let rest ← parseQueryAndFragment remaining
  return scheme ++ slashes ++ userinfo ++ authority ++ path ++ rest

end YlongHttp.PercentEncoder
