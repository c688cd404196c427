import YlongHttp.Model.Mime.Decoder
import YlongHttp.Model.Qpack.Decoder

/-! # Where a request goes (`proxy.rs`, `connector/mod.rs`, `alt_svc.rs`, `config/http.rs`) -/

namespace YlongHttp.Client

/-! ## The tunnel through a proxy -/

inductive CreateTunnelErr where
  | proxyHeadersTooLong | proxyAuthenticationRequired | unsuccessful

inductive TunnelResponse where
  | complete | incomplete

def maxTunnelResponseSize : ℕ := 8192

/-- The loop of `response_boundaries`, from the octet at `idx` on. -/
def boundariesFrom (idx : ℕ) (lineEnd : Option ℕ) : Bytes → Option ℕ × Option ℕ
  | b :: b' :: rest =>
    if b = '\r'.toUInt8 ∧ b' = '\n'.toUInt8 then
      let lineEnd := some (lineEnd.getD idx)
      if rest.take 2 = str "\r\n" then (lineEnd, some (idx + 4))
      else boundariesFrom (idx + 2) lineEnd rest
    else boundariesFrom (idx + 1) lineEnd (b' :: rest)
  | _ => (lineEnd, none)

/-- `response_boundaries`: the end of the status line, and that of the headers. -/
def responseBoundaries (buf : Bytes) : Option ℕ × Option ℕ := boundariesFrom 0 none buf

def statusCode (status : Bytes) : Except CreateTunnelErr Bytes :=
  if status.length < 12 ∨ ¬(str "HTTP/1.1 " <+: status ∨ str "HTTP/1.0 " <+: status) then
    .error .unsuccessful
  else if 12 < status.length ∧ status[12]? ≠ some ' '.toUInt8 then .error .unsuccessful
  else
    let code := (status.drop 9).take 3
    if code.all isAsciiDigit then .ok code else .error .unsuccessful

def parseTunnelResponse (buf : Bytes) : Except CreateTunnelErr TunnelResponse :=
  let (lineEnd, headerEnd) := responseBoundaries buf
  match lineEnd with
  | none =>
    if maxTunnelResponseSize ≤ buf.length then .error .proxyHeadersTooLong else .ok .incomplete
  | some lineEnd =>
    match statusCode (buf.take lineEnd) with
    | .error e => .error e
    | .ok code =>
      if code.head? = some '2'.toUInt8 then
        if headerEnd.isSome then .ok .complete
        else if maxTunnelResponseSize ≤ buf.length then .error .proxyHeadersTooLong
        else .ok .incomplete
      else if code = str "407" then .error .proxyAuthenticationRequired
      else .error .unsuccessful

/-- The loop of `tunnel`, with what has been read. The reads are those that the proxy's answer
allows; where they end, it has closed the connection. -/
def tunnel (buf : Bytes) : List Bytes → Except CreateTunnelErr Unit
  | [] => .error .unsuccessful
  | part :: parts =>
    let read := part.take (maxTunnelResponseSize - buf.length)
    if read.length = 0 then .error .unsuccessful
    else
      match parseTunnelResponse (buf ++ read) with
      | .ok .complete => .ok ()
      | .error e => .error e
      | .ok .incomplete =>
        if (buf ++ read).length = maxTunnelResponseSize then .error .proxyHeadersTooLong
        else tunnel (buf ++ read) parts

/-! ## Hosts without a proxy -/

section NoProxy

-- `str::parse::<IpAddr>`.
variable {Ip : Type} [DecidableEq Ip] (parseIp : Bytes → Option Ip)

structure NoProxy (Ip : Type) where
  ips : List Ip
  domains : List Bytes
deriving DecidableEq

namespace NoProxy

/-- The loop of `from_str`. `none` is a panic: the `unwrap` of a host that is missing. -/
def addHosts : NoProxy Ip → List Bytes → Option (NoProxy Ip)
  | self, [] => some self
  | self, host :: hosts =>
    match Uri.fromBytes host with
    | .error _ => addHosts self hosts
    | .ok address =>
      match address.host with
      | none => none
      | some name =>
        match parseIp name with
        | some ip => addHosts { self with ips := self.ips ++ [ip] } hosts
        | none => addHosts { self with domains := self.domains ++ [host] } hosts

def entries (noProxy : Bytes) : List Bytes := (noProxy.splitOn ','.toUInt8).map Mime.trimStr

def fromStr (noProxy : Bytes) : Option (Option (NoProxy Ip)) :=
  if noProxy = [] then some none
  else (addHosts parseIp { ips := [], domains := [] } (entries noProxy)).map some

def trimMatches (c : UInt8) (text : Bytes) : Bytes :=
  ((text.dropWhile (· = c)).reverse.dropWhile (· = c)).reverse

/-- Changes `*.example.com` to `.example.com`. -/
def unstarred (blockDomain : Bytes) : Bytes :=
  if blockDomain.head? = some '*'.toUInt8 ∧ 1 < blockDomain.length then
    trimMatches '*'.toUInt8 blockDomain
  else blockDomain

/-- One round of the loop of `contains_domain`. -/
def blocks (domain blockDomain : Bytes) : Bool :=
  let blockDomain := unstarred blockDomain
  if blockDomain = str "*" ∨ domain <:+ blockDomain ∨ blockDomain = domain ∨
      trimMatches '.'.toUInt8 blockDomain = domain then true
  else if blockDomain <:+ domain then
    -- .example.com and www.
    blockDomain.head? = some '.'.toUInt8 ||
      domain[domain.length - blockDomain.length - 1]? = some '.'.toUInt8
  else false

def containsDomain (self : NoProxy Ip) (domain : Bytes) : Bool := self.domains.any (blocks domain)

def contain (self : NoProxy Ip) (proxyHost : Bytes) : Bool :=
  match parseIp proxyHost with
  | some ip => self.ips.any (ip = ·)
  | none => self.containsDomain proxyHost

/-- What `is_intercepted` asks: without the setting, no host is exempt. -/
def exempts (noProxy : Option (NoProxy Ip)) (proxyHost : Bytes) : Bool :=
  (noProxy.map fun noProxy => noProxy.contain parseIp proxyHost).getD false

end NoProxy

end NoProxy

/-! ## Alternative services -/

namespace AltSvc

open Qpack (fromUtf8)

-- `Instant::now`, in seconds, and the bound that the platform sets to an `Instant`.
variable (now limit : ℕ)

inductive HttpVersion where
  | http1 | http2 | http3

def HttpVersion.tryFrom (value : Bytes) : Option HttpVersion :=
  if value = str "h1" then some .http1
  else if value = str "h2" then some .http2
  else if value = str "h3" then some .http3
  else none

structure AltService where
  httpVersion : HttpVersion
  srcHost : Bytes
  host : Option Bytes
  port : Bytes
  lifetime : ℕ

structure PoolKey where
  scheme : Scheme
  authority : Authority
deriving DecidableEq

abbrev AltServiceMap : Type := PoolKey → Option (List AltService)

def defaultMaxAge : ℕ := 24 * 60 * 60

/-- `Host::from_str`. -/
def hostFromStr (host : Bytes) : Option Bytes := if host = [] then none else some host

/-- `Port::from_str`. -/
def portFromStr (port : Bytes) : Option Bytes := (asU16 port).map fun _ => port

def checkedAdd (seconds : ℕ) : Option ℕ :=
  if now + seconds < limit then some (now + seconds) else none

/-- What `parse_alt_svc` makes of the octets between the quotation marks. -/
def readHostPort (hostPort : Bytes) : Option (Option Bytes × Bytes) :=
  match hostPort.findIdx? (· == ':'.toUInt8) with
  | none => none
  | some index =>
    if index = 0 then do
      let port ← portFromStr (← fromUtf8 (hostPort.drop 1))
      return (none, port)
    else do
      let host ← hostFromStr (← fromUtf8 (hostPort.take index))
      let port ← portFromStr (← fromUtf8 (hostPort.drop (index + 1)))
      return (some host, port)

/-- The loop over the parameters. -/
def maxAge : List Bytes → Option ℕ
  | [] => some defaultMaxAge
  | para :: paras =>
    match fromUtf8 para with
    | none => none
    | some para =>
      -- parameter: token "=" ( token / quoted-string )
      match (Mime.trimStr para).splitOn '='.toUInt8 with
      | [] => none
      | name :: words =>
        if name = str "ma" then
          words.head?.bind fun para => (fromUtf8 para).bind (parseUnsigned (2 ^ 64))
        else maxAge paras

/-- `none` is a panic. -/
def parseAltSvc (srcHost values : Bytes) : Option (Option AltService) :=
  match values.splitOn ';'.toUInt8 with
  | [] => some none
  | alternative :: parameters =>
    match alternative.splitOn '='.toUInt8 with
    | protocol :: hostPort :: _ =>
      match HttpVersion.tryFrom protocol with
      | none => some none
      | some httpVersion =>
        if hostPort.length < 2 then none
        else some do
          let (host, port) ← readHostPort (hostPort.drop 1).dropLast
          let lifetime ← checkedAdd now limit (← maxAge parameters)
          return { httpVersion, srcHost, host, port, lifetime }
    | _ => some none

/-- The loop over the alternatives of one value. -/
def parseAltSvcs (srcHost value : Bytes) : Option (List AltService) :=
  ((value.splitOn ','.toUInt8).mapM (parseAltSvc now limit srcHost)).map (·.filterMap id)

/-- The loop over the values. The inner `none` is a value that clears. -/
def newAltSvcs (srcHost : Bytes) (services : List AltService) :
    List Bytes → Option (Option (List AltService))
  | [] => some (some services)
  | value :: values =>
    if value = str "clear" then some none
    else
      (parseAltSvcs now limit srcHost value).bind fun more =>
        newAltSvcs srcHost (services ++ more) values

/-- `none` is a panic. -/
def AltServiceMap.setAltSvcs (self : AltServiceMap) (uri : Uri) (headers : Headers) :
    Option AltServiceMap :=
  match uri.scheme, uri.authority, uri.host with
  | some scheme, some authority, some host =>
    match headers.get (str "Alt-Svc") with
    | none => some self
    | some values =>
      (newAltSvcs now limit host [] values.inner).map (Function.update self ⟨scheme, authority⟩)
  | _, _, _ => some self

end AltSvc

end YlongHttp.Client
