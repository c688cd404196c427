import Mathlib.Data.List.AList
import YlongHttp.Model.Redirect

/-! # Public-key pins (`pinning.rs`, `async_impl/connector/mod.rs`,
`async_impl/quic/mod.rs`, `ssl/stream.rs`, `base64.rs`) -/

namespace YlongHttp.Client

inductive PinsVerifyStrategy where
  | rootCertificate | leafCertificate

structure PinsVerifyInfo where
  strategy : PinsVerifyStrategy
  digest : Bytes

abbrev PubKeyPins := AList fun _ : Bytes => PinsVerifyInfo

/-- The key of a pin: host and port as the URI has them. -/
def parseUri (uri : Bytes) : Except HttpClientError Bytes :=
  match Uri.fromBytes uri with
  | .error e => .error ⟨.build, .uri e⟩
  | .ok parsed =>
    match parsed.host, parsed.port with
    | none, _ => .error ⟨.build, .msg "uri has no host"⟩
    | some host, some port => .ok (host ++ ':'.toUInt8 :: port)
    | some host, none => .ok (host ++ str ":443")

/-- A call of `add` or of `add_with_root_strategy`. -/
structure PinCall where
  uri : Bytes
  info : PinsVerifyInfo

/-- `PubKeyPinsBuilder::add` and `add_with_root_strategy`. -/
def addPin (keys : Except HttpClientError PubKeyPins) (call : PinCall) :
    Except HttpClientError PubKeyPins := do
  let keys ← keys
  let auth ← parseUri call.uri
  return keys.insert auth call.info

/-- `PubKeyPinsBuilder::build` after the calls. -/
def buildPins (calls : List PinCall) : Except HttpClientError PubKeyPins :=
  calls.foldl addPin (.ok ∅)

/-- The host and the port of an `AltService`. `Port::from_str` has checked the port. -/
structure AltService where
  host : Option Bytes
  port : Bytes
  valid : (asU16 port).isSome

/-- How the connection for an `https` request is made. -/
inductive ConnPath where
  | direct
  /-- Through the tunnel of a proxy. -/
  | proxied
  /-- Over QUIC, to the server of the URI or to an alternative. -/
  | quic (altSvc : Option AltService)

/-- The URI that the connector is called with. The alternative is that of `conn_alt_svc`. -/
def ConnPath.url (self : ConnPath) (uri : Uri) : Option Uri :=
  match self with
  | .quic (some altSvc) =>
    match Authority.fromBytes (altSvc.host.getD (uri.host.getD []) ++ ':'.toUInt8 :: altSvc.port) with
    | .error _ => none
    | .ok authority => some { uri with scheme := some .https, authority := some authority }
  | _ => some uri

/-- The domain that `pinning_host_match` is called with. -/
def ConnPath.domain (self : ConnPath) (uri : Uri) : Option Bytes :=
  (self.url uri).bind fun url => url.authority.map (·.toStr)

def getPin (pins : PubKeyPins) (domain : Bytes) : Option PinsVerifyInfo := pins.lookup domain

/-! ## The comparison with a digest -/

def base64Table : Bytes := str "ABCDEFGHIJKLMNOPQRSTUVWXYZabcdefghijklmnopqrstuvwxyz0123456789+/"

/-- The letter of an index below 64. -/
def base64Letter (index : UInt8) : UInt8 := base64Table.getD index.toNat 0

/-- `base64::encode`. -/
def base64Encode : Bytes → Bytes
  | [] => []
  | [a] =>
    [base64Letter ((a >>> 2) &&& 0x3f), base64Letter ((a &&& 0x3) <<< 4), '='.toUInt8, '='.toUInt8]
  | [a, b] =>
    [base64Letter ((a >>> 2) &&& 0x3f), base64Letter (((a &&& 0x3) <<< 4) ||| ((b >>> 4) &&& 0xf)),
      base64Letter ((b &&& 0xf) <<< 2), '='.toUInt8]
  | a :: b :: c :: input =>
    base64Letter ((a >>> 2) &&& 0x3f) :: base64Letter (((a &&& 0x3) <<< 4) ||| ((b >>> 4) &&& 0xf)) ::
      base64Letter (((b &&& 0xf) <<< 2) ||| ((c >>> 6) &&& 0x3)) :: base64Letter (c &&& 0x3f) ::
      base64Encode input

/-- `windows(pattern.len()).position(|window| window == pattern)`. -/
def windowPosition (pattern : Bytes) : Bytes → Option ℕ
  | [] => none
  | byte :: bytes =>
    if pattern.isPrefixOf (byte :: bytes) then some 0
    else (windowPosition pattern bytes).map (· + 1)

def keyPrefix : Bytes := str "sha256//"

def keySuffix : Bytes := str ";sha256//"

/-- The message of the error of `compare_pinned_digest`, whose reason is `PubKeyPinning`. -/
def pinningFailed : String := "Pinned public key verification failed."

/-- How `compare_pinned_digest` ends. -/
inductive PinComparison where
  | verified
  | failed (msg : String)
  /-- The bounds of a slice are out of order. -/
  | panic
  /-- The loop has not ended. -/
  | running
deriving DecidableEq

/-- The loop of `compare_pinned_digest`, of at most so many turns. -/
def compareLoop (base64Digest : Bytes) : ℕ → Bytes → PinComparison
  | 0, _ => .running
  | fuel + 1, userBytes =>
    if userBytes = [] then .failed pinningFailed
    else
      match windowPosition keyPrefix userBytes with
      | none => .failed pinningFailed
      | some index =>
        let start := index + 8
        let stop := (windowPosition keySuffix userBytes).getD userBytes.length
        if stop < start then .panic
        else if (userBytes.take stop).drop start = base64Digest then .verified
        else if stop ≠ userBytes.length then
          compareLoop base64Digest fuel (userBytes.drop (stop + 1))
        else compareLoop base64Digest fuel (userBytes.drop stop)

def comparePinnedDigest (fuel : ℕ) (digest pinnedKey : Bytes) : PinComparison :=
  compareLoop (base64Encode digest) fuel pinnedKey

end YlongHttp.Client
