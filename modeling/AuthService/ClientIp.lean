import AuthService.Entities

/-!
# The address of a client

`resolve_client_ip` (libraries/client_ip.py). A request comes from a peer. When the peer is a trusted proxy, the headers
`X-Forwarded-For` are read from the right, over the proxies that are trusted.
-/

namespace AuthService

open Urllib

/-- What the functions take from `ipaddress` and from Python's strings: the addresses and networks, the texts that
`ip_address` and `ip_network` accept, the IPv4 address that an address maps, `str` of an address, membership in a network. -/
structure IpAddresses where
  Address : Type
  Network : Type
  ipAddress : Text → Option Address
  ipNetwork : Text → Option Network
  ipv4Mapped : Address → Option Address
  str : Address → Text
  contains : Network → Address → Bool
  strip : Text → Text
  strip_nil : strip [] = []
  isDigit : Char → Bool

/-- The part of a request that is read: the host of the peer, and the values of the headers. -/
structure ForwardedRequest where
  clientHost : Option Text
  forwardedFor : List Text
  deriving DecidableEq, Repr

variable (L : IpAddresses)

/-- `parse_trusted_proxy_networks`. `none` when a value is no network. -/
def parseTrustedProxyNetworks (trustedProxyIps : Text) : Option (List L.Network) :=
  (((trustedProxyIps.splitOn ',').map L.strip).filter (· ≠ [])).mapM L.ipNetwork

/-- `_normalize_ip_address`. -/
def normalizeIpAddress (candidate : L.Address) : L.Address := (L.ipv4Mapped candidate).getD candidate

/-- `_is_trusted`. -/
def isTrusted (candidate : L.Address) (trustedNetworks : List L.Network) : Bool :=
  trustedNetworks.any fun network => L.contains network candidate

/-- `_parse_direct_client_ip`. -/
def parseDirectClientIp (request : ForwardedRequest) : Option L.Address :=
  (request.clientHost.bind L.ipAddress).map (normalizeIpAddress L)

/-- `_parse_forwarded_for_ip`. `none` for `ValueError`. -/
def parseForwardedForIp (value : Text) : Option L.Address :=
  match L.ipAddress value with
  | some candidate => some (normalizeIpAddress L candidate)
  | none =>
    if value.head? = some '[' ∧ ']' ∈ value then (L.ipAddress (partition ']' value.tail).1).map (normalizeIpAddress L)
    else if value.count ':' = 1 then
      let (host, port) := partition ':' value
      if port ≠ [] ∧ port.all L.isDigit then (L.ipAddress host).map (normalizeIpAddress L) else none
    else none

/-- The loop of `_resolve_forwarded_for_client_ip`, over the tokens from the right. -/
def scanForwardedFor (trustedNetworks : List L.Network) (directIp : L.Address) : List Text → L.Address → L.Address
  | [], leftmostCandidate => leftmostCandidate
  | rawValue :: rest, _ =>
    if L.strip rawValue = [] then directIp
    else match parseForwardedForIp L (L.strip rawValue) with
      | none => directIp
      | some candidate =>
        if isTrusted L candidate trustedNetworks then scanForwardedFor trustedNetworks directIp rest candidate else candidate

/-- `_resolve_forwarded_for_client_ip`. -/
def resolveForwardedForClientIp (forwardedFor : Text) (trustedNetworks : List L.Network) (directIp : L.Address) : L.Address :=
  scanForwardedFor L trustedNetworks directIp (forwardedFor.splitOn ',').reverse directIp

/-- The values of the headers, joined with commas. -/
def joinedForwardedFor (forwardedFor : List Text) : Text := [','].intercalate forwardedFor

/-- `resolve_client_ip`, with the trusted networks. -/
def resolveWithin (request : ForwardedRequest) (trustedNetworks : List L.Network) : Option Text :=
  (parseDirectClientIp L request).map fun directIp =>
    if trustedNetworks = [] ∨ !isTrusted L directIp trustedNetworks then L.str directIp
    else if joinedForwardedFor request.forwardedFor = [] then L.str directIp
    else L.str (resolveForwardedForClientIp L (joinedForwardedFor request.forwardedFor) trustedNetworks directIp)

/-- `resolve_client_ip`. `none` when the trusted networks cannot be read: `ValueError`, unless the peer is no address. -/
def resolveClientIp (request : ForwardedRequest) (trustedProxyIps : Text) : Option (Option Text) :=
  match parseDirectClientIp L request with
  | none => some none
  | some _ => (parseTrustedProxyNetworks L trustedProxyIps).map (resolveWithin L request)

end AuthService
