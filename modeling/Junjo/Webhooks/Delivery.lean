import Junjo.Webhooks.IpGuard

/-!
# Registering a webhook URL and connecting to it

A URL is checked when an endpoint is created or its URL is changed (`assertSafeWebhookUrl`), by the
text of its host. At delivery time the HTTP client connects to a host that is an address directly.
Any other host it looks up through `safeWebhookLookup`, which refuses every answer with an address
that is not public unicast.
-/

namespace Junjo.Webhooks

/-- What the guard reads of a parsed URL. -/
structure Url where
  protocol : Text
  hostname : Text
deriving DecidableEq

/-- The hosts as the URL parser writes them. -/
inductive HostForm : Text → Prop where
  | ipv4 (q : Ipv4) : HostForm q.text
  | ipv6 (p : Ipv6) : HostForm (91 :: p.text ++ [93])
  | name (hostname : Text) : isIP hostname = 0 → hostname.head? ≠ some 91 → HostForm hostname

/-- The URL parser writes the hosts of http and https URLs in one way. -/
def Normalizes (parseUrl : Text → Option Url) : Prop :=
  ∀ rawUrl parsed, parseUrl rawUrl = some parsed →
    parsed.protocol = text "http:" ∨ parsed.protocol = text "https:" → HostForm parsed.hostname

/-! ### The guard at registration -/

def stripIpv6Brackets (host : Text) : Text :=
  if host.head? = some 91 && host.getLast? = some 93 then (host.drop 1).dropLast else host

def looksLikeIpv4 (host : Text) : Bool :=
  (host.splitOn dot).length = 4 &&
    (host.splitOn dot).all fun p =>
      p ≠ [] && p.length ≤ 3 && p.all isDigit && readDigits 10 p ≤ 255

def collapseIpv4MappedIpv6 (host : Text) : Text :=
  let lower := asciiLower host
  if (text "::ffff:").isPrefixOf lower && looksLikeIpv4 (lower.drop 7) then lower.drop 7 else lower

def isPrivateIpv4 (host : Text) : Bool :=
  match (host.splitOn dot).map (readDigits 10) with
  | a :: b :: _ =>
    if a = 0 then true
    else if a = 10 then true
    else if a = 127 then true
    else if a = 169 ∧ b = 254 then true
    else if a = 172 ∧ 16 ≤ b ∧ b ≤ 31 then true
    else if a = 192 ∧ b = 168 then true
    else if a = 100 ∧ 64 ≤ b ∧ b ≤ 127 then true
    else false
  | _ => false

/-- `/^f[cd][0-9a-f]{0,2}:/` -/
def isUniqueLocal : Text → Bool
  | f :: cd :: rest =>
    f = 102 && (cd = 99 || cd = 100) &&
      (List.range 3).any fun n => (rest.take n).all isHexUnit && rest[n]? = some colon
  | _ => false

def isPrivateIpv6 (host : Text) : Bool :=
  let lower := asciiLower host
  if lower = text "::" || lower = text "::1" then true
  else if (text "fe80:").isPrefixOf lower || (text "fe80::").isPrefixOf lower then true
  else if isUniqueLocal lower then true
  else false

def isPrivateHost (hostname : Text) : Bool :=
  if hostname = [] then true
  else if hostname = text "localhost" then true
  else if (text ".localhost").isSuffixOf hostname then true
  else
    let collapsed := collapseIpv4MappedIpv6 hostname
    if looksLikeIpv4 collapsed then isPrivateIpv4 collapsed
    else if colon ∈ collapsed then isPrivateIpv6 collapsed
    else false

/-- The guard's errors are bad requests with these messages. -/
def invalidUrl : Text := text "url must be a valid http(s) URL"

def privateHost (hostname : Text) : Text :=
  text "url host " ++ hostname ++ text (" resolves to a loopback / link-local / private range; set "
    ++ "WEBHOOK_ALLOW_PRIVATE_HOSTS=true on the server to permit (development only)")

def assertSafeWebhookUrl (parseUrl : Text → Option Url) (rawUrl : Text)
    (allowPrivateHosts : Bool) : Except Text Unit :=
  match parseUrl rawUrl with
  | none => .error invalidUrl
  | some parsed =>
    if parsed.protocol ≠ text "http:" ∧ parsed.protocol ≠ text "https:" then .error invalidUrl
    else if allowPrivateHosts then .ok ()
    else
      let hostname := stripIpv6Brackets (asciiLower parsed.hostname)
      if isPrivateHost hostname then .error (privateHost hostname) else .ok ()

/-! ### The lookup at delivery -/

structure LookupOptions where
  family : Option ℕ := none
  hints : Option ℕ := none
  all : Option Bool := none
  verbatim : Option Bool := none

structure LookupAddress where
  address : Text
  family : ℕ

section Delivery

variable (dnsLookup : Text → LookupOptions → Except Text (List LookupAddress))

def safeWebhookLookup (hostname : Text) (opts : LookupOptions) :
    Except Text (List LookupAddress) :=
  match dnsLookup hostname ⟨some (opts.family.getD 0), opts.hints, some true,
      some (opts.verbatim.getD true)⟩ with
  | .error err => .error err
  | .ok addresses =>
    if addresses.all fun entry => isPublicUnicastAddress entry.address then
      if opts.all = some true then .ok addresses
      else match addresses.head? with
        | none => .error (text "webhook target host " ++ hostname ++ text " did not resolve")
        | some first => .ok [first]
    else
      .error (text "webhook target host " ++ hostname ++ text " resolved to a non-public address")

/-- The addresses that a delivery to a host may connect to. -/
def connectTargets (opts : LookupOptions) (hostname : Text) : List Text :=
  let host := stripIpv6Brackets hostname
  if isIP host ≠ 0 then [host]
  else match safeWebhookLookup dnsLookup host opts with
    | .error _ => []
    | .ok addresses => addresses.map LookupAddress.address

end Delivery

end Junjo.Webhooks
