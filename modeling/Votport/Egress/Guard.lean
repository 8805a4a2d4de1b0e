import Votport.Egress.Addresses
import Votport.Foundation.Runs

/-!
# Where a tenant's requests go

The requests of a named tenant are sent through a client of their own.  A host that is an address
is checked before the request, the addresses of a name when they are resolved.  A client keeps its
connections, and follows no redirect.
-/

namespace Votport.Egress

/-! ### Public addresses -/

/-- `public`, of an address of IPv4. -/
def Ipv4Addr.isPublic (addr : Ipv4Addr) : Bool :=
  let ⟨a, b, c, d⟩ := addr
  !decide (
    a = 0 ∧ b = 0 ∧ c = 0 ∧ d = 0
    ∨ a = 127
    ∨ (a = 10 ∨ a = 172 ∧ 16 ≤ b ∧ b ≤ 31 ∨ a = 192 ∧ b = 168)
    ∨ a = 169 ∧ b = 254
    ∨ (a = 192 ∧ b = 0 ∧ c = 2 ∨ a = 198 ∧ b = 51 ∧ c = 100 ∨ a = 203 ∧ b = 0 ∧ c = 113)
    ∨ a = 0
    ∨ 224 ≤ a
    ∨ a = 100 ∧ b &&& 0xc0 = 64
    ∨ a = 192 ∧ b = 0 ∧ c = 0
    ∨ a = 198 ∧ b &&& 0xfe = 18)

/-- `public`, of an address of IPv6.  One that embeds an address of IPv4 is as public as this. -/
def Ipv6Addr.isPublic (addr : Ipv6Addr) : Bool :=
  match addr.toIpv4 with
  | some embedded => embedded.isPublic
  | none =>
      if addr.segments.take 6 = [0x64, 0xff9b, 0, 0, 0, 0] then
        (Ipv4Addr.ofSegments addr.s6 addr.s7).isPublic
      else if addr.s0 = 0x2002 then (Ipv4Addr.ofSegments addr.s1 addr.s2).isPublic
      else
        !decide (
          addr.s0 &&& 0xe000 ≠ 0x2000
          ∨ addr.s0 = 0x2001 ∧ (addr.s1 = 0 ∨ addr.s1 = 2 ∧ addr.s2 = 0)
          ∨ addr.s0 = 0x3fff ∧ addr.s1 &&& 0xf000 = 0
          ∨ addr.s0 &&& 0xff00 = 0xff00
          ∨ addr.s0 &&& 0xfe00 = 0xfc00
          ∨ addr.s0 &&& 0xffc0 = 0xfe80
          ∨ addr.s0 = 0x2001 ∧ addr.s1 = 0x0db8)

/-- `public`. -/
def IpAddr.isPublic : IpAddr → Bool
  | .v4 addr => addr.isPublic
  | .v6 addr => addr.isPublic

/-- `reachable`. -/
def reachable (ip : IpAddr) (allowed : List IpCidr) : Bool :=
  ip.isPublic || allowed.any (·.contains ip)

/-! ### Texts of addresses -/

/-- What a host is parsed as. -/
inductive Host
  | domain (name : List Char)
  | literal (ip : IpAddr)
deriving DecidableEq

/-- A parsed URL, with the host and how it is written. -/
structure Url where
  scheme : List Char
  username : List Char
  password : Option (List Char)
  host : Option (Host × List Char)
  path : List Char
  query : Option (List Char)
  fragment : Option (List Char)

/-- The scheme is that of a port. -/
def Url.IsHttp (url : Url) : Prop :=
  url.scheme = ['h', 't', 't', 'p'] ∨ url.scheme = ['h', 't', 't', 'p', 's']

instance (url : Url) : Decidable url.IsHttp := inferInstanceAs (Decidable (_ ∨ _))

/-- How URLs and addresses are parsed, and how the origin of a URL is written. -/
structure UrlEnv where
  parse : List Char → Option Url
  asciiOrigin : Url → List Char
  parseIp : List Char → Option IpAddr

/-- The brackets around an address of IPv6 are left out. -/
def withoutBrackets (host : List Char) : List Char :=
  (host.dropWhile (· = '[')).rdropWhile (· = ']')

/-- The host that a request for a text goes to. -/
def UrlEnv.host (env : UrlEnv) (url : List Char) : Option Host :=
  (env.parse url).bind fun url => url.host.map Prod.fst

/-- A host that is an address is written as one, and an origin with a path after it has the host
that the origin was taken from. -/
structure UrlEnv.Lawful (env : UrlEnv) : Prop where
  literal : ∀ {text url ip written}, env.parse text = some url →
    url.host = some (.literal ip, written) → env.parseIp (withoutBrackets written) = some ip
  origin : ∀ {text url} (path : List Char), env.parse text = some url →
    url.IsHttp →
    env.host (env.asciiOrigin url) = url.host.map Prod.fst
      ∧ env.host (env.asciiOrigin url ++ '/' :: path) = url.host.map Prod.fst

/-- `address`. -/
def address (env : UrlEnv) (value : List Char) : Except String (List Char) := do
  Fallible.require
    (¬(2048 < (value.map Char.utf8Size).sum ∨ value.any isControl = true))
    "invalid port address"
  let url ← Fallible.present (env.parse value) "enter the port's HTTP or HTTPS address"
  Fallible.require
    (url.IsHttp
      ∧ url.host ≠ none ∧ url.username = [] ∧ url.password = none ∧ url.query = none
      ∧ url.fragment = none ∧ (url.path = [] ∨ url.path = ['/']))
    "use a port origin such as https://port.example"
  return env.asciiOrigin url

/-! ### Requests -/

/-- `refused_literal`. -/
def refusedLiteral (env : UrlEnv) (url : List Char) (allowed : List IpCidr) : Bool :=
  match (env.parse url).bind fun url =>
      url.host.bind fun host => env.parseIp (withoutBrackets host.2) with
  | some ip => !reachable ip allowed
  | none => false

/-- The resolver of the clients of named tenants, given the answer of the name service. -/
def resolve (allowed : List IpCidr) (answer : List IpAddr) : Except String (List IpAddr) :=
  let addresses := answer.filter (reachable · allowed)
  if addresses = [] then .error "the host resolves only to internal addresses" else .ok addresses

/-- The clients: one of the platform and one of the named tenants. -/
inductive Client
  | http
  | tenantHttp
deriving DecidableEq

/-- `client`. -/
def client (env : UrlEnv) (allowed : List IpCidr) (tenant : List Char) (origin : List Char) :
    Except String Client :=
  if tenant = [] then .ok .http
  else if refusedLiteral env origin allowed then .error "destination address is restricted"
  else .ok .tenantHttp

/-- The addresses that a client may connect to for a host, given the answer of the name service. -/
def Client.addresses (allowed : List IpCidr) (client : Client) (host : Host)
    (answer : List IpAddr) : Except String (List IpAddr) :=
  match host, client with
  | .literal ip, _ => .ok [ip]
  | .domain _, .http => .ok answer
  | .domain _, .tenantHttp => resolve allowed answer

/-- What a redirect is followed to by `Policy::none`. -/
def followed (_location : Option (List Char)) : Option (List Char) := none

/-- The connections that are kept, of each client, and the addresses that requests of a tenant were
sent to or tried at. -/
structure Traffic where
  kept : List (Client × Host × IpAddr)
  tried : List (List Char × IpAddr)

/-- How a request is sent: over a kept connection, or over a new one after the first addresses of
an answer were tried. -/
inductive Connection
  | reused (ip : IpAddr)
  | opened (answer : List IpAddr) (attempts : ℕ)

/-- A request is sent to a host. -/
def send (allowed : List IpCidr) (client : Client) (tenant : List Char) (host : Host)
    (connection : Connection) (traffic : Traffic) : Option Traffic :=
  match connection with
  | .reused ip =>
      if (client, host, ip) ∈ traffic.kept then
        some { traffic with tried := (tenant, ip) :: traffic.tried }
      else none
  | .opened answer attempts =>
      match client.addresses allowed host answer with
      | .error _ => none
      | .ok addresses =>
          some {
            kept := (addresses.take attempts).map (fun ip => (client, host, ip)) ++ traffic.kept
            tried := (addresses.take attempts).map (fun ip => (tenant, ip)) ++ traffic.tried }

/-- A request and those that its answers redirect to, each over some connection. -/
def exchange (env : UrlEnv) (allowed : List IpCidr) (client : Client) (tenant : List Char)
    (url : List Char) :
    List (Connection × Option (List Char)) → Traffic → Option Traffic
  | [], _ => none
  | (connection, location) :: turns, traffic =>
      ((env.host url).bind fun host => send allowed client tenant host connection traffic).bind
        fun traffic =>
          match followed location with
          | none => if turns = [] then some traffic else none
          | some location => exchange env allowed client tenant location turns traffic

/-- What makes a request: a notification to a destination, a command to a port, or the loss of a
kept connection. -/
inductive Event
  | notify (tenant url : List Char) (turns : List (Connection × Option (List Char)))
  | command (tenant value path : List Char) (turns : List (Connection × Option (List Char)))
  | dropped (kept : Client × Host × IpAddr)

/-- What an event does to the traffic. -/
def step (env : UrlEnv) (allowed : List IpCidr) (traffic : Traffic) : Event → Option Traffic
  | .notify tenant url turns =>
      match client env allowed tenant url with
      | .error _ => some traffic
      | .ok client => exchange env allowed client tenant url turns traffic
  | .command tenant value path turns =>
      match address env value with
      | .error _ => some traffic
      | .ok origin =>
          match client env allowed tenant origin with
          | .error _ => some traffic
          | .ok client =>
              exchange env allowed client tenant (origin ++ '/' :: path) turns traffic
  | .dropped connection => some { traffic with kept := traffic.kept.erase connection }

/-! ### Embedded addresses -/

/-- An address of IPv6 embeds one of IPv4: it is mapped, compatible, of the well-known block of
translators, or of a relay. -/
def Ipv6Addr.Embeds (addr : Ipv6Addr) (embedded : Ipv4Addr) : Prop :=
  addr.segments.take 6 = [0, 0, 0, 0, 0, 0xffff] ∧ embedded = .ofSegments addr.s6 addr.s7
  ∨ addr.segments.take 6 = [0, 0, 0, 0, 0, 0] ∧ embedded = .ofSegments addr.s6 addr.s7
  ∨ addr.segments.take 6 = [0x64, 0xff9b, 0, 0, 0, 0] ∧ embedded = .ofSegments addr.s6 addr.s7
  ∨ addr.s0 = 0x2002 ∧ embedded = .ofSegments addr.s1 addr.s2

theorem Ipv6Addr.toIpv4_of_ne {addr : Ipv6Addr} (h : addr.s0 ≠ 0) :
  addr.toIpv4 = none
  := by
  unfold toIpv4
  exact if_neg fun htake => h (List.cons.inj htake.1).1

/-- An embedding address is as public as the embedded one. -/
theorem Ipv6Addr.isPublic_of_embeds
    {addr : Ipv6Addr} {embedded : Ipv4Addr} (h : addr.Embeds embedded) :
  addr.isPublic = embedded.isPublic
  := by
  have hlow : ∀ segment, segment = 0 ∨ segment = 0xffff →
      addr.segments.take 6 = [0, 0, 0, 0, 0, segment] →
      addr.toIpv4 = some (.ofSegments addr.s6 addr.s7) := by
    intro segment hsegment htake
    have hfive : addr.segments.take 5 = [0, 0, 0, 0, 0] := by
      have := congrArg (List.take 5) htake
      rwa [List.take_take] at this
    have hlast : addr.s5 = segment := by
      have := congrArg (List.drop 5) htake
      exact (List.cons.inj this).1
    exact if_pos ⟨hfive, hlast ▸ hsegment⟩
  unfold isPublic
  rcases h with ⟨htake, rfl⟩ | ⟨htake, rfl⟩ | ⟨htake, rfl⟩ | ⟨hrelay, rfl⟩
  · rw [hlow _ (.inr rfl) htake]
  · rw [hlow _ (.inl rfl) htake]
  · have hfirst : addr.s0 = 0x64 := (List.cons.inj htake).1
    rw [toIpv4_of_ne (by rw [hfirst]; decide)]
    exact if_pos htake
  · have htake : addr.segments.take 6 ≠ [0x64, 0xff9b, 0, 0, 0, 0] := by
      intro htake
      have hfirst := hrelay.symm.trans (List.cons.inj htake).1
      exact absurd hfirst (by decide)
    rw [toIpv4_of_ne (by rw [hrelay]; decide)]
    exact (if_neg htake).trans (if_pos hrelay)

/-! ### Runs of requests -/

variable {env : UrlEnv} {allowed : List IpCidr}

/-- A host that is an address is refused exactly when this is not reachable. -/
theorem refusedLiteral_literal
    (henv : env.Lawful) {url : List Char} {ip : IpAddr} (h : env.host url = some (.literal ip)) :
  refusedLiteral env url allowed = !reachable ip allowed
  := by
  obtain ⟨parsed, hparsed, hhost⟩ := Option.bind_eq_some_iff.mp h
  obtain ⟨⟨host, written⟩, hwritten, hhost⟩ := Option.map_eq_some_iff.mp hhost
  cases hhost
  unfold refusedLiteral
  rw [hparsed, Option.bind_some, hwritten, Option.bind_some, henv.literal hparsed hwritten]

theorem mem_resolve {answer addresses : List IpAddr} (h : resolve allowed answer = .ok addresses) :
  addresses = answer.filter (reachable · allowed)
  := by
  unfold resolve at h
  dsimp only at h
  split at h
  · cases h
  · cases h
    rfl

/-- Requests of named tenants and the connections kept for them are where they may be. -/
structure Traffic.Guarded (allowed : List IpCidr) (traffic : Traffic) : Prop where
  kept : ∀ host ip, (Client.tenantHttp, host, ip) ∈ traffic.kept → reachable ip allowed = true
  tried : ∀ tenant ip, (tenant, ip) ∈ traffic.tried → tenant ≠ [] → reachable ip allowed = true

/-- A request of a tenant may be sent to a host through a client. -/
structure Admitted (allowed : List IpCidr) (client : Client) (tenant : List Char) (host : Host) :
    Prop where
  tenant : tenant ≠ [] → client = .tenantHttp
  literal : client = .tenantHttp → ∀ ip, host = .literal ip → reachable ip allowed = true

theorem addresses_reachable
    {tenant : List Char} {host : Host} {answer addresses : List IpAddr}
    (h : Admitted allowed .tenantHttp tenant host)
    (haddresses : Client.tenantHttp.addresses allowed host answer = .ok addresses) :
  ∀ ip ∈ addresses, reachable ip allowed = true
  := by
  intro ip hip
  cases host with
  | literal literal =>
      cases haddresses
      cases List.mem_singleton.mp hip
      exact h.literal rfl ip rfl
  | domain name =>
      rw [mem_resolve haddresses] at hip
      exact (List.mem_filter.mp hip).2

theorem send_guarded
    {client : Client} {tenant : List Char} {host : Host} {connection : Connection}
    {traffic traffic' : Traffic} (hadmitted : Admitted allowed client tenant host)
    (htraffic : traffic.Guarded allowed)
    (h : send allowed client tenant host connection traffic = some traffic') :
  traffic'.Guarded allowed
  := by
  unfold send at h
  cases connection with
  | reused ip =>
      obtain ⟨hkept, h⟩ := Option.ite_none_right_eq_some.mp h
      cases h
      refine ⟨htraffic.kept, fun named other hmem hnamed => ?_⟩
      rcases List.mem_cons.mp hmem with hmem | hmem
      · cases hmem
        cases hadmitted.tenant hnamed
        exact htraffic.kept host _ hkept
      · exact htraffic.tried named other hmem hnamed
  | opened answer attempts =>
      dsimp only at h
      split at h
      case h_1 => cases h
      case h_2 addresses haddresses =>
        cases h
        constructor
        · intro other ip hmem
          rcases List.mem_append.mp hmem with hmem | hmem
          · obtain ⟨ip', hip', hmem⟩ := List.mem_map.mp hmem
            cases hmem
            exact addresses_reachable hadmitted haddresses ip (List.mem_of_mem_take hip')
          · exact htraffic.kept other ip hmem
        · intro named ip hmem hnamed
          rcases List.mem_append.mp hmem with hmem | hmem
          · obtain ⟨ip', hip', hmem⟩ := List.mem_map.mp hmem
            cases hmem
            cases hadmitted.tenant hnamed
            exact addresses_reachable hadmitted haddresses ip (List.mem_of_mem_take hip')
          · exact htraffic.tried named ip hmem hnamed

/-- No answer makes a client send another request. -/
theorem exchange_guarded
    {client : Client} {tenant url : List Char} {turns : List (Connection × Option (List Char))}
    {traffic traffic' : Traffic}
    (hadmitted : ∀ host, env.host url = some host → Admitted allowed client tenant host)
    (htraffic : traffic.Guarded allowed)
    (h : exchange env allowed client tenant url turns traffic = some traffic') :
  traffic'.Guarded allowed
  := by
  cases turns with
  | nil => cases h
  | cons turn turns =>
      obtain ⟨connection, location⟩ := turn
      unfold exchange at h
      obtain ⟨sent, hsent, h⟩ := Option.bind_eq_some_iff.mp h
      obtain ⟨host, hhost, hsent⟩ := Option.bind_eq_some_iff.mp hsent
      obtain ⟨-, h⟩ := Option.ite_none_right_eq_some.mp h
      cases h
      exact send_guarded (hadmitted host hhost) htraffic hsent

/-- The client of a request admits the hosts of the text that was checked. -/
theorem client_admitted
    (henv : env.Lawful) {tenant origin url : List Char} {chosen : Client}
    (hsame : env.host url = env.host origin)
    (h : client env allowed tenant origin = .ok chosen) :
  ∀ host, env.host url = some host → Admitted allowed chosen tenant host
  := by
  intro host hhost
  unfold client at h
  split at h
  case isTrue htenant =>
    cases h
    exact ⟨fun hnamed => absurd htenant hnamed, fun hclient => by cases hclient⟩
  case isFalse htenant =>
    split at h
    case isTrue => cases h
    case isFalse hliteral =>
      cases h
      refine ⟨fun _ => rfl, fun _ ip hip => ?_⟩
      subst hip
      rw [refusedLiteral_literal henv (hsame.symm.trans hhost)] at hliteral
      simpa only [Bool.not_eq_true', Bool.not_eq_false] using hliteral

theorem address_host
    (henv : env.Lawful) {value origin : List Char} (path : List Char)
    (h : address env value = .ok origin) :
  env.host (origin ++ '/' :: path) = env.host origin
  := by
  unfold address at h
  obtain ⟨_, _, h⟩ := Fallible.bind_eq_ok.mp h
  obtain ⟨url, hurl, h⟩ := Fallible.bind_eq_ok.mp h
  obtain ⟨_, hchecked, h⟩ := Fallible.bind_eq_ok.mp h
  rw [Fallible.present_eq_ok] at hurl
  rw [Fallible.require_eq_ok] at hchecked
  cases h
  obtain ⟨horigin, hpath⟩ := henv.origin path hurl hchecked.1
  rw [horigin, hpath]

/-- Each event keeps the requests of named tenants where they may be. -/
theorem step_guarded
    (henv : env.Lawful) {traffic traffic' : Traffic} {event : Event}
    (htraffic : traffic.Guarded allowed) (h : step env allowed traffic event = some traffic') :
  traffic'.Guarded allowed
  := by
  unfold step at h
  cases event with
  | notify tenant url turns =>
      dsimp only at h
      split at h
      case h_1 =>
        cases h
        exact htraffic
      case h_2 chosen hchosen =>
        exact exchange_guarded (client_admitted henv rfl hchosen) htraffic h
  | command tenant value path turns =>
      dsimp only at h
      split at h
      case h_1 =>
        cases h
        exact htraffic
      case h_2 origin horigin =>
        split at h
        case h_1 =>
          cases h
          exact htraffic
        case h_2 chosen hchosen =>
          have hsame := address_host henv path horigin
          exact exchange_guarded (client_admitted henv hsame hchosen) htraffic h
  | dropped connection =>
      cases h
      exact ⟨fun host ip hmem => htraffic.kept host ip (List.mem_of_mem_erase hmem),
        htraffic.tried⟩

/-- Requests of named tenants go to public addresses and to the configured networks, whatever names
resolve to and answers redirect to; a request for an address of these is not refused.  An embedding
address is public only if the embedded one is, and a block contains the members of the network that
its text spells. -/
theorem requests_guarded
    (henv : env.Lawful) {events : List Event} {traffic : Traffic}
    (h : Runs.run (step env allowed) ⟨[], []⟩ events = some traffic) :
  (∀ tenant ip, (tenant, ip) ∈ traffic.tried → tenant ≠ [] →
      ip.isPublic = true ∨ ∃ block ∈ allowed, block.contains ip = true)
    ∧ (∀ tenant url ip, tenant ≠ [] → env.host url = some (.literal ip) →
        (client env allowed tenant url = .ok .tenantHttp ↔ reachable ip allowed = true))
    ∧ (∀ name answer ip, (∃ addresses, ip ∈ addresses
          ∧ Client.tenantHttp.addresses allowed (.domain name) answer = .ok addresses)
        ↔ ip ∈ answer ∧ reachable ip allowed = true)
    ∧ (∀ addr embedded, Ipv6Addr.Embeds addr embedded →
        (IpAddr.v6 addr).isPublic = (IpAddr.v4 embedded).isPublic)
    ∧ ∀ text block, IpCidr.parse env.parseIp text = .ok block →
        ∃ network bits, Spells env.parseIp (trim text) network bits ∧ bits ≤ network.width
          ∧ ∀ ip, block.contains ip = true ↔ network.Member bits ip.unwrapped
  := by
  refine ⟨?_, ?_, ?_, fun _ _ => Ipv6Addr.isPublic_of_embeds, ?_⟩
  · have hempty : Traffic.Guarded allowed ⟨[], []⟩ := by
      constructor
      · intro _ _ hmem
        cases hmem
      · intro _ _ hmem
        cases hmem
    have htraffic : traffic.Guarded allowed :=
      Runs.run_invariant (I := Traffic.Guarded allowed)
        (fun _ _ _ hguarded hstep => step_guarded henv hguarded hstep) hempty h
    intro tenant ip hmem hnamed
    rcases Bool.or_eq_true_iff.mp (htraffic.tried tenant ip hmem hnamed) with hpublic | hallowed
    · exact .inl hpublic
    · exact .inr (List.any_eq_true.mp hallowed)
  · intro tenant url ip hnamed hhost
    unfold client
    rw [if_neg hnamed, refusedLiteral_literal henv hhost]
    cases reachable ip allowed with
    | true => exact iff_of_true rfl rfl
    | false => exact iff_of_false (fun h => by cases h) (fun h => by cases h)
  · intro name answer ip
    change (∃ addresses, ip ∈ addresses ∧ resolve allowed answer = .ok addresses) ↔ _
    constructor
    · rintro ⟨addresses, hip, haddresses⟩
      rw [mem_resolve haddresses] at hip
      exact List.mem_filter.mp hip
    · intro hip
      have hmem : ip ∈ answer.filter (reachable · allowed) := List.mem_filter.mpr hip
      exact ⟨_, hmem, if_neg (List.ne_nil_of_mem hmem)⟩
  · intro text block hblock
    obtain ⟨network, bits, hbits, hspells, rfl⟩ := IpCidr.parse_eq_ok hblock
    exact ⟨network, bits, hspells, hbits, ofNetwork_contains_iff hbits⟩

/-- Two ports: one with a name, and one at an address. -/
def samplePorts : List (List Char × Host × List Char) :=
  [("http://hook.example".toList, .domain "hook.example".toList, "hook.example".toList),
    ("http://127.0.0.1".toList, .literal (.v4 ⟨127, 0, 0, 1⟩), "127.0.0.1".toList)]

/-- URLs of the two ports. -/
def sampleEnv : UrlEnv where
  parse text :=
    (samplePorts.find? fun port => text == port.1 || (port.1 ++ ['/']).isPrefixOf text).map
      fun port => {
        scheme := ['h', 't', 't', 'p']
        username := []
        password := none
        host := some port.2
        path := '/' :: text.drop (port.1.length + 1)
        query := none
        fragment := none }
  asciiOrigin url := "http://".toList ++ (url.host.map Prod.snd).getD []
  parseIp text :=
    if text = "127.0.0.1".toList then some (.v4 ⟨127, 0, 0, 1⟩)
    else if text = "10.0.0.0".toList then some (.v4 ⟨10, 0, 0, 0⟩)
    else none

theorem samplePorts_of_parse {text : List Char} {url : Url} (h : sampleEnv.parse text = some url) :
  ∃ port ∈ samplePorts, url.host = some port.2
  := by
  obtain ⟨port, hport, rfl⟩ := Option.map_eq_some_iff.mp h
  exact ⟨port, List.mem_of_find?_eq_some hport, rfl⟩

theorem sampleEnv_lawful : sampleEnv.Lawful
  := by
  constructor
  · intro text url ip written hparse hhost
    obtain ⟨port, hport, hhost'⟩ := samplePorts_of_parse hparse
    have hsame := Option.some.inj (hhost'.symm.trans hhost)
    rcases List.mem_cons.mp hport with rfl | hport
    · cases hsame
    · cases List.mem_singleton.mp hport
      cases hsame
      decide
  · intro text url path hparse _
    obtain ⟨port, hport, hhost⟩ := samplePorts_of_parse hparse
    unfold sampleEnv
    dsimp only
    rw [hhost]
    rcases List.mem_cons.mp hport with rfl | hport
    · exact ⟨rfl, rfl⟩
    · cases List.mem_singleton.mp hport
      exact ⟨rfl, rfl⟩

/-- A name that is rebound and redirects is reached at its public address only. -/
theorem requests_guarded_rebound :
  ∃ traffic, Runs.run (step sampleEnv [⟨.v4 ⟨10, 0, 0, 0⟩, 8, by decide⟩]) ⟨[], []⟩
      [.notify ['t'] "http://hook.example/in".toList
        [(.opened [.v4 ⟨127, 0, 0, 1⟩, .v4 ⟨8, 8, 8, 8⟩] 1, some "http://127.0.0.1/".toList)],
       .notify ['t'] "http://127.0.0.1/in".toList [(.opened [] 1, none)],
       .command ['t'] "http://hook.example/".toList ['a'] [(.reused (.v4 ⟨8, 8, 8, 8⟩), none)]]
        = some traffic
    ∧ traffic.tried = [(['t'], .v4 ⟨8, 8, 8, 8⟩), (['t'], .v4 ⟨8, 8, 8, 8⟩)]
    ∧ ∀ tenant ip, (tenant, ip) ∈ traffic.tried → tenant ≠ [] →
        ip.isPublic = true
          ∨ ∃ block ∈ [(⟨.v4 ⟨10, 0, 0, 0⟩, 8, by decide⟩ : IpCidr)], block.contains ip = true
  := by
  have hrun : ((Runs.run (step sampleEnv [⟨.v4 ⟨10, 0, 0, 0⟩, 8, by decide⟩]) ⟨[], []⟩
      [.notify ['t'] "http://hook.example/in".toList
        [(.opened [.v4 ⟨127, 0, 0, 1⟩, .v4 ⟨8, 8, 8, 8⟩] 1, some "http://127.0.0.1/".toList)],
       .notify ['t'] "http://127.0.0.1/in".toList [(.opened [] 1, none)],
       .command ['t'] "http://hook.example/".toList ['a']
        [(.reused (.v4 ⟨8, 8, 8, 8⟩), none)]]).filter fun traffic =>
      decide (traffic.tried = [(['t'], .v4 ⟨8, 8, 8, 8⟩), (['t'], .v4 ⟨8, 8, 8, 8⟩)])).isSome
        = true := by
    decide
  obtain ⟨traffic, htraffic⟩ := Option.isSome_iff_exists.mp hrun
  obtain ⟨htraffic, htried⟩ := Option.filter_eq_some_iff.mp htraffic
  exact ⟨traffic, htraffic, of_decide_eq_true htried,
    (requests_guarded sampleEnv_lawful htraffic).1⟩

end Votport.Egress
