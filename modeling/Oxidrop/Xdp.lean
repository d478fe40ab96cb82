import Oxidrop.Headers
import Oxidrop.Kernel

/-!
# The data plane

`xdpFirewall` as the kernel program computes it: a verdict and the maps after
the packet. The two address families have an arm each; what their arms do with
the flow table and the bucket is the same text over two key types.
-/
namespace Oxidrop

inductive XdpAction where
  | aborted | drop | pass
  | redirect (ifindex : UInt32)
  deriving DecidableEq, Repr

/-- What the kernel hands to the program, and the clock values it would read at
the flow table and at the bucket. -/
structure XdpContext where
  data : List UInt8
  ingressIfindex : UInt32
  ktimeFlow : UInt64
  ktimeBucket : UInt64
  deriving DecidableEq, Repr

/-- The maps the data plane only reads. -/
structure Policy where
  config : Option FirewallConfig
  subnetMatchingV4 : LpmTrie Action
  subnetMatchingV6 : LpmTrie Action

/-- The flow table and the buckets of one address family. -/
structure FlowMaps (κ : Type) where
  allowList : LruHashMap κ AllowListState
  packetCounts : LruHashMap κ TokenBucketState

structure Maps extends Policy where
  v4 : FlowMaps Ipv4Packet
  v6 : FlowMaps Ipv6Packet

abbrev Verdict := Except FirewallError XdpAction

def trafficDirection (config : FirewallConfig) (ingressIfindex : UInt32) : TraficDirection :=
  if config.incomingEthernetAdapter = some ingressIfindex then .incoming
  else if config.outputEthernetAdapter = some ingressIfindex then .outgoing
  else .incoming

def activeProfile (config : FirewallConfig) (protocol : IpProto) : RateProfile :=
  if protocol = .Tcp then config.tcpProfile
  else if protocol = .Udp then config.udpProfile
  else if protocol = .Icmp then config.icmpProfile
  else config.defaultProfile

def redirectTarget (config : FirewallConfig) : TraficDirection → Option UInt32
  | .incoming => config.outputEthernetAdapter
  | .outgoing => config.incomingEthernetAdapter

/-- `bpf_redirect` with no flags always answers with a redirect. -/
def redirectOrPass (config : FirewallConfig) (direction : TraficDirection) : XdpAction :=
  match redirectTarget config direction with
  | none => .pass
  | some ifindex => .redirect ifindex

def saturatingSub (a b : UInt64) : UInt64 := if b ≤ a then a - b else 0

/-- Refill and spend. The addition wraps and the shift takes its count modulo
64, as in a build without overflow checks. -/
def evaluateBucket (bucket : TokenBucketState) (activeRateprofil : RateProfile) (now : UInt64) :
    Verdict × TokenBucketState :=
  let elapsed := saturatingSub now bucket.lastUpdate
  let generatedTokens := elapsed >>> activeRateprofil.rateShift
  let bucket :=
    if 0 < generatedTokens then
      ⟨min (bucket.tokens + generatedTokens) activeRateprofil.burst, now⟩
    else bucket
  if 0 < bucket.tokens then (.ok .pass, { bucket with tokens := bucket.tokens - 1 })
  else (.error .rateLimited, bucket)

section Flow

variable {κ : Type} [DecidableEq κ]

def ddosAndBucketEnding (config : FirewallConfig) (bucket : TokenBucketState) (now : UInt64)
    (profile : RateProfile) (flowKeyDirection : κ) (direction : TraficDirection)
    (s : FlowMaps κ) : Verdict × FlowMaps κ :=
  if config.ddosActivated then
    let result := evaluateBucket bucket profile now
    let s := { s with packetCounts := s.packetCounts.insert flowKeyDirection result.2 }
    match result.1 with
    | .ok _ => (.ok (redirectOrPass config direction), s)
    | .error _ => (.error .rateLimited, s)
  else (.ok (redirectOrPass config direction), s)

/-- The subnet check and the flow table: the verdict if the packet leaves here,
and the maps after it. -/
def trackFlow (config : FirewallConfig) (ctx : XdpContext) (direction : TraficDirection)
    (subnet : Option Action) (flowKeyDirection : κ) (removeFromHashmap : Bool)
    (s : FlowMaps κ) : Option Verdict × FlowMaps κ :=
  if config.subnetActivated && subnet != some .allow then
    (some (.error .deniedByPolicy), s)
  else if !removeFromHashmap then
    match direction with
    | .incoming =>
      match s.allowList flowKeyDirection with
      | some state =>
        if state.action = .allow then
          (none, { s with
            allowList := s.allowList.insert flowKeyDirection
              { state with lastSeen := ctx.ktimeFlow } })
        else (some (.error .deniedByPolicy), s)
      | none => (some (.error .deniedByPolicy), s)
    | .outgoing =>
      match s.allowList flowKeyDirection with
      | some state =>
        (none, { s with
          allowList := s.allowList.insert flowKeyDirection
            { state with lastSeen := ctx.ktimeFlow } })
      | none =>
        (none, { s with
          allowList := s.allowList.insert flowKeyDirection ⟨.allow, ctx.ktimeFlow⟩ })
  else
    (some (.ok (redirectOrPass config direction)),
      ⟨s.allowList.remove flowKeyDirection, s.packetCounts.remove flowKeyDirection⟩)

end Flow

def ddosAndBucketEndingV4 (config : FirewallConfig) (bucket : TokenBucketState) (now : UInt64)
    (profile : RateProfile) (flowKeyDirection : Ipv4Packet) (direction : TraficDirection)
    (s : FlowMaps Ipv4Packet) : Verdict × FlowMaps Ipv4Packet :=
  ddosAndBucketEnding config bucket now profile flowKeyDirection direction s

def ddosAndBucketEndingV6 (config : FirewallConfig) (bucket : TokenBucketState) (now : UInt64)
    (profile : RateProfile) (flowKeyDirection : Ipv6Packet) (direction : TraficDirection)
    (s : FlowMaps Ipv6Packet) : Verdict × FlowMaps Ipv6Packet :=
  ddosAndBucketEnding config bucket now profile flowKeyDirection direction s

/-- The key of a packet's flow, seen from the inside host. -/
def Headers.flowKey {n : Nat} {α κ : Type} (new : α → α → UInt16 → UInt16 → UInt8 → κ)
    (direction : TraficDirection) (h : Headers n α) : κ :=
  match direction with
  | .incoming => new h.destAddr h.sourceAddr h.destPort h.sourcePort h.protocol.val
  | .outgoing => new h.sourceAddr h.destAddr h.sourcePort h.destPort h.protocol.val

def Headers.externalOctets {n : Nat} {α : Type} (direction : TraficDirection)
    (h : Headers n α) : Vector UInt8 n :=
  match direction with
  | .incoming => h.sourceOctets
  | .outgoing => h.destOctets

/-- The IPv4 arm of `xdp_firewall`. -/
def ipv4Arm (nt : NetworkTypes) (config : FirewallConfig) (direction : TraficDirection)
    (ctx : XdpContext) (m : Maps) : Verdict × Maps :=
  match parseIpv4 nt ctx.data with
  | .error e => (.error e, m)
  | .ok h =>
    let flowKeyDirection := h.flowKey Ipv4Packet.new direction
    let subnetKeyV4 : Key := ⟨32, (h.externalOctets direction).toList⟩
    match trackFlow config ctx direction (m.subnetMatchingV4.get subnetKeyV4) flowKeyDirection
        h.removeFromHashmap m.v4 with
    | (some verdict, maps) => (verdict, { m with v4 := maps })
    | (none, maps) =>
      let now := ctx.ktimeBucket
      let profile := activeProfile config h.protocol
      let bucket := (maps.packetCounts flowKeyDirection).getD ⟨profile.burst, now⟩
      let r := ddosAndBucketEndingV4 config bucket now profile flowKeyDirection direction maps
      (r.1, { m with v4 := r.2 })

/-- The IPv6 arm of `xdp_firewall`. -/
def ipv6Arm (nt : NetworkTypes) (config : FirewallConfig) (direction : TraficDirection)
    (ctx : XdpContext) (m : Maps) : Verdict × Maps :=
  match parseIpv6 nt ctx.data with
  | .error e => (.error e, m)
  | .ok h =>
    let flowKeyDirection := h.flowKey Ipv6Packet.new direction
    let subnetKeyV6 : Key := ⟨128, (h.externalOctets direction).toList⟩
    match trackFlow config ctx direction (m.subnetMatchingV6.get subnetKeyV6) flowKeyDirection
        h.removeFromHashmap m.v6 with
    | (some verdict, maps) => (verdict, { m with v6 := maps })
    | (none, maps) =>
      let now := ctx.ktimeBucket
      let profile := activeProfile config h.protocol
      let bucket := (maps.packetCounts flowKeyDirection).getD ⟨profile.burst, now⟩
      let r := ddosAndBucketEndingV6 config bucket now profile flowKeyDirection direction maps
      (r.1, { m with v6 := r.2 })

/-- The arms after ARP: pass what the configuration allows by its flag set. -/
def otherArm (config : FirewallConfig) (x : EtherType) : Verdict :=
  if config.protocolAllowed.contains x.toActivaterEtherTypes then .ok .pass
  else .error .unsupportedProtocol

def Policy.configuration (p : Policy) : FirewallConfig := p.config.getD defaultConfig

def xdpFirewall (nt : NetworkTypes) (ctx : XdpContext) (m : Maps) : Verdict × Maps :=
  match ptrAt ctx.data 0 EthHdr.LEN with
  | none => (.error .outOfBounds, m)
  | some ethhdr =>
    let config := m.configuration
    let direction := trafficDirection config ctx.ingressIfindex
    match nt.etherType ethhdr with
    | some .ipv4 =>
      if config.protocolAllowed.contains .IPV4 then ipv4Arm nt config direction ctx m
      else (otherArm config .ipv4, m)
    | some .ipv6 => ipv6Arm nt config direction ctx m
    | some .arp => (.ok .pass, m)
    | some x => (otherArm config x, m)
    | none => (.error .unsupportedProtocol, m)

/-- The entry point: an error throws the packet out. -/
def oxidrop (nt : NetworkTypes) (ctx : XdpContext) (m : Maps) : XdpAction × Maps :=
  match xdpFirewall nt ctx m with
  | (.ok ret, m) => (ret, m)
  | (.error .outOfBounds, m) => (.aborted, m)
  | (.error _, m) => (.drop, m)

/-- The maps of a firewall that has seen no packet and has no subnet rule. -/
def freshMaps (config : FirewallConfig) : Maps where
  config := some config
  subnetMatchingV4 := .empty
  subnetMatchingV6 := .empty
  v4 := ⟨fun _ => none, fun _ => none⟩
  v6 := ⟨fun _ => none, fun _ => none⟩

/-- Two adapters, the network behind number 3, and no other restriction. -/
def openConfig : FirewallConfig :=
  { defaultConfig with
    ddosActivated := false
    subnetActivated := false
    incomingEthernetAdapter := some 2
    outputEthernetAdapter := some 3 }

def insideHost : List UInt8 := [10, 0, 0, 1]
def outsideHost : List UInt8 := [203, 0, 113, 9]

def udpRequest : XdpContext :=
  ⟨ipv4Frame 17 insideHost outsideHost [0, 53, 0, 80, 0, 0, 0, 0], 3, 1, 1⟩

def udpReply : XdpContext :=
  ⟨ipv4Frame 17 outsideHost insideHost [0, 80, 0, 53, 0, 0, 0, 0], 2, 2, 2⟩

def tcpRequest : XdpContext :=
  ⟨ipv4Frame 6 insideHost outsideHost (tcpHeader 44 80 2), 3, 1, 1⟩

/-- The frame leaves the host or goes up its stack. -/
def forwarded : Verdict → Bool
  | .ok .pass => true
  | .ok (.redirect _) => true
  | _ => false

@[simp] theorem forwarded_redirectOrPass (config : FirewallConfig) (direction : TraficDirection) :
    forwarded (.ok (redirectOrPass config direction)) = true := by
  unfold redirectOrPass
  cases redirectTarget config direction <;> rfl

@[simp] theorem forwarded_error (e : FirewallError) : forwarded (.error e) = false := rfl

/-- What the entry point hands to the kernel forwards the frame exactly when
the verdict does, and its state is that of `xdpFirewall`. -/
theorem oxidrop_forwarded (nt : NetworkTypes) (ctx : XdpContext) (m : Maps) :
    forwarded (.ok (oxidrop nt ctx m).1) = forwarded (xdpFirewall nt ctx m).1 ∧
      (oxidrop nt ctx m).2 = (xdpFirewall nt ctx m).2 := by
  unfold oxidrop
  obtain ⟨verdict, m'⟩ := xdpFirewall nt ctx m
  cases verdict with
  | ok ret => exact ⟨rfl, rfl⟩
  | error e => cases e <;> exact ⟨rfl, rfl⟩

end Oxidrop
