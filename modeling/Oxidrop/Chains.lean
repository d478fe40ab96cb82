import Oxidrop.Admission
import Oxidrop.Wire

/-!
# Chains of extension headers

The walk of the data plane takes at most six steps and looks for the transport
header only before a step. A chain of exactly six extension headers leads to the
transport header without it being noticed, a longer one leaves the walk inside
the chain. For all other frames the flow key is that of the connection.
-/
namespace Oxidrop.Chains

open Admission

/-- The protocols that have ports. -/
def HasPorts (protocol : UInt8) : Prop := protocol = 6 ∨ protocol = 17

instance (protocol : UInt8) : Decidable (HasPorts protocol) :=
  inferInstanceAs (Decidable (_ ∨ _))

theorem HasPorts.transport {protocol : UInt8} (h : HasPorts protocol) : IsTransport protocol := by
  rcases h with rfl | rfl
  · exact .inl rfl
  · exact .inr (.inl rfl)

/-- A flow key with protocol TCP or UDP names the connection that the walk of the
whole chain finds, and the removal flag is the FIN or RST of its header. -/
def KeyFaithful (nt : NetworkTypes) (p : Policy) (ctx : XdpContext) : Prop :=
  ∀ q key, inspect nt p ctx = .inr q → q.key = .v6 key → HasPorts key.protocol →
    ∃ types offset c, Ipv6Carries ctx.data types offset c ∧
      key = (c.fromInside (p.direction ctx)).key octetsToWords Ipv6Packet.new ∧
      q.remove = finRstAt ctx.data offset c.protocol

/-- Unfragmented packets of two TCP or UDP connections do not share a flow key. -/
def Separates (nt : NetworkTypes) (p : Policy) (ctx₁ ctx₂ : XdpContext) : Prop :=
  ∀ types₁ offset₁ c₁ types₂ offset₂ c₂,
    Ipv6Carries ctx₁.data types₁ offset₁ c₁ → Ipv6Carries ctx₂.data types₂ offset₂ c₂ →
    44 ∉ types₁ → 44 ∉ types₂ → HasPorts c₁.protocol → HasPorts c₂.protocol →
    c₁.fromInside (p.direction ctx₁) ≠ c₂.fromInside (p.direction ctx₂) →
    ∀ k, flowKeyOf nt p ctx₁ = some k → flowKeyOf nt p ctx₂ ≠ some k

/-- A TCP or UDP header behind exactly six extension headers has zero ports and
neither FIN nor RST. -/
def BoundHarmless (data : List UInt8) : Prop :=
  ∀ types offset protocol, Chain data 54 (data.getD 20 0) types offset protocol →
    types.length = 6 → HasPorts protocol →
    TransportInside data offset protocol ∧ portsAt data offset protocol = (0, 0) ∧
      finRstAt data offset protocol = false

/-- Two connections behind seven or more extension headers, with the same
addresses and the same type of the seventh header, are the same. -/
def BeyondHarmless (p : Policy) (ctx₁ ctx₂ : XdpContext) : Prop :=
  ∀ types₁ offset₁ c₁ types₂ offset₂ c₂,
    Ipv6Carries ctx₁.data types₁ offset₁ c₁ → Ipv6Carries ctx₂.data types₂ offset₂ c₂ →
    44 ∉ types₁ → 44 ∉ types₂ → HasPorts c₁.protocol → HasPorts c₂.protocol →
    6 < types₁.length → 6 < types₂.length → types₁.getD 6 0 = types₂.getD 6 0 →
    (c₁.fromInside (p.direction ctx₁)).source = (c₂.fromInside (p.direction ctx₂)).source →
    (c₁.fromInside (p.direction ctx₁)).dest = (c₂.fromInside (p.direction ctx₂)).dest →
    c₁.fromInside (p.direction ctx₁) = c₂.fromInside (p.direction ctx₂)

theorem octetsToWords_injective : Function.Injective octetsToWords := by
  intro a b h
  apply Vector.toList_inj.mp
  rw [← ipv6Words_bytes (ipv6Words_eq a), ← ipv6Words_bytes (ipv6Words_eq b), h]

theorem key_injective :
    Function.Injective (fun c : Connection 16 => c.key octetsToWords Ipv6Packet.new) := by
  intro c c' h
  obtain ⟨hs, hd, hsp, hdp, hpr⟩ := ipv6Packet_injective _ _ _ _ _ _ _ _ _ _ h
  cases c
  cases c'
  simp_all [octetsToWords_injective.eq_iff]

section Frame

variable {nt : NetworkTypes} {p : Policy} {ctx : XdpContext}

theorem inspect_v6_iff (ht : frameType nt ctx = some .ipv6) {q : FlowPacket} :
    inspect nt p ctx = .inr q ↔
      ∃ hd, parseIpv6 nt ctx.data = .ok hd ∧
        q = flowPacket p.configuration ctx (p.direction ctx)
          (p.subnetMatchingV6.get ⟨128, (hd.externalOctets (p.direction ctx)).toList⟩)
          (.v6 (hd.flowKey Ipv6Packet.new (p.direction ctx))) hd.protocol
          hd.removeFromHashmap := by
  constructor
  · intro h
    exact inspectV6_inr (by rwa [inspect_of_type ht] at h)
  · rintro ⟨hd, hp, rfl⟩
    exact inspect_parseIpv6 ht hp

/-- The flow key that a connection gets behind its chain. -/
theorem flowKeyOf_carries (hnt : nt.Lawful) (ht : frameType nt ctx = some .ipv6)
    {types : List UInt8} {offset : Nat} {c : Connection 16}
    (hc : Ipv6Carries ctx.data types offset c) :
    flowKeyOf nt p ctx =
      some (.v6 (((c.behind types).fromInside (p.direction ctx)).key octetsToWords
        Ipv6Packet.new)) := by
  rw [flowKeyOf_of_inr (inspect_parseIpv6 ht (hc.parse hnt))]
  exact congrArg (fun key => some (FlowKey.v6 key)) (Connection.flowKey_headers _ _ _ _ _)

theorem fromInside_injective (direction : TraficDirection) :
    Function.Injective (Connection.fromInside (n := 16) direction) := by
  intro c c' h
  cases direction with
  | incoming =>
    obtain ⟨hd, hs, hpr, hdp, hsp⟩ := Connection.mk.inj h
    cases c
    cases c'
    simp_all
  | outgoing => exact h

/-- A chain to a transport header makes the frame a packet of a connection. -/
theorem carries_of_chain (hnt : nt.Lawful) (ht : frameType nt ctx = some .ipv6)
    (hheader : 54 ≤ ctx.data.length) {types : List UInt8} {offset : Nat} {protocol : UInt8}
    (hchain : Chain ctx.data 54 (ctx.data.getD 20 0) types offset protocol)
    (htransport : IsTransport protocol) (hinside : TransportInside ctx.data offset protocol) :
    Ipv6Carries ctx.data types offset (ipv6Connection ctx.data offset protocol) :=
  ⟨((frameType_ipv6 hnt).mp ht).2, hheader, rfl, rfl, hchain, htransport, hinside, rfl⟩

theorem fromInside_protocol (direction : TraficDirection) (c : Connection 16) :
    (c.fromInside direction).protocol = c.protocol := by
  cases direction <;> rfl

theorem key_protocol (direction : TraficDirection) (c : Connection 16) :
    ((c.fromInside direction).key octetsToWords Ipv6Packet.new).protocol = c.protocol := by
  cases direction <;> rfl

theorem behind_six {types : List UInt8} (h : types.length = 6) (c : Connection 16) :
    c.behind types = ⟨c.source, c.dest, c.protocol, 0, 0⟩ := by
  have hlt : ¬ types.length < 6 := by omega
  have hnone : types[6]? = none := List.getElem?_eq_none (by omega)
  simp [Connection.behind, hlt, hnone]

/-- A single frame has a faithful key exactly if it does not hit the bound, or
hits it without harm. -/
theorem keyFaithful_iff (hnt : nt.Lawful) (ht : frameType nt ctx = some .ipv6) :
    KeyFaithful nt p ctx ↔ BoundHarmless ctx.data := by
  constructor
  · intro h types offset protocol hchain hlen hports
    have hheader : 54 ≤ ctx.data.length := by
      cases types with
      | nil => simp at hlen
      | cons x types =>
        have := (chain_cons.mp hchain).2.2.1
        omega
    have hp := parseIpv6_chain hnt hheader hchain hports.transport (fun hlt => by omega)
    rw [behind_six hlen] at hp
    have hkey := Connection.flowKey_headers octetsToWords Ipv6Packet.new
      (⟨(ipv6Connection ctx.data offset protocol).source,
        (ipv6Connection ctx.data offset protocol).dest, protocol, 0, 0⟩ : Connection 16)
      (types.length < 6 && finRstAt ctx.data offset protocol) (p.direction ctx)
    obtain ⟨types', offset', c, hc, hsame, hremove⟩ :=
      h _ _ (inspect_parseIpv6 ht hp) (congrArg FlowKey.v6 hkey) (by rwa [key_protocol])
    obtain ⟨-, rfl, hproto⟩ := hchain.unique hc.chain hports.transport.not_extension
      hc.transport.not_extension
    have hconn := fromInside_injective _ (key_injective hsame)
    have hwire := hc.ports
    rw [← hconn] at hwire hremove
    refine ⟨hproto ▸ hc.inside, hwire.symm, ?_⟩
    rw [← hremove]
    simp [flowPacket, Connection.headers, hlen]
  · intro h q key hi hk hports
    obtain ⟨hd, hp, rfl⟩ := (inspect_v6_iff ht).mp hi
    obtain ⟨hheader, types, offset, hchain, hlen, hinside⟩ := parseIpv6_walk hnt hp
    have hkey : hd.flowKey Ipv6Packet.new (p.direction ctx) = key := FlowKey.v6.inj hk
    have hprotocol : hd.protocol.val = key.protocol := by
      rw [← hkey]
      cases p.direction ctx <;> rfl
    generalize key.protocol = protocol at hports hprotocol
    rw [hprotocol] at hchain hinside
    have hp' := parseIpv6_chain hnt hheader hchain hports.transport
      (fun hlt => hinside hlt hports.transport)
    obtain rfl := Except.ok.inj (hp.symm.trans hp')
    rw [Connection.flowKey_headers] at hkey
    by_cases hlt : types.length < 6
    · refine ⟨types, offset, _, carries_of_chain hnt ht hheader hchain hports.transport
        (hinside hlt hports.transport), ?_, ?_⟩
      · rw [← hkey, Connection.behind, if_pos hlt]
      · simp [flowPacket, Connection.headers, hlt, ipv6Connection]
    · have hsix : types.length = 6 := by omega
      obtain ⟨hin, hzero, hplain⟩ := h types offset protocol hchain hsix hports
      refine ⟨types, offset, _, carries_of_chain hnt ht hheader hchain hports.transport hin,
        ?_, ?_⟩
      · rw [← hkey, behind_six hsix]
        simp only [ipv6Connection, hzero]
      · simp [flowPacket, Connection.headers, hlt, ipv6Connection, hplain]

/-- A connection behind at most six headers is seen as it is. -/
theorem behind_eq_self (h : BoundHarmless ctx.data) {types : List UInt8} {offset : Nat}
    {c : Connection 16} (hc : Ipv6Carries ctx.data types offset c) (hports : HasPorts c.protocol)
    (hlen : types.length ≤ 6) : c.behind types = c := by
  by_cases hlt : types.length < 6
  · exact if_pos hlt
  · have hsix : types.length = 6 := by omega
    have hzero := hc.ports
    rw [(h types offset c.protocol hc.chain hsix hports).2.1] at hzero
    obtain ⟨hsp, hdp⟩ := Prod.mk.inj hzero
    rw [behind_six hsix]
    exact (congrArg₂ (Connection.mk c.source c.dest c.protocol) hsp hdp).symm

end Frame

/-- Beyond the bound only the addresses and the seventh header are seen. -/
theorem behind_beyond {types : List UInt8} (h : 6 < types.length) (c : Connection 16)
    (direction : TraficDirection) :
    (c.behind types).fromInside direction =
      ⟨(c.fromInside direction).source, (c.fromInside direction).dest, types.getD 6 0, 0, 0⟩ := by
  have hlt : ¬ types.length < 6 := by omega
  have hget : types[6]? = some types[6] := List.getElem?_eq_getElem h
  cases direction <;>
    simp [Connection.behind, Connection.fromInside, Connection.reverse, hlt, hget]

theorem seventh_extension {data types : List UInt8} {offset : Nat} {protocol : UInt8}
    (hchain : Chain data 54 (data.getD 20 0) types offset protocol) (h : 6 < types.length) :
    ¬ HasPorts (types.getD 6 0) := by
  intro hports
  have hget : types.getD 6 0 = types[6] := by simp [h]
  rw [hget] at hports
  exact hports.transport.not_extension (hchain.extension _ (List.getElem_mem h))

/-- With faithful keys on their own, two frames are told apart exactly if their
chains do not both reach beyond the bound in the same way. -/
theorem separates_iff {nt : NetworkTypes} (hnt : nt.Lawful) {p : Policy} {ctx₁ ctx₂ : XdpContext}
    (ht₁ : frameType nt ctx₁ = some .ipv6) (ht₂ : frameType nt ctx₂ = some .ipv6)
    (h₁ : BoundHarmless ctx₁.data) (h₂ : BoundHarmless ctx₂.data) :
    Separates nt p ctx₁ ctx₂ ↔ BeyondHarmless p ctx₁ ctx₂ := by
  constructor
  · intro h types₁ offset₁ c₁ types₂ offset₂ c₂ hc₁ hc₂ hf₁ hf₂ hp₁ hp₂ hlen₁ hlen₂ hseventh
      hsource hdest
    by_contra hne
    apply h types₁ offset₁ c₁ types₂ offset₂ c₂ hc₁ hc₂ hf₁ hf₂ hp₁ hp₂ hne _
      (flowKeyOf_carries hnt ht₁ hc₁)
    rw [flowKeyOf_carries hnt ht₂ hc₂, behind_beyond hlen₁, behind_beyond hlen₂, hsource, hdest,
      hseventh]
  · intro h types₁ offset₁ c₁ types₂ offset₂ c₂ hc₁ hc₂ hf₁ hf₂ hp₁ hp₂ hne k hk₁ hk₂
    rw [flowKeyOf_carries hnt ht₁ hc₁, ← hk₂, flowKeyOf_carries hnt ht₂ hc₂] at hk₁
    have hsame := key_injective (FlowKey.v6.inj (Option.some.inj hk₁))
    have hprotocol := congrArg Connection.protocol hsame
    by_cases hlen₁ : types₁.length ≤ 6 <;> by_cases hlen₂ : types₂.length ≤ 6
    · rw [behind_eq_self h₁ hc₁ hp₁ hlen₁, behind_eq_self h₂ hc₂ hp₂ hlen₂] at hsame
      exact hne hsame
    · rw [behind_eq_self h₁ hc₁ hp₁ hlen₁, behind_beyond (by omega)] at hprotocol
      have hseventh : c₁.protocol = types₂.getD 6 0 :=
        (fromInside_protocol _ c₁).symm.trans hprotocol
      exact seventh_extension hc₂.chain (by omega) (hseventh ▸ hp₁)
    · rw [behind_eq_self h₂ hc₂ hp₂ hlen₂, behind_beyond (by omega)] at hprotocol
      have hseventh : types₁.getD 6 0 = c₂.protocol :=
        hprotocol.trans (fromInside_protocol _ c₂)
      exact seventh_extension hc₁.chain (by omega) (hseventh ▸ hp₂)
    · rw [behind_beyond (by omega), behind_beyond (by omega)] at hsame
      obtain ⟨hsource, hdest, hseventh, -⟩ := Connection.mk.inj hsame
      exact hne (h types₁ offset₁ c₁ types₂ offset₂ c₂ hc₁ hc₂ hf₁ hf₂ hp₁ hp₂ (by omega)
        (by omega) hseventh hsource hdest)

/-- The keys of two IPv6 frames are faithful and tell their connections apart,
exactly if neither is harmed at the bound of the walk and both are not beyond it
in the same way. -/
theorem keys_faithful_iff (nt : NetworkTypes) (hnt : nt.Lawful) (p : Policy)
    (ctx₁ ctx₂ : XdpContext) (ht₁ : frameType nt ctx₁ = some .ipv6)
    (ht₂ : frameType nt ctx₂ = some .ipv6) :
    (KeyFaithful nt p ctx₁ ∧ KeyFaithful nt p ctx₂ ∧ Separates nt p ctx₁ ctx₂) ↔
      (BoundHarmless ctx₁.data ∧ BoundHarmless ctx₂.data ∧ BeyondHarmless p ctx₁ ctx₂) := by
  rw [keyFaithful_iff hnt ht₁, keyFaithful_iff hnt ht₂]
  constructor
  · rintro ⟨h₁, h₂, hsep⟩
    exact ⟨h₁, h₂, (separates_iff hnt ht₁ ht₂ h₁ h₂).mp hsep⟩
  · rintro ⟨h₁, h₂, hbeyond⟩
    exact ⟨h₁, h₂, (separates_iff hnt ht₁ ht₂ h₁ h₂).mpr hbeyond⟩

/-- A frame whose chain has another length than six does not hit the bound. -/
theorem boundHarmless_of_chain {data types : List UInt8} {offset : Nat} {protocol : UInt8}
    (h : Chain data 54 (data.getD 20 0) types offset protocol) (ht : IsTransport protocol)
    (hlen : types.length ≠ 6) : BoundHarmless data := by
  intro types' offset' protocol' h' hlen' hports
  obtain ⟨rfl, -, -⟩ := h.unique h' ht.not_extension hports.transport.not_extension
  exact absurd hlen' hlen

/-- A frame whose chain is no longer than six stays within it. -/
theorem beyondHarmless_of_chain {p : Policy} {ctx₁ ctx₂ : XdpContext} {types : List UInt8}
    {offset : Nat} {protocol : UInt8}
    (h : Chain ctx₁.data 54 (ctx₁.data.getD 20 0) types offset protocol)
    (ht : IsTransport protocol) (hlen : types.length ≤ 6) : BeyondHarmless p ctx₁ ctx₂ := by
  intro types₁ offset₁ c₁ types₂ offset₂ c₂ hc₁ hc₂ hf₁ hf₂ hp₁ hp₂ hlen₁
  obtain ⟨rfl, -, -⟩ := h.unique hc₁.chain ht.not_extension hc₁.transport.not_extension
  omega

/-- Destination options without content, one header after the other. -/
def optionHeaders : List UInt8 → List UInt8
  | [] => []
  | next :: rest => [next, 0, 1, 4, 0, 0, 0, 0] ++ optionHeaders rest

def insideHost6 : List UInt8 := [0x20, 1, 0xd, 0xb8, 0, 0, 0, 0, 0, 0, 0, 0, 0, 0, 0, 1]
def outsideHost6 : List UInt8 := [0x20, 1, 0xd, 0xb8, 0, 0, 0, 9, 0, 0, 0, 0, 0, 0, 0, 9]

/-- A TCP segment from port 44 to port 80 behind some destination options. -/
def segmentBehind (n : Nat) : XdpContext :=
  ⟨ipv6Frame 60 insideHost6 outsideHost6
    (optionHeaders (List.replicate n 60 ++ [6]) ++ tcpHeader 44 80 2), 3, 1, 1⟩

theorem segmentBehind_short :
    Chain (segmentBehind 4).data 54 60 [60, 60, 60, 60, 60] 94 6 := by
  simp only [chain_cons, chain_nil]
  decide +kernel

/-- Five extension headers do no harm. -/
theorem keys_faithful_five :
    KeyFaithful rfcTypes (freshMaps openConfig).toPolicy (segmentBehind 4) := by
  have hbound := boundHarmless_of_chain segmentBehind_short (.inl rfl) (by decide)
  exact ((keys_faithful_iff rfcTypes rfcTypes_lawful (freshMaps openConfig).toPolicy
    (segmentBehind 4) (segmentBehind 4) (by decide +kernel) (by decide +kernel)).mpr
    ⟨hbound, hbound, beyondHarmless_of_chain segmentBehind_short (.inl rfl) (by decide)⟩).1

theorem segmentBehind_chain :
    Chain (segmentBehind 5).data 54 60 [60, 60, 60, 60, 60, 60] 102 6 := by
  simp only [chain_cons, chain_nil]
  decide +kernel

/-- Behind exactly six extension headers the ports are lost. -/
theorem keys_not_faithful :
    ¬ (KeyFaithful rfcTypes (freshMaps openConfig).toPolicy (segmentBehind 5) ∧
      KeyFaithful rfcTypes (freshMaps openConfig).toPolicy (segmentBehind 5) ∧
      Separates rfcTypes (freshMaps openConfig).toPolicy (segmentBehind 5) (segmentBehind 5)) := by
  rintro ⟨hfaithful, -, -⟩
  have hharmless := (keyFaithful_iff rfcTypes_lawful (by decide +kernel)).mp hfaithful
  have hzero := (hharmless _ _ _ segmentBehind_chain rfl (.inl rfl)).2.1
  exact absurd hzero (by decide +kernel)

/-! ## Up to the bound -/

/-- The walk ends at the transport header behind all the extension headers, and the
ports and flags are read there. -/
structure WalkedTo (nt : NetworkTypes) (data types : List UInt8) (offset : Nat)
    (protocol : UInt8) : Prop where
  walk : walkHeaders nt data 6 54 ⟨data.getD 20 0⟩ = .ok ⟨offset, ⟨protocol⟩, true⟩
  offset_eq : offset = 54 + (headerLengths data 54 types).sum
  ports : parseIpv6 nt data =
    .ok ((ipv6Connection data offset protocol).headers octetsToWords
      (finRstAt data offset protocol))

/-- The frame ends before the first two octets of an extension header, or within a
TCP or UDP header, that stands behind at most five extension headers in all. -/
def CutOff (data : List UInt8) : Prop :=
  ∃ types offset type, Chain data 54 (data.getD 20 0) types offset type ∧
    ((IsExtension type ∧ types.length < 5 ∧ data.length < offset + 2) ∨
      (IsTransport type ∧ types.length ≤ 5 ∧ ¬ TransportInside data offset type))

theorem walkedTo (hnt : nt.Lawful) {data types : List UInt8} {offset : Nat} {protocol : UInt8}
    (hheader : 54 ≤ data.length)
    (hchain : Chain data 54 (data.getD 20 0) types offset protocol) (hlen : types.length ≤ 5)
    (ht : IsTransport protocol) (hinside : TransportInside data offset protocol) :
    WalkedTo nt data types offset protocol := by
  have hlt : types.length < 6 := by omega
  obtain ⟨n, hn⟩ : ∃ n, 6 - types.length = n + 1 := ⟨5 - types.length, by omega⟩
  refine ⟨?_, hchain.offset_eq, ?_⟩
  · rw [walkHeaders_chain hnt hchain (hnt.transport_known ht) hlt.le, hn,
      walkHeaders_transport n ht]
  · have hp := parseIpv6_chain hnt hheader hchain ht (fun _ => hinside)
    simpa only [Connection.behind, hlt, if_true, decide_true, Bool.true_and] using hp

/-- A frame that is cut off within the walk is out of bounds. -/
theorem parseIpv6_cutOff (hnt : nt.Lawful) {data : List UInt8} (h : CutOff data) :
    parseIpv6 nt data = .error .outOfBounds := by
  cases hp : parseIpv6 nt data with
  | error e => rw [parseIpv6_error hp]
  | ok hd =>
    obtain ⟨types, offset, type, hchain, ⟨hext, hlen, hout⟩ | ⟨ht, hlen, hout⟩⟩ := h
    · obtain ⟨-, -, walk, hwalk, -⟩ := (parseIpv6_wire hnt).mp hp
      obtain ⟨n, hn⟩ : ∃ n, 6 - types.length = n + 1 := ⟨5 - types.length, by omega⟩
      rw [walkHeaders_chain hnt hchain (hnt.extension_known hext) (by omega), hn,
        walkHeaders_extension hnt n hext, if_neg (by omega)] at hwalk
      cases hwalk
    · exact absurd (inside_of_parseIpv6 hnt hp hchain ht (by omega)) hout

/-- Behind at most five extension headers the walk is exact: it finds the transport
header where the lengths put it, or the frame is cut off and changes nothing. -/
theorem walk_exact (nt : NetworkTypes) (hnt : nt.Lawful) (ctx : XdpContext) (m : Maps)
    (ht : frameType nt ctx = some .ipv6) (hheader : 54 ≤ ctx.data.length) :
    (∀ types offset protocol, Chain ctx.data 54 (ctx.data.getD 20 0) types offset protocol →
      types.length ≤ 5 → IsTransport protocol → TransportInside ctx.data offset protocol →
      WalkedTo nt ctx.data types offset protocol) ∧
    (CutOff ctx.data → xdpFirewall nt ctx m = (.error .outOfBounds, m)) := by
  constructor
  · intro types offset protocol hchain hlen htransport hinside
    exact walkedTo hnt hheader hchain hlen htransport hinside
  · intro hcut
    apply xdpFirewall_inl
    simp only [inspect_of_type ht, inspectV6, parseIpv6_cutOff hnt hcut]

theorem walk_exact_five :
    WalkedTo rfcTypes (segmentBehind 4).data [60, 60, 60, 60, 60] 94 6 :=
  (walk_exact rfcTypes rfcTypes_lawful (segmentBehind 4) (freshMaps openConfig)
    (by decide +kernel) (by decide +kernel)).1 _ _ _ segmentBehind_short (by decide) (.inl rfl)
    (by decide +kernel)

end Oxidrop.Chains
