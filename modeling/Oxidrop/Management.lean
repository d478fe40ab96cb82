import Oxidrop.Api
import Oxidrop.Flow
import Oxidrop.Payloads

/-!
# Editing the flow maps by hand

An administrator stores or deletes single entries of the flow table and of the
buckets, which the data plane reads under the keys that it builds itself. Each
of the four maps has the same two handlers.
-/
namespace Oxidrop.Management

open Serde

/-! ## The four maps -/

inductive FlowTable where
  | allowList | packetCounts
  deriving DecidableEq, Repr

/-- What a lookup finds. -/
inductive Found where
  | action (action : Option Action)
  | bucket (bucket : Option TokenBucketState)
  deriving DecidableEq, Repr

def FlowTable.find (table : FlowTable) (m : Maps) (k : FlowKey) : Found :=
  match table with
  | .allowList => .action ((m.cell k).entry.map AllowListState.action)
  | .packetCounts => .bucket (m.cell k).bucket

/-- One of the four maps, with what a change of one entry does to lookups. -/
structure MapRef (κ ν : Type) [DecidableEq κ] where
  table : FlowTable
  get : Maps → LruHashMap κ ν
  set : Maps → LruHashMap κ ν → Maps
  flowKey : κ → FlowKey
  found : Option ν → Found
  find_update : ∀ (m : Maps) (key : κ) (e : Option ν) (k : FlowKey),
    table.find (set m (Function.update (get m) key e)) k =
      if k = flowKey key then found e else table.find m k

def allowListV4 : MapRef Ipv4Packet AllowListState where
  table := .allowList
  get m := m.v4.allowList
  set m map := { m with v4 := { m.v4 with allowList := map } }
  flowKey := .v4
  found e := .action (e.map AllowListState.action)
  find_update m key e k := by
    cases k with
    | v4 k => by_cases h : k = key <;> simp [FlowTable.find, Maps.cell, FlowMaps.cell, h]
    | v6 k => simp [FlowTable.find, Maps.cell]

def allowListV6 : MapRef Ipv6Packet AllowListState where
  table := .allowList
  get m := m.v6.allowList
  set m map := { m with v6 := { m.v6 with allowList := map } }
  flowKey := .v6
  found e := .action (e.map AllowListState.action)
  find_update m key e k := by
    cases k with
    | v4 k => simp [FlowTable.find, Maps.cell]
    | v6 k => by_cases h : k = key <;> simp [FlowTable.find, Maps.cell, FlowMaps.cell, h]

def packetCountsV4 : MapRef Ipv4Packet TokenBucketState where
  table := .packetCounts
  get m := m.v4.packetCounts
  set m map := { m with v4 := { m.v4 with packetCounts := map } }
  flowKey := .v4
  found := .bucket
  find_update m key e k := by
    cases k with
    | v4 k => by_cases h : k = key <;> simp [FlowTable.find, Maps.cell, FlowMaps.cell, h]
    | v6 k => simp [FlowTable.find, Maps.cell]

def packetCountsV6 : MapRef Ipv6Packet TokenBucketState where
  table := .packetCounts
  get m := m.v6.packetCounts
  set m map := { m with v6 := { m.v6 with packetCounts := map } }
  flowKey := .v6
  found := .bucket
  find_update m key e k := by
    cases k with
    | v4 k => simp [FlowTable.find, Maps.cell]
    | v6 k => by_cases h : k = key <;> simp [FlowTable.find, Maps.cell, FlowMaps.cell, h]

/-! ## Handlers -/

section Handlers

variable {κ ν : Type} [DecidableEq κ]

def modifyMap (ref : MapRef κ ν) (message : String) (session : Option CallerContext)
    (insertFails : Bool) (payload : Update κ ν) : Maps → Response × Maps :=
  withPermission session .MODIFY fun _ m =>
    if insertFails then (⟨.INTERNAL_SERVER_ERROR, .text message⟩, m)
    else
      (StatusCode.OK.intoResponse, ref.set m ((ref.get m).insert payload.key payload.state))

/-- Without a key in the request, every key that the iteration yields goes. -/
def clearMap (ref : MapRef κ ν) (session : Option CallerContext) (yielded : List κ)
    (payload : Option κ) : Maps → Response × Maps :=
  withPermission session .DELETE fun _ m =>
    match payload with
    | some key => (StatusCode.OK.intoResponse, ref.set m ((ref.get m).remove key))
    | none => (StatusCode.OK.intoResponse, ref.set m (yielded.foldl LruHashMap.remove (ref.get m)))

end Handlers

def modifyAllowListV4 : Option CallerContext → Bool → AllowListV4Update → Maps → Response × Maps :=
  modifyMap allowListV4 "Failed to insert into ALLOW_LIST_V4 map"

def modifyAllowListV6 : Option CallerContext → Bool → AllowListV6Update → Maps → Response × Maps :=
  modifyMap allowListV6 "Failed to insert into ALLOW_LIST_V6 map"

def modifyPacketCountsV4 :
    Option CallerContext → Bool → PacketCountV4Update → Maps → Response × Maps :=
  modifyMap packetCountsV4 "Failed to insert into PACKET_COUNTS_V4 map"

def modifyPacketCountsV6 :
    Option CallerContext → Bool → PacketCountV6Update → Maps → Response × Maps :=
  modifyMap packetCountsV6 "Failed to insert into PACKET_COUNTS_V6 map"

def clearAllowListV4 :
    Option CallerContext → List Ipv4Packet → Option Ipv4Packet → Maps → Response × Maps :=
  clearMap allowListV4

def clearAllowListV6 :
    Option CallerContext → List Ipv6Packet → Option Ipv6Packet → Maps → Response × Maps :=
  clearMap allowListV6

def clearPacketCountsV4 :
    Option CallerContext → List Ipv4Packet → Option Ipv4Packet → Maps → Response × Maps :=
  clearMap packetCountsV4

def clearPacketCountsV6 :
    Option CallerContext → List Ipv6Packet → Option Ipv6Packet → Maps → Response × Maps :=
  clearMap packetCountsV6

/-! ## Requests -/

inductive Method where
  | POST | DELETE
  deriving DecidableEq, Repr

inductive Family where
  | v4 | v6
  deriving DecidableEq, Repr

inductive ContentType where
  | absent | json | other
  deriving DecidableEq, Repr

/-- A request for one of the four maps. The body is absent if its bytes are not
JSON. The last three fields are what the kernel answers meanwhile. -/
structure FlowRequest where
  method : Method
  table : FlowTable
  family : Family
  session : Option CallerContext
  contentType : ContentType
  body : Option Json
  insertFails : Bool
  yieldedV4 : List Ipv4Packet
  yieldedV6 : List Ipv6Packet

/-- The extractor `Json<T>`. -/
def extractJson {α : Type} (decode : Json → Option α) (contentType : ContentType)
    (body : Option Json) : Option α :=
  match contentType with
  | .json => body.bind decode
  | _ => none

/-- The extractor `Option<Json<T>>`: only the absence of a content type makes an
absent value. -/
def extractOptionalJson {α : Type} (decode : Json → Option α) (contentType : ContentType)
    (body : Option Json) : Option (Option α) :=
  match contentType with
  | .absent => some none
  | .json => (body.bind decode).map some
  | .other => none

/-- A request that its extractor rejects does not reach the handler. The answer
is then the framework's, and is not 200. -/
def answer {α : Type} (payload : Option α) (handler : α → Maps → Response × Maps) (m : Maps) :
    Option Response × Maps :=
  match payload with
  | none => (none, m)
  | some payload => (some (handler payload m).1, (handler payload m).2)

def serve (r : FlowRequest) : Maps → Option Response × Maps :=
  match r.method, r.table, r.family with
  | .POST, .allowList, .v4 =>
    answer (extractJson decodeAllowListV4Update r.contentType r.body)
      (modifyAllowListV4 r.session r.insertFails)
  | .POST, .allowList, .v6 =>
    answer (extractJson decodeAllowListV6Update r.contentType r.body)
      (modifyAllowListV6 r.session r.insertFails)
  | .POST, .packetCounts, .v4 =>
    answer (extractJson decodePacketCountV4Update r.contentType r.body)
      (modifyPacketCountsV4 r.session r.insertFails)
  | .POST, .packetCounts, .v6 =>
    answer (extractJson decodePacketCountV6Update r.contentType r.body)
      (modifyPacketCountsV6 r.session r.insertFails)
  | .DELETE, .allowList, .v4 =>
    answer (extractOptionalJson decodeIpv4Packet r.contentType r.body)
      (clearAllowListV4 r.session r.yieldedV4)
  | .DELETE, .allowList, .v6 =>
    answer (extractOptionalJson decodeIpv6Packet r.contentType r.body)
      (clearAllowListV6 r.session r.yieldedV6)
  | .DELETE, .packetCounts, .v4 =>
    answer (extractOptionalJson decodeIpv4Packet r.contentType r.body)
      (clearPacketCountsV4 r.session r.yieldedV4)
  | .DELETE, .packetCounts, .v6 =>
    answer (extractOptionalJson decodeIpv6Packet r.contentType r.body)
      (clearPacketCountsV6 r.session r.yieldedV6)

/-! ## What a request names and what it asks for -/

inductive Tuple where
  | v4 (tuple : FiveTuple UInt32)
  | v6 (tuple : FiveTuple Words)
  deriving DecidableEq, Repr

/-- The key that the data plane builds. -/
def Tuple.key : Tuple → FlowKey
  | .v4 t => .v4 t.toIpv4Packet
  | .v6 t => .v6 t.toIpv6Packet

/-- The part of the body that becomes a key. -/
def FlowRequest.keyJson (r : FlowRequest) : Option Json :=
  match r.contentType, r.method with
  | .json, .POST => r.body.bind (required some ⟨"key", 0⟩)
  | .json, .DELETE => r.body
  | _, _ => none

def Spells (j : Json) : Family → Tuple → Prop
  | .v4, .v4 t => SpellsV4 j t
  | .v6, .v6 t => SpellsV6 j t
  | _, _ => False

/-- The request names a tuple. -/
def FlowRequest.Names (r : FlowRequest) (t : Tuple) : Prop :=
  ∃ j, r.keyJson = some j ∧ Spells j r.family t

/-- The request gives its key no padding other than zero. -/
def FlowRequest.Unpadded (r : FlowRequest) : Prop :=
  ∀ j, r.keyJson = some j →
    match r.family with
    | .v4 => UnpaddedV4 j
    | .v6 => UnpaddedV6 j

/-- What a packet of the tuple should find after the request. -/
def FlowRequest.asks (r : FlowRequest) : Option Found :=
  match r.method, r.table with
  | .DELETE, .allowList => some (.action none)
  | .DELETE, .packetCounts => some (.bucket none)
  | .POST, .allowList =>
    (r.body.bind (required decodeAllowListState ⟨"state", 1⟩)).map fun s => .action (some s.action)
  | .POST, .packetCounts =>
    (r.body.bind (required decodeTokenBucketState ⟨"state", 1⟩)).map fun s => .bucket (some s)

/-- Every packet with this parsed tuple, in the order of its direction, finds
this under its key. -/
def Finds (table : FlowTable) (m : Maps) (t : Tuple) (found : Found) : Prop :=
  match t with
  | .v4 t => ∀ (h : Headers 4 UInt32) (direction : TraficDirection), h.fiveTuple direction = t →
      table.find m (.v4 (h.flowKey Ipv4Packet.new direction)) = found
  | .v6 t => ∀ (h : Headers 16 Words) (direction : TraficDirection), h.fiveTuple direction = t →
      table.find m (.v6 (h.flowKey Ipv6Packet.new direction)) = found

/-- The data plane looks every tuple up under one key. -/
theorem finds_iff (table : FlowTable) (m : Maps) (t : Tuple) (found : Found) :
    Finds table m t found ↔ table.find m t.key = found := by
  cases t with
  | v4 t =>
    constructor
    · intro h
      exact h ⟨.replicate 4 0, .replicate 4 0, t.sourceAddr, t.destinationAddr, ⟨t.protocol⟩,
        t.sourcePort, t.destinationPort, false⟩ .outgoing rfl
    · rintro h hd direction rfl
      rwa [hd.flowKey_v4]
  | v6 t =>
    constructor
    · intro h
      exact h ⟨.replicate 16 0, .replicate 16 0, t.sourceAddr, t.destinationAddr, ⟨t.protocol⟩,
        t.sourcePort, t.destinationPort, false⟩ .outgoing rfl
    · rintro h hd direction rfl
      rwa [hd.flowKey_v6]

/-! ## What a request changes -/

def Accepted (a : Option Response × Maps) : Prop := a.1.map Response.status = some .OK

/-- An accepted answer comes from the handler. -/
theorem answer_accepted {α : Type} {payload : Option α} {handler : α → Maps → Response × Maps}
    {m : Maps} (h : Accepted (answer payload handler m)) :
    ∃ p, payload = some p ∧ (handler p m).1.status = .OK ∧
      (answer payload handler m).2 = (handler p m).2 := by
  cases payload with
  | none => simp [Accepted, answer] at h
  | some p => exact ⟨p, rfl, by simpa [Accepted, answer] using h, rfl⟩

def decodeKey : Family → Json → Option FlowKey
  | .v4, j => (decodeIpv4Packet j).map .v4
  | .v6, j => (decodeIpv6Packet j).map .v6

section Handlers

variable {κ ν : Type} [DecidableEq κ]

theorem modifyMap_ok {ref : MapRef κ ν} {message : String} {session : Option CallerContext}
    {insertFails : Bool} {payload : Update κ ν} {m : Maps}
    (h : (modifyMap ref message session insertFails payload m).1.status = .OK) :
    (modifyMap ref message session insertFails payload m).2 =
      ref.set m ((ref.get m).insert payload.key payload.state) := by
  unfold modifyMap at h ⊢
  obtain ⟨caller, heq⟩ := withPermission_admitted (h.trans_ne (by decide))
  rw [heq] at h ⊢
  cases insertFails with
  | true => simp at h
  | false => rfl

theorem clearMap_ok {ref : MapRef κ ν} {session : Option CallerContext} {yielded : List κ}
    {key : κ} {m : Maps} (h : (clearMap ref session yielded (some key) m).1.status = .OK) :
    (clearMap ref session yielded (some key) m).2 = ref.set m ((ref.get m).remove key) := by
  unfold clearMap at h ⊢
  obtain ⟨caller, heq⟩ := withPermission_admitted (h.trans_ne (by decide))
  rw [heq]

/-- A POST stores the state that it asks for under the key that it decodes. -/
theorem post_find {ref : MapRef κ ν} {message : String} {decode : Json → Option κ}
    {decodeState : Json → Option ν} {r : FlowRequest} {m : Maps} {j : Json} {found : Found}
    (hj : r.keyJson = some j) (hasks : r.asks = some found) (h : Accepted (serve r m))
    (hm : r.method = .POST)
    (hdecode : decodeKey r.family j = (decode j).map ref.flowKey)
    (hstate : r.asks = (r.body.bind (required decodeState ⟨"state", 1⟩)).map
      fun state => ref.found (some state))
    (hserve : serve r m =
      answer (extractJson (decodeUpdate decode decodeState) r.contentType r.body)
        (modifyMap ref message r.session r.insertFails) m) :
    ∃ key, decodeKey r.family j = some key ∧
      ∀ k, ref.table.find (serve r m).2 k = if k = key then found else ref.table.find m k := by
  rw [hserve] at h ⊢
  obtain ⟨payload, hpayload, hstatus, heq⟩ := answer_accepted h
  have hjson : r.contentType = .json := by
    cases hc : r.contentType <;> simp [hc, extractJson] at hpayload ⊢
  simp only [hjson, extractJson] at hpayload
  simp only [FlowRequest.keyJson, hjson, hm] at hj
  obtain ⟨b, hb, hupdate⟩ := Option.bind_eq_some_iff.mp hpayload
  obtain ⟨hkey, hread⟩ := decodeUpdate_eq_some hupdate
  rw [hb, Option.bind_some] at hj
  obtain ⟨v, hv, hvj⟩ := required_eq_some_iff.mp hj
  cases hvj
  rw [required_of_values hv] at hkey
  rw [hasks, hb, Option.bind_some, hread] at hstate
  obtain rfl : found = ref.found (some payload.state) := Option.some.inj hstate
  refine ⟨ref.flowKey payload.key, by rw [hdecode, hkey, Option.map_some], fun k => ?_⟩
  rw [heq, modifyMap_ok hstatus]
  exact ref.find_update m payload.key (some payload.state) k

/-- A DELETE removes the entry under the key that it decodes. -/
theorem delete_find {ref : MapRef κ ν} {decode : Json → Option κ} {yielded : List κ}
    {r : FlowRequest} {m : Maps} {j : Json} {found : Found}
    (hj : r.keyJson = some j) (hasks : r.asks = some found) (h : Accepted (serve r m))
    (hm : r.method = .DELETE)
    (hdecode : decodeKey r.family j = (decode j).map ref.flowKey)
    (hstate : r.asks = some (ref.found none))
    (hserve : serve r m = answer (extractOptionalJson decode r.contentType r.body)
      (clearMap ref r.session yielded) m) :
    ∃ key, decodeKey r.family j = some key ∧
      ∀ k, ref.table.find (serve r m).2 k = if k = key then found else ref.table.find m k := by
  rw [hserve] at h ⊢
  obtain ⟨payload, hpayload, hstatus, heq⟩ := answer_accepted h
  have hjson : r.contentType = .json := by
    cases hc : r.contentType <;> simp [hc, FlowRequest.keyJson] at hj ⊢
  simp only [hjson, extractOptionalJson] at hpayload
  simp only [FlowRequest.keyJson, hjson, hm] at hj
  rw [hj, Option.bind_some] at hpayload
  obtain ⟨key, hkey, rfl⟩ := Option.map_eq_some_iff.mp hpayload
  obtain rfl : found = ref.found none := Option.some.inj (hasks.symm.trans hstate)
  refine ⟨ref.flowKey key, by rw [hdecode, hkey, Option.map_some], fun k => ?_⟩
  rw [heq, clearMap_ok hstatus]
  exact ref.find_update m key none k

end Handlers

/-- An accepted request changes the lookup of one key, the one that it decodes,
into what it asks for. -/
theorem serve_find {r : FlowRequest} {m : Maps} {j : Json} {found : Found}
    (hj : r.keyJson = some j) (hasks : r.asks = some found) (h : Accepted (serve r m)) :
    ∃ key, decodeKey r.family j = some key ∧
      ∀ k, r.table.find (serve r m).2 k = if k = key then found else r.table.find m k := by
  obtain ⟨method, table, family, session, contentType, body, insertFails, yieldedV4, yieldedV6⟩ := r
  cases method with
  | POST =>
    cases table with
    | allowList =>
      cases family with
      | v4 => exact post_find hj hasks h rfl rfl rfl rfl
      | v6 => exact post_find hj hasks h rfl rfl rfl rfl
    | packetCounts =>
      cases family with
      | v4 => exact post_find hj hasks h rfl rfl rfl rfl
      | v6 => exact post_find hj hasks h rfl rfl rfl rfl
  | DELETE =>
    cases table with
    | allowList =>
      cases family with
      | v4 => exact delete_find hj hasks h rfl rfl rfl rfl
      | v6 => exact delete_find hj hasks h rfl rfl rfl rfl
    | packetCounts =>
      cases family with
      | v4 => exact delete_find hj hasks h rfl rfl rfl rfl
      | v6 => exact delete_find hj hasks h rfl rfl rfl rfl

/-! ## One flow, one key -/

theorem decodeKey_spells {r : FlowRequest} {j : Json} {key : FlowKey} {t : Tuple}
    (hj : r.keyJson = some j) (h : decodeKey r.family j = some key) (ht : Spells j r.family t) :
    key = t.key ↔ r.Unpadded := by
  simp only [FlowRequest.Unpadded, hj, Option.some.injEq, forall_eq']
  cases hf : r.family with
  | v4 =>
    rw [hf] at h ht
    obtain ⟨key, hkey, rfl⟩ := Option.map_eq_some_iff.mp h
    cases t with
    | v4 t => simpa [Tuple.key] using decodeIpv4Packet_spells hkey ht
    | v6 t => exact ht.elim
  | v6 =>
    rw [hf] at h ht
    obtain ⟨key, hkey, rfl⟩ := Option.map_eq_some_iff.mp h
    cases t with
    | v4 t => exact ht.elim
    | v6 t => simpa [Tuple.key] using decodeIpv6Packet_spells hkey ht

/-- After an accepted request that names a tuple, the packets of that tuple find
what it asks for exactly if the request gives no padding other than zero, or if
they would have found that anyway. -/
theorem management_finds_iff (r : FlowRequest) (m : Maps) (t : Tuple) (found : Found)
    (hnames : r.Names t) (hasks : r.asks = some found) (h : Accepted (serve r m)) :
    Finds r.table (serve r m).2 t found ↔ r.Unpadded ∨ r.table.find m t.key = found := by
  obtain ⟨j, hj, hspells⟩ := hnames
  obtain ⟨key, hkey, hfind⟩ := serve_find hj hasks h
  rw [finds_iff, hfind, ← decodeKey_spells hj hkey hspells, eq_comm (b := t.key)]
  by_cases hsame : t.key = key <;> simp [hsame]

/-- The key of a frame's tuple is the one that the data plane consults. -/
theorem Finds.ipv4 {nt : NetworkTypes} {table : FlowTable} {m : Maps} {found : Found}
    {ctx : XdpContext} {hd : Headers 4 UInt32} (ht : frameType nt ctx = some .ipv4)
    (hc : m.configuration.protocolAllowed.contains .IPV4 = true)
    (hp : parseIpv4 nt ctx.data = .ok hd)
    (h : Finds table m (.v4 (hd.fiveTuple (m.direction ctx))) found) :
    ∃ q, inspect nt m.toPolicy ctx = .inr q ∧ table.find m q.key = found :=
  ⟨_, inspect_parseIpv4 ht hc hp, h hd (m.direction ctx) rfl⟩

theorem Finds.ipv6 {nt : NetworkTypes} {table : FlowTable} {m : Maps} {found : Found}
    {ctx : XdpContext} {hd : Headers 16 Words} (ht : frameType nt ctx = some .ipv6)
    (hp : parseIpv6 nt ctx.data = .ok hd)
    (h : Finds table m (.v6 (hd.fiveTuple (m.direction ctx))) found) :
    ∃ q, inspect nt m.toPolicy ctx = .inr q ∧ table.find m q.key = found :=
  ⟨_, inspect_parseIpv6 ht hp, h hd (m.direction ctx) rfl⟩

/-- A DNS request of an inside host. -/
def dnsTuple : FiveTuple UInt32 := ⟨0x0A000001, 0x08080808, 5353, 53, 17⟩

def dnsKey (padding : List (String × Json)) : Json :=
  .obj ([("source_addr", .int 0x0A000001), ("destination_addr", .int 0x08080808),
    ("source_port", .int 5353), ("destination_port", .int 53), ("protocol", .int 17)] ++ padding)

/-- An administrator denies the flow. -/
def denyDns (padding : List (String × Json)) : FlowRequest where
  method := .POST
  table := .allowList
  family := .v4
  session := some .root
  contentType := .json
  body := some (.obj [("key", dnsKey padding),
    ("state", .obj [("action", .str "Deny"), ("last_seen", .int 0)])])
  insertFails := false
  yieldedV4 := []
  yieldedV6 := []

theorem dnsKey_spells : Spells (dnsKey []) .v4 (.v4 dnsTuple) := ⟨⟨rfl, rfl, rfl⟩, rfl, rfl⟩

/-- The packets of the flow find the Deny. -/
theorem dns_denied :
    Finds .allowList (serve (denyDns []) (freshMaps openConfig)).2 (.v4 dnsTuple)
      (.action (some .deny)) := by
  refine (management_finds_iff (denyDns []) (freshMaps openConfig) (.v4 dnsTuple) _
    ⟨dnsKey [], rfl, dnsKey_spells⟩ rfl rfl).mpr (.inl ?_)
  rintro j hj
  cases hj
  exact ⟨fun v hv => by simp [Json.values, dnsKey] at hv,
    fun v hv => by simp [Json.values, dnsKey] at hv⟩

/-- The same request with one byte of padding. -/
def denyPaddedDns : FlowRequest := denyDns [("_pad", .int 1)]

/-- It is accepted, and the Deny is stored under a key that no packet has. -/
theorem padded_dns_not_denied :
    Accepted (serve denyPaddedDns (freshMaps openConfig)) ∧
      denyPaddedDns.Names (.v4 dnsTuple) ∧ denyPaddedDns.asks = some (.action (some .deny)) ∧
      ¬ Finds .allowList (serve denyPaddedDns (freshMaps openConfig)).2 (.v4 dnsTuple)
        (.action (some .deny)) := by
  refine ⟨rfl, ⟨_, rfl, ⟨rfl, rfl, rfl⟩, rfl, rfl⟩, rfl, ?_⟩
  rw [finds_iff]
  decide

end Oxidrop.Management
