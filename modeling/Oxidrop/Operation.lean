import Oxidrop.Management
import Oxidrop.Metering
import Oxidrop.Startup

/-!
# The firewall in operation

From its start on the firewall interleaves packets, requests, the cleanup task and
evictions on one state. What an event can do to the configuration and to a bucket is
said once.
-/
namespace Oxidrop.Operation

open Run RateLimit Metering Management Serde

inductive Occurrence where
  | packet (ctx : XdpContext)
  | updateConfig (session : Option CallerContext) (patch : ConfigPatch)
      (outcomes : AttachOutcomes) (faults : ConfigFaults)
  | flowRequest (request : FlowRequest)
  | cleanup (now : UInt64) (keysV4 : List Ipv4Packet) (keysV6 : List Ipv6Packet)
  | evict (table : FlowTable) (key : FlowKey)

/-- The stores of `updateConfig`. -/
def configState (s : FirewallState) : ConfigState := ⟨s.maps.config, s.row, some s.ebpf⟩

def setConfigState (s : FirewallState) (c : ConfigState) : FirewallState where
  maps := { s.maps with config := c.config }
  row := c.row
  ebpf := c.ebpf.getD s.ebpf

def evicted (table : FlowTable) (c : Cell) : Cell :=
  match table with
  | .allowList => { c with entry := none }
  | .packetCounts => { c with bucket := none }

/-- A packet is answered by a verdict and a request by a response, which is the
framework's own for a body that its extractor rejects. -/
def operate (nt : NetworkTypes) :
    Machine Occurrence FirewallState (Option (Verdict ⊕ Option Response))
  | .packet ctx, s =>
    (some (.inl (xdpFirewall nt ctx s.maps).1), { s with maps := (xdpFirewall nt ctx s.maps).2 })
  | .updateConfig session patch outcomes faults, s =>
    let r := updateConfig session patch outcomes faults (configState s)
    (some (.inr (some r.1)), setConfigState s r.2)
  | .flowRequest request, s =>
    (some (.inr (serve request s.maps).1), { s with maps := (serve request s.maps).2 })
  | .cleanup now keysV4 keysV6, s =>
    (none, { s with maps := cleanupConnections now keysV4 keysV6 s.maps })
  | .evict table key, s =>
    (none, { s with maps := s.maps.setCell key (evicted table (s.maps.cell key)) })

theorem operate_flowRequest (nt : NetworkTypes) (r : FlowRequest) (s : FirewallState) :
    (operate nt (.flowRequest r) s).2.maps = (serve r s.maps).2 := rfl

/-! ## What a request does to the flow maps -/

section Handlers

variable {κ ν : Type} [DecidableEq κ]

/-- A POST stores its state under its key or changes nothing. -/
theorem post_maps (ref : MapRef κ ν) (message : String) (session : Option CallerContext)
    (insertFails : Bool) (payload : Option (Update κ ν)) (m : Maps) :
    (answer payload (modifyMap ref message session insertFails) m).2 = m ∨
      ∃ p, payload = some p ∧ (answer payload (modifyMap ref message session insertFails) m).2 =
        ref.set m ((ref.get m).insert p.key p.state) := by
  cases payload with
  | none => exact .inl rfl
  | some p =>
    simp only [answer, modifyMap]
    rcases withPermission_cases session .MODIFY _ m with ⟨-, heq⟩ | ⟨caller, -, -, heq⟩
    · rw [heq]
      exact .inl rfl
    · rw [heq]
      cases insertFails with
      | true => exact .inl rfl
      | false => exact .inr ⟨p, rfl, rfl⟩

/-- A DELETE removes keys or changes nothing. -/
theorem delete_maps (ref : MapRef κ ν) (session : Option CallerContext) (yielded : List κ)
    (payload : Option (Option κ)) (m : Maps) :
    (answer payload (clearMap ref session yielded) m).2 = m ∨
      ∃ keys : List κ, (answer payload (clearMap ref session yielded) m).2 =
        ref.set m (keys.foldl LruHashMap.remove (ref.get m)) := by
  cases payload with
  | none => exact .inl rfl
  | some payload =>
    simp only [answer, clearMap]
    rcases withPermission_cases session .DELETE _ m with ⟨-, heq⟩ | ⟨caller, -, -, heq⟩
    · rw [heq]
      exact .inl rfl
    · rw [heq]
      cases payload with
      | some key => exact .inr ⟨[key], rfl⟩
      | none => exact .inr ⟨yielded, rfl⟩

/-- What no write to the map changes, no request for it changes. -/
theorem request_frame {α : Type} (ref : MapRef κ ν) (π : Maps → α)
    (hset : ∀ m map, π (ref.set m map) = π m) (m : Maps) :
    (∀ message session insertFails payload,
      π (answer payload (modifyMap ref message session insertFails) m).2 = π m) ∧
    (∀ session yielded payload, π (answer payload (clearMap ref session yielded) m).2 = π m) := by
  constructor
  · intro message session insertFails payload
    rcases post_maps ref message session insertFails payload m with heq | ⟨p, -, heq⟩
    · rw [heq]
    · rw [heq, hset]
  · intro session yielded payload
    rcases delete_maps ref session yielded payload m with heq | ⟨keys, heq⟩
    · rw [heq]
    · rw [heq, hset]

/-- The map is where the buckets of its flows are. -/
def HoldsBuckets (ref : MapRef κ TokenBucketState) : Prop :=
  ∀ m map k, ((ref.set m map).cell k).bucket = (m.cell k).bucket ∨
    ∃ key, ((ref.set m map).cell k).bucket = map key ∧ (m.cell k).bucket = ref.get m key

/-- Buckets that are not changed in the map are not changed for their flows. -/
theorem HoldsBuckets.set_cases {ref : MapRef κ TokenBucketState} (href : HoldsBuckets ref)
    {P : Option TokenBucketState → Prop} {m : Maps} {map : LruHashMap κ TokenBucketState}
    (hmap : ∀ key, map key = ref.get m key ∨ P (map key)) (k : FlowKey) :
    ((ref.set m map).cell k).bucket = (m.cell k).bucket ∨ P ((ref.set m map).cell k).bucket := by
  rcases href m map k with heq | ⟨key, hnew, hold⟩
  · exact .inl heq
  · rw [hnew, hold]
    exact hmap key

theorem post_bucket {ref : MapRef κ TokenBucketState} (href : HoldsBuckets ref)
    {decodeKey : Json → Option κ} (message : String) (session : Option CallerContext)
    (insertFails : Bool) (contentType : ContentType) (body : Option Json) (m : Maps)
    (k : FlowKey) :
    let m' := (answer (extractJson (decodeUpdate decodeKey decodeTokenBucketState) contentType body)
      (modifyMap ref message session insertFails) m).2
    (m'.cell k).bucket = (m.cell k).bucket ∨
      ∃ b, body.bind (required decodeTokenBucketState ⟨"state", 1⟩) = some b ∧
        (m'.cell k).bucket = some b := by
  intro m'
  rcases post_maps ref message session insertFails
      (extractJson (decodeUpdate decodeKey decodeTokenBucketState) contentType body) m with
    heq | ⟨p, hp, heq⟩
  · exact .inl (by simp only [m', heq])
  · have hstate : body.bind (required decodeTokenBucketState ⟨"state", 1⟩) = some p.state := by
      cases contentType with
      | json =>
        obtain ⟨j, hj, hupdate⟩ := Option.bind_eq_some_iff.mp hp
        rw [hj, Option.bind_some]
        exact (decodeUpdate_eq_some hupdate).2
      | _ => cases hp
    simp only [m', heq]
    refine (href.set_cases (P := fun o => o = some p.state) ?_ k).imp_right
      fun h => ⟨p.state, hstate, h⟩
    intro key
    by_cases hkey : key = p.key <;> simp [LruHashMap.insert, hkey]

theorem delete_bucket {ref : MapRef κ TokenBucketState} (href : HoldsBuckets ref)
    (session : Option CallerContext) (yielded : List κ) (payload : Option (Option κ)) (m : Maps)
    (k : FlowKey) :
    let m' := (answer payload (clearMap ref session yielded) m).2
    (m'.cell k).bucket = (m.cell k).bucket ∨ (m'.cell k).bucket = none := by
  intro m'
  rcases delete_maps ref session yielded payload m with heq | ⟨keys, heq⟩
  · exact .inl (by simp only [m', heq])
  · simp only [m', heq]
    refine href.set_cases (P := fun o => o = none) ?_ k
    intro key
    rw [foldl_remove]
    by_cases hkey : key ∈ keys <;> simp [hkey]

end Handlers

theorem packetCountsV4_holds : HoldsBuckets packetCountsV4 := by
  intro m map k
  cases k with
  | v4 key => exact .inr ⟨key, rfl, rfl⟩
  | v6 key => exact .inl rfl

theorem packetCountsV6_holds : HoldsBuckets packetCountsV6 := by
  intro m map k
  cases k with
  | v4 key => exact .inl rfl
  | v6 key => exact .inr ⟨key, rfl, rfl⟩

/-- No request for a flow map changes the read-only maps. -/
theorem serve_toPolicy (r : FlowRequest) (m : Maps) : (serve r m).2.toPolicy = m.toPolicy := by
  obtain ⟨method, table, family, session, contentType, body, insertFails, yieldedV4, yieldedV6⟩ := r
  cases method with
  | POST =>
    cases table <;> cases family
    · exact (request_frame allowListV4 Maps.toPolicy (fun _ _ => rfl) m).1 _ _ _ _
    · exact (request_frame allowListV6 Maps.toPolicy (fun _ _ => rfl) m).1 _ _ _ _
    · exact (request_frame packetCountsV4 Maps.toPolicy (fun _ _ => rfl) m).1 _ _ _ _
    · exact (request_frame packetCountsV6 Maps.toPolicy (fun _ _ => rfl) m).1 _ _ _ _
  | DELETE =>
    cases table <;> cases family
    · exact (request_frame allowListV4 Maps.toPolicy (fun _ _ => rfl) m).2 _ _ _
    · exact (request_frame allowListV6 Maps.toPolicy (fun _ _ => rfl) m).2 _ _ _
    · exact (request_frame packetCountsV4 Maps.toPolicy (fun _ _ => rfl) m).2 _ _ _
    · exact (request_frame packetCountsV6 Maps.toPolicy (fun _ _ => rfl) m).2 _ _ _

/-- A request leaves a bucket, removes it, or puts there what it asks for. -/
theorem serve_bucket (r : FlowRequest) (m : Maps) (k : FlowKey) :
    ((serve r m).2.cell k).bucket = (m.cell k).bucket ∨ ((serve r m).2.cell k).bucket = none ∨
      ∃ b, r.asks = some (.bucket (some b)) ∧ ((serve r m).2.cell k).bucket = some b := by
  obtain ⟨method, table, family, session, contentType, body, insertFails, yieldedV4, yieldedV6⟩ := r
  cases table with
  | allowList =>
    left
    have hV4 : ∀ (m : Maps) map,
        ((allowListV4.set m map).cell k).bucket = (m.cell k).bucket := by
      intro m map
      cases k <;> rfl
    have hV6 : ∀ (m : Maps) map,
        ((allowListV6.set m map).cell k).bucket = (m.cell k).bucket := by
      intro m map
      cases k <;> rfl
    cases method <;> cases family
    · exact (request_frame allowListV4 (fun m => (m.cell k).bucket) hV4 m).1 _ _ _ _
    · exact (request_frame allowListV6 (fun m => (m.cell k).bucket) hV6 m).1 _ _ _ _
    · exact (request_frame allowListV4 (fun m => (m.cell k).bucket) hV4 m).2 _ _ _
    · exact (request_frame allowListV6 (fun m => (m.cell k).bucket) hV6 m).2 _ _ _
  | packetCounts =>
    have hasked : ∀ {o : Option TokenBucketState},
        (o = (m.cell k).bucket ∨
          ∃ b, body.bind (required decodeTokenBucketState ⟨"state", 1⟩) = some b ∧ o = some b) →
        o = (m.cell k).bucket ∨ o = none ∨
          ∃ b, ((body.bind (required decodeTokenBucketState ⟨"state", 1⟩)).map
            fun state => Found.bucket (some state)) = some (.bucket (some b)) ∧ o = some b := by
      rintro o (heq | ⟨b, hb, heq⟩)
      · exact .inl heq
      · exact .inr (.inr ⟨b, by rw [hb, Option.map_some], heq⟩)
    have hremoved : ∀ {o : Option TokenBucketState} {asks : Option Found},
        (o = (m.cell k).bucket ∨ o = none) →
        o = (m.cell k).bucket ∨ o = none ∨ ∃ b, asks = some (.bucket (some b)) ∧ o = some b :=
      fun h => h.imp_right .inl
    cases method <;> cases family
    · exact hasked (post_bucket packetCountsV4_holds _ _ _ _ _ m k)
    · exact hasked (post_bucket packetCountsV6_holds _ _ _ _ _ m k)
    · exact hremoved (delete_bucket packetCountsV4_holds _ _ _ m k)
    · exact hremoved (delete_bucket packetCountsV6_holds _ _ _ m k)

/-! ## What an event does -/

/-- The configuration changes by an update only. -/
theorem operate_config (nt : NetworkTypes) (e : Occurrence) (s : FirewallState) :
    (operate nt e s).2.maps.config = s.maps.config ∨
    ∃ session patch outcomes faults old, e = .updateConfig session patch outcomes faults ∧
      s.maps.config = some old ∧ patch.validate = .ok () ∧
      ((operate nt e s).2.maps.config = some (patch.apply old) ∨
        (operate nt e s).2.maps.config = some (clearAdapters (patch.apply old))) := by
  cases e with
  | packet ctx => exact .inl (congrArg Policy.config (xdpFirewall_toPolicy nt ctx s.maps))
  | updateConfig session patch outcomes faults =>
    rcases updateConfig_cases session patch outcomes faults (configState s) with
      ⟨-, heq⟩ | ⟨old, hold, hvalid, heq | ⟨-, heq⟩⟩
    · exact .inl heq
    · exact .inr ⟨session, patch, outcomes, faults, old, rfl, hold, hvalid, .inl heq⟩
    · exact .inr ⟨session, patch, outcomes, faults, old, rfl, hold, hvalid, .inr heq⟩
  | flowRequest r => exact .inl (congrArg Policy.config (serve_toPolicy r s.maps))
  | cleanup now keysV4 keysV6 => exact .inl rfl
  | evict table key => exact .inl (congrArg Policy.config (Maps.setCell_toPolicy s.maps _ _))

/-- A bucket changes by a packet that evaluates it and by a request that asks for
another one. Everything else leaves it or removes it. -/
theorem operate_bucket (nt : NetworkTypes) (e : Occurrence) (s : FirewallState) (k : FlowKey) :
    ((operate nt e s).2.maps.cell k).bucket = (s.maps.cell k).bucket ∨
    ((operate nt e s).2.maps.cell k).bucket = none ∨
    (∃ r b, e = .flowRequest r ∧ r.asks = some (.bucket (some b)) ∧
      ((operate nt e s).2.maps.cell k).bucket = some b) ∨
    ∃ ctx q, e = .packet ctx ∧ inspect nt s.maps.toPolicy ctx = .inr q ∧ q.key = k ∧
      Evaluates s.maps.configuration q (s.maps.cell k) ∧
      ((operate nt e s).2.maps.cell k).bucket =
        some (meter q.profile q.ktimeBucket (fetchBucket q (s.maps.cell k).bucket)).2 := by
  cases e with
  | packet ctx =>
    rcases xdpFirewall_cell nt ctx s.maps k with ⟨q, hi, hq, -, hcell⟩ | ⟨-, hcell⟩
    · simp only [operate, hcell]
      rcases cellStep_bucket s.maps.configuration q (s.maps.cell k) with
        ⟨hev, hb⟩ | ⟨-, hb | hb⟩
      · exact .inr (.inr (.inr ⟨ctx, q, rfl, hi, hq, hev, hb⟩))
      · exact .inl hb
      · exact .inr (.inl hb)
    · exact .inl (congrArg Cell.bucket hcell)
  | updateConfig session patch outcomes faults =>
    left
    cases k <;> rfl
  | flowRequest r =>
    rcases serve_bucket r s.maps k with heq | heq | ⟨b, hasks, heq⟩
    · exact .inl heq
    · exact .inr (.inl heq)
    · exact .inr (.inr (.inl ⟨r, b, rfl, hasks, heq⟩))
  | cleanup now keysV4 keysV6 =>
    left
    rcases cleanupConnections_cell now keysV4 keysV6 s.maps k with ⟨-, -, heq⟩ | ⟨-, heq⟩
    · simp only [operate, heq]
    · simp only [operate, heq]
  | evict table key =>
    by_cases hk : k = key
    · subst hk
      simp only [operate, Maps.cell_setCell_self]
      cases table with
      | allowList => exact .inl rfl
      | packetCounts => exact .inr (.inl rfl)
    · exact .inl (congrArg Cell.bucket (Maps.cell_setCell_of_ne s.maps _ hk))

end Oxidrop.Operation
