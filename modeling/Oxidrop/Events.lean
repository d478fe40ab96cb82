import Oxidrop.Flow
import Oxidrop.Lib.Run

/-!
# Everything that touches the maps

A run of the firewall interleaves packets with the idle cleanup of the control
plane, with writes to one entry or one bucket (an API request, or an eviction),
and with changes of the read-only maps. `handle_cell_cases` says once what such
an event does to the cell of one flow.
-/
namespace Oxidrop

open Run

/-! ## The idle cleanup -/

section Cleanup

variable {κ : Type} [DecidableEq κ]

/-- Ten minutes. -/
def TIMEOUT_NS : UInt64 := 10 * 60 * 1000000000

def expired (now : UInt64) (state : AllowListState) : Bool :=
  TIMEOUT_NS < saturatingSub now state.lastSeen

/-- The keys that the iteration yields and that are idle for too long. -/
def keysToRemove (now : UInt64) (keys : List κ) (map : LruHashMap κ AllowListState) : List κ :=
  keys.filter (fun key => (map key).any (expired now))

def cleanupMap (now : UInt64) (keys : List κ) (map : LruHashMap κ AllowListState) :
    LruHashMap κ AllowListState :=
  (keysToRemove now keys map).foldl LruHashMap.remove map

theorem foldl_remove {ν : Type} (keys : List κ) (map : LruHashMap κ ν) (k : κ) :
    keys.foldl LruHashMap.remove map k = if k ∈ keys then none else map k := by
  induction keys generalizing map with
  | nil => rfl
  | cons key keys ih =>
    rw [List.foldl_cons, ih]
    by_cases hk : k = key <;> simp [LruHashMap.remove, hk]

theorem cleanupMap_apply (now : UInt64) (keys : List κ) (map : LruHashMap κ AllowListState)
    (k : κ) :
    cleanupMap now keys map k =
      if k ∈ keys ∧ (map k).any (expired now) = true then none else map k := by
  simp [cleanupMap, foldl_remove, keysToRemove]

/-- The cleanup of one family drops the entry of a key that it sees idle, and
nothing else. -/
theorem cleanupMap_cell (now : UInt64) (keys : List κ) (s : FlowMaps κ) (k : κ) :
    (k ∈ keys ∧ (s.cell k).entry.any (expired now) = true ∧
      FlowMaps.cell { s with allowList := cleanupMap now keys s.allowList } k =
        { s.cell k with entry := none }) ∨
    (¬ (k ∈ keys ∧ (s.cell k).entry.any (expired now) = true) ∧
      FlowMaps.cell { s with allowList := cleanupMap now keys s.allowList } k = s.cell k) := by
  have h := cleanupMap_apply now keys s.allowList k
  by_cases hidle : k ∈ keys ∧ (s.allowList k).any (expired now) = true
  · rw [if_pos hidle] at h
    exact .inl ⟨hidle.1, hidle.2, by simp only [FlowMaps.cell, h]⟩
  · rw [if_neg hidle] at h
    exact .inr ⟨hidle, by simp only [FlowMaps.cell, h]⟩

end Cleanup

/-! ## Events -/

inductive Event where
  | packet (ctx : XdpContext)
  | cleanup (now : UInt64) (keysV4 : List Ipv4Packet) (keysV6 : List Ipv6Packet)
  | setEntry (key : FlowKey) (entry : Option AllowListState)
  | setBucket (key : FlowKey) (bucket : Option TokenBucketState)
  | setPolicy (policy : Policy)

def cleanupConnections (now : UInt64) (keysV4 : List Ipv4Packet) (keysV6 : List Ipv6Packet)
    (m : Maps) : Maps :=
  { m with
    v4 := { m.v4 with allowList := cleanupMap now keysV4 m.v4.allowList }
    v6 := { m.v6 with allowList := cleanupMap now keysV6 m.v6.allowList } }

/-- Only a packet is answered. -/
def handle (nt : NetworkTypes) : Machine Event Maps (Option Verdict)
  | .packet ctx, m => (some (xdpFirewall nt ctx m).1, (xdpFirewall nt ctx m).2)
  | .cleanup now keysV4 keysV6, m => (none, cleanupConnections now keysV4 keysV6 m)
  | .setEntry key entry, m => (none, m.setCell key { m.cell key with entry := entry })
  | .setBucket key bucket, m => (none, m.setCell key { m.cell key with bucket := bucket })
  | .setPolicy policy, m => (none, { m with toPolicy := policy })

/-- The iteration of a cleanup yields the key. -/
def Yields (keysV4 : List Ipv4Packet) (keysV6 : List Ipv6Packet) : FlowKey → Prop
  | .v4 key => key ∈ keysV4
  | .v6 key => key ∈ keysV6

/-- The cleanup drops the entry of a flow that it sees idle, and nothing else. -/
theorem cleanupConnections_cell (now : UInt64) (keysV4 : List Ipv4Packet)
    (keysV6 : List Ipv6Packet) (m : Maps) (k : FlowKey) :
    (Yields keysV4 keysV6 k ∧ (m.cell k).entry.any (expired now) = true ∧
      (cleanupConnections now keysV4 keysV6 m).cell k = { m.cell k with entry := none }) ∨
    (¬ (Yields keysV4 keysV6 k ∧ (m.cell k).entry.any (expired now) = true) ∧
      (cleanupConnections now keysV4 keysV6 m).cell k = m.cell k) := by
  cases k with
  | v4 key => exact cleanupMap_cell now keysV4 m.v4 key
  | v6 key => exact cleanupMap_cell now keysV6 m.v6 key

/-- What an event does to the cell of flow `k`. -/
theorem handle_cell_cases (nt : NetworkTypes) (e : Event) (m : Maps) (k : FlowKey) :
    (∃ ctx q, e = .packet ctx ∧ inspect nt m.toPolicy ctx = .inr q ∧ q.key = k ∧
      (handle nt e m).2.cell k = (cellStep m.configuration q (m.cell k)).2) ∨
    (∃ now keysV4 keysV6, e = .cleanup now keysV4 keysV6 ∧ Yields keysV4 keysV6 k ∧
      (m.cell k).entry.any (expired now) = true ∧
      (handle nt e m).2.cell k = { m.cell k with entry := none }) ∨
    (∃ entry, e = .setEntry k entry ∧
      (handle nt e m).2.cell k = { m.cell k with entry := entry }) ∨
    (∃ bucket, e = .setBucket k bucket ∧
      (handle nt e m).2.cell k = { m.cell k with bucket := bucket }) ∨
    (handle nt e m).2.cell k = m.cell k := by
  cases e with
  | packet ctx =>
    rcases xdpFirewall_cell nt ctx m k with ⟨q, hi, hk, -, hcell⟩ | ⟨-, hcell⟩
    · exact .inl ⟨ctx, q, rfl, hi, hk, hcell⟩
    · exact .inr (.inr (.inr (.inr hcell)))
  | cleanup now keysV4 keysV6 =>
    rcases cleanupConnections_cell now keysV4 keysV6 m k with ⟨hy, hx, hcell⟩ | ⟨-, hcell⟩
    · exact .inr (.inl ⟨now, keysV4, keysV6, rfl, hy, hx, hcell⟩)
    · exact .inr (.inr (.inr (.inr hcell)))
  | setEntry key entry =>
    by_cases hk : k = key
    · subst hk
      exact .inr (.inr (.inl ⟨entry, rfl, Maps.cell_setCell_self m k _⟩))
    · exact .inr (.inr (.inr (.inr (Maps.cell_setCell_of_ne m _ hk))))
  | setBucket key bucket =>
    by_cases hk : k = key
    · subst hk
      exact .inr (.inr (.inr (.inl ⟨bucket, rfl, Maps.cell_setCell_self m k _⟩)))
    · exact .inr (.inr (.inr (.inr (Maps.cell_setCell_of_ne m _ hk))))
  | setPolicy policy =>
    have : (handle nt (.setPolicy policy) m).2.cell k = m.cell k := by cases k <;> rfl
    exact .inr (.inr (.inr (.inr this)))

/-! ## Runs of packets -/

/-- The frame as a packet of flow `k`. -/
def packetOf (nt : NetworkTypes) (p : Policy) (k : FlowKey) (ctx : XdpContext) :
    Option FlowPacket :=
  match inspect nt p ctx with
  | .inl _ => none
  | .inr q => if q.key = k then some q else none

theorem packetOf_eq_some_iff {nt : NetworkTypes} {p : Policy} {k : FlowKey} {ctx : XdpContext}
    {q : FlowPacket} : packetOf nt p k ctx = some q ↔ inspect nt p ctx = .inr q ∧ q.key = k := by
  unfold packetOf
  cases hi : inspect nt p ctx with
  | inl verdict => simp
  | inr q' =>
    by_cases hk : q'.key = k
    · simp only [hk, if_true, Option.some.injEq, Sum.inr.injEq]
      exact ⟨fun h => ⟨h, by rw [← h, hk]⟩, fun h => h.1⟩
    · simp only [hk, if_false, reduceCtorEq, Sum.inr.injEq, false_iff, not_and]
      rintro rfl
      exact hk

theorem packetOf_eq_none {nt : NetworkTypes} {p : Policy} {k : FlowKey} {ctx : XdpContext}
    (h : ∀ q, inspect nt p ctx = .inr q → q.key ≠ k) : packetOf nt p k ctx = none := by
  cases hq : packetOf nt p k ctx with
  | none => rfl
  | some q =>
    obtain ⟨hi, hk⟩ := packetOf_eq_some_iff.mp hq
    exact absurd hk (h q hi)

/-- In a run of packets the cell of a flow takes the automaton's steps for the
packets of that flow, in their order. -/
theorem run_packets_cell (nt : NetworkTypes) (m : Maps) (k : FlowKey) (frames : List XdpContext) :
    (run (handle nt) m (frames.map .packet)).cell k =
      (frames.filterMap (packetOf nt m.toPolicy k)).foldl
        (fun c q => (cellStep m.configuration q c).2) (m.cell k) := by
  induction frames generalizing m with
  | nil => rfl
  | cons ctx frames ih =>
    have hp : (handle nt (.packet ctx) m).2.toPolicy = m.toPolicy := xdpFirewall_toPolicy nt ctx m
    rw [List.map_cons, run_cons, ih, hp]
    rcases xdpFirewall_cell nt ctx m k with ⟨q, hi, hk, -, hcell⟩ | ⟨hnone, hcell⟩
    · have hq : packetOf nt m.toPolicy k ctx = some q := packetOf_eq_some_iff.mpr ⟨hi, hk⟩
      simp only [handle, hcell, List.filterMap_cons, hq, List.foldl_cons]
    · simp only [handle, hcell, List.filterMap_cons, packetOf_eq_none hnone]

/-- The event leaves the read-only maps alone. -/
def Event.KeepsPolicy : Event → Prop
  | .setPolicy _ => False
  | _ => True

theorem handle_toPolicy (nt : NetworkTypes) (e : Event) (m : Maps) (h : e.KeepsPolicy) :
    (handle nt e m).2.toPolicy = m.toPolicy := by
  cases e with
  | packet ctx => exact xdpFirewall_toPolicy nt ctx m
  | cleanup => rfl
  | setEntry => exact Maps.setCell_toPolicy m _ _
  | setBucket => exact Maps.setCell_toPolicy m _ _
  | setPolicy => exact h.elim

theorem run_toPolicy (nt : NetworkTypes) (m : Maps) (es : List Event)
    (h : ∀ e ∈ es, e.KeepsPolicy) : (run (handle nt) m es).toPolicy = m.toPolicy := by
  induction es generalizing m with
  | nil => rfl
  | cons e es ih =>
    rw [run_cons, ih _ (fun f hf => h f (by simp [hf])), handle_toPolicy nt e m (h e (by simp))]

theorem keepsPolicy_packets (frames : List XdpContext) :
    ∀ e ∈ frames.map Event.packet, e.KeepsPolicy := by
  intro e he
  obtain ⟨ctx, -, rfl⟩ := List.mem_map.mp he
  trivial

end Oxidrop
