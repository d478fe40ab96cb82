import Oxidrop.Config
import Oxidrop.Flow
import Oxidrop.Subnet

/-!
# Starting the control plane

`main` fills the read-only maps before it serves a request: the tries from the
subnet tables, and CONFIG from its row, or else from the defaults and the command
line. Every encoding into the row is checked again when the row is read.
-/
namespace Oxidrop

/-! ## Loading the configuration -/

/-- `u64::try_from`. -/
def u64TryFrom (value : Int) : Option UInt64 :=
  if 0 ≤ value ∧ value ≤ 0xFFFFFFFFFFFFFFFF then some (UInt64.ofNat value.toNat) else none

/-- `u16::try_from`. -/
def u16TryFrom (value : Int) : Option UInt16 :=
  if 0 ≤ value ∧ value ≤ 0xFFFF then some (UInt16.ofNat value.toNat) else none

theorem u64TryFrom_toNat (w : UInt64) : u64TryFrom (w.toNat : Int) = some w := by
  have hw := w.toNat_lt
  rw [u64TryFrom, if_pos (by omega)]
  simp

theorem u16TryFrom_toNat (w : UInt16) : u16TryFrom (w.toNat : Int) = some w := by
  have hw := w.toNat_lt
  rw [u16TryFrom, if_pos (by omega)]
  simp

/-- The error of the closure `invalid`. -/
def orInvalid {α : Type} (field : String) : Option α → Except SqlxError α
  | some a => .ok a
  | none => .error (.decode ("invalid firewall_config." ++ field))

theorem orInvalid_eq_ok {α : Type} {field : String} {o : Option α} {a : α} :
    orInvalid field o = .ok a ↔ o = some a := by
  cases o <;> simp [orInvalid]

/-- The closure `rate_shift`. -/
def loadRateShift (value : Int) (field : String) : Except SqlxError UInt64 :=
  orInvalid field ((u64TryFrom value).filter (fun value => value ≤ 63))

/-- The closure `burst`. -/
def loadBurst (value : Int) (field : String) : Except SqlxError UInt64 :=
  orInvalid field (u64TryFrom value)

/-- The closure `adapter`. -/
def loadAdapter (value : Option Int) (field : String) : Except SqlxError (Option UInt32) :=
  match value with
  | none => .ok none
  | some value => (orInvalid field (u32TryFrom value)).map some

def loadProfile (rateShift burst : Int) (name : String) : Except SqlxError RateProfile := do
  let rateShift ← loadRateShift rateShift (name ++ "_rate_shift")
  let burst ← loadBurst burst (name ++ "_burst")
  return ⟨rateShift, burst⟩

/-- The configuration of a row, in the order in which the source checks its
columns. -/
def FirewallConfigRow.decode (row : FirewallConfigRow) : Except SqlxError FirewallConfig := do
  let protocolAllowed ← orInvalid "protocol_allowed"
    ((u16TryFrom row.protocolAllowed).bind ActivaterEtherTypes.fromBits)
  let tcpProfile ← loadProfile row.tcpRateShift row.tcpBurst "tcp"
  let udpProfile ← loadProfile row.udpRateShift row.udpBurst "udp"
  let icmpProfile ← loadProfile row.icmpRateShift row.icmpBurst "icmp"
  let defaultProfile ← loadProfile row.defaultRateShift row.defaultBurst "default"
  let incomingEthernetAdapter ←
    loadAdapter row.incomingEthernetAdapter "incoming_ethernet_adapter"
  let outputEthernetAdapter ← loadAdapter row.outputEthernetAdapter "output_ethernet_adapter"
  return {
    tcpProfile, udpProfile, icmpProfile, defaultProfile, protocolAllowed
    ddosActivated := row.ddosActivated
    subnetActivated := row.subnetActivated
    incomingEthernetAdapter, outputEthernetAdapter }

/-- The row with id 1, and whether the query fails. -/
def loadFirewallConfig (fails : Bool) (row : Option FirewallConfigRow) :
    Except SqlxError (Option FirewallConfig) :=
  if fails then .error .statement
  else
    match row with
    | none => .ok none
    | some row => row.decode.map some

/-! ## What a row decodes to -/

theorem loadProfile_eq_ok {rateShift burst : Int} {name : String} {profile : RateProfile} :
    loadProfile rateShift burst name = .ok profile ↔
      u64TryFrom rateShift = some profile.rateShift ∧ profile.rateShift ≤ 63 ∧
        u64TryFrom burst = some profile.burst := by
  obtain ⟨s, b⟩ := profile
  simp only [loadProfile, loadRateShift, loadBurst, except_bind_eq_ok, orInvalid_eq_ok,
    Option.filter_eq_some_iff, decide_eq_true_eq, pure, Except.pure, Except.ok.injEq,
    RateProfile.mk.injEq]
  constructor
  · rintro ⟨s', ⟨hs, hle⟩, b', hb, rfl, rfl⟩
    exact ⟨hs, hle, hb⟩
  · rintro ⟨hs, hle, hb⟩
    exact ⟨s, ⟨hs, hle⟩, b, hb, rfl, rfl⟩

/-- A row decodes column by column. -/
theorem FirewallConfigRow.decode_eq_ok {row : FirewallConfigRow} {config : FirewallConfig} :
    row.decode = .ok config ↔
      (u16TryFrom row.protocolAllowed).bind ActivaterEtherTypes.fromBits =
          some config.protocolAllowed ∧
        loadProfile row.tcpRateShift row.tcpBurst "tcp" = .ok config.tcpProfile ∧
        loadProfile row.udpRateShift row.udpBurst "udp" = .ok config.udpProfile ∧
        loadProfile row.icmpRateShift row.icmpBurst "icmp" = .ok config.icmpProfile ∧
        loadProfile row.defaultRateShift row.defaultBurst "default" = .ok config.defaultProfile ∧
        loadAdapter row.incomingEthernetAdapter "incoming_ethernet_adapter" =
          .ok config.incomingEthernetAdapter ∧
        loadAdapter row.outputEthernetAdapter "output_ethernet_adapter" =
          .ok config.outputEthernetAdapter ∧
        row.ddosActivated = config.ddosActivated ∧
        row.subnetActivated = config.subnetActivated := by
  simp only [decode, except_bind_eq_ok, orInvalid_eq_ok, pure, Except.pure, Except.ok.injEq]
  constructor
  · rintro ⟨allowed, ha, tcp, ht, udp, hu, icmp, hi, default, hd, incoming, hin, output, hout, rfl⟩
    exact ⟨ha, ht, hu, hi, hd, hin, hout, rfl, rfl⟩
  · rintro ⟨ha, ht, hu, hi, hd, hin, hout, hddos, hsubnet⟩
    refine ⟨_, ha, _, ht, _, hu, _, hi, _, hd, _, hin, _, hout, ?_⟩
    rw [hddos, hsubnet]

/-- A loaded configuration has no shift that a 64-bit word does not have. -/
theorem decode_rateShift_le {row : FirewallConfigRow} {config : FirewallConfig}
    (h : row.decode = .ok config) : ∀ profile ∈ config.profiles, profile.rateShift ≤ 63 := by
  obtain ⟨-, ht, hu, hi, hd, -⟩ := FirewallConfigRow.decode_eq_ok.mp h
  intro profile hp
  simp only [FirewallConfig.profiles, List.mem_cons, List.not_mem_nil, or_false] at hp
  rcases hp with rfl | rfl | rfl | rfl
  · exact (loadProfile_eq_ok.mp ht).2.1
  · exact (loadProfile_eq_ok.mp hu).2.1
  · exact (loadProfile_eq_ok.mp hi).2.1
  · exact (loadProfile_eq_ok.mp hd).2.1

theorem loadAdapter_saved (adapter : Option UInt32) (field : String) :
    loadAdapter (adapter.map (fun index => (index.toNat : Int))) field = .ok adapter := by
  cases adapter with
  | none => rfl
  | some index => simp [loadAdapter, u32TryFrom_toNat, orInvalid, Except.map]

/-- What has been saved is loaded again, if its shifts and protocols are admissible. -/
theorem decode_saved {config : FirewallConfig} {row : FirewallConfigRow}
    (h : firewallConfigRow config = .ok row)
    (hshift : ∀ profile ∈ config.profiles, profile.rateShift ≤ 63)
    (hbits : ActivaterEtherTypes.fromBits config.protocolAllowed.bits =
      some config.protocolAllowed) : row.decode = .ok config := by
  have hfits := (firewallConfigRow_ok_iff config).mp ⟨row, h⟩
  cases h.symm.trans (firewallConfigRow_fits hfits)
  have hprofile : ∀ profile ∈ config.profiles, ∀ name : String,
      loadProfile profile.rateShift.toNat profile.burst.toNat name = .ok profile :=
    fun profile hp name =>
      loadProfile_eq_ok.mpr ⟨u64TryFrom_toNat _, hshift profile hp, u64TryFrom_toNat _⟩
  refine FirewallConfigRow.decode_eq_ok.mpr ⟨?_, ?_, ?_, ?_, ?_, ?_, ?_, rfl, rfl⟩
  · rw [u16TryFrom_toNat]
    exact hbits
  · exact hprofile _ (by simp [FirewallConfig.profiles]) _
  · exact hprofile _ (by simp [FirewallConfig.profiles]) _
  · exact hprofile _ (by simp [FirewallConfig.profiles]) _
  · exact hprofile _ (by simp [FirewallConfig.profiles]) _
  · exact loadAdapter_saved _ _
  · exact loadAdapter_saved _ _

/-! ## From `main` to the first request -/

/-- The adapters of the command line. -/
structure Opt where
  incomingAdapter : Option UInt32
  outputAdapter : Option UInt32

def startConfig (opt : Opt) : Option FirewallConfig → FirewallConfig
  | some config => config
  | none =>
    { defaultConfig with
      incomingEthernetAdapter := opt.incomingAdapter
      outputEthernetAdapter := opt.outputAdapter }

/-- Which operations of `main` fail although their inputs are accepted: an insert into a trie
that is not full, one of the three queries, the write to CONFIG, the statement that saves. -/
structure StartupFaults where
  subnetInsert : Bool
  query : Bool
  mapSet : Bool
  statement : Bool

def StartupFaults.never : StartupFaults := ⟨false, false, false, false⟩

/-- What the data plane and the handlers share. -/
structure FirewallState where
  maps : Maps
  row : Option FirewallConfigRow
  ebpf : EbpfProgramm

/-- The state with which `main` starts to serve. A failed attach is only logged;
every other error ends the program. -/
def startup (opt : Opt) (o : AttachOutcomes) (faults : StartupFaults)
    (rowsV4 : List (SubnetRow Int)) (rowsV6 : List (SubnetRow (List UInt8)))
    (row : Option FirewallConfigRow) : Option FirewallState :=
  match subnetFamilyV4.restart rowsV4, subnetFamilyV6.restart rowsV6,
      loadFirewallConfig faults.query row with
  | .ok subnetMatchingV4, .ok subnetMatchingV6, .ok persisted =>
    let config := startConfig opt persisted
    if faults.subnetInsert || faults.mapSet then none
    else
      match saveFirewallConfig faults.statement config row with
      | (.error _, _) => none
      | (.ok _, row) => some {
          maps := { freshMaps config with subnetMatchingV4, subnetMatchingV6 }
          row := row
          ebpf := (EbpfProgramm.new.reboot o config).2 }
  | _, _, _ => none

theorem query_of_load {fails : Bool} {row : Option FirewallConfigRow}
    {persisted : Option FirewallConfig} (h : loadFirewallConfig fails row = .ok persisted) :
    fails = false := by
  cases fails with
  | false => rfl
  | true => cases h

theorem statement_of_save {fails : Bool} {config : FirewallConfig}
    {row saved : Option FirewallConfigRow}
    (h : saveFirewallConfig fails config row = (.ok (), saved)) : fails = false := by
  cases fails with
  | false => rfl
  | true => cases hvalues : firewallConfigRow config <;> simp [saveFirewallConfig, hvalues] at h

/-- `main` gets to serving exactly if none of its operations fails. -/
theorem startup_eq_some_iff {opt : Opt} {o : AttachOutcomes} {faults : StartupFaults}
    {rowsV4 : List (SubnetRow Int)} {rowsV6 : List (SubnetRow (List UInt8))}
    {row : Option FirewallConfigRow} {s : FirewallState} :
    startup opt o faults rowsV4 rowsV6 row = some s ↔
      faults = .never ∧ ∃ v4 v6 persisted saved,
        subnetFamilyV4.restart rowsV4 = .ok v4 ∧ subnetFamilyV6.restart rowsV6 = .ok v6 ∧
        loadFirewallConfig false row = .ok persisted ∧
        saveFirewallConfig false (startConfig opt persisted) row = (.ok (), saved) ∧
        s = ⟨{ freshMaps (startConfig opt persisted) with
            subnetMatchingV4 := v4, subnetMatchingV6 := v6 }, saved,
          (EbpfProgramm.new.reboot o (startConfig opt persisted)).2⟩ := by
  obtain ⟨subnetInsert, query, mapSet, statement⟩ := faults
  unfold startup
  constructor
  · intro h
    split at h
    · rename_i v4 v6 persisted hv4 hv6 hload
      obtain rfl : query = false := query_of_load hload
      simp only at h
      split at h
      · cases h
      · rename_i hfaults
        simp only [Bool.or_eq_true, not_or, Bool.not_eq_true] at hfaults
        obtain ⟨rfl, rfl⟩ := hfaults
        split at h
        · cases h
        · rename_i saved hsave
          obtain rfl : statement = false := statement_of_save hsave
          cases h
          exact ⟨rfl, v4, v6, persisted, saved, hv4, hv6, hload, hsave, rfl⟩
    · cases h
  · rintro ⟨hnever, v4, v6, persisted, saved, hv4, hv6, hload, hsave, rfl⟩
    cases hnever
    simp [hv4, hv6, hload, hsave]

/-- A start finds no flows, and the configuration that it has loaded. -/
theorem startup_eq_some {opt : Opt} {o : AttachOutcomes} {faults : StartupFaults}
    {rowsV4 : List (SubnetRow Int)} {rowsV6 : List (SubnetRow (List UInt8))}
    {row : Option FirewallConfigRow} {s : FirewallState}
    (h : startup opt o faults rowsV4 rowsV6 row = some s) :
    (∀ k, s.maps.cell k = ⟨none, none⟩) ∧
      ∃ persisted, loadFirewallConfig faults.query row = .ok persisted ∧
        s.maps.config = some (startConfig opt persisted) := by
  obtain ⟨rfl, v4, v6, persisted, saved, -, -, hload, -, rfl⟩ := startup_eq_some_iff.mp h
  exact ⟨fun k => by cases k <;> rfl, persisted, hload, rfl⟩

theorem startConfig_rateShift_le {opt : Opt} {fails : Bool} {row : Option FirewallConfigRow}
    {persisted : Option FirewallConfig} (h : loadFirewallConfig fails row = .ok persisted) :
    ∀ profile ∈ (startConfig opt persisted).profiles, profile.rateShift ≤ 63 := by
  have hdefault : ∀ profile ∈ (startConfig opt none).profiles, profile.rateShift ≤ 63 := by
    intro profile hp
    have hdefaults : ∀ profile ∈ defaultConfig.profiles, profile.rateShift ≤ 63 := by decide
    exact hdefaults profile hp
  unfold loadFirewallConfig at h
  split at h
  · cases h
  · cases row with
    | none =>
      cases h
      exact hdefault
    | some row =>
      obtain ⟨config, hdecode, rfl⟩ : ∃ config, row.decode = .ok config ∧
          some config = persisted := by
        cases hr : row.decode <;> simp_all [Except.map]
      exact decode_rateShift_le hdecode

theorem restart_nil {ν κ : Type} (f : SubnetFamily ν κ) : f.restart [] = .ok .empty := by
  simp [SubnetFamily.restart, SubnetFamily.listSubnet, SubnetFamily.restore, pure, Except.pure]

/-- A start from a saved configuration. -/
theorem startup_saved {config : FirewallConfig} {row : FirewallConfigRow} (opt : Opt)
    (o : AttachOutcomes) (h : firewallConfigRow config = .ok row)
    (hshift : ∀ profile ∈ config.profiles, profile.rateShift ≤ 63)
    (hbits : ActivaterEtherTypes.fromBits config.protocolAllowed.bits =
      some config.protocolAllowed) :
    startup opt o .never [] [] (some row) =
      some ⟨freshMaps config, some row, (EbpfProgramm.new.reboot o config).2⟩ := by
  have hload : loadFirewallConfig false (some row) = .ok (some config) := by
    simp [loadFirewallConfig, decode_saved h hshift hbits, Except.map]
  have hsave : saveFirewallConfig false config (some row) = (.ok (), some row) := by
    simp [saveFirewallConfig, h]
  have hstart : startConfig opt (some config) = config := rfl
  simp only [startup, StartupFaults.never, hload, restart_nil, hstart, hsave]
  rfl

end Oxidrop
