import Oxidrop.Adapters
import Oxidrop.Operation
import Oxidrop.Persistence
import Oxidrop.Restart

/-!
# Answers that can be posted again

What a GET of the configuration or of the subnet rules answers can be kept and posted to
another firewall. The configuration of every firewall is one that a POST accepts, and the
rules come back in the order in which a restart reads them.
-/
namespace Oxidrop.Backup

open Serde Run Adapters

/-! ## Bodies of the configuration -/

def decodeRateProfile (j : Json) : Option RateProfile := do
  guard (j.isStruct 2)
  let rateShift ← required u64 ⟨"rate_shift", 0⟩ j
  let burst ← required u64 ⟨"burst", 1⟩ j
  return ⟨rateShift, burst⟩

/-- `deserialize_protocol_allowed` of a patch. -/
def decodeProtocolAllowed (j : Json) : Option (Option ActivaterEtherTypes) := do
  match ← nullable u16 j with
  | none => return none
  | some bits => (ActivaterEtherTypes.fromBits bits).map some

/-- `deserialize_optional_optional`. -/
def decodeAdapter (j : Json) : Option (Option (Option UInt32)) := (nullable u32 j).map some

def decodeConfigPatch (j : Json) : Option ConfigPatch := do
  guard (j.isStruct 9)
  let tcpProfile ← defaulted (nullable decodeRateProfile) ⟨"tcp_profile", 0⟩ none j
  let udpProfile ← defaulted (nullable decodeRateProfile) ⟨"udp_profile", 1⟩ none j
  let icmpProfile ← defaulted (nullable decodeRateProfile) ⟨"icmp_profile", 2⟩ none j
  let defaultProfile ← defaulted (nullable decodeRateProfile) ⟨"default_profile", 3⟩ none j
  let protocolAllowed ← defaulted decodeProtocolAllowed ⟨"protocol_allowed", 4⟩ none j
  let ddosActivated ← defaulted (nullable boolean) ⟨"ddos_activated", 5⟩ none j
  let subnetActivated ← defaulted (nullable boolean) ⟨"subnet_activated", 6⟩ none j
  let incomingEthernetAdapter ← defaulted decodeAdapter ⟨"incoming_ethernet_adapter", 7⟩ none j
  let outputEthernetAdapter ← defaulted decodeAdapter ⟨"output_ethernet_adapter", 8⟩ none j
  return {
    tcpProfile, udpProfile, icmpProfile, defaultProfile, protocolAllowed, ddosActivated,
    subnetActivated, incomingEthernetAdapter, outputEthernetAdapter }

def encodeRateProfile (profile : RateProfile) : Json :=
  .obj [("rate_shift", .int profile.rateShift.toNat), ("burst", .int profile.burst.toNat)]

def encodeAdapter (adapter : Option UInt32) : Json :=
  .ofOption (fun index => .int index.toNat) adapter

/-- The body that `get_config` answers. -/
def encodeFirewallConfig (cfg : FirewallConfig) : Json :=
  .obj
    [("tcp_profile", encodeRateProfile cfg.tcpProfile),
      ("udp_profile", encodeRateProfile cfg.udpProfile),
      ("icmp_profile", encodeRateProfile cfg.icmpProfile),
      ("default_profile", encodeRateProfile cfg.defaultProfile),
      ("protocol_allowed", .int cfg.protocolAllowed.bits.toNat),
      ("ddos_activated", .bool cfg.ddosActivated),
      ("subnet_activated", .bool cfg.subnetActivated),
      ("incoming_ethernet_adapter", encodeAdapter cfg.incomingEthernetAdapter),
      ("output_ethernet_adapter", encodeAdapter cfg.outputEthernetAdapter)]

/-- The patch that replaces every field. -/
def fullPatch (cfg : FirewallConfig) : ConfigPatch where
  tcpProfile := some cfg.tcpProfile
  udpProfile := some cfg.udpProfile
  icmpProfile := some cfg.icmpProfile
  defaultProfile := some cfg.defaultProfile
  protocolAllowed := some cfg.protocolAllowed
  ddosActivated := some cfg.ddosActivated
  subnetActivated := some cfg.subnetActivated
  incomingEthernetAdapter := some cfg.incomingEthernetAdapter
  outputEthernetAdapter := some cfg.outputEthernetAdapter

/-- The configuration is one that a POST accepts. -/
structure Postable (cfg : FirewallConfig) : Prop where
  known : ActivaterEtherTypes.fromBits cfg.protocolAllowed.bits = some cfg.protocolAllowed
  shifts : ∀ profile ∈ cfg.profiles, profile.rateShift ≤ MAX_RATE_SHIFT

theorem decode_encodeRateProfile (profile : RateProfile) :
    decodeRateProfile (encodeRateProfile profile) = some profile := by
  simp [decodeRateProfile, encodeRateProfile, required, Json.values, Json.isStruct]

theorem nullable_rateProfile (profile : RateProfile) :
    nullable decodeRateProfile (encodeRateProfile profile) = some (some profile) :=
  nullable_of_decode (by simp [encodeRateProfile]) (decode_encodeRateProfile profile)

theorem decode_encodeAdapter (adapter : Option UInt32) :
    decodeAdapter (encodeAdapter adapter) = some (some adapter) := by
  rw [decodeAdapter, encodeAdapter, nullable_ofOption (by simp) u32_int]
  rfl

theorem decode_protocolAllowed {types : ActivaterEtherTypes}
    (h : ActivaterEtherTypes.fromBits types.bits = some types) :
    decodeProtocolAllowed (.int types.bits.toNat) = some (some types) := by
  rw [decodeProtocolAllowed, nullable_of_decode (by simp) (u16_int types.bits)]
  simp [h]

/-- What a GET answers is read by a POST as a patch of every field. -/
theorem decode_encodeFirewallConfig {cfg : FirewallConfig} (h : Postable cfg) :
    decodeConfigPatch (encodeFirewallConfig cfg) = some (fullPatch cfg) := by
  have hbool : ∀ b, nullable boolean (.bool b) = some (some b) := fun _ => rfl
  have tcp : (encodeFirewallConfig cfg).values ⟨"tcp_profile", 0⟩ =
      [encodeRateProfile cfg.tcpProfile] := rfl
  have udp : (encodeFirewallConfig cfg).values ⟨"udp_profile", 1⟩ =
      [encodeRateProfile cfg.udpProfile] := rfl
  have icmp : (encodeFirewallConfig cfg).values ⟨"icmp_profile", 2⟩ =
      [encodeRateProfile cfg.icmpProfile] := rfl
  have default : (encodeFirewallConfig cfg).values ⟨"default_profile", 3⟩ =
      [encodeRateProfile cfg.defaultProfile] := rfl
  have protocol : (encodeFirewallConfig cfg).values ⟨"protocol_allowed", 4⟩ =
      [.int cfg.protocolAllowed.bits.toNat] := rfl
  have ddos : (encodeFirewallConfig cfg).values ⟨"ddos_activated", 5⟩ =
      [.bool cfg.ddosActivated] := rfl
  have subnet : (encodeFirewallConfig cfg).values ⟨"subnet_activated", 6⟩ =
      [.bool cfg.subnetActivated] := rfl
  have incoming : (encodeFirewallConfig cfg).values ⟨"incoming_ethernet_adapter", 7⟩ =
      [encodeAdapter cfg.incomingEthernetAdapter] := rfl
  have output : (encodeFirewallConfig cfg).values ⟨"output_ethernet_adapter", 8⟩ =
      [encodeAdapter cfg.outputEthernetAdapter] := rfl
  simp only [decodeConfigPatch, defaulted_of_values tcp, defaulted_of_values udp,
    defaulted_of_values icmp, defaulted_of_values default, defaulted_of_values protocol,
    defaulted_of_values ddos, defaulted_of_values subnet, defaulted_of_values incoming,
    defaulted_of_values output, nullable_rateProfile, decode_protocolAllowed h.known, hbool,
    decode_encodeAdapter]
  rfl

/-! ## The configurations of a firewall -/

inductive ConfigRequest where
  | post (body : Json)
  | shutdown
  | restart

/-- A request, and what the kernel and the database answer meanwhile. -/
structure ConfigCall where
  session : Option CallerContext
  request : ConfigRequest
  outcomes : AttachOutcomes
  faults : ConfigFaults

/-- A body that is no patch is refused before the handler. -/
def postConfig (session : Option CallerContext) (body : Json) (o : AttachOutcomes)
    (faults : ConfigFaults) (s : ConfigState) : Option Response × ConfigState :=
  match decodeConfigPatch body with
  | none => (none, s)
  | some patch =>
    let r := updateConfig session patch o faults s
    (some r.1, r.2)

def handle : Machine ConfigCall ConfigState (Option Response) := fun c s =>
  match c.request with
  | .post body => postConfig c.session body c.outcomes c.faults s
  | .shutdown =>
    let r := shutdownEbpf c.session c.outcomes c.faults s
    (some r.1, r.2)
  | .restart =>
    let r := restartEbpf c.session c.outcomes s
    (some r.1, r.2)

theorem fromBits_eq_some {bits : UInt16} {types : ActivaterEtherTypes}
    (h : ActivaterEtherTypes.fromBits bits = some types) : types.bits = bits := by
  unfold ActivaterEtherTypes.fromBits at h
  split at h
  · cases h
    rfl
  · cases h

theorem decodeProtocolAllowed_known {j : Json} {types : ActivaterEtherTypes}
    (h : decodeProtocolAllowed j = some (some types)) :
    ActivaterEtherTypes.fromBits types.bits = some types := by
  obtain ⟨bits, -, hbits⟩ := Option.bind_eq_some_iff.mp h
  cases bits with
  | none => cases hbits
  | some bits =>
    obtain ⟨types', htypes, heq⟩ := Option.map_eq_some_iff.mp hbits
    cases heq
    rwa [fromBits_eq_some htypes]

theorem decodeConfigPatch_known {j : Json} {patch : ConfigPatch}
    (h : decodeConfigPatch j = some patch) :
    ∀ types ∈ patch.protocolAllowed, ActivaterEtherTypes.fromBits types.bits = some types := by
  simp only [decodeConfigPatch, Option.bind_eq_bind, Option.bind_eq_some_iff, Option.pure_def,
    Option.some.injEq] at h
  obtain ⟨-, -, -, -, -, -, -, -, -, -, allowed, hallowed, -, -, -, -, -, -, -, -, rfl⟩ := h
  rintro types rfl
  rcases defaulted_cases hallowed with ⟨-, hnone⟩ | ⟨v, -, hv⟩
  · cases hnone
  · exact decodeProtocolAllowed_known hv

theorem Postable.clearAdapters {cfg : FirewallConfig} (h : Postable cfg) :
    Postable (Oxidrop.clearAdapters cfg) := ⟨h.known, h.shifts⟩

/-- A patch that is accepted leads from such a configuration to such a configuration. -/
theorem Postable.apply {cfg : FirewallConfig} (h : Postable cfg) {patch : ConfigPatch}
    (hknown : ∀ types ∈ patch.protocolAllowed,
      ActivaterEtherTypes.fromBits types.bits = some types) (hvalid : patch.validate = .ok ()) :
    Postable (patch.apply cfg) := by
  constructor
  · cases hallowed : patch.protocolAllowed with
    | none => simpa [ConfigPatch.apply, hallowed] using h.known
    | some types => simpa [ConfigPatch.apply, hallowed] using hknown types hallowed
  · intro profile hp
    rcases mem_profiles_apply hp with hp | hp
    · exact h.shifts profile hp
    · exact (validate_ok_iff patch).mp hvalid profile hp

theorem shutdownEbpf_config (session : Option CallerContext) (o : AttachOutcomes)
    (faults : ConfigFaults) (s : ConfigState) :
    (shutdownEbpf session o faults s).2.config = s.config ∨
      ∃ cfg, s.config = some cfg ∧
        (shutdownEbpf session o faults s).2.config = some (clearAdapters cfg) := by
  unfold shutdownEbpf
  cases authorizedEbpfAction session s.ebpf with
  | error status => exact .inl rfl
  | ok caller =>
    rcases hcfg : s.config with _ | cfg
    · exact .inl (by simp [hcfg])
    · rcases s.ebpf with _ | p
      · exact .inl (by simp [hcfg])
      · rcases hdown : p.shutDownWorkingEbpf o with ⟨e | u, p'⟩
        · exact .inl (by simp [hdown])
        · cases hset : faults.mapSet with
          | true => exact .inl (by simp [hdown])
          | false =>
            refine .inr ⟨cfg, rfl, ?_⟩
            rcases hsave : saveFirewallConfig faults.statement (clearAdapters cfg) s.row with
              ⟨e | u, row⟩ <;> simp [hdown, hsave]

theorem restartEbpf_config (session : Option CallerContext) (o : AttachOutcomes)
    (s : ConfigState) : (restartEbpf session o s).2.config = s.config := by
  unfold restartEbpf
  cases authorizedEbpfAction session s.ebpf with
  | error status => rfl
  | ok caller =>
    rcases hcfg : s.config with _ | cfg
    · simp [hcfg]
    · rcases s.ebpf with _ | p
      · simp [hcfg]
      · simp only
        split
        · exact hcfg
        · rcases hreboot : p.reboot o cfg with ⟨e | u, p'⟩ <;> rfl

theorem postable_step (c : ConfigCall) {s : ConfigState} (h : ∀ cfg ∈ s.config, Postable cfg) :
    ∀ cfg ∈ (handle c s).2.config, Postable cfg := by
  unfold handle
  cases c.request with
  | post body =>
    simp only [postConfig]
    cases hdecode : decodeConfigPatch body with
    | none => exact h
    | some patch =>
      rcases updateConfig_cases c.session patch c.outcomes c.faults s with
        ⟨-, hsame⟩ | ⟨old, hold, hvalid, hnew | ⟨-, hnew⟩⟩
      · rwa [hsame]
      · rw [hnew]
        rintro cfg ⟨⟩
        exact (h old hold).apply (decodeConfigPatch_known hdecode) hvalid
      · rw [hnew]
        rintro cfg ⟨⟩
        exact ((h old hold).apply (decodeConfigPatch_known hdecode) hvalid).clearAdapters
  | shutdown =>
    rcases shutdownEbpf_config c.session c.outcomes c.faults s with hsame | ⟨old, hold, hnew⟩
    · rwa [hsame]
    · rw [hnew]
      rintro cfg ⟨⟩
      exact (h old hold).clearAdapters
  | restart => rwa [restartEbpf_config]

theorem postable_run {s : ConfigState} (h : ∀ cfg ∈ s.config, Postable cfg)
    (calls : List ConfigCall) : ∀ cfg ∈ (run handle s calls).config, Postable cfg :=
  invariant (I := fun s => ∀ cfg ∈ s.config, Postable cfg) (C := fun _ _ => True)
    (fun _ c hs _ => postable_step c hs) s calls h (always_of_forall s calls fun _ _ => trivial)

/-! ## Posting it again -/

/-- The configuration is answered, is live and stored, and its adapters are attached. -/
structure Restored (cfg : FirewallConfig) (r : Option Response × ConfigState) : Prop where
  answer : r.1 = some ⟨.OK, .config cfg⟩
  persisted : Persisted r.2 cfg
  attached : ∀ p ∈ r.2.ebpf, p.attachedAdapters = adaptersOf cfg

theorem validate_fullPatch {cfg : FirewallConfig} (h : Postable cfg) :
    (fullPatch cfg).validate = .ok () :=
  (validate_ok_iff _).mpr fun profile hp => h.shifts profile (by simpa [fullPatch,
    ConfigPatch.profiles, FirewallConfig.profiles, List.reduceOption] using hp)

/-- The reboot of a full patch attaches the adapters that it brings. -/
theorem rebootIfChanged_fullPatch (o : AttachOutcomes) (cfg : FirewallConfig)
    (ebpf : Option EbpfProgramm) :
    ((ebpf.isSome → o.Attaches cfg) ∧
      ∃ ebpf', rebootIfChanged o (fullPatch cfg) cfg ebpf = (.ok (), ebpf') ∧
        ∀ p ∈ ebpf', p.attachedAdapters = adaptersOf cfg) ∨
    (¬ (ebpf.isSome → o.Attaches cfg) ∧
      ∃ e ebpf', rebootIfChanged o (fullPatch cfg) cfg ebpf = (.error e, ebpf')) := by
  have hchanged : (fullPatch cfg).adaptersChanged = true := rfl
  simp only [rebootIfChanged, if_pos hchanged]
  cases ebpf with
  | none => exact .inl ⟨by simp, none, rfl, by simp⟩
  | some p =>
    have hok := reboot_ok_iff o cfg p
    rcases hreboot : p.reboot o cfg with ⟨e | u, p'⟩
    · rw [hreboot] at hok
      exact .inr ⟨by simpa using hok, e, some p', by simp [hreboot]⟩
    · rw [hreboot] at hok
      have hattaches : o.Attaches cfg := hok.mp ⟨p', rfl⟩
      have hadapters := (reboot_adapters hattaches.1 cfg p).1 hattaches
      rw [hreboot] at hadapters
      exact .inl ⟨fun _ => hattaches, some p', by simp [hreboot],
        by simpa [adaptersOf] using hadapters⟩

/-- The row is written, or the statement or one of its integers is refused. -/
theorem saveFirewallConfig_cases (fails : Bool) (cfg : FirewallConfig)
    (row : Option FirewallConfigRow) :
    ((fails = false ∧ FitsSqlite cfg) ∧
      ∃ values, firewallConfigRow cfg = .ok values ∧
        saveFirewallConfig fails cfg row = (.ok (), some values)) ∨
    (¬ (fails = false ∧ FitsSqlite cfg) ∧
      ∃ e, saveFirewallConfig fails cfg row = (.error e, row)) := by
  have hrow := firewallConfigRow_ok_iff cfg
  cases hvalues : firewallConfigRow cfg with
  | error e =>
    rw [hvalues] at hrow
    have hfits : ¬ FitsSqlite cfg := fun hc => by simpa using hrow.mpr hc
    exact .inr ⟨fun hc => hfits hc.2, e, by simp [saveFirewallConfig, hvalues]⟩
  | ok values =>
    have hfits : FitsSqlite cfg := hrow.mp ⟨values, hvalues⟩
    cases fails with
    | true => exact .inr ⟨by simp, .statement, by simp [saveFirewallConfig, hvalues]⟩
    | false => exact .inl ⟨⟨rfl, hfits⟩, values, rfl, by simp [saveFirewallConfig, hvalues]⟩

theorem postConfig_encode {cfg : FirewallConfig} (h : Postable cfg)
    (session : Option CallerContext) (o : AttachOutcomes) (faults : ConfigFaults)
    (t : ConfigState) :
    postConfig session (encodeFirewallConfig cfg) o faults t =
      (some (updateConfig session (fullPatch cfg) o faults t).1,
        (updateConfig session (fullPatch cfg) o faults t).2) := by
  rw [postConfig, decode_encodeFirewallConfig h]

theorem restored_iff {cfg : FirewallConfig} (h : Postable cfg) (session : Option CallerContext)
    (o : AttachOutcomes) (faults : ConfigFaults) {t : ConfigState} (ht : t.config.isSome) :
    Restored cfg (postConfig session (encodeFirewallConfig cfg) o faults t) ↔
      Authorized session .MODIFY ∧ (t.ebpf.isSome → o.Attaches cfg) ∧ faults = .never ∧
        FitsSqlite cfg := by
  obtain ⟨old, hold⟩ := Option.isSome_iff_exists.mp ht
  have happly : (fullPatch cfg).apply old = cfg := rfl
  rw [postConfig_encode h]
  unfold updateConfig
  rcases withPermission_cases session .MODIFY _ t with ⟨hno, heq⟩ | ⟨caller, hsome, hmay, heq⟩
  · rw [heq]
    refine iff_of_false (fun hr => ?_) fun hr => hno hr.1
    simpa [StatusCode.intoResponse] using hr.answer
  · have hauth : Authorized session .MODIFY := ⟨caller, hsome, hmay⟩
    rw [heq]
    simp only [validate_fullPatch h, hold, happly]
    rcases rebootIfChanged_fullPatch o cfg t.ebpf with
      ⟨hattaches, ebpf', hreboot, hattached⟩ | ⟨hfails, e, ebpf', hreboot⟩
    · rw [hreboot]
      obtain ⟨mapSet, statement⟩ := faults
      cases mapSet with
      | true =>
        refine iff_of_false (fun hr => ?_) fun hr => by simpa [ConfigFaults.never] using hr.2.2.1
        simpa using hr.answer
      | false =>
        simp only [Bool.false_eq_true, if_false]
        rcases saveFirewallConfig_cases statement cfg t.row with
          ⟨⟨rfl, hfits⟩, row, hrow, hsave⟩ | ⟨hfails, e, hsave⟩
        · rw [hsave]
          exact iff_of_true ⟨rfl, ⟨rfl, row, hrow, rfl⟩, hattached⟩ ⟨hauth, hattaches, rfl, hfits⟩
        · rw [hsave]
          refine iff_of_false (fun hr => ?_) fun hr => hfails ⟨congrArg ConfigFaults.statement
            hr.2.2.1, hr.2.2.2⟩
          simpa using hr.answer
    · rw [hreboot]
      refine iff_of_false (fun hr => ?_) fun hr => hfails hr.2.1
      simpa [attachFailed] using hr.answer

theorem postable_startup {opt : Opt} {o : AttachOutcomes} {faults : StartupFaults}
    {rowsV4 : List (SubnetRow Int)} {rowsV6 : List (SubnetRow (List UInt8))}
    {row : Option FirewallConfigRow} {s : FirewallState}
    (hs : startup opt o faults rowsV4 rowsV6 row = some s) :
    ∀ cfg ∈ (Operation.configState s).config, Postable cfg := by
  obtain ⟨-, persisted, hload, hconfig⟩ := startup_eq_some hs
  intro cfg hcfg
  rw [Operation.configState, hconfig] at hcfg
  cases hcfg
  refine ⟨?_, startConfig_rateShift_le hload⟩
  cases persisted with
  | none =>
    have hdefault : ActivaterEtherTypes.fromBits defaultConfig.protocolAllowed.bits =
        some defaultConfig.protocolAllowed := by decide
    exact hdefault
  | some loaded =>
    unfold loadFirewallConfig at hload
    split at hload
    · cases hload
    · cases row with
      | none => cases hload
      | some row =>
        cases hdecode : row.decode with
        | error e => simp [hdecode, Except.map] at hload
        | ok cfg =>
          simp only [hdecode, Except.map, Except.ok.injEq, Option.some.injEq] at hload
          subst hload
          exact Persistence.decode_known hdecode

/-- Whatever a firewall has been through since its start, its configuration can be posted to
any other one. It is restored there exactly if the caller may, the adapters can be attached,
and the bursts fit into the database. -/
theorem config_restored {opt : Opt} {o : AttachOutcomes} {started : StartupFaults}
    {rowsV4 : List (SubnetRow Int)} {rowsV6 : List (SubnetRow (List UInt8))}
    {row : Option FirewallConfigRow} {s : FirewallState}
    (hs : startup opt o started rowsV4 rowsV6 row = some s) (calls : List ConfigCall)
    {cfg : FirewallConfig} (hcfg : (run handle (Operation.configState s) calls).config = some cfg)
    (session : Option CallerContext) (outcomes : AttachOutcomes) (faults : ConfigFaults)
    {t : ConfigState} (ht : t.config.isSome) :
    Restored cfg (postConfig session (encodeFirewallConfig cfg) outcomes faults t) ↔
      Authorized session .MODIFY ∧ (t.ebpf.isSome → outcomes.Attaches cfg) ∧ faults = .never ∧
        FitsSqlite cfg :=
  restored_iff (postable_run (postable_startup hs) calls cfg hcfg) session outcomes faults ht

/-- A slower profile is set on one firewall, and taken over by another one. -/
def slowerBody : Json := .obj [("tcp_profile", encodeRateProfile ⟨21, 500⟩)]

def slowerConfig : FirewallConfig := { defaultConfig with tcpProfile := ⟨21, 500⟩ }

theorem config_restored_slower :
    Restored slowerConfig
      (postConfig (some .root) (encodeFirewallConfig slowerConfig) noAttach .never
        defaultState) := by
  have hstart : startup ⟨none, none⟩ noAttach .never [] [] none = some
      ⟨freshMaps defaultConfig, (firewallConfigRow defaultConfig).toOption,
        (EbpfProgramm.new.reboot noAttach defaultConfig).2⟩ := rfl
  refine (config_restored hstart [⟨some .root, .post slowerBody, noAttach, .never⟩] rfl (some .root)
    noAttach .never rfl).mpr ⟨⟨.root, rfl, by decide⟩, by simp [defaultState], rfl, ?_⟩
  exact ⟨by decide, by decide, by decide, by decide⟩

/-! ## Bodies of the subnet rules -/

/-- How the networks of a family are written. -/
structure NetworkCodec (ν : Type) where
  encode : ν → Json
  decode : Json → Option ν
  decode_encode : ∀ n, decode (encode n) = some n

def networkV4 : NetworkCodec UInt32 := ⟨fun n => .int n.toNat, u32, u32_int⟩

def networkV6 : NetworkCodec Words := ⟨Words.json, decodeWords, decodeWords_json⟩

def encodeAction : Action → Json
  | .allow => .str "Allow"
  | .deny => .str "Deny"

section Rules

variable {ν κ : Type} (n : NetworkCodec ν)

def decodeSubnetMatchUpdate (j : Json) : Option (SubnetMatchUpdate ν) := do
  guard (j.isStruct 3)
  let network ← required n.decode ⟨"network", 0⟩ j
  let prefixLen ← required u32 ⟨"prefix_len", 1⟩ j
  let action ← required decodeAction ⟨"action", 2⟩ j
  return ⟨network, prefixLen, action⟩

/-- A rule in the body that `list_subnet_matching_v4` or its twin answers. -/
def encodeSubnetMatchUpdate (rule : SubnetMatchUpdate ν) : Json :=
  .obj
    [("network", n.encode rule.network), ("prefix_len", .int rule.prefixLen.toNat),
      ("action", encodeAction rule.action)]

theorem decode_encodeSubnetMatchUpdate (rule : SubnetMatchUpdate ν) :
    decodeSubnetMatchUpdate n (encodeSubnetMatchUpdate n rule) = some rule := by
  have network : (encodeSubnetMatchUpdate n rule).values ⟨"network", 0⟩ =
      [n.encode rule.network] := rfl
  have prefixLen : (encodeSubnetMatchUpdate n rule).values ⟨"prefix_len", 1⟩ =
      [.int rule.prefixLen.toNat] := rfl
  have action : (encodeSubnetMatchUpdate n rule).values ⟨"action", 2⟩ =
      [encodeAction rule.action] := rfl
  have haction : decodeAction (encodeAction rule.action) = some rule.action := by
    cases rule.action <;> rfl
  simp only [decodeSubnetMatchUpdate, required_of_values network, required_of_values prefixLen,
    required_of_values action, n.decode_encode, u32_int, haction]
  rfl

/-! ## The rules of a firewall -/

/-- A request on the rules of one family, or a restart of the program. -/
inductive RuleEvent where
  | request (session : Option CallerContext) (method : Management.Method) (faults : SubnetFaults)
      (body : Json)
  | restart

variable [DecidableEq κ] (f : SubnetFamily ν κ)

/-- A restart reads the trie from the table. Where `main` ends instead, only the table is
left. -/
def handleRule : Machine RuleEvent (SubnetStore κ) (Option Response)
  | .request session method faults body, s =>
    match decodeSubnetMatchUpdate n body with
    | none => (none, s)
    | some payload =>
      let r := match method with
        | .POST => f.modifySubnetMatching session faults payload s
        | .DELETE => f.removeSubnetMatching session faults payload s
      (some r.1, r.2)
  | .restart, s =>
    match f.restart s.rows with
    | .ok trie => (none, { s with trie := trie })
    | .error _ => (none, s)

/-- The POST of a rule that was listed. -/
def postRule (session : Option CallerContext) (rule : SubnetMatchUpdate ν) : RuleEvent :=
  .request session .POST ⟨false, false, false⟩ (encodeSubnetMatchUpdate n rule)

variable {n f}

open SubnetFamily

/-- Whatever fails, a POST is not answered with OK and leaves the table, or it saves a rule of
the family. -/
theorem modify_rows (session : Option CallerContext) (faults : SubnetFaults)
    (payload : SubnetMatchUpdate ν) (s : SubnetStore κ) :
    ((f.modifySubnetMatching session faults payload s).1.status.isSuccess = false ∧
      (f.modifySubnetMatching session faults payload s).2.rows = s.rows) ∨
    (payload.prefixLen ≤ f.maxPrefix ∧
      (f.modifySubnetMatching session faults payload s).1.status.isSuccess = true ∧
      (f.modifySubnetMatching session faults payload s).2.rows =
        upsertRow (f.row payload) s.rows) := by
  unfold modifySubnetMatching
  rcases withPermission_cases session .MODIFY _ s with ⟨-, heq⟩ | ⟨caller, -, hmay, heq⟩
  · rw [heq]
    exact .inl ⟨rfl, rfl⟩
  · rw [heq]
    by_cases hlen : f.maxPrefix < payload.prefixLen
    · exact .inl (by simp [hlen, StatusCode.isSuccess])
    · cases hinsert : f.insertMatching faults payload s.trie with
      | none => exact .inl (by simp [hlen, StatusCode.isSuccess])
      | some map =>
        cases hstatement : faults.statement with
        | true =>
          exact .inl (by simp [hlen, saveSubnet, hmay, StatusCode.isSuccess,
            StatusCode.intoResponse])
        | false =>
          exact .inr ⟨UInt32.not_lt.mp hlen, by simp [hlen, saveSubnet, hmay,
            StatusCode.isSuccess, StatusCode.intoResponse]⟩

/-- Whatever fails, a DELETE is not answered with OK and leaves the table, or it deletes the
rule. -/
theorem remove_rows (session : Option CallerContext) (faults : SubnetFaults)
    (payload : SubnetMatchUpdate ν) (s : SubnetStore κ) :
    ((f.removeSubnetMatching session faults payload s).1.status.isSuccess = false ∧
      (f.removeSubnetMatching session faults payload s).2.rows = s.rows) ∨
    ((f.removeSubnetMatching session faults payload s).1.status.isSuccess = true ∧
      (f.removeSubnetMatching session faults payload s).2.rows =
        deleteRow (f.column payload.network) payload.prefixLen.toNat s.rows) := by
  unfold removeSubnetMatching
  rcases withPermission_cases session .DELETE _ s with ⟨-, heq⟩ | ⟨caller, -, hmay, heq⟩
  · rw [heq]
    exact .inl ⟨rfl, rfl⟩
  · rw [heq]
    simp only
    split
    · exact .inl ⟨rfl, rfl⟩
    · split
      · exact .inl ⟨rfl, rfl⟩
      · cases hstatement : faults.statement with
        | true =>
          exact .inl (by simp [deleteSubnet, hmay, StatusCode.isSuccess, StatusCode.intoResponse])
        | false =>
          exact .inr (by simp [deleteSubnet, hmay, StatusCode.isSuccess, StatusCode.intoResponse])

section Holding

variable {s t : SubnetStore κ}

omit [DecidableEq κ] in
theorem holds_same (h : ∃ rules, Holds f s rules) (ht : t.rows = s.rows) :
    ∃ rules, Holds f t rules := by
  obtain ⟨rules, hholds⟩ := h
  exact ⟨rules, ht.trans hholds.rows, hholds.keys, hholds.range⟩

theorem holds_upsert (hf : f.Lawful) (h : ∃ rules, Holds f s rules) {rule : SubnetMatchUpdate ν}
    (hlen : rule.prefixLen ≤ f.maxPrefix) (ht : t.rows = upsertRow (f.row rule) s.rows) :
    ∃ rules, Holds f t rules := by
  obtain ⟨rules, hholds⟩ := h
  obtain ⟨rules', hmap, hkeys, hmem⟩ := upsertRow_spec hf rule hholds.keys
  refine ⟨rules', by rw [ht, hholds.rows, hmap], hkeys, fun r hr => ?_⟩
  rcases (hmem r).mp hr with rfl | ⟨hr, -⟩
  · exact hlen
  · exact hholds.range r hr

theorem holds_delete (hf : f.Lawful) (h : ∃ rules, Holds f s rules) (rule : SubnetMatchUpdate ν)
    (ht : t.rows = deleteRow (f.column rule.network) rule.prefixLen.toNat s.rows) :
    ∃ rules, Holds f t rules := by
  obtain ⟨rules, hholds⟩ := h
  obtain ⟨rules', hmap, hkeys, hmem⟩ := deleteRow_spec hf rule hholds.keys
  exact ⟨rules', by rw [ht, hholds.rows, hmap], hkeys,
    fun r hr => hholds.range r ((hmem r).mp hr).1⟩

end Holding

/-- The table always holds rules of the family, one for each network and prefix length. -/
theorem holds_step (hf : f.Lawful) (e : RuleEvent) {s : SubnetStore κ}
    (h : ∃ rules, Holds f s rules) : ∃ rules, Holds f (handleRule n f e s).2 rules := by
  cases e with
  | restart =>
    simp only [handleRule]
    split
    · exact holds_same h rfl
    · exact h
  | request session method faults body =>
    simp only [handleRule]
    cases decodeSubnetMatchUpdate n body with
    | none => exact h
    | some payload =>
      cases method with
      | POST =>
        rcases modify_rows session faults payload s with ⟨-, hrows⟩ | ⟨hlen, -, hrows⟩
        · exact holds_same h hrows
        · exact holds_upsert hf h hlen hrows
      | DELETE =>
        rcases remove_rows session faults payload s with ⟨-, hrows⟩ | ⟨-, hrows⟩
        · exact holds_same h hrows
        · exact holds_delete hf h payload hrows

def emptyStore : SubnetStore κ := ⟨.empty, []⟩

theorem holds_run (hf : f.Lawful) (es : List RuleEvent) :
    ∃ rules, Holds f (run (handleRule n f) emptyStore es) rules :=
  invariant (I := fun s => ∃ rules, Holds f s rules) (C := fun _ _ => True)
    (fun _ e hs _ => holds_step hf e hs) emptyStore es
    ⟨[], rfl, List.Pairwise.nil, by simp⟩ (always_of_forall _ es fun _ _ => trivial)

/-- A rule with a new key comes last. -/
theorem upsertRow_new (hf : f.Lawful) {rule : SubnetMatchUpdate ν}
    {rules : List (SubnetMatchUpdate ν)} (h : ∀ r ∈ rules, ¬ SameKey r rule) :
    upsertRow (f.row rule) (rules.map f.row) = (rules ++ [rule]).map f.row := by
  induction rules with
  | nil => rfl
  | cons r rules ih =>
    rw [List.map_cons, upsertRow, if_neg (mt (row_key_iff hf r rule).mp (h r (by simp))),
      ih fun r hr => h r (by simp [hr])]
    rfl

/-- A rule is posted exactly if the trie has room for its entry. -/
theorem post_eq {session : Option CallerContext} (hauth : Authorized session .MODIFY)
    {rule : SubnetMatchUpdate ν} (hlen : rule.prefixLen ≤ f.maxPrefix) (s : SubnetStore κ) :
    handleRule n f (postRule n session rule) s =
      match s.trie.insert (f.key rule) rule.action with
      | none => (some ⟨.INTERNAL_SERVER_ERROR, .text f.insertFailed⟩, s)
      | some map => (some StatusCode.OK.intoResponse, ⟨map, upsertRow (f.row rule) s.rows⟩) := by
  obtain ⟨caller, rfl, hmay⟩ := hauth
  have hlen : ¬ f.maxPrefix < rule.prefixLen := UInt32.not_lt.mpr hlen
  cases hinsert : s.trie.insert (f.key rule) rule.action with
  | none =>
    simp [handleRule, postRule, decode_encodeSubnetMatchUpdate, modifySubnetMatching,
      withPermission, insertMatching, hmay, hlen, hinsert]
  | some map =>
    simp [handleRule, postRule, decode_encodeSubnetMatchUpdate, modifySubnetMatching,
      withPermission, insertMatching, hmay, hlen, hinsert, saveSubnet]

omit [DecidableEq κ] in
theorem restore_concat (rules : List (SubnetMatchUpdate ν)) (rule : SubnetMatchUpdate ν) :
    f.restore (rules ++ [rule]) =
      (f.restore rules).bind fun t => t.insert (f.key rule) rule.action := by
  simp [restore, List.foldlM_append]

/-- Rules that are posted one after the other are there in their order, and the trie is the
one that a restart reads from them in this order. -/
theorem posts_run (hf : f.Lawful) {session : Option CallerContext}
    (hauth : Authorized session .MODIFY) {rules : List (SubnetMatchUpdate ν)}
    (hkeys : DistinctKeys rules) (hrange : ∀ r ∈ rules, r.prefixLen ≤ f.maxPrefix)
    {t : LpmTrie Action} (ht : f.restore rules = some t) :
    outputs (handleRule n f) emptyStore (rules.map (postRule n session)) =
        rules.map (fun _ => some StatusCode.OK.intoResponse) ∧
      run (handleRule n f) emptyStore (rules.map (postRule n session)) =
        ⟨t, rules.map f.row⟩ := by
  induction rules using List.reverseRecOn generalizing t with
  | nil =>
    cases ht
    exact ⟨rfl, rfl⟩
  | append_singleton rules rule ih =>
    obtain ⟨hinit, -, hlast⟩ := List.pairwise_append.mp hkeys
    have hnew : ∀ r ∈ rules, ¬ SameKey r rule := fun r hr => hlast r hr rule (by simp)
    rw [restore_concat, Option.bind_eq_some_iff] at ht
    obtain ⟨before, hbefore, hinsert⟩ := ht
    obtain ⟨houtputs, hrun⟩ := ih hinit (fun r hr => hrange r (by simp [hr])) hbefore
    rw [List.map_append, List.map_singleton, outputs_concat, run_concat, houtputs, hrun,
      post_eq hauth (hrange rule (by simp)), hinsert, upsertRow_new hf hnew]
    simp

/-- Where a restart ends over the rules, one of their posts is refused. -/
theorem posts_refused (hf : f.Lawful) {session : Option CallerContext}
    (hauth : Authorized session .MODIFY) {rules : List (SubnetMatchUpdate ν)}
    (hkeys : DistinctKeys rules) (hrange : ∀ r ∈ rules, r.prefixLen ≤ f.maxPrefix)
    (hnone : f.restore rules = none) :
    some ⟨.INTERNAL_SERVER_ERROR, .text f.insertFailed⟩ ∈
      outputs (handleRule n f) emptyStore (rules.map (postRule n session)) := by
  induction rules using List.reverseRecOn with
  | nil => cases hnone
  | append_singleton rules rule ih =>
    obtain ⟨hinit, -, -⟩ := List.pairwise_append.mp hkeys
    have hinside : ∀ r ∈ rules, r.prefixLen ≤ f.maxPrefix := fun r hr => hrange r (by simp [hr])
    rw [List.map_append, List.map_singleton, outputs_concat, List.mem_append,
      List.mem_singleton]
    cases hbefore : f.restore rules with
    | none => exact .inl (ih hinit hinside hbefore)
    | some before =>
      rw [restore_concat, hbefore, Option.bind_some] at hnone
      obtain ⟨-, hrun⟩ := posts_run (n := n) hf hauth hinit hinside hbefore
      exact .inr (by rw [hrun, post_eq hauth (hrange rule (by simp)), hnone])

/-- What the list of a firewall answers can be posted to an empty one exactly if a trie has
room for its prefixes. There the same list is answered, and the trie is the one that a restart
of the first firewall reads. Otherwise a post is refused there, and the first firewall does not
start again. -/
theorem rules_restored (hf : f.Lawful) (es : List RuleEvent) {session : Option CallerContext}
    (hauth : Authorized session .MODIFY) :
    ∃ listing, f.listSubnet (run (handleRule n f) emptyStore es).rows = .ok listing ∧
      (f.Fits listing →
        outputs (handleRule n f) emptyStore (listing.map (postRule n session)) =
            listing.map (fun _ => some StatusCode.OK.intoResponse) ∧
          f.listSubnet (run (handleRule n f) emptyStore (listing.map (postRule n session))).rows =
            .ok listing ∧
          f.restart (run (handleRule n f) emptyStore es).rows =
            .ok (run (handleRule n f) emptyStore (listing.map (postRule n session))).trie) ∧
      (¬ f.Fits listing →
        some ⟨.INTERNAL_SERVER_ERROR, .text f.insertFailed⟩ ∈
            outputs (handleRule n f) emptyStore (listing.map (postRule n session)) ∧
          f.restart (run (handleRule n f) emptyStore es).rows =
            .error (.insert f.restoreFailed)) := by
  obtain ⟨rules, hholds⟩ := holds_run (n := n) hf es
  have hperm := List.perm_insertionSort f.ruleLe rules
  have hkeys : DistinctKeys (rules.insertionSort f.ruleLe) :=
    hperm.symm.pairwise hholds.keys fun h hs => h ⟨hs.1.symm, hs.2.symm⟩
  have hrange : ∀ r ∈ rules.insertionSort f.ruleLe, r.prefixLen ≤ f.maxPrefix :=
    fun r hr => hholds.range r (hperm.mem_iff.mp hr)
  have hlist := listSubnet_eq hf hholds
  refine ⟨_, hlist, fun hfits => ?_, fun hfull => ?_⟩
  · obtain ⟨t, ht⟩ := restore_of_fits hfits
    obtain ⟨houtputs, hrun⟩ := posts_run (n := n) hf hauth hkeys hrange ht
    refine ⟨houtputs, ?_, by simp [restart, hlist, ht, hrun]⟩
    have hposted : Holds f (run (handleRule n f) emptyStore
        ((rules.insertionSort f.ruleLe).map (postRule n session)))
        (rules.insertionSort f.ruleLe) := ⟨by rw [hrun], hkeys, hrange⟩
    rw [listSubnet_eq hf hposted, (List.pairwise_insertionSort f.ruleLe rules).insertionSort_eq]
  · have hnone : f.restore (rules.insertionSort f.ruleLe) = none := by
      refine Option.eq_none_iff_forall_ne_some.mpr fun t ht => hfull ?_
      exact (restore_eq_some_iff.mp ht).1
    exact ⟨posts_refused hf hauth hkeys hrange hnone, by simp [restart, hlist, hnone]⟩

end Rules

def postV4 : SubnetMatchUpdate UInt32 → RuleEvent := postRule networkV4 (some .root)

def handleV4 : Machine RuleEvent (SubnetStore Int) (Option Response) :=
  handleRule networkV4 subnetFamilyV4

/-- The firewall took 10.0.0.0/8 last and denies it. The list ends with 10.0.0.5/8, so the other
firewall allows it, as a restart of the first one does. -/
theorem rules_restored_twoRules :
    subnetFamilyV4.listSubnet
        (run handleV4 emptyStore [postV4 tenDenied, postV4 tenAlias]).rows =
      .ok [tenDenied, tenAlias] ∧
    subnetFamilyV4.restart
        (run handleV4 emptyStore [postV4 tenAlias, postV4 tenDenied]).rows =
      .ok (run handleV4 emptyStore [postV4 tenDenied, postV4 tenAlias]).trie := by
  have hauth : Authorized (some .root) .MODIFY := ⟨.root, rfl, by decide⟩
  obtain ⟨listing, hlist, hfits, -⟩ := rules_restored (n := networkV4)
    subnetFamilyV4_lawful [postV4 tenAlias, postV4 tenDenied] hauth
  have hlisting : subnetFamilyV4.listSubnet
      (run handleV4 emptyStore [postV4 tenAlias, postV4 tenDenied]).rows =
        .ok [tenDenied, tenAlias] := by
    rfl
  cases hlist.symm.trans hlisting
  obtain ⟨-, hother, hrestart⟩ := hfits (by rw [SubnetFamily.Fits]; decide)
  exact ⟨hother, hrestart⟩

end Oxidrop.Backup
