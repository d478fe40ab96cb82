import Mathlib.Data.List.ReduceOption
import Oxidrop.Api
import Oxidrop.Ebpf

/-!
# Updating the configuration

`updateConfig` changes the live map, re-attaches the programs and persists, in
that order. It is all-or-nothing except where a failed attach leaves the rest
of the patch behind, and where a burst fits into the map but not into the
database.
-/
namespace Oxidrop

/-- `some none` clears an adapter. -/
structure ConfigPatch where
  tcpProfile : Option RateProfile := none
  udpProfile : Option RateProfile := none
  icmpProfile : Option RateProfile := none
  defaultProfile : Option RateProfile := none
  protocolAllowed : Option ActivaterEtherTypes := none
  ddosActivated : Option Bool := none
  subnetActivated : Option Bool := none
  incomingEthernetAdapter : Option (Option UInt32) := none
  outputEthernetAdapter : Option (Option UInt32) := none
  deriving DecidableEq, Repr

def MAX_RATE_SHIFT : UInt64 := 63

/-- The profiles that the patch replaces. -/
def ConfigPatch.profiles (p : ConfigPatch) : List RateProfile :=
  [p.tcpProfile, p.udpProfile, p.icmpProfile, p.defaultProfile].reduceOption

def ConfigPatch.validate (p : ConfigPatch) : Except String Unit :=
  if p.profiles.any (fun profile => MAX_RATE_SHIFT < profile.rateShift) then
    .error "rate_shift must be between 0 and 63"
  else .ok ()

def ConfigPatch.apply (p : ConfigPatch) (cfg : FirewallConfig) : FirewallConfig where
  tcpProfile := p.tcpProfile.getD cfg.tcpProfile
  udpProfile := p.udpProfile.getD cfg.udpProfile
  icmpProfile := p.icmpProfile.getD cfg.icmpProfile
  defaultProfile := p.defaultProfile.getD cfg.defaultProfile
  protocolAllowed := p.protocolAllowed.getD cfg.protocolAllowed
  ddosActivated := p.ddosActivated.getD cfg.ddosActivated
  subnetActivated := p.subnetActivated.getD cfg.subnetActivated
  incomingEthernetAdapter := p.incomingEthernetAdapter.getD cfg.incomingEthernetAdapter
  outputEthernetAdapter := p.outputEthernetAdapter.getD cfg.outputEthernetAdapter

def ConfigPatch.adaptersChanged (p : ConfigPatch) : Bool :=
  p.incomingEthernetAdapter.isSome || p.outputEthernetAdapter.isSome

/-- The configuration that a failed attach writes. -/
def clearAdapters (cfg : FirewallConfig) : FirewallConfig :=
  { cfg with incomingEthernetAdapter := none, outputEthernetAdapter := none }

/-- The CONFIG map, the row with id 1, and the programs. -/
structure ConfigState where
  config : Option FirewallConfig
  row : Option FirewallConfigRow
  ebpf : Option EbpfProgramm

/-- What fails during a request although its inputs are accepted. -/
structure ConfigFaults where
  mapSet : Bool
  statement : Bool

/-- Map writes and SQL statements succeed. -/
def ConfigFaults.never : ConfigFaults := ⟨false, false⟩

def attachFailed : Response :=
  ⟨.INTERNAL_SERVER_ERROR, .text "Failed to attach eBPF program to the selected adapters"⟩

/-- `reboot`, if the adapters change and there are programs to attach. -/
def rebootIfChanged (o : AttachOutcomes) (patch : ConfigPatch) (cfg : FirewallConfig)
    (ebpf : Option EbpfProgramm) : Except EbpfError Unit × Option EbpfProgramm :=
  if patch.adaptersChanged then
    match ebpf with
    | some p => ((p.reboot o cfg).1, some (p.reboot o cfg).2)
    | none => (.ok (), none)
  else (.ok (), ebpf)

def updateConfig (session : Option CallerContext) (patch : ConfigPatch) (o : AttachOutcomes)
    (faults : ConfigFaults) : ConfigState → Response × ConfigState :=
  withPermission session .MODIFY fun _ s =>
    match patch.validate with
    | .error msg => (⟨.BAD_REQUEST, .text msg⟩, s)
    | .ok _ =>
      match s.config with
      | none => (⟨.INTERNAL_SERVER_ERROR, .text "CONFIG map not initialized"⟩, s)
      | some cfg =>
        let cfg := patch.apply cfg
        match rebootIfChanged o patch cfg s.ebpf with
        | (.error _, ebpf) =>
          let cfg := clearAdapters cfg
          (attachFailed,
            { config := if faults.mapSet then s.config else some cfg
              row := (saveFirewallConfig faults.statement cfg s.row).2
              ebpf := ebpf })
        | (.ok _, ebpf) =>
          if faults.mapSet then
            (⟨.INTERNAL_SERVER_ERROR, .text "Failed to update CONFIG map"⟩, { s with ebpf := ebpf })
          else
            match saveFirewallConfig faults.statement cfg s.row with
            | (.error _, row) =>
              (⟨.INTERNAL_SERVER_ERROR, .text "Failed to persist firewall configuration"⟩,
                ⟨some cfg, row, ebpf⟩)
            | (.ok _, row) => (⟨.OK, .config cfg⟩, ⟨some cfg, row, ebpf⟩)

/-! ## What an update writes -/

/-- An accepted update applies its patch. A refused one leaves the map alone, or
fails after it has written the patch, with or without its adapters. -/
theorem updateConfig_cases (session : Option CallerContext) (patch : ConfigPatch)
    (o : AttachOutcomes) (faults : ConfigFaults) (s : ConfigState) :
    ((updateConfig session patch o faults s).1.status ≠ .OK ∧
      (updateConfig session patch o faults s).2.config = s.config) ∨
    ∃ old, s.config = some old ∧ patch.validate = .ok () ∧
      ((updateConfig session patch o faults s).2.config = some (patch.apply old) ∨
        ((updateConfig session patch o faults s).1.status ≠ .OK ∧
          (updateConfig session patch o faults s).2.config =
            some (clearAdapters (patch.apply old)))) := by
  unfold updateConfig
  rcases withPermission_cases session .MODIFY _ s with ⟨-, heq⟩ | ⟨caller, -, -, heq⟩
  · rw [heq]
    exact .inl ⟨by simp, rfl⟩
  · rw [heq]
    cases hv : patch.validate with
    | error msg => exact .inl ⟨by simp, rfl⟩
    | ok u =>
      cases hc : s.config with
      | none => exact .inl ⟨by simp, by simp [hc]⟩
      | some old =>
        simp only
        rcases rebootIfChanged o patch (patch.apply old) s.ebpf with ⟨r, ebpf⟩
        cases r with
        | error e =>
          cases faults.mapSet with
          | true => exact .inl ⟨by simp [attachFailed], by simp⟩
          | false => exact .inr ⟨old, rfl, trivial, .inr ⟨by simp [attachFailed], rfl⟩⟩
        | ok u =>
          cases faults.mapSet with
          | true => exact .inl ⟨by simp, by simp⟩
          | false =>
            refine .inr ⟨old, rfl, trivial, .inl ?_⟩
            simp only [Bool.false_eq_true, if_false]
            rcases saveFirewallConfig faults.statement (patch.apply old) s.row with ⟨r, row⟩
            cases r <;> rfl

/-- The profiles of a configuration, in the order of its fields. -/
def FirewallConfig.profiles (cfg : FirewallConfig) : List RateProfile :=
  [cfg.tcpProfile, cfg.udpProfile, cfg.icmpProfile, cfg.defaultProfile]

@[simp] theorem profiles_clearAdapters (cfg : FirewallConfig) :
    (clearAdapters cfg).profiles = cfg.profiles := rfl

theorem getD_mem_or {α : Type} (new : Option α) (old : α) :
    new.getD old = old ∨ new.getD old ∈ new := by
  cases new with
  | none => exact .inl rfl
  | some a => exact .inr rfl

/-! ## All or nothing -/

/-- The map entry is `cfg` and the row is its encoding. -/
def Persisted (s : ConfigState) (cfg : FirewallConfig) : Prop :=
  s.config = some cfg ∧ ∃ row, firewallConfigRow cfg = .ok row ∧ s.row = some row

/-- What each answer promises about the two stores. -/
def AllOrNothing (old : FirewallConfig) (patch : ConfigPatch) (s : ConfigState)
    (answer : Response × ConfigState) : Prop :=
  (answer.1.status = .OK → Persisted answer.2 (patch.apply old)) ∧
  (answer.1 = attachFailed → Persisted answer.2 (clearAdapters old)) ∧
  (answer.1.status ≠ .OK → answer.1 ≠ attachFailed →
    answer.2.config = s.config ∧ answer.2.row = s.row)

/-- The request re-attaches the programs and one of the adapters it asks for
cannot be attached. -/
def AttachFails (o : AttachOutcomes) (patch : ConfigPatch) (cfg : FirewallConfig)
    (ebpf : Option EbpfProgramm) : Prop :=
  patch.adaptersChanged = true ∧ ebpf.isSome = true ∧ ¬ o.Attaches cfg

/-- The patch is harmless: where the attach fails it changes nothing but
adapters, and elsewhere its bursts fit into the database. -/
def Harmless (o : AttachOutcomes) (patch : ConfigPatch) (old : FirewallConfig)
    (ebpf : Option EbpfProgramm) : Prop :=
  (AttachFails o patch (patch.apply old) ebpf →
    clearAdapters (patch.apply old) = clearAdapters old) ∧
  (¬ AttachFails o patch (patch.apply old) ebpf →
    ∀ profile ∈ patch.profiles, profile.burst.toNat ≤ I64_MAX)

theorem validate_ok_iff (patch : ConfigPatch) :
    patch.validate = .ok () ↔ ∀ profile ∈ patch.profiles, profile.rateShift ≤ MAX_RATE_SHIFT := by
  unfold ConfigPatch.validate
  split <;> simp_all

theorem mem_profiles_iff (patch : ConfigPatch) (profile : RateProfile) :
    profile ∈ patch.profiles ↔ profile ∈ patch.tcpProfile ∨ profile ∈ patch.udpProfile ∨
      profile ∈ patch.icmpProfile ∨ profile ∈ patch.defaultProfile := by
  simp [ConfigPatch.profiles, List.reduceOption_mem_iff, eq_comm]

/-- A patched configuration has profiles of the old one and of the patch. -/
theorem mem_profiles_apply {patch : ConfigPatch} {cfg : FirewallConfig} {profile : RateProfile}
    (h : profile ∈ (patch.apply cfg).profiles) :
    profile ∈ cfg.profiles ∨ profile ∈ patch.profiles := by
  have hone : ∀ (new : Option RateProfile) (old : RateProfile), old ∈ cfg.profiles →
      (∀ x ∈ new, x ∈ patch.profiles) →
      new.getD old ∈ cfg.profiles ∨ new.getD old ∈ patch.profiles := by
    intro new old hold hnew
    rcases getD_mem_or new old with heq | hmem
    · rw [heq]
      exact .inl hold
    · exact .inr (hnew _ hmem)
  simp only [FirewallConfig.profiles, ConfigPatch.apply, List.mem_cons, List.not_mem_nil,
    or_false] at h
  rcases h with rfl | rfl | rfl | rfl
  · exact hone _ _ (by simp [FirewallConfig.profiles])
      fun x hx => (mem_profiles_iff patch x).mpr (.inl hx)
  · exact hone _ _ (by simp [FirewallConfig.profiles])
      fun x hx => (mem_profiles_iff patch x).mpr (.inr (.inl hx))
  · exact hone _ _ (by simp [FirewallConfig.profiles])
      fun x hx => (mem_profiles_iff patch x).mpr (.inr (.inr (.inl hx)))
  · exact hone _ _ (by simp [FirewallConfig.profiles])
      fun x hx => (mem_profiles_iff patch x).mpr (.inr (.inr (.inr hx)))

/-- One profile of a patched configuration fits exactly when the burst that the
patch brings does, given that the old profile and all new shifts fit. -/
theorem fits_getD_iff {new : Option RateProfile} {cur : RateProfile}
    (hcur : cur.rateShift.toNat ≤ I64_MAX ∧ cur.burst.toNat ≤ I64_MAX)
    (hshift : ∀ profile ∈ new, profile.rateShift.toNat ≤ I64_MAX) :
    ((new.getD cur).rateShift.toNat ≤ I64_MAX ∧ (new.getD cur).burst.toNat ≤ I64_MAX) ↔
      ∀ profile ∈ new, profile.burst.toNat ≤ I64_MAX := by
  cases new with
  | none => simpa using hcur
  | some profile => simpa using fun _ => hshift profile rfl

/-- A validated patch of a stored configuration fits into the database exactly
when its bursts do. -/
theorem fitsSqlite_apply_iff {old : FirewallConfig} {patch : ConfigPatch} (hold : FitsSqlite old)
    (hv : patch.validate = .ok ()) :
    FitsSqlite (patch.apply old) ↔
      ∀ profile ∈ patch.profiles, profile.burst.toNat ≤ I64_MAX := by
  rw [validate_ok_iff] at hv
  have hshift : ∀ profile ∈ patch.profiles, profile.rateShift.toNat ≤ I64_MAX := by
    intro profile hp
    have hle : profile.rateShift.toNat ≤ 63 := UInt64.le_iff_toNat_le.mp (hv profile hp)
    exact Nat.le_trans hle (by decide)
  have htcp : ∀ x ∈ patch.tcpProfile, x ∈ patch.profiles :=
    fun x hx => (mem_profiles_iff patch x).mpr (.inl hx)
  have hudp : ∀ x ∈ patch.udpProfile, x ∈ patch.profiles :=
    fun x hx => (mem_profiles_iff patch x).mpr (.inr (.inl hx))
  have hicmp : ∀ x ∈ patch.icmpProfile, x ∈ patch.profiles :=
    fun x hx => (mem_profiles_iff patch x).mpr (.inr (.inr (.inl hx)))
  have hdefault : ∀ x ∈ patch.defaultProfile, x ∈ patch.profiles :=
    fun x hx => (mem_profiles_iff patch x).mpr (.inr (.inr (.inr hx)))
  have tcp := fits_getD_iff hold.tcp fun x hx => hshift x (htcp x hx)
  have udp := fits_getD_iff hold.udp fun x hx => hshift x (hudp x hx)
  have icmp := fits_getD_iff hold.icmp fun x hx => hshift x (hicmp x hx)
  have default := fits_getD_iff hold.default fun x hx => hshift x (hdefault x hx)
  constructor
  · intro h profile hp
    rcases (mem_profiles_iff patch profile).mp hp with hx | hx | hx | hx
    · exact tcp.mp h.tcp profile hx
    · exact udp.mp h.udp profile hx
    · exact icmp.mp h.icmp profile hx
    · exact default.mp h.default profile hx
  · intro h
    exact ⟨tcp.mpr fun x hx => h x (htcp x hx), udp.mpr fun x hx => h x (hudp x hx),
      icmp.mpr fun x hx => h x (hicmp x hx), default.mpr fun x hx => h x (hdefault x hx)⟩

theorem rebootIfChanged_error_iff (o : AttachOutcomes) (patch : ConfigPatch)
    (cfg : FirewallConfig) (ebpf : Option EbpfProgramm) :
    (∃ e p, rebootIfChanged o patch cfg ebpf = (.error e, p)) ↔ AttachFails o patch cfg ebpf := by
  unfold rebootIfChanged AttachFails
  cases hc : patch.adaptersChanged with
  | false => simp
  | true =>
    cases ebpf with
    | none => simp
    | some p =>
      have hok := reboot_ok_iff o cfg p
      cases hr : p.reboot o cfg with
      | mk r p' =>
        rw [hr] at hok
        cases r <;> simp_all

theorem fitsSqlite_clear {cfg : FirewallConfig} (h : FitsSqlite cfg) :
    FitsSqlite (clearAdapters cfg) := ⟨h.tcp, h.udp, h.icmp, h.default⟩

/-- The answer of an accepted request whose attach fails. -/
theorem update_attachFailed_iff {old : FirewallConfig} {patch : ConfigPatch} {s : ConfigState}
    {ebpf : Option EbpfProgramm} (hold : FitsSqlite old) :
    AllOrNothing old patch s (attachFailed,
      { config := some (clearAdapters (patch.apply old))
        row := (saveFirewallConfig false (clearAdapters (patch.apply old)) s.row).2
        ebpf := ebpf }) ↔ clearAdapters (patch.apply old) = clearAdapters old := by
  constructor
  · intro h
    exact Option.some.inj (h.2.1 rfl).1
  · intro h
    obtain ⟨row, hrow⟩ := (firewallConfigRow_ok_iff _).mpr (fitsSqlite_clear hold)
    refine ⟨fun hs => (by cases hs), fun _ => ?_, fun _ hn => absurd rfl hn⟩
    rw [h]
    exact ⟨rfl, row, hrow, by simp [saveFirewallConfig, hrow]⟩

/-- The answer of an accepted request whose attach does not fail. -/
theorem update_attached_iff {old new : FirewallConfig} {patch : ConfigPatch} {s : ConfigState}
    {ebpf : Option EbpfProgramm} (hnew : patch.apply old = new) (h : Persisted s old) :
    AllOrNothing old patch s
      (match saveFirewallConfig false new s.row with
        | (.error _, row) =>
          (⟨.INTERNAL_SERVER_ERROR, .text "Failed to persist firewall configuration"⟩,
            ⟨some new, row, ebpf⟩)
        | (.ok _, row) => (⟨.OK, .config new⟩, ⟨some new, row, ebpf⟩)) ↔ FitsSqlite new := by
  subst hnew
  obtain ⟨hconfig, oldRow, holdRow, hrow⟩ := h
  have hold := (firewallConfigRow_ok_iff old).mp ⟨oldRow, holdRow⟩
  cases hr : firewallConfigRow (patch.apply old) with
  | error e =>
    have hnot : ¬ FitsSqlite (patch.apply old) := by
      rw [← firewallConfigRow_ok_iff, hr]
      simp
    simp only [saveFirewallConfig, hr, hnot, iff_false]
    intro hall
    have hsame := (hall.2.2 (by simp) (by simp [attachFailed])).1
    rw [hconfig] at hsame
    exact hnot (by rw [Option.some.inj hsame]; exact hold)
  | ok row =>
    have hfits := (firewallConfigRow_ok_iff (patch.apply old)).mp ⟨row, hr⟩
    simp only [saveFirewallConfig, hr, hfits, iff_true, Bool.false_eq_true, if_false]
    refine ⟨fun _ => ⟨rfl, row, hr, rfl⟩, fun hf => ?_, fun hs => absurd rfl hs⟩
    simp [attachFailed] at hf

/-- An update keeps map and database in agreement, all or nothing, exactly when
it is refused or its patch is harmless. -/
theorem update_config_iff (session : Option CallerContext) (patch : ConfigPatch)
    (o : AttachOutcomes) (s : ConfigState) (old : FirewallConfig) (h : Persisted s old) :
    AllOrNothing old patch s (updateConfig session patch o .never s) ↔
      (Authorized session .MODIFY → patch.validate = .ok () → Harmless o patch old s.ebpf) := by
  have hold : FitsSqlite old :=
    (firewallConfigRow_ok_iff old).mp (h.2.imp fun row hrow => hrow.1)
  have hrefused : ∀ r : Response, r.status ≠ .OK → r ≠ attachFailed →
      AllOrNothing old patch s (r, s) :=
    fun r hs hn => ⟨fun hok => absurd hok hs, fun hf => absurd hf hn, fun _ _ => ⟨rfl, rfl⟩⟩
  unfold updateConfig
  rcases withPermission_cases session .MODIFY _ s with ⟨hno, heq⟩ | ⟨caller, hsome, hmay, heq⟩
  · rw [heq]
    simp [hno, hrefused StatusCode.UNAUTHORIZED.intoResponse (by simp)
      (by simp [attachFailed, StatusCode.intoResponse])]
  · rw [heq]
    have hauth : Authorized session .MODIFY := ⟨caller, hsome, hmay⟩
    cases hv : patch.validate with
    | error msg =>
      simp [hrefused ⟨.BAD_REQUEST, .text msg⟩ (by simp) (by simp [attachFailed])]
    | ok u =>
      simp only [h.1, hauth, forall_const, Harmless]
      have hattach := rebootIfChanged_error_iff o patch (patch.apply old) s.ebpf
      cases hr : rebootIfChanged o patch (patch.apply old) s.ebpf with
      | mk r ebpf =>
        rw [hr] at hattach
        cases r with
        | error e =>
          have hfails : AttachFails o patch (patch.apply old) s.ebpf := hattach.mp ⟨e, ebpf, rfl⟩
          simp only [ConfigFaults.never, Bool.false_eq_true, if_false, hfails, not_true_eq_false,
            forall_const, false_imp_iff, and_true]
          exact update_attachFailed_iff hold
        | ok u' =>
          have hok : ¬ AttachFails o patch (patch.apply old) s.ebpf := by
            rw [← hattach]
            simp
          simp only [ConfigFaults.never, Bool.false_eq_true, if_false, hok, not_false_eq_true,
            forall_const, false_imp_iff, true_and]
          rw [← fitsSqlite_apply_iff hold hv]
          exact update_attached_iff rfl h

/-- The default configuration, persisted, with no program loaded. -/
def defaultState : ConfigState where
  config := some defaultConfig
  row := (firewallConfigRow defaultConfig).toOption
  ebpf := none

theorem defaultState_persisted : Persisted defaultState defaultConfig :=
  ⟨rfl, ⟨20, 1000, 19, 2000, 26, 10, 23, 100, 18, true, true, none, none⟩, by decide, by decide⟩

def noAttach : AttachOutcomes := ⟨true, fun _ => true, none, none⟩

def slowerPatch : ConfigPatch := { tcpProfile := some ⟨21, 500⟩ }

/-- A burst that SQLite has no integer for. -/
def hugePatch : ConfigPatch := { tcpProfile := some ⟨20, 0x8000000000000000⟩ }

theorem update_config_slower :
    AllOrNothing defaultConfig slowerPatch defaultState
      (updateConfig (some .root) slowerPatch noAttach .never defaultState) := by
  refine (update_config_iff (some .root) slowerPatch noAttach defaultState defaultConfig
    defaultState_persisted).mpr ?_
  intro _ _
  constructor
  · rintro ⟨hchanged, -⟩
    cases hchanged
  · intro _ profile hp
    rw [List.mem_singleton.mp hp]
    decide

/-- The huge burst reaches the map and not the row. -/
theorem update_config_torn :
    ¬ AllOrNothing defaultConfig hugePatch defaultState
      (updateConfig (some .root) hugePatch noAttach .never defaultState) := by
  have hanswer : updateConfig (some .root) hugePatch noAttach .never defaultState =
      (⟨.INTERNAL_SERVER_ERROR, .text "Failed to persist firewall configuration"⟩,
        ⟨some (hugePatch.apply defaultConfig), defaultState.row, none⟩) := rfl
  rw [hanswer]
  intro h
  have hsame := (h.2.2 (by simp) (by simp [attachFailed])).1
  exact absurd hsame (by decide)

end Oxidrop
