import Oxidrop.Config
import Oxidrop.Lib.Run

/-!
# Configured and attached adapters

Three handlers move the attachment of the programs and the configured adapters
separately. An update whose attach fails repairs the configuration, and a
shutdown clears it. A restart whose attach fails does neither.
-/
namespace Oxidrop.Adapters

open Run

/-- Who may act on the programs, and whether there are programs. -/
def authorizedEbpfAction (session : Option CallerContext) (ebpf : Option EbpfProgramm) :
    Except StatusCode CallerContext :=
  match session with
  | none => .error .UNAUTHORIZED
  | some caller =>
    if caller.may .MODIFY then
      if ebpf.isNone then .error .SERVICE_UNAVAILABLE else .ok caller
    else .error .UNAUTHORIZED

def shutdownEbpf (session : Option CallerContext) (o : AttachOutcomes) (faults : ConfigFaults)
    (s : ConfigState) : Response × ConfigState :=
  match authorizedEbpfAction session s.ebpf with
  | .error status => (status.intoResponse, s)
  | .ok _ =>
    match s.config, s.ebpf with
    | none, _ => (⟨.INTERNAL_SERVER_ERROR, .text "CONFIG map unavailable"⟩, s)
    -- the action is not authorised without programs
    | some _, none => (StatusCode.SERVICE_UNAVAILABLE.intoResponse, s)
    | some cfg, some p =>
      match p.shutDownWorkingEbpf o with
      | (.error _, p) =>
        (⟨.INTERNAL_SERVER_ERROR, .text "Failed to shut down eBPF"⟩, { s with ebpf := some p })
      | (.ok _, p) =>
        let cfg := clearAdapters cfg
        if faults.mapSet then
          (⟨.INTERNAL_SERVER_ERROR, .text "Failed to clear eBPF adapter configuration"⟩,
            { s with ebpf := some p })
        else
          match saveFirewallConfig faults.statement cfg s.row with
          | (.error _, row) =>
            (⟨.INTERNAL_SERVER_ERROR, .text "Failed to persist eBPF adapter configuration"⟩,
              ⟨some cfg, row, some p⟩)
          | (.ok _, row) => (StatusCode.NO_CONTENT.intoResponse, ⟨some cfg, row, some p⟩)

def restartEbpf (session : Option CallerContext) (o : AttachOutcomes) (s : ConfigState) :
    Response × ConfigState :=
  match authorizedEbpfAction session s.ebpf with
  | .error status => (status.intoResponse, s)
  | .ok _ =>
    match s.config, s.ebpf with
    | none, _ => (⟨.INTERNAL_SERVER_ERROR, .text "CONFIG map unavailable"⟩, s)
    -- the action is not authorised without programs
    | some _, none => (StatusCode.SERVICE_UNAVAILABLE.intoResponse, s)
    | some cfg, some p =>
      if cfg.incomingEthernetAdapter.isNone && cfg.outputEthernetAdapter.isNone then
        (StatusCode.NO_CONTENT.intoResponse, s)
      else
        match p.reboot o cfg with
        | (.error _, p) =>
          (⟨.INTERNAL_SERVER_ERROR, .text "Failed to restart eBPF"⟩, { s with ebpf := some p })
        | (.ok _, p) => (StatusCode.NO_CONTENT.intoResponse, { s with ebpf := some p })

/-! ## Runs of requests -/

inductive Request where
  | updateConfig (patch : ConfigPatch)
  | shutdownEbpf
  | restartEbpf

/-- A request, the session behind it, and what the kernel and the database
answer meanwhile. The program is loaded, and CONFIG can be written. -/
structure Call where
  session : Option CallerContext
  request : Request
  detach : XdpLinkId → Bool
  incoming : Option XdpLinkId
  output : Option XdpLinkId
  statementFails : Bool

def Call.outcomes (c : Call) : AttachOutcomes := ⟨true, c.detach, c.incoming, c.output⟩

def Call.faults (c : Call) : ConfigFaults := ⟨false, c.statementFails⟩

def handle : Machine Call ConfigState Response := fun c s =>
  match c.request with
  | .updateConfig patch => updateConfig c.session patch c.outcomes c.faults s
  | .shutdownEbpf => shutdownEbpf c.session c.outcomes c.faults s
  | .restartEbpf => restartEbpf c.session c.outcomes s

def adaptersOf (cfg : FirewallConfig) : Option UInt32 × Option UInt32 :=
  (cfg.incomingEthernetAdapter, cfg.outputEthernetAdapter)

/-- The adapters in CONFIG are those that are attached. -/
def Agree (s : ConfigState) : Prop :=
  ∃ cfg p, s.config = some cfg ∧ s.ebpf = some p ∧ adaptersOf cfg = p.attachedAdapters

/-- The adapters in the row are those that are attached. -/
def RowAgrees (s : ConfigState) : Prop :=
  ∃ row p, s.row = some row ∧ s.ebpf = some p ∧
    row.incomingEthernetAdapter = p.attachedAdapters.1.map (fun index => (index.toNat : Int)) ∧
    row.outputEthernetAdapter = p.attachedAdapters.2.map (fun index => (index.toNat : Int))

/-- The request gets as far as writing the row. -/
def Call.Saves (c : Call) : Prop :=
  Authorized c.session .MODIFY ∧
    match c.request with
    | .updateConfig patch => patch.validate = .ok ()
    | .shutdownEbpf => True
    | .restartEbpf => False

/-- The database accepts the row: the statement succeeds, and the integers of
the new configuration fit. -/
def Accepted (s : ConfigState) (c : Call) : Prop :=
  c.Saves ∧ c.statementFails = false ∧ ∀ cfg, (handle c s).2.config = some cfg → FitsSqlite cfg

/-- After the request configuration and attachment agree, and so does the row
if the database accepted it, or if it agreed and the request does not write it. -/
structure AgreeAfter (s : ConfigState) (c : Call) : Prop where
  config : Agree (handle c s).2
  row : Accepted s c → RowAgrees (handle c s).2
  kept : ¬ c.Saves → RowAgrees s → RowAgrees (handle c s).2

/-- No permitted restart of configured adapters fails to attach one of them. -/
def Restarts (s : ConfigState) (c : Call) : Prop :=
  ∀ cfg, c.request = .restartEbpf → Authorized c.session .MODIFY → s.config = some cfg →
    adaptersOf cfg ≠ (none, none) → c.outcomes.Attaches cfg

/-! ## What each handler leaves -/

/-- The new configuration is written, is offered to the database, and agrees
with the programs. -/
def Written (c : Call) (s s' : ConfigState) : Prop :=
  ∃ cfg p, s' = ⟨some cfg, (saveFirewallConfig c.statementFails cfg s.row).2, some p⟩ ∧
    adaptersOf cfg = p.attachedAdapters

theorem authorizedEbpfAction_cases (session : Option CallerContext) (p : EbpfProgramm) :
    (Authorized session .MODIFY ∧
      ∃ caller, authorizedEbpfAction session (some p) = .ok caller) ∨
    (¬ Authorized session .MODIFY ∧
      ∃ status, authorizedEbpfAction session (some p) = .error status) := by
  cases session with
  | none => exact .inr ⟨by simp [Authorized], _, rfl⟩
  | some caller =>
    by_cases hmay : caller.may .MODIFY = true
    · exact .inl ⟨⟨caller, rfl, hmay⟩, caller, by simp [authorizedEbpfAction, hmay]⟩
    · exact .inr ⟨by simp [Authorized, hmay], .UNAUTHORIZED, by simp [authorizedEbpfAction, hmay]⟩

theorem shutdown_cases {s : ConfigState} {c : Call} (hs : Agree s)
    (hc : c.request = .shutdownEbpf) :
    (¬ c.Saves ∧ (handle c s).2 = s) ∨ (c.Saves ∧ Written c s (handle c s).2) := by
  obtain ⟨cfg, p, hcfg, hp, -⟩ := hs
  simp only [handle, hc, shutdownEbpf, hp, hcfg, Call.Saves, and_true]
  rcases authorizedEbpfAction_cases c.session p with ⟨hauth, caller, hok⟩ | ⟨hauth, status, hno⟩
  · obtain ⟨p', hp'⟩ := (shutDownWorkingEbpf_ok_iff c.outcomes p).mpr rfl
    have hdown : p'.attachedAdapters = (none, none) := by
      have := shutDownWorkingEbpf_adapters (o := c.outcomes) rfl p
      rwa [hp'] at this
    refine .inr ⟨hauth, clearAdapters cfg, p', ?_, hdown.symm⟩
    simp only [hok, hp', Call.faults, Bool.false_eq_true, if_false]
    cases hsave : saveFirewallConfig c.statementFails (clearAdapters cfg) s.row with
    | mk result row => cases result <;> rfl
  · exact .inl ⟨hauth, by simp only [hno]⟩

/-- The programs after the reboot of an update: they carry the patched adapters,
or none when the attach has failed. -/
theorem rebootIfChanged_cases {o : AttachOutcomes} (ho : o.program = true) (patch : ConfigPatch)
    {cfg : FirewallConfig} {p : EbpfProgramm} (h : adaptersOf cfg = p.attachedAdapters) :
    (∃ p', rebootIfChanged o patch (patch.apply cfg) (some p) = (.ok (), some p') ∧
      adaptersOf (patch.apply cfg) = p'.attachedAdapters) ∨
    (∃ e p', rebootIfChanged o patch (patch.apply cfg) (some p) = (.error e, some p') ∧
      p'.attachedAdapters = (none, none)) := by
  cases hchanged : patch.adaptersChanged with
  | false =>
    refine .inl ⟨p, by simp [rebootIfChanged, hchanged], ?_⟩
    simp only [ConfigPatch.adaptersChanged, Bool.or_eq_false_iff, Option.isSome_eq_false_iff,
      Option.isNone_iff_eq_none] at hchanged
    rw [← h]
    simp [adaptersOf, ConfigPatch.apply, hchanged]
  | true =>
    have hadapters := reboot_adapters ho (patch.apply cfg) p
    have hok := reboot_ok_iff o (patch.apply cfg) p
    simp only [rebootIfChanged, hchanged, if_true]
    cases hr : p.reboot o (patch.apply cfg) with
    | mk r p' =>
      rw [hr] at hadapters hok
      cases r with
      | ok u =>
        have hattaches : o.Attaches (patch.apply cfg) := hok.mp ⟨p', rfl⟩
        exact .inl ⟨p', rfl, (hadapters.1 hattaches).symm⟩
      | error e =>
        have hfails : ¬ o.Attaches (patch.apply cfg) := by
          rw [← hok]
          simp
        exact .inr ⟨e, p', rfl, hadapters.2 hfails⟩

theorem update_cases {s : ConfigState} {c : Call} {patch : ConfigPatch} (hs : Agree s)
    (hc : c.request = .updateConfig patch) :
    (¬ c.Saves ∧ (handle c s).2 = s) ∨ (c.Saves ∧ Written c s (handle c s).2) := by
  obtain ⟨cfg, p, hcfg, hp, hagree⟩ := hs
  simp only [handle, hc, Call.Saves]
  unfold updateConfig
  rcases withPermission_cases c.session .MODIFY _ s with ⟨hno, heq⟩ | ⟨caller, hsome, hmay, heq⟩
  · rw [heq]
    exact .inl ⟨fun h => hno h.1, rfl⟩
  · rw [heq]
    have hauth : Authorized c.session .MODIFY := ⟨caller, hsome, hmay⟩
    cases hv : patch.validate with
    | error msg => exact .inl ⟨by simp, rfl⟩
    | ok u =>
      refine .inr ⟨⟨hauth, rfl⟩, ?_⟩
      simp only [hcfg, hp]
      rcases rebootIfChanged_cases (o := c.outcomes) rfl patch hagree with
        ⟨p', hr, hadapters⟩ | ⟨e, p', hr, hadapters⟩
      · refine ⟨patch.apply cfg, p', ?_, hadapters⟩
        simp only [hr, Call.faults, Bool.false_eq_true, if_false]
        cases hsave : saveFirewallConfig c.statementFails (patch.apply cfg) s.row with
        | mk result row => cases result <;> rfl
      · exact ⟨clearAdapters (patch.apply cfg), p', by simp [hr, Call.faults], hadapters.symm⟩

/-- A restart touches neither CONFIG nor the row. -/
theorem restart_cases {s : ConfigState} {c : Call} {cfg : FirewallConfig} {p : EbpfProgramm}
    (hcfg : s.config = some cfg) (hp : s.ebpf = some p) (hc : c.request = .restartEbpf) :
    ((¬ Authorized c.session .MODIFY ∨ adaptersOf cfg = (none, none)) ∧ (handle c s).2 = s) ∨
    (Authorized c.session .MODIFY ∧ adaptersOf cfg ≠ (none, none) ∧
      (handle c s).2 = { s with ebpf := some (p.reboot c.outcomes cfg).2 }) := by
  simp only [handle, hc, restartEbpf, hp, hcfg]
  rcases authorizedEbpfAction_cases c.session p with ⟨hauth, caller, hok⟩ | ⟨hauth, status, hno⟩
  · have hnone : (cfg.incomingEthernetAdapter.isNone && cfg.outputEthernetAdapter.isNone) = true ↔
        adaptersOf cfg = (none, none) := by simp [adaptersOf]
    by_cases hadapters : adaptersOf cfg = (none, none)
    · exact .inl ⟨.inr hadapters, by simp only [hok, hnone.mpr hadapters, if_true]⟩
    · refine .inr ⟨hauth, hadapters, ?_⟩
      simp only [hok, mt hnone.mp hadapters]
      cases hr : p.reboot c.outcomes cfg with
      | mk result p' => cases result <;> rfl
  · exact .inl ⟨.inl hauth, by simp only [hno]⟩

/-! ## Agreement -/

theorem Written.agree {c : Call} {s s' : ConfigState} (h : Written c s s') : Agree s' := by
  obtain ⟨cfg, p, rfl, hadapters⟩ := h
  exact ⟨cfg, p, rfl, rfl, hadapters⟩

theorem Written.rowAgrees {c : Call} {s : ConfigState} (h : Written c s (handle c s).2)
    (hacc : Accepted s c) : RowAgrees (handle c s).2 := by
  obtain ⟨-, hstatement, hfits⟩ := hacc
  obtain ⟨cfg, p, heq, hadapters⟩ := h
  rw [heq] at hfits ⊢
  obtain ⟨row, hrow⟩ := (firewallConfigRow_ok_iff cfg).mpr (hfits cfg rfl)
  refine ⟨row, p, by simp [saveFirewallConfig, hrow, hstatement], rfl, ?_⟩
  rw [← hadapters]
  exact firewallConfigRow_adapters hrow

/-- A request that leaves everything as it is. -/
theorem agreeAfter_unchanged {s : ConfigState} {c : Call} (hs : Agree s) (hsaves : ¬ c.Saves)
    (h : (handle c s).2 = s) : AgreeAfter s c :=
  ⟨by rwa [h], fun hacc => absurd hacc.1 hsaves, fun _ hrow => by rwa [h]⟩

/-- A request that writes all three stores, or none. -/
theorem agreeAfter_written {s : ConfigState} {c : Call} (hs : Agree s)
    (h : (¬ c.Saves ∧ (handle c s).2 = s) ∨ (c.Saves ∧ Written c s (handle c s).2)) :
    AgreeAfter s c := by
  rcases h with ⟨hno, h⟩ | ⟨hyes, h⟩
  · exact agreeAfter_unchanged hs hno h
  · exact ⟨h.agree, h.rowAgrees, fun hno _ => absurd hyes hno⟩

/-- One request keeps the agreement unless it is a restart that fails to attach. -/
theorem agreeAfter_iff {s : ConfigState} (hs : Agree s) (c : Call) :
    AgreeAfter s c ↔ Restarts s c := by
  cases hc : c.request with
  | updateConfig patch =>
    have hrestarts : Restarts s c := fun cfg hr => by simp [hc] at hr
    exact iff_of_true (agreeAfter_written hs (update_cases hs hc)) hrestarts
  | shutdownEbpf =>
    have hrestarts : Restarts s c := fun cfg hr => by simp [hc] at hr
    exact iff_of_true (agreeAfter_written hs (shutdown_cases hs hc)) hrestarts
  | restartEbpf =>
    have hsaves : ¬ c.Saves := by simp [Call.Saves, hc]
    obtain ⟨cfg, p, hcfg, hp, hagree⟩ := hs
    rcases restart_cases hcfg hp hc with ⟨hskip, h⟩ | ⟨hauth, hsome, h⟩
    · refine iff_of_true (agreeAfter_unchanged ⟨cfg, p, hcfg, hp, hagree⟩ hsaves h) ?_
      intro cfg' _ hauth hcfg' hsome
      rw [hcfg] at hcfg'
      cases hcfg'
      rcases hskip with hno | hnone
      · exact absurd hauth hno
      · exact absurd hnone hsome
    · have hadapters := reboot_adapters (o := c.outcomes) rfl cfg p
      constructor
      · intro hafter cfg' _ _ hcfg' _
        rw [hcfg] at hcfg'
        cases hcfg'
        by_contra hfails
        obtain ⟨cfg', p', hcfg', hp', hsame⟩ := hafter.config
        rw [h] at hcfg' hp'
        simp only [hcfg, Option.some.injEq] at hcfg' hp'
        subst hcfg' hp'
        exact hsome (hsame.trans (hadapters.2 hfails))
      · intro hrestarts
        have hattached := hadapters.1 (hrestarts cfg hc hauth hcfg hsome)
        refine ⟨?_, fun hacc => absurd hacc.1 hsaves, fun _ hrow => ?_⟩
        · rw [h]
          exact ⟨cfg, _, hcfg, rfl, hattached.symm⟩
        · obtain ⟨row, p', hrow, hp', hin, hout⟩ := hrow
          rw [hp] at hp'
          cases hp'
          rw [h]
          refine ⟨row, _, hrow, rfl, ?_, ?_⟩
          · rw [hin, ← hagree, hattached]
            rfl
          · rw [hout, ← hagree, hattached]
            rfl

/-- Configured and attached adapters agree after every request exactly when no
restart fails to attach. -/
theorem adapters_agree_iff (s : ConfigState) (calls : List Call) (hs : Agree s) :
    Always handle AgreeAfter s calls ↔ Always handle Restarts s calls :=
  always_congr (fun _ c hs => agreeAfter_iff hs c) (fun _ _ _ h => h.config) s calls hs

/-- Two adapters, attached and configured. -/
def attachedState : ConfigState where
  config := some { defaultConfig with
    incomingEthernetAdapter := some 3, outputEthernetAdapter := some 4 }
  row := none
  ebpf := some ⟨⟨[(1, 3), (2, 4)]⟩, [1, 2], some 4, some 3⟩

theorem attachedState_agree : Agree attachedState := ⟨_, _, rfl, rfl, rfl⟩

def rootCall (request : Request) (incoming output : Option XdpLinkId) : Call :=
  ⟨some .root, request, fun _ => true, incoming, output, false⟩

/-- An update whose attach fails, a shutdown, and a restart with nothing to
attach. -/
theorem adapters_agree_repaired :
    Always handle AgreeAfter attachedState
      [rootCall .restartEbpf (some 5) (some 6),
        rootCall (.updateConfig { incomingEthernetAdapter := some (some 7) }) (some 8) none,
        rootCall .shutdownEbpf none none, rootCall .restartEbpf none none] := by
  refine (adapters_agree_iff attachedState _ attachedState_agree).mpr ⟨?_, ?_, ?_, ?_, trivial⟩
  · intro cfg _ _ _ _
    exact ⟨rfl, fun _ => rfl, fun _ => rfl⟩
  · intro cfg hc
    cases hc
  · intro cfg hc
    cases hc
  · intro cfg _ _ hcfg hsome
    cases hcfg
    exact absurd rfl hsome

/-- The restart that finds the incoming interface gone. -/
theorem restart_disagrees :
    ¬ Always handle AgreeAfter attachedState [rootCall .restartEbpf none (some 6)] := by
  rintro ⟨hafter, -⟩
  obtain ⟨cfg, p, hcfg, hp, hadapters⟩ := hafter.config
  cases hcfg
  cases hp
  cases hadapters

end Oxidrop.Adapters
