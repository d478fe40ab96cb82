import Oxidrop.Adapters
import Oxidrop.Subnet
import Oxidrop.Management
import Oxidrop.Lib.LockProgress

/-!
# Requests at the same time

The handlers that keep a lock while they wait run at the same time, and the time limit
may drop each of them wherever it waits. Between two waits they only touch what is behind
their locks: CONFIG with its row, the programs, and the rules of one address family.
-/
namespace Oxidrop.Concurrency

open Run Locks Adapters Management

/-! ## Locks -/

inductive Lock where
  | config
  | ebpf
  | subnetMatching (family : Family)
  deriving DecidableEq, Repr

def Network : Family → Type
  | .v4 => UInt32
  | .v6 => Words

def Column : Family → Type
  | .v4 => Int
  | .v6 => List UInt8

instance : (family : Family) → DecidableEq (Column family)
  | .v4 => inferInstanceAs (DecidableEq Int)
  | .v6 => inferInstanceAs (DecidableEq (List UInt8))

def subnetFamily : (family : Family) → SubnetFamily (Network family) (Column family)
  | .v4 => subnetFamilyV4
  | .v6 => subnetFamilyV6

/-- CONFIG, and the row with id 1, which only its handlers write. -/
structure ConfigPart where
  entry : Option FirewallConfig
  row : Option FirewallConfigRow

def Part : Lock → Type
  | .config => ConfigPart
  | .ebpf => EbpfProgramm
  | .subnetMatching family => SubnetStore (Column family)

abbrev Store := (l : Lock) → Part l

def Store.config (s : Store) : ConfigPart := s .config

def Store.ebpf (s : Store) : EbpfProgramm := s .ebpf

def Store.subnet (s : Store) (family : Family) : SubnetStore (Column family) :=
  s (.subnetMatching family)

def Store.setSubnet (s : Store) (family : Family) (rules : SubnetStore (Column family)) : Store :=
  Function.update s (.subnetMatching family) rules

/-- The adapters of `get_ebpf_adapters`, with `enforcement_active`. -/
inductive Reply where
  | response (response : Response)
  | adapters (attached : Option UInt32 × Option UInt32) (active : Bool)
  deriving DecidableEq, Repr

/-! ## Handlers, from one wait to the next -/

abbrev Handler := Prog Lock Part Reply

def respond (response : Response) : Handler := .done (.response response)

def permitted (session : Option CallerContext) (permission : ActionPermissions)
    (body : CallerContext → Handler) : Handler :=
  match session with
  | none => respond StatusCode.UNAUTHORIZED.intoResponse
  | some caller =>
    if caller.may permission then body caller else respond StatusCode.UNAUTHORIZED.intoResponse

/-- `config.get(&0, 0)`. -/
def configGet (next : Option FirewallConfig → Handler) : Handler :=
  .act .config id fun (c : ConfigPart) => next c.entry

/-- `config.set(0, cfg, 0)`. -/
def configSet (cfg : FirewallConfig) (next : Handler) : Handler :=
  .act .config (fun (c : ConfigPart) => { c with entry := some cfg }) fun _ => next

/-- `db.save_firewall_config(&cfg).await`. -/
def configSave (fails : Bool) (cfg : FirewallConfig) (next : Except SqlxError Unit → Handler) :
    Handler :=
  .act .config (fun (c : ConfigPart) => { c with row := (saveFirewallConfig fails cfg c.row).2 })
    fun c => next (saveFirewallConfig fails cfg c.row).1

def ebpfAct (write : EbpfProgramm → EbpfProgramm) (next : EbpfProgramm → Handler) : Handler :=
  .act .ebpf write next

/-- The end of `update_config`: CONFIG, then its row. -/
def writeConfig (faults : ConfigFaults) (cfg : FirewallConfig) : Handler :=
  if faults.mapSet then respond ⟨.INTERNAL_SERVER_ERROR, .text "Failed to update CONFIG map"⟩
  else
    configSet cfg <| configSave faults.statement cfg fun
      | .error _ => respond
          ⟨.INTERNAL_SERVER_ERROR, .text "Failed to persist firewall configuration"⟩
      | .ok _ => respond ⟨.OK, .config cfg⟩

/-- The programs are attached under their own lock, which is given back before CONFIG
is written. A failed attach keeps it. -/
def updateConfigHandler (session : Option CallerContext) (patch : ConfigPatch)
    (o : AttachOutcomes) (faults : ConfigFaults) : Handler :=
  permitted session .MODIFY fun _ =>
    match patch.validate with
    | .error msg => respond ⟨.BAD_REQUEST, .text msg⟩
    | .ok _ =>
      .acquire .config <| configGet fun
        | none => respond ⟨.INTERNAL_SERVER_ERROR, .text "CONFIG map not initialized"⟩
        | some cfg =>
          let cfg := patch.apply cfg
          if patch.adaptersChanged then
            .acquire .ebpf <| ebpfAct (fun p => (p.reboot o cfg).2) fun p =>
              match (p.reboot o cfg).1 with
              | .error _ =>
                let save := configSave faults.statement (clearAdapters cfg) fun _ =>
                  respond attachFailed
                if faults.mapSet then save else configSet (clearAdapters cfg) save
              | .ok _ => .release .ebpf (writeConfig faults cfg)
          else writeConfig faults cfg

def shutdownEbpfHandler (session : Option CallerContext) (o : AttachOutcomes)
    (faults : ConfigFaults) : Handler :=
  permitted session .MODIFY fun _ =>
    .acquire .config <| configGet fun
      | none => respond ⟨.INTERNAL_SERVER_ERROR, .text "CONFIG map unavailable"⟩
      | some cfg =>
        .acquire .ebpf <| ebpfAct (fun p => (p.shutDownWorkingEbpf o).2) fun p =>
          match (p.shutDownWorkingEbpf o).1 with
          | .error _ => respond ⟨.INTERNAL_SERVER_ERROR, .text "Failed to shut down eBPF"⟩
          | .ok _ =>
            if faults.mapSet then
              respond
                ⟨.INTERNAL_SERVER_ERROR, .text "Failed to clear eBPF adapter configuration"⟩
            else
              configSet (clearAdapters cfg) <|
                configSave faults.statement (clearAdapters cfg) fun
                  | .error _ => respond
                      ⟨.INTERNAL_SERVER_ERROR, .text "Failed to persist eBPF adapter configuration"⟩
                  | .ok _ => respond StatusCode.NO_CONTENT.intoResponse

def restartEbpfHandler (session : Option CallerContext) (o : AttachOutcomes) : Handler :=
  permitted session .MODIFY fun _ =>
    .acquire .config <| configGet fun
      | none => respond ⟨.INTERNAL_SERVER_ERROR, .text "CONFIG map unavailable"⟩
      | some cfg =>
        .acquire .ebpf <|
          if cfg.incomingEthernetAdapter.isNone && cfg.outputEthernetAdapter.isNone then
            respond StatusCode.NO_CONTENT.intoResponse
          else
            ebpfAct (fun p => (p.reboot o cfg).2) fun p =>
              match (p.reboot o cfg).1 with
              | .error _ => respond ⟨.INTERNAL_SERVER_ERROR, .text "Failed to restart eBPF"⟩
              | .ok _ => respond StatusCode.NO_CONTENT.intoResponse

def getConfigHandler : Handler :=
  .acquire .config <| configGet fun
    | none => respond ⟨.INTERNAL_SERVER_ERROR, .text "CONFIG map not initialized"⟩
    | some cfg => respond ⟨.OK, .config cfg⟩

def getEbpfAdaptersHandler (session : Option CallerContext) : Handler :=
  match session with
  | none => respond StatusCode.UNAUTHORIZED.intoResponse
  | some _ =>
    .acquire .ebpf <| ebpfAct id fun p => .done (.adapters p.attachedAdapters p.enforcementActive)

section Subnets

variable (family : Family)

/-- A write to the trie, or a statement on the table, of one family. -/
def subnetAct (write : SubnetStore (Column family) → SubnetStore (Column family))
    (next : SubnetStore (Column family) → Handler) : Handler :=
  .act (.subnetMatching family) write next

def modifySubnetMatchingHandler (session : Option CallerContext) (faults : SubnetFaults)
    (payload : SubnetMatchUpdate (Network family)) : Handler :=
  let f := subnetFamily family
  permitted session .MODIFY fun caller =>
    if f.maxPrefix < payload.prefixLen then respond ⟨.BAD_REQUEST, .text f.badPrefix⟩
    else
      .acquire (.subnetMatching family) <|
        subnetAct family
          (fun s => { s with trie := (f.insertMatching faults payload s.trie).getD s.trie })
          fun s =>
            match f.insertMatching faults payload s.trie with
            | none => respond ⟨.INTERNAL_SERVER_ERROR, .text f.insertFailed⟩
            | some _ =>
              subnetAct family
                (fun s => { s with
                  rows := (f.saveSubnet faults.statement caller payload s.rows).2 })
                fun s =>
                  match (f.saveSubnet faults.statement caller payload s.rows).1 with
                  | .error _ =>
                    subnetAct family
                      (fun s =>
                        if faults.undo then s
                        else { s with trie := s.trie.remove (f.key payload) })
                      fun _ => respond StatusCode.INTERNAL_SERVER_ERROR.intoResponse
                  | .ok _ => respond StatusCode.OK.intoResponse

def removeSubnetMatchingHandler (session : Option CallerContext) (faults : SubnetFaults)
    (payload : SubnetMatchUpdate (Network family)) : Handler :=
  let f := subnetFamily family
  permitted session .DELETE fun caller =>
    if f.maxPrefix < payload.prefixLen then respond ⟨.BAD_REQUEST, .text f.badPrefix⟩
    else
      .acquire (.subnetMatching family) <|
        subnetAct family
          (fun s =>
            if faults.map ∨ s.trie (f.entry payload) = none then s
            else { s with trie := s.trie.remove (f.key payload) })
          fun s =>
            if faults.map ∨ s.trie (f.entry payload) = none then
              respond ⟨.INTERNAL_SERVER_ERROR, .text f.removeFailed⟩
            else
              subnetAct family
                (fun s => { s with
                  rows := (f.deleteSubnet faults.statement caller payload.network
                    payload.prefixLen s.rows).2 })
                fun s =>
                  match (f.deleteSubnet faults.statement caller payload.network
                    payload.prefixLen s.rows).1 with
                  | .error _ => respond StatusCode.INTERNAL_SERVER_ERROR.intoResponse
                  | .ok _ => respond StatusCode.OK.intoResponse

end Subnets

/-! ## Requests -/

inductive Request where
  | updateConfig (patch : ConfigPatch)
  | shutdownEbpf
  | restartEbpf
  | getConfig
  | getEbpfAdapters
  | modifySubnetMatching (family : Family) (payload : SubnetMatchUpdate (Network family))
  | removeSubnetMatching (family : Family) (payload : SubnetMatchUpdate (Network family))

/-- A request, what the kernel and the database answer meanwhile, and after how many of
its steps it is dropped, if it is. A statement that it waits for then has run, or does
not run any more. -/
structure Call where
  session : Option CallerContext
  request : Request
  outcomes : AttachOutcomes
  faults : ConfigFaults
  subnetFaults : SubnetFaults
  limit : Option Nat

def Call.handler (c : Call) : Handler :=
  match c.request with
  | .updateConfig patch => updateConfigHandler c.session patch c.outcomes c.faults
  | .shutdownEbpf => shutdownEbpfHandler c.session c.outcomes c.faults
  | .restartEbpf => restartEbpfHandler c.session c.outcomes
  | .getConfig => getConfigHandler
  | .getEbpfAdapters => getEbpfAdaptersHandler c.session
  | .modifySubnetMatching family payload =>
    modifySubnetMatchingHandler family c.session c.subnetFaults payload
  | .removeSubnetMatching family payload =>
    removeSubnetMatchingHandler family c.session c.subnetFaults payload

/-! ## One request alone -/

def configState (s : Store) : ConfigState := ⟨s.config.entry, s.config.row, some s.ebpf⟩

def setConfigState (s : Store) (c : ConfigState) : Store
  | .config => ConfigPart.mk c.config c.row
  | .ebpf => c.ebpf.getD (s .ebpf)
  | .subnetMatching family => s (.subnetMatching family)

def onConfig (handler : ConfigState → Response × ConfigState) (s : Store) : Reply × Store :=
  (.response (handler (configState s)).1, setConfigState s (handler (configState s)).2)

def onSubnet (family : Family)
    (handler : SubnetStore (Column family) → Response × SubnetStore (Column family))
    (s : Store) : Reply × Store :=
  (.response (handler (s.subnet family)).1, s.setSubnet family (handler (s.subnet family)).2)

/-- The request at once, as if nothing else ran. -/
def Call.atomic (c : Call) (s : Store) : Reply × Store :=
  match c.request with
  | .updateConfig patch => onConfig (updateConfig c.session patch c.outcomes c.faults) s
  | .shutdownEbpf => onConfig (shutdownEbpf c.session c.outcomes c.faults) s
  | .restartEbpf => onConfig (restartEbpf c.session c.outcomes) s
  | .getConfig =>
    (.response (match (configState s).config with
      | none => ⟨.INTERNAL_SERVER_ERROR, .text "CONFIG map not initialized"⟩
      | some cfg => ⟨.OK, .config cfg⟩), s)
  | .getEbpfAdapters =>
    (match c.session with
      | none => .response StatusCode.UNAUTHORIZED.intoResponse
      | some _ => .adapters s.ebpf.attachedAdapters s.ebpf.enforcementActive, s)
  | .modifySubnetMatching family payload =>
    onSubnet family ((subnetFamily family).modifySubnetMatching c.session c.subnetFaults payload) s
  | .removeSubnetMatching family payload =>
    onSubnet family ((subnetFamily family).removeSubnetMatching c.session c.subnetFaults payload) s

section Alone

variable {s : Store}

theorem store_ext {t : Store} (hconfig : s .config = t .config) (hebpf : s .ebpf = t .ebpf)
    (hsubnet : ∀ family, s (.subnetMatching family) = t (.subnetMatching family)) : s = t := by
  funext l
  cases l with
  | config => exact hconfig
  | ebpf => exact hebpf
  | subnetMatching family => exact hsubnet family

@[simp] theorem setConfigState_same :
    setConfigState s ⟨s.config.entry, s.config.row, some s.ebpf⟩ = s :=
  store_ext rfl rfl fun _ => rfl

@[simp] theorem setConfigState_set (c : ConfigState) (config : Option FirewallConfig)
    (row : Option FirewallConfigRow) (p : EbpfProgramm) :
    setConfigState (setConfigState s c) ⟨config, row, some p⟩ =
      setConfigState s ⟨config, row, some p⟩ :=
  store_ext rfl rfl fun _ => rfl

@[simp] theorem config_set (c : ConfigState) :
    (setConfigState s c).config = ⟨c.config, c.row⟩ := rfl

@[simp] theorem ebpf_set (config : Option FirewallConfig) (row : Option FirewallConfigRow)
    (p : EbpfProgramm) : (setConfigState s ⟨config, row, some p⟩).ebpf = p := rfl

theorem update_config (c : ConfigPart) :
    Function.update s .config c = setConfigState s ⟨c.entry, c.row, some s.ebpf⟩ :=
  store_ext (Function.update_self ..) (Function.update_of_ne (by simp) ..)
    fun _ => Function.update_of_ne (by simp) ..

theorem update_ebpf (p : EbpfProgramm) :
    Function.update s .ebpf p = setConfigState s ⟨s.config.entry, s.config.row, some p⟩ :=
  store_ext (Function.update_of_ne (by simp) ..) (Function.update_self ..)
    fun _ => Function.update_of_ne (by simp) ..

@[simp] theorem exec_respond (response : Response) :
    (respond response).exec s = (.response response, s) := rfl

@[simp] theorem exec_acquire (l : Lock) (next : Handler) :
    (Prog.acquire l next : Handler).exec s = next.exec s := rfl

@[simp] theorem exec_release (l : Lock) (next : Handler) :
    (Prog.release l next : Handler).exec s = next.exec s := rfl

@[simp] theorem exec_configGet (next : Option FirewallConfig → Handler) :
    (configGet next).exec s = (next s.config.entry).exec s :=
  congrArg (Prog.exec (next _)) (Function.update_eq_self Lock.config s)

@[simp] theorem exec_configSet (cfg : FirewallConfig) (next : Handler) :
    (configSet cfg next).exec s =
      next.exec (setConfigState s ⟨some cfg, s.config.row, some s.ebpf⟩) :=
  congrArg next.exec (update_config _)

@[simp] theorem exec_configSave (fails : Bool) (cfg : FirewallConfig)
    (next : Except SqlxError Unit → Handler) :
    (configSave fails cfg next).exec s =
      (next (saveFirewallConfig fails cfg s.config.row).1).exec
        (setConfigState s ⟨s.config.entry, (saveFirewallConfig fails cfg s.config.row).2,
          some s.ebpf⟩) :=
  congrArg (Prog.exec (next _)) (update_config _)

@[simp] theorem exec_ebpfAct (write : EbpfProgramm → EbpfProgramm)
    (next : EbpfProgramm → Handler) :
    (ebpfAct write next).exec s =
      (next s.ebpf).exec
        (setConfigState s ⟨s.config.entry, s.config.row, some (write s.ebpf)⟩) :=
  congrArg (Prog.exec (next _)) (update_ebpf _)

theorem exec_writeConfig (faults : ConfigFaults) (cfg : FirewallConfig) :
    (writeConfig faults cfg).exec s =
      let saved := saveFirewallConfig faults.statement cfg s.config.row
      if faults.mapSet then
        (.response ⟨.INTERNAL_SERVER_ERROR, .text "Failed to update CONFIG map"⟩, s)
      else
        (.response (match saved.1 with
          | .error _ => ⟨.INTERNAL_SERVER_ERROR, .text "Failed to persist firewall configuration"⟩
          | .ok _ => ⟨.OK, .config cfg⟩), setConfigState s ⟨some cfg, saved.2, some s.ebpf⟩) := by
  unfold writeConfig
  cases faults.mapSet with
  | true => simp
  | false => cases hsave : saveFirewallConfig faults.statement cfg s.config.row with
    | mk saved row => cases saved <;> simp [hsave]

theorem exec_updateConfig (session : Option CallerContext) (patch : ConfigPatch)
    (o : AttachOutcomes) (faults : ConfigFaults) :
    (updateConfigHandler session patch o faults).exec s =
      onConfig (updateConfig session patch o faults) s := by
  unfold updateConfigHandler permitted onConfig updateConfig withPermission rebootIfChanged
  cases session with
  | none => simp [configState]
  | some caller =>
    by_cases hmay : caller.may .MODIFY = true
    · simp only [hmay, if_true, configState]
      cases hvalid : patch.validate with
      | error msg => simp
      | ok u =>
        simp only [exec_acquire, exec_configGet]
        cases hcfg : s.config.entry with
        | none => simp [← hcfg]
        | some cfg =>
          by_cases hchanged : patch.adaptersChanged = true
          · simp only [hchanged, if_true, exec_acquire, exec_ebpfAct]
            cases hreboot : s.ebpf.reboot o (patch.apply cfg) with
            | mk result p => cases result with
              | error e => cases hset : faults.mapSet <;> simp [hcfg]
              | ok u =>
                cases hset : faults.mapSet with
                | true => simp [exec_writeConfig, hset, hcfg]
                | false =>
                  rcases hsave : saveFirewallConfig faults.statement (patch.apply cfg)
                    s.config.row with ⟨saved, row⟩
                  cases saved <;> simp [exec_writeConfig, hset, hsave]
          · cases hset : faults.mapSet with
            | true => simp [hchanged, exec_writeConfig, hset, ← hcfg]
            | false =>
              cases hsave : saveFirewallConfig faults.statement (patch.apply cfg) s.config.row with
              | mk saved row => cases saved <;> simp [hchanged, exec_writeConfig, hset, hsave]
    · simp [hmay, configState]

theorem exec_shutdownEbpf (session : Option CallerContext) (o : AttachOutcomes)
    (faults : ConfigFaults) :
    (shutdownEbpfHandler session o faults).exec s = onConfig (shutdownEbpf session o faults) s := by
  unfold shutdownEbpfHandler permitted onConfig shutdownEbpf authorizedEbpfAction
  cases session with
  | none => simp [configState]
  | some caller =>
    by_cases hmay : caller.may .MODIFY = true
    · simp only [hmay, if_true, exec_acquire, exec_configGet, configState]
      cases hcfg : s.config.entry with
      | none => simp [← hcfg]
      | some cfg =>
        simp only [exec_acquire, exec_ebpfAct, hcfg]
        cases hdown : s.ebpf.shutDownWorkingEbpf o with
        | mk result p => cases result with
          | error e => simp
          | ok u =>
            cases hset : faults.mapSet with
            | true => simp
            | false =>
              rcases hsave : saveFirewallConfig faults.statement (clearAdapters cfg)
                s.config.row with ⟨saved, row⟩
              cases saved <;> simp [hsave]
    · simp [hmay, configState]

theorem exec_restartEbpf (session : Option CallerContext) (o : AttachOutcomes) :
    (restartEbpfHandler session o).exec s = onConfig (restartEbpf session o) s := by
  unfold restartEbpfHandler permitted onConfig restartEbpf authorizedEbpfAction
  cases session with
  | none => simp [configState]
  | some caller =>
    by_cases hmay : caller.may .MODIFY = true
    · simp only [hmay, if_true, exec_acquire, exec_configGet, configState]
      cases hcfg : s.config.entry with
      | none => simp [← hcfg]
      | some cfg =>
        simp only [exec_acquire]
        by_cases hnone :
            (cfg.incomingEthernetAdapter.isNone && cfg.outputEthernetAdapter.isNone) = true
        · simp only [hnone, if_true, ← hcfg]
          simp
        · cases hreboot : s.ebpf.reboot o cfg with
          | mk result p => cases result <;> simp [hnone, hreboot, hcfg]
    · simp [hmay, configState]

section Subnets

variable (family : Family)

@[simp] theorem subnet_set (rules : SubnetStore (Column family)) :
    (s.setSubnet family rules).subnet family = rules := Function.update_self ..

@[simp] theorem setSubnet_set (rules rules' : SubnetStore (Column family)) :
    (s.setSubnet family rules).setSubnet family rules' = s.setSubnet family rules' :=
  Function.update_idem ..

@[simp] theorem setSubnet_same : s.setSubnet family (s.subnet family) = s :=
  Function.update_eq_self ..

@[simp] theorem setSubnet_mk_same :
    s.setSubnet family ⟨(s.subnet family).trie, (s.subnet family).rows⟩ = s :=
  setSubnet_same ..

@[simp] theorem exec_subnetAct (write : SubnetStore (Column family) → SubnetStore (Column family))
    (next : SubnetStore (Column family) → Handler) :
    (subnetAct family write next).exec s =
      (next (s.subnet family)).exec (s.setSubnet family (write (s.subnet family))) := rfl

theorem exec_modifySubnetMatching (session : Option CallerContext) (faults : SubnetFaults)
    (payload : SubnetMatchUpdate (Network family)) :
    (modifySubnetMatchingHandler family session faults payload).exec s =
      onSubnet family ((subnetFamily family).modifySubnetMatching session faults payload) s := by
  unfold modifySubnetMatchingHandler permitted onSubnet SubnetFamily.modifySubnetMatching
    withPermission
  cases session with
  | none => simp
  | some caller =>
    by_cases hmay : caller.may .MODIFY = true
    · simp only [hmay, if_true]
      split
      · simp
      · cases hinsert : (subnetFamily family).insertMatching faults payload
            (s.subnet family).trie with
        | none => simp [hinsert]
        | some map =>
          cases hsave : (subnetFamily family).saveSubnet faults.statement caller payload
              (s.subnet family).rows with
          | mk saved rows => cases saved with
            | ok u => simp [hinsert, hsave]
            | error e => cases hundo : faults.undo <;> simp [hinsert, hsave]
    · simp [hmay]

theorem exec_removeSubnetMatching (session : Option CallerContext) (faults : SubnetFaults)
    (payload : SubnetMatchUpdate (Network family)) :
    (removeSubnetMatchingHandler family session faults payload).exec s =
      onSubnet family ((subnetFamily family).removeSubnetMatching session faults payload) s := by
  unfold removeSubnetMatchingHandler permitted onSubnet SubnetFamily.removeSubnetMatching
    withPermission
  cases session with
  | none => simp
  | some caller =>
    by_cases hmay : caller.may .DELETE = true
    · simp only [hmay, if_true]
      split
      · simp
      · by_cases hentry : faults.map = true ∨
            (s.subnet family).trie ((subnetFamily family).entry payload) = none
        · simp [hentry]
        · cases hdelete : (subnetFamily family).deleteSubnet faults.statement caller
              payload.network payload.prefixLen (s.subnet family).rows with
          | mk deleted rows => cases deleted <;> simp [hentry, hdelete]
    · simp [hmay]

end Subnets

theorem exec_handler (c : Call) : c.handler.exec s = c.atomic s := by
  unfold Call.handler Call.atomic
  cases c.request with
  | updateConfig patch => exact exec_updateConfig ..
  | shutdownEbpf => exact exec_shutdownEbpf ..
  | restartEbpf => exact exec_restartEbpf ..
  | getConfig =>
    simp only [getConfigHandler, exec_acquire, exec_configGet, configState]
    cases s.config.entry <;> rfl
  | getEbpfAdapters =>
    cases c.session with
    | none => rfl
    | some caller => simp [getEbpfAdaptersHandler, Prog.exec]
  | modifySubnetMatching family payload => exact exec_modifySubnetMatching ..
  | removeSubnetMatching family payload => exact exec_removeSubnetMatching ..

end Alone

/-! ## Locks in order -/

/-- CONFIG is taken before the programs, and no lock is taken after one was given back. -/
def Lock.rank : Lock → Nat
  | .config => 0
  | .ebpf => 1
  | .subnetMatching _ => 2

section Locks

variable {held : Set Lock} {k : Nat}

theorem disciplined_permitted {session : Option CallerContext} {permission : ActionPermissions}
    {body : CallerContext → Handler}
    (h : ∀ caller, (body caller).Disciplined Lock.rank (k + 1) held) :
    (permitted session permission body).Disciplined Lock.rank (k + 1) held := by
  unfold permitted
  split
  · exact .done _
  · split
    · exact h _
    · exact .done _

theorem closing_configSet {cfg : FirewallConfig} {next : Handler} (hheld : Lock.config ∈ held)
    (h : next.Closing k held) : (configSet cfg next).Closing (k + 1) held :=
  .act hheld fun _ => h

theorem closing_configSave {fails : Bool} {cfg : FirewallConfig}
    {next : Except SqlxError Unit → Handler} (hheld : Lock.config ∈ held)
    (h : ∀ saved, (next saved).Closing k held) : (configSave fails cfg next).Closing (k + 1) held :=
  .act hheld fun _ => h _

/-- CONFIG is written with and without the lock of the programs. -/
theorem closing_writeConfig (faults : ConfigFaults) (cfg : FirewallConfig)
    (hheld : Lock.config ∈ held) : (writeConfig faults cfg).Closing (k + 3) held := by
  unfold writeConfig
  split
  · exact .done _
  · refine closing_configSet hheld (closing_configSave hheld fun saved => ?_)
    split <;> exact .done _

/-- A handler that starts with CONFIG. -/
theorem disciplined_config {next : Option FirewallConfig → Handler}
    (h : ∀ cfg, (next cfg).Disciplined Lock.rank k {Lock.config}) :
    (Prog.acquire Lock.config (configGet next) : Handler).Disciplined Lock.rank (k + 2) ∅ :=
  .acquire (by simp) (.act (by simp) fun _ => by simpa using h _)

/-- What takes the programs behind CONFIG. -/
theorem disciplined_ebpf {next : Handler}
    (h : next.Disciplined Lock.rank k {Lock.ebpf, Lock.config}) :
    (Prog.acquire Lock.ebpf next).Disciplined Lock.rank (k + 1) {Lock.config} :=
  .acquire (by simp [Lock.rank]) h

theorem disciplined_updateConfig (session : Option CallerContext) (patch : ConfigPatch)
    (o : AttachOutcomes) (faults : ConfigFaults) :
    (updateConfigHandler session patch o faults).Disciplined Lock.rank 8 ∅ := by
  refine disciplined_permitted fun caller => ?_
  split
  · exact .done _
  · refine disciplined_config fun cfg => ?_
    split
    · exact .done _
    · split
      · refine disciplined_ebpf (.act (by simp) fun p => ?_)
        split
        · have hsave : ∀ cfg, (configSave faults.statement cfg fun _ => respond
              attachFailed).Closing 3 {Lock.ebpf, Lock.config} :=
            fun cfg => closing_configSave (by simp) fun _ => .done _
          split
          · exact (closing_configSave (by simp) fun _ => .done _).disciplined
          · exact (closing_configSet (by simp) (hsave _)).disciplined
        · exact .release (by simp) (closing_writeConfig _ _ (by simp))
      · exact (closing_writeConfig _ _ (by simp)).disciplined

theorem disciplined_shutdownEbpf (session : Option CallerContext) (o : AttachOutcomes)
    (faults : ConfigFaults) : (shutdownEbpfHandler session o faults).Disciplined Lock.rank 8 ∅ := by
  refine disciplined_permitted fun caller => disciplined_config fun cfg => ?_
  split
  · exact .done _
  · refine disciplined_ebpf (.act (by simp) fun p => ?_)
    split
    · exact .done _
    · split
      · exact .done _
      · refine (closing_configSet (by simp)
          (closing_configSave (by simp) fun saved => ?_)).disciplined
        split <;> exact .done _

theorem disciplined_restartEbpf (session : Option CallerContext) (o : AttachOutcomes) :
    (restartEbpfHandler session o).Disciplined Lock.rank 8 ∅ := by
  refine disciplined_permitted fun caller => disciplined_config fun cfg => ?_
  split
  · exact .done _
  · refine disciplined_ebpf ?_
    split
    · exact .done _
    · refine .act (by simp) fun p => ?_
      split <;> exact .done _

theorem disciplined_modifySubnetMatching (family : Family) (session : Option CallerContext)
    (faults : SubnetFaults) (payload : SubnetMatchUpdate (Network family)) :
    (modifySubnetMatchingHandler family session faults payload).Disciplined Lock.rank 8 ∅ := by
  refine disciplined_permitted fun caller => ?_
  split
  · exact .done _
  · refine .acquire (by simp) (.act (by simp) fun _ => ?_)
    split
    · exact .done _
    · refine .act (by simp) fun _ => ?_
      split
      · exact .act (by simp) fun _ => .done _
      · exact .done _

theorem disciplined_removeSubnetMatching (family : Family) (session : Option CallerContext)
    (faults : SubnetFaults) (payload : SubnetMatchUpdate (Network family)) :
    (removeSubnetMatchingHandler family session faults payload).Disciplined Lock.rank 8 ∅ := by
  refine disciplined_permitted fun caller => ?_
  split
  · exact .done _
  · refine .acquire (by simp) (.act (by simp) fun _ => ?_)
    split
    · exact .done _
    · refine .act (by simp) fun _ => ?_
      split <;> exact .done _

theorem handler_disciplined (c : Call) : c.handler.Disciplined Lock.rank 8 ∅ := by
  unfold Call.handler
  cases c.request with
  | updateConfig patch => exact disciplined_updateConfig ..
  | shutdownEbpf => exact disciplined_shutdownEbpf ..
  | restartEbpf => exact disciplined_restartEbpf ..
  | getConfig =>
    refine disciplined_config fun cfg => ?_
    split <;> exact .done _
  | getEbpfAdapters =>
    simp only [getEbpfAdaptersHandler]
    split
    · exact .done _
    · exact .acquire (by simp) (.act (by simp) fun _ => .done _)
  | modifySubnetMatching family payload => exact disciplined_modifySubnetMatching ..
  | removeSubnetMatching family payload => exact disciplined_removeSubnetMatching ..

end Locks

/-! ## Requests at the same time -/

/-- A request arrives, or one that has arrived goes on until it waits again. -/
inductive ControlEvent where
  | arrive (call : Call)
  | resume (n : Nat)

def ControlEvent.toEvent : ControlEvent → Locks.Event Lock Part (Option Reply)
  | .arrive call => .spawn (call.handler.limited call.limit)
  | .resume n => .step n

/-- What a run of requests has come to. -/
def served (s₀ : Store) (es : List ControlEvent) : Locks.State Lock Part (Option Reply) :=
  run schedule (.start s₀) (es.map ControlEvent.toEvent)

/-- The requests of a run, in the order in which they arrive. -/
def arrivals (es : List ControlEvent) : List Call :=
  es.filterMap fun
    | .arrive call => some call
    | .resume _ => none

/-- The request has ended. A request that was dropped has no reply. -/
def Ended (s : Locks.State Lock Part (Option Reply)) (n : Nat) (reply : Option Reply) : Prop :=
  ∃ origin, s.tasks[n]? = some ⟨origin, .done reply, .finished⟩

/-- The request alone, as far as it gets. -/
def Call.handle (c : Call) (s : Store) : Option Reply × Store :=
  match c.limit with
  | none => (some (c.atomic s).1, (c.atomic s).2)
  | some n => (c.handler.limited (some n)).exec s

/-- Requests one after the other, by their numbers. -/
def handled (calls : List Call) (order : List Nat) (s : Store) : Store :=
  order.foldl (fun s n => (calls[n]?.map fun c => (c.handle s).2).getD s) s

/-- The run looks as if its requests had been handled one after the other, each at once. A
request that had ended before another one arrived comes before it. -/
structure Linearized (s₀ : Store) (es : List ControlEvent) (order : List Nat) : Prop where
  perm : order.Perm (List.range (arrivals es).length)
  store : (served s₀ es).store = handled (arrivals es) order s₀
  replies : ∀ n c reply, (arrivals es)[n]? = some c → Ended (served s₀ es) n reply →
    ∃ before after, order = before ++ n :: after ∧
      (c.handle (handled (arrivals es) before s₀)).1 = reply
  realTime : ∀ xs ys, es = xs ++ ys → ∀ n reply, Ended (served s₀ xs) n reply →
    ∀ m, (arrivals xs).length ≤ m → m < (arrivals es).length →
      ∃ before between after, order = before ++ n :: (between ++ m :: after)

theorem exec_limited (c : Call) (s : Store) : (c.handler.limited c.limit).exec s = c.handle s := by
  unfold Call.handle
  cases c.limit with
  | none => rw [exec_limited_none, exec_handler]
  | some n => rfl

theorem spawned_toEvent (es : List ControlEvent) :
    spawned (es.map ControlEvent.toEvent) =
      (arrivals es).map fun c => c.handler.limited c.limit := by
  rw [spawned, arrivals, List.filterMap_map, List.map_filterMap]
  refine List.filterMap_congr fun e _ => ?_
  cases e <;> rfl

theorem serial_handled (calls : List Call) (order : List Nat) (s : Store) :
    serial (calls.map fun c => c.handler.limited c.limit) order s = handled calls order s := by
  refine List.foldl_ext _ _ _ fun s n _ => ?_
  cases hn : calls[n]? with
  | none => simp [hn]
  | some c => simp [hn, exec_limited]

/-- Every task of a run is a request. -/
theorem disciplined_toEvent {es : List ControlEvent} {p : Prog Lock Part (Option Reply)}
    (hp : .spawn p ∈ es.map ControlEvent.toEvent) : p.Disciplined Lock.rank 8 ∅ := by
  obtain ⟨e, -, he⟩ := List.mem_map.mp hp
  cases e with
  | arrive c =>
    cases he
    exact (handler_disciplined c).limited c.limit
  | resume n => cases he

theorem twoPhase_toEvent (es : List ControlEvent) :
    ∀ p, .spawn p ∈ es.map ControlEvent.toEvent → p.TwoPhase ∅ :=
  fun _ hp => (disciplined_toEvent hp).twoPhase

theorem served_origins (s₀ : Store) (es : List ControlEvent) :
    (served s₀ es).programs = (arrivals es).map fun c => c.handler.limited c.limit := by
  rw [served, programs_run, spawned_toEvent]

theorem served_length (s₀ : Store) (es : List ControlEvent) :
    (served s₀ es).tasks.length = (arrivals es).length := by
  have h := congrArg List.length (served_origins s₀ es)
  rwa [State.programs, List.length_map, List.length_map] at h

/-- The reply of a request that has ended is the one at its place in the order. -/
theorem reply_inOrder {s₀ : Store} {es : List ControlEvent} {n : Nat} {c : Call}
    {reply : Option Reply} (hc : (arrivals es)[n]? = some c)
    (hends : Ended (served s₀ es) n reply) :
    ∃ before after, commits (.start s₀) (es.map ControlEvent.toEvent) = before ++ n :: after ∧
      (c.handle (handled (arrivals es) before s₀)).1 = reply := by
  obtain ⟨origin, hn⟩ := hends
  have horigin : (served s₀ es).programs[n]? = some origin := by
    simp [State.programs, hn]
  rw [served_origins, List.getElem?_map, hc] at horigin
  cases horigin
  obtain ⟨answer, hdone, before, after, horder, hanswer⟩ :=
    (serialized s₀ (twoPhase_toEvent es)).answers n _ hn rfl
  cases hdone
  rw [spawned_toEvent, serial_handled, exec_limited] at hanswer
  exact ⟨before, after, horder, hanswer⟩

theorem requests_linearize (s₀ : Store) (es : List ControlEvent)
    (hall : ∀ n < (arrivals es).length, ∃ reply, Ended (served s₀ es) n reply) :
    ∃ order, Linearized s₀ es order := by
  have hdone : ∀ task ∈ (served s₀ es).tasks, task.phase = .finished := by
    intro task htask
    obtain ⟨n, hn⟩ := List.getElem?_of_mem htask
    obtain ⟨hlt, -⟩ := List.getElem?_eq_some_iff.mp hn
    obtain ⟨reply, origin, hn'⟩ := hall n (served_length s₀ es ▸ hlt)
    rw [hn] at hn'
    cases hn'
    rfl
  obtain ⟨hstore, hperm⟩ := serialized_complete s₀ (twoPhase_toEvent es) hdone
  rw [spawned_toEvent, serial_handled] at hstore
  rw [spawned_toEvent, List.length_map] at hperm
  refine ⟨_, hperm, hstore, fun n c reply hc hends => reply_inOrder hc hends, ?_⟩
  rintro xs ys rfl n reply ⟨origin, hn⟩ m hlate hm
  have hmem : m ∈ commits (.start s₀) ((xs ++ ys).map ControlEvent.toEvent) :=
    hperm.mem_iff.mpr (List.mem_range.mpr hm)
  rw [List.map_append, commits_append] at hmem ⊢
  refine commits_before s₀ (twoPhase_toEvent xs) hn rfl ?_ (List.prefix_append _ _) hmem
  rwa [spawned_toEvent, List.length_map]

theorem ended_of_finished {s₀ : Store} {es : List ControlEvent}
    (hall : ∀ task ∈ (served s₀ es).tasks, task.phase = .finished) {n : Nat}
    (hn : n < (arrivals es).length) : ∃ reply, Ended (served s₀ es) n reply := by
  rw [← served_length s₀] at hn
  have hphase := hall _ (List.getElem_mem hn)
  have htask := List.getElem?_eq_getElem hn
  generalize (served s₀ es).tasks[n] = task at hphase htask
  obtain ⟨reply, hdone, -⟩ :=
    (serialized s₀ (twoPhase_toEvent es)).answers n task htask hphase
  obtain ⟨origin, program, phase⟩ := task
  cases hdone
  cases hphase
  exact ⟨reply, origin, htask⟩

def attachedStore : Store
  | .config => ConfigPart.mk attachedState.config attachedState.row
  | .ebpf => attachedState.ebpf.getD .new
  | .subnetMatching _ => SubnetStore.mk .empty []

def Request.byRoot (request : Request) (limit : Option Nat) : Call :=
  ⟨some .root, request, ⟨true, fun _ => true, some 8, some 9⟩, .never, ⟨false, false, false⟩, limit⟩

/-- The adapters are asked for while they change, and a restart waits until CONFIG is
written. -/
def overlapping : List ControlEvent :=
  [.arrive (Request.byRoot (.updateConfig { incomingEthernetAdapter := some (some 7) }) none),
    .arrive (Request.byRoot .restartEbpf none), .resume 0, .resume 1, .resume 0, .resume 0,
    .arrive (Request.byRoot .getEbpfAdapters none), .resume 2, .resume 0, .resume 0,
    .resume 2, .resume 2, .resume 0, .resume 0, .resume 2, .resume 0,
    .resume 1, .resume 1, .resume 1, .resume 1, .resume 1]

theorem requests_linearize_overlapping :
    ∃ order, Linearized attachedStore overlapping order :=
  requests_linearize attachedStore overlapping fun n hn => by
    have hn : n < 3 := hn
    interval_cases n <;> exact ⟨_, _, rfl⟩

/-- Every request takes CONFIG before the programs and no lock after it gave one back, so no
requests wait for each other: from every reachable state they can all be brought to their
ends. -/
theorem requests_end (s₀ : Store) (es : List ControlEvent) :
    (∀ c ∈ arrivals es, c.handler.Ascending Lock.rank ∅ ∧ c.handler.TwoPhase ∅) ∧
    ∃ more : List Nat, more.length ≤ 8 * (arrivals es).length ∧
      ∀ n < (arrivals es).length, ∃ reply, Ended (served s₀ (es ++ more.map .resume)) n reply := by
  refine ⟨fun c _ => ⟨(handler_disciplined c).ascending, (handler_disciplined c).twoPhase⟩, ?_⟩
  obtain ⟨more, hlength, hdone⟩ :=
    complete_of_disciplined s₀ fun _ hp => disciplined_toEvent hp
  rw [spawned_toEvent, List.length_map] at hlength
  have hserved : served s₀ (es ++ more.map .resume) =
      run schedule (.start s₀) (es.map ControlEvent.toEvent ++ more.map .step) := by
    rw [served, List.map_append, List.map_map]
    rfl
  refine ⟨more, hlength, fun n hn => ended_of_finished (by rwa [hserved]) ?_⟩
  simpa [arrivals] using hn

/-! ## Between the requests -/

/-- The request gets to its end, its program is loaded, CONFIG can be written, and a restart
attaches what is configured. -/
structure Call.Attaching (c : Call) : Prop where
  limit : c.limit = none
  program : c.outcomes.program = true
  mapSet : c.faults.mapSet = false
  restart : c.request = .restartEbpf → ∀ cfg, c.outcomes.Attaches cfg

def Call.asAdapters (c : Call) (request : Adapters.Request) : Adapters.Call :=
  ⟨c.session, request, c.outcomes.detach, c.outcomes.incoming, c.outcomes.output,
    c.faults.statement⟩

theorem Call.Attaching.outcomes {c : Call} (h : c.Attaching) (request : Adapters.Request) :
    (c.asAdapters request).outcomes = c.outcomes := by
  rw [Adapters.Call.outcomes, ← h.program]
  rfl

theorem Call.Attaching.faults {c : Call} (h : c.Attaching) (request : Adapters.Request) :
    (c.asAdapters request).faults = c.faults := by
  rw [Adapters.Call.faults, ← h.mapSet]
  rfl

theorem configState_setConfigState {s : Store} {c : ConfigState} (h : Agree c) :
    configState (setConfigState s c) = c := by
  obtain ⟨config, row, ebpf⟩ := c
  obtain ⟨cfg, p, -, rfl, -⟩ := h
  rfl

/-- One of the requests of the adapters, alone. -/
theorem agree_onConfig {c : Call} (hc : c.Attaching) {s : Store} (hs : Agree (configState s))
    (request : Adapters.Request) (hrestart : request = .restartEbpf → c.request = .restartEbpf) :
    Agree (configState
      (setConfigState s (Adapters.handle (c.asAdapters request) (configState s)).2)) := by
  have hrestarts : Restarts (configState s) (c.asAdapters request) := fun cfg hr _ _ _ => by
    rw [hc.outcomes]
    exact hc.restart (hrestart hr) cfg
  have hagree := ((agreeAfter_iff hs _).mpr hrestarts).config
  rwa [configState_setConfigState hagree]

theorem agree_atomic {c : Call} (hc : c.Attaching) {s : Store} (hs : Agree (configState s)) :
    Agree (configState (c.atomic s).2) := by
  unfold Call.atomic
  cases hr : c.request with
  | updateConfig patch =>
    have h := agree_onConfig hc hs (.updateConfig patch) (by simp)
    simp only [Adapters.handle, hc.outcomes, hc.faults] at h
    exact h
  | shutdownEbpf =>
    have h := agree_onConfig hc hs .shutdownEbpf (by simp)
    simp only [Adapters.handle, hc.outcomes, hc.faults] at h
    exact h
  | restartEbpf =>
    have h := agree_onConfig hc hs .restartEbpf fun _ => hr
    simp only [Adapters.handle, hc.outcomes] at h
    exact h
  | getConfig => exact hs
  | getEbpfAdapters => exact hs
  | modifySubnetMatching family payload => exact hs
  | removeSubnetMatching family payload => exact hs

/-- Whenever nobody holds CONFIG or the programs, the configured adapters are the attached
ones, whatever requests are under way. -/
theorem adapters_agree_between (s₀ : Store) (es : List ControlEvent)
    (hs₀ : Agree (configState s₀)) (hes : ∀ c ∈ arrivals es, c.Attaching)
    (hconfig : (served s₀ es).owner .config = none) (hebpf : (served s₀ es).owner .ebpf = none) :
    Agree (configState (served s₀ es).store) := by
  refine invariant_of_free s₀ (I := fun s => Agree (configState s)) (K := {.config, .ebpf})
    (fun (s t : Store) hst hs => ?_) hs₀ (twoPhase_toEvent es) (fun p hp s hs => ?_) ?_
  · have hsame : configState t = configState s := by
      have hc : t.config = s.config := (hst .config (by simp)).symm
      have he : t.ebpf = s.ebpf := (hst .ebpf (by simp)).symm
      rw [configState, configState, hc, he]
    rwa [hsame]
  · rw [← mem_spawned, spawned_toEvent] at hp
    obtain ⟨c, hc, rfl⟩ := List.mem_map.mp hp
    have hattaching := hes c hc
    rw [exec_limited, Call.handle, hattaching.limit]
    exact agree_atomic hattaching hs
  · rintro l (rfl | rfl)
    · exact hconfig
    · exact hebpf

/-- While the adapters are asked for, the update has given the programs back, but not
CONFIG. At the end both are free. -/
theorem adapters_agree_between_overlapping :
    Agree (configState (served attachedStore overlapping).store) := by
  refine adapters_agree_between attachedStore overlapping attachedState_agree ?_ rfl rfl
  intro c hc
  have hc : c ∈ [Request.byRoot (.updateConfig { incomingEthernetAdapter := some (some 7) }) none,
      Request.byRoot .restartEbpf none, Request.byRoot .getEbpfAdapters none] := hc
  simp only [List.mem_cons, List.not_mem_nil, or_false] at hc
  have hall : ∀ request, (Request.byRoot request none).Attaching :=
    fun _ => ⟨rfl, rfl, rfl, fun _ _ => ⟨rfl, fun _ => rfl, fun _ => rfl⟩⟩
  rcases hc with rfl | rfl | rfl <;> exact hall _

end Oxidrop.Concurrency
