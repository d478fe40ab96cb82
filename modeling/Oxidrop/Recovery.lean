import Oxidrop.Backup
import Oxidrop.Concurrency
import Oxidrop.Lib.LockCuts

/-!
# Starting again after a stop

The program can be stopped at any moment, with requests in the middle of what they do. The
database then holds what requests leave that are handled one after the other, some of them
cut off. The program starts again with it if the tries have room for its rules, and nothing
else in it stands in the way.
-/
namespace Oxidrop.Recovery

open Run Locks Concurrency Management
open Backup (Postable)

/-! ## What requests leave when they are stopped -/

def under (limit : Option Nat) (c : Call) : Call := { c with limit := limit }

@[simp] theorem under_limit (limit : Option Nat) (c : Call) : (under limit c).limit = limit := rfl
@[simp] theorem under_handler (limit : Option Nat) (c : Call) :
    (under limit c).handler = c.handler := rfl

/-- The requests, each dropped after its number of steps, if it has one. -/
def withLimits (limits : Nat → Option Nat) (calls : List Call) : List Call :=
  calls.mapIdx fun n => under (limits n)

/-- The requests look as if they had been handled one after the other, each at once, and
those that have not ended had been dropped. A request that had ended before another one
arrived comes before it. -/
structure Interrupted (s₀ : Store) (es : List ControlEvent) (limits : Nat → Option Nat)
    (order : List Nat) : Prop where
  perm : order.Perm (List.range (arrivals es).length)
  store : (served s₀ es).store = handled (withLimits limits (arrivals es)) order s₀
  kept : ∀ n c reply, (arrivals es)[n]? = some c → Ended (served s₀ es) n reply →
    limits n = c.limit
  replies : ∀ n c reply, (arrivals es)[n]? = some c → Ended (served s₀ es) n reply →
    ∃ before after, order = before ++ n :: after ∧
      (c.handle (handled (withLimits limits (arrivals es)) before s₀)).1 = reply
  realTime : ∀ xs ys, es = xs ++ ys → ∀ n reply, Ended (served s₀ xs) n reply →
    ∀ m, (arrivals xs).length ≤ m → m < (arrivals es).length →
      ∃ before between after, order = before ++ n :: (between ++ m :: after)

theorem limits_toEvent (es : List ControlEvent) :
    Limits ((arrivals es).map Call.handler) (fun n => (arrivals es)[n]?.bind Call.limit)
      (es.map ControlEvent.toEvent) := by
  intro n q hn
  rw [spawned_toEvent, List.getElem?_map, Option.map_eq_some_iff] at hn
  obtain ⟨c, hc, rfl⟩ := hn
  exact ⟨c.handler, by simp [hc], by simp [hc]⟩

/-- The programs of the tasks are the requests under the limits. -/
theorem spawned_limits {calls : List Call} {limits : Nat → Option Nat}
    {es : List (Locks.Event Lock Part (Option Reply))}
    (h : Limits (calls.map Call.handler) limits es) (hlength : (spawned es).length = calls.length) :
    spawned es = (withLimits limits calls).map fun c => c.handler.limited c.limit := by
  refine List.ext_getElem (by simp [withLimits, hlength]) fun n hn hn' => ?_
  obtain ⟨p, hp, hq⟩ := h n _ (List.getElem?_eq_getElem hn)
  rw [List.getElem?_map, Option.map_eq_some_iff] at hp
  obtain ⟨c, hc, rfl⟩ := hp
  obtain ⟨hlt, rfl⟩ := List.getElem?_eq_some_iff.mp hc
  simpa [withLimits] using hq

theorem interrupted (s₀ : Store) (es : List ControlEvent) :
    ∃ limits order, Interrupted s₀ es limits order := by
  obtain ⟨limits, es', h⟩ := stopped s₀ (limits_toEvent es)
  have hlength : (spawned es').length = (arrivals es).length := by
    rw [h.length, spawned_toEvent, List.length_map]
  have hspawned := spawned_limits h.programs hlength
  have htwoPhase : ∀ p, .spawn p ∈ es' → p.TwoPhase ∅ := by
    intro p hp
    rw [← mem_spawned, hspawned] at hp
    obtain ⟨c, -, rfl⟩ := List.mem_map.mp hp
    exact ((handler_disciplined c).limited c.limit).twoPhase
  obtain ⟨hstore, hperm⟩ := serialized_complete s₀ htwoPhase h.ended
  rw [hspawned, serial_handled, h.store] at hstore
  rw [hlength] at hperm
  have hkept : ∀ n c reply, (arrivals es)[n]? = some c → Ended (served s₀ es) n reply →
      limits n = c.limit := by
    rintro n c reply hc ⟨origin, hn⟩
    rw [(h.same n _ hn rfl).1, hc]
    rfl
  refine ⟨limits, _, hperm, hstore, hkept, fun n c reply hc hends => ?_, ?_⟩
  · have hlimit := hkept n c reply hc hends
    obtain ⟨origin, hn⟩ := hends
    obtain ⟨answer, hdone, before, after, horder, hanswer⟩ :=
      (serialized s₀ htwoPhase).answers n _ (h.same n _ hn rfl).2 rfl
    cases hdone
    have horigin : (served s₀ es).programs[n]? = some origin := by
      simp [State.programs, hn]
    rw [served_origins, List.getElem?_map, hc] at horigin
    cases horigin
    rw [hspawned, serial_handled, exec_limited] at hanswer
    exact ⟨before, after, horder, hanswer⟩
  · rintro xs ys rfl n reply ⟨origin, hn⟩ m hlate hm
    refine commits_before s₀ (twoPhase_toEvent xs) hn rfl ?_ ?_
      (hperm.mem_iff.mpr (List.mem_range.mpr hm))
    · rwa [spawned_toEvent, List.length_map]
    · refine List.IsPrefix.trans ?_ h.order
      rw [List.map_append, commits_append]
      exact List.prefix_append _ _

/-! ## What every request keeps -/

/-- The program can start with what is stored. -/
structure Recoverable (s : Store) : Prop where
  entry : ∀ cfg ∈ s.config.entry, Postable cfg
  row : ∀ row ∈ s.config.row, ∃ cfg, Postable cfg ∧ firewallConfigRow cfg = .ok row
  rules : ∀ family, ∃ rules, SubnetFamily.Holds (subnetFamily family) (s.subnet family) rules

/-- The patch of an update was read from a body. -/
def Read (c : Call) : Prop :=
  ∀ patch, c.request = .updateConfig patch → ∃ body, Backup.decodeConfigPatch body = some patch

theorem subnetFamily_lawful : (family : Family) → (subnetFamily family).Lawful
  | .v4 => subnetFamilyV4_lawful
  | .v6 => subnetFamilyV6_lawful

section Keeping

variable {cfg : FirewallConfig}

theorem keeps_permitted {session : Option CallerContext} {permission : ActionPermissions}
    {body : CallerContext → Handler} (h : ∀ caller, (body caller).Keeps Recoverable) :
    (permitted session permission body).Keeps Recoverable := by
  unfold permitted
  split
  · exact .done _
  · split
    · exact h _
    · exact .done _

theorem keeps_config {next : Option FirewallConfig → Handler}
    (h : ∀ entry, (∀ cfg ∈ entry, Postable cfg) → (next entry).Keeps Recoverable) :
    (Prog.acquire Lock.config (configGet next) : Handler).Keeps Recoverable := by
  refine .acquire fun s hs => ?_
  have hsame : Function.update s .config (id (s .config)) = s := Function.update_eq_self ..
  exact ⟨hsame.symm ▸ hs, h _ hs.entry⟩

theorem keeps_configSet {next : Handler} (hcfg : Postable cfg) (h : next.Keeps Recoverable) :
    (configSet cfg next).Keeps Recoverable := by
  intro s hs
  rw [update_config]
  exact ⟨⟨fun _ hc => Option.some.inj hc ▸ hcfg, hs.row, hs.rules⟩, h⟩

/-- A row that is stored is that of a configuration. -/
theorem keeps_configSave {fails : Bool} {next : Except SqlxError Unit → Handler}
    (hcfg : Postable cfg) (h : ∀ saved, (next saved).Keeps Recoverable) :
    (configSave fails cfg next).Keeps Recoverable := by
  intro (s : Store) hs
  rw [update_config]
  refine ⟨⟨hs.entry, fun row hrow => ?_, hs.rules⟩, h _⟩
  change row ∈ (saveFirewallConfig fails cfg s.config.row).2 at hrow
  rcases Backup.saveFirewallConfig_cases fails cfg s.config.row with
    ⟨-, values, hvalues, hsave⟩ | ⟨-, e, hsave⟩
  · rw [hsave] at hrow
    cases hrow
    exact ⟨cfg, hcfg, hvalues⟩
  · rw [hsave] at hrow
    exact hs.row row hrow

theorem keeps_ebpfAct {write : EbpfProgramm → EbpfProgramm} {next : EbpfProgramm → Handler}
    (h : ∀ p, (next p).Keeps Recoverable) : (ebpfAct write next).Keeps Recoverable := by
  intro s hs
  rw [update_ebpf]
  exact ⟨⟨hs.entry, hs.row, hs.rules⟩, h _⟩

end Keeping

section Subnets

variable (family : Family)

theorem keeps_subnetAct {write : SubnetStore (Column family) → SubnetStore (Column family)}
    {next : SubnetStore (Column family) → Handler}
    (hwrite : ∀ t, (∃ rules, SubnetFamily.Holds (subnetFamily family) t rules) →
      ∃ rules, SubnetFamily.Holds (subnetFamily family) (write t) rules)
    (h : ∀ t, (next t).Keeps Recoverable) : (subnetAct family write next).Keeps Recoverable := by
  intro (s : Store) hs
  refine ⟨⟨?_, ?_, fun other => ?_⟩, h _⟩
  · exact hs.entry
  · exact hs.row
  · by_cases hother : other = family
    · subst hother
      have hsame : Store.subnet (s.setSubnet other (write (s.subnet other))) other =
          write (s.subnet other) := subnet_set other _
      exact hsame.symm ▸ hwrite _ (hs.rules other)
    · have hsame : Store.subnet (s.setSubnet family (write (s.subnet family))) other =
          s.subnet other := Function.update_of_ne (by simpa using hother) ..
      exact hsame.symm ▸ hs.rules other

theorem keeps_modifySubnetMatching (session : Option CallerContext) (faults : SubnetFaults)
    (payload : SubnetMatchUpdate (Network family)) :
    (modifySubnetMatchingHandler family session faults payload).Keeps Recoverable := by
  refine keeps_permitted fun caller => ?_
  split
  · exact .done _
  · rename_i hlen
    have hlen : payload.prefixLen ≤ (subnetFamily family).maxPrefix := UInt32.not_lt.mp hlen
    refine .acquire (keeps_subnetAct family (fun t ht => Backup.holds_same ht rfl) fun _ => ?_)
    split
    · exact .done _
    · refine keeps_subnetAct family (fun t ht => ?_) fun t => ?_
      · unfold SubnetFamily.saveSubnet
        split
        · split
          · exact Backup.holds_same ht rfl
          · exact Backup.holds_upsert (subnetFamily_lawful family) ht hlen rfl
        · exact Backup.holds_same ht rfl
      · split
        · refine keeps_subnetAct family (fun t ht => ?_) fun _ => .done _
          split
          · exact ht
          · exact Backup.holds_same ht rfl
        · exact .done _

theorem keeps_removeSubnetMatching (session : Option CallerContext) (faults : SubnetFaults)
    (payload : SubnetMatchUpdate (Network family)) :
    (removeSubnetMatchingHandler family session faults payload).Keeps Recoverable := by
  refine keeps_permitted fun caller => ?_
  split
  · exact .done _
  · refine .acquire (keeps_subnetAct family (fun t ht => ?_) fun t => ?_)
    · split
      · exact ht
      · exact Backup.holds_same ht rfl
    · split
      · exact .done _
      · refine keeps_subnetAct family (fun t ht => ?_) fun t => ?_
        · unfold SubnetFamily.deleteSubnet
          split
          · split
            · exact Backup.holds_same ht rfl
            · exact Backup.holds_delete (subnetFamily_lawful family) ht payload rfl
          · exact Backup.holds_same ht rfl
        · split <;> exact .done _

end Subnets

theorem keeps_writeConfig (faults : ConfigFaults) {cfg : FirewallConfig} (hcfg : Postable cfg) :
    (writeConfig faults cfg).Keeps Recoverable := by
  unfold writeConfig
  split
  · exact .done _
  · refine keeps_configSet hcfg (keeps_configSave hcfg fun saved => ?_)
    split <;> exact .done _

theorem keeps_updateConfig (session : Option CallerContext) {patch : ConfigPatch}
    (hknown : ∀ types ∈ patch.protocolAllowed,
      ActivaterEtherTypes.fromBits types.bits = some types)
    (o : AttachOutcomes) (faults : ConfigFaults) :
    (updateConfigHandler session patch o faults).Keeps Recoverable := by
  refine keeps_permitted fun caller => ?_
  split
  · exact .done _
  · rename_i hvalid
    refine keeps_config fun entry hentry => ?_
    split
    · exact .done _
    · rename_i cfg
      have hnew : Postable (patch.apply cfg) := (hentry cfg rfl).apply hknown hvalid
      split
      · refine .acquire (keeps_ebpfAct fun p => ?_)
        split
        · have hsave : (configSave faults.statement (clearAdapters (patch.apply cfg)) fun _ =>
              respond attachFailed).Keeps Recoverable :=
            keeps_configSave hnew.clearAdapters fun _ => .done _
          split
          · exact hsave
          · exact keeps_configSet hnew.clearAdapters hsave
        · exact .release (keeps_writeConfig faults hnew)
      · exact keeps_writeConfig faults hnew

theorem keeps_shutdownEbpf (session : Option CallerContext) (o : AttachOutcomes)
    (faults : ConfigFaults) : (shutdownEbpfHandler session o faults).Keeps Recoverable := by
  refine keeps_permitted fun caller => keeps_config fun entry hentry => ?_
  split
  · exact .done _
  · rename_i cfg
    have hnew : Postable (clearAdapters cfg) := (hentry cfg rfl).clearAdapters
    refine .acquire (keeps_ebpfAct fun p => ?_)
    split
    · exact .done _
    · split
      · exact .done _
      · refine keeps_configSet hnew (keeps_configSave hnew fun saved => ?_)
        split <;> exact .done _

theorem keeps_restartEbpf (session : Option CallerContext) (o : AttachOutcomes) :
    (restartEbpfHandler session o).Keeps Recoverable := by
  refine keeps_permitted fun caller => keeps_config fun entry _ => ?_
  split
  · exact .done _
  · refine .acquire ?_
    split
    · exact .done _
    · refine keeps_ebpfAct fun p => ?_
      split <;> exact .done _

theorem handler_keeps {c : Call} (hread : Read c) : c.handler.Keeps Recoverable := by
  unfold Call.handler
  cases hr : c.request with
  | updateConfig patch =>
    obtain ⟨body, hbody⟩ := hread patch hr
    exact keeps_updateConfig _ (Backup.decodeConfigPatch_known hbody) ..
  | shutdownEbpf => exact keeps_shutdownEbpf ..
  | restartEbpf => exact keeps_restartEbpf ..
  | getConfig =>
    refine keeps_config fun entry _ => ?_
    split <;> exact .done _
  | getEbpfAdapters =>
    simp only [getEbpfAdaptersHandler]
    split
    · exact .done _
    · exact .acquire (keeps_ebpfAct fun _ => .done _)
  | modifySubnetMatching family payload => exact keeps_modifySubnetMatching ..
  | removeSubnetMatching family payload => exact keeps_removeSubnetMatching ..

/-- Wherever the requests of a run are, the program can start with what they have stored. -/
theorem recoverable_served {s₀ : Store} (hs₀ : Recoverable s₀) {es : List ControlEvent}
    (hread : ∀ c ∈ arrivals es, Read c) : Recoverable (served s₀ es).store := by
  refine (kept_run hs₀ fun p hp => ?_).store
  rw [← mem_spawned, spawned_toEvent] at hp
  obtain ⟨c, hc, rfl⟩ := List.mem_map.mp hp
  exact (handler_keeps (hread c hc)).limited c.limit

/-! ## Starting again -/

/-- What `main` shares with the handlers, and the tables that it has read. -/
def storeOf (t : FirewallState) (s : Store) : Store
  | .config => ConfigPart.mk t.maps.config t.row
  | .ebpf => t.ebpf
  | .subnetMatching .v4 => SubnetStore.mk t.maps.subnetMatchingV4 (s.subnet .v4).rows
  | .subnetMatching .v6 => SubnetStore.mk t.maps.subnetMatchingV6 (s.subnet .v6).rows

/-- Only what is in the database of the old state is read. -/
def start (opt : Opt) (o : AttachOutcomes) (faults : StartupFaults) (s : Store) : Option Store :=
  (startup opt o faults (s.subnet .v4).rows (s.subnet .v6).rows s.config.row).map
    fun t => storeOf t s

/-- There is room in the tries for the prefixes of the tables. -/
def RulesFit (s : Store) : Prop :=
  ∀ family, ∃ rules, (subnetFamily family).listSubnet (s.subnet family).rows = .ok rules ∧
    (subnetFamily family).Fits rules

/-- CONFIG is what the row says, or the defaults if there is none, and the tries are those of
the tables. -/
structure Restarted (opt : Opt) (s t : Store) : Prop where
  config : ∃ cfg row, t.config = ⟨some cfg, some row⟩ ∧ firewallConfigRow cfg = .ok row ∧
    (s.config.row = some row ∨ s.config.row = none ∧ cfg = startConfig opt none)
  rules : ∀ family, (t.subnet family).rows = (s.subnet family).rows ∧
    (subnetFamily family).restart (s.subnet family).rows = .ok (t.subnet family).trie

theorem postable_default (opt : Opt) : Postable (startConfig opt none) := by
  have hknown : ActivaterEtherTypes.fromBits defaultConfig.protocolAllowed.bits =
      some defaultConfig.protocolAllowed := by decide
  have hshifts : ∀ profile ∈ defaultConfig.profiles, profile.rateShift ≤ MAX_RATE_SHIFT := by
    decide
  exact ⟨hknown, hshifts⟩

/-- What is read from the row can be written back to it. -/
theorem load_recoverable {s : Store} (h : Recoverable s) (opt : Opt) :
    ∃ persisted row, loadFirewallConfig false s.config.row = .ok persisted ∧
      firewallConfigRow (startConfig opt persisted) = .ok row ∧
      Postable (startConfig opt persisted) ∧
      (s.config.row = some row ∨ s.config.row = none ∧ persisted = none) := by
  cases hrow : s.config.row with
  | none =>
    have hdefault : FitsSqlite defaultConfig := ⟨by decide, by decide, by decide, by decide⟩
    have hfits : FitsSqlite (startConfig opt none) :=
      ⟨hdefault.tcp, hdefault.udp, hdefault.icmp, hdefault.default⟩
    exact ⟨none, _, rfl, firewallConfigRow_fits hfits, postable_default opt, .inr ⟨rfl, rfl⟩⟩
  | some row =>
    obtain ⟨cfg, hcfg, hvalues⟩ := h.row row hrow
    refine ⟨some cfg, row, ?_, hvalues, hcfg, .inl rfl⟩
    simp [loadFirewallConfig, decode_saved hvalues hcfg.shifts hcfg.known, Except.map]

/-- A table of rules can be read exactly if there is room for their prefixes. -/
theorem restart_ok_iff {s : Store} (h : Recoverable s) (family : Family) :
    (∃ t, (subnetFamily family).restart (s.subnet family).rows = .ok t) ↔
      ∃ rules, (subnetFamily family).listSubnet (s.subnet family).rows = .ok rules ∧
        (subnetFamily family).Fits rules := by
  obtain ⟨rules, hholds⟩ := h.rules family
  have hlist := SubnetFamily.listSubnet_eq (subnetFamily_lawful family) hholds
  rw [SubnetFamily.restart, hlist]
  constructor
  · rintro ⟨t, ht⟩
    refine ⟨_, rfl, ?_⟩
    cases hrestore : (subnetFamily family).restore
        (rules.insertionSort (subnetFamily family).ruleLe) with
    | none => simp [hrestore] at ht
    | some u => exact (SubnetFamily.restore_eq_some_iff.mp hrestore).1
  · rintro ⟨rules', hrules, hfits⟩
    cases hrules
    obtain ⟨t, ht⟩ := SubnetFamily.restore_of_fits hfits
    exact ⟨t, by simp [ht]⟩

section Starting

variable {s : Store} (h : Recoverable s) {opt : Opt} {o : AttachOutcomes}

include h

/-- Nothing fails in `main`, and there is room for the rules. -/
theorem start_of_fits (hfits : RulesFit s) : ∃ t, start opt o .never s = some t := by
  obtain ⟨persisted, row, hload, hvalues, -, -⟩ := load_recoverable h opt
  obtain ⟨v4, hv4⟩ := (restart_ok_iff h .v4).mpr (hfits .v4)
  obtain ⟨v6, hv6⟩ := (restart_ok_iff h .v6).mpr (hfits .v6)
  have hsave : saveFirewallConfig false (startConfig opt persisted) s.config.row =
      (.ok (), some row) := by
    simp [saveFirewallConfig, hvalues]
  exact ⟨_, Option.map_eq_some_iff.mpr ⟨_, startup_eq_some_iff.mpr
    ⟨rfl, v4, v6, persisted, some row, hv4, hv6, hload, hsave, rfl⟩, rfl⟩⟩

/-- What a start comes to that succeeds. -/
theorem start_recoverable {faults : StartupFaults} {t : Store}
    (ht : start opt o faults s = some t) :
    faults = .never ∧ RulesFit s ∧ Restarted opt s t ∧ Recoverable t := by
  obtain ⟨state, hstate, rfl⟩ := Option.map_eq_some_iff.mp ht
  obtain ⟨hfaults, v4, v6, persisted, saved, hv4, hv6, hload, hsave, rfl⟩ :=
    startup_eq_some_iff.mp hstate
  obtain ⟨loaded, row, hload', hvalues, hpostable, hrow⟩ := load_recoverable h opt
  cases hload.symm.trans hload'
  obtain rfl : saved = some row := by
    simpa [saveFirewallConfig, hvalues] using hsave.symm
  refine ⟨hfaults, fun family => (restart_ok_iff h family).mp ?_,
    ⟨⟨_, row, rfl, hvalues, ?_⟩, ?_⟩, ?_, ?_, ?_⟩
  · cases family with
    | v4 => exact ⟨v4, hv4⟩
    | v6 => exact ⟨v6, hv6⟩
  · rcases hrow with hrow | ⟨hnone, hpersisted⟩
    · exact .inl hrow
    · exact .inr ⟨hnone, by rw [hpersisted]⟩
  · intro family
    cases family with
    | v4 => exact ⟨rfl, hv4⟩
    | v6 => exact ⟨rfl, hv6⟩
  · rintro cfg hcfg
    cases hcfg
    exact hpostable
  · rintro old hold
    cases hold
    exact ⟨_, hpostable, hvalues⟩
  · intro family
    obtain ⟨rules, hholds⟩ := h.rules family
    cases family with
    | v4 => exact ⟨rules, hholds.rows, hholds.keys, hholds.range⟩
    | v6 => exact ⟨rules, hholds.rows, hholds.keys, hholds.range⟩

/-- `main` gets to serving exactly if none of its own operations fails and there is room for
the rules. -/
theorem start_isSome_iff {faults : StartupFaults} :
    (∃ t, start opt o faults s = some t) ↔ faults = .never ∧ RulesFit s := by
  constructor
  · rintro ⟨t, ht⟩
    obtain ⟨hfaults, hfits, -⟩ := start_recoverable h ht
    exact ⟨hfaults, hfits⟩
  · rintro ⟨rfl, hfits⟩
    exact start_of_fits h hfits

end Starting

/-- How the program is started, and its requests until it is stopped. -/
structure Life where
  opt : Opt
  outcomes : AttachOutcomes
  faults : StartupFaults
  events : List ControlEvent

/-- A start that fails leaves the database as it was. -/
def live (s : Store) (life : Life) : Store :=
  match start life.opt life.outcomes life.faults s with
  | none => s
  | some t => (served t life.events).store

/-- There is nothing in the database yet. -/
def emptyStore : Store
  | .config => ConfigPart.mk none none
  | .ebpf => EbpfProgramm.new
  | .subnetMatching _ => SubnetStore.mk .empty []

/-- What the lives before have left. -/
def lived (history : List Life) : Store := history.foldl live emptyStore

theorem recoverable_emptyStore : Recoverable emptyStore :=
  ⟨fun _ hc => (by cases hc), fun _ hc => (by cases hc),
    fun _ => ⟨[], rfl, List.Pairwise.nil, by simp⟩⟩

theorem recoverable_live {s : Store} (hs : Recoverable s) {life : Life}
    (hread : ∀ c ∈ arrivals life.events, Read c) : Recoverable (live s life) := by
  unfold live
  split
  · exact hs
  · rename_i t ht
    obtain ⟨-, -, -, hrecoverable⟩ := start_recoverable hs ht
    exact recoverable_served hrecoverable hread

theorem recoverable_lived {history : List Life}
    (hread : ∀ life ∈ history, ∀ c ∈ arrivals life.events, Read c) :
    Recoverable (lived history) := by
  induction history using List.reverseRecOn with
  | nil => exact recoverable_emptyStore
  | append_singleton history life ih =>
    rw [lived, List.foldl_concat]
    exact recoverable_live (ih fun l hl => hread l (by simp [hl])) (hread life (by simp))

/-- However often the program is stopped, and at whatever moments: it starts again exactly if
none of its own operations fails and there is room in the tries for the rules of the tables,
and then it has what is in its database. -/
theorem starts_again_iff (history : List Life)
    (hread : ∀ life ∈ history, ∀ c ∈ arrivals life.events, Read c) (opt : Opt)
    (o : AttachOutcomes) (faults : StartupFaults) :
    ((∃ t, start opt o faults (lived history) = some t) ↔
      faults = .never ∧ RulesFit (lived history)) ∧
    ∀ t, start opt o faults (lived history) = some t → Restarted opt (lived history) t := by
  have hrecoverable := recoverable_lived hread
  refine ⟨start_isSome_iff hrecoverable, fun t ht => ?_⟩
  obtain ⟨-, -, hrestarted, -⟩ := start_recoverable hrecoverable ht
  exact hrestarted

/-- The program is stopped twice: when the adapters of an update are attached, but CONFIG and
its row are as before, and when a rule is in the trie but not in the table. Between the two,
`main` fails to save. -/
def threeLives : List Life :=
  [⟨⟨some 8, none⟩, noAttach, .never,
      [.arrive (Request.byRoot (.updateConfig { incomingEthernetAdapter := some (some 7) }) none),
        .resume 0, .resume 0, .resume 0, .resume 0]⟩,
    ⟨⟨none, none⟩, noAttach, ⟨false, false, false, true⟩, []⟩,
    ⟨⟨none, none⟩, noAttach, .never,
      [.arrive (Request.byRoot (.modifySubnetMatching .v4 tenDenied) none), .resume 0, .resume 0]⟩]

theorem starts_again_threeLives :
    ∃ t, start ⟨none, none⟩ noAttach .never (lived threeLives) = some t ∧
      Restarted ⟨none, none⟩ (lived threeLives) t := by
  have hread : ∀ life ∈ threeLives, ∀ c ∈ arrivals life.events, Read c := by
    intro life hlife c hc patch hpatch
    have hbody : Backup.decodeConfigPatch (.obj [("incoming_ethernet_adapter", .int 7)]) =
        some { incomingEthernetAdapter := some (some 7) } := rfl
    simp only [threeLives, List.mem_cons, List.not_mem_nil, or_false] at hlife
    rcases hlife with rfl | rfl | rfl
    · cases List.mem_singleton.mp hc
      cases hpatch
      exact ⟨_, hbody⟩
    · cases hc
    · cases List.mem_singleton.mp hc
      cases hpatch
  have hfits : RulesFit (lived threeLives) := by
    intro family
    refine ⟨[], ?_, by simp [SubnetFamily.Fits]⟩
    cases family <;> rfl
  obtain ⟨hstarts, hrestarted⟩ :=
    starts_again_iff threeLives hread ⟨none, none⟩ noAttach .never
  obtain ⟨t, ht⟩ := hstarts.mpr ⟨rfl, hfits⟩
  exact ⟨t, ht, hrestarted t ht⟩

end Oxidrop.Recovery
