import Oxidrop.Common

/-!
# The database of the control plane

The tables as SQLite holds them: integers are unbounded here, and every
encoding into a column checks the bound that the source checks. A statement
either takes effect as a whole or fails without effect. Rows of a subnet table
are keyed by the exact pair of network and prefix length.
-/
namespace Oxidrop

/-! ## Callers -/

inductive RolesUser where
  | viewer | admin
  deriving DecidableEq, Repr

structure ActionPermissions where
  bits : UInt8
  deriving DecidableEq, Repr

namespace ActionPermissions

def NONE : ActionPermissions := ⟨0⟩
def CREATE : ActionPermissions := ⟨1⟩
def MODIFY : ActionPermissions := ⟨2⟩
def DELETE : ActionPermissions := ⟨4⟩

def contains (a b : ActionPermissions) : Bool := a.bits &&& b.bits == b.bits

end ActionPermissions

structure CallerContext where
  role : RolesUser
  permissions : ActionPermissions
  deriving DecidableEq, Repr

/-- An administrator with every permission. -/
def CallerContext.root : CallerContext := ⟨.admin, ⟨7⟩⟩

/-- A value that does not fit into its column, a row that does not decode, a
duplicate in a UNIQUE column, or a statement that fails otherwise. -/
inductive SqlxError where
  | encode (message : String)
  | decode (message : String)
  | uniqueViolation
  | statement
  deriving DecidableEq, Repr

inductive UserError where
  | userExists (username : String)
  | invalidCredentials
  | notFound (name : String)
  | database (error : SqlxError)
  | internal (message : String)
  | lackingPermission
  | weakPassword (reason : String)
  deriving DecidableEq, Repr

/-! ## The firewall configuration -/

/-- `i64::MAX`. -/
def I64_MAX : Nat := 2 ^ 63 - 1

def sqliteInteger (value : UInt64) (field : String) : Except SqlxError Int :=
  if value.toNat ≤ I64_MAX then .ok value.toNat
  else .error (.encode (field ++ " does not fit in a SQLite INTEGER"))

structure FirewallConfigRow where
  tcpRateShift : Int
  tcpBurst : Int
  udpRateShift : Int
  udpBurst : Int
  icmpRateShift : Int
  icmpBurst : Int
  defaultRateShift : Int
  defaultBurst : Int
  protocolAllowed : Int
  ddosActivated : Bool
  subnetActivated : Bool
  incomingEthernetAdapter : Option Int
  outputEthernetAdapter : Option Int
  deriving DecidableEq, Repr

/-- The values that `save_firewall_config` binds, in the order it checks them. -/
def firewallConfigRow (config : FirewallConfig) : Except SqlxError FirewallConfigRow := do
  let tcpRateShift ← sqliteInteger config.tcpProfile.rateShift "tcp_rate_shift"
  let tcpBurst ← sqliteInteger config.tcpProfile.burst "tcp_burst"
  let udpRateShift ← sqliteInteger config.udpProfile.rateShift "udp_rate_shift"
  let udpBurst ← sqliteInteger config.udpProfile.burst "udp_burst"
  let icmpRateShift ← sqliteInteger config.icmpProfile.rateShift "icmp_rate_shift"
  let icmpBurst ← sqliteInteger config.icmpProfile.burst "icmp_burst"
  let defaultRateShift ← sqliteInteger config.defaultProfile.rateShift "default_rate_shift"
  let defaultBurst ← sqliteInteger config.defaultProfile.burst "default_burst"
  return {
    tcpRateShift, tcpBurst, udpRateShift, udpBurst, icmpRateShift, icmpBurst,
    defaultRateShift, defaultBurst
    protocolAllowed := config.protocolAllowed.bits.toNat
    ddosActivated := config.ddosActivated
    subnetActivated := config.subnetActivated
    incomingEthernetAdapter := config.incomingEthernetAdapter.map (fun index => (index.toNat : Int))
    outputEthernetAdapter := config.outputEthernetAdapter.map (fun index => (index.toNat : Int)) }

/-- The row with id 1, and whether the statement fails. -/
def saveFirewallConfig (fails : Bool) (config : FirewallConfig)
    (row : Option FirewallConfigRow) : Except SqlxError Unit × Option FirewallConfigRow :=
  match firewallConfigRow config with
  | .error e => (.error e, row)
  | .ok values => if fails then (.error .statement, row) else (.ok (), some values)

/-- Every integer of the configuration fits into a column. -/
structure FitsSqlite (config : FirewallConfig) : Prop where
  tcp : config.tcpProfile.rateShift.toNat ≤ I64_MAX ∧ config.tcpProfile.burst.toNat ≤ I64_MAX
  udp : config.udpProfile.rateShift.toNat ≤ I64_MAX ∧ config.udpProfile.burst.toNat ≤ I64_MAX
  icmp : config.icmpProfile.rateShift.toNat ≤ I64_MAX ∧ config.icmpProfile.burst.toNat ≤ I64_MAX
  default : config.defaultProfile.rateShift.toNat ≤ I64_MAX ∧
    config.defaultProfile.burst.toNat ≤ I64_MAX

theorem sqliteInteger_ok_iff (value : UInt64) (field : String) :
    (∃ i, sqliteInteger value field = .ok i) ↔ value.toNat ≤ I64_MAX := by
  unfold sqliteInteger
  split <;> simp_all

theorem bind_ok_iff {ε α β : Type} {x : Except ε α} {f : α → Except ε β} :
    (∃ b, x.bind f = .ok b) ↔ ∃ a, x = .ok a ∧ ∃ b, f a = .ok b := by
  cases x <;> simp [Except.bind]

/-- The row of a configuration whose integers fit. -/
theorem firewallConfigRow_fits {config : FirewallConfig} (h : FitsSqlite config) :
    firewallConfigRow config = .ok {
      tcpRateShift := config.tcpProfile.rateShift.toNat
      tcpBurst := config.tcpProfile.burst.toNat
      udpRateShift := config.udpProfile.rateShift.toNat
      udpBurst := config.udpProfile.burst.toNat
      icmpRateShift := config.icmpProfile.rateShift.toNat
      icmpBurst := config.icmpProfile.burst.toNat
      defaultRateShift := config.defaultProfile.rateShift.toNat
      defaultBurst := config.defaultProfile.burst.toNat
      protocolAllowed := config.protocolAllowed.bits.toNat
      ddosActivated := config.ddosActivated
      subnetActivated := config.subnetActivated
      incomingEthernetAdapter := config.incomingEthernetAdapter.map (fun index => index.toNat)
      outputEthernetAdapter := config.outputEthernetAdapter.map (fun index => index.toNat) } := by
  simp only [firewallConfigRow, sqliteInteger, if_pos h.tcp.1, if_pos h.tcp.2, if_pos h.udp.1,
    if_pos h.udp.2, if_pos h.icmp.1, if_pos h.icmp.2, if_pos h.default.1, if_pos h.default.2]
  rfl

theorem firewallConfigRow_ok_iff (config : FirewallConfig) :
    (∃ row, firewallConfigRow config = .ok row) ↔ FitsSqlite config := by
  have hint : ∀ value field i, sqliteInteger value field = .ok i → value.toNat ≤ I64_MAX :=
    fun value field i h => (sqliteInteger_ok_iff value field).mp ⟨i, h⟩
  constructor
  · rintro ⟨row, h⟩
    simp only [firewallConfigRow, bind] at h
    obtain ⟨_, h₁, _, h⟩ := bind_ok_iff.mp ⟨row, h⟩
    obtain ⟨_, h₂, _, h⟩ := bind_ok_iff.mp ⟨_, h⟩
    obtain ⟨_, h₃, _, h⟩ := bind_ok_iff.mp ⟨_, h⟩
    obtain ⟨_, h₄, _, h⟩ := bind_ok_iff.mp ⟨_, h⟩
    obtain ⟨_, h₅, _, h⟩ := bind_ok_iff.mp ⟨_, h⟩
    obtain ⟨_, h₆, _, h⟩ := bind_ok_iff.mp ⟨_, h⟩
    obtain ⟨_, h₇, _, h⟩ := bind_ok_iff.mp ⟨_, h⟩
    obtain ⟨_, h₈, _, h⟩ := bind_ok_iff.mp ⟨_, h⟩
    exact ⟨⟨hint _ _ _ h₁, hint _ _ _ h₂⟩, ⟨hint _ _ _ h₃, hint _ _ _ h₄⟩,
      ⟨hint _ _ _ h₅, hint _ _ _ h₆⟩, ⟨hint _ _ _ h₇, hint _ _ _ h₈⟩⟩
  · intro h
    exact ⟨_, firewallConfigRow_fits h⟩

/-- A row holds the adapters of its configuration. -/
theorem firewallConfigRow_adapters {config : FirewallConfig} {row : FirewallConfigRow}
    (h : firewallConfigRow config = .ok row) :
    row.incomingEthernetAdapter =
        config.incomingEthernetAdapter.map (fun index => (index.toNat : Int)) ∧
      row.outputEthernetAdapter =
        config.outputEthernetAdapter.map (fun index => (index.toNat : Int)) := by
  have hfits := (firewallConfigRow_ok_iff config).mp ⟨row, h⟩
  cases h.symm.trans (firewallConfigRow_fits hfits)
  exact ⟨rfl, rfl⟩

end Oxidrop
