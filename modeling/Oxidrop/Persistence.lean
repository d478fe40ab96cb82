import Oxidrop.Lib.Table
import Oxidrop.Startup

/-!
# The stored firewall configuration

The two statements on the table `firewall_config`, column by column: values are
bound by their position, an upsert copies them by the names of the columns, and a
query with its own list of columns reads them back. Together they do what
`saveFirewallConfig` and `loadFirewallConfig` do to the one row.
-/
namespace Oxidrop.Persistence

open Table

/-! ## The table -/

/-- The columns beside `id` and `name`. -/
inductive ConfigColumn where
  | tcpRateShift | tcpBurst | udpRateShift | udpBurst | icmpRateShift | icmpBurst
  | defaultRateShift | defaultBurst | protocolAllowed | ddosActivated | subnetActivated
  | incomingEthernetAdapter | outputEthernetAdapter
  deriving DecidableEq, Repr

/-- A column without a value is NULL. -/
structure ConfigRecord where
  id : Int
  name : String
  values : ConfigColumn → Option Int

abbrev ConfigTable := List ConfigRecord

def notNull : List ConfigColumn :=
  [.tcpRateShift, .tcpBurst, .udpRateShift, .udpBurst, .icmpRateShift, .icmpBurst,
    .defaultRateShift, .defaultBurst, .protocolAllowed, .ddosActivated, .subnetActivated]

/-- `NOT NULL` and the two CHECK constraints. -/
def ConfigRecord.checks (r : ConfigRecord) : Bool :=
  notNull.all (fun c => (r.values c).isSome) &&
    (r.values .ddosActivated == some 0 || r.values .ddosActivated == some 1) &&
    (r.values .subnetActivated == some 0 || r.values .subnetActivated == some 1)

def configSchema : Schema ConfigRecord String := ⟨ConfigRecord.checks, ConfigRecord.name⟩

/-! ## Saving -/

/-- The columns after `id` and `name` in the INSERT, in its order. -/
def insertColumns : List ConfigColumn :=
  [.tcpRateShift, .tcpBurst, .udpRateShift, .udpBurst, .icmpRateShift, .icmpBurst,
    .defaultRateShift, .defaultBurst, .protocolAllowed, .ddosActivated, .subnetActivated,
    .incomingEthernetAdapter, .outputEthernetAdapter]

def ofBool (b : Bool) : Int := if b then 1 else 0

/-- The arguments of the statement, in their order. -/
def bindings (row : FirewallConfigRow) : List (Option Int) :=
  [some row.tcpRateShift, some row.tcpBurst, some row.udpRateShift, some row.udpBurst,
    some row.icmpRateShift, some row.icmpBurst, some row.defaultRateShift,
    some row.defaultBurst, some row.protocolAllowed, some (ofBool row.ddosActivated),
    some (ofBool row.subnetActivated), row.incomingEthernetAdapter, row.outputEthernetAdapter]

/-- `VALUES (1, 'default', ?, …)`. -/
def insertedRecord (arguments : List (Option Int)) : ConfigRecord :=
  ⟨1, "default", fun c => ((insertColumns.zip arguments).lookup c).join⟩

/-- The assignments of `DO UPDATE SET`, each with the column of `excluded`. -/
def assignments : List (ConfigColumn × ConfigColumn) :=
  [(.tcpRateShift, .tcpRateShift), (.tcpBurst, .tcpBurst),
    (.udpRateShift, .udpRateShift), (.udpBurst, .udpBurst),
    (.icmpRateShift, .icmpRateShift), (.icmpBurst, .icmpBurst),
    (.defaultRateShift, .defaultRateShift), (.defaultBurst, .defaultBurst),
    (.protocolAllowed, .protocolAllowed), (.ddosActivated, .ddosActivated),
    (.subnetActivated, .subnetActivated),
    (.incomingEthernetAdapter, .incomingEthernetAdapter),
    (.outputEthernetAdapter, .outputEthernetAdapter)]

def ConfigRecord.update (excluded r : ConfigRecord) : ConfigRecord :=
  { r with values := fun c =>
      match assignments.lookup c with
      | some source => excluded.values source
      | none => r.values c }

/-- `INSERT … ON CONFLICT(id) DO UPDATE`, with the record that `RETURNING` reads.
The conflict target is looked at before the other constraints. -/
def upsert (excluded : ConfigRecord) (t : ConfigTable) :
    Except Violation (ConfigRecord × ConfigTable) :=
  match t.find? (fun r => r.id = excluded.id) with
  | none => (insert configSchema excluded t).map (fun t => (excluded, t))
  | some r =>
    (updateWhere configSchema (fun r => r.id = excluded.id) excluded.update t).map
      (fun a => (excluded.update r, a.2))

def readInteger (r : ConfigRecord) (c : ConfigColumn) : Except SqlxError Int :=
  match r.values c with
  | some i => .ok i
  | none => .error (.decode "unexpected null")

/-- The columns of `RETURNING` and of the query, by the fields they are read into. -/
def readRow (r : ConfigRecord) : Except SqlxError FirewallConfigRow := do
  let tcpRateShift ← readInteger r .tcpRateShift
  let tcpBurst ← readInteger r .tcpBurst
  let udpRateShift ← readInteger r .udpRateShift
  let udpBurst ← readInteger r .udpBurst
  let icmpRateShift ← readInteger r .icmpRateShift
  let icmpBurst ← readInteger r .icmpBurst
  let defaultRateShift ← readInteger r .defaultRateShift
  let defaultBurst ← readInteger r .defaultBurst
  let protocolAllowed ← readInteger r .protocolAllowed
  let ddosActivated ← readInteger r .ddosActivated
  let subnetActivated ← readInteger r .subnetActivated
  return {
    tcpRateShift, tcpBurst, udpRateShift, udpBurst, icmpRateShift, icmpBurst,
    defaultRateShift, defaultBurst, protocolAllowed
    ddosActivated := ddosActivated != 0
    subnetActivated := subnetActivated != 0
    incomingEthernetAdapter := r.values .incomingEthernetAdapter
    outputEthernetAdapter := r.values .outputEthernetAdapter }

def ConfigTable.saveFirewallConfig (config : FirewallConfig) (t : ConfigTable) :
    Except SqlxError Unit × ConfigTable :=
  match firewallConfigRow config with
  | .error e => (.error e, t)
  | .ok row =>
    match upsert (insertedRecord (bindings row)) t with
    | .error .unique => (.error .uniqueViolation, t)
    | .error .check => (.error .statement, t)
    | .ok (returned, t) => ((readRow returned).map (fun _ => ()), t)

/-! ## Loading -/

def ConfigTable.loadFirewallConfig (t : ConfigTable) :
    Except SqlxError (Option FirewallConfig) :=
  match t.find? (fun r => r.id = 1) with
  | none => .ok none
  | some r => (readRow r).bind fun row => row.decode.map some

/-! ## What the statements do -/

section Statements

variable {t : ConfigTable}

/-- The table is empty or holds the row with id 1 alone. -/
def Sole (t : ConfigTable) : Prop := t = [] ∨ ∃ r, t = [r] ∧ r.id = 1

/-- Every column but `id` and `name` is assigned its own new value. -/
theorem update_values (excluded r : ConfigRecord) :
    (excluded.update r).values = excluded.values := by
  funext c
  cases c <;> rfl

/-- What has been bound is read back. -/
theorem readRow_inserted (row : FirewallConfigRow) :
    readRow (insertedRecord (bindings row)) = .ok row := by
  obtain ⟨_, _, _, _, _, _, _, _, _, ddos, subnet, _, _⟩ := row
  cases ddos <;> cases subnet <;> rfl

theorem readRow_congr {r r' : ConfigRecord} (h : r.values = r'.values) :
    readRow r = readRow r' := by
  unfold readRow readInteger
  rw [h]

theorem checks_congr {r r' : ConfigRecord} (h : r.values = r'.values) :
    r.checks = r'.checks := by
  unfold ConfigRecord.checks
  rw [h]

theorem checks_inserted (row : FirewallConfigRow) :
    (insertedRecord (bindings row)).checks = true := by
  obtain ⟨_, _, _, _, _, _, _, _, _, ddos, subnet, _, _⟩ := row
  cases ddos <;> cases subnet <;> rfl

/-- The upsert leaves one record, which shows the row that was bound. -/
theorem upsert_sole (ht : Sole t) (row : FirewallConfigRow) :
    ∃ r, upsert (insertedRecord (bindings row)) t = .ok (r, [r]) ∧ r.id = 1 ∧
      readRow r = .ok row := by
  rcases ht with rfl | ⟨r, rfl, hid⟩
  · have hinsert : insert configSchema (insertedRecord (bindings row)) [] =
        .ok [insertedRecord (bindings row)] :=
      insert_eq_ok_iff.mpr ⟨checks_inserted row, by simp, rfl⟩
    refine ⟨insertedRecord (bindings row), ?_, rfl, readRow_inserted row⟩
    simp only [upsert, List.find?_nil, hinsert]
    rfl
  · have hvalues := update_values (insertedRecord (bindings row)) r
    have hsame : decide (r.id = (insertedRecord (bindings row)).id) = true := by
      simp [hid, insertedRecord]
    have hchecks := (checks_congr hvalues).trans (checks_inserted row)
    have hupdate : updateWhere configSchema
        (fun r => decide (r.id = (insertedRecord (bindings row)).id))
        (insertedRecord (bindings row)).update [r] =
          .ok (1, [(insertedRecord (bindings row)).update r]) := by
      refine updateWhere_eq_ok_iff.mpr ⟨?_, by simp [rewrite], ?_, ?_⟩
      · intro r' hr' _
        rw [List.mem_singleton.mp hr']
        exact hchecks
      · simp [hsame]
      · simp [rewrite, of_decide_eq_true hsame]
    refine ⟨(insertedRecord (bindings row)).update r, ?_, hid, ?_⟩
    · simp only [upsert, List.find?_cons, hsame, hupdate]
      rfl
    · rw [readRow_congr hvalues, readRow_inserted]

/-- A configuration that does not fit is refused; any other replaces the row. -/
theorem save_cases (ht : Sole t) (config : FirewallConfig) :
    (∃ e, firewallConfigRow config = .error e ∧
      ConfigTable.saveFirewallConfig config t = (.error e, t)) ∨
    (∃ row r, firewallConfigRow config = .ok row ∧ r.id = 1 ∧ readRow r = .ok row ∧
      ConfigTable.saveFirewallConfig config t = (.ok (), [r])) := by
  unfold ConfigTable.saveFirewallConfig
  cases hrow : firewallConfigRow config with
  | error e => exact .inl ⟨e, rfl, rfl⟩
  | ok row =>
    obtain ⟨r, hupsert, hid, hread⟩ := upsert_sole ht row
    refine .inr ⟨row, r, rfl, hid, hread, ?_⟩
    simp only [hupsert, hread]
    rfl

theorem load_sole {r : ConfigRecord} (hid : r.id = 1) :
    ConfigTable.loadFirewallConfig [r] = (readRow r).bind fun row => row.decode.map some := by
  simp [ConfigTable.loadFirewallConfig, hid]

/-! ## The one row -/

/-- The row that the queries see. -/
def Shows (t : ConfigTable) (o : Option FirewallConfigRow) : Prop :=
  (t = [] ∧ o = none) ∨ ∃ r row, t = [r] ∧ r.id = 1 ∧ readRow r = .ok row ∧ o = some row

theorem Shows.sole {o : Option FirewallConfigRow} (h : Shows t o) : Sole t := by
  rcases h with ⟨rfl, -⟩ | ⟨r, -, rfl, hid, -⟩
  · exact .inl rfl
  · exact .inr ⟨r, rfl, hid⟩

/-- The statements do to the table what `saveFirewallConfig` does to the row. -/
theorem save_shows {o : Option FirewallConfigRow} (h : Shows t o) (config : FirewallConfig) :
    (ConfigTable.saveFirewallConfig config t).1 = (saveFirewallConfig false config o).1 ∧
      Shows (ConfigTable.saveFirewallConfig config t).2 (saveFirewallConfig false config o).2 := by
  unfold saveFirewallConfig
  rcases save_cases h.sole config with ⟨e, hrow, hsave⟩ | ⟨row, r, hrow, hid, hread, hsave⟩
  · rw [hrow, hsave]
    exact ⟨rfl, h⟩
  · rw [hrow, hsave]
    exact ⟨rfl, .inr ⟨r, row, rfl, hid, hread, rfl⟩⟩

theorem load_shows {o : Option FirewallConfigRow} (h : Shows t o) :
    ConfigTable.loadFirewallConfig t = loadFirewallConfig false o := by
  rcases h with ⟨rfl, rfl⟩ | ⟨r, row, rfl, hid, hread, rfl⟩
  · rfl
  · rw [load_sole hid, hread]
    rfl

end Statements

/-! ## The round trip -/

/-- Some integer of the configuration is beyond those of SQLite. -/
def TooLarge (config : FirewallConfig) : Prop :=
  ∃ profile ∈ config.profiles,
    2 ^ 63 - 1 < profile.rateShift.toNat ∨ 2 ^ 63 - 1 < profile.burst.toNat

/-- The flags of the mask are defined ones. -/
def Known (config : FirewallConfig) : Prop :=
  ActivaterEtherTypes.fromBits config.protocolAllowed.bits = some config.protocolAllowed

theorem tooLarge_iff (config : FirewallConfig) : TooLarge config ↔ ¬ FitsSqlite config := by
  constructor
  · rintro ⟨profile, hp, hlarge⟩ ⟨htcp, hudp, hicmp, hdefault⟩
    simp only [FirewallConfig.profiles, List.mem_cons, List.not_mem_nil, or_false] at hp
    unfold I64_MAX at htcp hudp hicmp hdefault
    rcases hp with rfl | rfl | rfl | rfl <;> omega
  · intro hfits
    by_contra hno
    have hle : ∀ profile ∈ config.profiles,
        profile.rateShift.toNat ≤ I64_MAX ∧ profile.burst.toNat ≤ I64_MAX := by
      intro profile hp
      have hsmall := not_or.mp fun hlarge => hno ⟨profile, hp, hlarge⟩
      exact ⟨not_lt.mp hsmall.1, not_lt.mp hsmall.2⟩
    exact hfits
      ⟨hle _ (by simp [FirewallConfig.profiles]), hle _ (by simp [FirewallConfig.profiles]),
        hle _ (by simp [FirewallConfig.profiles]), hle _ (by simp [FirewallConfig.profiles])⟩

/-- What a save does to the table, and what a load finds after it. -/
structure RoundTrip (t : ConfigTable) (config : FirewallConfig) : Prop where
  refused : (∃ e, (ConfigTable.saveFirewallConfig config t).1 = .error e) ↔ TooLarge config
  unchanged : TooLarge config → (ConfigTable.saveFirewallConfig config t).2 = t
  loaded : ¬ TooLarge config → (∀ profile ∈ config.profiles, profile.rateShift ≤ 63) →
    ConfigTable.loadFirewallConfig (ConfigTable.saveFirewallConfig config t).2 =
      .ok (some config)
  rejected : ¬ TooLarge config → (∃ profile ∈ config.profiles, 64 ≤ profile.rateShift) →
    ∃ e, ConfigTable.loadFirewallConfig (ConfigTable.saveFirewallConfig config t).2 = .error e

theorem decode_known {row : FirewallConfigRow} {config : FirewallConfig}
    (h : row.decode = .ok config) : Known config := by
  obtain ⟨bits, -, hbits⟩ := Option.bind_eq_some_iff.mp (FirewallConfigRow.decode_eq_ok.mp h).1
  have hsame : ∀ {a}, ActivaterEtherTypes.fromBits bits = some a → a.bits = bits := by
    intro a ha
    unfold ActivaterEtherTypes.fromBits at ha
    split at ha
    · cases ha
      rfl
    · cases ha
  rw [Known, hsame hbits, hbits]

/-- No row with a shift that a 64-bit word does not have decodes. -/
theorem decode_saved_error {config : FirewallConfig} {row : FirewallConfigRow}
    (h : firewallConfigRow config = .ok row)
    (hshift : ∃ profile ∈ config.profiles, 64 ≤ profile.rateShift) :
    ∃ e, row.decode = .error e := by
  cases hdecode : row.decode with
  | error e => exact ⟨e, rfl⟩
  | ok config' =>
    exfalso
    obtain ⟨profile, hp, hlarge⟩ := hshift
    have hfits := (firewallConfigRow_ok_iff config).mp ⟨row, h⟩
    cases h.symm.trans (firewallConfigRow_fits hfits)
    obtain ⟨-, ht, hu, hi, hd, -⟩ := FirewallConfigRow.decode_eq_ok.mp hdecode
    have hsmall : ∀ {p p' : RateProfile} {name : String},
        loadProfile p.rateShift.toNat p.burst.toNat name = .ok p' → p.rateShift ≤ 63 := by
      intro p p' name hload
      obtain ⟨hs, hle, -⟩ := loadProfile_eq_ok.mp hload
      rw [u64TryFrom_toNat, Option.some.injEq] at hs
      rwa [hs]
    have hle : profile.rateShift ≤ 63 := by
      simp only [FirewallConfig.profiles, List.mem_cons, List.not_mem_nil, or_false] at hp
      rcases hp with rfl | rfl | rfl | rfl
      · exact hsmall ht
      · exact hsmall hu
      · exact hsmall hi
      · exact hsmall hd
    rw [UInt64.le_iff_toNat_le] at hle hlarge
    exact absurd (hlarge.trans hle) (by decide)

theorem roundTrip {t : ConfigTable} (ht : Sole t) {config : FirewallConfig} (hk : Known config) :
    RoundTrip t config := by
  have hlarge := tooLarge_iff config
  rw [← firewallConfigRow_ok_iff] at hlarge
  rcases save_cases ht config with ⟨e, hrow, hsave⟩ | ⟨row, r, hrow, hid, hread, hsave⟩
  · rw [hrow] at hlarge
    have htoo : TooLarge config := hlarge.mpr (by simp)
    refine ⟨⟨fun _ => htoo, fun _ => ⟨e, by rw [hsave]⟩⟩, fun _ => by rw [hsave], ?_, ?_⟩
    · exact fun hno => absurd htoo hno
    · exact fun hno => absurd htoo hno
  · have hnot : ¬ TooLarge config := fun htoo => hlarge.mp htoo ⟨row, hrow⟩
    have hload : ConfigTable.loadFirewallConfig (ConfigTable.saveFirewallConfig config t).2 =
        row.decode.map some := by
      rw [hsave, load_sole hid, hread]
      rfl
    refine ⟨?_, fun htoo => absurd htoo hnot, fun _ hshift => ?_, fun _ hshift => ?_⟩
    · rw [hsave]
      simp [hnot]
    · rw [hload, decode_saved hrow hshift hk]
      rfl
    · obtain ⟨e, he⟩ := decode_saved_error hrow hshift
      exact ⟨e, by rw [hload, he]; rfl⟩

/-- Saving refuses exactly what SQLite cannot hold, and loading gives back exactly
what has been saved, unless a shift is not one of a 64-bit word. No table at all
loads such a shift or an unknown protocol. -/
theorem config_round_trip (t : ConfigTable) (ht : Sole t) :
    (∀ config, Known config → RoundTrip t config) ∧
      ∀ config, ConfigTable.loadFirewallConfig t = .ok (some config) →
        (∀ profile ∈ config.profiles, profile.rateShift ≤ 63) ∧ Known config := by
  refine ⟨fun config hk => roundTrip ht hk, fun config hload => ?_⟩
  rcases ht with rfl | ⟨r, rfl, hid⟩
  · cases hload
  · rw [load_sole hid] at hload
    cases hread : readRow r with
    | error e => simp [hread, Except.bind] at hload
    | ok row =>
      cases hdecode : row.decode with
      | error e => simp [hread, hdecode, Except.bind, Except.map] at hload
      | ok config' =>
        simp only [hread, hdecode, Except.bind, Except.map, Except.ok.injEq,
          Option.some.injEq] at hload
        cases hload
        exact ⟨decode_rateShift_le hdecode, decode_known hdecode⟩

/-- A shift of 64 is saved over the row that is there, and then not loaded. -/
theorem config_round_trip_shift :
    ∃ e, ConfigTable.loadFirewallConfig (ConfigTable.saveFirewallConfig
      { defaultConfig with udpProfile := ⟨64, 1⟩ }
      [⟨1, "default", fun _ => some 0⟩]).2 = .error e :=
  ((config_round_trip [⟨1, "default", fun _ => some 0⟩] (.inr ⟨_, rfl, rfl⟩)).1 _
    (by unfold Known; decide)).rejected
    (fun h => (tooLarge_iff _).mp h ⟨by decide, by decide, by decide, by decide⟩)
    ⟨⟨64, 1⟩, by simp [FirewallConfig.profiles], by decide⟩

end Oxidrop.Persistence
