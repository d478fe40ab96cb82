import Oxidrop.Database
import Oxidrop.Lib.Newest
import Oxidrop.Lib.Run
import Oxidrop.Lib.Table

/-!
# Persisted logs

Entries are appended to the table `firewall_logs` with the id after the greatest,
and a periodic statement prunes it. The cut-off of the statement is the id at a
fixed place of the descending order, so the newest entries are kept and ids are
never given out again.
-/
namespace Oxidrop.Logs

open Run Table Newest

/-! ## The table -/

structure LogEntry where
  id : Int
  timestamp : Int
  level : String
  message : String
  actor : Option String
  sourceIp : Option String
  destinationIp : Option String
  sourcePort : Option Int
  destinationPort : Option Int
  protocol : Option String
  action : Option String
  deriving DecidableEq, Repr

abbrev LogTable := List LogEntry

/-- The CHECK constraints. A value that is NULL passes. -/
def LogEntry.checks (e : LogEntry) : Bool :=
  0 < e.timestamp &&
    ["DEBUG", "INFO", "WARN", "ERROR", "FATAL"].contains e.level &&
    e.sourceIp.all (fun ip => 7 ≤ ip.length && ip.length ≤ 45) &&
    e.destinationIp.all (fun ip => 7 ≤ ip.length && ip.length ≤ 45) &&
    e.sourcePort.all (fun port => 0 ≤ port && port ≤ 65535) &&
    e.destinationPort.all (fun port => 0 ≤ port && port ≤ 65535) &&
    e.protocol.all (["TCP", "UDP", "ICMP", "IGMP", "GRE", "IPv6-ICMP"].contains ·) &&
    e.action.all (["ALLOW", "DENY", "DROP", "REJECT"].contains ·)

def logSchema : Schema LogEntry Int := ⟨LogEntry.checks, LogEntry.id⟩

/-- The clock, whether the statement fails, and the id that SQLite tries when the
greatest one is taken. -/
structure LogEnv where
  now : Int
  fails : Bool
  spareId : Int
  deriving DecidableEq, Repr

/-- The id of a row that is inserted without one. -/
def nextRowid (spareId : Int) (t : LogTable) : Int :=
  match (t.map LogEntry.id).max? with
  | none => 1
  | some m => if m < 2 ^ 63 - 1 then m + 1 else spareId

/-! ## The statements -/

/-- The arguments of `record_details`. -/
structure LogDetails where
  level : String
  message : String
  actor : Option String
  sourceIp : Option String
  destinationIp : Option String
  sourcePort : Option UInt16
  destinationPort : Option UInt16
  protocol : Option String
  action : Option String
  deriving DecidableEq, Repr

/-- The entry that is stored, if one is. -/
def insertLog (env : LogEnv) (details : LogDetails) (t : LogTable) :
    Except SqlxError LogEntry × LogTable :=
  let entry : LogEntry :=
    { id := nextRowid env.spareId t
      timestamp := env.now
      level := details.level
      message := details.message
      actor := details.actor
      sourceIp := details.sourceIp
      destinationIp := details.destinationIp
      sourcePort := details.sourcePort.map (fun port => port.toNat)
      destinationPort := details.destinationPort.map (fun port => port.toNat)
      protocol := details.protocol
      action := details.action }
  if env.fails then (.error .statement, t)
  else
    match insert logSchema entry t with
    | .error .check => (.error .statement, t)
    | .error .unique => (.error .uniqueViolation, t)
    | .ok t => (.ok entry, t)

/-- `record_details` sends the stored entry to its subscribers, and only reports a
failure. -/
def recordDetails (env : LogEnv) (details : LogDetails) (t : LogTable) :
    Option LogEntry × LogTable :=
  match insertLog env details t with
  | (.ok entry, t) => (some entry, t)
  | (.error _, t) => (none, t)

/-- `Database::record_log`. -/
def recordLog (env : LogEnv) (level message : String) (actor : Option String) (t : LogTable) :
    Except SqlxError Unit × LogTable :=
  let r := insertLog env ⟨level, message, actor, none, none, none, none, none, none⟩ t
  (r.1.map (fun _ => ()), r.2)

def MAX_PERSISTED_LOGS : Nat := 100000

/-- `SELECT id … ORDER BY id DESC LIMIT 1 OFFSET ?`. -/
def oldestPruned (t : LogTable) : Option Int :=
  (((t.map LogEntry.id).insertionSort (· ≥ ·)).drop MAX_PERSISTED_LOGS).head?

/-- One round of `prune_periodically`. No id compares with NULL. -/
def prune (fails : Bool) (t : LogTable) : LogTable :=
  if fails then t
  else
    match oldestPruned t with
    | none => t
    | some id => (deleteWhere (fun r => r.id ≤ id) t).2

inductive LogEvent where
  | record (env : LogEnv) (details : LogDetails)
  | prune (fails : Bool)

/-- The answer is the entry that is stored. -/
def handle : Machine LogEvent LogTable (Option LogEntry)
  | .record env details, t => recordDetails env details t
  | .prune fails, t => (none, prune fails t)

/-! ## What one statement does -/

section Steps

variable {t : LogTable}

theorem prune_eq (t : LogTable) : prune false t = keep LogEntry.id MAX_PERSISTED_LOGS t := by
  have hcut : oldestPruned t = cutoff LogEntry.id MAX_PERSISTED_LOGS t := by
    rw [oldestPruned, cutoff, List.head?_drop]
  rw [prune, if_neg (by decide), hcut, keep]
  cases cutoff LogEntry.id MAX_PERSISTED_LOGS t with
  | none => rfl
  | some c => simp only [deleteWhere, decide_not]

/-- Ids are distinct, and `n` more of them can be given out. -/
structure Ready (t : LogTable) (n : Nat) : Prop where
  ids : (t.map LogEntry.id).Nodup
  room : n < 2 ^ 63 ∧ ∀ r ∈ t, r.id + n < 2 ^ 63

/-- The next id is greater than all others. -/
theorem nextRowid_spec {n : Nat} (h : Ready t (n + 1)) (spareId : Int) :
    (∀ r ∈ t, r.id < nextRowid spareId t) ∧ nextRowid spareId t + n < 2 ^ 63 := by
  obtain ⟨hn, hroom⟩ := h.room
  unfold nextRowid
  cases hm : (t.map LogEntry.id).max? with
  | none =>
    have hnil : t = [] := List.map_eq_nil_iff.mp (List.max?_eq_none_iff.mp hm)
    subst hnil
    refine ⟨by simp, ?_⟩
    simp only
    omega
  | some m =>
    obtain ⟨hmem, hmax⟩ := List.max?_eq_some_iff.mp hm
    obtain ⟨r, hr, rfl⟩ := List.mem_map.mp hmem
    have hlt := hroom r hr
    simp only
    rw [if_pos (by omega)]
    refine ⟨fun r' hr' => ?_, by omega⟩
    have hle := hmax r'.id (List.mem_map_of_mem hr')
    omega

/-- An insertion fails without effect, or appends an entry with the next id. -/
theorem insertLog_cases (env : LogEnv) (details : LogDetails) (t : LogTable) :
    (∃ e, insertLog env details t = (.error e, t)) ∨
      ∃ entry, insertLog env details t = (.ok entry, t ++ [entry]) ∧
        entry.id = nextRowid env.spareId t := by
  unfold insertLog
  simp only
  generalize hentry : LogEntry.mk (nextRowid env.spareId t) env.now _ _ _ _ _ _ _ _ _ = entry
  have hid : entry.id = nextRowid env.spareId t := by rw [← hentry]
  cases env.fails with
  | true => exact .inl ⟨_, rfl⟩
  | false =>
    simp only [Bool.false_eq_true, if_false]
    cases hinsert : insert logSchema entry t with
    | error v => cases v <;> exact .inl ⟨_, rfl⟩
    | ok t' =>
      obtain ⟨-, -, rfl⟩ := insert_eq_ok_iff.mp hinsert
      exact .inr ⟨entry, rfl, hid⟩

/-- Every event leaves the table, appends an entry, or prunes. -/
theorem handle_cases (e : LogEvent) (t : LogTable) :
    handle e t = (none, t) ∨
      (∃ entry env details, e = .record env details ∧ handle e t = (some entry, t ++ [entry]) ∧
        entry.id = nextRowid env.spareId t) ∨
      (e = .prune false ∧ handle e t = (none, keep LogEntry.id MAX_PERSISTED_LOGS t)) := by
  cases e with
  | record env details =>
    simp only [handle, recordDetails]
    rcases insertLog_cases env details t with ⟨e, h⟩ | ⟨entry, h, hid⟩
    · rw [h]
      exact .inl rfl
    · rw [h]
      exact .inr (.inl ⟨entry, env, details, rfl, rfl, hid⟩)
  | prune fails =>
    cases fails with
    | true => exact .inl rfl
    | false => exact .inr (.inr ⟨rfl, by rw [handle, prune_eq]⟩)

theorem ready_step {n : Nat} (h : Ready t (n + 1)) (e : LogEvent) : Ready (handle e t).2 n := by
  obtain ⟨hn, hroom⟩ := h.room
  have hroom' : ∀ r ∈ t, r.id + n < 2 ^ 63 := fun r hr => by
    have hlt := hroom r hr
    omega
  rcases handle_cases e t with heq | ⟨entry, env, details, -, heq, hid⟩ | ⟨-, heq⟩
  · rw [heq]
    exact ⟨h.ids, by omega, hroom'⟩
  · obtain ⟨hgreater, hnext⟩ := nextRowid_spec h env.spareId
    rw [heq]
    refine ⟨?_, by omega, fun r hr => ?_⟩
    · rw [List.map_append]
      refine nodup_append_fresh h.ids fun hmem => ?_
      obtain ⟨r, hr, hsame⟩ := List.mem_map.mp hmem
      have hlt := hgreater r hr
      omega
    · rcases List.mem_append.mp hr with hr | hr
      · exact hroom' r hr
      · rw [List.mem_singleton.mp hr, hid]
        exact hnext
  · rw [heq]
    have hsub : (keep LogEntry.id MAX_PERSISTED_LOGS t).Sublist t := keep_sublist _ t
    exact ⟨h.ids.sublist (hsub.map _), by omega, fun r hr => hroom' r (hsub.subset hr)⟩

/-- The greatest id stays. -/
theorem top_step {n : Nat} (h : Ready t (n + 1)) (e : LogEvent) {r : LogEntry} (hr : r ∈ t) :
    ∃ r' ∈ (handle e t).2, r.id ≤ r'.id := by
  rcases handle_cases e t with heq | ⟨entry, env, details, -, heq, -⟩ | ⟨-, heq⟩
  · exact ⟨r, by rwa [heq], le_refl _⟩
  · exact ⟨r, by rw [heq]; exact List.mem_append_left _ hr, le_refl _⟩
  · rw [heq]
    exact exists_keep_ge h.ids (by decide) hr

end Steps

/-! ## Runs -/

/-- The newest of the entries are left, as many as are kept. -/
structure KeepsNewest (t t' : LogTable) : Prop where
  sublist : t'.Sublist t
  length : t'.length = min t.length MAX_PERSISTED_LOGS
  newest : ∀ r ∈ t, r ∉ t' → ∀ r' ∈ t', r.id < r'.id

/-- A prune statement keeps the newest entries, and an entry is only ever removed
when there are enough newer ones. -/
structure Retains (t : LogTable) (e : LogEvent) : Prop where
  pruned : e = .prune false → KeepsNewest t (handle e t).2
  removed : ∀ r ∈ t, r ∉ (handle e t).2 → MAX_PERSISTED_LOGS ≤ above LogEntry.id r.id t

theorem retains {t : LogTable} (hids : (t.map LogEntry.id).Nodup) (e : LogEvent) :
    Retains t e := by
  constructor
  · rintro rfl
    rw [handle, prune_eq]
    exact ⟨keep_sublist _ t, keep_length hids, fun r hr hgone r' hr' => lt_of_removed hr hgone hr'⟩
  · intro r hr hgone
    rcases handle_cases e t with heq | ⟨entry, env, details, -, heq, -⟩ | ⟨-, heq⟩
    · rw [heq] at hgone
      exact absurd hr hgone
    · rw [heq] at hgone
      exact absurd (List.mem_append_left _ hr) hgone
    · rw [heq, mem_keep_iff hids] at hgone
      exact not_lt.mp fun hlt => hgone ⟨hr, hlt⟩

theorem retains_run {t : LogTable} {es : List LogEvent} (h : Ready t es.length) :
    Always handle Retains t es := by
  induction es generalizing t with
  | nil => trivial
  | cons e es ih => exact ⟨retains h.ids e, ih (ready_step h e)⟩

theorem ready_run {t : LogTable} (es : List LogEvent) {n : Nat} (h : Ready t (es.length + n)) :
    Ready (run handle t es) n := by
  induction es generalizing t with
  | nil => simpa using h
  | cons e es ih =>
    rw [List.length_cons, Nat.add_right_comm] at h
    exact ih (ready_step h e)

theorem top_run {t : LogTable} {es : List LogEvent} (h : Ready t es.length) {r : LogEntry}
    (hr : r ∈ t) : ∃ r' ∈ run handle t es, r.id ≤ r'.id := by
  induction es generalizing t r with
  | nil => exact ⟨r, hr, le_refl _⟩
  | cons e es ih =>
    obtain ⟨r₁, hr₁, hle₁⟩ := top_step h e hr
    obtain ⟨r₂, hr₂, hle₂⟩ := ih (ready_step h e) hr₁
    exact ⟨r₂, hr₂, hle₁.trans hle₂⟩

/-- An entry that is stored has a greater id than every entry that has been in the
table before. -/
def Fresh (t : LogTable) (es : List LogEvent) : Prop :=
  ∀ pre mid e post entry, es = pre ++ mid ++ e :: post →
    (handle e (run handle t (pre ++ mid))).1 = some entry →
      ∀ r ∈ run handle t pre, r.id < entry.id

theorem fresh_run {t : LogTable} {es : List LogEvent} (h : Ready t es.length) : Fresh t es := by
  rintro pre mid e post entry rfl hentry r hr
  have hlength : (pre ++ mid ++ e :: post).length =
      pre.length + (mid.length + (post.length + 1)) := by
    simp only [List.length_append, List.length_cons]
    omega
  rw [hlength] at h
  have hpre := ready_run pre h
  have hmid := ready_run mid hpre
  have hmid' : Ready (run handle t pre) mid.length :=
    ⟨hpre.ids, by have := hpre.room.1; omega,
      fun r hr => by have := hpre.room.2 r hr; omega⟩
  obtain ⟨r', hr', hle⟩ := top_run hmid' hr
  rw [run_append] at hentry
  rcases handle_cases e (run handle (run handle t pre) mid) with
    heq | ⟨entry', env, details, -, heq, hid⟩ | ⟨-, heq⟩
  · rw [heq] at hentry
    cases hentry
  · rw [heq] at hentry
    cases hentry
    rw [hid]
    exact hle.trans_lt ((nextRowid_spec hmid env.spareId).1 r' hr')
  · rw [heq] at hentry
    cases hentry

/-- Pruning keeps exactly the newest entries, no entry goes while it is among them,
and an id is never given out twice. -/
theorem logs_retained (t : LogTable) (es : List LogEvent) (h : Ready t es.length) :
    Always handle Retains t es ∧ Fresh t es :=
  ⟨retains_run h, fresh_run h⟩

/-- An entry as `record` writes it. -/
def infoLog (message : String) : LogDetails :=
  ⟨"INFO", message, none, none, none, none, none, none, none⟩

/-- As many entries as are kept. -/
def fullTable : LogTable :=
  (List.range MAX_PERSISTED_LOGS).map fun n : Nat =>
    ⟨n, 1, "INFO", "", none, none, none, none, none, none, none⟩

theorem ready_fullTable : Ready fullTable 3 := by
  constructor
  · rw [fullTable, List.map_map]
    exact List.nodup_range.map fun m n h => Int.ofNat.inj h
  · refine ⟨by decide, fun r hr => ?_⟩
    obtain ⟨n, hn, rfl⟩ := List.mem_map.mp hr
    have hlt : n < MAX_PERSISTED_LOGS := List.mem_range.mp hn
    simp only [MAX_PERSISTED_LOGS] at hlt
    change (n : Int) + 3 < 2 ^ 63
    omega

/-- A full table is as long as before after an entry and a prune. -/
theorem logs_retained_fullTable :
    Always handle Retains fullTable
        [.record ⟨2, false, 0⟩ (infoLog "a"), .prune false, .record ⟨3, false, 0⟩ (infoLog "b")] ∧
      (run handle fullTable [.record ⟨2, false, 0⟩ (infoLog "a"), .prune false]).length =
        MAX_PERSISTED_LOGS := by
  have hretains := (logs_retained fullTable
    [.record ⟨2, false, 0⟩ (infoLog "a"), .prune false, .record ⟨3, false, 0⟩ (infoLog "b")]
    ready_fullTable).1
  refine ⟨hretains, ?_⟩
  obtain ⟨-, hprune, -⟩ := hretains
  have hlength : fullTable.length = MAX_PERSISTED_LOGS := by simp [fullTable]
  have hgrows : fullTable.length ≤
      (handle (.record ⟨2, false, 0⟩ (infoLog "a")) fullTable).2.length := by
    rcases handle_cases (.record ⟨2, false, 0⟩ (infoLog "a")) fullTable with
      heq | ⟨entry, env, details, -, heq, -⟩ | ⟨hprune, -⟩
    · rw [heq]
    · rw [heq, List.length_append]
      exact Nat.le_add_right ..
    · cases hprune
  rw [run_cons, run_cons, run_nil, (hprune.pruned rfl).length,
    Nat.min_eq_right (hlength ▸ hgrows)]

end Oxidrop.Logs
