import Oxidrop.Administrators
import Oxidrop.Logs
import Mathlib.Data.Fin.Basic
import Mathlib.Logic.Function.Basic

/-!
# Concurrent bootstraps

Several tasks may start the bootstrap on one database. Each statement of a task is
atomic, and the statements of different tasks interleave freely, so any number of
tasks may count no users before the first of them inserts the administrator.
-/
namespace Oxidrop.Bootstrap

open Run Administrators Logs

variable {H : Type}

/-! ## One task -/

/-- The statement that a task runs next. -/
inductive Phase where
  | count | firstLog | secondLog | insert
  | finished (result : Except UserError Unit)

/-- What the statements of a task meet in their environment. -/
structure TaskEnv where
  user : UserEnv
  firstLog : LogEnv
  secondLog : LogEnv

structure Tables (H : Type) where
  users : Users H
  logs : LogTable

/-- A log entry of the bootstrap; a failure is only warned about. -/
def systemLog (env : LogEnv) (message : String) (t : Tables H) : Tables H :=
  { t with logs := (recordLog env "WARN" message (some "system") t.logs).2 }

/-- One statement of `bootstrap_default_admin`. A finished task has none left. -/
def statement (lib : PasswordLib H) (env : TaskEnv) : Phase → Tables H → Phase × Tables H
  | .count, t =>
    if env.user.queryFails then (.finished (.error (.database .statement)), t)
    else if t.users.length = 0 then (.firstLog, t)
    else (.finished (.ok ()), t)
  | .firstLog, t =>
    (.secondLog, systemLog env.firstLog "Database empty; bootstrapping default admin" t)
  | .secondLog, t =>
    (.insert, systemLog env.secondLog "Temporary default admin password was generated" t)
  | .insert, t =>
    let r := createDefaultAdmin lib env.user t.users
    (.finished r.1, { t with users := r.2 })
  | .finished result, t => (.finished result, t)

/-- The number of statements that are left at most. -/
def Phase.rank : Phase → Nat
  | .count => 4
  | .firstLog => 3
  | .secondLog => 2
  | .insert => 1
  | .finished _ => 0

/-- The task has not returned yet. -/
def Phase.Busy (p : Phase) : Prop := ∀ result, p ≠ .finished result

/-- If the task has returned, it was with success. -/
def Phase.Succeeds (p : Phase) : Prop := ∀ result, p = .finished result → result = .ok ()

theorem Phase.Busy.succeeds {p : Phase} (h : p.Busy) : p.Succeeds :=
  fun result hp => absurd hp (h result)

theorem Phase.succeeds_ok : (Phase.finished (.ok ())).Succeeds := by
  intro result h
  cases h
  rfl

theorem statement_rank (lib : PasswordLib H) (env : TaskEnv) (p : Phase) (t : Tables H) :
    (statement lib env p t).1.rank ≤ p.rank - 1 := by
  cases p with
  | count =>
    simp only [statement]
    split
    · exact Nat.zero_le _
    · split
      · exact le_refl _
      · exact Nat.zero_le _
  | firstLog => exact le_refl _
  | secondLog => exact le_refl _
  | insert => exact Nat.zero_le _
  | finished result => exact Nat.zero_le _

theorem Phase.finished_of_rank {p : Phase} (h : p.rank = 0) : ∃ result, p = .finished result := by
  cases p with
  | finished result => exact ⟨result, rfl⟩
  | count => simp [Phase.rank] at h
  | firstLog => simp [Phase.rank] at h
  | secondLog => simp [Phase.rank] at h
  | insert => simp [Phase.rank] at h

@[simp] theorem systemLog_users (env : LogEnv) (message : String) (t : Tables H) :
    (systemLog env message t).users = t.users := rfl

/-! ## The insertion -/

section Insertion

variable {lib : PasswordLib H} {env : UserEnv}

/-- The first insertion adds the administrator. -/
theorem createDefaultAdmin_empty (h : CanBootstrap lib env) :
    ∃ row, createDefaultAdmin lib env [] = (.ok (), [row]) ∧ IsDefaultAdmin lib row := by
  obtain ⟨row, hafter, hadmin⟩ := bootstrap_isDefaultAdmin lib env h
  obtain ⟨hquery, hchange, hash, hhash⟩ := h
  have heq : bootstrapDefaultAdmin lib env [] = createDefaultAdmin lib env [] := by
    simp [bootstrapDefaultAdmin, hquery]
  have hok : (createDefaultAdmin lib env []).1 = .ok () := by
    simp [createDefaultAdmin, internalInsertUser, hashPassword, hhash, execute, hchange,
      Table.insert, usersSchema, UsersRow.checks, ActionPermissions.all, Except.map]
  rw [heq] at hafter
  exact ⟨row, Prod.ext hok hafter, hadmin⟩

/-- Every later one violates the unique constraint, and that is a success. -/
theorem createDefaultAdmin_taken (h : CanBootstrap lib env) {t : Users H}
    (hname : DEFAULT_ADMIN_USERNAME ∈ t.map UsersRow.username) :
    createDefaultAdmin lib env t = (.ok (), t) := by
  obtain ⟨-, hchange, hash, hhash⟩ := h
  have hviolates : Table.insert (usersSchema H)
      ⟨Table.nextId UsersRow.id t, DEFAULT_ADMIN_USERNAME, hash, .admin,
        ActionPermissions.all.bits, 1, 1, none⟩ t = .error .unique := by
    have hchecks : (UsersRow.checks (⟨Table.nextId UsersRow.id t, DEFAULT_ADMIN_USERNAME, hash,
        .admin, ActionPermissions.all.bits, 1, 1, none⟩ : UsersRow H)) = true := by
      simp [UsersRow.checks, ActionPermissions.all]
    simp only [Table.insert, usersSchema, hchecks, if_true, hname]
  simp only [createDefaultAdmin, internalInsertUser, if_true, hashPassword, hhash, execute,
    hchange, Bool.false_eq_true, if_false, hviolates, Except.map]

end Insertion

/-! ## One statement -/

section Statement

variable {lib : PasswordLib H} {env : TaskEnv} {p : Phase} {t : Tables H}

/-- A table that was never empty is only counted. -/
theorem statement_occupied (h : CanBootstrap lib env.user) (ht : t.users ≠ [])
    (hp : p = .count ∨ p = .finished (.ok ())) :
    statement lib env p t = (.finished (.ok ()), t) := by
  rcases hp with rfl | rfl
  · have hlength : t.users.length ≠ 0 := by simpa using ht
    simp [statement, h.1, hlength]
  · rfl

/-- On an empty table a task comes closer to its insertion, or inserts. -/
theorem statement_empty (h : CanBootstrap lib env.user) (ht : t.users = [])
    (hp : p.Busy) :
    ((statement lib env p t).2.users = [] ∧ (statement lib env p t).1.Busy) ∨
      ((statement lib env p t).1 = .finished (.ok ()) ∧
        ∃ row, (statement lib env p t).2.users = [row] ∧ IsDefaultAdmin lib row) := by
  cases p with
  | count => exact .inl (by simp [statement, h.1, ht, Phase.Busy])
  | firstLog => exact .inl (by simp [statement, ht, Phase.Busy])
  | secondLog => exact .inl (by simp [statement, ht, Phase.Busy])
  | insert =>
    obtain ⟨row, heq, hadmin⟩ := createDefaultAdmin_empty h
    exact .inr ⟨by simp [statement, ht, heq], row, by simp [statement, ht, heq], hadmin⟩
  | finished result => exact absurd rfl (hp result)

/-- Once the administrator is there, nothing changes. -/
theorem statement_taken (h : CanBootstrap lib env.user)
    (ht : DEFAULT_ADMIN_USERNAME ∈ t.users.map UsersRow.username)
    (hp : p.Succeeds) :
    (statement lib env p t).2.users = t.users ∧ (statement lib env p t).1.Succeeds := by
  cases p with
  | count =>
    have hlength : t.users.length ≠ 0 := by
      intro hzero
      rw [List.length_eq_zero_iff.mp hzero] at ht
      cases ht
    simp [statement, h.1, hlength, Phase.succeeds_ok]
  | firstLog => simp [statement, Phase.Succeeds]
  | secondLog => simp [statement, Phase.Succeeds]
  | insert => simp [statement, createDefaultAdmin_taken h ht, Phase.succeeds_ok]
  | finished result => exact ⟨rfl, hp⟩

end Statement

/-! ## Any number of tasks -/

structure State (H : Type) (n : Nat) where
  tables : Tables H
  phases : Fin n → Phase

variable {n : Nat}

/-- Every task is about to count. -/
def start (t : Tables H) : State H n := ⟨t, fun _ => .count⟩

/-- The task that is scheduled runs its next statement. -/
def schedule (lib : PasswordLib H) (envs : Fin n → TaskEnv) : Machine (Fin n) (State H n) Unit :=
  fun i s =>
    let r := statement lib (envs i) (s.phases i) s.tables
    ((), ⟨r.2, Function.update s.phases i r.1⟩)

section Steps

variable {lib : PasswordLib H} {envs : Fin n → TaskEnv}

theorem schedule_tables (i : Fin n) (s : State H n) :
    (schedule lib envs i s).2.tables = (statement lib (envs i) (s.phases i) s.tables).2 := rfl

theorem schedule_phases (i : Fin n) (s : State H n) :
    (schedule lib envs i s).2.phases =
      Function.update s.phases i (statement lib (envs i) (s.phases i) s.tables).1 := rfl

/-- A task that runs its four statements with nothing between them is one call. -/
theorem run_alone (i : Fin n) (s : State H n) (hs : s.phases i = .count) :
    (run (schedule lib envs) s [i, i, i, i]).phases i =
        .finished (bootstrapDefaultAdmin lib (envs i).user s.tables.users).1 ∧
      (run (schedule lib envs) s [i, i, i, i]).tables.users =
        (bootstrapDefaultAdmin lib (envs i).user s.tables.users).2 := by
  simp only [run_cons, run_nil, schedule_tables, schedule_phases, Function.update_self, hs]
  unfold bootstrapDefaultAdmin
  cases hquery : (envs i).user.queryFails with
  | true => simp [statement, hquery]
  | false =>
    by_cases hempty : s.tables.users.length = 0
    · simp [statement, hquery, hempty]
    · simp [statement, hquery, hempty]

/-- The invariant. While the table is empty no task has finished, and a table that
was not empty is only counted. -/
structure Inv (lib : PasswordLib H) (users : Users H) (s : State H n) : Prop where
  returned : ∀ i, (s.phases i).Succeeds
  occupied : users ≠ [] →
    s.tables.users = users ∧ ∀ i, s.phases i = .count ∨ s.phases i = .finished (.ok ())
  empty : users = [] →
    (s.tables.users = [] ∧ ∀ i, (s.phases i).Busy) ∨
      ∃ row, s.tables.users = [row] ∧ IsDefaultAdmin lib row

theorem inv_start (t : Tables H) : Inv lib t.users (start t : State H n) where
  returned _ _ h := by cases h
  occupied _ := ⟨rfl, fun _ => .inl rfl⟩
  empty h := .inl ⟨h, fun _ _ h => by cases h⟩

variable {users : Users H} {s : State H n}

/-- What holds of every task holds after a statement that keeps it. -/
theorem forall_schedule {P : Phase → Prop} {i : Fin n}
    (hi : P (statement lib (envs i) (s.phases i) s.tables).1) (hall : ∀ j, P (s.phases j)) :
    ∀ j, P ((schedule lib envs i s).2.phases j) := by
  intro j
  rw [schedule_phases]
  rcases eq_or_ne j i with rfl | hne
  · rwa [Function.update_self]
  · rw [Function.update_of_ne hne]
    exact hall j

theorem inv_step (hcan : ∀ i, CanBootstrap lib (envs i).user) (h : Inv lib users s) (i : Fin n) :
    Inv lib users (schedule lib envs i s).2 := by
  rcases eq_or_ne users [] with hempty | hfull
  · rcases h.empty hempty with ⟨htable, hbusy⟩ | ⟨row, htable, hadmin⟩
    · rcases statement_empty (hcan i) htable (hbusy i) with ⟨htable', hbusy'⟩ | ⟨hok, hrow⟩
      · have hbusy'' := forall_schedule hbusy' hbusy
        exact ⟨fun j => (hbusy'' j).succeeds, absurd hempty, fun _ => .inl ⟨htable', hbusy''⟩⟩
      · refine ⟨forall_schedule ?_ h.returned, absurd hempty, fun _ => .inr hrow⟩
        rw [hok]
        exact Phase.succeeds_ok
    · have hname : DEFAULT_ADMIN_USERNAME ∈ s.tables.users.map UsersRow.username := by
        simp [htable, hadmin.username]
      obtain ⟨hsame, hok⟩ := statement_taken (hcan i) hname (h.returned i)
      exact ⟨forall_schedule hok h.returned, absurd hempty,
        fun _ => .inr ⟨row, hsame.trans htable, hadmin⟩⟩
  · obtain ⟨htable, hphase⟩ := h.occupied hfull
    have heq := statement_occupied (hcan i) (by rwa [htable]) (hphase i)
    have hphase' : ∀ j, (schedule lib envs i s).2.phases j = .count ∨
        (schedule lib envs i s).2.phases j = .finished (.ok ()) :=
      forall_schedule (P := fun p => p = .count ∨ p = .finished (.ok ())) (by rw [heq]; simp) hphase
    refine ⟨forall_schedule ?_ h.returned, fun _ => ⟨?_, hphase'⟩,
      fun hempty => absurd hempty hfull⟩
    · rw [heq]
      exact Phase.succeeds_ok
    · rw [schedule_tables, heq]
      exact htable

/-- A task loses a statement whenever it is scheduled. -/
theorem rank_run (s : State H n) (order : List (Fin n)) (i : Fin n) :
    ((run (schedule lib envs) s order).phases i).rank ≤ (s.phases i).rank - order.count i := by
  induction order generalizing s with
  | nil => exact le_refl _
  | cons j order ih =>
    have hrest := ih (schedule lib envs j s).2
    rw [run_cons]
    rcases eq_or_ne j i with rfl | hne
    · have hstep := statement_rank lib (envs j) (s.phases j) s.tables
      rw [schedule_phases, Function.update_self] at hrest
      rw [List.count_cons_self]
      omega
    · rw [schedule_phases, Function.update_of_ne hne.symm] at hrest
      rwa [List.count_cons_of_ne hne]

end Steps

/-- What a schedule has led to. Every task that was given its statements has returned,
and the table holds one administrator once all tasks have. -/
structure Outcome (lib : PasswordLib H) (users : Users H) (order : List (Fin n))
    (s : State H n) : Prop where
  returns : ∀ i, 4 ≤ order.count i → s.phases i = .finished (.ok ())
  ok : ∀ i, (s.phases i).Succeeds
  created : (∀ i, ∃ result, s.phases i = .finished result) → users = [] →
    ∃ row, s.tables.users = [row] ∧ IsDefaultAdmin lib row
  meanwhile : users = [] →
    s.tables.users = [] ∨ ∃ row, s.tables.users = [row] ∧ IsDefaultAdmin lib row
  kept : users ≠ [] → s.tables.users = users

/-- Any number of concurrent bootstraps succeed, and leave one administrator in a table
that was empty and any other table as it was. -/
theorem bootstrap_concurrent (lib : PasswordLib H) (hn : 0 < n) (envs : Fin n → TaskEnv)
    (hcan : ∀ i, CanBootstrap lib (envs i).user) (t : Tables H) (order : List (Fin n)) :
    Outcome lib t.users order (run (schedule lib envs) (start t) order) := by
  have hinv : Inv lib t.users (run (schedule lib envs) (start t) order) :=
    invariant (I := Inv lib t.users) (fun s i h _ => inv_step hcan h i) (start t) order
      (inv_start t) (always_of_forall (P := fun _ => True) _ _ fun _ _ => trivial)
  refine ⟨fun i hi => ?_, hinv.returned, fun hall hempty => ?_, fun hempty => ?_,
    fun hfull => (hinv.occupied hfull).1⟩
  · have hrank : ((run (schedule lib envs) (start t) order).phases i).rank ≤
        ((start t : State H n).phases i).rank - order.count i := rank_run (start t) order i
    have hfour : ((start t : State H n).phases i).rank = 4 := rfl
    have hzero : ((run (schedule lib envs) (start t) order).phases i).rank = 0 := by omega
    obtain ⟨result, hresult⟩ := Phase.finished_of_rank hzero
    rw [hresult, hinv.returned i result hresult]
  · obtain ⟨result, hresult⟩ := hall ⟨0, hn⟩
    rcases hinv.empty hempty with ⟨-, hbusy⟩ | hrow
    · exact absurd hresult (hbusy _ _)
    · exact hrow
  · rcases hinv.empty hempty with ⟨htable, -⟩ | hrow
    · exact .inl htable
    · exact .inr hrow

def calmTask : TaskEnv := ⟨.calm, ⟨1, false, 0⟩, ⟨1, false, 0⟩⟩

/-- Both tasks count before either inserts. -/
theorem bootstrap_concurrent_both :
    ∃ row, (run (schedule Administrators.plainLib (fun _ : Fin 2 => calmTask)) (start ⟨[], []⟩)
        [0, 1, 0, 1, 0, 1, 1, 0]).tables.users = [row] ∧
      IsDefaultAdmin Administrators.plainLib row := by
  have hcan : ∀ i : Fin 2, CanBootstrap Administrators.plainLib calmTask.user :=
    fun _ => ⟨rfl, rfl, _, rfl⟩
  have houtcome := bootstrap_concurrent Administrators.plainLib (by decide)
    (fun _ : Fin 2 => calmTask) hcan ⟨[], []⟩ [0, 1, 0, 1, 0, 1, 1, 0]
  have hcount : ∀ i : Fin 2, 4 ≤ [0, 1, 0, 1, 0, 1, 1, 0].count i := by decide
  exact houtcome.created (fun i => ⟨.ok (), houtcome.returns i (hcount i)⟩) rfl

end Oxidrop.Bootstrap
