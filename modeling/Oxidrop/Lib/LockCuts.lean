import Oxidrop.Lib.Locks

/-!
# Tasks that are cut off

When everything stops at once, some tasks are in the middle of what they do. What they
leave behind is what they leave if each of them is dropped where it is, so that all tasks
have ended, and the store is again that of the tasks one after the other.
-/
namespace Locks

open Run

variable {L : Type} {V : L → Type} {ω : Type}

/-! ## One step of a task -/

section Steps

variable [DecidableEq L] {s : State L V ω} {n : Nat} {origin next : Prog L V ω} {phase : Phase}
  {l : L}

theorem schedule_none (hn : s.tasks[n]? = none) : schedule (.step n) s = (none, s) := by
  simp [schedule, hn]

theorem schedule_finished {task : Task L V ω} (hn : s.tasks[n]? = some task)
    (hphase : task.phase = .finished) : schedule (.step n) s = (none, s) := by
  simp [schedule, hn, hphase]

theorem schedule_done {answer : ω} (hn : s.tasks[n]? = some ⟨origin, .done answer, phase⟩)
    (hbusy : phase ≠ .finished) :
    schedule (.step n) s = (if phase = .growing then some n else none,
      ⟨s.store, fun l => if s.owner l = some n then none else s.owner l,
        s.tasks.set n ⟨origin, .done answer, .finished⟩⟩) := by
  simp [schedule, hn, hbusy]

theorem schedule_busy (hn : s.tasks[n]? = some ⟨origin, .acquire l next, phase⟩)
    (hl : s.owner l ≠ none) : schedule (.step n) s = (none, s) := by
  simp [schedule, hn, hl]

theorem schedule_acquire (hn : s.tasks[n]? = some ⟨origin, .acquire l next, phase⟩)
    (hbusy : phase ≠ .finished) (hl : s.owner l = none) :
    schedule (.step n) s = (none, ⟨s.store, Function.update s.owner l (some n),
      s.tasks.set n ⟨origin, next, phase⟩⟩) := by
  simp [schedule, hn, hbusy, hl]

theorem schedule_release (hn : s.tasks[n]? = some ⟨origin, .release l next, phase⟩)
    (hbusy : phase ≠ .finished) :
    schedule (.step n) s = (if phase = .growing then some n else none,
      ⟨s.store, Function.update s.owner l none, s.tasks.set n ⟨origin, next, .shrinking⟩⟩) := by
  simp [schedule, hn, hbusy]

theorem schedule_act {write : V l → V l} {next : V l → Prog L V ω}
    (hn : s.tasks[n]? = some ⟨origin, .act l write next, phase⟩) (hbusy : phase ≠ .finished) :
    schedule (.step n) s = (none, ⟨Function.update s.store l (write (s.store l)), s.owner,
      s.tasks.set n ⟨origin, next (s.store l), phase⟩⟩) := by
  simp [schedule, hn, hbusy]

end Steps

/-! ## Bringing tasks to their ends -/

/-- Nothing is left to do for the tasks, but to give back what they hold. -/
def Ending (s : State L V ω) : Prop :=
  ∀ (n : Nat) (task : Task L V ω), s.tasks[n]? = some task → task.phase ≠ .finished →
    ∃ answer, task.program = .done answer

/-- Some tasks have ended, and those that had ended before are as they were. -/
structure Ends (s t : State L V ω) : Prop where
  store : t.store = s.store
  length : t.tasks.length = s.tasks.length
  finished : ∀ (n : Nat) (task : Task L V ω), s.tasks[n]? = some task →
    task.phase = .finished → t.tasks[n]? = some task
  ending : Ending t

theorem Ends.refl {s : State L V ω} (h : Ending s) : Ends s s := ⟨rfl, rfl, fun _ _ hn _ => hn, h⟩

theorem Ends.trans {s t u : State L V ω} (h : Ends s t) (h' : Ends t u) : Ends s u :=
  ⟨h'.store.trans h.store, h'.length.trans h.length,
    fun n task hn hphase => h'.finished n task (h.finished n task hn hphase) hphase, h'.ending⟩

section Ends

variable [DecidableEq L]

theorem ends_step {s : State L V ω} (h : Ending s) (n : Nat) :
    Ends s (schedule (.step n) s).2 ∧
      ∀ task, (schedule (.step n) s).2.tasks[n]? = some task → task.phase = .finished := by
  cases hn : s.tasks[n]? with
  | none =>
    rw [schedule_none hn]
    exact ⟨.refl h, fun task htask => by simp [hn] at htask⟩
  | some task =>
    by_cases hphase : task.phase = .finished
    · rw [schedule_finished hn hphase]
      refine ⟨.refl h, fun task' htask => ?_⟩
      rw [hn] at htask
      cases htask
      exact hphase
    · obtain ⟨origin, program, phase⟩ := task
      obtain ⟨answer, hprogram⟩ := h n _ hn hphase
      cases hprogram
      obtain ⟨hlt, -⟩ := List.getElem?_eq_some_iff.mp hn
      rw [schedule_done hn hphase]
      have hother : ∀ m, m ≠ n → ∀ task', (s.tasks.set n ⟨origin, .done answer, .finished⟩)[m]? =
          some task' ↔ s.tasks[m]? = some task' := fun m hm task' => by
        rw [List.getElem?_set_ne (Ne.symm hm)]
      have hself : ∀ task', (s.tasks.set n ⟨origin, .done answer, .finished⟩)[n]? = some task' →
          task' = ⟨origin, .done answer, .finished⟩ := fun task' htask => by
        rw [List.getElem?_set_self hlt] at htask
        exact (Option.some.inj htask).symm
      refine ⟨⟨rfl, List.length_set, fun m task' hm hfinished => ?_, fun m task' hm hbusy => ?_⟩,
        fun task' htask => by rw [hself task' htask]⟩
      · refine (hother m (fun hmn => ?_) task').mpr hm
        rw [hmn, hn] at hm
        cases hm
        exact hphase hfinished
      · by_cases hmn : m = n
        · subst hmn
          exact ⟨answer, by rw [hself task' hm]⟩
        · exact h m task' ((hother m hmn task').mp hm) hbusy

theorem ends_run {s : State L V ω} (h : Ending s) (ns : List Nat) :
    Ends s (run schedule s (ns.map .step)) ∧
      ∀ n ∈ ns, ∀ task, (run schedule s (ns.map .step)).tasks[n]? = some task →
        task.phase = .finished := by
  induction ns using List.reverseRecOn with
  | nil => exact ⟨.refl h, by simp⟩
  | append_singleton ns n ih =>
    rw [List.map_append, List.map_singleton, run_concat]
    obtain ⟨hends, hfinished⟩ := ih
    obtain ⟨hstep, hlast⟩ := ends_step hends.ending n
    refine ⟨hends.trans hstep, fun m hm task htask => ?_⟩
    rcases List.mem_append.mp hm with hm | hm
    · obtain ⟨hlt, -⟩ := List.getElem?_eq_some_iff.mp htask
      rw [hstep.length] at hlt
      have hbefore := List.getElem?_eq_getElem hlt
      have hphase := hfinished m hm _ hbefore
      have hafter := hstep.finished m _ hbefore hphase
      rw [hafter] at htask
      cases htask
      exact hphase
    · rw [List.mem_singleton.mp hm] at htask
      exact hlast task htask

end Ends

/-! ## The same run with other limits -/

theorem limited_zero (p : Prog L V ω) : p.limited (some 0) = .done none := by
  cases p <;> simp [Prog.limited]

/-- The programs of the tasks are these ones under limits. -/
def Limits (ps : List (Prog L V ω)) (limits : Nat → Option Nat)
    (es : List (Event L V (Option ω))) : Prop :=
  ∀ (n : Nat) (q : Prog L V (Option ω)), (spawned es)[n]? = some q →
    ∃ p, ps[n]? = some p ∧ q = Prog.limited p (limits n)

/-- The same state, under other limits. A task has `taken` steps behind it. -/
structure Cut (ps : List (Prog L V ω)) (limits limits' : Nat → Option Nat) (taken : Nat → Nat)
    (s s' : State L V (Option ω)) : Prop where
  store : s'.store = s.store
  owner : s'.owner = s.owner
  length : s'.tasks.length = s.tasks.length
  tasks : ∀ (n : Nat) (task : Task L V (Option ω)), s.tasks[n]? = some task →
    ∃ p q : Prog L V ω, ps[n]? = some p ∧
      task = ⟨p.limited (limits n), q.limited ((limits n).map (· - taken n)), task.phase⟩ ∧
      s'.tasks[n]? =
        some ⟨p.limited (limits' n), q.limited ((limits' n).map (· - taken n)), task.phase⟩

/-- Only tasks that have not ended have another limit, which they have not passed. -/
def Admissible (limits limits' : Nat → Option Nat) (taken : Nat → Nat)
    (s : State L V (Option ω)) : Prop :=
  ∀ n, limits' n = limits n ∨ (∃ k, limits' n = some k ∧ taken n ≤ k) ∧
    ∀ task : Task L V (Option ω), s.tasks[n]? = some task → task.phase ≠ .finished

section Cuts

variable {ps : List (Prog L V ω)} {limits limits' : Nat → Option Nat} {taken taken' : Nat → Nat}
  {s s' : State L V (Option ω)}

theorem Cut.set {t t' : State L V (Option ω)} (h : Cut ps limits limits' taken s s')
    {n : Nat} {p q : Prog L V ω} {phase : Phase} (hp : ps[n]? = some p) (hlt : n < s.tasks.length)
    (htaken : ∀ m, m ≠ n → taken' m = taken m)
    (ht : t.tasks = s.tasks.set n
      ⟨p.limited (limits n), q.limited ((limits n).map (· - taken' n)), phase⟩)
    (ht' : t'.tasks = s'.tasks.set n
      ⟨p.limited (limits' n), q.limited ((limits' n).map (· - taken' n)), phase⟩)
    (hstore : t'.store = t.store) (howner : t'.owner = t.owner) :
    Cut ps limits limits' taken' t t' := by
  refine ⟨hstore, howner, by rw [ht, ht', List.length_set, List.length_set, h.length], ?_⟩
  intro m task hm
  rw [ht] at hm
  by_cases hmn : m = n
  · subst hmn
    rw [List.getElem?_set_self hlt] at hm
    cases hm
    exact ⟨p, q, hp, rfl, by rw [ht', List.getElem?_set_self (h.length ▸ hlt)]⟩
  · rw [List.getElem?_set_ne (Ne.symm hmn)] at hm
    rw [ht', List.getElem?_set_ne (Ne.symm hmn), htaken m hmn]
    exact h.tasks m task hm

/-- What is left of a limit after one step more. -/
theorem limit_succ (limit : Option Nat) (k : Nat) :
    (limit.map (· - k)).map (· - 1) = limit.map (· - (k + 1)) := by
  cases limit with
  | none => rfl
  | some m => simp [Nat.sub_sub]

theorem Admissible.before {t : State L V (Option ω)} (h : Admissible limits limits' taken' t)
    {n : Nat} {task task' : Task L V (Option ω)} (hn : s.tasks[n]? = some task)
    (hbusy : task.phase ≠ .finished) (ht : t.tasks = s.tasks.set n task')
    (htaken : ∀ m, taken m ≤ taken' m) : Admissible limits limits' taken s := by
  intro m
  rcases h m with hsame | ⟨⟨k, hk, hle⟩, hunfinished⟩
  · exact .inl hsame
  · refine .inr ⟨⟨k, hk, (htaken m).trans hle⟩, fun other hm => ?_⟩
    by_cases hmn : m = n
    · subst hmn
      rw [hn] at hm
      cases hm
      exact hbusy
    · refine hunfinished other ?_
      rwa [ht, List.getElem?_set_ne (Ne.symm hmn)]

variable [DecidableEq L]

/-- A task that ends has its own limit. -/
theorem cut_done (h : Cut ps limits limits' taken s s') {n : Nat}
    {origin : Prog L V (Option ω)} {answer : Option ω} {phase : Phase}
    (hn : s.tasks[n]? = some ⟨origin, .done answer, phase⟩) (hbusy : phase ≠ .finished)
    (hadmissible : Admissible limits limits' taken (schedule (.step n) s).2) :
    (schedule (.step n) s').1 = (schedule (.step n) s).1 ∧
      Cut ps limits limits' taken (schedule (.step n) s).2 (schedule (.step n) s').2 := by
  obtain ⟨hlt, -⟩ := List.getElem?_eq_some_iff.mp hn
  obtain ⟨p, q, hp, htask, hn'⟩ := h.tasks n _ hn
  rw [schedule_done hn hbusy] at hadmissible ⊢
  have hsame : limits' n = limits n := by
    rcases hadmissible n with hsame | ⟨-, hunfinished⟩
    · exact hsame
    · exact absurd rfl (hunfinished _ (List.getElem?_set_self hlt))
  obtain ⟨horigin, hprogram, -⟩ := (Task.mk.injEq ..).mp htask
  have hended : ∀ tasks : List (Task L V (Option ω)),
      tasks.set n ⟨origin, .done answer, .finished⟩ =
        tasks.set n ⟨p.limited (limits n), q.limited ((limits n).map (· - taken n)), .finished⟩ :=
    fun _ => by rw [horigin, hprogram]
  have hended' := hended s'.tasks
  rw [← hsame] at hended'
  rw [hsame, ← horigin, ← hprogram] at hn'
  rw [schedule_done hn' hbusy, h.store, h.owner]
  exact ⟨rfl, h.set hp hlt (fun _ _ => rfl) (hended s.tasks) hended' rfl rfl⟩

/-- A task that goes on does so under both limits. -/
theorem cut_move (h : Cut ps limits limits' taken s s') {n : Nat} {p q : Prog L V ω}
    {phase : Phase} (hp : ps[n]? = some p)
    (hn : s.tasks[n]? =
      some ⟨p.limited (limits n), q.limited ((limits n).map (· - taken n)), phase⟩)
    (hn' : s'.tasks[n]? =
      some ⟨p.limited (limits' n), q.limited ((limits' n).map (· - taken n)), phase⟩)
    (hbusy : phase ≠ .finished) (hq : ∀ answer, q ≠ .done answer)
    (hfree : ∀ l next, q = .acquire l next → s.owner l = none)
    (hlimit : (limits n).map (· - taken n) ≠ some 0)
    (hlimit' : (limits' n).map (· - taken n) ≠ some 0) :
    (schedule (.step n) s').1 = (schedule (.step n) s).1 ∧
      Cut ps limits limits' (Function.update taken n (taken n + 1)) (schedule (.step n) s).2
        (schedule (.step n) s').2 := by
  obtain ⟨hlt, -⟩ := List.getElem?_eq_some_iff.mp hn
  have hother : ∀ m, m ≠ n → Function.update taken n (taken n + 1) m = taken m :=
    fun m hm => Function.update_of_ne hm _ _
  have hrest : ∀ (limit : Option Nat) (next : Prog L V ω),
      next.limited ((limit.map (· - taken n)).map (· - 1)) =
        next.limited (limit.map (· - Function.update taken n (taken n + 1) n)) := by
    intro limit next
    rw [limit_succ, Function.update_self]
  cases q with
  | done answer => exact absurd rfl (hq answer)
  | acquire l next =>
    simp only [Prog.limited, if_neg hlimit, if_neg hlimit', hrest] at hn hn'
    have hl := hfree l next rfl
    rw [schedule_acquire hn hbusy hl, schedule_acquire hn' hbusy (h.owner ▸ hl), h.store, h.owner]
    exact ⟨rfl, h.set hp hlt hother rfl rfl rfl rfl⟩
  | release l next =>
    simp only [Prog.limited, if_neg hlimit, if_neg hlimit', hrest] at hn hn'
    rw [schedule_release hn hbusy, schedule_release hn' hbusy, h.store, h.owner]
    exact ⟨rfl, h.set hp hlt hother rfl rfl rfl rfl⟩
  | act l write next =>
    simp only [Prog.limited, if_neg hlimit, if_neg hlimit', hrest] at hn hn'
    rw [schedule_act hn hbusy, schedule_act hn' hbusy, h.store, h.owner]
    exact ⟨rfl, h.set hp hlt hother rfl rfl rfl rfl⟩

omit [DecidableEq L] in
theorem spawned_spawn (es : List (Event L V ω)) (p : Prog L V ω) :
    spawned (es ++ [.spawn p]) = spawned es ++ [p] := by
  simp [spawned]

omit [DecidableEq L] in
theorem spawned_step (es : List (Event L V ω)) (n : Nat) :
    spawned (es ++ [.step n]) = spawned es := by
  simp [spawned]

omit [DecidableEq L] in
theorem Limits.before {es : List (Event L V (Option ω))} {e : Event L V (Option ω)}
    (h : Limits ps limits (es ++ [e])) : Limits ps limits es := by
  intro n q hn
  refine h n q ?_
  rw [spawned, List.filterMap_append]
  exact (List.getElem?_append_left (List.getElem?_eq_some_iff.mp hn).1).trans hn

omit [DecidableEq L] in
theorem spawned_steps (es : List (Event L V ω)) (ns : List Nat) :
    spawned (es ++ ns.map .step) = spawned es := by
  induction ns using List.reverseRecOn with
  | nil => simp
  | append_singleton ns n ih =>
    rw [List.map_append, List.map_singleton, ← List.append_assoc, spawned_step, ih]

/-- The same run under other limits, without the steps in which a task waits. -/
structure Recut (s₀ : (l : L) → V l) (ps : List (Prog L V ω)) (limits limits' : Nat → Option Nat)
    (taken : Nat → Nat) (es es' : List (Event L V (Option ω))) : Prop where
  programs : Limits ps limits' es'
  length : (spawned es').length = (spawned es).length
  order : commits (.start s₀) es' = commits (.start s₀) es
  cut : Cut ps limits limits' taken (run schedule (.start s₀) es) (run schedule (.start s₀) es')

variable {s₀ : (l : L) → V l} {es es' : List (Event L V (Option ω))} {n : Nat}

theorem Recut.step (h : Recut s₀ ps limits limits' taken es es')
    (hout : (schedule (.step n) (run schedule (.start s₀) es')).1 =
      (schedule (.step n) (run schedule (.start s₀) es)).1)
    (hcut : Cut ps limits limits' taken' (schedule (.step n) (run schedule (.start s₀) es)).2
      (schedule (.step n) (run schedule (.start s₀) es')).2) :
    Recut s₀ ps limits limits' taken' (es ++ [.step n]) (es' ++ [.step n]) := by
  refine ⟨?_, ?_, ?_, ?_⟩
  · rw [Limits, spawned_step]
    exact h.programs
  · rw [spawned_step, spawned_step]
    exact h.length
  · rw [commits_concat, commits_concat, h.order, hout]
  · rw [run_concat, run_concat]
    exact hcut

theorem Recut.idle (h : Recut s₀ ps limits limits' taken es es')
    (hidle : schedule (.step n) (run schedule (.start s₀) es) =
      (none, run schedule (.start s₀) es)) :
    Recut s₀ ps limits limits' taken (es ++ [.step n]) es' := by
  refine ⟨h.programs, ?_, ?_, ?_⟩
  · rw [spawned_step]
    exact h.length
  · rw [commits_concat, hidle, h.order]
    simp
  · rw [run_concat, hidle]
    exact h.cut

/-- A task that starts has its whole limit before it. -/
theorem Recut.spawn (h : Recut s₀ ps limits limits' taken es es') {p : Prog L V ω}
    (hp : ps[(spawned es).length]? = some p) (htaken : taken (spawned es).length = 0) :
    Recut s₀ ps limits limits' taken (es ++ [.spawn (p.limited (limits (spawned es).length))])
      (es' ++ [.spawn (p.limited (limits' (spawned es).length))]) := by
  have hlength : (run schedule (.start s₀) es).tasks.length = (spawned es).length := by
    rw [← programs_run s₀ es, State.programs, List.length_map]
  refine ⟨fun n q hn => ?_, ?_, ?_, ?_⟩
  · rw [spawned_spawn] at hn
    by_cases hlt : n < (spawned es').length
    · rw [List.getElem?_append_left hlt] at hn
      exact h.programs n q hn
    · rw [List.getElem?_append_right (not_lt.mp hlt), List.getElem?_singleton] at hn
      obtain ⟨hzero, hq⟩ := Option.ite_none_right_eq_some.mp hn
      cases hq
      have hnew : n = (spawned es).length := by
        rw [← h.length]
        omega
      exact ⟨p, hnew ▸ hp, by rw [hnew]⟩
  · rw [spawned_spawn, spawned_spawn, List.length_append, List.length_append, h.length]
    rfl
  · rw [commits_concat, commits_concat, h.order]
    rfl
  · rw [run_concat, run_concat]
    refine ⟨h.cut.store, h.cut.owner, ?_, fun n task hn => ?_⟩
    · simp [schedule, h.cut.length]
    · simp only [schedule] at hn ⊢
      by_cases hlt : n < (run schedule (.start s₀) es).tasks.length
      · rw [List.getElem?_append_left hlt] at hn
        rw [List.getElem?_append_left (h.cut.length ▸ hlt)]
        exact h.cut.tasks n task hn
      · rw [List.getElem?_append_right (not_lt.mp hlt), List.getElem?_singleton] at hn
        obtain ⟨hzero, hnew⟩ := Option.ite_none_right_eq_some.mp hn
        cases hnew
        have hn : n = (spawned es).length := by omega
        subst hn
        refine ⟨p, p, hp, by simp [htaken], ?_⟩
        rw [List.getElem?_append_right (by rw [h.cut.length, hlength]), h.cut.length, hlength]
        simp [htaken]

/-- A task that neither waits nor ends goes on. -/
theorem schedule_move {s : State L V (Option ω)} {task : Task L V (Option ω)}
    (hn : s.tasks[n]? = some task) (hbusy : task.phase ≠ .finished)
    (hwait : ∀ l next, task.program = .acquire l next → s.owner l = none) :
    ∃ task', (schedule (.step n) s).2.tasks = s.tasks.set n task' := by
  obtain ⟨origin, program, phase⟩ := task
  cases program with
  | done answer => exact ⟨_, by rw [schedule_done hn hbusy]⟩
  | acquire l next => exact ⟨_, by rw [schedule_acquire hn hbusy (hwait l next rfl)]⟩
  | release l next => exact ⟨_, by rw [schedule_release hn hbusy]⟩
  | act l write next => exact ⟨_, by rw [schedule_act hn hbusy]⟩

/-- The steps of a run can be counted so that every task that is under way can be cut off
where it is: nothing else of the run changes. -/
def Cuttable (s₀ : (l : L) → V l) (ps : List (Prog L V ω)) (limits : Nat → Option Nat)
    (es : List (Event L V (Option ω))) : Prop :=
  ∃ taken : Nat → Nat, (∀ n, (spawned es).length ≤ n → taken n = 0) ∧
    ∀ limits', Admissible limits limits' taken (run schedule (.start s₀) es) →
      ∃ es', Recut s₀ ps limits limits' taken es es'

theorem Cuttable.spawn (h : Cuttable s₀ ps limits es) {q : Prog L V (Option ω)}
    (hes : Limits ps limits (es ++ [.spawn q])) : Cuttable s₀ ps limits (es ++ [.spawn q]) := by
  obtain ⟨taken, hzero, hrecut⟩ := h
  obtain ⟨p, hp, rfl⟩ := hes (spawned es).length q (by simp [spawned_spawn])
  refine ⟨taken, fun n hn => hzero n ?_, fun limits' hadmissible => ?_⟩
  · rw [spawned_spawn, List.length_append] at hn
    omega
  · rw [run_concat] at hadmissible
    obtain ⟨es', h⟩ := hrecut limits' fun n => (hadmissible n).imp_right fun h =>
      ⟨h.1, fun task hn => h.2 task
        ((List.getElem?_append_left (List.getElem?_eq_some_iff.mp hn).1).trans hn)⟩
    exact ⟨_, h.spawn hp (hzero _ le_rfl)⟩

theorem Cuttable.idle (h : Cuttable s₀ ps limits es)
    (hidle : schedule (.step n) (run schedule (.start s₀) es) =
      (none, run schedule (.start s₀) es)) : Cuttable s₀ ps limits (es ++ [.step n]) := by
  obtain ⟨taken, hzero, hrecut⟩ := h
  rw [Cuttable, spawned_step, run_concat, hidle]
  refine ⟨taken, hzero, fun limits' hadmissible => ?_⟩
  obtain ⟨es', h⟩ := hrecut limits' hadmissible
  exact ⟨es', h.idle hidle⟩

theorem Cuttable.done (h : Cuttable s₀ ps limits es) {origin : Prog L V (Option ω)}
    {answer : Option ω} {phase : Phase}
    (hn : (run schedule (.start s₀) es).tasks[n]? = some ⟨origin, .done answer, phase⟩)
    (hbusy : phase ≠ .finished) : Cuttable s₀ ps limits (es ++ [.step n]) := by
  obtain ⟨taken, hzero, hrecut⟩ := h
  rw [Cuttable, spawned_step, run_concat]
  refine ⟨taken, hzero, fun limits' hadmissible => ?_⟩
  have hbefore := hadmissible.before hn hbusy (by rw [schedule_done hn hbusy]) fun _ => le_rfl
  obtain ⟨es', h⟩ := hrecut limits' hbefore
  obtain ⟨hout, hcut⟩ := cut_done h.cut hn hbusy hadmissible
  exact ⟨_, h.step hout hcut⟩

/-- A step of a task that goes on is counted. -/
theorem Cuttable.move (h : Cuttable s₀ ps limits es) {task : Task L V (Option ω)}
    (hn : (run schedule (.start s₀) es).tasks[n]? = some task) (hbusy : task.phase ≠ .finished)
    (hwait : ∀ l next, task.program = .acquire l next →
      (run schedule (.start s₀) es).owner l = none)
    (hdone : ∀ answer, task.program ≠ .done answer) :
    Cuttable s₀ ps limits (es ++ [.step n]) := by
  obtain ⟨taken, hzero, hrecut⟩ := h
  obtain ⟨task', htask'⟩ := schedule_move hn hbusy hwait
  have htaken : ∀ m, taken m ≤ Function.update taken n (taken n + 1) m := by
    intro m
    by_cases hmn : m = n
    · subst hmn
      simp
    · simp [hmn]
  rw [Cuttable, spawned_step, run_concat]
  refine ⟨Function.update taken n (taken n + 1), fun m hm => ?_, fun limits' hadmissible => ?_⟩
  · have hlt : n < (spawned es).length := by
      rw [← programs_run s₀ es, State.programs, List.length_map]
      exact (List.getElem?_eq_some_iff.mp hn).1
    rw [Function.update_of_ne (by omega)]
    exact hzero m hm
  · obtain ⟨es', h⟩ := hrecut limits' (hadmissible.before hn hbusy htask' htaken)
    obtain ⟨p, q, hp, htask, hn'⟩ := h.cut.tasks n task hn
    have hprogram : task.program = q.limited ((limits n).map (· - taken n)) :=
      congrArg Task.program htask
    have hlimit : (limits n).map (· - taken n) ≠ some 0 := fun hc =>
      hdone none (by rw [hprogram, hc, limited_zero])
    have hlimit' : (limits' n).map (· - taken n) ≠ some 0 := by
      rcases hadmissible n with hsame | ⟨⟨k, hk, hle⟩, -⟩
      · rwa [hsame]
      · rw [Function.update_self] at hle
        rw [hk, Option.map_some, Ne, Option.some.injEq]
        omega
    obtain ⟨hout, hcut⟩ := cut_move h.cut hp (htask ▸ hn) hn' hbusy
      (fun answer hq => hdone _ (by rw [hprogram, hq, Prog.limited]))
      (fun l next hq => hwait l _ (by rw [hprogram, hq, Prog.limited, if_neg hlimit]))
      hlimit hlimit'
    exact ⟨_, h.step hout hcut⟩

theorem cuttable_step (h : Cuttable s₀ ps limits es) (n : Nat) :
    Cuttable s₀ ps limits (es ++ [.step n]) := by
  cases hn : (run schedule (.start s₀) es).tasks[n]? with
  | none => exact h.idle (schedule_none hn)
  | some task =>
    by_cases hbusy : task.phase = .finished
    · exact h.idle (schedule_finished hn hbusy)
    · obtain ⟨origin, program, phase⟩ := task
      cases program with
      | done answer => exact h.done hn hbusy
      | acquire l next =>
        by_cases hl : (run schedule (.start s₀) es).owner l = none
        · refine h.move hn hbusy (fun x next' heq => ?_) fun answer => by simp
          cases heq
          exact hl
        · exact h.idle (schedule_busy hn hl)
      | release l next => exact h.move hn hbusy (fun x next' heq => by cases heq) fun _ => by simp
      | act l write next => exact h.move hn hbusy (fun x next' heq => by cases heq) fun _ => by simp

theorem cut_run (s₀ : (l : L) → V l) (hes : Limits ps limits es) :
    Cuttable s₀ ps limits es := by
  induction es using List.reverseRecOn with
  | nil =>
    exact ⟨fun _ => 0, fun _ _ => rfl, fun limits' _ =>
      ⟨[], fun n q hn => by simp [spawned] at hn, rfl, rfl, rfl, rfl, rfl,
        fun n task hn => by simp [run, State.start] at hn⟩⟩
  | append_singleton es e ih =>
    cases e with
    | spawn q => exact (ih hes.before).spawn hes
    | step n => exact cuttable_step (ih hes.before) n

/-! ## What every action keeps -/

/-- Every action of the task keeps the property, whatever the others do in between. -/
def Prog.Keeps (I : ((l : L) → V l) → Prop) : Prog L V ω → Prop
  | .done _ => True
  | .acquire _ next => next.Keeps I
  | .release _ next => next.Keeps I
  | .act l write next =>
    ∀ s, I s → I (Function.update s l (write (s l))) ∧ (next (s l)).Keeps I

theorem Prog.Keeps.done {I : ((l : L) → V l) → Prop} (answer : ω) :
    (.done answer : Prog L V ω).Keeps I := trivial

theorem Prog.Keeps.acquire {I : ((l : L) → V l) → Prop} {l : L} {next : Prog L V ω}
    (h : next.Keeps I) : (acquire l next).Keeps I := h

theorem Prog.Keeps.release {I : ((l : L) → V l) → Prop} {l : L} {next : Prog L V ω}
    (h : next.Keeps I) : (release l next).Keeps I := h

theorem Prog.Keeps.limited {I : ((l : L) → V l) → Prop} {p : Prog L V ω} (h : p.Keeps I)
    (limit : Option Nat) : (p.limited limit).Keeps I := by
  induction p generalizing limit with
  | done answer => exact .done _
  | acquire l next ih =>
    rw [Prog.limited]
    split
    · exact .done _
    · exact .acquire (ih h _)
  | release l next ih =>
    rw [Prog.limited]
    split
    · exact .done _
    · exact .release (ih h _)
  | act l write next ih =>
    rw [Prog.limited]
    split
    · exact .done _
    · exact fun s hs => ⟨(h s hs).1, ih _ (h s hs).2 _⟩

/-- The property holds, and what is left of the tasks keeps it. -/
structure Kept (I : ((l : L) → V l) → Prop) (s : State L V ω) : Prop where
  store : I s.store
  programs : ∀ task ∈ s.tasks, task.program.Keeps I

section Kept

variable {I : ((l : L) → V l) → Prop}

theorem kept_step {s : State L V ω} (h : Kept I s) {e : Event L V ω}
    (he : ∀ p, e = .spawn p → p.Keeps I) : Kept I (schedule e s).2 := by
  have hset : ∀ {n : Nat} {task' : Task L V ω}, task'.program.Keeps I →
      ∀ task ∈ s.tasks.set n task', task.program.Keeps I := by
    intro n task' hnew task htask
    rcases List.mem_or_eq_of_mem_set htask with hmem | rfl
    · exact h.programs task hmem
    · exact hnew
  cases e with
  | spawn p =>
    refine ⟨h.store, fun task htask => ?_⟩
    rcases List.mem_append.mp htask with hmem | hmem
    · exact h.programs task hmem
    · rw [List.mem_singleton.mp hmem]
      exact he p rfl
  | step n =>
    simp only [schedule]
    cases hn : s.tasks[n]? with
    | none => exact h
    | some task =>
      have hkeeps := h.programs task (List.mem_of_getElem? hn)
      obtain ⟨origin, program, phase⟩ := task
      simp only
      split
      · exact h
      · cases program with
        | done answer => exact ⟨h.store, hset (.done answer)⟩
        | acquire l next =>
          simp only
          split
          · exact ⟨h.store, hset hkeeps⟩
          · exact h
        | release l next => exact ⟨h.store, hset hkeeps⟩
        | act l write next =>
          obtain ⟨hstore, hnext⟩ := hkeeps s.store h.store
          exact ⟨hstore, hset hnext⟩

/-- What every action keeps holds in every state of every interleaving. -/
theorem kept_run {s₀ : (l : L) → V l} (hs₀ : I s₀) {es : List (Event L V ω)}
    (hes : ∀ p, .spawn p ∈ es → p.Keeps I) : Kept I (run schedule (.start s₀) es) := by
  induction es using List.reverseRecOn with
  | nil => exact ⟨hs₀, by simp [State.start]⟩
  | append_singleton es e ih =>
    rw [run_concat]
    refine kept_step (ih fun p hp => hes p (List.mem_append_left _ hp)) fun p hp => hes p ?_
    simp [hp]

end Kept

/-! ## Stopping at any moment -/

/-- Tasks that are under way are dropped where they are. -/
def cutLimits (limits : Nat → Option Nat) (taken : Nat → Nat) (s : State L V (Option ω))
    (n : Nat) : Option Nat :=
  match s.tasks[n]? with
  | none => limits n
  | some task => if task.phase = .finished then limits n else some (taken n)

omit [DecidableEq L] in
theorem cutLimits_finished {task : Task L V (Option ω)} (hn : s.tasks[n]? = some task)
    (hphase : task.phase = .finished) : cutLimits limits taken s n = limits n := by
  simp [cutLimits, hn, hphase]

omit [DecidableEq L] in
theorem cutLimits_busy {task : Task L V (Option ω)} (hn : s.tasks[n]? = some task)
    (hbusy : task.phase ≠ .finished) : cutLimits limits taken s n = some (taken n) := by
  simp [cutLimits, hn, hbusy]

omit [DecidableEq L] in
theorem cutLimits_admissible : Admissible limits (cutLimits limits taken s) taken s := by
  intro n
  cases hn : s.tasks[n]? with
  | none => exact .inl (by simp [cutLimits, hn])
  | some task =>
    by_cases hphase : task.phase = .finished
    · exact .inl (cutLimits_finished hn hphase)
    · refine .inr ⟨⟨_, cutLimits_busy hn hphase, le_rfl⟩, fun other hother => ?_⟩
      cases hother
      exact hphase

omit [DecidableEq L] in
theorem Cut.same (h : Cut ps limits (cutLimits limits taken s) taken s s')
    {task : Task L V (Option ω)} (hn : s.tasks[n]? = some task) (hphase : task.phase = .finished) :
    s'.tasks[n]? = some task := by
  obtain ⟨p, q, -, htask, hn'⟩ := h.tasks n task hn
  rw [cutLimits_finished hn hphase, ← htask] at hn'
  exact hn'

omit [DecidableEq L] in
theorem Cut.ending (h : Cut ps limits (cutLimits limits taken s) taken s s') : Ending s' := by
  intro n task' hn' hbusy
  have hlt : n < s.tasks.length := h.length ▸ (List.getElem?_eq_some_iff.mp hn').1
  have hn := List.getElem?_eq_getElem hlt
  obtain ⟨p, q, -, -, hcut⟩ := h.tasks n _ hn
  rw [hn'] at hcut
  cases hcut
  rw [cutLimits_busy hn hbusy, Option.map_some, Nat.sub_self]
  exact ⟨none, limited_zero q⟩

/-- A run that leaves the same store, in which every task has ended: those that had ended as
they had, and the others under limits at which they are dropped. -/
structure Stopped (s₀ : (l : L) → V l) (ps : List (Prog L V ω)) (limits limits' : Nat → Option Nat)
    (es es' : List (Event L V (Option ω))) : Prop where
  programs : Limits ps limits' es'
  length : (spawned es').length = (spawned es).length
  store : (run schedule (.start s₀) es').store = (run schedule (.start s₀) es).store
  ended : ∀ task ∈ (run schedule (.start s₀) es').tasks, task.phase = .finished
  same : ∀ (n : Nat) (task : Task L V (Option ω)),
    (run schedule (.start s₀) es).tasks[n]? = some task → task.phase = .finished →
      limits' n = limits n ∧ (run schedule (.start s₀) es').tasks[n]? = some task
  order : commits (.start s₀) es <+: commits (.start s₀) es'

/-- Wherever a run is stopped, its store is one that is left when all tasks have ended. -/
theorem stopped (s₀ : (l : L) → V l) (hes : Limits ps limits es) :
    ∃ limits' es', Stopped s₀ ps limits limits' es es' := by
  obtain ⟨taken, -, hrecut⟩ := cut_run s₀ hes
  obtain ⟨es', h⟩ := hrecut _ cutLimits_admissible
  obtain ⟨ns, hns⟩ : ∃ ns, ns = List.range (run schedule (.start s₀) es').tasks.length := ⟨_, rfl⟩
  obtain ⟨hends, hfinished⟩ := ends_run h.cut.ending ns
  have hspawned : spawned (es' ++ ns.map .step) = spawned es' := spawned_steps es' ns
  refine ⟨cutLimits limits taken (run schedule (.start s₀) es), es' ++ ns.map .step, ?_, ?_, ?_,
    fun task htask => ?_, fun n task hn hphase => ?_, ?_⟩
  · rw [Limits, hspawned]
    exact h.programs
  · rw [hspawned, h.length]
  · rw [run_append, hends.store, h.cut.store]
  · rw [run_append] at htask
    obtain ⟨n, hn⟩ := List.getElem?_of_mem htask
    refine hfinished n ?_ task hn
    rw [hns, List.mem_range, ← hends.length]
    exact (List.getElem?_eq_some_iff.mp hn).1
  · rw [run_append]
    exact ⟨cutLimits_finished hn hphase, hends.finished n task (h.cut.same hn hphase) hphase⟩
  · rw [commits_append, h.order]
    exact List.prefix_append _ _

end Cuts

end Locks
