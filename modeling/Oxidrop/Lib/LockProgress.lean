import Mathlib.Algebra.BigOperators.Ring.Finset
import Mathlib.Algebra.Order.BigOperators.Group.Finset
import Mathlib.Data.Finset.Max
import Oxidrop.Lib.Locks

/-!
# Progress under locks

Tasks that take their locks in ascending order never wait for each other in a circle. If
each of them has a bounded number of steps, all of them can be brought to their ends from
every reachable state.
-/
namespace Locks

open Run

variable {L : Type} {V : L → Type} {ω : Type}

variable {rank : L → Nat}

/-- What is left of the tasks takes locks in ascending order. -/
def Ordered (rank : L → Nat) (s : State L V ω) : Prop :=
  ∀ (n : Nat) (task : Task L V ω), s.tasks[n]? = some task → task.phase ≠ .finished →
    task.program.Ascending rank (owned s.owner n)

theorem Ordered.set {s s' : State L V ω} (h : Ordered rank s) {n : Nat} {task' : Task L V ω}
    (htasks : s'.tasks = s.tasks.set n task')
    (howner : ∀ m, m ≠ n → owned s'.owner m = owned s.owner m)
    (hnew : task'.phase ≠ .finished → task'.program.Ascending rank (owned s'.owner n)) :
    Ordered rank s' := by
  intro m task hm hbusy
  rw [htasks] at hm
  by_cases hmn : m = n
  · subst hmn
    have hlt : m < s.tasks.length := by
      obtain ⟨hlt, -⟩ := List.getElem?_eq_some_iff.mp hm
      rwa [List.length_set] at hlt
    rw [List.getElem?_set_self hlt] at hm
    cases hm
    exact hnew hbusy
  · rw [List.getElem?_set_ne (Ne.symm hmn)] at hm
    rw [howner m hmn]
    exact h m task hm hbusy

/-- The rank of the lock that the task takes next. -/
def awaited (rank : L → Nat) (task : Task L V ω) : Nat :=
  match task.program with
  | .acquire l _ => rank l
  | _ => 0

theorem exists_greatest (rank : L → Nat) {tasks : List (Task L V ω)} {n : Nat}
    {task : Task L V ω} (hn : tasks[n]? = some task) (hbusy : task.phase ≠ .finished) :
    ∃ (m : Nat) (greatest : Task L V ω), tasks[m]? = some greatest ∧
      greatest.phase ≠ .finished ∧
      ∀ (k : Nat) (other : Task L V ω), tasks[k]? = some other → other.phase ≠ .finished →
        awaited rank other ≤ awaited rank greatest := by
  classical
  have hmem : ∀ (k : Nat) (other : Task L V ω), tasks[k]? = some other →
      other.phase ≠ .finished → k ∈ (Finset.range tasks.length).filter fun m =>
        ∃ task, tasks[m]? = some task ∧ task.phase ≠ .finished := by
    intro k other hk hk'
    obtain ⟨hlt, -⟩ := List.getElem?_eq_some_iff.mp hk
    exact Finset.mem_filter.mpr ⟨Finset.mem_range.mpr hlt, other, hk, hk'⟩
  obtain ⟨m, hm, hmax⟩ := Finset.exists_max_image _
    (fun m => (tasks[m]?.map (awaited rank)).getD 0) ⟨n, hmem n task hn hbusy⟩
  obtain ⟨-, greatest, hgreatest, hbusy'⟩ := Finset.mem_filter.mp hm
  refine ⟨m, greatest, hgreatest, hbusy', fun k other hk hk' => ?_⟩
  simpa [hk, hgreatest] using hmax k (hmem k other hk hk')

variable [DecidableEq L] (s₀ : (l : L) → V l)

theorem ordered_step {s : State L V ω} {order : List Nat} (hinv : Inv s₀ order s)
    (h : Ordered rank s) {e : Event L V ω} (he : ∀ p, e = .spawn p → p.Ascending rank ∅) :
    Ordered rank (schedule e s).2 := by
  cases e with
  | spawn p =>
    intro n task hn hbusy
    simp only [schedule] at hn ⊢
    by_cases hlt : n < s.tasks.length
    · rw [List.getElem?_append_left hlt] at hn
      exact h n task hn hbusy
    · have hempty : owned s.owner n = ∅ :=
        Set.eq_empty_iff_forall_notMem.mpr fun l hl => hlt (hinv.owners l n hl)
      rw [List.getElem?_append_right (not_lt.mp hlt), List.getElem?_singleton] at hn
      obtain ⟨-, hnew⟩ := Option.ite_none_right_eq_some.mp hn
      cases hnew
      rw [hempty]
      exact he p rfl
  | step n =>
    simp only [schedule]
    cases hn : s.tasks[n]? with
    | none => exact h
    | some task =>
      obtain ⟨origin, program, phase⟩ := task
      simp only
      split
      · exact h
      · rename_i hbusy
        have hascending := h n _ hn hbusy
        cases program with
        | done answer =>
          refine h.set rfl (fun m hmn => ?_) fun hc => absurd rfl hc
          ext x
          simp only [owned, Set.mem_ofPred_eq]
          split
          · rename_i hx
            rw [hx]
            simpa using Ne.symm hmn
          · exact Iff.rfl
        | acquire l next =>
          simp only
          split
          · rename_i hl
            refine h.set rfl (fun m hmn => ?_) fun _ => ?_
            · exact Set.ext (update_owner_other hmn (.inl rfl) (.inl hl))
            · have howned : owned (Function.update s.owner l (some n)) n =
                  insert l (owned s.owner n) := owned_acquire
              exact howned ▸ hascending.2
          · exact h
        | release l next =>
          have hl : s.owner l = some n := by
            cases hinv.good n _ hn with
            | growing hnew hphase halone => exact hphase.1
            | shrinking hphase hleaves hanswer => exact hphase.1
          refine h.set rfl (fun m hmn => ?_) fun _ => ?_
          · exact Set.ext (update_owner_other hmn (.inr rfl) (.inr hl))
          · have howned : owned (Function.update s.owner l none) n = owned s.owner n \ {l} :=
              owned_release
            exact howned ▸ hascending
        | act l write next => exact h.set rfl (fun _ _ => rfl) fun _ => hascending _

theorem ordered_run {es : List (Event L V ω)} (hes : ∀ p, .spawn p ∈ es → p.TwoPhase ∅)
    (hrank : ∀ p, .spawn p ∈ es → p.Ascending rank ∅) :
    Ordered rank (run schedule (.start s₀) es) := by
  induction es using List.reverseRecOn with
  | nil => exact fun n task hn => by simp [State.start] at hn
  | append_singleton es e ih =>
    have hpre : ∀ p, .spawn p ∈ es → p.TwoPhase ∅ :=
      fun p hp => hes p (List.mem_append_left _ hp)
    rw [run_concat]
    exact ordered_step s₀ (inv_run s₀ hpre)
      (ih hpre fun p hp => hrank p (List.mem_append_left _ hp)) fun p hp => hrank p (by simp [hp])

/-- The task has not ended, and does not wait for a lock that another one holds. -/
def Runnable (s : State L V ω) (n : Nat) : Prop :=
  ∃ task, s.tasks[n]? = some task ∧ task.phase ≠ .finished ∧
    ∀ l next, task.program = .acquire l next → s.owner l = none

/-- As long as not every task has ended, one of them can go on: of those that wait, the
one that waits for the greatest lock waits for a task that does not. -/
theorem runnable_of_busy {es : List (Event L V ω)} (hes : ∀ p, .spawn p ∈ es → p.TwoPhase ∅)
    (hrank : ∀ p, .spawn p ∈ es → p.Ascending rank ∅) {n : Nat} {task : Task L V ω}
    (hn : (run schedule (.start s₀) es).tasks[n]? = some task) (hbusy : task.phase ≠ .finished) :
    ∃ m, Runnable (run schedule (.start s₀) es) m := by
  have hinv := inv_run s₀ hes
  have hordered := ordered_run s₀ hes hrank
  generalize run schedule (.start s₀) es = s at *
  by_contra hnone
  -- Every task that has not ended waits for a lock of another one.
  have hwaits : ∀ (m : Nat) (task : Task L V ω), s.tasks[m]? = some task → task.phase ≠ .finished →
      ∃ l next k, task.program = .acquire l next ∧ s.owner l = some k := by
    intro m task hm hm'
    by_contra hc
    refine hnone ⟨m, task, hm, hm', fun l next heq => ?_⟩
    exact Option.eq_none_iff_forall_ne_some.mpr fun k hk => hc ⟨l, next, k, heq, hk⟩
  obtain ⟨m, task, hm, hm', hmax⟩ := exists_greatest rank hn hbusy
  obtain ⟨l, next, k, hprogram, hk⟩ := hwaits m task hm hm'
  obtain ⟨task', hk'⟩ : ∃ task', s.tasks[k]? = some task' :=
    ⟨_, List.getElem?_eq_getElem (hinv.owners l k hk)⟩
  have hbusy' := hinv.owner_busy hk' hk
  obtain ⟨l', next', -, hprogram', -⟩ := hwaits k task' hk' hbusy'
  have hle := hmax k task' hk' hbusy'
  have hlt := hordered k task' hk' hbusy'
  rw [hprogram'] at hlt
  simp only [awaited, hprogram, hprogram'] at hle
  exact absurd (hlt.1 l hk) (not_lt.mpr hle)

def Task.EndsWithin (k : Nat) (task : Task L V ω) : Prop :=
  task.phase = .finished ∨ task.program.EndsWithin k

theorem schedule_waits {s : State L V ω} {n : Nat} (h : ¬ Runnable s n) :
    (schedule (.step n) s).2 = s := by
  simp only [schedule]
  cases hn : s.tasks[n]? with
  | none => rfl
  | some task =>
    obtain ⟨origin, program, phase⟩ := task
    simp only
    split
    · rfl
    · rename_i hbusy
      have hwaits : ¬ ∀ l next, program = .acquire l next → s.owner l = none :=
        fun hc => h ⟨_, hn, hbusy, hc⟩
      cases program with
      | acquire l next =>
        have hl : s.owner l ≠ none := fun hc => hwaits fun _ _ heq => by cases heq; exact hc
        simp only [if_neg hl]
      | _ => exact absurd (fun _ _ heq => by cases heq) hwaits

/-- A step of a task that can go on is one of its steps. -/
theorem schedule_runnable {s : State L V ω} {n : Nat} {task : Task L V ω}
    (hn : s.tasks[n]? = some task) (hbusy : task.phase ≠ .finished)
    (hfree : ∀ l next, task.program = .acquire l next → s.owner l = none) :
    ∃ task', (schedule (.step n) s).2.tasks = s.tasks.set n task' ∧
      ∀ k, task.program.EndsWithin (k + 1) → task'.EndsWithin k := by
  obtain ⟨origin, program, phase⟩ := task
  simp only [schedule, hn, if_neg hbusy]
  cases program with
  | done answer => exact ⟨_, rfl, fun k hk => .inl rfl⟩
  | acquire l next =>
    simp only [hfree l next rfl, if_true]
    exact ⟨_, rfl, fun k hk => .inr hk⟩
  | release l next => exact ⟨_, rfl, fun k hk => .inr hk⟩
  | act l write next => exact ⟨_, rfl, fun k hk => .inr (hk _)⟩

theorem endsWithin_step {bound : Nat} {s : State L V ω}
    (h : ∀ task ∈ s.tasks, task.EndsWithin (bound + 1)) {e : Event L V ω}
    (he : ∀ p, e = .spawn p → p.EndsWithin (bound + 1)) :
    ∀ task ∈ (schedule e s).2.tasks, task.EndsWithin (bound + 1) := by
  cases e with
  | spawn p =>
    intro task htask
    rcases List.mem_append.mp htask with htask | htask
    · exact h task htask
    · rw [List.mem_singleton.mp htask]
      exact .inr (he p rfl)
  | step n =>
    by_cases hrun : Runnable s n
    · obtain ⟨task, hn, hbusy, hfree⟩ := hrun
      obtain ⟨task', hset, hfewer⟩ := schedule_runnable hn hbusy hfree
      intro other hother
      rw [hset] at hother
      rcases List.mem_or_eq_of_mem_set hother with hother | rfl
      · exact h other hother
      · have hends := (h task (List.mem_of_getElem? hn)).resolve_left hbusy
        exact (hfewer bound hends).imp id Prog.EndsWithin.succ
    · rw [schedule_waits hrun]
      exact h

theorem endsWithin_run {bound : Nat} {es : List (Event L V ω)}
    (hes : ∀ p, .spawn p ∈ es → p.EndsWithin (bound + 1)) :
    ∀ task ∈ (run schedule (.start s₀) es).tasks, task.EndsWithin (bound + 1) := by
  induction es using List.reverseRecOn with
  | nil => exact fun task htask => by simp [State.start] at htask
  | append_singleton es e ih =>
    rw [run_concat]
    exact endsWithin_step (ih fun p hp => hes p (List.mem_append_left _ hp))
      fun p hp => hes p (by simp [hp])

/-- If the tasks have so many steps left, each step of one that can go on leaves one less. -/
theorem complete_of_budget {es : List (Event L V ω)} (hes : ∀ p, .spawn p ∈ es → p.TwoPhase ∅)
    (hrank : ∀ p, .spawn p ∈ es → p.Ascending rank ∅) (budget : Nat → Nat)
    (hbudget : ∀ (n : Nat) (task : Task L V ω),
      (run schedule (.start s₀) es).tasks[n]? = some task → task.EndsWithin (budget n)) :
    ∃ more : List Nat,
      more.length ≤ ∑ n ∈ Finset.range (run schedule (.start s₀) es).tasks.length, budget n ∧
      ∀ task ∈ (run schedule (.start s₀) (es ++ more.map .step)).tasks, task.phase = .finished := by
  generalize htotal : ∑ n ∈ Finset.range (run schedule (.start s₀) es).tasks.length, budget n =
    total
  induction total using Nat.strong_induction_on generalizing es budget with
  | _ total ih =>
    by_cases hall : ∀ task ∈ (run schedule (.start s₀) es).tasks, task.phase = .finished
    · exact ⟨[], Nat.zero_le _, by simpa using hall⟩
    · push Not at hall
      obtain ⟨task, htask, hbusy⟩ := hall
      obtain ⟨n, hn⟩ := List.getElem?_of_mem htask
      obtain ⟨m, task, hm, hbusy, hfree⟩ := runnable_of_busy s₀ hes hrank hn hbusy
      obtain ⟨task', hset, hfewer⟩ := schedule_runnable hm hbusy hfree
      obtain ⟨hlt, -⟩ := List.getElem?_eq_some_iff.mp hm
      -- The program of the task has not ended, so its budget is not used up.
      obtain ⟨k, hk⟩ : ∃ k, budget m = k + 1 := by
        refine Nat.exists_eq_succ_of_ne_zero fun hzero => ?_
        have hends := hbudget m task hm
        rw [hzero] at hends
        exact hends.elim hbusy id
      have hends : task.program.EndsWithin (k + 1) := hk ▸ (hbudget m task hm).resolve_left hbusy
      have hless : ∑ n ∈ Finset.range (run schedule (.start s₀) es).tasks.length,
          Function.update budget m k n < total := by
        rw [← htotal]
        refine Finset.sum_lt_sum (fun n _ => ?_) ⟨m, Finset.mem_range.mpr hlt, by simp [hk]⟩
        by_cases hnm : n = m
        · simp [hnm, hk]
        · simp [hnm]
      have hstep : (run schedule (.start s₀) (es ++ [.step m])).tasks =
          (run schedule (.start s₀) es).tasks.set m task' := by rw [run_concat, hset]
      have hspawn : ∀ p, .spawn p ∈ es ++ [Event.step m] → .spawn p ∈ es := fun p hp => by
        simpa using hp
      obtain ⟨more, hlength, hdone⟩ := ih _ hless (fun p hp => hes p (hspawn p hp))
        (fun p hp => hrank p (hspawn p hp)) (Function.update budget m k) (fun n other hn => by
          rw [hstep] at hn
          by_cases hnm : n = m
          · subst hnm
            rw [List.getElem?_set_self hlt] at hn
            cases hn
            simpa using hfewer k hends
          · rw [List.getElem?_set_ne (Ne.symm hnm)] at hn
            simpa [hnm] using hbudget n other hn) (by rw [hstep, List.length_set])
      refine ⟨m :: more, by simp only [List.length_cons]; omega, ?_⟩
      simpa using hdone

/-- From every reachable state the tasks can all be brought to their ends. -/
theorem complete_of_disciplined {bound : Nat} {es : List (Event L V ω)}
    (hes : ∀ p, .spawn p ∈ es → p.Disciplined rank (bound + 1) ∅) :
    ∃ more : List Nat, more.length ≤ (bound + 1) * (spawned es).length ∧
      ∀ task ∈ (run schedule (.start s₀) (es ++ more.map .step)).tasks, task.phase = .finished := by
  obtain ⟨more, hlength, hdone⟩ := complete_of_budget s₀
    (fun p hp => (hes p hp).twoPhase) (fun p hp => (hes p hp).ascending) (fun _ => bound + 1)
    fun n task hn =>
      endsWithin_run s₀ (fun p hp => (hes p hp).endsWithin) task (List.mem_of_getElem? hn)
  refine ⟨more, hlength.trans_eq ?_, hdone⟩
  rw [Finset.sum_const_nat fun _ _ => rfl, Finset.card_range, mul_comm,
    ← programs_run s₀ es, State.programs, List.length_map]

end Locks
