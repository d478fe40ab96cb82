import Mathlib.Data.List.Nodup
import Mathlib.Data.Set.Insert
import Mathlib.Logic.Function.Basic
import Oxidrop.Lib.Run

/-!
# Tasks under locks

A store has one part behind each lock. Tasks interleave: a task takes locks, acts on the
parts behind the locks that it holds, and gives locks back. If no task takes a lock after
it has given one back, the tasks act as if each one ran alone, in the order in which they
begin to give back.
-/
namespace Locks

open Run

variable {L : Type} {V : L → Type} {ω : Type}

/-- What is left of a task. An action sees the part behind its lock as it was before. -/
inductive Prog (L : Type) (V : L → Type) (ω : Type) where
  | done (answer : ω)
  | acquire (l : L) (next : Prog L V ω)
  | release (l : L) (next : Prog L V ω)
  | act (l : L) (write : V l → V l) (next : V l → Prog L V ω)

/-! ## Discipline -/

section Discipline

/-- The task only acts behind locks that it holds, and takes no lock any more. -/
def Prog.Shrinking : Set L → Prog L V ω → Prop
  | _, .done _ => True
  | _, .acquire _ _ => False
  | held, .release l next => l ∈ held ∧ next.Shrinking (held \ {l})
  | held, .act l _ next => l ∈ held ∧ ∀ v, (next v).Shrinking held

/-- The task only acts behind locks that it holds, and takes no lock after it has given
one back. -/
def Prog.TwoPhase : Set L → Prog L V ω → Prop
  | _, .done _ => True
  | held, .acquire l next => l ∉ held ∧ next.TwoPhase (insert l held)
  | held, .release l next => l ∈ held ∧ next.Shrinking (held \ {l})
  | held, .act l _ next => l ∈ held ∧ ∀ v, (next v).TwoPhase held

/-- The task takes its locks in ascending order. -/
def Prog.Ascending (rank : L → Nat) : Set L → Prog L V ω → Prop
  | _, .done _ => True
  | held, .acquire l next => (∀ x ∈ held, rank x < rank l) ∧ next.Ascending rank (insert l held)
  | held, .release l next => next.Ascending rank (held \ {l})
  | held, .act _ _ next => ∀ v, (next v).Ascending rank held

/-- The task ends with at most so many steps. -/
def Prog.EndsWithin : Nat → Prog L V ω → Prop
  | 0, _ => False
  | _ + 1, .done _ => True
  | k + 1, .acquire _ next => next.EndsWithin k
  | k + 1, .release _ next => next.EndsWithin k
  | k + 1, .act _ _ next => ∀ v, (next v).EndsWithin k

/-- The task takes no lock any more, and ends with at most `k` steps. -/
structure Prog.Closing (k : Nat) (held : Set L) (p : Prog L V ω) : Prop where
  shrinking : p.Shrinking held
  endsWithin : p.EndsWithin k

/-- The task takes its locks in ascending order, none after it has given one back, and ends
with at most `k` steps. -/
structure Prog.Disciplined (rank : L → Nat) (k : Nat) (held : Set L) (p : Prog L V ω) : Prop where
  twoPhase : p.TwoPhase held
  ascending : p.Ascending rank held
  endsWithin : p.EndsWithin k

variable {rank : L → Nat} {held : Set L} {p : Prog L V ω} {l : L}
  {k : Nat}

/-- A task that takes no lock takes its locks in ascending order. -/
theorem Prog.Shrinking.ascending {held' : Set L} (h : p.Shrinking held) :
    p.Ascending rank held' := by
  induction p generalizing held held' with
  | done answer => trivial
  | acquire l next ih => exact h.elim
  | release l next ih => exact ih h.2
  | act l write next ih => exact fun v => ih v (h.2 v)

theorem Prog.Shrinking.twoPhase (h : p.Shrinking held) : p.TwoPhase held := by
  induction p generalizing held with
  | done answer => trivial
  | acquire l next ih => exact h.elim
  | release l next ih => exact h
  | act l write next ih => exact ⟨h.1, fun v => ih v (h.2 v)⟩

theorem Prog.EndsWithin.succ (h : p.EndsWithin k) :
    p.EndsWithin (k + 1) := by
  induction k generalizing p with
  | zero => exact h.elim
  | succ k ih =>
    cases p with
    | done answer => trivial
    | acquire l next => exact ih h
    | release l next => exact ih h
    | act l write next => exact fun v => ih (h v)

theorem Prog.Closing.done (answer : ω) : (.done answer : Prog L V ω).Closing (k + 1) held :=
  ⟨trivial, trivial⟩

theorem Prog.Closing.act {write : V l → V l} {next : V l → Prog L V ω} (hl : l ∈ held)
    (h : ∀ v, (next v).Closing k held) : (act l write next).Closing (k + 1) held :=
  ⟨⟨hl, fun v => (h v).shrinking⟩, fun v => (h v).endsWithin⟩

theorem Prog.Closing.disciplined (h : p.Closing k held) : p.Disciplined rank k held :=
  ⟨h.shrinking.twoPhase, h.shrinking.ascending, h.endsWithin⟩

theorem Prog.Disciplined.done (answer : ω) :
    (.done answer : Prog L V ω).Disciplined rank (k + 1) held :=
  ⟨trivial, trivial, trivial⟩

theorem Prog.Disciplined.acquire {next : Prog L V ω} (hlt : ∀ x ∈ held, rank x < rank l)
    (h : next.Disciplined rank k (insert l held)) :
    (acquire l next).Disciplined rank (k + 1) held :=
  ⟨⟨fun hl => lt_irrefl _ (hlt l hl), h.twoPhase⟩, ⟨hlt, h.ascending⟩, h.endsWithin⟩

theorem Prog.Disciplined.release {next : Prog L V ω} (hl : l ∈ held)
    (h : next.Closing k (held \ {l})) : (release l next).Disciplined rank (k + 1) held :=
  ⟨⟨hl, h.shrinking⟩, h.shrinking.ascending, h.endsWithin⟩

theorem Prog.Disciplined.act {write : V l → V l} {next : V l → Prog L V ω} (hl : l ∈ held)
    (h : ∀ v, (next v).Disciplined rank k held) :
    (act l write next).Disciplined rank (k + 1) held :=
  ⟨⟨hl, fun v => (h v).twoPhase⟩, fun v => (h v).ascending, fun v => (h v).endsWithin⟩

end Discipline

/-! ## Alone -/

section Alone

variable [DecidableEq L]

/-- What the task answers and leaves when it runs alone. -/
def Prog.exec : Prog L V ω → ((l : L) → V l) → ω × ((l : L) → V l)
  | .done answer, s => (answer, s)
  | .acquire _ next, s => next.exec s
  | .release _ next, s => next.exec s
  | .act l write next, s => (next (s l)).exec (Function.update s l (write (s l)))

variable {held : Set L} {p : Prog L V ω} {s t : (l : L) → V l}

theorem Prog.Shrinking.frame (h : p.Shrinking held) {l : L} (hl : l ∉ held) :
    (p.exec s).2 l = s l := by
  induction p generalizing held s with
  | done answer => rfl
  | acquire x next ih => exact h.elim
  | release x next ih => exact ih h.2 fun hmem => hl hmem.1
  | act x write next ih =>
    have hne : l ≠ x := fun heq => hl (heq ▸ h.1)
    rw [Prog.exec, ih _ (h.2 _) hl, Function.update_of_ne hne]

/-- What the task does depends only on what is behind its locks. -/
theorem Prog.Shrinking.congr (h : p.Shrinking held) (hst : ∀ l ∈ held, s l = t l) :
    (p.exec s).1 = (p.exec t).1 ∧ ∀ l ∈ held, (p.exec s).2 l = (p.exec t).2 l := by
  induction p generalizing held s t with
  | done answer => exact ⟨rfl, hst⟩
  | acquire x next ih => exact h.elim
  | release x next ih =>
    obtain ⟨hanswer, hrest⟩ := ih h.2 fun l hl => hst l hl.1
    refine ⟨hanswer, fun l hl => ?_⟩
    by_cases hx : l = x
    · have hout : l ∉ held \ {x} := fun hmem => hmem.2 hx
      rw [Prog.exec, Prog.exec, h.2.frame hout, h.2.frame hout, hst l hl]
    · exact hrest l ⟨hl, hx⟩
  | act x write next ih =>
    rw [Prog.exec, Prog.exec, hst x h.1]
    refine ih _ (h.2 _) fun l hl => ?_
    by_cases hx : l = x
    · subst hx
      rw [Function.update_self, Function.update_self]
    · rw [Function.update_of_ne hx, Function.update_of_ne hx, hst l hl]

end Alone

/-! ## Interleaved -/

inductive Phase where
  | growing | shrinking | finished
  deriving DecidableEq, Repr

/-- A task, with the program that it was started with. -/
structure Task (L : Type) (V : L → Type) (ω : Type) where
  origin : Prog L V ω
  program : Prog L V ω
  phase : Phase

/-- A lock has at most one owner, a task by its number. -/
structure State (L : Type) (V : L → Type) (ω : Type) where
  store : (l : L) → V l
  owner : L → Option Nat
  tasks : List (Task L V ω)

/-- The programs that the tasks were started with. -/
def State.programs (s : State L V ω) : List (Prog L V ω) := s.tasks.map Task.origin

theorem programs_set {s : State L V ω} {n : Nat} {task task' : Task L V ω}
    (hn : s.tasks[n]? = some task) (horigin : task'.origin = task.origin) :
    (s.tasks.set n task').map Task.origin = s.programs := by
  obtain ⟨hlt, rfl⟩ := List.getElem?_eq_some_iff.mp hn
  refine List.ext_getElem (by simp [State.programs]) fun m hm hm' => ?_
  by_cases hmn : n = m
  · subst hmn
    simp [State.programs, horigin]
  · simp [State.programs, hmn]

inductive Event (L : Type) (V : L → Type) (ω : Type) where
  | spawn (program : Prog L V ω)
  | step (n : Nat)

/-- The programs of the tasks that a list of events starts, in their order. -/
def spawned (es : List (Event L V ω)) : List (Prog L V ω) :=
  es.filterMap fun
    | .spawn p => some p
    | .step _ => none

theorem mem_spawned {p : Prog L V ω} {es : List (Event L V ω)} :
    p ∈ spawned es ↔ .spawn p ∈ es := by
  rw [spawned, List.mem_filterMap]
  constructor
  · rintro ⟨e, he, hp⟩
    cases e with
    | spawn q =>
      cases hp
      exact he
    | step n => cases hp
  · exact fun hp => ⟨.spawn p, hp, rfl⟩

section Interleaved

variable [DecidableEq L]

/-- Nothing happens in a step of a task that waits for a lock, or has ended. The answer
is the number of a task that begins to give back. -/
def schedule : Machine (Event L V ω) (State L V ω) (Option Nat)
  | .spawn program, s => (none, { s with tasks := s.tasks ++ [⟨program, program, .growing⟩] })
  | .step n, s =>
    match s.tasks[n]? with
    | none => (none, s)
    | some task =>
      if task.phase = .finished then (none, s)
      else
        match task.program with
        | .done answer =>
          (if task.phase = .growing then some n else none,
            { s with
              owner := fun l => if s.owner l = some n then none else s.owner l
              tasks := s.tasks.set n ⟨task.origin, .done answer, .finished⟩ })
        | .acquire l next =>
          if s.owner l = none then
            (none,
              { s with
                owner := Function.update s.owner l (some n)
                tasks := s.tasks.set n ⟨task.origin, next, task.phase⟩ })
          else (none, s)
        | .release l next =>
          (if task.phase = .growing then some n else none,
            { s with
              owner := Function.update s.owner l none
              tasks := s.tasks.set n ⟨task.origin, next, .shrinking⟩ })
        | .act l write next =>
          (none,
            { s with
              store := Function.update s.store l (write (s.store l))
              tasks := s.tasks.set n ⟨task.origin, next (s.store l), task.phase⟩ })

/-- Programs one after the other, by their numbers. -/
def serial (programs : List (Prog L V ω)) (order : List Nat) (s : (l : L) → V l) :
    (l : L) → V l :=
  order.foldl (fun s n => (programs[n]?.map fun p => (p.exec s).2).getD s) s

end Interleaved

/-! ## What a state stands for -/

section Invariant

variable [DecidableEq L]

/-- The parts that the task holds, over another store. -/
def overlay (owner : L → Option Nat) (n : Nat) (s t : (l : L) → V l) : (l : L) → V l :=
  fun l => if owner l = some n then s l else t l

def owned (owner : L → Option Nat) (n : Nat) : Set L := {l | owner l = some n}

/-- The answer of the task is that of its program at its place of the order. -/
def Answers (programs : List (Prog L V ω)) (order : List Nat) (s₀ : (l : L) → V l) (n : Nat)
    (p : Prog L V ω) (answer : ω) : Prop :=
  ∃ before after, order = before ++ n :: after ∧
    (p.exec (serial programs before s₀)).1 = answer

/-- `order` lists the tasks that have begun to give back, and `base` is the store after
them. A task before that has acted on what it holds as it would have alone. For a task
after that `base` has what it will leave. -/
inductive Good (answers : Nat → Prog L V ω → ω → Prop) (base : (l : L) → V l)
    (order : List Nat) (store : (l : L) → V l) (owner : L → Option Nat) (n : Nat) :
    Task L V ω → Prop where
  | growing {origin program : Prog L V ω} (hnew : n ∉ order)
      (hphase : program.TwoPhase (owned owner n))
      (halone : ∀ t, (∀ l, owner l = some n → t l = base l) →
        origin.exec t = program.exec (overlay owner n store t)) :
      Good answers base order store owner n ⟨origin, program, .growing⟩
  | shrinking {origin program : Prog L V ω} (hphase : program.Shrinking (owned owner n))
      (hleaves : ∀ l, owner l = some n → base l = (program.exec store).2 l)
      (hanswer : answers n origin (program.exec store).1) :
      Good answers base order store owner n ⟨origin, program, .shrinking⟩
  | finished {origin : Prog L V ω} {answer : ω} (hfree : ∀ l, owner l ≠ some n)
      (hanswer : answers n origin answer) :
      Good answers base order store owner n ⟨origin, .done answer, .finished⟩

structure Inv (s₀ : (l : L) → V l) (order : List Nat) (s : State L V ω) : Prop where
  free : ∀ l, s.owner l = none → s.store l = serial s.programs order s₀ l
  good : ∀ n task, s.tasks[n]? = some task →
    Good (Answers s.programs order s₀) (serial s.programs order s₀) order s.store s.owner n task
  owners : ∀ l n, s.owner l = some n → n < s.tasks.length
  order : order.Nodup ∧ ∀ n ∈ order, n < s.tasks.length

variable {programs : List (Prog L V ω)} {order : List Nat} {s₀ : (l : L) → V l}

theorem serial_concat {n : Nat} {p : Prog L V ω} (hp : programs[n]? = some p) :
    serial programs (order ++ [n]) s₀ = (p.exec (serial programs order s₀)).2 := by
  simp [serial, hp]

/-- A program more does not change what the others leave. -/
theorem serial_append (p : Prog L V ω) (horder : ∀ n ∈ order, n < programs.length) :
    serial (programs ++ [p]) order s₀ = serial programs order s₀ := by
  induction order using List.reverseRecOn with
  | nil => rfl
  | append_singleton order n ih =>
    have hn : n < programs.length := horder n (by simp)
    have hsame : (programs ++ [p])[n]? = programs[n]? := List.getElem?_append_left hn
    rw [serial_concat (hsame.trans (List.getElem?_eq_getElem hn)),
      serial_concat (List.getElem?_eq_getElem hn), ih fun m hm => horder m (by simp [hm])]

theorem Answers.later {n m : Nat} {p : Prog L V ω} {answer : ω}
    (h : Answers programs order s₀ n p answer) :
    Answers programs (order ++ [m]) s₀ n p answer := by
  obtain ⟨before, after, rfl, hanswer⟩ := h
  exact ⟨before, after ++ [m], by simp, hanswer⟩

/-- What others do behind other locks does not concern a task. -/
theorem Good.other {answers answers' : Nat → Prog L V ω → ω → Prop}
    {base base' store store' : (l : L) → V l} {order' : List Nat} {owner owner' : L → Option Nat}
    {n : Nat} {task : Task L V ω} (h : Good answers base order store owner n task)
    (hanswers : ∀ p answer, answers n p answer → answers' n p answer)
    (horder : n ∉ order → n ∉ order') (howner : ∀ l, owner' l = some n ↔ owner l = some n)
    (hbase : ∀ l, owner l = some n → base' l = base l)
    (hstore : ∀ l, owner l = some n → store' l = store l) :
    Good answers' base' order' store' owner' n task := by
  have howned : owned owner' n = owned owner n := Set.ext howner
  cases h with
  | growing hnew hphase halone =>
    refine .growing (horder hnew) (howned ▸ hphase) fun t ht => ?_
    have hoverlay : overlay owner' n store' t = overlay owner n store t := by
      funext l
      simp only [overlay, howner]
      split
      · exact hstore l ‹_›
      · rfl
    rw [hoverlay]
    exact halone t fun l hl => (ht l ((howner l).mpr hl)).trans (hbase l hl)
  | @shrinking origin program hphase hleaves hanswer =>
    have hsame : (program.exec store').1 = (program.exec store).1 ∧
        ∀ l ∈ owned owner n, (program.exec store').2 l = (program.exec store).2 l :=
      hphase.congr fun l hl => hstore l hl
    refine .shrinking (howned ▸ hphase) (fun l hl => ?_) (hanswers _ _ (hsame.1 ▸ hanswer))
    have hl' := (howner l).mp hl
    rw [hbase l hl', hleaves l hl', hsame.2 l hl']
  | finished hfree hanswer =>
    exact .finished (fun l hl => hfree l ((howner l).mp hl)) (hanswers _ _ hanswer)

/-- Only a task that has not ended holds locks. -/
theorem Inv.owner_busy {s : State L V ω} (h : Inv s₀ order s) {n : Nat} {task : Task L V ω}
    (hn : s.tasks[n]? = some task) {l : L} (hl : s.owner l = some n) :
    task.phase ≠ .finished := by
  intro hphase
  cases h.good n task hn with
  | growing hnew hgrowing halone => cases hphase
  | shrinking hshrinking hleaves hanswer => cases hphase
  | finished hfree hanswer => exact hfree l hl

/-- A step of one task keeps the invariant if it is good for this task, and others see no
difference. -/
theorem Inv.move {s s' : State L V ω} (h : Inv s₀ order s) {n : Nat} {task task' : Task L V ω}
    (hn : s.tasks[n]? = some task) (htasks : s'.tasks = s.tasks.set n task')
    (horigin : task'.origin = task.origin) {order' : List Nat}
    (horder : order' = order ∨ order' = order ++ [n] ∧ n ∉ order)
    (howner : ∀ m, m ≠ n → ∀ l, s'.owner l = some m ↔ s.owner l = some m)
    (hbase : ∀ l m, m ≠ n → s.owner l = some m →
      serial s.programs order' s₀ l = serial s.programs order s₀ l)
    (hstore : ∀ l, s.owner l ≠ some n → s'.store l = s.store l)
    (hfree : ∀ l, s'.owner l = none → s'.store l = serial s.programs order' s₀ l)
    (hgood : Good (Answers s.programs order' s₀) (serial s.programs order' s₀) order' s'.store
      s'.owner n task') : Inv s₀ order' s' := by
  have hprograms : s'.programs = s.programs := by
    rw [State.programs, htasks, programs_set hn horigin]
  obtain ⟨hlt, -⟩ := List.getElem?_eq_some_iff.mp hn
  refine ⟨by rwa [hprograms], fun m task'' hm => ?_, fun l m hl => ?_, ?_⟩
  · rw [hprograms]
    rw [htasks] at hm
    by_cases hmn : m = n
    · subst hmn
      rw [List.getElem?_set_self hlt] at hm
      cases hm
      exact hgood
    · rw [List.getElem?_set_ne (Ne.symm hmn)] at hm
      refine (h.good m task'' hm).other ?_ ?_ (howner m hmn) (fun l hl => hbase l m hmn hl)
        fun l hl => hstore l fun hc => hmn (Option.some.inj (hl.symm.trans hc))
      · rcases horder with rfl | ⟨rfl, -⟩
        · exact fun p answer ha => ha
        · exact fun p answer ha => ha.later
      · rcases horder with rfl | ⟨rfl, -⟩
        · exact id
        · intro hm' hc
          rcases List.mem_append.mp hc with hc | hc
          · exact hm' hc
          · exact hmn (List.mem_singleton.mp hc)
  · rw [htasks, List.length_set]
    by_cases hmn : m = n
    · subst hmn
      exact hlt
    · exact h.owners l m ((howner m hmn l).mp hl)
  · rw [htasks, List.length_set]
    rcases horder with rfl | ⟨rfl, hnew⟩
    · exact h.order
    · refine ⟨?_, fun m hm => ?_⟩
      · exact List.Nodup.append h.order.1 (List.nodup_singleton n)
          (List.disjoint_singleton.mpr hnew)
      · rcases List.mem_append.mp hm with hm | hm
        · exact h.order.2 m hm
        · rw [List.mem_singleton.mp hm]
          exact hlt

theorem inv_spawn {s : State L V ω} (h : Inv s₀ order s) {p : Prog L V ω} (hp : p.TwoPhase ∅) :
    Inv s₀ order (schedule (.spawn p) s).2 := by
  have hlength : s.programs.length = s.tasks.length := List.length_map ..
  have hprograms : (schedule (.spawn p) s).2.programs = s.programs ++ [p] := by
    simp [schedule, State.programs]
  have hserial : ∀ before : List Nat, (∀ n ∈ before, n < s.tasks.length) →
      serial (s.programs ++ [p]) before s₀ = serial s.programs before s₀ :=
    fun before hbefore => serial_append p fun n hn => hlength ▸ hbefore n hn
  have hanswers : ∀ n q answer, Answers s.programs order s₀ n q answer →
      Answers (s.programs ++ [p]) order s₀ n q answer := by
    rintro n q answer ⟨before, after, rfl, hanswer⟩
    refine ⟨before, after, rfl, ?_⟩
    rw [hserial before fun m hm => h.order.2 m (List.mem_append_left _ hm), hanswer]
  refine ⟨?_, fun n task hn => ?_, fun l n hl => ?_, ?_⟩
  · rw [hprograms, hserial order h.order.2]
    exact h.free
  · rw [hprograms, hserial order h.order.2]
    simp only [schedule] at hn ⊢
    by_cases hlt : n < s.tasks.length
    · rw [List.getElem?_append_left hlt] at hn
      exact (h.good n task hn).other (hanswers n) id (fun _ => Iff.rfl) (fun _ _ => rfl)
        fun _ _ => rfl
    · -- The new task holds nothing yet.
      have hnone : ∀ l, s.owner l ≠ some n := fun l hl => hlt (h.owners l n hl)
      have hempty : owned s.owner n = ∅ := Set.eq_empty_iff_forall_notMem.mpr hnone
      rw [List.getElem?_append_right (not_lt.mp hlt), List.getElem?_singleton] at hn
      obtain ⟨-, hnew⟩ := Option.ite_none_right_eq_some.mp hn
      cases hnew
      refine .growing (fun hc => hlt (h.order.2 n hc)) (hempty ▸ hp) fun t _ => ?_
      have hoverlay : overlay s.owner n s.store t = t := funext fun l => if_neg (hnone l)
      rw [hoverlay]
  · simpa [schedule] using (h.owners l n hl).trans (Nat.lt_succ_self _)
  · refine ⟨h.order.1, fun n hn => ?_⟩
    simpa [schedule] using (h.order.2 n hn).trans (Nat.lt_succ_self _)

/-- A task takes a free lock, or gives one back, or ends: the others keep theirs. -/
theorem update_owner_other {owner : L → Option Nat} {l : L} {n m : Nat} (hmn : m ≠ n)
    {o : Option Nat} (ho : o = some n ∨ o = none) (hl : owner l = none ∨ owner l = some n) (x : L) :
    Function.update owner l o x = some m ↔ owner x = some m := by
  by_cases hx : x = l
  · subst hx
    rw [Function.update_self]
    constructor
    · rintro rfl
      rcases ho with ho | ho
      · exact absurd (Option.some.inj ho) hmn
      · cases ho
    · intro hc
      rw [hc] at hl
      rcases hl with hl | hl
      · cases hl
      · exact absurd (Option.some.inj hl) hmn
  · rw [Function.update_of_ne hx]

theorem owned_acquire {owner : L → Option Nat} {n : Nat} {l : L} :
    owned (Function.update owner l (some n)) n = insert l (owned owner n) := by
  ext x
  by_cases hxl : x = l
  · subst hxl
    simp [owned]
  · simp [owned, hxl]

theorem owned_release {owner : L → Option Nat} {n : Nat} {l : L} :
    owned (Function.update owner l none) n = owned owner n \ {l} := by
  ext x
  by_cases hxl : x = l
  · subst hxl
    simp [owned]
  · simp [owned, hxl]

theorem inv_acquire {s : State L V ω} (h : Inv s₀ order s) {n : Nat} {origin next : Prog L V ω}
    {l : L} {phase : Phase} (hn : s.tasks[n]? = some ⟨origin, .acquire l next, phase⟩)
    (hl : s.owner l = none) :
    Inv s₀ order ⟨s.store, Function.update s.owner l (some n),
      s.tasks.set n ⟨origin, next, phase⟩⟩ := by
  refine h.move hn rfl (by rfl) (.inl rfl)
    (fun m hmn => update_owner_other hmn (.inl rfl) (.inl hl)) (fun _ _ _ _ => rfl)
    (fun _ _ => rfl) (fun x hx => ?_) ?_
  · dsimp only at hx ⊢
    by_cases hxl : x = l
    · subst hxl
      rw [Function.update_self] at hx
      cases hx
    · exact h.free x (by rwa [Function.update_of_ne hxl] at hx)
  · have howned : owned (Function.update s.owner l (some n)) n = insert l (owned s.owner n) :=
      owned_acquire
    cases h.good n _ hn with
    | growing hnew hphase halone =>
      refine .growing hnew (howned ▸ hphase.2) fun t ht => ?_
      dsimp only at ht ⊢
      have hbefore : ∀ x, s.owner x = some n → t x = serial s.programs order s₀ x := by
        intro x hx
        refine ht x ?_
        rw [Function.update_of_ne (fun hxl => by rw [hxl, hl] at hx; cases hx)]
        exact hx
      have hoverlay : overlay (Function.update s.owner l (some n)) n s.store t =
          overlay s.owner n s.store t := by
        funext x
        by_cases hxl : x = l
        · subst hxl
          have hx := ht x (Function.update_self ..)
          simp only [overlay, Function.update_self, hl, if_true, reduceCtorEq, if_false]
          rw [hx, h.free x hl]
        · simp only [overlay, Function.update_of_ne hxl]
      rw [halone t hbefore, hoverlay]
      rfl
    | shrinking hphase hleaves hanswer => exact hphase.elim

theorem inv_act {s : State L V ω} (h : Inv s₀ order s) {n : Nat} {origin : Prog L V ω} {l : L}
    {write : V l → V l} {next : V l → Prog L V ω} {phase : Phase}
    (hn : s.tasks[n]? = some ⟨origin, .act l write next, phase⟩) :
    Inv s₀ order ⟨Function.update s.store l (write (s.store l)), s.owner,
      s.tasks.set n ⟨origin, next (s.store l), phase⟩⟩ := by
  have hgood := h.good n _ hn
  have hl : s.owner l = some n := by
    cases hgood with
    | growing hnew hphase halone => exact hphase.1
    | shrinking hphase hleaves hanswer => exact hphase.1
  refine h.move hn rfl (by rfl) (.inl rfl) (fun _ _ _ => Iff.rfl) (fun _ _ _ _ => rfl)
    (fun x hx => Function.update_of_ne (fun hxl => hx (by rw [hxl, hl])) _ _)
    (fun x hx => ?_) ?_
  · have hxl : x ≠ l := fun hxl => by rw [hxl, hl] at hx; cases hx
    simp only [Function.update_of_ne hxl]
    exact h.free x hx
  · cases hgood with
    | growing hnew hphase halone =>
      refine .growing hnew (hphase.2 _) fun t ht => ?_
      have hoverlay : overlay s.owner n (Function.update s.store l (write (s.store l))) t =
          Function.update (overlay s.owner n s.store t) l (write (s.store l)) := by
        funext x
        by_cases hxl : x = l
        · subst hxl
          simp [overlay, hl]
        · simp [overlay, hxl]
      have hat : overlay s.owner n s.store t l = s.store l := if_pos hl
      rw [halone t ht, Prog.exec, hat, hoverlay]
    | shrinking hphase hleaves hanswer => exact .shrinking (hphase.2 _) hleaves hanswer

/-- When a task begins to give back, it takes the next place of the order. -/
theorem serial_commit {s : State L V ω} {n : Nat} {origin program : Prog L V ω} {phase : Phase}
    (hn : s.tasks[n]? = some ⟨origin, program, phase⟩)
    (halone : ∀ t, (∀ l, s.owner l = some n → t l = serial s.programs order s₀ l) →
      origin.exec t = program.exec (overlay s.owner n s.store t)) :
    serial s.programs (order ++ [n]) s₀ =
        (program.exec (overlay s.owner n s.store (serial s.programs order s₀))).2 ∧
      Answers s.programs (order ++ [n]) s₀ n origin
        (program.exec (overlay s.owner n s.store (serial s.programs order s₀))).1 := by
  have hp : s.programs[n]? = some origin := by simp [State.programs, hn]
  have hexec := halone _ fun _ _ => rfl
  exact ⟨by rw [serial_concat hp, hexec], order, [], rfl, by rw [hexec]⟩

theorem inv_release {s : State L V ω} (h : Inv s₀ order s) {n : Nat} {origin next : Prog L V ω}
    {l : L} {phase : Phase} (hn : s.tasks[n]? = some ⟨origin, .release l next, phase⟩) :
    Inv s₀ (order ++ if phase = .growing then [n] else [])
      ⟨s.store, Function.update s.owner l none, s.tasks.set n ⟨origin, next, .shrinking⟩⟩ := by
  have howner : s.owner l = some n → ∀ m, m ≠ n → ∀ x,
      Function.update s.owner l none x = some m ↔ s.owner x = some m :=
    fun hl m hmn => update_owner_other hmn (.inr rfl) (.inr hl)
  have howned : owned (Function.update s.owner l none) n = owned s.owner n \ {l} := owned_release
  cases h.good n _ hn with
  | growing hnew hphase halone =>
    obtain ⟨hcommit, hanswer⟩ := serial_commit hn halone
    generalize ho : overlay s.owner n s.store (serial s.programs order s₀) = o at hcommit hanswer
    obtain ⟨hl, hshrinking⟩ := hphase
    have hmine : ∀ x, s.owner x = some n → o x = s.store x := fun x hx => by
      rw [← ho]
      exact if_pos hx
    have hother : ∀ x, s.owner x ≠ some n → o x = serial s.programs order s₀ x := fun x hx => by
      rw [← ho]
      exact if_neg hx
    have hout : ∀ x, x ∉ owned s.owner n \ {l} →
        serial s.programs (order ++ [n]) s₀ x = o x := fun x hx => by
      rw [hcommit]
      exact hshrinking.frame hx
    rw [if_pos rfl]
    refine h.move hn rfl (by rfl) (.inr ⟨rfl, hnew⟩) (howner hl) (fun x m hmn hx => ?_)
      (fun _ _ => rfl) (fun x hx => ?_) ?_
    · have hne : s.owner x ≠ some n := fun hc => hmn (Option.some.inj (hx.symm.trans hc))
      rw [hout x fun hc => hne hc.1, hother x hne]
    · dsimp only at hx ⊢
      by_cases hxl : x = l
      · subst hxl
        rw [hout x fun hc => hc.2 rfl, hmine x hl]
      · rw [Function.update_of_ne hxl] at hx
        have hne : s.owner x ≠ some n := by simp [hx]
        rw [hout x fun hc => hne hc.1, hother x hne, h.free x hx]
    · have hsame : (next.exec o).1 = (next.exec s.store).1 ∧
          ∀ x ∈ owned s.owner n \ {l}, (next.exec o).2 x = (next.exec s.store).2 x :=
        hshrinking.congr fun x hx => hmine x hx.1
      refine .shrinking (howned ▸ hshrinking) (fun x hx => ?_) ?_
      · rw [hcommit]
        exact hsame.2 x (howned ▸ hx : x ∈ owned s.owner n \ {l})
      · rw [← hsame.1]
        exact hanswer
  | shrinking hphase hleaves hanswer =>
    obtain ⟨hl, hshrinking⟩ := hphase
    rw [if_neg (by decide), List.append_nil]
    refine h.move hn rfl (by rfl) (.inl rfl) (howner hl) (fun _ _ _ _ => rfl)
      (fun _ _ => rfl) (fun x hx => ?_) ?_
    · dsimp only at hx ⊢
      by_cases hxl : x = l
      · subst hxl
        have hframe : ((Prog.release x next).exec s.store).2 x = s.store x :=
          hshrinking.frame fun hc => hc.2 rfl
        rw [hleaves x hl, hframe]
      · rw [Function.update_of_ne hxl] at hx
        exact h.free x hx
    · refine .shrinking (howned ▸ hshrinking) (fun x hx => ?_) hanswer
      exact hleaves x (howned ▸ hx : x ∈ owned s.owner n \ {l}).1

theorem inv_done {s : State L V ω} (h : Inv s₀ order s) {n : Nat} {origin : Prog L V ω}
    {answer : ω} {phase : Phase} (hn : s.tasks[n]? = some ⟨origin, .done answer, phase⟩)
    (hbusy : phase ≠ .finished) :
    Inv s₀ (order ++ if phase = .growing then [n] else [])
      ⟨s.store, fun l => if s.owner l = some n then none else s.owner l,
        s.tasks.set n ⟨origin, .done answer, .finished⟩⟩ := by
  have howner : ∀ m, m ≠ n → ∀ x,
      (if s.owner x = some n then none else s.owner x) = some m ↔ s.owner x = some m := by
    intro m hmn x
    split
    · rename_i hx
      rw [hx]
      simpa using Ne.symm hmn
    · exact Iff.rfl
  have hfree : ∀ x, (if s.owner x = some n then none else s.owner x) ≠ some n := by
    intro x
    split
    · simp
    · assumption
  cases h.good n _ hn with
  | growing hnew hphase halone =>
    obtain ⟨hcommit, hanswer⟩ := serial_commit hn halone
    rw [if_pos rfl]
    refine h.move hn rfl (by rfl) (.inr ⟨rfl, hnew⟩) howner (fun x m hmn hx => ?_)
      (fun _ _ => rfl) (fun x hx => ?_) (.finished hfree hanswer)
    · have hne : s.owner x ≠ some n := fun hc => hmn (Option.some.inj (hx.symm.trans hc))
      rw [hcommit]
      exact if_neg hne
    · rw [hcommit]
      dsimp only [Prog.exec, overlay] at hx ⊢
      by_cases hmine : s.owner x = some n
      · rw [if_pos hmine]
      · rw [if_neg hmine] at hx ⊢
        exact h.free x hx
  | shrinking hphase hleaves hanswer =>
    rw [if_neg (by decide), List.append_nil]
    refine h.move hn rfl (by rfl) (.inl rfl) howner (fun _ _ _ _ => rfl) (fun _ _ => rfl)
      (fun x hx => ?_) (.finished hfree hanswer)
    dsimp only at hx ⊢
    by_cases hmine : s.owner x = some n
    · exact (hleaves x hmine).symm
    · rw [if_neg hmine] at hx
      exact h.free x hx
  | finished hfree hanswer => exact absurd rfl hbusy

theorem inv_step {s : State L V ω} (h : Inv s₀ order s) {e : Event L V ω}
    (he : ∀ p, e = .spawn p → p.TwoPhase ∅) :
    Inv s₀ (order ++ (schedule e s).1.toList) (schedule e s).2 := by
  cases e with
  | spawn p =>
    rw [schedule, Option.toList_none, List.append_nil]
    exact inv_spawn h (he p rfl)
  | step n =>
    have hidle : Inv s₀ (order ++ (none : Option Nat).toList) s := by simpa using h
    simp only [schedule]
    cases hn : s.tasks[n]? with
    | none => exact hidle
    | some task =>
      obtain ⟨origin, program, phase⟩ := task
      simp only
      split
      · exact hidle
      · rename_i hbusy
        cases program with
        | done answer =>
          have hdone := inv_done h hn hbusy
          cases phase <;> simpa using hdone
        | acquire l next =>
          simp only
          split
          · simpa using inv_acquire h hn ‹_›
          · exact hidle
        | release l next =>
          have hrelease := inv_release h hn
          cases phase <;> simpa using hrelease
        | act l write next => simpa using inv_act h hn

end Invariant

/-! ## Every run -/

section Runs

variable [DecidableEq L] (s₀ : (l : L) → V l)

def State.start (s₀ : (l : L) → V l) : State L V ω := ⟨s₀, fun _ => none, []⟩

/-- The tasks that begin to give back in a run, in their order. -/
def commits (s : State L V ω) (es : List (Event L V ω)) : List Nat :=
  (outputs schedule s es).filterMap id

theorem commits_append (s : State L V ω) (xs ys : List (Event L V ω)) :
    commits s (xs ++ ys) = commits s xs ++ commits (run schedule s xs) ys := by
  rw [commits, outputs_append, List.filterMap_append, commits, commits]

theorem commits_concat (s : State L V ω) (es : List (Event L V ω)) (e : Event L V ω) :
    commits s (es ++ [e]) = commits s es ++ (schedule e (run schedule s es)).1.toList := by
  rw [commits_append]
  cases h : (schedule e (run schedule s es)).1 <;> simp [commits, h]

theorem inv_run {es : List (Event L V ω)} (hes : ∀ p, .spawn p ∈ es → p.TwoPhase ∅) :
    Inv s₀ (commits (.start s₀) es) (run schedule (.start s₀) es) := by
  induction es using List.reverseRecOn with
  | nil =>
    exact ⟨fun _ _ => rfl, fun n task hn => by simp [State.start] at hn,
      fun l n hl => by simp [State.start] at hl, List.nodup_nil, by simp [commits]⟩
  | append_singleton es e ih =>
    rw [commits_concat, run_concat]
    exact inv_step (ih fun p hp => hes p (List.mem_append_left _ hp))
      fun p hp => hes p (by simp [hp])

theorem programs_step (e : Event L V ω) (s : State L V ω) :
    (schedule e s).2.programs = s.programs ++ spawned [e] := by
  cases e with
  | spawn p => simp [schedule, State.programs, spawned]
  | step n =>
    simp only [schedule, spawned, List.filterMap_cons, List.filterMap_nil, List.append_nil]
    cases hn : s.tasks[n]? with
    | none => rfl
    | some task =>
      obtain ⟨origin, program, phase⟩ := task
      simp only
      split
      · rfl
      · cases program with
        | acquire l next =>
          simp only
          split
          · exact programs_set hn rfl
          · rfl
        | _ => exact programs_set hn rfl

theorem programs_run (es : List (Event L V ω)) :
    (run schedule (.start s₀) es).programs = spawned es := by
  induction es using List.reverseRecOn with
  | nil => rfl
  | append_singleton es e ih =>
    rw [run_concat, programs_step, ih, spawned, spawned, spawned, List.filterMap_append]

/-- The run is that of its tasks one after the other, in the order in which they begin to
give back: as to what is behind the free locks, and as to the answers of the tasks that
have ended. -/
structure Serialized (s₀ : (l : L) → V l) (es : List (Event L V ω)) : Prop where
  nodup : (commits (.start s₀) es).Nodup
  free : ∀ l, (run schedule (.start s₀) es).owner l = none →
    (run schedule (.start s₀) es).store l =
      serial (spawned es) (commits (.start s₀) es) s₀ l
  answers : ∀ n task, (run schedule (.start s₀) es).tasks[n]? = some task →
    task.phase = .finished → ∃ answer, task.program = .done answer ∧
      Answers (spawned es) (commits (.start s₀) es) s₀ n task.origin answer

theorem serialized {es : List (Event L V ω)} (hes : ∀ p, .spawn p ∈ es → p.TwoPhase ∅) :
    Serialized s₀ es := by
  have hinv := inv_run s₀ hes
  have hprograms := programs_run s₀ es
  refine ⟨hinv.order.1, hprograms ▸ hinv.free, fun n task hn hphase => ?_⟩
  rw [← hprograms]
  cases hinv.good n task hn with
  | growing hnew hgrowing halone => cases hphase
  | shrinking hshrinking hleaves hanswer => cases hphase
  | finished hfree hanswer => exact ⟨_, rfl, hanswer⟩

/-- If every task has ended, the store is that of the tasks one after the other. -/
theorem serialized_complete {es : List (Event L V ω)} (hes : ∀ p, .spawn p ∈ es → p.TwoPhase ∅)
    (hall : ∀ task ∈ (run schedule (.start s₀) es).tasks, task.phase = .finished) :
    (run schedule (.start s₀) es).store = serial (spawned es) (commits (.start s₀) es) s₀ ∧
      (commits (.start s₀) es).Perm (List.range (spawned es).length) := by
  have hinv := inv_run s₀ hes
  have hserialized := serialized s₀ hes
  have hlength : (spawned es).length = (run schedule (.start s₀) es).tasks.length := by
    rw [← programs_run s₀ es, State.programs, List.length_map]
  constructor
  · funext l
    refine hserialized.free l (Option.eq_none_iff_forall_ne_some.mpr fun n hl => ?_)
    obtain ⟨task, hn⟩ : ∃ task, (run schedule (.start s₀) es).tasks[n]? = some task :=
      ⟨_, List.getElem?_eq_getElem (hinv.owners l n hl)⟩
    have hphase := hall task (List.mem_of_getElem? hn)
    exact hinv.owner_busy hn hl hphase
  · refine (List.perm_ext_iff_of_nodup hserialized.nodup List.nodup_range).mpr fun n => ?_
    rw [List.mem_range, hlength]
    refine ⟨hinv.order.2 n, fun hlt => ?_⟩
    obtain ⟨answer, -, before, after, horder, -⟩ := hserialized.answers n _
      (List.getElem?_eq_getElem hlt) (hall _ (List.getElem_mem hlt))
    rw [horder]
    simp

/-- A task that has ended before another one starts comes before it. -/
theorem commits_before {xs : List (Event L V ω)} (hxs : ∀ p, .spawn p ∈ xs → p.TwoPhase ∅)
    {n m : Nat} {task : Task L V ω} (hn : (run schedule (.start s₀) xs).tasks[n]? = some task)
    (hphase : task.phase = .finished) (hlate : (spawned xs).length ≤ m) {order : List Nat}
    (horder : commits (.start s₀) xs <+: order) (hm : m ∈ order) :
    ∃ before between after, order = before ++ n :: (between ++ m :: after) := by
  obtain ⟨answer, -, before, after, hcommits, -⟩ :=
    (serialized s₀ hxs).answers n task hn hphase
  have hnot : m ∉ commits (.start s₀) xs := fun hc => by
    have hlt := (inv_run s₀ hxs).order.2 m hc
    rw [← programs_run s₀ xs, State.programs, List.length_map] at hlate
    omega
  obtain ⟨later, rfl⟩ := horder
  obtain ⟨between, rest, hrest⟩ :=
    List.append_of_mem ((List.mem_append.mp hm).resolve_left hnot)
  exact ⟨before, after ++ between, rest, by simp [hcommits, hrest]⟩

theorem serial_invariant {I : ((l : L) → V l) → Prop} {programs : List (Prog L V ω)}
    (hkeep : ∀ p ∈ programs, ∀ s, I s → I (p.exec s).2) (order : List Nat) (hs₀ : I s₀) :
    I (serial programs order s₀) := by
  refine List.foldlRecOn order _ hs₀ fun s hs n _ => ?_
  cases hp : programs[n]? with
  | none => exact hs
  | some p => exact hkeep p (List.mem_of_getElem? hp) s hs

/-- An invariant of what is behind some locks, which every task keeps when it runs alone,
holds in every state in which these locks are free. -/
theorem invariant_of_free {I : ((l : L) → V l) → Prop} {K : Set L}
    (hlocal : ∀ s t, (∀ l ∈ K, s l = t l) → I s → I t) (hs₀ : I s₀)
    {es : List (Event L V ω)} (hes : ∀ p, .spawn p ∈ es → p.TwoPhase ∅)
    (hkeep : ∀ p, .spawn p ∈ es → ∀ s, I s → I (p.exec s).2)
    (hfree : ∀ l ∈ K, (run schedule (.start s₀) es).owner l = none) :
    I (run schedule (.start s₀) es).store :=
  hlocal _ _ (fun l hl => ((serialized s₀ hes).free l (hfree l hl)).symm)
    (serial_invariant s₀ (fun p hp => hkeep p (mem_spawned.mp hp)) _ hs₀)

end Runs

/-! ## Tasks that may be dropped -/

section Limits

/-- The task, dropped after so many steps if there is a limit. A task that is dropped gives
back what it holds. -/
def Prog.limited : Prog L V ω → Option Nat → Prog L V (Option ω)
  | .done answer, limit => .done (if limit = some 0 then none else some answer)
  | .acquire l next, limit =>
    if limit = some 0 then .done none else .acquire l (next.limited (limit.map (· - 1)))
  | .release l next, limit =>
    if limit = some 0 then .done none else .release l (next.limited (limit.map (· - 1)))
  | .act l write next, limit =>
    if limit = some 0 then .done none
    else .act l write fun v => (next v).limited (limit.map (· - 1))

variable {p : Prog L V ω} {held : Set L}

theorem Prog.Shrinking.limited (h : p.Shrinking held) (limit : Option Nat) :
    (p.limited limit).Shrinking held := by
  induction p generalizing held limit with
  | done answer => trivial
  | acquire l next ih => exact h.elim
  | release l next ih =>
    simp only [Prog.limited]
    split
    · trivial
    · exact ⟨h.1, ih h.2 _⟩
  | act l write next ih =>
    simp only [Prog.limited]
    split
    · trivial
    · exact ⟨h.1, fun v => ih v (h.2 v) _⟩

theorem Prog.TwoPhase.limited (h : p.TwoPhase held) (limit : Option Nat) :
    (p.limited limit).TwoPhase held := by
  induction p generalizing held limit with
  | done answer => trivial
  | acquire l next ih =>
    simp only [Prog.limited]
    split
    · trivial
    · exact ⟨h.1, ih h.2 _⟩
  | release l next ih =>
    simp only [Prog.limited]
    split
    · trivial
    · exact ⟨h.1, h.2.limited _⟩
  | act l write next ih =>
    simp only [Prog.limited]
    split
    · trivial
    · exact ⟨h.1, fun v => ih v (h.2 v) _⟩

theorem Prog.Ascending.limited {rank : L → Nat} (h : p.Ascending rank held)
    (limit : Option Nat) : (p.limited limit).Ascending rank held := by
  induction p generalizing held limit with
  | done answer => trivial
  | acquire l next ih =>
    simp only [Prog.limited]
    split
    · trivial
    · exact ⟨h.1, ih h.2 _⟩
  | release l next ih =>
    simp only [Prog.limited]
    split
    · trivial
    · exact ih h _
  | act l write next ih =>
    simp only [Prog.limited]
    split
    · trivial
    · exact fun v => ih v (h v) _

theorem Prog.EndsWithin.limited {k : Nat} (h : p.EndsWithin k) (limit : Option Nat) :
    (p.limited limit).EndsWithin k := by
  induction k generalizing p limit with
  | zero => exact h.elim
  | succ k ih =>
    cases p with
    | done answer => trivial
    | acquire l next =>
      simp only [Prog.limited]
      split
      · trivial
      · exact ih h _
    | release l next =>
      simp only [Prog.limited]
      split
      · trivial
      · exact ih h _
    | act l write next =>
      simp only [Prog.limited]
      split
      · trivial
      · exact fun v => ih (h v) _

theorem Prog.Disciplined.limited {rank : L → Nat} {k : Nat} (h : p.Disciplined rank k held)
    (limit : Option Nat) : (p.limited limit).Disciplined rank k held :=
  ⟨h.twoPhase.limited limit, h.ascending.limited limit, h.endsWithin.limited limit⟩

/-- Without a limit nothing changes. -/
theorem exec_limited_none [DecidableEq L] (p : Prog L V ω) (s : (l : L) → V l) :
    (p.limited none).exec s = (some (p.exec s).1, (p.exec s).2) := by
  induction p generalizing s with
  | done answer => rfl
  | acquire l next ih => exact ih s
  | release l next ih => exact ih s
  | act l write next ih => exact ih _ _

end Limits

end Locks
