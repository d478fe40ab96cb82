import Oxidrop.Events

/-!
# The idle cleanup among packets

The cleanup task reads the entries of a family one by one, collects the keys of
the idle ones, and deletes these one by one. Its lock does not hold the kernel
back: packets look up, refresh and insert entries in between. A step of this
module's machine is one map operation of either party.
-/
namespace Oxidrop.Cleanup

open Run

/-- Both allow lists: a key of one family names an entry in that family's list. -/
abbrev Table := FlowKey → Option AllowListState

def entries (m : Maps) : Table := fun k => (m.cell k).entry

inductive Family where
  | v4 | v6
  deriving DecidableEq, Repr

def familyOf : FlowKey → Family
  | .v4 _ => .v4
  | .v6 _ => .v6

/-- Where the task stands: between two ticks, reading a family's entries, or
deleting the keys that it has collected there. -/
inductive Task where
  | waiting
  | scanning (family : Family) (currentBpfTime : UInt64) (keysToRemove : List FlowKey)
  | removing (family : Family) (currentBpfTime : UInt64) (keysToRemove : List FlowKey)
  deriving DecidableEq, Repr

def Task.keysToRemove : Task → List FlowKey
  | .waiting => []
  | .scanning _ _ keys => keys
  | .removing _ _ keys => keys

/-- The entry is idle by the clock that the task has sampled. -/
def Task.idle (task : Task) (state : AllowListState) : Bool :=
  match task with
  | .waiting => false
  | .scanning _ now _ => expired now state
  | .removing _ now _ => expired now state

/-- A packet without FIN and RST between its lookup and its write. -/
structure Access where
  key : FlowKey
  direction : TraficDirection
  now : UInt64
  found : Option AllowListState
  deriving DecidableEq, Repr

/-- What the packet writes. Through the pointer that it found it refreshes the
entry, if that is still in the table. -/
def Access.write (a : Access) (t : Table) : Table :=
  match a.found with
  | some state =>
    if a.direction = .incoming ∧ state.action ≠ .allow then t
    else
      match t a.key with
      | some current => Function.update t a.key (some { current with lastSeen := a.now })
      | none => t
  | none =>
    match a.direction with
    | .incoming => t
    | .outgoing => Function.update t a.key (some ⟨.allow, a.now⟩)

/-- The packet refreshes an entry or inserts one. -/
def Access.Writes (a : Access) (t : Table) : Prop :=
  match a.found with
  | some state => (a.direction = .outgoing ∨ state.action = .allow) ∧ (t a.key).isSome = true
  | none => a.direction = .outgoing

structure Race where
  table : Table
  task : Task
  flight : List Access

inductive Step where
  | tick (now : UInt64)
  | read (key : FlowKey)
  | scanned
  | remove
  | lookup (key : FlowKey) (direction : TraficDirection) (now : UInt64)
  | write (i : Nat)
  | teardown (key : FlowKey)

/-- One map operation; the answer is the key that the task deletes. -/
def step : Machine Step Race (Option FlowKey)
  | .tick now, s =>
    match s.task with
    | .waiting => (none, { s with task := .scanning .v4 now [] })
    | _ => (none, s)
  | .read key, s =>
    match s.task with
    | .scanning family now keys =>
      if familyOf key = family ∧ (s.table key).any (expired now) = true then
        (none, { s with task := .scanning family now (keys ++ [key]) })
      else (none, s)
    | _ => (none, s)
  | .scanned, s =>
    match s.task with
    | .scanning family now keys => (none, { s with task := .removing family now keys })
    | _ => (none, s)
  | .remove, s =>
    match s.task with
    | .removing family now (key :: keys) =>
      (some key,
        { s with table := Function.update s.table key none, task := .removing family now keys })
    | .removing .v4 now [] => (none, { s with task := .scanning .v6 now [] })
    | .removing .v6 _ [] => (none, { s with task := .waiting })
    | _ => (none, s)
  | .lookup key direction now, s =>
    (none, { s with flight := s.flight ++ [⟨key, direction, now, s.table key⟩] })
  | .write i, s =>
    match s.flight[i]? with
    | some a => (none, { s with table := a.write s.table, flight := s.flight.eraseIdx i })
    | none => (none, s)
  | .teardown key, s => (none, { s with table := Function.update s.table key none })

/-! ## Each party alone -/

theorem entries_setCell (m : Maps) (k : FlowKey) (c : Cell) :
    entries (m.setCell k c) = Function.update (entries m) k c.entry := by
  funext j
  by_cases hj : j = k
  · subst hj
    simp [entries]
  · simp [entries, Maps.cell_setCell_of_ne m c hj, hj]

/-- A packet that is not interrupted between its two steps does what the data
plane does. -/
theorem packet_alone {nt : NetworkTypes} {m : Maps} {ctx : XdpContext} {q : FlowPacket}
    (hi : inspect nt m.toPolicy ctx = .inr q) (ha : q.admitted = true) (hr : q.remove = false) :
    (Access.mk q.key q.direction q.ktimeFlow (entries m q.key)).write (entries m) =
      entries (xdpFirewall nt ctx m).2 := by
  rw [xdpFirewall_inr hi, entries_setCell]
  have hsame : Function.update (entries m) q.key (m.cell q.key).entry = entries m :=
    Function.update_eq_self q.key (entries m)
  by_cases hc : q.direction = .outgoing ∨ (m.cell q.key).allows = true
  · rw [cellStep_tracked ha hr hc]
    cases he : (m.cell q.key).entry with
    | none =>
      have hout : q.direction = .outgoing := by simpa [Cell.allows, he] using hc
      simp [Access.write, entries, he, hout, refresh]
    | some state =>
      have hwrites : ¬ (q.direction = .incoming ∧ state.action ≠ .allow) := by
        rintro ⟨hd, hact⟩
        simp [Cell.allows, he, hd, hact] at hc
      simp [Access.write, entries, he, hwrites, refresh]
  · simp only [not_or, Bool.not_eq_true] at hc
    have hd : q.direction = .incoming := by
      cases h : q.direction with
      | incoming => rfl
      | outgoing => exact absurd h hc.1
    rw [cellStep_no_state hr hd hc.2, hsame]
    cases he : (m.cell q.key).entry with
    | none => simp [Access.write, entries, he, hd]
    | some state =>
      have hact : state.action ≠ .allow := by simpa [Cell.allows, he] using hc.2
      simp [Access.write, entries, he, hd, hact]

/-- The keys among `keys` that a scan of one family collects. -/
def collect (t : Table) (family : Family) (now : UInt64) (keys : List FlowKey) : List FlowKey :=
  keys.filter (fun key => familyOf key = family ∧ (t key).any (expired now) = true)

theorem run_reads (t : Table) (family : Family) (now : UInt64) (acc keys : List FlowKey)
    (flight : List Access) :
    run step ⟨t, .scanning family now acc, flight⟩ (keys.map .read) =
      ⟨t, .scanning family now (acc ++ collect t family now keys), flight⟩ := by
  induction keys generalizing acc with
  | nil => simp [collect]
  | cons key keys ih =>
    by_cases h : familyOf key = family ∧ (t key).any (expired now) = true
    · rw [List.map_cons, run_cons, step]
      simp only [h.1, h.2, and_self, if_true]
      rw [ih, collect, collect, List.filter_cons_of_pos (by simpa using h), List.append_assoc]
      rfl
    · rw [List.map_cons, run_cons, step]
      simp only [h, if_false]
      rw [ih, collect, collect, List.filter_cons_of_neg (by simpa using h)]

theorem run_removes (t : Table) (family : Family) (now : UInt64) (keys : List FlowKey)
    (flight : List Access) :
    run step ⟨t, .removing family now keys, flight⟩ (List.replicate keys.length .remove) =
      ⟨fun k => if k ∈ keys then none else t k, .removing family now [], flight⟩ := by
  induction keys generalizing t with
  | nil => simp
  | cons key keys ih =>
    rw [List.length_cons, List.replicate_succ, run_cons, step]
    simp only
    rw [ih]
    congr 1
    funext k
    by_cases hk : k = key
    · simp [hk]
    · simp [hk]

/-- The steps of one family's round, when nothing comes in between. -/
def round (t : Table) (family : Family) (now : UInt64) (keys : List FlowKey) : List Step :=
  keys.map .read ++ .scanned ::
    (List.replicate (collect t family now keys).length .remove ++ [.remove])

def afterRound (t : Table) (family : Family) (now : UInt64) (keys : List FlowKey) : Table :=
  fun k => if k ∈ collect t family now keys then none else t k

theorem run_round (t : Table) (family : Family) (now : UInt64) (keys : List FlowKey)
    (flight : List Access) :
    run step ⟨t, .scanning family now [], flight⟩ (round t family now keys) =
      ⟨afterRound t family now keys,
        match family with
        | .v4 => .scanning .v6 now []
        | .v6 => .waiting,
        flight⟩ := by
  rw [round, run_append, run_reads, List.nil_append, run_cons, step]
  simp only
  rw [run_append, run_removes, run_cons, run_nil]
  cases family <;> rfl

theorem mem_collect {t : Table} {family : Family} {now : UInt64} {keys : List FlowKey}
    {k : FlowKey} :
    k ∈ collect t family now keys ↔
      k ∈ keys ∧ familyOf k = family ∧ (t k).any (expired now) = true := by
  simp [collect]

/-- A cleanup that nothing interrupts is one event of the firewall's runs. -/
theorem cleanup_alone (m : Maps) (now : UInt64) (keysV4 : List Ipv4Packet)
    (keysV6 : List Ipv6Packet) (flight : List Access) :
    run step ⟨entries m, .waiting, flight⟩
        (.tick now :: (round (entries m) .v4 now (keysV4.map .v4) ++
          round (afterRound (entries m) .v4 now (keysV4.map .v4)) .v6 now (keysV6.map .v6))) =
      ⟨entries (cleanupConnections now keysV4 keysV6 m), .waiting, flight⟩ := by
  rw [run_cons, step]
  simp only
  rw [run_append, run_round]
  simp only
  rw [run_round]
  congr 1
  funext k
  have hyields : Yields keysV4 keysV6 k ↔
      (k ∈ keysV4.map .v4 ∧ familyOf k = .v4) ∨ (k ∈ keysV6.map .v6 ∧ familyOf k = .v6) := by
    cases k <;> simp [Yields, familyOf]
  have hfamily : ¬ (familyOf k = .v4 ∧ familyOf k = .v6) := by
    rintro ⟨h₄, h₆⟩
    rw [h₄] at h₆
    cases h₆
  simp only [afterRound, mem_collect]
  rcases cleanupConnections_cell now keysV4 keysV6 m k with ⟨hy, hx, hcell⟩ | ⟨hn, hcell⟩
  · have hgone : entries (cleanupConnections now keysV4 keysV6 m) k = none := by
      simp only [entries, hcell]
    rw [hgone]
    rcases hyields.mp hy with ⟨hmem, hf⟩ | ⟨hmem, hf⟩
    · simp [hmem, hf, entries, hx]
    · have hf' : familyOf k ≠ .v4 := fun h => hfamily ⟨h, hf⟩
      simp only [hf', false_and, and_false, if_false]
      rw [if_pos ⟨hmem, hf, hx⟩]
  · have hkept : entries (cleanupConnections now keysV4 keysV6 m) k = entries m k := by
      simp only [entries, hcell]
    rw [hkept]
    have h₄ : ¬ (k ∈ keysV4.map .v4 ∧ familyOf k = .v4 ∧
        (entries m k).any (expired now) = true) := by
      rintro ⟨hmem, hf, hx⟩
      exact hn ⟨hyields.mpr (.inl ⟨hmem, hf⟩), hx⟩
    have h₆ : ¬ (k ∈ keysV6.map .v6 ∧ familyOf k = .v6 ∧
        (entries m k).any (expired now) = true) := by
      rintro ⟨hmem, hf, hx⟩
      exact hn ⟨hyields.mpr (.inr ⟨hmem, hf⟩), hx⟩
    rw [if_neg h₄, if_neg h₆]

/-! ## Live flows -/

/-- What the task deletes in this step is idle by the clock it has sampled. -/
def SparesLive (s : Race) (e : Step) : Prop :=
  e = .remove → ∀ k state, s.table k = some state → (step e s).2.table k = none →
    s.task.idle state = true

/-- The step refreshes or re-creates no entry whose key the task has collected,
unless the packet's own clock is as old as the entry has to be. -/
def Undisturbed (s : Race) : Step → Prop
  | .write i => ∀ a, s.flight[i]? = some a → a.key ∈ s.task.keysToRemove → a.Writes s.table →
      s.task.idle ⟨.allow, a.now⟩ = true
  | _ => True

/-- Every collected key names an idle entry, or none. -/
def CollectedIdle (s : Race) : Prop :=
  ∀ k ∈ s.task.keysToRemove, ∀ state, s.table k = some state → s.task.idle state = true

/-- A write reaches the entry of its own key alone, and gives it the packet's
clock. -/
theorem write_cases (a : Access) (t : Table) (k : FlowKey) :
    a.write t k = t k ∨
      (k = a.key ∧ a.Writes t ∧ ∃ state, a.write t k = some state ∧ state.lastSeen = a.now) := by
  obtain ⟨key, direction, now, found⟩ := a
  cases found with
  | some state =>
    by_cases hdenied : direction = .incoming ∧ state.action ≠ .allow
    · exact .inl (by simp only [Access.write, if_pos hdenied])
    · cases hcurrent : t key with
      | none => exact .inl (by simp only [Access.write, if_neg hdenied, hcurrent])
      | some current =>
        by_cases hk : k = key
        · subst hk
          have hwrites : direction = .outgoing ∨ state.action = .allow := by
            cases direction <;> simp_all
          refine .inr
            ⟨rfl, ⟨hwrites, by simp [hcurrent]⟩, { current with lastSeen := now }, ?_, rfl⟩
          simp only [Access.write, if_neg hdenied, hcurrent, Function.update_self]
        · refine .inl ?_
          simp only [Access.write, if_neg hdenied, hcurrent, Function.update_of_ne hk]
  | none =>
    cases direction with
    | incoming => exact .inl rfl
    | outgoing =>
      by_cases hk : k = key
      · subst hk
        exact .inr ⟨rfl, rfl, ⟨.allow, now⟩, by simp [Access.write], rfl⟩
      · exact .inl (by simp [Access.write, hk])

theorem Task.idle_congr (task : Task) {state state' : AllowListState}
    (h : state.lastSeen = state'.lastSeen) : task.idle state = task.idle state' := by
  cases task <;> simp [Task.idle, expired, h]

/-- Taking an entry out of the table disturbs no collected key. -/
theorem CollectedIdle.removed {t : Table} {task : Task} {flight : List Access} {key : FlowKey}
    (h : CollectedIdle ⟨t, task, flight⟩) :
    CollectedIdle ⟨Function.update t key none, task, flight⟩ := by
  intro k hk state hstate
  by_cases hkey : k = key
  · simp [hkey] at hstate
  · simp only [ne_eq, hkey, not_false_eq_true, Function.update_of_ne] at hstate
    exact h k hk state hstate

/-- The task collects the keys of idle entries only. -/
theorem CollectedIdle.collected {t : Table} {family : Family} {now : UInt64}
    {keys : List FlowKey} {flight : List Access} {key : FlowKey}
    (h : CollectedIdle ⟨t, .scanning family now keys, flight⟩)
    (hidle : (t key).any (expired now) = true) :
    CollectedIdle ⟨t, .scanning family now (keys ++ [key]), flight⟩ := by
  intro k hk state hstate
  rcases List.mem_append.mp hk with hk | hk
  · exact h k hk state hstate
  · obtain rfl := List.mem_singleton.mp hk
    simp only at hstate
    rw [hstate] at hidle
    exact hidle

/-- A write that leaves the collected keys undisturbed. -/
theorem CollectedIdle.written {t : Table} {task : Task} {flight flight' : List Access}
    {a : Access} (h : CollectedIdle ⟨t, task, flight⟩)
    (ha : a.key ∈ task.keysToRemove → a.Writes t → task.idle ⟨.allow, a.now⟩ = true) :
    CollectedIdle ⟨a.write t, task, flight'⟩ := by
  intro k hk state hstate
  simp only at hstate
  rcases write_cases a t k with hsame | ⟨rfl, hwrites, state', hstate', hseen⟩
  · rw [hsame] at hstate
    exact h k hk state hstate
  · rw [hstate'] at hstate
    cases hstate
    exact (Task.idle_congr task hseen).trans (ha hk hwrites)

/-- What one step of either party preserves. -/
theorem collectedIdle_step {s : Race} {e : Step} (h : CollectedIdle s) (he : Undisturbed s e) :
    CollectedIdle (step e s).2 := by
  obtain ⟨t, task, flight⟩ := s
  cases e with
  | tick now =>
    cases task with
    | waiting => simp [step, CollectedIdle, Task.keysToRemove]
    | _ => exact h
  | read key =>
    cases task with
    | scanning family now keys =>
      by_cases hidle : familyOf key = family ∧ (t key).any (expired now) = true
      · simp only [step, hidle, and_self, if_true]
        exact h.collected hidle.2
      · simp only [step, hidle, if_false]
        exact h
    | _ => exact h
  | scanned =>
    cases task with
    | scanning family now keys => exact h
    | _ => exact h
  | remove =>
    cases task with
    | removing family now keys =>
      cases keys with
      | nil => cases family <;> simp [step, CollectedIdle, Task.keysToRemove]
      | cons key keys =>
        have htail : CollectedIdle ⟨t, .removing family now keys, flight⟩ :=
          fun k hk state hstate => h k (List.mem_cons_of_mem key hk) state hstate
        exact htail.removed
    | _ => exact h
  | lookup key direction now => exact h
  | write i =>
    cases hi : flight[i]? with
    | none =>
      simp only [step, hi]
      exact h
    | some a =>
      simp only [step, hi]
      exact h.written (he a hi)
  | teardown key => exact h.removed

/-- A step of the task deletes the entry of a collected key. -/
theorem sparesLive_of_collected {s : Race} {e : Step} (h : CollectedIdle s) : SparesLive s e := by
  rintro rfl k state hstate hgone
  obtain ⟨t, task, flight⟩ := s
  cases task with
  | removing family now keys =>
    cases keys with
    | nil =>
      cases family <;> simp [step, hstate] at hgone
    | cons key keys =>
      by_cases hk : k = key
      · subst hk
        exact h k (by simp [Task.keysToRemove]) state hstate
      · simp only [step, Function.update_of_ne hk] at hgone
        simp [hgone] at hstate
  | _ => simp [step, hstate] at hgone

/-- In every interleaving that leaves the collected keys undisturbed, the cleanup
deletes idle entries only. -/
theorem cleanup_spares_live (s : Race) (es : List Step) (hstart : s.task = .waiting)
    (h : Always step Undisturbed s es) : Always step SparesLive s es := by
  have hcollected : CollectedIdle s := by
    intro k hk
    simp [hstart, Task.keysToRemove] at hk
  rw [always_iff]
  intro pre e post hcut
  rw [hcut, always_append] at h
  exact sparesLive_of_collected
    (invariant (fun _ _ hs he => collectedIdle_step hs he) s pre hcollected h.1)

/-! ## Two schedules -/

def flow : FlowKey := .v4 (.new 0x0a000001 0x08080808 443 51000 6)

/-- One entry, last seen at time zero. -/
def oldEntry : Race where
  table := Function.update (fun _ => none) flow (some ⟨.allow, 0⟩)
  task := .waiting
  flight := []

/-- The packet refreshes the entry before the task reads it. -/
def refreshedBefore : List Step :=
  [.tick 600000000001, .lookup flow .outgoing 600000000001, .write 0, .read flow, .scanned, .remove]

/-- The packet refreshes the entry after the task has read it. -/
def refreshedAfter : List Step :=
  [.tick 600000000001, .read flow, .scanned, .lookup flow .outgoing 600000000001, .write 0, .remove]

/-- An entry that the task deletes undisturbed, and one that it leaves alone. -/
theorem spared_schedules :
    Always step SparesLive oldEntry [.tick 600000000001, .read flow, .scanned, .remove] ∧
      (run step oldEntry [.tick 600000000001, .read flow, .scanned, .remove]).table flow = none ∧
      Always step SparesLive oldEntry refreshedBefore ∧
      (run step oldEntry refreshedBefore).table flow = some ⟨.allow, 600000000001⟩ := by
  refine ⟨cleanup_spares_live _ _ rfl ⟨trivial, trivial, trivial, trivial, trivial⟩, by decide,
    cleanup_spares_live _ _ rfl ⟨trivial, trivial, ?_, trivial, trivial, trivial, trivial⟩,
    by decide⟩
  intro a ha hmem
  simp [step, oldEntry, Task.keysToRemove] at hmem

/-- The refreshed entry is deleted with the old clock reading. -/
theorem refreshed_entry_deleted : ¬ Always step SparesLive oldEntry refreshedAfter := by
  rintro ⟨-, -, -, -, -, hremove, -⟩
  have hidle := hremove rfl flow ⟨.allow, 600000000001⟩ (by decide) (by decide)
  revert hidle
  decide

end Oxidrop.Cleanup
