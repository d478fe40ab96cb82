import Oxidrop.Logs

/-!
# The recent logs

`recent` reads the newest 500 entries in the order of their times. Pruning keeps far more
entries, and removes only older ones, so the answer is the end of everything that has
ever been stored.
-/
namespace Oxidrop.Logs

open Run Table Newest

/-- `ORDER BY timestamp DESC, id DESC`. -/
def NewestFirst (a b : LogEntry) : Prop :=
  b.timestamp < a.timestamp ∨ b.timestamp = a.timestamp ∧ b.id ≤ a.id

instance : DecidableRel NewestFirst := fun a b =>
  inferInstanceAs (Decidable (b.timestamp < a.timestamp ∨ b.timestamp = a.timestamp ∧ b.id ≤ a.id))

/-- `LIMIT 500`. -/
def recentLimit : Nat := 500

/-- `LogStore::recent`. -/
def recent (fails : Bool) (t : LogTable) : Except SqlxError (List LogEntry) :=
  if fails then .error .statement else .ok ((t.insertionSort NewestFirst).take recentLimit)

/-- Entries stand in the order of their ids, and of their times. -/
def Chronological (t : LogTable) : Prop :=
  t.Pairwise fun a b => a.id < b.id ∧ a.timestamp ≤ b.timestamp

/-- When an entry is stored, the clock is not behind a time of the table. -/
def Ticking (t : LogTable) (e : LogEvent) : Prop :=
  ∀ env details, e = .record env details → ∀ r ∈ t, r.timestamp ≤ env.now

/-- The entries that the events of a run store, in their order. -/
def storedIn (t : LogTable) (es : List LogEvent) : List LogEntry :=
  (outputs handle t es).filterMap id

section Order

instance : Std.Total NewestFirst where
  total a b := by
    unfold NewestFirst
    omega

instance : IsTrans LogEntry NewestFirst where
  trans a b c := by
    unfold NewestFirst
    omega

theorem recent_chronological {t : LogTable} (ht : Chronological t) :
    recent false t = .ok (t.reverse.take recentLimit) := by
  have hsorted : t.reverse.Pairwise NewestFirst := by
    refine List.pairwise_reverse.mpr (ht.imp fun {a b} h => ?_)
    unfold NewestFirst
    omega
  have hids : (t.map LogEntry.id).Nodup :=
    List.pairwise_map.mpr (ht.imp fun {a b} h => h.1.ne)
  have hperm : (t.insertionSort NewestFirst).Perm t.reverse :=
    (List.perm_insertionSort _ t).trans (List.reverse_perm t).symm
  have hanti : ∀ a b, a ∈ t.insertionSort NewestFirst → b ∈ t.reverse → NewestFirst a b →
      NewestFirst b a → a = b := by
    intro a b ha hb hab hba
    refine List.inj_on_of_nodup_map hids ?_ (List.mem_reverse.mp hb) ?_
    · exact (List.perm_insertionSort _ t).mem_iff.mp ha
    · unfold NewestFirst at hab hba
      omega
  rw [recent, if_neg (by decide),
    hperm.eq_of_pairwise hanti (List.pairwise_insertionSort _ t) hsorted]

end Order

/-! ## Runs -/

section Runs

variable {t : LogTable}

/-- An entry is stored with the time of its statement. -/
theorem insertLog_timestamp {env : LogEnv} {details : LogDetails} {entry : LogEntry}
    (h : (insertLog env details t).1 = .ok entry) : entry.timestamp = env.now := by
  unfold insertLog at h
  simp only at h
  split at h
  · cases h
  · split at h
    · cases h
    · cases h
    · cases h
      rfl

theorem record_timestamp {env : LogEnv} {details : LogDetails} {entry : LogEntry}
    (h : (handle (.record env details) t).1 = some entry) : entry.timestamp = env.now := by
  simp only [handle, recordDetails] at h
  cases hinsert : insertLog env details t with
  | mk result t' =>
    rw [hinsert] at h
    cases result with
    | error e => cases h
    | ok stored =>
      cases h
      exact insertLog_timestamp (congrArg Prod.fst hinsert)

theorem chronological_step {n : Nat} (hready : Ready t (n + 1)) (ht : Chronological t)
    (e : LogEvent) (htick : Ticking t e) : Chronological (handle e t).2 := by
  rcases handle_cases e t with heq | ⟨entry, env, details, rfl, heq, hid⟩ | ⟨-, heq⟩
  · rwa [heq]
  · have hnow : entry.timestamp = env.now := record_timestamp (congrArg Prod.fst heq)
    rw [heq]
    refine List.pairwise_append.mpr ⟨ht, List.pairwise_singleton _ _, fun r hr r' hr' => ?_⟩
    rw [List.mem_singleton.mp hr', hid, hnow]
    exact ⟨(nextRowid_spec hready env.spareId).1 r hr, htick env details rfl r hr⟩
  · rw [heq]
    exact ht.sublist (keep_sublist _ t)

/-- The table holds the end of what has been stored, with everything that the recent
logs are read from. -/
structure Window (all t : LogTable) : Prop where
  suffix : t <:+ all
  full : t = all ∨ recentLimit ≤ t.length

theorem Window.take {all t : LogTable} (h : Window all t) :
    t.reverse.take recentLimit = all.reverse.take recentLimit := by
  rcases h.full with rfl | hlong
  · rfl
  · obtain ⟨pruned, rfl⟩ := h.suffix
    rw [List.reverse_append, List.take_append_of_le_length (by simpa using hlong)]

theorem window_step {n : Nat} {all : LogTable} (hready : Ready t (n + 1)) (ht : Chronological t)
    (h : Window all t) (e : LogEvent) :
    Window (all ++ (handle e t).1.toList) (handle e t).2 := by
  rcases handle_cases e t with heq | ⟨entry, env, details, -, heq, -⟩ | ⟨-, heq⟩
  · rw [heq]
    simpa using h
  · rw [heq]
    obtain ⟨pruned, hpruned⟩ := h.suffix
    refine ⟨⟨pruned, by rw [← hpruned]; simp⟩, h.full.imp (by rintro rfl; rfl) fun hlong => ?_⟩
    rw [List.length_append]
    exact hlong.trans (Nat.le_add_right _ _)
  · rw [heq, Option.toList_none, List.append_nil]
    have hsuffix : keep LogEntry.id MAX_PERSISTED_LOGS t <:+ t :=
      keep_suffix _ (List.pairwise_map.mpr (ht.imp fun {a b} h => h.1))
    have hlength := keep_length (k := MAX_PERSISTED_LOGS) hready.ids
    rcases Nat.le_total t.length MAX_PERSISTED_LOGS with hshort | hlong
    · rw [Nat.min_eq_left hshort] at hlength
      rwa [hsuffix.eq_of_length hlength]
    · rw [Nat.min_eq_right hlong] at hlength
      exact ⟨hsuffix.trans h.suffix, .inr (by rw [hlength]; decide)⟩

theorem storedIn_cons (e : LogEvent) (es : List LogEvent) :
    storedIn t (e :: es) = (handle e t).1.toList ++ storedIn (handle e t).2 es := by
  unfold storedIn
  rw [outputs_cons]
  cases (handle e t).1 <;> rfl

theorem storedIn_append (xs ys : List LogEvent) :
    storedIn t (xs ++ ys) = storedIn t xs ++ storedIn (run handle t xs) ys := by
  induction xs generalizing t with
  | nil => rfl
  | cons e xs ih =>
    rw [List.cons_append, storedIn_cons, storedIn_cons, ih, List.append_assoc]
    rfl

theorem stored_spec {e : LogEvent} {entry : LogEntry} (h : entry ∈ (handle e t).1.toList) :
    (handle e t).2 = t ++ [entry] ∧ ∃ spareId, entry.id = nextRowid spareId t := by
  rw [Option.mem_toList] at h
  rcases handle_cases e t with heq | ⟨stored, env, details, -, heq, hid⟩ | ⟨-, heq⟩
  · rw [heq] at h
    cases h
  · rw [heq] at h ⊢
    cases h
    exact ⟨rfl, env.spareId, hid⟩
  · rw [heq] at h
    cases h

/-- What is stored later has greater ids than what is in the table. -/
theorem lt_storedIn {es : List LogEvent} (hready : Ready t es.length) {r entry : LogEntry}
    (hr : r ∈ t) (hentry : entry ∈ storedIn t es) : r.id < entry.id := by
  induction es generalizing t r with
  | nil => cases hentry
  | cons e es ih =>
    rw [storedIn_cons] at hentry
    rcases List.mem_append.mp hentry with hnow | hlater
    · obtain ⟨-, spareId, hid⟩ := stored_spec hnow
      rw [hid]
      exact (nextRowid_spec hready spareId).1 r hr
    · obtain ⟨r', hr', hle⟩ := top_step hready e hr
      exact hle.trans_lt (ih (ready_step hready e) hr' hlater)

theorem storedIn_ascending {es : List LogEvent} (hready : Ready t es.length) :
    (storedIn t es).Pairwise fun a b => a.id < b.id := by
  induction es generalizing t with
  | nil => exact List.Pairwise.nil
  | cons e es ih =>
    have hready' := ready_step hready e
    rw [storedIn_cons]
    refine List.pairwise_append.mpr ⟨?_, ih hready', fun a ha b hb => ?_⟩
    · cases (handle e t).1 with
      | none => exact List.Pairwise.nil
      | some entry => exact List.pairwise_singleton _ entry
    · refine lt_storedIn hready' ?_ hb
      rw [(stored_spec ha).1]
      exact List.mem_append_right _ (List.mem_singleton.mpr rfl)

theorem window_run {all : LogTable} {es : List LogEvent} (hready : Ready t es.length)
    (ht : Chronological t) (h : Window all t) (htick : Always handle Ticking t es) :
    Window (all ++ storedIn t es) (run handle t es) ∧ Chronological (run handle t es) := by
  induction es generalizing t all with
  | nil => exact ⟨by simpa [storedIn] using h, ht⟩
  | cons e es ih =>
    obtain ⟨hnow, hlater⟩ := htick
    rw [storedIn_cons, ← List.append_assoc]
    exact ih (ready_step hready e) (chronological_step hready ht e hnow)
      (window_step hready ht h e) hlater

/-- However often the table is pruned, the recent logs are the newest 500 of all entries
ever stored, the newest first. -/
theorem recent_newest (t : LogTable) (es : List LogEvent) (hready : Ready t es.length)
    (ht : Chronological t) (htick : Always handle Ticking t es) :
    recent false (run handle t es) = .ok ((t ++ storedIn t es).reverse.take recentLimit) := by
  obtain ⟨hwindow, hchronological⟩ := window_run hready ht ⟨List.suffix_refl t, .inl rfl⟩ htick
  rw [recent_chronological hchronological, hwindow.take]

/-- Three entries, of which two have the same time. -/
def threeRecords : List LogEvent :=
  [.record ⟨5, false, 0⟩ (infoLog "a"), .record ⟨6, false, 0⟩ (infoLog "b"), .prune false,
    .record ⟨6, false, 0⟩ (infoLog "c")]

theorem recent_newest_three :
    (recent false (run handle [] threeRecords)).map (List.map LogEntry.message) =
      .ok ["c", "b", "a"] := by
  have hready : Ready [] threeRecords.length := ⟨by decide, by decide, by simp⟩
  have htick : Always handle Ticking [] threeRecords := by
    refine ⟨?_, ?_, ?_, ?_, trivial⟩
    all_goals
      intro env details h
      cases h
    all_goals decide
  rw [recent_newest [] threeRecords hready List.Pairwise.nil htick]
  decide

end Runs

end Oxidrop.Logs
