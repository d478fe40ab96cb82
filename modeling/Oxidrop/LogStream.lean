import Oxidrop.RecentLogs
import Oxidrop.Lib.Broadcast
import Mathlib.Data.List.Perm.Subperm

/-!
# The log stream

`record_details` stores an entry and then sends it to the web sockets. Between the two
other tasks run, and the task itself may be dropped. A web socket forwards what it
receives until an error: a failing send, or more entries behind than the channel keeps.
-/
namespace Oxidrop.Logs

open Run Broadcast
open scoped List

/-! ## The log store -/

/-- A web socket of `log_websocket`, with the entries that it has sent to the browser. -/
structure LogStream (R : Type) where
  receiver : R
  messages : List LogEntry
  live : Bool

/-- The table, the channel, the entries that are stored and about to be sent, and the
web sockets in the order of their upgrades. -/
structure LogStore (C R : Type) where
  table : LogTable
  tx : C
  unsent : List LogEntry
  streams : List (LogStream R)

/-- `broadcast::channel(256)`. -/
def channelCapacity : Nat := 256

inductive LogStoreEvent where
  | record (env : LogEnv) (details : LogDetails)
  | send (n : Nat)
  | cancel (n : Nat)
  | recordLog (env : LogEnv) (level message : String) (actor : Option String)
  | prune (fails : Bool)
  | logWebsocket
  | stream (n : Nat) (socketFails : Bool)

section Model

variable {C R : Type} (lib : ChannelLib C R LogEntry)

/-- One round of the loop in `stream_logs`. The entry of a failing send is lost. -/
def streamLogs (socketFails : Bool) (s : LogStream R) (tx : C) : LogStream R × C :=
  if s.live then
    match lib.recv s.receiver tx with
    | (none, r, tx) => ({ s with receiver := r }, tx)
    | (some (.error _), r, tx) => ({ s with receiver := r, live := false }, tx)
    | (some (.ok entry), r, tx) =>
      if socketFails then ({ s with receiver := r, live := false }, tx)
      else ({ s with receiver := r, messages := s.messages ++ [entry] }, tx)
  else (s, tx)

/-- The answer is the entry that is stored, if one is. -/
def handleStore : Machine LogStoreEvent (LogStore C R) (Option LogEntry)
  | .record env details, s =>
    match recordDetails env details s.table with
    | (stored, table) => (stored, { s with table := table, unsent := s.unsent ++ stored.toList })
  | .send n, s =>
    match s.unsent[n]? with
    | none => (none, s)
    | some entry => (none, { s with tx := lib.send entry s.tx, unsent := s.unsent.eraseIdx n })
  | .cancel n, s => (none, { s with unsent := s.unsent.eraseIdx n })
  | .recordLog env level message actor, s =>
    (none, { s with table := (recordLog env level message actor s.table).2 })
  | .prune fails, s => (none, { s with table := prune fails s.table })
  | .logWebsocket, s =>
    match lib.subscribe s.tx with
    | (r, tx) => (none, { s with tx := tx, streams := s.streams ++ [⟨r, [], true⟩] })
  | .stream n socketFails, s =>
    match s.streams[n]? with
    | none => (none, s)
    | some stream =>
      match streamLogs lib socketFails stream s.tx with
      | (stream, tx) => (none, { s with tx := tx, streams := s.streams.set n stream })

end Model

/-! ## The table -/

section Table

variable {C R : Type} {lib : ChannelLib C R LogEntry}

/-- What an event does to the table. `record_log` inserts as `record_details` does. -/
def LogStoreEvent.statements : LogStoreEvent → List LogEvent
  | .record env details => [.record env details]
  | .recordLog env level message actor =>
    [.record env ⟨level, message, actor, none, none, none, none, none, none⟩]
  | .prune fails => [.prune fails]
  | _ => []

theorem recordLog_table (env : LogEnv) (level message : String) (actor : Option String)
    (t : LogTable) : (recordLog env level message actor t).2 =
      (recordDetails env ⟨level, message, actor, none, none, none, none, none, none⟩ t).2 := by
  unfold recordLog recordDetails
  cases insertLog env _ t with
  | mk result t' => cases result <;> rfl

theorem table_step (lib : ChannelLib C R LogEntry) (e : LogStoreEvent) (s : LogStore C R) :
    (handleStore lib e s).2.table = run handle s.table e.statements ∧
      (handleStore lib e s).1.toList.Sublist (storedIn s.table e.statements) := by
  cases e with
  | record env details =>
    refine ⟨rfl, ?_⟩
    rw [LogStoreEvent.statements, storedIn_cons]
    exact List.sublist_append_left _ _
  | send n =>
    simp only [handleStore]
    cases s.unsent[n]? <;> exact ⟨rfl, List.nil_sublist _⟩
  | cancel n => exact ⟨rfl, List.nil_sublist _⟩
  | recordLog env level message actor => exact ⟨recordLog_table .., List.nil_sublist _⟩
  | prune fails => exact ⟨rfl, List.nil_sublist _⟩
  | logWebsocket => exact ⟨rfl, List.nil_sublist _⟩
  | stream n socketFails =>
    simp only [handleStore]
    cases s.streams[n]? <;> exact ⟨rfl, List.nil_sublist _⟩

/-- What `record_details` stores in a run. -/
def recordedIn (lib : ChannelLib C R LogEntry) (s : LogStore C R) (es : List LogStoreEvent) :
    List LogEntry :=
  (outputs (handleStore lib) s es).filterMap id

theorem recordedIn_cons (s : LogStore C R) (e : LogStoreEvent) (es : List LogStoreEvent) :
    recordedIn lib s (e :: es) =
      (handleStore lib e s).1.toList ++ recordedIn lib (handleStore lib e s).2 es := by
  unfold recordedIn
  rw [outputs_cons]
  cases (handleStore lib e s).1 <;> rfl

theorem table_run (lib : ChannelLib C R LogEntry) (s : LogStore C R) (es : List LogStoreEvent) :
    (run (handleStore lib) s es).table =
        run handle s.table (es.flatMap LogStoreEvent.statements) ∧
      (recordedIn lib s es).Sublist (storedIn s.table (es.flatMap LogStoreEvent.statements)) := by
  induction es generalizing s with
  | nil => exact ⟨rfl, List.Sublist.refl _⟩
  | cons e es ih =>
    obtain ⟨htable, hstored⟩ := table_step lib e s
    obtain ⟨ihtable, ihstored⟩ := ih (handleStore lib e s).2
    rw [htable] at ihtable ihstored
    rw [List.flatMap_cons, run_cons, run_append, storedIn_append, recordedIn_cons]
    exact ⟨ihtable, hstored.append ihstored⟩

theorem length_statements (e : LogStoreEvent) : e.statements.length ≤ 1 := by
  cases e <;> simp [LogStoreEvent.statements]

theorem length_flatMap_statements (es : List LogStoreEvent) :
    (es.flatMap LogStoreEvent.statements).length ≤ es.length := by
  induction es with
  | nil => exact le_refl _
  | cons e es ih =>
    rw [List.flatMap_cons, List.length_append, List.length_cons]
    have := length_statements e
    omega

end Table

/-! ## What is sent -/

section Sent

variable {C R : Type} {lib : ChannelLib C R LogEntry} {capacity : Nat}

/-- The entries that are sent between two states. -/
def newsOf (lib : ChannelLib C R LogEntry) (s s' : LogStore C R) : List LogEntry :=
  (lib.sent s'.tx).drop (lib.sent s.tx).length

theorem streamLogs_sent (hlib : lib.Lawful capacity) (socketFails : Bool) (stream : LogStream R)
    (tx : C) : lib.sent (streamLogs lib socketFails stream tx).2 = lib.sent tx := by
  have hsent := hlib.sent_recv stream.receiver tx
  unfold streamLogs
  cases stream.live with
  | false => rfl
  | true =>
    generalize lib.recv stream.receiver tx = received at hsent ⊢
    rcases received with ⟨_ | _ | _, r, tx'⟩
    · exact hsent
    · exact hsent
    · cases socketFails <;> exact hsent

/-- Between two states, what was about to be sent or is stored meanwhile is sent once,
or is still about to be sent, or its task is one of those that are dropped. -/
structure Sends (lib : ChannelLib C R LogEntry) (cancels : Nat) (s : LogStore C R)
    (stored : List LogEntry) (s' : LogStore C R) : Prop where
  grows : lib.sent s.tx <+: lib.sent s'.tx
  accounted : ∃ dropped : List LogEntry, dropped.length ≤ cancels ∧
    (newsOf lib s s' ++ (s'.unsent ++ dropped)).Perm (s.unsent ++ stored)

theorem Sends.quiet {s s' : LogStore C R} (hsent : lib.sent s'.tx = lib.sent s.tx)
    (hunsent : s'.unsent = s.unsent) : Sends lib 0 s [] s' := by
  refine ⟨by rw [hsent], [], le_refl _, ?_⟩
  rw [newsOf, hsent, hunsent, List.drop_length, List.nil_append]

theorem newsOf_append {s s' s'' : LogStore C R} (h : lib.sent s.tx <+: lib.sent s'.tx)
    (h' : lib.sent s'.tx <+: lib.sent s''.tx) :
    newsOf lib s s'' = newsOf lib s s' ++ newsOf lib s' s'' := by
  obtain ⟨xs, hxs⟩ := h
  obtain ⟨ys, hys⟩ := h'
  unfold newsOf
  rw [← hys, ← hxs, List.append_assoc, List.drop_left, List.drop_left, ← List.append_assoc,
    List.drop_left]

theorem Sends.trans {s s' s'' : LogStore C R} {stored stored' : List LogEntry} {k k' : Nat}
    (h : Sends lib k s stored s') (h' : Sends lib k' s' stored' s'') :
    Sends lib (k + k') s (stored ++ stored') s'' := by
  obtain ⟨dropped, hk, hperm⟩ := h.accounted
  obtain ⟨dropped', hk', hperm'⟩ := h'.accounted
  refine ⟨h.grows.trans h'.grows, dropped' ++ dropped, ?_, ?_⟩
  · rw [List.length_append]
    omega
  rw [newsOf_append h.grows h'.grows]
  calc newsOf lib s s' ++ newsOf lib s' s'' ++ (s''.unsent ++ (dropped' ++ dropped))
    _ = newsOf lib s s' ++ ((newsOf lib s' s'' ++ (s''.unsent ++ dropped')) ++ dropped) := by
      simp only [List.append_assoc]
    _ ~ newsOf lib s s' ++ ((s'.unsent ++ stored') ++ dropped) :=
      (hperm'.append_right _).append_left _
    _ ~ newsOf lib s s' ++ ((s'.unsent ++ dropped) ++ stored') := by
      rw [List.append_assoc, List.append_assoc]
      exact (List.perm_append_comm.append_left _).append_left _
    _ = (newsOf lib s s' ++ (s'.unsent ++ dropped)) ++ stored' := by
      simp only [List.append_assoc]
    _ ~ (s.unsent ++ stored) ++ stored' := hperm.append_right _
    _ = s.unsent ++ (stored ++ stored') := List.append_assoc ..

/-- A task that is dropped between its statement and its send. -/
def LogStoreEvent.isCancel : LogStoreEvent → Bool
  | .cancel _ => true
  | _ => false

theorem sends_step (hlib : lib.Lawful capacity) (e : LogStoreEvent) (s : LogStore C R) :
    Sends lib ([e].countP LogStoreEvent.isCancel) s (handleStore lib e s).1.toList
      (handleStore lib e s).2 := by
  cases e with
  | record env details =>
    refine ⟨List.prefix_refl _, [], le_refl _, ?_⟩
    simp [newsOf, handleStore]
  | send n =>
    simp only [handleStore]
    cases hn : s.unsent[n]? with
    | none => exact .quiet rfl rfl
    | some entry =>
      obtain ⟨hlt, rfl⟩ := List.getElem?_eq_some_iff.mp hn
      refine ⟨by rw [hlib.sent_send]; exact List.prefix_append _ _, [], le_refl _, ?_⟩
      simp only [newsOf, hlib.sent_send, List.drop_left]
      simpa using List.getElem_cons_eraseIdx_perm hlt
  | cancel n =>
    by_cases hlt : n < s.unsent.length
    · refine ⟨List.prefix_refl _, [s.unsent[n]], le_refl _, ?_⟩
      simp only [newsOf, handleStore, List.drop_length, List.nil_append, Option.toList_none,
        List.append_nil]
      exact List.perm_append_comm.trans (List.getElem_cons_eraseIdx_perm hlt)
    · refine ⟨List.prefix_refl _, [], Nat.zero_le _, ?_⟩
      simp [newsOf, handleStore, List.eraseIdx_of_length_le (not_lt.mp hlt)]
  | recordLog env level message actor => exact .quiet rfl rfl
  | prune fails => exact .quiet rfl rfl
  | logWebsocket => exact .quiet (hlib.sent_subscribe _) rfl
  | stream n socketFails =>
    simp only [handleStore]
    cases s.streams[n]? with
    | none => exact .quiet rfl rfl
    | some stream => exact .quiet (streamLogs_sent hlib ..) rfl

theorem sends_run (hlib : lib.Lawful capacity) (s : LogStore C R) (es : List LogStoreEvent) :
    Sends lib (es.countP LogStoreEvent.isCancel) s (recordedIn lib s es)
      (run (handleStore lib) s es) := by
  induction es generalizing s with
  | nil => exact .quiet rfl rfl
  | cons e es ih =>
    rw [recordedIn_cons, ← List.singleton_append, List.countP_append]
    exact (sends_step hlib e s).trans (ih _)

end Sent

/-! ## One web socket -/

section Stream

variable {C R : Type} {lib : ChannelLib C R LogEntry} {start n : Nat}

/-- The web socket subscribed when `start` entries had been sent. It has forwarded the
ones after them, and while its loop runs it has missed none. -/
structure Forwards (lib : ChannelLib C R LogEntry) (start : Nat) (tx : C) (stream : LogStream R) :
    Prop where
  begun : start ≤ (lib.sent tx).length
  inOrder : stream.messages <+: (lib.sent tx).drop start
  follows : stream.live = true → Follows lib start stream.messages stream.receiver tx

theorem Forwards.mono {tx tx' : C} {stream : LogStream R} (h : Forwards lib start tx stream)
    (hsent : lib.sent tx <+: lib.sent tx') : Forwards lib start tx' stream :=
  ⟨h.begun.trans hsent.length_le, h.inOrder.trans (List.IsPrefix.drop hsent start),
    fun hlive => (h.follows hlive).mono hsent⟩

/-- The loop of a web socket ends when a send fails, or when the web socket is further
behind than the channel keeps entries. -/
def Ends (lib : ChannelLib C R LogEntry) (start : Nat) (socketFails : Bool) (tx : C)
    (stream : LogStream R) : Prop :=
  socketFails = true ∨
    stream.messages.length + channelCapacity < ((lib.sent tx).drop start).length

theorem streamLogs_forwards (hlib : lib.Lawful channelCapacity) (socketFails : Bool) {tx : C}
    {stream : LogStream R} (h : Forwards lib start tx stream) :
    Forwards lib start (streamLogs lib socketFails stream tx).2
        (streamLogs lib socketFails stream tx).1 ∧
      (stream.live = true → (streamLogs lib socketFails stream tx).1.live = false →
        Ends lib start socketFails tx stream) := by
  have hsent := streamLogs_sent hlib socketFails stream tx
  unfold streamLogs at hsent ⊢
  cases hlive : stream.live with
  | false => exact ⟨h, fun hc => absurd hc (by simp)⟩
  | true =>
    have hcases := (h.follows hlive).recv_cases hlib h.begun
    simp only [hlive, if_true] at hsent ⊢
    generalize lib.recv stream.receiver tx = received at hcases hsent ⊢
    obtain ⟨result, r, tx'⟩ := received
    dsimp only at hcases
    rcases hcases with ⟨rfl, -, hfollows⟩ | ⟨entry, rfl, hfollows⟩ | ⟨⟨e, rfl⟩, hbehind⟩
    · dsimp only at hsent ⊢
      exact ⟨⟨hsent ▸ h.begun, hsent ▸ h.inOrder, fun _ => hfollows⟩, fun _ hc => by cases hc⟩
    · cases socketFails with
      | true =>
        exact ⟨⟨hsent ▸ h.begun, hsent ▸ h.inOrder, fun hc => by cases hc⟩, fun _ _ => .inl rfl⟩
      | false =>
        exact ⟨⟨hsent ▸ h.begun, hfollows.inOrder, fun _ => hfollows⟩, fun _ hc => by cases hc⟩
    · exact ⟨⟨hsent ▸ h.begun, hsent ▸ h.inOrder, fun hc => by cases hc⟩, fun _ _ => .inr hbehind⟩

/-- What one event does to a web socket: a round of its loop, or nothing. -/
theorem stream_step (lib : ChannelLib C R LogEntry) (e : LogStoreEvent) {s : LogStore C R}
    {stream : LogStream R} (hn : s.streams[n]? = some stream) :
    (handleStore lib e s).2.streams[n]? = some stream ∨
      ∃ socketFails, e = .stream n socketFails ∧
        (handleStore lib e s).2.streams[n]? =
          some (streamLogs lib socketFails stream s.tx).1 ∧
        (handleStore lib e s).2.tx = (streamLogs lib socketFails stream s.tx).2 := by
  obtain ⟨hlt, -⟩ := List.getElem?_eq_some_iff.mp hn
  cases e with
  | record env details => exact .inl hn
  | send m =>
    simp only [handleStore]
    cases s.unsent[m]? <;> exact .inl hn
  | cancel m => exact .inl hn
  | recordLog env level message actor => exact .inl hn
  | prune fails => exact .inl hn
  | logWebsocket => exact .inl (by simpa only [handleStore, List.getElem?_append_left hlt] using hn)
  | stream m socketFails =>
    by_cases hm : m = n
    · subst hm
      refine .inr ⟨socketFails, rfl, ?_⟩
      simp only [handleStore, hn]
      exact ⟨List.getElem?_set_self hlt, trivial⟩
    · left
      simp only [handleStore]
      cases s.streams[m]? with
      | none => exact hn
      | some other =>
        rw [List.getElem?_set_ne hm]
        exact hn

/-- The loop of the web socket ends at an event of the run. -/
def EndsIn (lib : ChannelLib C R LogEntry) (start n : Nat) (s : LogStore C R)
    (es : List LogStoreEvent) : Prop :=
  ∃ mid socketFails fin stream, es = mid ++ .stream n socketFails :: fin ∧
    (run (handleStore lib) s mid).streams[n]? = some stream ∧
    Ends lib start socketFails (run (handleStore lib) s mid).tx stream

theorem EndsIn.cons {s : LogStore C R} {e : LogStoreEvent} {es : List LogStoreEvent}
    (h : EndsIn lib start n (handleStore lib e s).2 es) : EndsIn lib start n s (e :: es) := by
  obtain ⟨mid, socketFails, fin, stream, rfl, hstream, hends⟩ := h
  exact ⟨e :: mid, socketFails, fin, stream, rfl, hstream, hends⟩

theorem forwards_run (hlib : lib.Lawful channelCapacity) {s : LogStore C R}
    {stream : LogStream R} (hn : s.streams[n]? = some stream)
    (h : Forwards lib start s.tx stream) (es : List LogStoreEvent) :
    ∃ stream', (run (handleStore lib) s es).streams[n]? = some stream' ∧
      Forwards lib start (run (handleStore lib) s es).tx stream' ∧
      (stream.live = true → stream'.live = false → EndsIn lib start n s es) := by
  induction es generalizing s stream with
  | nil => exact ⟨stream, hn, h, fun hlive hdead => by rw [hlive] at hdead; cases hdead⟩
  | cons e es ih =>
    rcases stream_step lib e hn with hsame | ⟨socketFails, rfl, hround, htx⟩
    · obtain ⟨stream', hn', h', hends⟩ := ih hsame (h.mono (sends_step hlib e s).grows)
      exact ⟨stream', hn', h', fun hlive hdead => (hends hlive hdead).cons⟩
    · obtain ⟨hforwards, hends⟩ := streamLogs_forwards hlib socketFails h
      rw [← htx] at hforwards
      obtain ⟨stream', hn', h', hlater⟩ := ih hround hforwards
      refine ⟨stream', hn', h', fun hlive hdead => ?_⟩
      cases hround' : (streamLogs lib socketFails stream s.tx).1.live with
      | true => exact (hlater hround' hdead).cons
      | false => exact ⟨[], socketFails, es, stream, rfl, hn, hends hlive hround'⟩

end Stream

/-! ## Every run -/

section Runs

variable {C R : Type} (lib : ChannelLib C R LogEntry)

/-- What the web socket that is upgraded after `pre` has forwarded by the end of `post`:
what has been sent since, in this order, without a gap and nothing twice, and all of it
when its loop runs and waits. The loop ends only where it must. -/
structure Delivers (s₀ : LogStore C R) (pre post : List LogStoreEvent) (stream : LogStream R) :
    Prop where
  inOrder : stream.messages <+: newsOf lib (run (handleStore lib) s₀ pre)
    (run (handleStore lib) s₀ (pre ++ .logWebsocket :: post))
  complete : stream.live = true →
    (lib.recv stream.receiver
      (run (handleStore lib) s₀ (pre ++ .logWebsocket :: post)).tx).1 = none →
    stream.messages = newsOf lib (run (handleStore lib) s₀ pre)
      (run (handleStore lib) s₀ (pre ++ .logWebsocket :: post))
  ended : stream.live = false →
    EndsIn lib (lib.sent (run (handleStore lib) s₀ pre).tx).length
      (run (handleStore lib) s₀ pre).streams.length
      (run (handleStore lib) s₀ (pre ++ [.logWebsocket])) post
  recorded : ∀ entry ∈ stream.messages, entry ∈ recordedIn lib s₀ (pre ++ .logWebsocket :: post)
  once : (stream.messages.map LogEntry.id).Nodup

variable {lib}

theorem Ready.mono {t : LogTable} {m n : Nat} (h : Ready t n) (hle : m ≤ n) : Ready t m :=
  ⟨h.ids, hle.trans_lt h.room.1, fun r hr => by have := h.room.2 r hr; omega⟩

/-- Recorded entries have distinct ids. -/
theorem recordedIn_ids (lib : ChannelLib C R LogEntry) {s : LogStore C R} {es : List LogStoreEvent}
    (hready : Ready s.table es.length) : ((recordedIn lib s es).map LogEntry.id).Nodup := by
  have hascending := storedIn_ascending (hready.mono (length_flatMap_statements es))
  have hsub := (table_run lib s es).2
  exact List.pairwise_map.mpr ((hascending.sublist hsub).imp fun {a b} h => h.ne)

/-- The upgrade subscribes to what is sent from then on. -/
theorem logWebsocket_forwards (hlib : lib.Lawful channelCapacity) (s : LogStore C R) :
    ∃ stream, (handleStore lib .logWebsocket s).2.streams[s.streams.length]? = some stream ∧
      stream.live = true ∧
      Forwards lib (lib.sent s.tx).length (handleStore lib .logWebsocket s).2.tx stream := by
  have hsent := hlib.sent_subscribe s.tx
  refine ⟨⟨(lib.subscribe s.tx).1, [], true⟩, ?_, rfl, ?_⟩
  · simp [handleStore]
  · exact ⟨hsent ▸ le_refl _, List.nil_prefix, fun _ => .subscribed hlib s.tx⟩

theorem delivers_run (hlib : lib.Lawful channelCapacity) (s₀ : LogStore C R)
    (h₀ : s₀.unsent = []) (pre post : List LogStoreEvent)
    (hready : Ready s₀.table (pre ++ .logWebsocket :: post).length) :
    ∃ stream, (run (handleStore lib) s₀ (pre ++ .logWebsocket :: post)).streams[
        (run (handleStore lib) s₀ pre).streams.length]? = some stream ∧
      Delivers lib s₀ pre post stream := by
  have hids := recordedIn_ids lib hready
  obtain ⟨stream, hstream, hlive, hforwards⟩ :=
    logWebsocket_forwards hlib (run (handleStore lib) s₀ pre)
  obtain ⟨stream', hstream', hforwards', hends⟩ := forwards_run hlib hstream hforwards post
  have hrun : run (handleStore lib) s₀ (pre ++ .logWebsocket :: post) =
      run (handleStore lib) (handleStore lib .logWebsocket (run (handleStore lib) s₀ pre)).2
        post := by
    rw [run_append, run_cons]
  -- What has been forwarded is among what has been sent since the start of the run.
  have hgrows := (sends_run hlib s₀ pre).grows
  have hlater := (sends_run hlib (run (handleStore lib) s₀ pre) (.logWebsocket :: post)).grows
  rw [← run_append] at hlater
  have hsub : stream'.messages.Sublist
      (newsOf lib s₀ (run (handleStore lib) s₀ (pre ++ .logWebsocket :: post))) := by
    rw [newsOf_append hgrows hlater, hrun]
    exact hforwards'.inOrder.sublist.trans (List.sublist_append_right _ _)
  obtain ⟨dropped, -, hperm⟩ := (sends_run hlib s₀ (pre ++ .logWebsocket :: post)).accounted
  rw [h₀, List.nil_append] at hperm
  refine ⟨stream', hrun ▸ hstream', ?_, ?_, ?_, ?_, ?_⟩
  · rw [hrun]
    exact hforwards'.inOrder
  · rw [hrun]
    intro hlive' hwaits
    rcases (hforwards'.follows hlive').recv_cases hlib hforwards'.begun with
      ⟨-, hall, -⟩ | ⟨entry, hsome, -⟩ | ⟨⟨e, hsome⟩, -⟩
    · exact hall
    · rw [hwaits] at hsome
      cases hsome
    · rw [hwaits] at hsome
      cases hsome
  · rw [run_concat]
    exact hends hlive
  · intro entry hentry
    exact hperm.mem_iff.mp (List.mem_append_left _ (hsub.subset hentry))
  · rw [← (hperm.map LogEntry.id).nodup_iff, List.map_append] at hids
    exact (hids.of_append_left).sublist (hsub.map _)

/-- Every web socket forwards what is sent after its upgrade, in order and once, until
its send fails or it is more than 256 entries behind; and what is sent are the entries
that are stored, each once, except those that are still to be sent and those whose task
is dropped. -/
theorem stream_delivers (hlib : lib.Lawful channelCapacity) (s₀ : LogStore C R)
    (h₀ : s₀.unsent = []) (pre post : List LogStoreEvent)
    (hready : Ready s₀.table (pre ++ .logWebsocket :: post).length) :
    Sends lib ((pre ++ .logWebsocket :: post).countP LogStoreEvent.isCancel) s₀
        (recordedIn lib s₀ (pre ++ .logWebsocket :: post))
        (run (handleStore lib) s₀ (pre ++ .logWebsocket :: post)) ∧
      ∃ stream,
        (run (handleStore lib) s₀ (pre ++ .logWebsocket :: post)).streams[
            (run (handleStore lib) s₀ pre).streams.length]? = some stream ∧
          Delivers lib s₀ pre post stream :=
  ⟨sends_run hlib s₀ _, delivers_run hlib s₀ h₀ pre post hready⟩

end Runs

/-- A web socket is upgraded after one entry is sent. Of the three entries that are stored
after it, the task of one is dropped, and the others are sent in the opposite order. -/
def oneStream : List LogStoreEvent :=
  [.record ⟨1, false, 0⟩ (infoLog "b"), .record ⟨1, false, 0⟩ (infoLog "c"), .send 1,
    .stream 0 false, .send 0, .record ⟨2, false, 0⟩ (infoLog "d"), .cancel 0, .stream 0 false,
    .stream 0 false]

def emptyStore : LogStore (List LogEntry) Nat := ⟨[], [], [], []⟩

theorem stream_delivers_oneStream :
    ∃ stream, (run (handleStore (unbounded channelCapacity)) emptyStore
        ([.record ⟨1, false, 0⟩ (infoLog "a"), .send 0] ++
          .logWebsocket :: oneStream)).streams[0]? = some stream ∧
      Delivers (unbounded channelCapacity) emptyStore
        [.record ⟨1, false, 0⟩ (infoLog "a"), .send 0] oneStream stream :=
  (stream_delivers (unbounded_lawful channelCapacity) emptyStore rfl _ oneStream
    ⟨by decide, by decide, by simp [emptyStore]⟩).2

end Oxidrop.Logs
