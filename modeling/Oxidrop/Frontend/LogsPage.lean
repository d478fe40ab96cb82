import Oxidrop.LogStream

/-!
# The page of the logs

The page reads the recent logs, then opens a web socket, and puts every entry that comes
in before the ones it has. If nothing is stored between the two and entries are sent in
the order in which they are stored, it always shows what it would read.
-/
namespace Oxidrop.LogsPage

open Run Broadcast Oxidrop.Logs

/-- `setEntries((current) => [entry, ...current].slice(0, 500))`. -/
def onmessage (current : List LogEntry) (entry : LogEntry) : List LogEntry :=
  (entry :: current).take 500

/-- The entries of the page after the messages of its web socket. -/
def entries (initial messages : List LogEntry) : List LogEntry := messages.foldl onmessage initial

theorem entries_eq {initial : List LogEntry} (hinitial : initial.length ≤ 500)
    (messages : List LogEntry) :
    entries initial messages = (messages.reverse ++ initial).take 500 := by
  induction messages using List.reverseRecOn with
  | nil => exact (List.take_of_length_le hinitial).symm
  | append_singleton messages entry ih =>
    unfold entries at ih ⊢
    rw [List.foldl_append, ih, List.reverse_append]
    simp [onmessage, List.take_take]

/-- Entries are sent in the order in which they are stored, and none is left out. -/
def InTurn : LogStoreEvent → Prop
  | .send n => n = 0
  | .cancel _ => False
  | .recordLog .. => False
  | _ => True

section Runs

variable {C R : Type} {lib : ChannelLib C R LogEntry} {capacity : Nat}

/-- If every send is in turn, what is sent is the beginning of what is stored. -/
theorem inTurn_step (hlib : lib.Lawful capacity) {e : LogStoreEvent} (he : InTurn e)
    (s : LogStore C R) :
    lib.sent (handleStore lib e s).2.tx ++ (handleStore lib e s).2.unsent =
      lib.sent s.tx ++ s.unsent ++ (handleStore lib e s).1.toList ∧
    storedIn s.table e.statements = (handleStore lib e s).1.toList := by
  cases e with
  | record env details =>
    refine ⟨by simp [handleStore], ?_⟩
    rw [LogStoreEvent.statements, storedIn_cons]
    exact List.append_nil _
  | send n =>
    obtain rfl : n = 0 := he
    simp only [handleStore]
    cases hunsent : s.unsent with
    | nil => exact ⟨by simp [hunsent], rfl⟩
    | cons entry unsent =>
      refine ⟨?_, rfl⟩
      simp [hlib.sent_send]
  | cancel n => exact he.elim
  | recordLog env level message actor => exact he.elim
  | prune fails => exact ⟨by simp [handleStore], rfl⟩
  | logWebsocket => exact ⟨by simp [handleStore, hlib.sent_subscribe], rfl⟩
  | stream n socketFails =>
    simp only [handleStore]
    cases s.streams[n]? with
    | none => exact ⟨by simp, rfl⟩
    | some stream => exact ⟨by simp [streamLogs_sent hlib], rfl⟩

theorem inTurn_run (hlib : lib.Lawful capacity) (s : LogStore C R) {es : List LogStoreEvent}
    (hes : ∀ e ∈ es, InTurn e) :
    lib.sent (run (handleStore lib) s es).tx ++ (run (handleStore lib) s es).unsent =
      lib.sent s.tx ++ s.unsent ++ storedIn s.table (es.flatMap LogStoreEvent.statements) := by
  induction es generalizing s with
  | nil => simp [storedIn]
  | cons e es ih =>
    obtain ⟨hsent, hstored⟩ := inTurn_step hlib (hes e (List.mem_cons_self ..)) s
    have htable := (table_step lib e s).1
    rw [run_cons, ih _ fun x hx => hes x (List.mem_cons_of_mem _ hx), hsent, List.flatMap_cons,
      storedIn_append, htable, hstored, List.append_assoc _ _ (storedIn _ _)]

/-- The rest of the initial entries does not show. -/
theorem take_append_take (xs ys : List LogEntry) (n : Nat) :
    (xs ++ ys.take n).take n = (xs ++ ys).take n := by
  rw [List.take_append, List.take_append, List.take_take, Nat.min_eq_left (Nat.sub_le _ _)]

/-- The page has read the recent logs in `s`, with nothing about to be sent, and opens its
web socket before anything else is stored. In every later state in which everything has
been sent and received, it shows what it would read. -/
theorem page_current (hlib : lib.Lawful channelCapacity) (s : LogStore C R)
    (h₀ : s.unsent = []) (ht : Chronological s.table) (mid post : List LogStoreEvent)
    (hturn : ∀ e ∈ mid ++ .logWebsocket :: post, InTurn e)
    (hquiet : storedIn s.table (mid.flatMap LogStoreEvent.statements) = [])
    (hready : Ready s.table (mid ++ .logWebsocket :: post).length)
    (htick : Always handle Ticking s.table
      ((mid ++ .logWebsocket :: post).flatMap LogStoreEvent.statements))
    (stream : LogStream R)
    (hstream : (run (handleStore lib) s (mid ++ .logWebsocket :: post)).streams[
      (run (handleStore lib) s mid).streams.length]? = some stream)
    (hlive : stream.live = true)
    (hwaits : (lib.recv stream.receiver
      (run (handleStore lib) s (mid ++ .logWebsocket :: post)).tx).1 = none)
    (hsent : (run (handleStore lib) s (mid ++ .logWebsocket :: post)).unsent = []) :
    ∃ initial, recent false s.table = .ok initial ∧
      recent false (run (handleStore lib) s (mid ++ .logWebsocket :: post)).table =
        .ok (entries initial stream.messages) := by
  obtain ⟨stream', hstream', hdelivers⟩ := delivers_run hlib s h₀ mid post hready
  obtain rfl : stream' = stream := Option.some.inj (hstream'.symm.trans hstream)
  -- Nothing is sent before the web socket is open, and everything that is stored after it.
  have hmid := inTurn_run hlib s fun e he => hturn e (List.mem_append_left _ he)
  have hall := inTurn_run hlib s hturn
  rw [h₀, hquiet, List.append_nil, List.append_nil] at hmid
  rw [h₀, hsent, List.append_nil, List.append_nil] at hall
  have hgrows := (sends_run hlib s mid).grows
  have hlength : (lib.sent (run (handleStore lib) s mid).tx).length = (lib.sent s.tx).length := by
    have hle := hgrows.length_le
    have heq := congrArg List.length hmid
    rw [List.length_append] at heq
    omega
  have hmessages := hdelivers.complete hlive hwaits
  rw [newsOf, hlength, hall, List.drop_left] at hmessages
  refine ⟨_, recent_chronological ht, ?_⟩
  obtain ⟨hwindow, hchronological⟩ := window_run (hready.mono (length_flatMap_statements _)) ht
    ⟨List.suffix_refl s.table, .inl rfl⟩ htick
  have hshort : (s.table.reverse.take recentLimit).length ≤ 500 := List.length_take_le _ _
  rw [(table_run lib s _).1,
    recent_chronological hchronological, hwindow.take,
    entries_eq hshort, hmessages, recentLimit, take_append_take, List.reverse_append]

end Runs

/-- The store has an entry, and two more are stored while the web socket is open. -/
def openedPage : LogStore (List LogEntry) Nat :=
  ⟨[⟨1, 5, "INFO", "a", none, none, none, none, none, none, none⟩], [], [], []⟩

def twoMore : List LogStoreEvent :=
  [.record ⟨6, false, 0⟩ (infoLog "b"), .send 0, .stream 0 false,
    .record ⟨6, false, 0⟩ (infoLog "c"), .send 0, .stream 0 false]

theorem page_current_twoMore :
    ∃ initial, recent false openedPage.table = .ok initial ∧
      recent false (run (handleStore (unbounded channelCapacity)) openedPage
        ([.prune false] ++ .logWebsocket :: twoMore)).table =
          .ok (entries initial
            [⟨2, 6, "INFO", "b", none, none, none, none, none, none, none⟩,
              ⟨3, 6, "INFO", "c", none, none, none, none, none, none, none⟩]) := by
  refine page_current (unbounded_lawful channelCapacity) openedPage rfl
    (List.pairwise_singleton _ _) [.prune false] twoMore ?_ rfl
    ⟨by decide, by decide, by decide⟩ ?_ ⟨2, _, true⟩ rfl rfl rfl rfl
  · simp [twoMore, InTurn]
  · refine ⟨?_, ?_, ?_, trivial⟩
    all_goals
      intro env details h
      cases h
    all_goals decide

end Oxidrop.LogsPage
