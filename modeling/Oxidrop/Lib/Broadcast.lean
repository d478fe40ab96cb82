import Mathlib.Data.List.Infix
import Mathlib.Order.Basic

/-!
# A bounded broadcast channel

Every value that is sent goes to the receivers that have subscribed before. The channel
retains as many of the newest values as its capacity says. A receiver that has fallen
further behind gets an error, and goes on at the oldest value that is left.
-/
namespace Broadcast

inductive RecvError where
  | closed
  | lagged (missed : Nat)
  deriving DecidableEq, Repr

/-- The operations of a channel `C` with receivers `R`. `recv` has no result while it
would wait. The values ever sent, and how many of them a receiver has passed, are what
its documentation speaks about. -/
structure ChannelLib (C R α : Type) where
  send : α → C → C
  subscribe : C → R × C
  recv : R → C → Option (Except RecvError α) × R × C
  sent : C → List α
  passed : R → Nat

variable {C R α : Type}

/-- The documented behaviour of a channel that always has a sender. -/
structure ChannelLib.Lawful (lib : ChannelLib C R α) (capacity : Nat) : Prop where
  sent_send : ∀ a c, lib.sent (lib.send a c) = lib.sent c ++ [a]
  sent_subscribe : ∀ c, lib.sent (lib.subscribe c).2 = lib.sent c
  passed_subscribe : ∀ c, lib.passed (lib.subscribe c).1 = (lib.sent c).length
  sent_recv : ∀ r c, lib.sent (lib.recv r c).2.2 = lib.sent c
  waits : ∀ r c, lib.passed r = (lib.sent c).length →
    (lib.recv r c).1 = none ∧ lib.passed (lib.recv r c).2.1 = lib.passed r
  receives : ∀ r c a, (lib.sent c)[lib.passed r]? = some a →
    (lib.sent c).length ≤ lib.passed r + capacity →
    (lib.recv r c).1 = some (.ok a) ∧ lib.passed (lib.recv r c).2.1 = lib.passed r + 1
  lags : ∀ r c, lib.passed r + capacity < (lib.sent c).length →
    ∃ missed, (lib.recv r c).1 = some (.error (.lagged missed))

/-- The receiver subscribed when `start` values had been sent, and has received the
values after them without a gap. -/
structure Follows (lib : ChannelLib C R α) (start : Nat) (received : List α) (r : R) (c : C) :
    Prop where
  passed : lib.passed r = start + received.length
  inOrder : received <+: (lib.sent c).drop start

section Receiver

variable {lib : ChannelLib C R α} {capacity : Nat} {start : Nat} {received : List α} {r : R} {c : C}

theorem Follows.subscribed (hlib : lib.Lawful capacity) (c : C) :
    Follows lib (lib.sent c).length [] (lib.subscribe c).1 (lib.subscribe c).2 :=
  ⟨hlib.passed_subscribe c, List.nil_prefix⟩

/-- What others do to the channel only appends to what is sent. -/
theorem Follows.mono {c' : C} (h : Follows lib start received r c)
    (hsent : lib.sent c <+: lib.sent c') : Follows lib start received r c' :=
  ⟨h.passed, h.inOrder.trans (List.IsPrefix.drop hsent start)⟩

/-- A receiver waits when it has everything, or receives the next value, or has fallen
behind by more than the capacity. -/
theorem Follows.recv_cases (hlib : lib.Lawful capacity) (hstart : start ≤ (lib.sent c).length)
    (h : Follows lib start received r c) :
    ((lib.recv r c).1 = none ∧ received = (lib.sent c).drop start ∧
        Follows lib start received (lib.recv r c).2.1 (lib.recv r c).2.2) ∨
      (∃ a, (lib.recv r c).1 = some (.ok a) ∧
        Follows lib start (received ++ [a]) (lib.recv r c).2.1 (lib.recv r c).2.2) ∨
      ((∃ e, (lib.recv r c).1 = some (.error e)) ∧
        received.length + capacity < ((lib.sent c).drop start).length) := by
  have hsent := hlib.sent_recv r c
  obtain ⟨rest, hrest⟩ := h.inOrder
  have hlength : (lib.sent c).length = start + received.length + rest.length := by
    have hdrop := congrArg List.length hrest
    rw [List.length_append, List.length_drop] at hdrop
    omega
  cases rest with
  | nil =>
    rw [List.append_nil] at hrest
    obtain ⟨hnone, hpassed⟩ := hlib.waits r c (by rw [h.passed, hlength]; rfl)
    exact .inl ⟨hnone, hrest, by rw [hpassed, h.passed], by rw [hsent]; exact h.inOrder⟩
  | cons a rest =>
    rw [List.length_cons] at hlength
    by_cases hlag : lib.passed r + capacity < (lib.sent c).length
    · obtain ⟨missed, herror⟩ := hlib.lags r c hlag
      refine .inr (.inr ⟨⟨_, herror⟩, ?_⟩)
      rw [List.length_drop]
      have := h.passed
      omega
    · have hnext : (lib.sent c)[lib.passed r]? = some a := by
        rw [h.passed, ← List.getElem?_drop, ← hrest]
        simp
      obtain ⟨hok, hpassed⟩ := hlib.receives r c a hnext (not_lt.mp hlag)
      refine .inr (.inl ⟨a, hok, ?_, ?_⟩)
      · rw [hpassed, h.passed, List.length_append, List.length_singleton, Nat.add_assoc]
      · rw [hsent, ← hrest]
        exact ⟨rest, by simp⟩

end Receiver

/-! ## A channel that remembers everything -/

/-- The channel is the list of the values sent, a receiver how many it has passed. -/
def unbounded (capacity : Nat) : ChannelLib (List α) Nat α where
  send a log := log ++ [a]
  subscribe log := (log.length, log)
  recv r log :=
    if r + capacity < log.length then
      (some (.error (.lagged (log.length - capacity - r))), log.length - capacity, log)
    else
      match log[r]? with
      | some a => (some (.ok a), r + 1, log)
      | none => (none, r, log)
  sent log := log
  passed r := r

theorem unbounded_lawful (capacity : Nat) :
    (unbounded capacity : ChannelLib (List α) Nat α).Lawful capacity where
  sent_send _ _ := rfl
  sent_subscribe _ := rfl
  passed_subscribe _ := rfl
  sent_recv r log := by
    simp only [unbounded]
    split
    · rfl
    · split <;> rfl
  waits r log h := by
    dsimp only [unbounded] at h ⊢
    subst h
    have hnone : log[log.length]? = none := List.getElem?_eq_none (le_refl _)
    rw [if_neg (by omega), hnone]
    exact ⟨rfl, rfl⟩
  receives r log a ha h := by
    dsimp only [unbounded] at ha h ⊢
    rw [if_neg (by omega), ha]
    exact ⟨rfl, rfl⟩
  lags r log h := by
    dsimp only [unbounded] at h ⊢
    rw [if_pos h]
    exact ⟨_, rfl⟩

end Broadcast
