import Mathlib.Data.List.Induction

/-!
# Runs of a deterministic machine

A machine answers each event and moves to its next state. A run feeds it a
finite list of events. The three induction rules are stated once here: an
invariant of the state, a property of the state and the events so far, and a
simulation between two machines that are fed related events.
-/
namespace Run

variable {ε ε' σ σ' ω : Type*}

/-- The answer to one event and the state after it. -/
abbrev Machine (ε σ ω : Type*) := ε → σ → ω × σ

def run (step : Machine ε σ ω) : σ → List ε → σ
  | s, [] => s
  | s, e :: es => run step (step e s).2 es

def outputs (step : Machine ε σ ω) : σ → List ε → List ω
  | _, [] => []
  | s, e :: es => (step e s).1 :: outputs step (step e s).2 es

/-- Every event of the run meets `C` in the state it is fed to. -/
def Always (step : Machine ε σ ω) (C : σ → ε → Prop) : σ → List ε → Prop
  | _, [] => True
  | s, e :: es => C s e ∧ Always step C (step e s).2 es

variable {step : Machine ε σ ω} {C : σ → ε → Prop}

@[simp] theorem run_nil (s : σ) : run step s [] = s := rfl
@[simp] theorem run_cons (s : σ) (e : ε) (es : List ε) :
    run step s (e :: es) = run step (step e s).2 es := rfl
@[simp] theorem outputs_nil (s : σ) : outputs step s [] = [] := rfl
@[simp] theorem outputs_cons (s : σ) (e : ε) (es : List ε) :
    outputs step s (e :: es) = (step e s).1 :: outputs step (step e s).2 es := rfl
@[simp] theorem always_nil (s : σ) : Always step C s [] := trivial
@[simp] theorem always_cons (s : σ) (e : ε) (es : List ε) :
    Always step C s (e :: es) ↔ C s e ∧ Always step C (step e s).2 es := Iff.rfl

theorem run_append (s : σ) (xs ys : List ε) :
    run step s (xs ++ ys) = run step (run step s xs) ys := by
  induction xs generalizing s with
  | nil => rfl
  | cons e xs ih => exact ih (step e s).2

theorem run_concat (s : σ) (es : List ε) (e : ε) :
    run step s (es ++ [e]) = (step e (run step s es)).2 := by
  simp [run_append]

theorem outputs_append (s : σ) (xs ys : List ε) :
    outputs step s (xs ++ ys) = outputs step s xs ++ outputs step (run step s xs) ys := by
  induction xs generalizing s with
  | nil => rfl
  | cons e xs ih => exact congrArg _ (ih (step e s).2)

theorem outputs_concat (s : σ) (es : List ε) (e : ε) :
    outputs step s (es ++ [e]) = outputs step s es ++ [(step e (run step s es)).1] :=
  outputs_append s es [e]

theorem always_append (s : σ) (xs ys : List ε) :
    Always step C s (xs ++ ys) ↔ Always step C s xs ∧ Always step C (run step s xs) ys := by
  induction xs generalizing s with
  | nil => simp
  | cons e xs ih => simp [ih, and_assoc]

/-- `Always` speaks about every way of cutting the run at an event. -/
theorem always_iff (s : σ) (es : List ε) :
    Always step C s es ↔
      ∀ pre e post, es = pre ++ e :: post → C (run step s pre) e := by
  constructor
  · intro h pre e post he
    subst he
    exact ((always_append s pre (e :: post)).mp h).2.1
  · intro h
    induction es generalizing s with
    | nil => trivial
    | cons e es ih =>
      refine ⟨h [] e es rfl, ih (step e s).2 ?_⟩
      intro pre f post he
      exact h (e :: pre) f post (by rw [he]; rfl)

theorem always_of_forall {P : ε → Prop} (s : σ) (es : List ε) (h : ∀ e ∈ es, P e) :
    Always step (fun _ e => P e) s es := by
  induction es generalizing s with
  | nil => trivial
  | cons e es ih =>
    exact ⟨h e (by simp), ih (step e s).2 (fun f hf => h f (by simp [hf]))⟩

/-- Answers that all satisfy `P` are events that are all answered so. -/
theorem always_of_outputs {P : ω → Prop} (s : σ) (es : List ε)
    (h : ∀ o ∈ outputs step s es, P o) : Always step (fun s e => P (step e s).1) s es := by
  induction es generalizing s with
  | nil => trivial
  | cons e es ih =>
    exact ⟨h _ (by simp), ih (step e s).2 (fun o ho => h o (by simp [ho]))⟩

theorem always_and {D : σ → ε → Prop} (s : σ) (es : List ε) :
    Always step (fun s e => C s e ∧ D s e) s es ↔ Always step C s es ∧ Always step D s es := by
  induction es generalizing s with
  | nil => simp
  | cons e es ih => simp [ih, and_and_and_comm]

/-- Two properties of events that agree wherever an invariant holds, and that
keep it, agree over runs. -/
theorem always_congr {D : σ → ε → Prop} {I : σ → Prop} (hiff : ∀ s e, I s → (C s e ↔ D s e))
    (hstep : ∀ s e, I s → C s e → I (step e s).2) (s : σ) (es : List ε) (hs : I s) :
    Always step C s es ↔ Always step D s es := by
  induction es generalizing s with
  | nil => simp
  | cons e es ih =>
    rw [always_cons, always_cons, ← hiff s e hs]
    exact and_congr_right fun h => ih _ (hstep s e hs h)

/-- An invariant that the allowed events preserve holds at the end of a run. -/
theorem invariant {I : σ → Prop} (hstep : ∀ s e, I s → C s e → I (step e s).2)
    (s : σ) (es : List ε) (hs : I s) (h : Always step C s es) : I (run step s es) := by
  induction es generalizing s with
  | nil => exact hs
  | cons e es ih => exact ih (step e s).2 (hstep s e hs h.1) h.2

/-- What every allowed event does to a state of the invariant, it does in the whole run. -/
theorem always_of_invariant {D : σ → ε → Prop} {I : σ → Prop}
    (hstep : ∀ s e, I s → C s e → D s e ∧ I (step e s).2)
    (s : σ) (es : List ε) (hs : I s) (h : Always step C s es) : Always step D s es := by
  induction es generalizing s with
  | nil => trivial
  | cons e es ih =>
    obtain ⟨hd, hi⟩ := hstep s e hs h.1
    exact ⟨hd, ih (step e s).2 hi h.2⟩

/-- The invariant may also speak about the events fed so far. -/
theorem history {I : List ε → σ → Prop} {s : σ} (hinit : I [] s)
    (hstep : ∀ pre t e, I pre t → C t e → I (pre ++ [e]) (step e t).2)
    (es : List ε) (h : Always step C s es) : I es (run step s es) := by
  induction es using List.reverseRecOn with
  | nil => exact hinit
  | append_singleton es e ih =>
    rw [always_append] at h
    rw [run_concat]
    exact hstep es (run step s es) e (ih h.1) h.2.1

/-- Two machines that answer related events alike from related states, and
stay related, answer related event lists alike. -/
theorem simulation {stepA : Machine ε σ ω} {stepB : Machine ε' σ' ω}
    {R : σ → σ' → Prop} {E : σ → ε → ε' → Prop}
    (hstep : ∀ s t e f, R s t → E s e f →
      (stepA e s).1 = (stepB f t).1 ∧ R (stepA e s).2 (stepB f t).2)
    (s : σ) (t : σ') (es : List (ε × ε')) (hR : R s t)
    (hE : Always (fun p : ε × ε' => stepA p.1) (fun s p => E s p.1 p.2) s es) :
    outputs stepA s (es.map Prod.fst) = outputs stepB t (es.map Prod.snd) ∧
      R (run stepA s (es.map Prod.fst)) (run stepB t (es.map Prod.snd)) := by
  induction es generalizing s t with
  | nil => exact ⟨rfl, hR⟩
  | cons p es ih =>
    obtain ⟨e, f⟩ := p
    have h := hstep s t e f hR hE.1
    have ht := ih (stepA e s).2 (stepB f t).2 h.2 hE.2
    refine ⟨?_, ht.2⟩
    simp only [List.map_cons, outputs_cons, h.1, ht.1]

end Run
