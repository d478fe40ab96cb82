import Oxidrop.Lib.Run

/-!
# Latches over runs

A latch is a property of the state that some events set, some reset, and all
others leave as it was. After a run it holds exactly when the run sets it and
does not reset it since, or when it held before and the run never resets it.
-/
namespace Run

variable {ε σ ω : Type*} {step : Machine ε σ ω} {C sets resets : σ → ε → Prop}

/-- Some event of the run sets, and no event after it resets. -/
def Since (step : Machine ε σ ω) (sets resets : σ → ε → Prop) (s : σ) (es : List ε) : Prop :=
  ∃ pre e post, es = pre ++ e :: post ∧ sets (run step s pre) e ∧
    Always step (fun t f => ¬ resets t f) (run step s (pre ++ [e])) post

@[simp] theorem since_nil (s : σ) : ¬ Since step sets resets s [] := by
  rintro ⟨pre, e, post, h, -⟩
  simp at h

/-- The last event of a run sets, or an earlier one set and the last one does
not reset. -/
theorem since_concat (s : σ) (es : List ε) (e : ε) :
    Since step sets resets s (es ++ [e]) ↔
      sets (run step s es) e ∨ (Since step sets resets s es ∧ ¬ resets (run step s es) e) := by
  constructor
  · rintro ⟨pre, f, post, hes, hset, halways⟩
    rcases List.eq_nil_or_concat post with rfl | ⟨post, g, rfl⟩
    · obtain ⟨rfl, hf⟩ := List.append_inj' hes rfl
      cases hf
      exact .inl hset
    · have hes : es ++ [e] = (pre ++ f :: post) ++ [g] := by simpa using hes
      obtain ⟨rfl, hg⟩ := List.append_inj' hes rfl
      cases hg
      rw [List.concat_eq_append, always_append] at halways
      refine .inr ⟨⟨pre, f, post, rfl, hset, halways.1⟩, ?_⟩
      have hlast := halways.2.1
      rw [← run_append] at hlast
      simpa using hlast
  · rintro (hset | ⟨⟨pre, f, post, rfl, hset, halways⟩, hlast⟩)
    · exact ⟨es, e, [], rfl, hset, trivial⟩
    · refine ⟨pre, f, post ++ [e], by simp, hset, ?_⟩
      rw [always_append]
      refine ⟨halways, ?_, trivial⟩
      rw [← run_append]
      simpa using hlast

/-- A latch holds after a run exactly if it was set since the last reset, or
held from the start and was never reset. -/
theorem latch_iff {b : σ → Prop}
    (hstep : ∀ s e, C s e → (b (step e s).2 ↔ sets s e ∨ (b s ∧ ¬ resets s e)))
    (s : σ) (es : List ε) (h : Always step C s es) :
    b (run step s es) ↔
      Since step sets resets s es ∨ (b s ∧ Always step (fun t e => ¬ resets t e) s es) := by
  induction es using List.reverseRecOn with
  | nil => simp
  | append_singleton es e ih =>
    rw [always_append] at h
    rw [run_concat, hstep _ _ h.2.1, ih h.1, since_concat, always_append]
    simp only [always_cons, always_nil, and_true]
    tauto

/-- A latch that does not hold at the start. -/
theorem latch_iff_of_not {b : σ → Prop}
    (hstep : ∀ s e, C s e → (b (step e s).2 ↔ sets s e ∨ (b s ∧ ¬ resets s e)))
    {s : σ} (hs : ¬ b s) (es : List ε) (h : Always step C s es) :
    b (run step s es) ↔ Since step sets resets s es := by
  rw [latch_iff hstep s es h]
  simp [hs]

/-- A property that a run makes true became true at some event for good. -/
theorem rise {b : σ → Prop} {s : σ} {es : List ε} (hs : ¬ b s) (h : b (run step s es)) :
    ∃ pre e post, es = pre ++ e :: post ∧ ¬ b (run step s pre) ∧
      ∀ mid rest, post = mid ++ rest → b (run step s (pre ++ e :: mid)) := by
  induction es using List.reverseRecOn with
  | nil => exact absurd h hs
  | append_singleton es e ih =>
    by_cases hes : b (run step s es)
    · obtain ⟨pre, f, post, rfl, hpre, hpost⟩ := ih hes
      refine ⟨pre, f, post ++ [e], by simp, hpre, ?_⟩
      intro mid rest hcut
      rcases List.eq_nil_or_concat rest with rfl | ⟨rest, g, rfl⟩
      · rw [List.append_nil] at hcut
        rw [← hcut]
        simpa using h
      · rw [List.concat_eq_append, ← List.append_assoc] at hcut
        exact hpost mid rest (List.append_inj' hcut rfl).1
    · refine ⟨es, e, [], rfl, hes, ?_⟩
      intro mid rest hcut
      obtain ⟨rfl, -⟩ := List.nil_eq_append_iff.mp hcut
      exact h

end Run
