import Oxidrop.Teardown

/-!
# Which packets open a flow

The data plane writes the flow entry of an outgoing packet before the rate
limiter decides. A packet that is dropped for want of a token therefore opens
its flow all the same; a packet that is dropped for any other reason does not.
-/
namespace Oxidrop.Opening

open Run Teardown

/-- The frame is a packet of flow `k` from the inside, without FIN and RST, that
the subnet check lets through. -/
def MayOpen (nt : NetworkTypes) (k : FlowKey) (m : Maps) (ctx : XdpContext) : Prop :=
  ∃ q, inspect nt m.toPolicy ctx = .inr q ∧ q.key = k ∧ q.direction = .outgoing ∧
    q.remove = false ∧ m.admits k = true

/-- The event makes the flow table allow flow `k`: a write from outside the data
plane, or a packet whose verdict is in `P`. -/
def OpenedBy (P : Verdict → Prop) (nt : NetworkTypes) (k : FlowKey) (m : Maps) : Event → Prop
  | .setEntry key entry => key = k ∧ entry.any (fun state => state.action = .allow) = true
  | .packet ctx => MayOpen nt k m ctx ∧ P (xdpFirewall nt ctx m).1
  | _ => False

/-- Every flow that the run leaves as Allow was opened by a write or by a packet
with a verdict in `P`, and has been Allow ever since; and a packet creates a
flow entry only with such a verdict. -/
def OpensOnly (P : Verdict → Prop) (nt : NetworkTypes) (m : Maps) (es : List Event) : Prop :=
  (∀ k, ((run (handle nt) m es).cell k).allows = true →
    ∃ pre e post, es = pre ++ e :: post ∧ OpenedBy P nt k (run (handle nt) m pre) e ∧
      ((run (handle nt) m pre).cell k).allows = false ∧
      ∀ mid rest, post = mid ++ rest →
        ((run (handle nt) m (pre ++ e :: mid)).cell k).allows = true) ∧
  ∀ pre ctx post k, es = pre ++ .packet ctx :: post →
    ((run (handle nt) m pre).cell k).entry = none →
    ((run (handle nt) m (pre ++ [.packet ctx])).cell k).entry ≠ none →
    MayOpen nt k (run (handle nt) m pre) ctx ∧ P (xdpFirewall nt ctx (run (handle nt) m pre)).1

theorem opens_openedBy {nt : NetworkTypes} {k : FlowKey} {m : Maps} {e : Event}
    (h : Opens nt k m e) : OpenedBy Admitted nt k m e := by
  cases e with
  | packet ctx =>
    obtain ⟨q, hi, rfl, ha, hr, hd, -⟩ := h
    refine ⟨⟨q, hi, rfl, hd, hr, by rw [← inspect_admitted hi, ha]⟩, ?_⟩
    rw [xdpFirewall_inr hi, cellStep_admitted_iff]
    exact ⟨ha, .inr (.inl hd)⟩
  | setEntry key entry => exact h
  | _ => exact h.elim

/-- A packet that gives a flow its entry gets past the flow table. -/
theorem creates_entry {nt : NetworkTypes} {k : FlowKey} {m : Maps} {ctx : XdpContext}
    (hnone : (m.cell k).entry = none) (hsome : ((xdpFirewall nt ctx m).2.cell k).entry ≠ none) :
    MayOpen nt k m ctx ∧ Admitted (xdpFirewall nt ctx m).1 := by
  rcases xdpFirewall_cell nt ctx m k with ⟨q, hi, rfl, -, hcell⟩ | ⟨-, hcell⟩
  · rw [hcell] at hsome
    rcases cellStep_cases m.configuration q (m.cell q.key) with
      ⟨-, hstep⟩ | ⟨-, -, hstep⟩ | ⟨-, -, -, -, hstep⟩ | ⟨ha, hr, hd, hstep⟩
    · exact absurd (by rw [hstep, hnone]) hsome
    · exact absurd (by rw [hstep]) hsome
    · exact absurd (by rw [hstep, hnone]) hsome
    · have hout : q.direction = .outgoing := by simpa [Cell.allows, hnone] using hd
      refine ⟨⟨q, hi, rfl, hout, hr, by rw [← inspect_admitted hi, ha]⟩, ?_⟩
      rw [xdpFirewall_inr hi, cellStep_admitted_iff]
      exact ⟨ha, .inr hd⟩
  · rw [hcell, hnone] at hsome
    exact absurd rfl hsome

/-- From an empty flow table, every Allow comes from a write or from an outgoing
packet that got past the flow table, and no other packet creates an entry. -/
theorem opens_only_admitted (nt : NetworkTypes) (m : Maps) (es : List Event)
    (hempty : ∀ k, (m.cell k).entry = none) : OpensOnly Admitted nt m es := by
  constructor
  · intro k hk
    have hm : ¬ (m.cell k).allows = true := by simp [Cell.allows, hempty k]
    obtain ⟨pre, e, post, rfl, hpre, hpost⟩ :=
      rise (b := fun s : Maps => (s.cell k).allows = true) hm hk
    refine ⟨pre, e, post, rfl, ?_, by simpa using hpre, hpost⟩
    have hafter := hpost [] post rfl
    rw [run_concat, allows_step] at hafter
    rcases hafter with hopens | ⟨hbefore, -⟩
    · exact opens_openedBy hopens
    · exact absurd hbefore hpre
  · intro pre ctx post k _ hnone hsome
    rw [run_concat] at hsome
    exact creates_entry hnone hsome

/-- Rate limiting with buckets that hold nothing. -/
def emptyBuckets : FirewallConfig :=
  { openConfig with ddosActivated := true, udpProfile := ⟨19, 0⟩ }

/-- A request that is forwarded opens its flow. -/
theorem opens_only_admitted_request :
    OpensOnly Admitted rfcTypes (freshMaps openConfig) [.packet udpRequest] :=
  opens_only_admitted rfcTypes (freshMaps openConfig) [.packet udpRequest] (by simp)

/-- A request that is dropped for want of a token opens its flow too. -/
theorem opens_when_rate_limited :
    (xdpFirewall rfcTypes udpRequest (freshMaps emptyBuckets)).1 = .error .rateLimited ∧
      ¬ OpensOnly (fun verdict => forwarded verdict = true) rfcTypes (freshMaps emptyBuckets)
        [.packet udpRequest] := by
  refine ⟨by decide, ?_⟩
  rintro ⟨-, hcreate⟩
  have hforwarded := (hcreate [] udpRequest [] (.v4 (.new 0x0A000001 0xCB007109 53 80 17)) rfl
    (by decide) (by decide)).2
  exact absurd hforwarded (by decide)

end Oxidrop.Opening
