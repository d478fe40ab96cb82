import Oxidrop.Flow

/-!
# Flow isolation

Under a fixed policy the data plane is a keyed machine: a packet reads and
writes the cell of its own flow. Packets of different flows commute, and every
flow gets in any interleaving the verdicts it would get alone.
-/
namespace Oxidrop.Isolation

open Run Keyed

/-- The data plane over cells, for a policy that does not change. -/
def flowMachine (nt : NetworkTypes) (p : Policy) :
    KeyedMachine XdpContext FlowKey Cell Verdict where
  key := flowKeyOf nt p
  idle ctx :=
    match inspect nt p ctx with
    | .inl verdict => verdict
    | .inr _ => .error .unsupportedProtocol
  cell ctx c :=
    match inspect nt p ctx with
    | .inl verdict => (verdict, c)
    | .inr q => cellStep p.configuration q c

theorem xdpFirewall_flowMachine (nt : NetworkTypes) (ctx : XdpContext) (m : Maps) :
    (xdpFirewall nt ctx m).1 = ((flowMachine nt m.toPolicy).step ctx m.cell).1 ∧
      (xdpFirewall nt ctx m).2.cell = ((flowMachine nt m.toPolicy).step ctx m.cell).2 := by
  cases h : inspect nt m.toPolicy ctx with
  | inl verdict =>
    have hkey : (flowMachine nt m.toPolicy).key ctx = none := by simp [flowMachine, flowKeyOf, h]
    rw [step_none _ _ hkey, xdpFirewall_inl h]
    simp [flowMachine, h]
  | inr q =>
    have hkey : (flowMachine nt m.toPolicy).key ctx = some q.key := flowKeyOf_of_inr h
    rw [step_some _ _ hkey, xdpFirewall_inr h]
    simp [flowMachine, h, Maps.cell_setCell]

/-- Runs of the data plane and of the keyed machine answer alike. -/
theorem run_flowMachine (nt : NetworkTypes) (m : Maps) (es : List XdpContext) :
    outputs (xdpFirewall nt) m es = outputs (flowMachine nt m.toPolicy).step m.cell es := by
  induction es generalizing m with
  | nil => rfl
  | cons ctx es ih =>
    have h := xdpFirewall_flowMachine nt ctx m
    rw [outputs_cons, outputs_cons, h.1, ih, xdpFirewall_toPolicy, h.2]

/-- The verdicts that the packets of flow `k` get in a run. -/
def verdictsOf (nt : NetworkTypes) (k : FlowKey) : Maps → List XdpContext → List Verdict
  | _, [] => []
  | m, ctx :: es =>
    if flowKeyOf nt m.toPolicy ctx = some k then
      (xdpFirewall nt ctx m).1 :: verdictsOf nt k (xdpFirewall nt ctx m).2 es
    else verdictsOf nt k (xdpFirewall nt ctx m).2 es

theorem verdictsOf_eq (nt : NetworkTypes) (k : FlowKey) (m : Maps) (es : List XdpContext) :
    verdictsOf nt k m es = answersAt (flowMachine nt m.toPolicy) k m.cell es := by
  induction es generalizing m with
  | nil => rfl
  | cons ctx es ih =>
    have h := xdpFirewall_flowMachine nt ctx m
    have hrest := ih (xdpFirewall nt ctx m).2
    rw [xdpFirewall_toPolicy, h.2] at hrest
    simp only [verdictsOf, answersAt, h.1, hrest]
    rfl

/-- The two packets name different flows, or one of them names none. -/
def Apart (nt : NetworkTypes) (p : Policy) (c₁ c₂ : XdpContext) : Prop :=
  ∀ k, flowKeyOf nt p c₁ = some k → flowKeyOf nt p c₂ ≠ some k

theorem Apart.symm {nt : NetworkTypes} {p : Policy} {c₁ c₂ : XdpContext}
    (h : Apart nt p c₁ c₂) : Apart nt p c₂ c₁ :=
  fun k h₂ h₁ => h k h₁ h₂

/-- A packet of another flow changes neither the verdict that comes after it
nor, when the two are swapped, the maps that both leave behind. -/
theorem swap (nt : NetworkTypes) (m : Maps) (c₁ c₂ : XdpContext)
    (h : Apart nt m.toPolicy c₁ c₂) :
    (xdpFirewall nt c₁ (xdpFirewall nt c₂ m).2).1 = (xdpFirewall nt c₁ m).1 ∧
      (xdpFirewall nt c₁ (xdpFirewall nt c₂ m).2).2 =
        (xdpFirewall nt c₂ (xdpFirewall nt c₁ m).2).2 := by
  have h₁ := xdpFirewall_flowMachine nt c₁ m
  have h₂ := xdpFirewall_flowMachine nt c₂ m
  have h₁₂ := xdpFirewall_flowMachine nt c₁ (xdpFirewall nt c₂ m).2
  have h₂₁ := xdpFirewall_flowMachine nt c₂ (xdpFirewall nt c₁ m).2
  rw [xdpFirewall_toPolicy] at h₁₂ h₂₁
  rw [h₂.2] at h₁₂
  rw [h₁.2] at h₂₁
  constructor
  · rw [h₁₂.1, h₁.1]
    exact step_answer (flowMachine nt m.toPolicy) m.cell h
  · apply Maps.ext_cells
    · simp
    · rw [h₁₂.2, h₂₁.2]
      exact step_comm (flowMachine nt m.toPolicy) m.cell h

/-- Packets of different flows commute, and each flow's verdicts in a run are
the verdicts of the run of that flow's packets alone. -/
theorem flow_isolation (nt : NetworkTypes) (m : Maps) :
    (∀ c₁ c₂, Apart nt m.toPolicy c₁ c₂ →
      (xdpFirewall nt c₁ (xdpFirewall nt c₂ m).2).1 = (xdpFirewall nt c₁ m).1 ∧
      (xdpFirewall nt c₂ (xdpFirewall nt c₁ m).2).1 = (xdpFirewall nt c₂ m).1 ∧
      (xdpFirewall nt c₁ (xdpFirewall nt c₂ m).2).2 =
        (xdpFirewall nt c₂ (xdpFirewall nt c₁ m).2).2) ∧
    (∀ (k : FlowKey) (es : List XdpContext),
      verdictsOf nt k m es =
        outputs (xdpFirewall nt) m (es.filter (fun c => flowKeyOf nt m.toPolicy c = some k))) := by
  constructor
  · intro c₁ c₂ h
    exact ⟨(swap nt m c₁ c₂ h).1, (swap nt m c₂ c₁ h.symm).1, (swap nt m c₁ c₂ h).2⟩
  · intro k es
    rw [verdictsOf_eq, run_flowMachine]
    exact (project (flowMachine nt m.toPolicy) k m.cell m.cell es rfl).1

/-- The first packets of a UDP and of a TCP flow commute. -/
theorem flow_isolation_requests :
    (xdpFirewall rfcTypes udpRequest
        (xdpFirewall rfcTypes tcpRequest (freshMaps openConfig)).2).1 =
        (xdpFirewall rfcTypes udpRequest (freshMaps openConfig)).1 ∧
      (xdpFirewall rfcTypes udpRequest
          (xdpFirewall rfcTypes tcpRequest (freshMaps openConfig)).2).2 =
        (xdpFirewall rfcTypes tcpRequest
          (xdpFirewall rfcTypes udpRequest (freshMaps openConfig)).2).2 := by
  have hne : flowKeyOf rfcTypes (freshMaps openConfig).toPolicy udpRequest ≠
      flowKeyOf rfcTypes (freshMaps openConfig).toPolicy tcpRequest := by decide
  have h := (flow_isolation rfcTypes (freshMaps openConfig)).1 udpRequest tcpRequest
    (fun k h₁ h₂ => hne (h₁.trans h₂.symm))
  exact ⟨h.1, h.2.2⟩

end Oxidrop.Isolation
