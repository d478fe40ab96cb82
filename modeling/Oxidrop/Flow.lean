import Oxidrop.Xdp
import Oxidrop.Lib.Keyed

/-!
# One automaton for each flow

What the data plane is for, stated without maps: a flow has a cell with its
flow-table entry and its bucket, and a packet of the flow moves that cell. The
module connects this view to the maps: `xdpFirewall` decides a packet without
the flow maps, or moves exactly the cell of the packet's own key.
-/
namespace Oxidrop

inductive FlowKey where
  | v4 (key : Ipv4Packet)
  | v6 (key : Ipv6Packet)
  deriving DecidableEq, Repr

def FlowKey.protocol : FlowKey → UInt8
  | .v4 key => key.protocol
  | .v6 key => key.protocol

structure Cell where
  entry : Option AllowListState
  bucket : Option TokenBucketState
  deriving DecidableEq, Repr

/-- The flow table maps the flow to Allow. -/
def Cell.allows (c : Cell) : Bool := c.entry.any (fun state => state.action = .allow)

/-- The flow table maps the flow to Deny. -/
def Cell.denies (c : Cell) : Bool := c.entry.any (fun state => state.action = .deny)

theorem Cell.denies_not_allows {c : Cell} (h : c.denies = true) : c.allows = false := by
  obtain ⟨entry, bucket⟩ := c
  cases entry with
  | none => simp [denies] at h
  | some state => simp_all [denies, allows]

/-- A packet as its flow sees it. -/
structure FlowPacket where
  key : FlowKey
  direction : TraficDirection
  admitted : Bool
  profile : RateProfile
  remove : Bool
  ktimeFlow : UInt64
  ktimeBucket : UInt64
  deriving DecidableEq, Repr

/-- A known flow keeps its action, a new one is allowed. -/
def refresh (now : UInt64) : Option AllowListState → AllowListState
  | some state => { state with lastSeen := now }
  | none => ⟨.allow, now⟩

/-- The bucket a packet finds. -/
def fetchBucket (p : FlowPacket) (b : Option TokenBucketState) : TokenBucketState :=
  b.getD ⟨p.profile.burst, p.ktimeBucket⟩

def bucketStep (config : FirewallConfig) (p : FlowPacket) (b : Option TokenBucketState) :
    Verdict × Option TokenBucketState :=
  if config.ddosActivated then
    match evaluateBucket (fetchBucket p b) p.profile p.ktimeBucket with
    | (.ok _, b') => (.ok (redirectOrPass config p.direction), some b')
    | (.error _, b') => (.error .rateLimited, some b')
  else (.ok (redirectOrPass config p.direction), b)

def cellStep (config : FirewallConfig) (p : FlowPacket) (c : Cell) : Verdict × Cell :=
  if p.admitted = false then (.error .deniedByPolicy, c)
  else if p.remove then (.ok (redirectOrPass config p.direction), ⟨none, none⟩)
  else if p.direction = .incoming ∧ c.allows = false then (.error .deniedByPolicy, c)
  else
    ((bucketStep config p c.bucket).1,
      ⟨some (refresh p.ktimeFlow c.entry), (bucketStep config p c.bucket).2⟩)

/-! ## What a packet can do to its cell -/

theorem cellStep_not_admitted {config : FirewallConfig} {p : FlowPacket} (c : Cell)
    (h : p.admitted = false) : cellStep config p c = (.error .deniedByPolicy, c) := by
  simp [cellStep, h]

theorem cellStep_remove {config : FirewallConfig} {p : FlowPacket} (c : Cell)
    (ha : p.admitted = true) (hr : p.remove = true) :
    cellStep config p c = (.ok (redirectOrPass config p.direction), ⟨none, none⟩) := by
  simp [cellStep, ha, hr]

theorem cellStep_no_state {config : FirewallConfig} {p : FlowPacket} {c : Cell}
    (hr : p.remove = false) (hd : p.direction = .incoming) (hc : c.allows = false) :
    cellStep config p c = (.error .deniedByPolicy, c) := by
  simp [cellStep, hr, hd, hc]

theorem cellStep_tracked {config : FirewallConfig} {p : FlowPacket} {c : Cell}
    (ha : p.admitted = true) (hr : p.remove = false)
    (hc : p.direction = .outgoing ∨ c.allows = true) :
    cellStep config p c =
      ((bucketStep config p c.bucket).1,
        ⟨some (refresh p.ktimeFlow c.entry), (bucketStep config p c.bucket).2⟩) := by
  rcases hc with h | h <;> simp [cellStep, ha, hr, h]

/-- The four things that can happen to a packet, with their guards. -/
theorem cellStep_cases (config : FirewallConfig) (p : FlowPacket) (c : Cell) :
    (p.admitted = false ∧ cellStep config p c = (.error .deniedByPolicy, c)) ∨
    (p.admitted = true ∧ p.remove = true ∧
      cellStep config p c = (.ok (redirectOrPass config p.direction), ⟨none, none⟩)) ∨
    (p.admitted = true ∧ p.remove = false ∧ p.direction = .incoming ∧ c.allows = false ∧
      cellStep config p c = (.error .deniedByPolicy, c)) ∨
    (p.admitted = true ∧ p.remove = false ∧ (p.direction = .outgoing ∨ c.allows = true) ∧
      cellStep config p c =
        ((bucketStep config p c.bucket).1,
          ⟨some (refresh p.ktimeFlow c.entry), (bucketStep config p c.bucket).2⟩)) := by
  cases ha : p.admitted with
  | false => exact .inl ⟨rfl, cellStep_not_admitted c ha⟩
  | true =>
    cases hr : p.remove with
    | true => exact .inr (.inl ⟨rfl, rfl, cellStep_remove c ha hr⟩)
    | false =>
      by_cases hc : p.direction = .outgoing ∨ c.allows = true
      · exact .inr (.inr (.inr ⟨rfl, rfl, hc, cellStep_tracked ha hr hc⟩))
      · have hd : p.direction = .incoming := by
          cases hp : p.direction with
          | incoming => rfl
          | outgoing => exact absurd (.inl hp) hc
        have hn : c.allows = false := by simpa [hd] using hc
        exact .inr (.inr (.inl ⟨rfl, rfl, hd, hn, cellStep_no_state hr hd hn⟩))

/-! ## Verdicts -/

/-- The tokens a packet finds after the refill. -/
def available (bucket : TokenBucketState) (profile : RateProfile) (now : UInt64) : UInt64 :=
  let generatedTokens := saturatingSub now bucket.lastUpdate >>> profile.rateShift
  if 0 < generatedTokens then min (bucket.tokens + generatedTokens) profile.burst
  else bucket.tokens

theorem evaluateBucket_fst (bucket : TokenBucketState) (profile : RateProfile) (now : UInt64) :
    (evaluateBucket bucket profile now).1 =
      if 0 < available bucket profile now then .ok .pass else .error .rateLimited := by
  unfold evaluateBucket available
  by_cases hg : 0 < saturatingSub now bucket.lastUpdate >>> profile.rateShift
  · simp only [hg, if_true]
    split <;> rfl
  · simp only [hg, if_false]
    split <;> rfl

/-- Rate limiting is on and the packet finds no token. -/
def OutOfTokens (config : FirewallConfig) (p : FlowPacket) (b : Option TokenBucketState) : Prop :=
  config.ddosActivated = true ∧ available (fetchBucket p b) p.profile p.ktimeBucket = 0

theorem bucketStep_forwarded_iff (config : FirewallConfig) (p : FlowPacket)
    (b : Option TokenBucketState) :
    forwarded (bucketStep config p b).1 = true ↔ ¬ OutOfTokens config p b := by
  have hfst := evaluateBucket_fst (fetchBucket p b) p.profile p.ktimeBucket
  unfold bucketStep OutOfTokens
  cases config.ddosActivated with
  | false => simp
  | true =>
    cases hr : evaluateBucket (fetchBucket p b) p.profile p.ktimeBucket with
    | mk verdict b' =>
      rw [hr] at hfst
      subst hfst
      by_cases hpos : 0 < available (fetchBucket p b) p.profile p.ktimeBucket
      · have hne := UInt64.pos_iff_ne_zero.mp hpos
        simp [hpos, hne]
      · have hzero : available (fetchBucket p b) p.profile p.ktimeBucket = 0 := by
          by_contra hne
          exact hpos (UInt64.pos_iff_ne_zero.mpr hne)
        simp [hzero]

/-- A packet is forwarded on a FIN or RST, or when its flow may pass and has a
token left. -/
theorem cellStep_forwarded_iff (config : FirewallConfig) (p : FlowPacket) (c : Cell) :
    forwarded (cellStep config p c).1 = true ↔
      p.admitted = true ∧
        (p.remove = true ∨
          ((p.direction = .outgoing ∨ c.allows = true) ∧ ¬ OutOfTokens config p c.bucket)) := by
  rcases cellStep_cases config p c with
    ⟨ha, hstep⟩ | ⟨ha, hr, hstep⟩ | ⟨ha, hr, hd, hc, hstep⟩ | ⟨ha, hr, hd, hstep⟩
  · simp [hstep, ha]
  · simp [hstep, ha, hr]
  · simp [hstep, hr, hd, hc]
  · simp [hstep, ha, hr, hd, bucketStep_forwarded_iff]

/-- The flow table lets the packet through: it is forwarded, or dropped for want
of a token alone. -/
def Admitted (verdict : Verdict) : Prop :=
  forwarded verdict = true ∨ verdict = .error .rateLimited

theorem admitted_not_denied {verdict : Verdict} (h : Admitted verdict) :
    verdict ≠ .error .deniedByPolicy := by
  rintro rfl
  rcases h with h | h <;> cases h

/-- The bucket stage forwards or runs out of tokens. -/
theorem bucketStep_admitted (config : FirewallConfig) (p : FlowPacket)
    (b : Option TokenBucketState) : Admitted (bucketStep config p b).1 := by
  unfold bucketStep
  cases config.ddosActivated with
  | false => exact .inl (forwarded_redirectOrPass config p.direction)
  | true =>
    cases hr : evaluateBucket (fetchBucket p b) p.profile p.ktimeBucket with
    | mk verdict b' =>
      cases verdict with
      | ok ret => exact .inl (by simp)
      | error e => exact .inr (by simp)

/-- A packet of a flow gets past the flow table or is denied. -/
theorem cellStep_admitted_or_denied (config : FirewallConfig) (p : FlowPacket) (c : Cell) :
    (p.admitted = true ∧ (p.remove = true ∨ p.direction = .outgoing ∨ c.allows = true) ∧
      Admitted (cellStep config p c).1) ∨
    (¬ (p.admitted = true ∧ (p.remove = true ∨ p.direction = .outgoing ∨ c.allows = true)) ∧
      (cellStep config p c).1 = .error .deniedByPolicy) := by
  rcases cellStep_cases config p c with
    ⟨ha, hstep⟩ | ⟨ha, hr, hstep⟩ | ⟨ha, hr, hd, hc, hstep⟩ | ⟨ha, hr, hd, hstep⟩
  · exact .inr ⟨by simp [ha], by rw [hstep]⟩
  · refine .inl ⟨ha, .inl hr, ?_⟩
    rw [hstep]
    exact .inl (forwarded_redirectOrPass config p.direction)
  · exact .inr ⟨by simp [hr, hd, hc], by rw [hstep]⟩
  · refine .inl ⟨ha, .inr hd, ?_⟩
    rw [hstep]
    exact bucketStep_admitted config p c.bucket

theorem cellStep_admitted_iff (config : FirewallConfig) (p : FlowPacket) (c : Cell) :
    Admitted (cellStep config p c).1 ↔
      p.admitted = true ∧ (p.remove = true ∨ p.direction = .outgoing ∨ c.allows = true) := by
  rcases cellStep_admitted_or_denied config p c with ⟨ha, hc, h⟩ | ⟨hn, h⟩
  · exact ⟨fun _ => ⟨ha, hc⟩, fun _ => h⟩
  · exact ⟨fun hadm => absurd h (admitted_not_denied hadm), fun hc => absurd hc hn⟩

theorem cellStep_denied_iff (config : FirewallConfig) (p : FlowPacket) (c : Cell) :
    (cellStep config p c).1 = .error .deniedByPolicy ↔
      ¬ (p.admitted = true ∧ (p.remove = true ∨ p.direction = .outgoing ∨ c.allows = true)) := by
  rw [← cellStep_admitted_iff]
  rcases cellStep_admitted_or_denied config p c with ⟨-, -, h⟩ | ⟨-, h⟩
  · exact ⟨fun hd => absurd hd (admitted_not_denied h), fun hn => absurd h hn⟩
  · exact ⟨fun hd hadm => admitted_not_denied hadm hd, fun _ => h⟩

@[simp] theorem allows_refresh (now : UInt64) (e : Option AllowListState)
    (b : Option TokenBucketState) :
    (Cell.mk (some (refresh now e)) b).allows = (e.isNone || (Cell.mk e b).allows) := by
  cases e <;> simp [Cell.allows, refresh]

@[simp] theorem denies_refresh (now : UInt64) (e : Option AllowListState)
    (b b' : Option TokenBucketState) :
    (Cell.mk (some (refresh now e)) b).denies = (Cell.mk e b').denies := by
  cases e <;> simp [Cell.denies, refresh]

/-- Only a packet of the flow from the inside makes its cell allow it. -/
theorem cellStep_allows {config : FirewallConfig} {p : FlowPacket} {c : Cell}
    (h : (cellStep config p c).2.allows = true) :
    c.allows = true ∨ p.direction = .outgoing := by
  rcases cellStep_cases config p c with
    ⟨ha, hstep⟩ | ⟨ha, hr, hstep⟩ | ⟨ha, hr, hd, hc, hstep⟩ | ⟨ha, hr, hd, hstep⟩
  · exact .inl (by rwa [hstep] at h)
  · simp [hstep, Cell.allows] at h
  · exact .inl (by rwa [hstep] at h)
  · exact hd.symm

/-- A cell allows its flow after a packet exactly if an admitted packet from the
inside without FIN and RST met no Deny, or if the cell did so before and no
admitted FIN or RST removed it. -/
theorem cellStep_allows_iff (config : FirewallConfig) (p : FlowPacket) (c : Cell) :
    (cellStep config p c).2.allows = true ↔
      (p.admitted = true ∧ p.remove = false ∧ p.direction = .outgoing ∧ c.denies = false) ∨
        (c.allows = true ∧ ¬ (p.admitted = true ∧ p.remove = true)) := by
  rcases cellStep_cases config p c with
    ⟨ha, hstep⟩ | ⟨ha, hr, hstep⟩ | ⟨ha, hr, hd, hc, hstep⟩ | ⟨ha, hr, hd, hstep⟩
  · simp [hstep, ha]
  · simp [hstep, ha, hr, Cell.allows]
  · simp [hstep, hr, hd, hc]
  · obtain ⟨entry, bucket⟩ := c
    rw [hstep, allows_refresh]
    simp only [ha, hr, Bool.false_eq_true, and_false, not_false_eq_true, and_true, true_and]
    cases entry with
    | none => simpa [Cell.allows, Cell.denies] using hd
    | some state =>
      obtain ⟨action, lastSeen⟩ := state
      cases action <;> simp [Cell.allows, Cell.denies]

/-- A packet never makes its cell deny the flow, and lifts a Deny only by a FIN
or RST. -/
theorem cellStep_denies_iff (config : FirewallConfig) (p : FlowPacket) (c : Cell) :
    (cellStep config p c).2.denies = true ↔
      c.denies = true ∧ ¬ (p.admitted = true ∧ p.remove = true) := by
  rcases cellStep_cases config p c with
    ⟨ha, hstep⟩ | ⟨ha, hr, hstep⟩ | ⟨ha, hr, hd, hc, hstep⟩ | ⟨ha, hr, hd, hstep⟩
  · simp [hstep, ha]
  · simp [hstep, ha, hr, Cell.denies]
  · simp [hstep, hr]
  · rw [hstep, denies_refresh _ _ _ c.bucket]
    simp [hr]

/-! ## Cells of the maps -/

section FlowMaps

variable {κ : Type} [DecidableEq κ]

def FlowMaps.cell (s : FlowMaps κ) (k : κ) : Cell := ⟨s.allowList k, s.packetCounts k⟩

def FlowMaps.setCell (s : FlowMaps κ) (k : κ) (c : Cell) : FlowMaps κ :=
  ⟨Function.update s.allowList k c.entry, Function.update s.packetCounts k c.bucket⟩

@[simp] theorem FlowMaps.setCell_cell (s : FlowMaps κ) (k : κ) : s.setCell k (s.cell k) = s := by
  simp [FlowMaps.setCell, FlowMaps.cell]

/-- The text that both arms share, as one function. -/
def policeFlow (config : FirewallConfig) (ctx : XdpContext) (direction : TraficDirection)
    (subnet : Option Action) (key : κ) (protocol : IpProto) (remove : Bool) (s : FlowMaps κ) :
    Verdict × FlowMaps κ :=
  match trackFlow config ctx direction subnet key remove s with
  | (some verdict, maps) => (verdict, maps)
  | (none, maps) =>
    ddosAndBucketEnding config
      ((maps.packetCounts key).getD ⟨(activeProfile config protocol).burst, ctx.ktimeBucket⟩)
      ctx.ktimeBucket (activeProfile config protocol) key direction maps

/-- The subnet check lets the packet through. -/
def subnetAdmits (config : FirewallConfig) (subnet : Option Action) : Bool :=
  !(config.subnetActivated && subnet != some .allow)

def flowPacket (config : FirewallConfig) (ctx : XdpContext) (direction : TraficDirection)
    (subnet : Option Action) (key : FlowKey) (protocol : IpProto) (remove : Bool) : FlowPacket where
  key := key
  direction := direction
  admitted := subnetAdmits config subnet
  profile := activeProfile config protocol
  remove := remove
  ktimeFlow := ctx.ktimeFlow
  ktimeBucket := ctx.ktimeBucket

/-- The bucket stage writes the bucket of the packet's key and nothing else. -/
theorem ddosAndBucketEnding_eq (config : FirewallConfig) (p : FlowPacket) (key : κ)
    (entry : AllowListState) (s : FlowMaps κ) :
    ddosAndBucketEnding config (fetchBucket p (s.packetCounts key)) p.ktimeBucket p.profile key
        p.direction { s with allowList := s.allowList.insert key entry } =
      ((bucketStep config p (s.packetCounts key)).1,
        s.setCell key ⟨some entry, (bucketStep config p (s.packetCounts key)).2⟩) := by
  unfold ddosAndBucketEnding bucketStep
  cases config.ddosActivated with
  | false => simp [FlowMaps.setCell, LruHashMap.insert]
  | true =>
    cases hr : evaluateBucket (fetchBucket p (s.packetCounts key)) p.profile p.ktimeBucket with
    | mk verdict b' =>
      cases verdict <;> simp [FlowMaps.setCell, LruHashMap.insert]

theorem policeFlow_eq (config : FirewallConfig) (ctx : XdpContext) (direction : TraficDirection)
    (subnet : Option Action) (key : κ) (flowKey : FlowKey) (protocol : IpProto) (remove : Bool)
    (s : FlowMaps κ) :
    policeFlow config ctx direction subnet key protocol remove s =
      ((cellStep config (flowPacket config ctx direction subnet flowKey protocol remove)
          (s.cell key)).1,
        s.setCell key
          (cellStep config (flowPacket config ctx direction subnet flowKey protocol remove)
            (s.cell key)).2) := by
  generalize hp : flowPacket config ctx direction subnet flowKey protocol remove = p
  have hadm : p.admitted = subnetAdmits config subnet := by rw [← hp]; rfl
  have hrem : p.remove = remove := by rw [← hp]; rfl
  have hdir : p.direction = direction := by rw [← hp]; rfl
  have hprof : p.profile = activeProfile config protocol := by rw [← hp]; rfl
  have hflow : p.ktimeFlow = ctx.ktimeFlow := by rw [← hp]; rfl
  have hbucket : p.ktimeBucket = ctx.ktimeBucket := by rw [← hp]; rfl
  have hend : ∀ entry, trackFlow config ctx direction subnet key remove s =
        (none, { s with allowList := s.allowList.insert key entry }) →
      policeFlow config ctx direction subnet key protocol remove s =
        ((bucketStep config p (s.cell key).bucket).1,
          s.setCell key ⟨some entry, (bucketStep config p (s.cell key).bucket).2⟩) := by
    intro entry ht
    have := ddosAndBucketEnding_eq config p key entry s
    rw [fetchBucket, hprof, hdir, hbucket] at this
    simp only [policeFlow, ht]
    exact this
  rcases cellStep_cases config p (s.cell key) with
    ⟨ha, hstep⟩ | ⟨ha, hr, hstep⟩ | ⟨ha, hr, hd, hc, hstep⟩ | ⟨ha, hr, hd, hstep⟩
  · rw [hstep]
    rw [hadm, subnetAdmits, Bool.not_eq_false'] at ha
    simp [policeFlow, trackFlow, ha]
  · rw [hstep, hdir]
    rw [hadm, subnetAdmits, Bool.not_eq_true'] at ha
    rw [hrem] at hr
    simp [policeFlow, trackFlow, ha, hr, FlowMaps.setCell, LruHashMap.remove]
  · rw [hstep]
    rw [hadm, subnetAdmits, Bool.not_eq_true'] at ha
    rw [hrem] at hr
    rw [hdir] at hd
    cases he : s.allowList key with
    | none => simp [policeFlow, trackFlow, ha, hr, hd, he]
    | some state =>
      have hact : state.action ≠ .allow := by simpa [Cell.allows, FlowMaps.cell, he] using hc
      simp [policeFlow, trackFlow, ha, hr, hd, he, hact]
  · rw [hstep, hflow]
    rw [hadm, subnetAdmits, Bool.not_eq_true'] at ha
    rw [hrem] at hr
    rw [hdir] at hd
    apply hend
    cases hdirection : direction with
    | outgoing =>
      cases he : s.allowList key with
      | none => simp [trackFlow, ha, hr, he, FlowMaps.cell, refresh]
      | some state => simp [trackFlow, ha, hr, he, FlowMaps.cell, refresh]
    | incoming =>
      have hallow : (s.cell key).allows = true := by simpa [hdirection] using hd
      cases he : s.allowList key with
      | none => simp [Cell.allows, FlowMaps.cell, he] at hallow
      | some state =>
        have hact : state.action = .allow := by simpa [Cell.allows, FlowMaps.cell, he] using hallow
        simp [trackFlow, ha, hr, he, hact, FlowMaps.cell, refresh]

end FlowMaps

def Maps.cell (m : Maps) : FlowKey → Cell
  | .v4 key => m.v4.cell key
  | .v6 key => m.v6.cell key

def Maps.setCell (m : Maps) (k : FlowKey) (c : Cell) : Maps :=
  match k with
  | .v4 key => { m with v4 := m.v4.setCell key c }
  | .v6 key => { m with v6 := m.v6.setCell key c }

@[simp] theorem Maps.setCell_toPolicy (m : Maps) (k : FlowKey) (c : Cell) :
    (m.setCell k c).toPolicy = m.toPolicy := by
  cases k <;> rfl

@[simp] theorem Maps.setCell_cell (m : Maps) (k : FlowKey) : m.setCell k (m.cell k) = m := by
  cases k <;> simp [Maps.setCell, Maps.cell]

theorem Maps.cell_setCell (m : Maps) (k : FlowKey) (c : Cell) :
    (m.setCell k c).cell = Function.update m.cell k c := by
  funext j
  cases k <;> cases j <;>
    simp only [Maps.setCell, Maps.cell, FlowMaps.cell, FlowMaps.setCell, Function.update_apply,
      FlowKey.v4.injEq, FlowKey.v6.injEq, reduceCtorEq, if_false]
  all_goals split <;> rfl

@[simp] theorem Maps.cell_setCell_self (m : Maps) (k : FlowKey) (c : Cell) :
    (m.setCell k c).cell k = c := by
  simp [Maps.cell_setCell]

theorem Maps.cell_setCell_of_ne (m : Maps) {k j : FlowKey} (c : Cell) (h : j ≠ k) :
    (m.setCell k c).cell j = m.cell j := by
  simp [Maps.cell_setCell, h]

@[simp] theorem freshMaps_cell (config : FirewallConfig) (k : FlowKey) :
    (freshMaps config).cell k = ⟨none, none⟩ := by
  cases k <;> rfl

/-- Maps with the same read-only part and the same cells are the same maps. -/
theorem Maps.ext_cells {m m' : Maps} (hp : m.toPolicy = m'.toPolicy) (hc : m.cell = m'.cell) :
    m = m' := by
  obtain ⟨p, ⟨a₄, c₄⟩, ⟨a₆, c₆⟩⟩ := m
  obtain ⟨p', ⟨a₄', c₄'⟩, ⟨a₆', c₆'⟩⟩ := m'
  have h₄ : ∀ k, Cell.mk (a₄ k) (c₄ k) = ⟨a₄' k, c₄' k⟩ := fun k => congrFun hc (.v4 k)
  have h₆ : ∀ k, Cell.mk (a₆ k) (c₆ k) = ⟨a₆' k, c₆' k⟩ := fun k => congrFun hc (.v6 k)
  simp only [Cell.mk.injEq, forall_and] at h₄ h₆
  cases hp
  rw [funext h₄.1, funext h₄.2, funext h₆.1, funext h₆.2]

/-! ## The data plane moves one cell -/

def frameType (nt : NetworkTypes) (ctx : XdpContext) : Option EtherType :=
  (ptrAt ctx.data 0 EthHdr.LEN).bind nt.etherType

def Policy.direction (p : Policy) (ctx : XdpContext) : TraficDirection :=
  trafficDirection p.configuration ctx.ingressIfindex

def inspectV4 (nt : NetworkTypes) (p : Policy) (ctx : XdpContext) : Verdict ⊕ FlowPacket :=
  match parseIpv4 nt ctx.data with
  | .error e => .inl (.error e)
  | .ok h =>
    .inr (flowPacket p.configuration ctx (p.direction ctx)
      (p.subnetMatchingV4.get ⟨32, (h.externalOctets (p.direction ctx)).toList⟩)
      (.v4 (h.flowKey Ipv4Packet.new (p.direction ctx))) h.protocol h.removeFromHashmap)

def inspectV6 (nt : NetworkTypes) (p : Policy) (ctx : XdpContext) : Verdict ⊕ FlowPacket :=
  match parseIpv6 nt ctx.data with
  | .error e => .inl (.error e)
  | .ok h =>
    .inr (flowPacket p.configuration ctx (p.direction ctx)
      (p.subnetMatchingV6.get ⟨128, (h.externalOctets (p.direction ctx)).toList⟩)
      (.v6 (h.flowKey Ipv6Packet.new (p.direction ctx))) h.protocol h.removeFromHashmap)

/-- What becomes of a frame before any flow state is consulted: a verdict, or a
packet of a flow. -/
def inspect (nt : NetworkTypes) (p : Policy) (ctx : XdpContext) : Verdict ⊕ FlowPacket :=
  match ptrAt ctx.data 0 EthHdr.LEN with
  | none => .inl (.error .outOfBounds)
  | some ethhdr =>
    match nt.etherType ethhdr with
    | some .ipv4 =>
      if p.configuration.protocolAllowed.contains .IPV4 then inspectV4 nt p ctx
      else .inl (.error .unsupportedProtocol)
    | some .ipv6 => inspectV6 nt p ctx
    | some .arp => .inl (.ok .pass)
    | some x => .inl (otherArm p.configuration x)
    | none => .inl (.error .unsupportedProtocol)

/-- Settle a packet from its own cell. -/
def settle (config : FirewallConfig) (m : Maps) : Verdict ⊕ FlowPacket → Verdict × Maps
  | .inl verdict => (verdict, m)
  | .inr p => ((cellStep config p (m.cell p.key)).1,
      m.setCell p.key (cellStep config p (m.cell p.key)).2)

theorem ipv4Arm_eq (nt : NetworkTypes) (ctx : XdpContext) (m : Maps) :
    ipv4Arm nt m.configuration (m.direction ctx) ctx m =
      settle m.configuration m (inspectV4 nt m.toPolicy ctx) := by
  cases hp : parseIpv4 nt ctx.data with
  | error e => simp only [ipv4Arm, inspectV4, hp, settle]
  | ok h =>
    let key := h.flowKey Ipv4Packet.new (m.direction ctx)
    let subnet := m.subnetMatchingV4.get ⟨32, (h.externalOctets (m.direction ctx)).toList⟩
    have harm : ipv4Arm nt m.configuration (m.direction ctx) ctx m =
        ((policeFlow m.configuration ctx (m.direction ctx) subnet key h.protocol
            h.removeFromHashmap m.v4).1,
          { m with v4 := (policeFlow m.configuration ctx (m.direction ctx) subnet key h.protocol
            h.removeFromHashmap m.v4).2 }) := by
      simp only [ipv4Arm, hp, policeFlow, ddosAndBucketEndingV4, key, subnet]
      split <;> simp only [*]
    rw [harm, policeFlow_eq _ _ _ _ _ (.v4 key)]
    simp only [inspectV4, hp]
    rfl

theorem ipv6Arm_eq (nt : NetworkTypes) (ctx : XdpContext) (m : Maps) :
    ipv6Arm nt m.configuration (m.direction ctx) ctx m =
      settle m.configuration m (inspectV6 nt m.toPolicy ctx) := by
  cases hp : parseIpv6 nt ctx.data with
  | error e => simp only [ipv6Arm, inspectV6, hp, settle]
  | ok h =>
    let key := h.flowKey Ipv6Packet.new (m.direction ctx)
    let subnet := m.subnetMatchingV6.get ⟨128, (h.externalOctets (m.direction ctx)).toList⟩
    have harm : ipv6Arm nt m.configuration (m.direction ctx) ctx m =
        ((policeFlow m.configuration ctx (m.direction ctx) subnet key h.protocol
            h.removeFromHashmap m.v6).1,
          { m with v6 := (policeFlow m.configuration ctx (m.direction ctx) subnet key h.protocol
            h.removeFromHashmap m.v6).2 }) := by
      simp only [ipv6Arm, hp, policeFlow, ddosAndBucketEndingV6, key, subnet]
      split <;> simp only [*]
    rw [harm, policeFlow_eq _ _ _ _ _ (.v6 key)]
    simp only [inspectV6, hp]
    rfl

/-- The data plane refines the per-flow automaton. -/
theorem xdpFirewall_eq (nt : NetworkTypes) (ctx : XdpContext) (m : Maps) :
    xdpFirewall nt ctx m = settle m.configuration m (inspect nt m.toPolicy ctx) := by
  unfold xdpFirewall inspect
  cases ptrAt ctx.data 0 EthHdr.LEN with
  | none => rfl
  | some ethhdr =>
    simp only
    cases nt.etherType ethhdr with
    | none => rfl
    | some x =>
      cases x with
      | ipv4 =>
        by_cases hc : m.configuration.protocolAllowed.contains .IPV4 = true
        · simp only [hc, if_true]
          exact ipv4Arm_eq nt ctx m
        · simp [hc, settle, otherArm, EtherType.toActivaterEtherTypes]
      | ipv6 => exact ipv6Arm_eq nt ctx m
      | _ => rfl

theorem xdpFirewall_inl {nt : NetworkTypes} {ctx : XdpContext} {m : Maps} {verdict : Verdict}
    (h : inspect nt m.toPolicy ctx = .inl verdict) : xdpFirewall nt ctx m = (verdict, m) := by
  rw [xdpFirewall_eq, h, settle]

theorem xdpFirewall_inr {nt : NetworkTypes} {ctx : XdpContext} {m : Maps} {p : FlowPacket}
    (h : inspect nt m.toPolicy ctx = .inr p) :
    xdpFirewall nt ctx m =
      ((cellStep m.configuration p (m.cell p.key)).1,
        m.setCell p.key (cellStep m.configuration p (m.cell p.key)).2) := by
  rw [xdpFirewall_eq, h, settle]

theorem inspect_of_type {nt : NetworkTypes} {p : Policy} {ctx : XdpContext} {t : EtherType}
    (ht : frameType nt ctx = some t) :
    inspect nt p ctx =
      match t with
      | .ipv4 =>
        if p.configuration.protocolAllowed.contains .IPV4 then inspectV4 nt p ctx
        else .inl (.error .unsupportedProtocol)
      | .ipv6 => inspectV6 nt p ctx
      | .arp => .inl (.ok .pass)
      | x => .inl (otherArm p.configuration x) := by
  obtain ⟨ethhdr, hp, ht⟩ := Option.bind_eq_some_iff.mp ht
  unfold inspect
  simp only [hp, ht]
  cases t <;> rfl

theorem inspect_of_no_type {nt : NetworkTypes} {p : Policy} {ctx : XdpContext}
    (ht : frameType nt ctx = none) : ∃ e, inspect nt p ctx = .inl (.error e) := by
  unfold frameType at ht
  unfold inspect
  cases hp : ptrAt ctx.data 0 EthHdr.LEN with
  | none => exact ⟨.outOfBounds, rfl⟩
  | some ethhdr =>
    simp only [hp, Option.bind_some] at ht
    simp only [ht]
    exact ⟨.unsupportedProtocol, rfl⟩

/-- The frame is of one of the two address families that the firewall tracks. -/
def IsIp (nt : NetworkTypes) (ctx : XdpContext) : Prop :=
  frameType nt ctx = some .ipv4 ∨ frameType nt ctx = some .ipv6

/-- The flow key that the data plane uses for a frame, if it gets that far. -/
def flowKeyOf (nt : NetworkTypes) (p : Policy) (ctx : XdpContext) : Option FlowKey :=
  (inspect nt p ctx).getRight?.map FlowPacket.key

theorem flowKeyOf_eq_some {nt : NetworkTypes} {p : Policy} {ctx : XdpContext} {k : FlowKey}
    (h : flowKeyOf nt p ctx = some k) : ∃ q, inspect nt p ctx = .inr q ∧ q.key = k := by
  unfold flowKeyOf at h
  cases hi : inspect nt p ctx with
  | inl verdict => simp [hi] at h
  | inr q => exact ⟨q, rfl, by simpa [hi] using h⟩

theorem flowKeyOf_of_inr {nt : NetworkTypes} {p : Policy} {ctx : XdpContext} {q : FlowPacket}
    (h : inspect nt p ctx = .inr q) : flowKeyOf nt p ctx = some q.key := by
  simp [flowKeyOf, h]

theorem inspectV4_inr {nt : NetworkTypes} {p : Policy} {ctx : XdpContext} {q : FlowPacket}
    (h : inspectV4 nt p ctx = .inr q) :
    ∃ hd, parseIpv4 nt ctx.data = .ok hd ∧
      q = flowPacket p.configuration ctx (p.direction ctx)
        (p.subnetMatchingV4.get ⟨32, (hd.externalOctets (p.direction ctx)).toList⟩)
        (.v4 (hd.flowKey Ipv4Packet.new (p.direction ctx))) hd.protocol hd.removeFromHashmap := by
  unfold inspectV4 at h
  cases hp : parseIpv4 nt ctx.data with
  | error e => simp [hp] at h
  | ok hd => exact ⟨hd, rfl, by simpa [hp] using h.symm⟩

theorem inspectV6_inr {nt : NetworkTypes} {p : Policy} {ctx : XdpContext} {q : FlowPacket}
    (h : inspectV6 nt p ctx = .inr q) :
    ∃ hd, parseIpv6 nt ctx.data = .ok hd ∧
      q = flowPacket p.configuration ctx (p.direction ctx)
        (p.subnetMatchingV6.get ⟨128, (hd.externalOctets (p.direction ctx)).toList⟩)
        (.v6 (hd.flowKey Ipv6Packet.new (p.direction ctx))) hd.protocol hd.removeFromHashmap := by
  unfold inspectV6 at h
  cases hp : parseIpv6 nt ctx.data with
  | error e => simp [hp] at h
  | ok hd => exact ⟨hd, rfl, by simpa [hp] using h.symm⟩

/-- A frame whose headers parse is a packet of a flow. -/
theorem inspect_parseIpv4 {nt : NetworkTypes} {p : Policy} {ctx : XdpContext}
    {hd : Headers 4 UInt32} (ht : frameType nt ctx = some .ipv4)
    (hc : p.configuration.protocolAllowed.contains .IPV4 = true)
    (hp : parseIpv4 nt ctx.data = .ok hd) :
    inspect nt p ctx = .inr (flowPacket p.configuration ctx (p.direction ctx)
      (p.subnetMatchingV4.get ⟨32, (hd.externalOctets (p.direction ctx)).toList⟩)
      (.v4 (hd.flowKey Ipv4Packet.new (p.direction ctx))) hd.protocol hd.removeFromHashmap) := by
  simp only [inspect_of_type ht, hc, if_true, inspectV4, hp]

theorem inspect_parseIpv6 {nt : NetworkTypes} {p : Policy} {ctx : XdpContext}
    {hd : Headers 16 Words} (ht : frameType nt ctx = some .ipv6)
    (hp : parseIpv6 nt ctx.data = .ok hd) :
    inspect nt p ctx = .inr (flowPacket p.configuration ctx (p.direction ctx)
      (p.subnetMatchingV6.get ⟨128, (hd.externalOctets (p.direction ctx)).toList⟩)
      (.v6 (hd.flowKey Ipv6Packet.new (p.direction ctx))) hd.protocol hd.removeFromHashmap) := by
  simp only [inspect_of_type ht, inspectV6, hp]

/-- A packet of a flow comes out of one of the two parsers. -/
theorem inspect_inr {nt : NetworkTypes} {p : Policy} {ctx : XdpContext} {q : FlowPacket}
    (h : inspect nt p ctx = .inr q) :
    (frameType nt ctx = some .ipv4 ∧ p.configuration.protocolAllowed.contains .IPV4 = true ∧
      inspectV4 nt p ctx = .inr q) ∨
    (frameType nt ctx = some .ipv6 ∧ inspectV6 nt p ctx = .inr q) := by
  cases ht : frameType nt ctx with
  | none =>
    obtain ⟨e, he⟩ := inspect_of_no_type (p := p) ht
    simp [he] at h
  | some t =>
    rw [inspect_of_type ht] at h
    cases t with
    | ipv4 =>
      by_cases hc : p.configuration.protocolAllowed.contains .IPV4 = true
      · exact .inl ⟨rfl, hc, by simpa [hc] using h⟩
      · simp [hc] at h
    | ipv6 => exact .inr ⟨rfl, h⟩
    | _ => simp at h

theorem inspectV4_inl {nt : NetworkTypes} {p : Policy} {ctx : XdpContext} {verdict : Verdict}
    (h : inspectV4 nt p ctx = .inl verdict) : ∃ e, verdict = .error e := by
  unfold inspectV4 at h
  cases hp : parseIpv4 nt ctx.data with
  | error e => exact ⟨e, by simpa [hp] using h.symm⟩
  | ok hd => simp [hp] at h

theorem inspectV6_inl {nt : NetworkTypes} {p : Policy} {ctx : XdpContext} {verdict : Verdict}
    (h : inspectV6 nt p ctx = .inl verdict) : ∃ e, verdict = .error e := by
  unfold inspectV6 at h
  cases hp : parseIpv6 nt ctx.data with
  | error e => exact ⟨e, by simpa [hp] using h.symm⟩
  | ok hd => simp [hp] at h

/-- An IP frame that is decided without its flow is refused. -/
theorem inspect_inl {nt : NetworkTypes} {p : Policy} {ctx : XdpContext} {verdict : Verdict}
    (hip : IsIp nt ctx) (h : inspect nt p ctx = .inl verdict) : ∃ e, verdict = .error e := by
  rcases hip with ht | ht
  · rw [inspect_of_type ht] at h
    by_cases hc : p.configuration.protocolAllowed.contains .IPV4 = true
    · exact inspectV4_inl (by simpa [hc] using h)
    · exact ⟨.unsupportedProtocol, by simpa [hc] using h.symm⟩
  · rw [inspect_of_type ht] at h
    exact inspectV6_inl h

/-- An IP frame that is forwarded is a packet of a flow. -/
theorem inspect_of_forwarded {nt : NetworkTypes} {m : Maps} {ctx : XdpContext}
    (hip : IsIp nt ctx) (hf : forwarded (xdpFirewall nt ctx m).1 = true) :
    ∃ q, inspect nt m.toPolicy ctx = .inr q := by
  cases hi : inspect nt m.toPolicy ctx with
  | inl verdict =>
    obtain ⟨e, rfl⟩ := inspect_inl hip hi
    simp [xdpFirewall_inl hi] at hf
  | inr q => exact ⟨q, rfl⟩

/-- A frame of one family that is a packet of a flow comes out of that family's
parser. -/
theorem inspect_ipv4 {nt : NetworkTypes} {p : Policy} {ctx : XdpContext} {q : FlowPacket}
    (ht : frameType nt ctx = some .ipv4) (h : inspect nt p ctx = .inr q) :
    p.configuration.protocolAllowed.contains .IPV4 = true ∧
      ∃ hd, parseIpv4 nt ctx.data = .ok hd := by
  rcases inspect_inr h with ⟨-, hc, hq⟩ | ⟨ht', -⟩
  · obtain ⟨hd, hp, -⟩ := inspectV4_inr hq
    exact ⟨hc, hd, hp⟩
  · rw [ht] at ht'
    cases ht'

theorem inspect_ipv6 {nt : NetworkTypes} {p : Policy} {ctx : XdpContext} {q : FlowPacket}
    (ht : frameType nt ctx = some .ipv6) (h : inspect nt p ctx = .inr q) :
    ∃ hd, parseIpv6 nt ctx.data = .ok hd := by
  rcases inspect_inr h with ⟨ht', -, -⟩ | ⟨-, hq⟩
  · rw [ht] at ht'
    cases ht'
  · obtain ⟨hd, hp, -⟩ := inspectV6_inr hq
    exact ⟨hd, hp⟩

/-- What a packet of a flow takes from its context and its configuration. -/
theorem inspect_fields {nt : NetworkTypes} {p : Policy} {ctx : XdpContext} {q : FlowPacket}
    (h : inspect nt p ctx = .inr q) :
    q.direction = p.direction ctx ∧ q.ktimeFlow = ctx.ktimeFlow ∧
      q.ktimeBucket = ctx.ktimeBucket ∧
      q.profile = activeProfile p.configuration ⟨q.key.protocol⟩ := by
  have hproto : ∀ (d : TraficDirection) (hd : Headers 4 UInt32),
      (hd.flowKey Ipv4Packet.new d).protocol = hd.protocol.val := by
    intro d hd
    cases d <;> rfl
  have hproto' : ∀ (d : TraficDirection) (hd : Headers 16 Words),
      (hd.flowKey Ipv6Packet.new d).protocol = hd.protocol.val := by
    intro d hd
    cases d <;> rfl
  rcases inspect_inr h with ⟨-, -, hq⟩ | ⟨-, hq⟩
  · obtain ⟨hd, -, rfl⟩ := inspectV4_inr hq
    simp [flowPacket, FlowKey.protocol, hproto]
  · obtain ⟨hd, -, rfl⟩ := inspectV6_inr hq
    simp [flowPacket, FlowKey.protocol, hproto']

/-- The key of the subnet check for the packets of a flow: its external address
in full length. -/
def FlowKey.subnetKey : FlowKey → Key
  | .v4 key => ⟨32, toBeBytes key.destinationAddr⟩
  | .v6 key => ⟨128, ipv6NetworkBytes key.destinationAddr⟩

/-- The subnet check of a flow's packets. -/
def Policy.admits (p : Policy) (k : FlowKey) : Bool :=
  subnetAdmits p.configuration
    (match k with
      | .v4 _ => p.subnetMatchingV4.get k.subnetKey
      | .v6 _ => p.subnetMatchingV6.get k.subnetKey)

/-- The external address of a packet is the destination of its flow key. -/
theorem externalOctets_v4 {h : Headers 4 UInt32} (ha : h.Agree toBeBytes)
    (d : TraficDirection) :
    (h.externalOctets d).toList = toBeBytes (h.flowKey Ipv4Packet.new d).destinationAddr := by
  cases d with
  | incoming => exact ha.1.symm
  | outgoing => exact ha.2.symm

theorem externalOctets_v6 {h : Headers 16 Words} (ha : h.Agree ipv6NetworkBytes)
    (d : TraficDirection) :
    (h.externalOctets d).toList =
      ipv6NetworkBytes (h.flowKey Ipv6Packet.new d).destinationAddr := by
  cases d with
  | incoming => exact ha.1.symm
  | outgoing => exact ha.2.symm

/-- The subnet check sees nothing of a packet but its flow. -/
theorem inspect_admitted {nt : NetworkTypes} {p : Policy} {ctx : XdpContext} {q : FlowPacket}
    (h : inspect nt p ctx = .inr q) : q.admitted = p.admits q.key := by
  rcases inspect_inr h with ⟨-, -, hq⟩ | ⟨-, hq⟩
  · obtain ⟨hd, hp, rfl⟩ := inspectV4_inr hq
    simp only [flowPacket, externalOctets_v4 (parseIpv4_agree hp)]
    rfl
  · obtain ⟨hd, hp, rfl⟩ := inspectV6_inr hq
    simp only [flowPacket, externalOctets_v6 (parseIpv6_agree hp)]
    rfl

/-- Evaluating the inspection of a frame shows that it keeps its flow. -/
theorem keeps_flow {nt : NetworkTypes} {p : Policy} {ctx : XdpContext} {q : FlowPacket}
    (h : (inspect nt p ctx).getRight?.any FlowPacket.remove = false)
    (hi : inspect nt p ctx = .inr q) : q.remove = false := by
  simpa [hi] using h

/-- A packet of flow `k` takes the automaton's step on the cell of `k`; any other
frame leaves that cell alone. -/
theorem xdpFirewall_cell (nt : NetworkTypes) (ctx : XdpContext) (m : Maps) (k : FlowKey) :
    (∃ q, inspect nt m.toPolicy ctx = .inr q ∧ q.key = k ∧
      (xdpFirewall nt ctx m).1 = (cellStep m.configuration q (m.cell k)).1 ∧
      (xdpFirewall nt ctx m).2.cell k = (cellStep m.configuration q (m.cell k)).2) ∨
    ((∀ q, inspect nt m.toPolicy ctx = .inr q → q.key ≠ k) ∧
      (xdpFirewall nt ctx m).2.cell k = m.cell k) := by
  cases h : inspect nt m.toPolicy ctx with
  | inl verdict =>
    refine .inr ⟨fun q hq => ?_, by rw [xdpFirewall_inl h]⟩
    cases hq
  | inr q =>
    by_cases hk : q.key = k
    · subst hk
      refine .inl ⟨q, rfl, rfl, ?_, ?_⟩
      · rw [xdpFirewall_inr h]
      · rw [xdpFirewall_inr h, Maps.cell_setCell_self]
    · refine .inr ⟨fun q' hq' => ?_, ?_⟩
      · cases hq'
        exact hk
      · rw [xdpFirewall_inr h, Maps.cell_setCell_of_ne m _ (Ne.symm hk)]

@[simp] theorem xdpFirewall_toPolicy (nt : NetworkTypes) (ctx : XdpContext) (m : Maps) :
    (xdpFirewall nt ctx m).2.toPolicy = m.toPolicy := by
  cases h : inspect nt m.toPolicy ctx with
  | inl verdict => rw [xdpFirewall_inl h]
  | inr p => rw [xdpFirewall_inr h, Maps.setCell_toPolicy]

end Oxidrop
