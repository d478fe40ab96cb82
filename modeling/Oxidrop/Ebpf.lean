import Oxidrop.Common

/-!
# Attaching the data plane

`EbpfProgramm` keeps the ids of the links it has attached. What the kernel
answers to the calls of one request is an input, so that a statement about all
answers covers every failure.
-/
namespace Oxidrop

abbrev XdpLinkId := Nat

/-- The `Ebpf` handle, as far as it is used: the links that are attached, each
with its interface. -/
structure Ebpf where
  links : List (XdpLinkId × UInt32)
  deriving DecidableEq, Repr

structure EbpfProgramm where
  ebpf : Ebpf
  programmLoaded : List XdpLinkId
  outcomingAdapter : Option UInt32
  incomingAdapter : Option UInt32
  deriving DecidableEq, Repr

/-- `program` says whether `xdp()` finds the program. An attach call answers with
the id of the new link, or fails. -/
structure AttachOutcomes where
  program : Bool
  detach : XdpLinkId → Bool
  incoming : Option XdpLinkId
  output : Option XdpLinkId

inductive EbpfError where
  | gettingEbpfFailed | attachFailed
  deriving DecidableEq, Repr

/-- A detach that fails leaves its link in place. -/
def Ebpf.detach (o : AttachOutcomes) (ebpf : Ebpf) (link : XdpLinkId) : Ebpf :=
  if o.detach link then ⟨ebpf.links.filter (fun l => l.1 ≠ link)⟩ else ebpf

def EbpfProgramm.shutDownWorkingEbpf (o : AttachOutcomes) (p : EbpfProgramm) :
    Except EbpfError Unit × EbpfProgramm :=
  let programmLoadedTaken := p.programmLoaded
  let p := { p with programmLoaded := [] }
  if o.program then
    (.ok (), { p with
      ebpf := programmLoadedTaken.foldl (Ebpf.detach o) p.ebpf
      outcomingAdapter := none
      incomingAdapter := none })
  else (.error .gettingEbpfFailed, p)

/-- One half of `reboot`: attach to the adapter if there is one, and shut
everything down again if that fails. -/
def EbpfProgramm.attachTo (o : AttachOutcomes) (link : Option XdpLinkId)
    (adapter : Option UInt32) (setAdapter : UInt32 → EbpfProgramm → EbpfProgramm)
    (p : EbpfProgramm) : Except EbpfError Unit × EbpfProgramm :=
  match adapter with
  | none => (.ok (), p)
  | some ifIndex =>
    if o.program then
      match link with
      | some linkId =>
        let p := setAdapter ifIndex p
        (.ok (), { p with
          ebpf := ⟨p.ebpf.links ++ [(linkId, ifIndex)]⟩
          programmLoaded := p.programmLoaded ++ [linkId] })
      | none =>
        match p.shutDownWorkingEbpf o with
        | (.ok _, p) => (.error .attachFailed, p)
        | (.error e, p) => (.error e, p)
    else (.error .gettingEbpfFailed, p)

def EbpfProgramm.reboot (o : AttachOutcomes) (config : FirewallConfig) (p : EbpfProgramm) :
    Except EbpfError Unit × EbpfProgramm :=
  match p.shutDownWorkingEbpf o with
  | (.error e, p) => (.error e, p)
  | (.ok _, p) =>
    match p.attachTo o o.incoming config.incomingEthernetAdapter
        (fun ifIndex p => { p with incomingAdapter := some ifIndex }) with
    | (.error e, p) => (.error e, p)
    | (.ok _, p) =>
      p.attachTo o o.output config.outputEthernetAdapter
        (fun ifIndex p => { p with outcomingAdapter := some ifIndex })

/-- `new()`, with the program loaded and attached nowhere. -/
def EbpfProgramm.new : EbpfProgramm := ⟨⟨[]⟩, [], none, none⟩

def EbpfProgramm.enforcementActive (p : EbpfProgramm) : Bool :=
  p.programmLoaded.length == 2 && p.incomingAdapter.isSome && p.outcomingAdapter.isSome

/-- The incoming adapter, and then the outgoing one. -/
def EbpfProgramm.attachedAdapters (p : EbpfProgramm) : Option UInt32 × Option UInt32 :=
  (p.incomingAdapter, p.outcomingAdapter)

/-- The program is there and every adapter that is asked for can be attached. -/
def AttachOutcomes.Attaches (o : AttachOutcomes) (config : FirewallConfig) : Prop :=
  o.program = true ∧ (config.incomingEthernetAdapter.isSome = true → o.incoming.isSome = true) ∧
    (config.outputEthernetAdapter.isSome = true → o.output.isSome = true)

theorem shutDownWorkingEbpf_ok_iff (o : AttachOutcomes) (p : EbpfProgramm) :
    (∃ p', p.shutDownWorkingEbpf o = (.ok (), p')) ↔ o.program = true := by
  unfold EbpfProgramm.shutDownWorkingEbpf
  cases o.program <;> simp

theorem attachTo_ok_iff {o : AttachOutcomes} (ho : o.program = true) (link : Option XdpLinkId)
    (adapter : Option UInt32) (setAdapter : UInt32 → EbpfProgramm → EbpfProgramm)
    (p : EbpfProgramm) :
    (∃ p', p.attachTo o link adapter setAdapter = (.ok (), p')) ↔
      (adapter.isSome = true → link.isSome = true) := by
  obtain ⟨p', hp'⟩ := (shutDownWorkingEbpf_ok_iff o p).mpr ho
  unfold EbpfProgramm.attachTo
  cases adapter with
  | none => simp
  | some ifIndex => cases link <;> simp [ho, hp']

theorem reboot_ok_iff (o : AttachOutcomes) (config : FirewallConfig) (p : EbpfProgramm) :
    (∃ p', p.reboot o config = (.ok (), p')) ↔ o.Attaches config := by
  unfold EbpfProgramm.reboot AttachOutcomes.Attaches
  cases ho : o.program with
  | false =>
    have hshut := (shutDownWorkingEbpf_ok_iff o p).not.mpr (by simp [ho])
    cases hs : p.shutDownWorkingEbpf o with
    | mk r p₁ =>
      cases r with
      | error e => simp
      | ok u => exact absurd ⟨p₁, hs⟩ hshut
  | true =>
    obtain ⟨p₁, hp₁⟩ := (shutDownWorkingEbpf_ok_iff o p).mpr ho
    have hin := attachTo_ok_iff ho o.incoming config.incomingEthernetAdapter
      (fun ifIndex p => { p with incomingAdapter := some ifIndex }) p₁
    simp only [hp₁, true_and, ← hin]
    cases hi : p₁.attachTo o o.incoming config.incomingEthernetAdapter
        (fun ifIndex p => { p with incomingAdapter := some ifIndex }) with
    | mk r p₂ =>
      cases r with
      | error e => simp
      | ok u =>
        have hout := attachTo_ok_iff ho o.output config.outputEthernetAdapter
          (fun ifIndex p => { p with outcomingAdapter := some ifIndex }) p₂
        simp [hout]

theorem shutDownWorkingEbpf_adapters {o : AttachOutcomes} (ho : o.program = true)
    (p : EbpfProgramm) : (p.shutDownWorkingEbpf o).2.attachedAdapters = (none, none) := by
  simp [EbpfProgramm.shutDownWorkingEbpf, ho, EbpfProgramm.attachedAdapters]

/-- Half a reboot sets its adapter, or takes both adapters down. -/
theorem attachTo_cases {o : AttachOutcomes} (ho : o.program = true) (link : Option XdpLinkId)
    (adapter : Option UInt32) (setAdapter : UInt32 → EbpfProgramm → EbpfProgramm)
    (p : EbpfProgramm) :
    ((adapter.isSome = true → link.isSome = true) ∧
      ∃ p', p.attachTo o link adapter setAdapter = (.ok (), p') ∧
        p'.attachedAdapters = (adapter.elim p (setAdapter · p)).attachedAdapters) ∨
    (¬ (adapter.isSome = true → link.isSome = true) ∧
      ∃ p', p.attachTo o link adapter setAdapter = (.error .attachFailed, p') ∧
        p'.attachedAdapters = (none, none)) := by
  unfold EbpfProgramm.attachTo
  cases adapter with
  | none => exact .inl ⟨by simp, p, rfl, rfl⟩
  | some ifIndex =>
    simp only [ho, if_true]
    cases link with
    | some linkId => exact .inl ⟨by simp, _, rfl, rfl⟩
    | none =>
      obtain ⟨p', hp'⟩ := (shutDownWorkingEbpf_ok_iff o p).mpr ho
      have hdown := shutDownWorkingEbpf_adapters ho p
      rw [hp'] at hdown
      exact .inr ⟨by simp, p', by simp only [hp'], hdown⟩

/-- A reboot attaches the configured adapters, or none. -/
theorem reboot_adapters {o : AttachOutcomes} (ho : o.program = true) (config : FirewallConfig)
    (p : EbpfProgramm) :
    (o.Attaches config → (p.reboot o config).2.attachedAdapters =
      (config.incomingEthernetAdapter, config.outputEthernetAdapter)) ∧
    (¬ o.Attaches config → (p.reboot o config).2.attachedAdapters = (none, none)) := by
  obtain ⟨p₁, hp₁⟩ := (shutDownWorkingEbpf_ok_iff o p).mpr ho
  have hdown := shutDownWorkingEbpf_adapters ho p
  rw [hp₁] at hdown
  simp only [EbpfProgramm.reboot, hp₁, AttachOutcomes.Attaches, ho, true_and]
  rcases attachTo_cases ho o.incoming config.incomingEthernetAdapter
      (fun ifIndex p => { p with incomingAdapter := some ifIndex }) p₁ with
    ⟨hin, p₂, hp₂, hadapters₂⟩ | ⟨hin, p₂, hp₂, hadapters₂⟩
  · rcases attachTo_cases ho o.output config.outputEthernetAdapter
        (fun ifIndex p => { p with outcomingAdapter := some ifIndex }) p₂ with
      ⟨hout, p₃, hp₃, hadapters₃⟩ | ⟨hout, p₃, hp₃, hadapters₃⟩
    · refine ⟨fun _ => ?_, fun h => absurd ⟨hin, hout⟩ h⟩
      simp only [hp₂, hp₃, hadapters₃]
      cases hi : config.incomingEthernetAdapter <;> cases ho : config.outputEthernetAdapter <;>
        simp_all [EbpfProgramm.attachedAdapters]
    · refine ⟨fun h => absurd h.2 hout, fun _ => ?_⟩
      simp only [hp₂, hp₃, hadapters₃]
  · refine ⟨fun h => absurd h.1 hin, fun _ => ?_⟩
    simp only [hp₂, hadapters₂]

end Oxidrop
