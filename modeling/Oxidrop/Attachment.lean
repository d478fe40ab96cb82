import Oxidrop.Ebpf
import Oxidrop.Lib.Run

/-!
# Attaching is all or nothing

Between two calls the live links are those that the program remembers, one for
each adapter that it has. A shutdown takes it back to its creation, so that a
reboot always starts from there, and a reboot that fails ends there.
-/
namespace Oxidrop.Attachment

open Run

inductive EbpfCall where
  | reboot (config : FirewallConfig) (outcomes : AttachOutcomes)
  | shutDownWorkingEbpf (outcomes : AttachOutcomes)

def EbpfCall.outcomes : EbpfCall → AttachOutcomes
  | .reboot _ o => o
  | .shutDownWorkingEbpf o => o

def handle : Machine EbpfCall EbpfProgramm (Except EbpfError Unit) := fun c p =>
  match c with
  | .reboot config o => p.reboot o config
  | .shutDownWorkingEbpf o => p.shutDownWorkingEbpf o

/-- The program is found, links are detached when asked, and the table of links
does not give out an id twice. Attaching may fail. -/
structure Steady (o : AttachOutcomes) : Prop where
  program : o.program = true
  detach : ∀ link, o.detach link = true
  distinct : ∀ link, o.incoming = some link → o.output ≠ some link

/-- The program remembers the live links, which are one for each adapter that it
has. -/
structure Matched (p : EbpfProgramm) : Prop where
  remembered : p.ebpf.links.map Prod.fst = p.programmLoaded
  distinct : p.programmLoaded.Nodup
  adapters : p.ebpf.links.map Prod.snd =
    [p.incomingAdapter, p.outcomingAdapter].filterMap id

/-- What a call must leave behind: matched links; after a reboot the configured
adapters, or nothing at all if it failed; and enforcement exactly with both
adapters attached. -/
structure AllOrNothing (p : EbpfProgramm) (c : EbpfCall) : Prop where
  matched : Matched (handle c p).2
  attached : ∀ config o, c = .reboot config o → (handle c p).1 = .ok () →
    (handle c p).2.attachedAdapters =
      (config.incomingEthernetAdapter, config.outputEthernetAdapter)
  nothing : ∀ e, (handle c p).1 = .error e → (handle c p).2 = .new
  enforcing : (handle c p).2.enforcementActive = true ↔
    ∃ incoming output, (handle c p).2.attachedAdapters = (some incoming, some output) ∧
      (handle c p).2.ebpf.links.map Prod.snd = [incoming, output]

theorem foldl_detach {o : AttachOutcomes} (ho : ∀ link, o.detach link = true)
    (ids : List XdpLinkId) (e : Ebpf) :
    ids.foldl (Ebpf.detach o) e = ⟨e.links.filter (fun l => l.1 ∉ ids)⟩ := by
  induction ids generalizing e with
  | nil => simp
  | cons id ids ih =>
    rw [List.foldl_cons, ih, Ebpf.detach, if_pos (ho id), List.filter_filter]
    congr 1
    refine List.filter_congr fun l _ => ?_
    simpa using Bool.and_comm _ _

/-- A shutdown of matched links leaves a new program. -/
theorem shutDown_matched {o : AttachOutcomes} (ho : Steady o) {p : EbpfProgramm}
    (hp : Matched p) : p.shutDownWorkingEbpf o = (.ok (), .new) := by
  have hgone : p.ebpf.links.filter (fun l => l.1 ∉ p.programmLoaded) = [] := by
    rw [List.filter_eq_nil_iff]
    intro l hl
    have hmem := List.mem_map_of_mem (f := Prod.fst) hl
    rw [hp.remembered] at hmem
    simp [hmem]
  simp only [EbpfProgramm.shutDownWorkingEbpf, ho.program, if_true, foldl_detach ho.detach, hgone]
  rfl

theorem matched_new : Matched .new := ⟨rfl, List.nodup_nil, rfl⟩

/-- Half a reboot leaves things alone, adds the link of its adapter, or takes
everything down. -/
theorem attachTo_matched {o : AttachOutcomes} (ho : Steady o) {p : EbpfProgramm} (hp : Matched p)
    (link : Option XdpLinkId) (adapter : Option UInt32)
    (setAdapter : UInt32 → EbpfProgramm → EbpfProgramm) :
    (adapter = none ∧ p.attachTo o link adapter setAdapter = (.ok (), p)) ∨
    (∃ ifIndex id, adapter = some ifIndex ∧ link = some id ∧
      p.attachTo o link adapter setAdapter =
        (.ok (), { setAdapter ifIndex p with
          ebpf := ⟨(setAdapter ifIndex p).ebpf.links ++ [(id, ifIndex)]⟩
          programmLoaded := (setAdapter ifIndex p).programmLoaded ++ [id] })) ∨
    p.attachTo o link adapter setAdapter = (.error .attachFailed, .new) := by
  unfold EbpfProgramm.attachTo
  cases adapter with
  | none => exact .inl ⟨rfl, rfl⟩
  | some ifIndex =>
    simp only [ho.program, if_true]
    cases link with
    | some id => exact .inr (.inl ⟨ifIndex, id, rfl, rfl, rfl⟩)
    | none => exact .inr (.inr (by simp only [shutDown_matched ho hp]))

/-- The second half of a reboot completes the links of the first, or takes them
down. -/
theorem attachOutput_matched {o : AttachOutcomes} (ho : Steady o) (config : FirewallConfig)
    {links : List (XdpLinkId × UInt32)} (hids : (links.map Prod.fst).Nodup)
    (hfresh : ∀ id, o.output = some id → id ∉ links.map Prod.fst)
    (hadapters : links.map Prod.snd = [config.incomingEthernetAdapter].filterMap id) :
    let second := EbpfProgramm.attachTo o o.output config.outputEthernetAdapter
      (fun ifIndex p => { p with outcomingAdapter := some ifIndex })
      ⟨⟨links⟩, links.map Prod.fst, none, config.incomingEthernetAdapter⟩
    (∃ links', second = (.ok (), ⟨⟨links'⟩, links'.map Prod.fst, config.outputEthernetAdapter,
        config.incomingEthernetAdapter⟩) ∧
      (links'.map Prod.fst).Nodup ∧
      links'.map Prod.snd =
        [config.incomingEthernetAdapter, config.outputEthernetAdapter].filterMap id) ∨
    second = (.error .attachFailed, .new) := by
  intro second
  have hpair : [config.incomingEthernetAdapter, config.outputEthernetAdapter].filterMap id =
      links.map Prod.snd ++ [config.outputEthernetAdapter].filterMap id := by
    rw [hadapters, ← List.filterMap_append]
    rfl
  have hp : Matched ⟨⟨links⟩, links.map Prod.fst, none, config.incomingEthernetAdapter⟩ := by
    refine ⟨rfl, hids, hadapters.trans ?_⟩
    cases config.incomingEthernetAdapter <;> rfl
  rw [hpair]
  rcases attachTo_matched ho hp o.output config.outputEthernetAdapter
      (fun ifIndex p => { p with outcomingAdapter := some ifIndex }) with
    ⟨hout, hsecond⟩ | ⟨ifIndex, id, hout, hid, hsecond⟩ | hsecond
  · exact .inl ⟨links, hsecond.trans (by rw [hout]), hids, by simp [hout]⟩
  · refine .inl ⟨links ++ [(id, ifIndex)], ?_, ?_, by simp [hout]⟩
    · rw [hout, List.map_append]
      exact hsecond
    · rw [List.map_append]
      refine List.nodup_append.mpr ⟨hids, by simp, ?_⟩
      intro id' hmem id'' hid' heq
      rw [heq, List.mem_singleton.mp hid'] at hmem
      exact hfresh id hid hmem
  · exact .inr hsecond

/-- Every call on matched links ends in one of three ways: it attaches what the
configuration asks for, or it leaves a new program. -/
theorem handle_matched {p : EbpfProgramm} (hp : Matched p) {c : EbpfCall} (hc : Steady c.outcomes) :
    (∃ config o links, c = .reboot config o ∧
      handle c p = (.ok (), ⟨⟨links⟩, links.map Prod.fst, config.outputEthernetAdapter,
        config.incomingEthernetAdapter⟩) ∧
      (links.map Prod.fst).Nodup ∧
      links.map Prod.snd =
        [config.incomingEthernetAdapter, config.outputEthernetAdapter].filterMap id) ∨
    (∃ o, c = .shutDownWorkingEbpf o ∧ handle c p = (.ok (), .new)) ∨
    (∃ config o e, c = .reboot config o ∧ handle c p = (.error e, .new)) := by
  cases c with
  | shutDownWorkingEbpf o => exact .inr (.inl ⟨o, rfl, shutDown_matched hc hp⟩)
  | reboot config o =>
    have ho : Steady o := hc
    -- after the first half the links are those of the incoming adapter, if there is one
    have hfirst : (∃ links, (links.map Prod.fst).Nodup ∧
        (∀ id, o.output = some id → id ∉ links.map Prod.fst) ∧
        links.map Prod.snd = [config.incomingEthernetAdapter].filterMap id ∧
        handle (.reboot config o) p = EbpfProgramm.attachTo o o.output config.outputEthernetAdapter
          (fun ifIndex p => { p with outcomingAdapter := some ifIndex })
          ⟨⟨links⟩, links.map Prod.fst, none, config.incomingEthernetAdapter⟩) ∨
        handle (.reboot config o) p = (.error .attachFailed, .new) := by
      simp only [handle, EbpfProgramm.reboot, shutDown_matched ho hp]
      rcases attachTo_matched ho matched_new o.incoming config.incomingEthernetAdapter
          (fun ifIndex p => { p with incomingAdapter := some ifIndex }) with
        ⟨hin, hattach⟩ | ⟨ifIndex, id, hin, hid, hattach⟩ | hattach
      · refine .inl ⟨[], by simp, by simp, by simp [hin], ?_⟩
        simp only [hattach]
        rw [hin]
        rfl
      · refine .inl ⟨[(id, ifIndex)], by simp, ?_, by simp [hin], ?_⟩
        · intro id' hid' hmem
          cases List.mem_singleton.mp hmem
          exact ho.distinct id hid hid'
        · simp only [hattach]
          rw [hin]
          rfl
      · exact .inr (by simp only [hattach])
    rcases hfirst with ⟨links, hids, hfresh, hadapters, hsecond⟩ | hfailed
    · rcases attachOutput_matched ho config hids hfresh hadapters with
        ⟨links', hattach, hids', hadapters'⟩ | hattach
      · exact .inl ⟨config, o, links', rfl, hsecond.trans hattach, hids', hadapters'⟩
      · exact .inr (.inr ⟨config, o, _, rfl, hsecond.trans hattach⟩)
    · exact .inr (.inr ⟨config, o, _, rfl, hfailed⟩)

/-- A call that ends in a new program and is no successful reboot. -/
theorem allOrNothing_new {p : EbpfProgramm} {c : EbpfCall} (hnew : (handle c p).2 = .new)
    (hreboot : ∀ config o, c = .reboot config o → (handle c p).1 ≠ .ok ()) :
    AllOrNothing p c := by
  refine ⟨by rw [hnew]; exact matched_new, ?_, fun _ _ => hnew, ?_⟩
  · exact fun config o hc hok => absurd hok (hreboot config o hc)
  · rw [hnew]
    simp [EbpfProgramm.enforcementActive, EbpfProgramm.new, EbpfProgramm.attachedAdapters]

theorem handle_allOrNothing {p : EbpfProgramm} (hp : Matched p) {c : EbpfCall}
    (hc : Steady c.outcomes) : AllOrNothing p c := by
  rcases handle_matched hp hc with
    ⟨config, o, links, rfl, hh, hids, hadapters⟩ | ⟨o, rfl, hh⟩ | ⟨config, o, e, rfl, hh⟩
  · have hactive : (handle (.reboot config o) p).2.enforcementActive =
        (links.length == 2 && config.incomingEthernetAdapter.isSome &&
          config.outputEthernetAdapter.isSome) := by
      rw [hh]
      simp [EbpfProgramm.enforcementActive]
    have hlength := congrArg List.length hadapters
    rw [List.length_map] at hlength
    refine ⟨by rw [hh]; exact ⟨rfl, hids, hadapters⟩, ?_, ?_, ?_⟩
    · intro config' o' hc' _
      cases hc'
      rw [hh]
      rfl
    · rw [hh]
      intro e he
      cases he
    · rw [hactive, hlength, hh]
      simp only [EbpfProgramm.attachedAdapters, hadapters]
      cases config.incomingEthernetAdapter <;> cases config.outputEthernetAdapter <;> simp
  · refine allOrNothing_new (by rw [hh]) fun config o hc => ?_
    cases hc
  · refine allOrNothing_new (by rw [hh]) fun _ _ _ => ?_
    rw [hh]
    simp

/-- After every call of every sequence the links are those of the adapters, all of
the configuration's or none. -/
theorem all_or_nothing (calls : List EbpfCall) (h : ∀ c ∈ calls, Steady c.outcomes) :
    Always handle AllOrNothing .new calls := by
  refine always_of_invariant (C := fun _ c => Steady c.outcomes) (I := Matched) ?_ _ calls
    matched_new (always_of_forall _ calls h)
  intro p c hp hc
  have hcall := handle_allOrNothing hp hc
  exact ⟨hcall, hcall.matched⟩

/-- Interfaces 2 and 3, where the second attach of the second reboot fails. -/
def failingSecond : List EbpfCall :=
  let config : FirewallConfig := { defaultConfig with
    incomingEthernetAdapter := some 2
    outputEthernetAdapter := some 3 }
  [.reboot config ⟨true, fun _ => true, some 7, some 8⟩,
    .reboot config ⟨true, fun _ => true, some 9, none⟩,
    .shutDownWorkingEbpf ⟨true, fun _ => true, none, none⟩]

theorem all_or_nothing_failing : Always handle AllOrNothing .new failingSecond := by
  refine all_or_nothing failingSecond fun c hc => ?_
  simp only [failingSecond, List.mem_cons, List.not_mem_nil, or_false] at hc
  rcases hc with rfl | rfl | rfl
  · exact ⟨rfl, fun _ => rfl, by simp [EbpfCall.outcomes]⟩
  · exact ⟨rfl, fun _ => rfl, by simp [EbpfCall.outcomes]⟩
  · exact ⟨rfl, fun _ => rfl, by simp [EbpfCall.outcomes]⟩

end Oxidrop.Attachment
