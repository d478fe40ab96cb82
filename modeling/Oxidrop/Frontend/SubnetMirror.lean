import Oxidrop.Frontend.SubnetPage

/-!
# The configuration page shows the table

As long as nobody else changes the rules and no two requests that are under way are for one
rule, what the page shows is the table whenever no request is under way. In between, the
table already has what the page will show under the keys of the requests that have been
answered with success.
-/
namespace Oxidrop.Frontend.SubnetPage

open Run Serde Numeral JavaScript Management
open Backup (encodeAction encodeSubnetMatchUpdate RuleEvent handleRule)

/-! ## Places of a list -/

/-- In a list of things that are related pairwise, those at different places are. -/
theorem rel_of_places {α : Type} {R : α → α → Prop} (hsymm : ∀ x y, R x y → R y x) {l : List α}
    (h : l.Pairwise R) {m n : Nat} {x y : α} (hm : l[m]? = some x) (hn : l[n]? = some y)
    (hne : m ≠ n) : R x y := by
  obtain ⟨hmlt, rfl⟩ := List.getElem?_eq_some_iff.mp hm
  obtain ⟨hnlt, rfl⟩ := List.getElem?_eq_some_iff.mp hn
  rcases Nat.lt_or_gt_of_ne hne with hlt | hgt
  · exact List.pairwise_iff_getElem.mp h m n hmlt hnlt hlt
  · exact hsymm _ _ (List.pairwise_iff_getElem.mp h n m hnlt hmlt hgt)

theorem eq_or_mem_eraseIdx {α : Type} {l : List α} {n : Nat} {y z : α} (hn : l[n]? = some y)
    (hz : z ∈ l) : z = y ∨ z ∈ l.eraseIdx n := by
  obtain ⟨m, hm⟩ := List.mem_iff_getElem?.mp hz
  by_cases hplace : m = n
  · subst hplace
    exact .inl (Option.some.inj (hm.symm.trans hn))
  · exact .inr (List.mem_eraseIdx_iff_getElem?.mpr ⟨m, hplace, hm⟩)

theorem mem_set_of_ne {α : Type} {l : List α} {n : Nat} {x y z : α} (hn : l[n]? = some y)
    (hz : z ∈ l) (hne : z ≠ y) : z ∈ l.set n x := by
  obtain ⟨m, hm⟩ := List.mem_iff_getElem?.mp hz
  have hplace : n ≠ m := by
    rintro rfl
    exact hne (Option.some.inj (hm.symm.trans hn))
  exact List.mem_of_getElem? ((List.getElem?_set_ne hplace).trans hm)

section Mirror

variable {ν κ μ : Type} {form : Form ν κ μ}

open SubnetFamily

/-! ## The same rules -/

/-- A rule without its address. Its network and prefix length are the key. -/
def SubnetRule.content (item : SubnetRule μ) : (μ × Nat) × Action :=
  ((item.network, item.prefixLen), item.action)

def Change.content : Change μ → (μ × Nat) × Action
  | .add network prefixLen action _ => ((network, prefixLen), action)
  | .remove rule => rule.content

def Form.shown (form : Form ν κ μ) (rule : SubnetMatchUpdate ν) : (μ × Nat) × Action :=
  ((form.web rule.network, rule.prefixLen.toNat), rule.action)

/-- No two requests that are under way are for one rule. -/
def Site.Apart (s : Site κ μ) : Prop :=
  s.flights.Pairwise fun f g => f.change.content.1 ≠ g.change.content.1

instance [DecidableEq μ] (s : Site κ μ) : Decidable s.Apart :=
  inferInstanceAs (Decidable (List.Pairwise _ _))

theorem Site.Apart.places {s : Site κ μ} (h : s.Apart) {m n : Nat} {f g : Flight μ}
    (hm : s.flights[m]? = some f) (hn : s.flights[n]? = some g) (hne : m ≠ n) :
    f.change.content.1 ≠ g.change.content.1 :=
  rel_of_places (R := fun f g : Flight μ => f.change.content.1 ≠ g.change.content.1)
    (fun _ _ hkey => hkey.symm) h hm hn hne

theorem Site.Apart.ne {s : Site κ μ} (h : s.Apart) {f g : Flight μ} (hf : f ∈ s.flights)
    (hg : g ∈ s.flights) (hne : f ≠ g) : f.change.content.1 ≠ g.change.content.1 := by
  obtain ⟨m, hm⟩ := List.mem_iff_getElem?.mp hf
  obtain ⟨n, hn⟩ := List.mem_iff_getElem?.mp hg
  refine h.places hm hn ?_
  rintro rfl
  exact hne (Option.some.inj (hm.symm.trans hn))

/-- The page shows the rules of the table in some order, no two of them under one key, and
every address is read as the network of its rule. -/
structure Mirrors (form : Form ν κ μ) (s : Site κ μ) : Prop where
  rules : ∃ listing, form.family.listSubnet s.store.rows = .ok listing ∧
    (s.page.rules.map SubnetRule.content).Perm (listing.map form.shown)
  keys : (s.page.rules.map fun item => item.content.1).Nodup
  addresses : ∀ item ∈ s.page.rules, form.parse item.address = some item.network

/-- The content is that of a rule of the family. -/
def Form.Shows (form : Form ν κ μ) (x : (μ × Nat) × Action) : Prop :=
  ∃ rule : SubnetMatchUpdate ν, rule.prefixLen ≤ form.family.maxPrefix ∧ x = form.shown rule

/-- What is well formed of a page. -/
structure Page.Sound (form : Form ν κ μ) (p : Page μ) : Prop where
  addresses : ∀ item ∈ p.rules, form.parse item.address = some item.network
  shows : ∀ item ∈ p.rules, form.Shows item.content
  objects : ∀ item ∈ p.rules, item.object < p.objects
  nodup : p.rules.Nodup
  single : ∀ item ∈ p.rules, ∀ other ∈ p.rules,
    item.object = other.object ∨ item.content.1 = other.content.1 → item = other

/-- What is kept for a response: an address that is read as its network, or a rule of the
page. -/
def Change.Pending (form : Form ν κ μ) (p : Page μ) : Change μ → Prop
  | .add network _ _ address => form.parse address = some network
  | .remove rule => rule ∈ p.rules

def Change.adds : Change μ → Prop
  | .add .. => True
  | .remove _ => False

/-- The table holds what the page shows, except under the keys of requests that have been
answered with success; there it holds what the page will show. -/
structure Agrees (form : Form ν κ μ) (s : Site κ μ) (rules : List (SubnetMatchUpdate ν)) :
    Prop where
  holds : Holds form.family s.store rules
  sound : s.page.Sound form
  apart : s.Apart
  flights : ∀ f ∈ s.flights, form.Shows f.change.content ∧ f.change.Pending form s.page
  settled : ∀ rule, (∀ f ∈ s.flights, f.ok = some true →
      f.change.content.1 ≠ (form.shown rule).1) →
    (rule ∈ rules ↔ ∃ item ∈ s.page.rules, item.content = form.shown rule)
  answered : ∀ f ∈ s.flights, f.ok = some true → ∀ rule,
    f.change.content.1 = (form.shown rule).1 →
      (rule ∈ rules ↔ f.change.adds ∧ f.change.content = form.shown rule)

theorem web_inj (h : form.Lawful) {n n' : ν} (heq : form.web n = form.web n') : n = n' :=
  (h.same n n').mp (by rw [heq]; exact (h.same n' n').mpr rfl)

theorem shown_key_iff (h : form.Lawful) {r r' : SubnetMatchUpdate ν} :
    (form.shown r).1 = (form.shown r').1 ↔ SameKey r r' := by
  constructor
  · intro heq
    exact ⟨web_inj h (congrArg Prod.fst heq), UInt32.toNat_inj.mp (congrArg Prod.snd heq)⟩
  · rintro ⟨hnetwork, hlen⟩
    rw [Form.shown, Form.shown, hnetwork, hlen]

theorem shown_inj (h : form.Lawful) {r r' : SubnetMatchUpdate ν}
    (heq : form.shown r = form.shown r') : r = r' := by
  obtain ⟨hnetwork, hlen⟩ := (shown_key_iff h).mp (congrArg Prod.fst heq)
  have haction : r.action = r'.action := congrArg Prod.snd heq
  obtain ⟨network, prefixLen, action⟩ := r
  obtain ⟨network', prefixLen', action'⟩ := r'
  cases hnetwork
  cases hlen
  cases haction
  rfl

/-- Two contents that are those of rules have one key exactly if the page finds so. -/
theorem same_iff (h : form.Lawful) {x y : (μ × Nat) × Action} (hx : form.Shows x)
    (hy : form.Shows y) : (form.same x.1.1 y.1.1 && x.1.2 == y.1.2) = true ↔ x.1 = y.1 := by
  obtain ⟨r, -, rfl⟩ := hx
  obtain ⟨r', -, rfl⟩ := hy
  rw [shown_key_iff h]
  simp [Form.shown, h.same, SameKey, UInt32.toNat_inj]

/-! ## Responses -/

/-- What a response with success puts on the page. -/
def Change.new (p : Page μ) : Change μ → List (SubnetRule μ)
  | .add network prefixLen action address => [⟨p.objects, network, prefixLen, action, address⟩]
  | .remove _ => []

theorem mem_new {p : Page μ} {change : Change μ} {item : SubnetRule μ}
    (h : item ∈ change.new p) :
    change.adds ∧ item.content = change.content ∧ item.object = p.objects := by
  cases change with
  | add network prefixLen action address =>
    cases List.mem_singleton.mp h
    exact ⟨trivial, rfl, rfl⟩
  | remove rule => cases h

theorem new_address {p : Page μ} {change : Change μ} (h : change.Pending form p)
    {item : SubnetRule μ} (hitem : item ∈ change.new p) :
    form.parse item.address = some item.network := by
  cases change with
  | add network prefixLen action address =>
    cases List.mem_singleton.mp hitem
    exact h
  | remove rule => cases hitem

/-- Both kinds of change leave the rules with other keys, and a rule that is added comes last. -/
theorem mem_respond (h : form.Lawful) {p : Page μ} (hp : p.Sound form) {change : Change μ}
    (hshows : form.Shows change.content) (hpending : change.Pending form p)
    (item : SubnetRule μ) :
    item ∈ (p.respond form change true).rules ↔
      (item ∈ p.rules ∧ item.content.1 ≠ change.content.1) ∨ item ∈ change.new p := by
  cases change with
  | add network prefixLen action address =>
    simp only [Page.respond, Change.new, List.mem_append, List.mem_filter]
    refine or_congr_left (and_congr_right fun hitem => ?_)
    have hsame := same_iff h (hp.shows item hitem) hshows
    rw [ne_eq, ← hsame, Bool.not_eq_true', Bool.not_eq_true]
    rfl
  | remove rule =>
    simp only [Page.respond, Change.new, List.mem_filter, List.not_mem_nil, or_false]
    refine and_congr_right fun hitem => ?_
    have hsingle := hp.single item hitem rule hpending
    rw [bne_iff_ne]
    constructor
    · intro hobject hkey
      exact hobject (by rw [hsingle (.inr hkey)])
    · intro hkey hobject
      exact hkey (by rw [hsingle (.inl hobject)]; rfl)

theorem respond_objects (form : Form ν κ μ) (p : Page μ) (change : Change μ) :
    p.objects ≤ (p.respond form change true).objects ∧
      ∀ item ∈ change.new p, item.object < (p.respond form change true).objects := by
  cases change with
  | add network prefixLen action address =>
    refine ⟨Nat.le_succ _, fun item hitem => ?_⟩
    rw [(mem_new hitem).2.2]
    exact Nat.lt_succ_self _
  | remove rule => exact ⟨le_rfl, fun item hitem => by cases hitem⟩

theorem respond_nodup {p : Page μ} (hp : p.Sound form) (change : Change μ) :
    (p.respond form change true).rules.Nodup := by
  cases change with
  | add network prefixLen action address =>
    refine List.Nodup.append (hp.nodup.filter _) (List.nodup_singleton _) ?_
    intro item hitem hnew
    have hlt := hp.objects item (List.mem_of_mem_filter hitem)
    rw [List.mem_singleton.mp hnew] at hlt
    exact Nat.lt_irrefl _ hlt
  | remove rule => exact hp.nodup.filter _

theorem sound_respond (h : form.Lawful) {p : Page μ} (hp : p.Sound form) {change : Change μ}
    (hshows : form.Shows change.content) (hpending : change.Pending form p) :
    (p.respond form change true).Sound form := by
  have hmem := mem_respond h hp hshows hpending
  constructor
  · intro item hitem
    rcases (hmem item).mp hitem with ⟨hold, -⟩ | hnew
    · exact hp.addresses item hold
    · exact new_address hpending hnew
  · intro item hitem
    rcases (hmem item).mp hitem with ⟨hold, -⟩ | hnew
    · exact hp.shows item hold
    · rwa [(mem_new hnew).2.1]
  · intro item hitem
    obtain ⟨hle, hlt⟩ := respond_objects form p change
    rcases (hmem item).mp hitem with ⟨hold, -⟩ | hnew
    · exact (hp.objects item hold).trans_le hle
    · exact hlt item hnew
  · exact respond_nodup hp change
  · intro item hitem other hother hsame
    rcases (hmem item).mp hitem with ⟨hold, hkey⟩ | hnew <;>
      rcases (hmem other).mp hother with ⟨hold', hkey'⟩ | hnew'
    · exact hp.single item hold other hold' hsame
    · obtain ⟨-, hcontent, hobject⟩ := mem_new hnew'
      have hlt := hp.objects item hold
      rcases hsame with hsame | hsame
      · omega
      · exact absurd (hsame.trans (congrArg Prod.fst hcontent)) hkey
    · obtain ⟨-, hcontent, hobject⟩ := mem_new hnew
      have hlt := hp.objects other hold'
      rcases hsame with hsame | hsame
      · omega
      · exact absurd (hsame.symm.trans (congrArg Prod.fst hcontent)) hkey'
    · cases change with
      | add network prefixLen action address =>
        rw [List.mem_singleton.mp hnew, List.mem_singleton.mp hnew']
      | remove rule => cases hnew

/-- A page without success in its response has the rules that it had. -/
theorem respond_false (form : Form ν κ μ) (p : Page μ) (change : Change μ) :
    (p.respond form change false).rules = p.rules ∧
      (p.respond form change false).objects = p.objects := by
  cases change <;> exact ⟨rfl, rfl⟩

theorem Page.Sound.same {p q : Page μ} (hp : p.Sound form) (hrules : q.rules = p.rules)
    (hobjects : q.objects = p.objects) : q.Sound form := by
  obtain ⟨haddresses, hshows, hlt, hnodup, hsingle⟩ := hp
  constructor <;> rw [hrules]
  · exact haddresses
  · exact hshows
  · rwa [hobjects]
  · exact hnodup
  · exact hsingle

theorem Change.Pending.same {p q : Page μ} {change : Change μ} (h : change.Pending form p)
    (hrules : q.rules = p.rules) : change.Pending form q := by
  cases change with
  | add network prefixLen action address => exact h
  | remove rule =>
    rw [Change.Pending, hrules]
    exact h

theorem exists_new (p : Page μ) {change : Change μ} (h : change.adds) :
    ∃ item ∈ change.new p, item.content = change.content := by
  cases change with
  | add network prefixLen action address => exact ⟨_, List.mem_singleton_self _, rfl⟩
  | remove rule => cases h

theorem Change.Pending.respond (h : form.Lawful) {p : Page μ} (hp : p.Sound form)
    {change other : Change μ} (hshows : form.Shows change.content)
    (hpending : change.Pending form p) (hother : other.Pending form p)
    (hkey : other.content.1 ≠ change.content.1) :
    other.Pending form (p.respond form change true) := by
  cases other with
  | add network prefixLen action address => exact hother
  | remove rule => exact (mem_respond h hp hshows hpending rule).mpr (.inl ⟨hother, hkey⟩)

/-! ## Clicks -/

/-- What changes neither the rules of the page, nor its requests, nor the table. -/
theorem agrees_same {s t : Site κ μ} {rules : List (SubnetMatchUpdate ν)}
    (hs : Agrees form s rules) (hrules : t.page.rules = s.page.rules)
    (hobjects : t.page.objects = s.page.objects) (hflights : t.flights = s.flights)
    (hrows : t.store.rows = s.store.rows) : Agrees form t rules := by
  constructor
  · exact ⟨hrows.trans hs.holds.rows, hs.holds.keys, hs.holds.range⟩
  · exact hs.sound.same hrules hobjects
  · rw [Site.Apart, hflights]
    exact hs.apart
  · intro f hf
    rw [hflights] at hf
    exact ⟨(hs.flights f hf).1, (hs.flights f hf).2.same hrules⟩
  · rw [hflights, hrules]
    exact hs.settled
  · rw [hflights]
    exact hs.answered

/-- A request that begins has no answer. -/
theorem agrees_request {s : Site κ μ} {rules : List (SubnetMatchUpdate ν)}
    (hs : Agrees form s rules) {change : Change μ} (hshows : form.Shows change.content)
    (hpending : change.Pending form s.page)
    (hapart : Site.Apart { s with flights := s.flights ++ [⟨change, none⟩] }) :
    Agrees form { s with flights := s.flights ++ [⟨change, none⟩] } rules := by
  have hold : ∀ f ∈ s.flights ++ [⟨change, none⟩], f.ok = some true → f ∈ s.flights := by
    intro f hf hok
    rcases List.mem_append.mp hf with hf | hf
    · exact hf
    · rw [List.mem_singleton.mp hf] at hok
      cases hok
  refine ⟨hs.holds, hs.sound, hapart, fun f hf => ?_, fun rule hrule => ?_, fun f hf hok => ?_⟩
  · rcases List.mem_append.mp hf with hf | hf
    · exact hs.flights f hf
    · rw [List.mem_singleton.mp hf]
      exact ⟨hshows, hpending⟩
  · exact hs.settled rule fun f hf => hrule f (List.mem_append_left _ hf)
  · exact hs.answered f (hold f hf hok) hok

theorem agrees_addSubnet (h : form.Lawful) {s : Site κ μ} {rules : List (SubnetMatchUpdate ν)}
    (hs : Agrees form s rules) (hapart : (addSubnet form s).Apart) :
    Agrees form (addSubnet form s) rules := by
  unfold addSubnet at hapart ⊢
  cases hparse : form.parse s.page.address with
  | none => exact agrees_same hs rfl rfl rfl rfl
  | some network =>
    simp only [hparse] at hapart ⊢
    cases hout : (ofText s.page.prefixLen).outside form.maxPrefix with
    | true => exact agrees_same hs rfl rfl rfl rfl
    | false =>
      simp only [hout, Bool.false_eq_true, if_false] at hapart ⊢
      refine agrees_request hs ?_ hparse hapart
      obtain ⟨n, rfl⟩ := h.parse _ _ hparse
      have hle := toNat_le_of_outside hout
      have hlt := form.family.maxPrefix.toNat_lt
      rw [h.maxPrefix] at hle
      have hlen : (UInt32.ofNat (ofText s.page.prefixLen).toNat).toNat =
          (ofText s.page.prefixLen).toNat :=
        UInt32.toNat_ofNat_of_lt' (by rw [UInt32.size]; omega)
      refine ⟨⟨n, UInt32.ofNat (ofText s.page.prefixLen).toNat, s.page.action⟩, ?_, ?_⟩
      · rw [UInt32.le_iff_toNat_le, hlen]
        exact hle
      · rw [Form.shown, hlen]
        rfl

theorem agrees_removeSubnet {s : Site κ μ} {rules : List (SubnetMatchUpdate ν)}
    (hs : Agrees form s rules) (n : Nat) (hapart : (removeSubnet n s).Apart) :
    Agrees form (removeSubnet n s) rules := by
  unfold removeSubnet at hapart ⊢
  cases hn : s.page.rules[n]? with
  | none => exact hs
  | some item =>
    simp only [hn] at hapart ⊢
    have hitem := List.mem_of_getElem? hn
    exact agrees_request hs (hs.sound.shows item hitem) hitem hapart

/-! ## Responses arrive -/

/-- The page now shows what the table already had under the key of the request. -/
theorem agrees_responded (h : form.Lawful) {s : Site κ μ} {rules : List (SubnetMatchUpdate ν)}
    (hs : Agrees form s rules) {n : Nat} {change : Change μ}
    (hn : s.flights[n]? = some ⟨change, some true⟩) :
    Agrees form
      { s with page := s.page.respond form change true, flights := s.flights.eraseIdx n }
      rules := by
  have hin := List.mem_of_getElem? hn
  obtain ⟨hshows, hpending⟩ := hs.flights _ hin
  have hmem := mem_respond h hs.sound hshows hpending
  refine ⟨hs.holds, sound_respond h hs.sound hshows hpending,
    hs.apart.sublist (List.eraseIdx_sublist _ _), fun f hf => ?_, fun rule hrule => ?_,
    fun f hf => hs.answered f (List.mem_of_mem_eraseIdx hf)⟩
  · obtain ⟨m, hne, hm⟩ := List.mem_eraseIdx_iff_getElem?.mp hf
    obtain ⟨hshows', hpending'⟩ := hs.flights f (List.mem_of_getElem? hm)
    exact ⟨hshows', hpending.respond h hs.sound hshows hpending' (hs.apart.places hm hn hne)⟩
  · by_cases hkey : change.content.1 = (form.shown rule).1
    · rw [hs.answered _ hin rfl rule hkey]
      constructor
      · rintro ⟨hadds, hcontent⟩
        obtain ⟨item, hnew, hitem⟩ := exists_new s.page hadds
        exact ⟨item, (hmem item).mpr (.inr hnew), hitem.trans hcontent⟩
      · rintro ⟨item, hitem, hcontent⟩
        rcases (hmem item).mp hitem with ⟨-, hne⟩ | hnew
        · exact absurd (by rw [hcontent, hkey]) hne
        · obtain ⟨hadds, hitem, -⟩ := mem_new hnew
          exact ⟨hadds, hitem.symm.trans hcontent⟩
    · rw [hs.settled rule fun f hf hok => ?_]
      · constructor
        · rintro ⟨item, hitem, hcontent⟩
          refine ⟨item, (hmem item).mpr (.inl ⟨hitem, ?_⟩), hcontent⟩
          rw [hcontent]
          exact fun hc => hkey hc.symm
        · rintro ⟨item, hitem, hcontent⟩
          rcases (hmem item).mp hitem with ⟨hold, -⟩ | hnew
          · exact ⟨item, hold, hcontent⟩
          · rw [(mem_new hnew).2.1] at hcontent
            exact absurd (congrArg Prod.fst hcontent) hkey
      · rcases eq_or_mem_eraseIdx hn hf with rfl | hf
        · exact hkey
        · exact hrule f hf hok

theorem agrees_failed {s : Site κ μ} {rules : List (SubnetMatchUpdate ν)}
    (hs : Agrees form s rules) {n : Nat} {change : Change μ}
    (hn : s.flights[n]? = some ⟨change, some false⟩) :
    Agrees form
      { s with page := s.page.respond form change false, flights := s.flights.eraseIdx n }
      rules := by
  obtain ⟨hrules, hobjects⟩ := respond_false form s.page change
  refine ⟨hs.holds, hs.sound.same hrules hobjects,
    hs.apart.sublist (List.eraseIdx_sublist _ _), fun f hf => ?_, fun rule hrule => ?_,
    fun f hf => hs.answered f (List.mem_of_mem_eraseIdx hf)⟩
  · obtain ⟨hshows, hpending⟩ := hs.flights f (List.mem_of_mem_eraseIdx hf)
    exact ⟨hshows, hpending.same hrules⟩
  · rw [hrules]
    refine hs.settled rule fun f hf hok => ?_
    rcases eq_or_mem_eraseIdx hn hf with rfl | hf
    · cases hok
    · exact hrule f hf hok

theorem agrees_receive (h : form.Lawful) {s : Site κ μ} {rules : List (SubnetMatchUpdate ν)}
    (hs : Agrees form s rules) (n : Nat) : Agrees form (receive form n s) rules := by
  unfold receive
  split
  · rename_i change ok hn
    cases ok with
    | true => exact agrees_responded h hs hn
    | false => exact agrees_failed hs hn
  · exact hs

/-! ## Opening the page -/

def Form.item (form : Form ν κ μ) (object : Nat) (rule : SubnetMatchUpdate ν) : SubnetRule μ :=
  ⟨object, form.web rule.network, rule.prefixLen.toNat, rule.action,
    form.format (form.web rule.network)⟩

theorem shownRule_encode (h : form.Lawful) (object : Nat) (rule : SubnetMatchUpdate ν) :
    shownRule form object (encodeSubnetMatchUpdate form.codec rule) = form.item object rule := by
  have network : member "network" (encodeSubnetMatchUpdate form.codec rule) =
      form.codec.encode rule.network := rfl
  have prefixLen : member "prefix_len" (encodeSubnetMatchUpdate form.codec rule) =
      .int rule.prefixLen.toNat := rfl
  have action : member "action" (encodeSubnetMatchUpdate form.codec rule) =
      encodeAction rule.action := rfl
  have haction : decodeAction (encodeAction rule.action) = some rule.action := by
    cases rule.action <;> rfl
  rw [shownRule, network, prefixLen, action, haction, h.read]
  rfl

theorem fetchState_eq (h : form.Lawful) (caller : CallerContext) {store : SubnetStore κ}
    {listing : List (SubnetMatchUpdate ν)}
    (hlist : form.family.listSubnet store.rows = .ok listing) :
    fetchState form (some caller) false store =
      { emptyPage form with
        rules := listing.zipIdx.map fun x => form.item x.2 x.1
        objects := listing.length } := by
  simp only [fetchState, listSubnetMatching, hlist, Bool.false_eq_true, if_false,
    List.zipIdx_map, List.map_map, List.length_map]
  congr 1
  exact List.map_congr_left fun x _ => shownRule_encode h x.2 x.1

/-- Rules with different keys, numbered by their places. -/
theorem sound_items (h : form.Lawful) {p : Page μ} {listing : List (SubnetMatchUpdate ν)}
    (hkeys : DistinctKeys listing)
    (hrange : ∀ rule ∈ listing, rule.prefixLen ≤ form.family.maxPrefix)
    (hrules : p.rules = listing.zipIdx.map fun x => form.item x.2 x.1)
    (hobjects : p.objects = listing.length) : p.Sound form := by
  have hmem : ∀ item ∈ p.rules, ∃ n rule, listing[n]? = some rule ∧ item = form.item n rule := by
    intro item hitem
    rw [hrules] at hitem
    obtain ⟨⟨rule, n⟩, hx, rfl⟩ := List.mem_map.mp hitem
    exact ⟨n, rule, List.mem_zipIdx_iff_getElem?.mp hx, rfl⟩
  constructor
  · intro item hitem
    obtain ⟨n, rule, -, rfl⟩ := hmem item hitem
    exact h.format rule.network
  · intro item hitem
    obtain ⟨n, rule, hn, rfl⟩ := hmem item hitem
    exact ⟨rule, hrange rule (List.mem_of_getElem? hn), rfl⟩
  · intro item hitem
    obtain ⟨n, rule, hn, rfl⟩ := hmem item hitem
    rw [hobjects]
    exact (List.getElem?_eq_some_iff.mp hn).1
  · refine List.Nodup.of_map SubnetRule.object ?_
    have hplaces : p.rules.map SubnetRule.object = listing.zipIdx.map Prod.snd := by
      rw [hrules, List.map_map]
      rfl
    rw [hplaces, List.zipIdx_map_snd]
    exact List.nodup_range'
  · intro item hitem other hother hsame
    obtain ⟨n, rule, hn, rfl⟩ := hmem item hitem
    obtain ⟨m, rule', hm, rfl⟩ := hmem other hother
    have hplace : n = m := by
      rcases hsame with hobject | hkey
      · exact hobject
      · by_contra hne
        exact rel_of_places (fun _ _ hxy hc => hxy ⟨hc.1.symm, hc.2.symm⟩) hkeys hn hm hne
          ((shown_key_iff h).mp hkey)
    subst hplace
    rw [Option.some.inj (hn.symm.trans hm)]

theorem agrees_fetchState (h : form.Lawful) (caller : CallerContext) {store : SubnetStore κ}
    {rules : List (SubnetMatchUpdate ν)} (hholds : Holds form.family store rules) :
    Agrees form ⟨fetchState form (some caller) false store, [], store⟩ rules := by
  have hpage := fetchState_eq h caller (listSubnet_eq h.family hholds)
  have hperm := List.perm_insertionSort form.family.ruleLe rules
  have hkeys : DistinctKeys (rules.insertionSort form.family.ruleLe) :=
    hperm.symm.pairwise hholds.keys fun hxy hc => hxy ⟨hc.1.symm, hc.2.symm⟩
  refine ⟨hholds, ?_, List.Pairwise.nil, by simp, fun rule _ => ?_, by simp⟩
  · exact sound_items h hkeys (fun rule hrule => hholds.range rule (hperm.mem_iff.mp hrule))
      (by rw [hpage]) (by rw [hpage])
  · rw [hpage, ← hperm.mem_iff]
    simp only [List.mem_map]
    constructor
    · intro hrule
      obtain ⟨n, hn⟩ := List.mem_iff_getElem?.mp hrule
      exact ⟨form.item n rule, ⟨(rule, n), List.mem_zipIdx_iff_getElem?.mpr hn, rfl⟩, rfl⟩
    · rintro ⟨item, ⟨⟨rule', n⟩, hx, rfl⟩, hcontent⟩
      cases shown_inj h hcontent
      exact List.mem_of_getElem? (List.mem_zipIdx_iff_getElem?.mp hx)

/-! ## The page is the table -/

theorem mirrors_of_agrees (h : form.Lawful) {s : Site κ μ} {rules : List (SubnetMatchUpdate ν)}
    (hs : Agrees form s rules) (hdone : s.flights = []) : Mirrors form s := by
  have hkeys : (s.page.rules.map fun item => item.content.1).Nodup :=
    hs.sound.nodup.map_on fun item hitem other hother hkey =>
      hs.sound.single item hitem other hother (.inr hkey)
  have hsettled : ∀ rule, rule ∈ rules ↔
      ∃ item ∈ s.page.rules, item.content = form.shown rule := by
    intro rule
    refine hs.settled rule ?_
    rw [hdone]
    simp
  have hrules : rules.Nodup := by
    refine hs.holds.keys.imp fun {r r'} hne heq => hne ?_
    rw [heq]
    exact ⟨rfl, rfl⟩
  have hperm : (s.page.rules.map SubnetRule.content).Perm (rules.map form.shown) := by
    refine (List.perm_ext_iff_of_nodup (.of_map Prod.fst ?_)
      (hrules.map fun _ _ heq => shown_inj h heq)).mpr fun x => ?_
    · rwa [List.map_map]
    · rw [List.mem_map, List.mem_map]
      constructor
      · rintro ⟨item, hitem, rfl⟩
        obtain ⟨rule, -, hcontent⟩ := hs.sound.shows item hitem
        exact ⟨rule, (hsettled rule).mpr ⟨item, hitem, hcontent⟩, hcontent.symm⟩
      · rintro ⟨rule, hrule, rfl⟩
        exact (hsettled rule).mp hrule
  have hsorted := List.perm_insertionSort form.family.ruleLe rules
  exact ⟨⟨_, listSubnet_eq h.family hs.holds, hperm.trans (hsorted.map form.shown).symm⟩, hkeys,
    hs.sound.addresses⟩

/-! ## Requests are answered -/

/-- A request that is refused leaves the table. -/
theorem agrees_refused {s : Site κ μ} {rules : List (SubnetMatchUpdate ν)}
    (hs : Agrees form s rules) {n : Nat} {change : Change μ}
    (hn : s.flights[n]? = some ⟨change, none⟩) {store : SubnetStore κ}
    (hrows : store.rows = s.store.rows)
    (hapart : Site.Apart { s with flights := s.flights.set n ⟨change, some false⟩, store }) :
    Agrees form { s with flights := s.flights.set n ⟨change, some false⟩, store } rules := by
  have hold : ∀ f ∈ s.flights.set n ⟨change, some false⟩, f.ok = some true → f ∈ s.flights := by
    intro f hf hok
    rcases List.mem_or_eq_of_mem_set hf with hf | rfl
    · exact hf
    · cases hok
  refine ⟨⟨hrows.trans hs.holds.rows, hs.holds.keys, hs.holds.range⟩, hs.sound, hapart,
    fun f hf => ?_, fun rule hrule => ?_, fun f hf hok => ?_⟩
  · rcases List.mem_or_eq_of_mem_set hf with hf | rfl
    · exact hs.flights f hf
    · exact hs.flights ⟨change, none⟩ (List.mem_of_getElem? hn)
  · refine hs.settled rule fun f hf hok => hrule f (mem_set_of_ne hn hf ?_) hok
    rintro rfl
    cases hok
  · exact hs.answered f (hold f hf hok) hok

/-- After a request that is answered with success the table has, under its key, what the page
will show, and it is unchanged under every other key. -/
theorem agrees_accepted {s : Site κ μ} {rules rules' : List (SubnetMatchUpdate ν)}
    (hs : Agrees form s rules) {n : Nat} {change : Change μ}
    (hn : s.flights[n]? = some ⟨change, none⟩) {store : SubnetStore κ}
    (hholds : Holds form.family store rules')
    (hnew : ∀ rule, change.content.1 = (form.shown rule).1 →
      (rule ∈ rules' ↔ change.adds ∧ change.content = form.shown rule))
    (hold : ∀ rule, change.content.1 ≠ (form.shown rule).1 → (rule ∈ rules' ↔ rule ∈ rules))
    (hapart : Site.Apart { s with flights := s.flights.set n ⟨change, some true⟩, store }) :
    Agrees form { s with flights := s.flights.set n ⟨change, some true⟩, store } rules' := by
  have hlt := (List.getElem?_eq_some_iff.mp hn).1
  have hself : (⟨change, some true⟩ : Flight μ) ∈ s.flights.set n ⟨change, some true⟩ :=
    List.mem_of_getElem? (List.getElem?_set_self hlt)
  refine ⟨hholds, hs.sound, hapart, fun f hf => ?_, fun rule hrule => ?_,
    fun f hf hok rule hkey => ?_⟩
  · rcases List.mem_or_eq_of_mem_set hf with hf | rfl
    · exact hs.flights f hf
    · exact hs.flights ⟨change, none⟩ (List.mem_of_getElem? hn)
  · rw [hold rule (hrule _ hself rfl)]
    refine hs.settled rule fun f hf hok => hrule f (mem_set_of_ne hn hf ?_) hok
    rintro rfl
    cases hok
  · rcases List.mem_or_eq_of_mem_set hf with hf | rfl
    · have hne : f ≠ ⟨change, none⟩ := by
        rintro rfl
        cases hok
      have hother := hs.apart.ne hf (List.mem_of_getElem? hn) hne
      rw [hold rule fun hc => hother (hkey.trans hc.symm)]
      exact hs.answered f hf hok rule hkey
    · exact hnew rule hkey

/-- The body that the page sends is that of a rule of the backend. -/
theorem body_eq (h : form.Lawful) {change : Change μ} {rule : SubnetMatchUpdate ν}
    (hcontent : change.content = form.shown rule) :
    change.body form = encodeSubnetMatchUpdate form.codec rule := by
  have hbody : ruleBody form (form.web rule.network) rule.prefixLen.toNat rule.action =
      encodeSubnetMatchUpdate form.codec rule := by
    rw [ruleBody, h.encode, encodeSubnetMatchUpdate]
  cases change with
  | add network prefixLen action address =>
    cases hcontent
    exact hbody
  | remove item =>
    obtain ⟨object, network, prefixLen, action, address⟩ := item
    cases hcontent
    exact hbody

variable [DecidableEq κ]

/-- A request that is answered with success has replaced or deleted its rule, and any other
has left the table. -/
theorem request_cases (h : form.Lawful) {change : Change μ} {rule : SubnetMatchUpdate ν}
    (hcontent : change.content = form.shown rule) (session : Option CallerContext)
    (faults : SubnetFaults) {store : SubnetStore κ} {rules : List (SubnetMatchUpdate ν)}
    (hholds : Holds form.family store rules) :
    ((request form session faults change store).1 = false ∧
      (request form session faults change store).2.rows = store.rows) ∨
    ((request form session faults change store).1 = true ∧
      ∃ rules', Holds form.family (request form session faults change store).2 rules' ∧
        ∀ x, x ∈ rules' ↔ (change.adds ∧ x = rule) ∨ (x ∈ rules ∧ ¬ SameKey x rule)) := by
  have hbody := body_eq h hcontent
  cases change with
  | add network prefixLen action address =>
    have hrequest : request form session faults (.add network prefixLen action address) store =
        ((form.family.modifySubnetMatching session faults rule store).1.status.isSuccess,
          (form.family.modifySubnetMatching session faults rule store).2) := by
      rw [request, hbody, handleRule, Backup.decode_encodeSubnetMatchUpdate]
      rfl
    rw [hrequest]
    refine (Backup.modify_rows session faults rule store).imp id ?_
    rintro ⟨hlen, hok, hrows⟩
    obtain ⟨rules', hmap, hkeys, hmem⟩ := upsertRow_spec h.family rule hholds.keys
    refine ⟨hok, rules', ⟨by rw [hrows, hholds.rows, hmap], hkeys, fun r hr => ?_⟩, fun x => ?_⟩
    · rcases (hmem r).mp hr with rfl | ⟨hr, -⟩
      · exact hlen
      · exact hholds.range r hr
    · simp [hmem, Change.adds]
  | remove item =>
    have hrequest : request form session faults (.remove item) store =
        ((form.family.removeSubnetMatching session faults rule store).1.status.isSuccess,
          (form.family.removeSubnetMatching session faults rule store).2) := by
      rw [request, hbody, handleRule, Backup.decode_encodeSubnetMatchUpdate]
      rfl
    rw [hrequest]
    refine (Backup.remove_rows session faults rule store).imp id ?_
    rintro ⟨hok, hrows⟩
    obtain ⟨rules', hmap, hkeys, hmem⟩ := deleteRow_spec h.family rule hholds.keys
    refine ⟨hok, rules', ⟨by rw [hrows, hholds.rows, hmap], hkeys,
      fun r hr => hholds.range r ((hmem r).mp hr).1⟩, fun x => ?_⟩
    simp [hmem, Change.adds]

theorem agrees_serve (h : form.Lawful) {s : Site κ μ} {rules : List (SubnetMatchUpdate ν)}
    (hs : Agrees form s rules) (n : Nat) (session : Option CallerContext) (faults : SubnetFaults)
    (hapart : (serve form n session faults s).Apart) :
    ∃ rules', Agrees form (serve form n session faults s) rules' := by
  unfold serve at hapart ⊢
  split
  · rename_i change hn
    simp only [hn] at hapart
    obtain ⟨⟨rule, -, hcontent⟩, -⟩ := hs.flights _ (List.mem_of_getElem? hn)
    change change.content = form.shown rule at hcontent
    rcases request_cases h hcontent session faults hs.holds with
      ⟨hrefused, hrows⟩ | ⟨hok, rules', hholds, hmem⟩
    · simp only [hrefused] at hapart ⊢
      exact ⟨rules, agrees_refused hs hn hrows hapart⟩
    · simp only [hok] at hapart ⊢
      refine ⟨rules', agrees_accepted hs hn hholds (fun x hkey => ?_) (fun x hkey => ?_) hapart⟩
      · rw [hcontent] at hkey ⊢
        have hsame : SameKey x rule := (shown_key_iff h).mp hkey.symm
        have hrule : form.shown rule = form.shown x ↔ x = rule :=
          ⟨fun heq => (shown_inj h heq).symm, fun heq => by rw [heq]⟩
        simp [hmem, hsame, hrule]
      · rw [hcontent] at hkey
        have hother : ¬ SameKey x rule := fun hc => hkey ((shown_key_iff h).mpr hc).symm
        have hne : x ≠ rule := by
          rintro rfl
          exact hkey rfl
        simp [hmem, hother, hne]
  · exact ⟨rules, hs⟩

/-! ## Runs -/

theorem agrees_act (h : form.Lawful) (e : PageEvent) {s : Site κ μ}
    (hs : ∃ rules, Agrees form s rules) (hapart : (act form e s).2.Apart) :
    ∃ rules, Agrees form (act form e s).2 rules := by
  obtain ⟨rules, hs⟩ := hs
  cases e with
  | setAddress value => exact ⟨rules, agrees_same hs rfl rfl rfl rfl⟩
  | setPrefix value => exact ⟨rules, agrees_same hs rfl rfl rfl rfl⟩
  | setAction value => exact ⟨rules, agrees_same hs rfl rfl rfl rfl⟩
  | removeNotice => exact ⟨rules, agrees_same hs rfl rfl rfl rfl⟩
  | addSubnet => exact ⟨rules, agrees_addSubnet h hs hapart⟩
  | removeSubnet n => exact ⟨rules, agrees_removeSubnet hs n hapart⟩
  | serve n session faults => exact agrees_serve h hs n session faults hapart
  | receive n => exact ⟨rules, agrees_receive h hs n⟩
  | restart =>
    refine ⟨rules, agrees_same hs rfl rfl rfl ?_⟩
    simp only [act, handleRule]
    split <;> rfl

/-- The page of an administrator who opens it after the events. -/
def opened (form : Form ν κ μ) (caller : CallerContext) (es : List RuleEvent) : Site κ μ :=
  let store := run (handleRule form.codec form.family) Backup.emptyStore es
  ⟨fetchState form (some caller) false store, [], store⟩

/-- Whatever the firewall went through before the page was opened, and in whatever order the
requests are answered and the responses arrive, the page shows the table when no request is
under way, if no two that were under way together were for one rule. -/
def ShowsTable (form : Form ν κ μ) : Prop :=
  ∀ (caller : CallerContext) (es : List RuleEvent) (acts : List PageEvent),
    Always (act form) (fun s e => (act form e s).2.Apart) (opened form caller es) acts →
      (run (act form) (opened form caller es) acts).flights = [] →
        Mirrors form (run (act form) (opened form caller es) acts)

theorem agrees_run (h : form.Lawful) {s : Site κ μ} (hs : ∃ rules, Agrees form s rules)
    (acts : List PageEvent)
    (hapart : Always (act form) (fun s e => (act form e s).2.Apart) s acts) :
    ∃ rules, Agrees form (run (act form) s acts) rules :=
  invariant (I := fun s => ∃ rules, Agrees form s rules)
    (fun _ e hs hapart => agrees_act h e hs hapart) s acts hs hapart

theorem showsTable_of_lawful (h : form.Lawful) : ShowsTable form := by
  intro caller es acts hapart hdone
  obtain ⟨rules, hholds⟩ := Backup.holds_run (n := form.codec) h.family es
  obtain ⟨rules', hs⟩ := agrees_run h ⟨rules, agrees_fetchState h caller hholds⟩ acts hapart
  exact mirrors_of_agrees h hs hdone

end Mirror

/-- The page shows the tables of both address families. -/
theorem pages_show_tables : ShowsTable formV4 ∧ ShowsTable formV6 :=
  ⟨showsTable_of_lawful formV4_lawful, showsTable_of_lawful formV6_lawful⟩

/-- A rule is added while another one is removed, and the responses overtake each other. -/
def crossing : List PageEvent :=
  [.removeSubnet 0, .setAddress (text "192.168.0.0"), .addSubnet,
    .serve 1 (some .root) ⟨false, false, false⟩, .serve 0 (some .root) ⟨false, false, false⟩,
    .receive 1, .receive 0]

theorem pages_show_tables_crossing :
    Mirrors formV4 (run (act formV4)
      (opened formV4 .root [Backup.postV4 tenAlias, Backup.postV4 tenDenied]) crossing) := by
  refine pages_show_tables.1 .root _ crossing ?_ ?_
  · refine ⟨?_, ?_, ?_, ?_, ?_, ?_, ?_, trivial⟩ <;> decide +kernel
  · decide +kernel

/-- A rule is added twice, with two actions, before there is a response. -/
def contending : List PageEvent :=
  [.setAddress (text "10.0.0.0"), .addSubnet, .setAction .deny, .addSubnet,
    .serve 0 (some .root) ⟨false, false, false⟩, .serve 1 (some .root) ⟨false, false, false⟩,
    .receive 1, .receive 0]

/-- Then the page can show the action that the table no longer has. -/
example :
    (run (act formV4) (opened formV4 .root []) contending).page.rules.map SubnetRule.content =
        [((0x0A000000, 24), .allow)] ∧
      formV4.family.listSubnet
          (run (act formV4) (opened formV4 .root []) contending).store.rows =
        .ok [⟨0x0A000000, 24, .deny⟩] := by
  decide +kernel

end Oxidrop.Frontend.SubnetPage
