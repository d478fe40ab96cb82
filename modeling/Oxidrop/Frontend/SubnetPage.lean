import Oxidrop.Recovery
import Oxidrop.Frontend.Ipv4Text
import Oxidrop.Frontend.Ipv6Text

/-!
# The rules on the configuration page

The page loads the rules once and then changes its own copy with every request that is
answered with success. Requests may overtake each other, and so may their responses.
-/
namespace Oxidrop.Frontend.SubnetPage

open Run Serde Numeral JavaScript Split Management
open Backup (NetworkCodec networkV4 networkV6 encodeAction encodeSubnetMatchUpdate RuleEvent
  handleRule)

/-! ## The page -/

/-- `SubnetV4Rule` and `SubnetV6Rule`. `===` compares the objects and not what they contain. -/
structure SubnetRule (μ : Type) where
  object : Nat
  network : μ
  prefixLen : Nat
  action : Action
  address : Text

/-- What distinguishes the table of one address family from the other. A network of the
backend is `web` on the page. -/
structure Form (ν κ μ : Type) where
  family : SubnetFamily ν κ
  codec : NetworkCodec ν
  web : ν → μ
  maxPrefix : Nat
  defaultPrefix : Text
  parse : Text → Option μ
  format : μ → Text
  same : μ → μ → Bool
  encode : μ → Json
  read : Json → μ
  invalid : String
  addFailed : String

/-- A number of a response. All are below 2^53. -/
def numberOf : Json → Nat
  | .int value => value.toNat
  | _ => 0

def numbersOf : Json → List Nat
  | .arr elements => elements.map numberOf
  | _ => []

def formV4 : Form UInt32 Int Nat where
  family := subnetFamilyV4
  codec := networkV4
  web := UInt32.toNat
  maxPrefix := 32
  defaultPrefix := text "24"
  parse := parseIpv4
  format network := formatIpv4 (UInt32.ofNat network)
  same network other := network == other
  encode network := .int network
  read := numberOf
  invalid := "Enter a valid IPv4 network and prefix length."
  addFailed := "Failed to add the IPv4 subnet rule."

def formV6 : Form Words (List UInt8) (List Nat) where
  family := subnetFamilyV6
  codec := networkV6
  web words := Ipv6Text.networkOf words.first words.second words.third words.fourth
  maxPrefix := 128
  defaultPrefix := text "64"
  parse := parseIpv6
  format := formatIpv6
  same network other := network.zipIdx.all fun (word, index) => other[index]? == some word
  encode network := .arr (network.map fun word => .int word)
  read := numbersOf
  invalid := "Enter a valid IPv6 network and prefix length."
  addFailed := "Failed to add the IPv6 subnet rule."

inductive NoticeKind where
  | success
  | error

structure Notice where
  kind : NoticeKind
  message : String

structure Page (μ : Type) where
  rules : List (SubnetRule μ)
  /-- The number of rules made so far, which names the next one. -/
  objects : Nat
  address : Text
  prefixLen : Text
  action : Action
  attachmentNotice : Option Notice

/-- What the page asks for, as it keeps it until the response. -/
inductive Change (μ : Type) where
  | add (network : μ) (prefixLen : Nat) (action : Action) (address : Text)
  | remove (rule : SubnetRule μ)

/-- A request that is under way, and whether the backend has answered it with success. -/
structure Flight (μ : Type) where
  change : Change μ
  ok : Option Bool

/-- The page, its requests, and the rules of the firewall. -/
structure Site (κ μ : Type) where
  page : Page μ
  flights : List (Flight μ)
  store : SubnetStore κ

inductive PageEvent where
  | setAddress (value : Text)
  | setPrefix (value : Text)
  | setAction (value : Action)
  | removeNotice
  | addSubnet
  | removeSubnet (n : Nat)
  | serve (n : Nat) (session : Option CallerContext) (faults : SubnetFaults)
  | receive (n : Nat)
  | restart

section Handlers

variable {ν κ μ : Type} (form : Form ν κ μ)

def member (name : String) : Json → Json
  | .obj members => (members.lookup name).getD .null
  | _ => .null

/-- `{ ...rule, address: formatIpv4(rule.network) }`. -/
def shownRule (object : Nat) (j : Json) : SubnetRule μ where
  object := object
  network := form.read (member "network" j)
  prefixLen := numberOf (member "prefix_len" j)
  action := (decodeAction (member "action" j)).getD .allow
  address := form.format (form.read (member "network" j))

def emptyPage : Page μ := ⟨[], 0, [], form.defaultPrefix, .allow, none⟩

/-- `list_subnet_matching_v4` and `list_subnet_matching_v6`. What is not answered with success
has no body. -/
def listSubnetMatching (session : Option CallerContext) (fails : Bool)
    (rows : List (SubnetRow κ)) : Option (List Json) :=
  match session with
  | none => none
  | some _ =>
    if fails then none
    else
      match form.family.listSubnet rows with
      | .ok entries => some (entries.map (encodeSubnetMatchUpdate form.codec))
      | .error _ => none

/-- `fetchState`, when the page is opened. -/
def fetchState (session : Option CallerContext) (fails : Bool) (store : SubnetStore κ) : Page μ :=
  match listSubnetMatching form session fails store.rows with
  | some rules =>
    { emptyPage form with
      rules := rules.zipIdx.map fun (rule, object) => shownRule form object rule
      objects := rules.length }
  | none => emptyPage form

def ruleBody (network : μ) (prefixLen : Nat) (action : Action) : Json :=
  .obj
    [("network", form.encode network), ("prefix_len", .int prefixLen),
      ("action", encodeAction action)]

def Change.method : Change μ → Method
  | .add .. => .POST
  | .remove _ => .DELETE

def Change.body : Change μ → Json
  | .add network prefixLen action _ => ruleBody form network prefixLen action
  | .remove rule => ruleBody form rule.network rule.prefixLen rule.action

/-- `addSubnetV4` and `addSubnetV6` up to the request. -/
def addSubnet (s : Site κ μ) : Site κ μ :=
  let number := ofText s.page.prefixLen
  match form.parse s.page.address with
  | none => { s with page := { s.page with attachmentNotice := some ⟨.error, form.invalid⟩ } }
  | some network =>
    if number.outside form.maxPrefix then
      { s with page := { s.page with attachmentNotice := some ⟨.error, form.invalid⟩ } }
    else
      { s with
        flights := s.flights ++
          [⟨.add network number.toNat s.page.action s.page.address, none⟩] }

/-- `removeSubnetV4` and `removeSubnetV6` up to the request, on the rule at a place. -/
def removeSubnet (n : Nat) (s : Site κ μ) : Site κ μ :=
  match s.page.rules[n]? with
  | none => s
  | some rule => { s with flights := s.flights ++ [⟨.remove rule, none⟩] }

/-- The four functions from the response on. -/
def Page.respond (p : Page μ) : Change μ → Bool → Page μ
  | .add network prefixLen action address, true =>
    { p with
      rules :=
        p.rules.filter (fun item =>
          !(form.same item.network network && item.prefixLen == prefixLen)) ++
          [⟨p.objects, network, prefixLen, action, address⟩]
      objects := p.objects + 1
      address := [] }
  | .add .., false => { p with attachmentNotice := some ⟨.error, form.addFailed⟩ }
  | .remove rule, true =>
    { p with rules := p.rules.filter fun item => item.object != rule.object }
  | .remove _, false => p

def receive (n : Nat) (s : Site κ μ) : Site κ μ :=
  match s.flights[n]? with
  | some ⟨change, some ok⟩ =>
    { s with page := s.page.respond form change ok, flights := s.flights.eraseIdx n }
  | _ => s

variable [DecidableEq κ]

/-- `response.ok`. A body that the backend cannot read is refused. -/
def ok : Option Response → Bool
  | some response => response.status.isSuccess
  | none => false

def request (session : Option CallerContext) (faults : SubnetFaults) (change : Change μ)
    (store : SubnetStore κ) : Bool × SubnetStore κ :=
  let r := handleRule form.codec form.family
    (.request session change.method faults (change.body form)) store
  (ok r.1, r.2)

/-- The backend answers a request. -/
def serve (n : Nat) (session : Option CallerContext) (faults : SubnetFaults) (s : Site κ μ) :
    Site κ μ :=
  match s.flights[n]? with
  | some ⟨change, none⟩ =>
    let r := request form session faults change s.store
    { s with flights := s.flights.set n ⟨change, some r.1⟩, store := r.2 }
  | _ => s

def act : Machine PageEvent (Site κ μ) Unit
  | .setAddress value, s => ((), { s with page := { s.page with address := value } })
  | .setPrefix value, s => ((), { s with page := { s.page with prefixLen := value } })
  | .setAction value, s => ((), { s with page := { s.page with action := value } })
  | .removeNotice, s => ((), { s with page := { s.page with attachmentNotice := none } })
  | .addSubnet, s => ((), addSubnet form s)
  | .removeSubnet n, s => ((), removeSubnet n s)
  | .serve n session faults, s => ((), serve form n session faults s)
  | .receive n, s => ((), receive form n s)
  | .restart, s => ((), { s with store := (handleRule form.codec form.family .restart s.store).2 })

end Handlers

/-! ## What the backend and the page agree on -/

structure Form.Lawful {ν κ μ : Type} (form : Form ν κ μ) : Prop where
  family : form.family.Lawful
  maxPrefix : form.maxPrefix = form.family.maxPrefix.toNat
  encode : ∀ n, form.encode (form.web n) = form.codec.encode n
  read : ∀ n, form.read (form.codec.encode n) = form.web n
  parse : ∀ s w, form.parse s = some w → ∃ n, w = form.web n
  format : ∀ n, form.parse (form.format (form.web n)) = some (form.web n)
  same : ∀ n n', form.same (form.web n) (form.web n') = true ↔ n = n'

theorem toNat_le_of_outside {most : Nat} {x : Number} (h : x.outside most = false) :
    x.toNat ≤ most := by
  obtain ⟨n, hn, rfl⟩ := outside_eq_false_iff.mp h
  rwa [toNat_natCast]

/-- What is read as a quad is a network of 32 bits. -/
theorem parseIpv4_lt {s : Text} {n : Nat} (h : parseIpv4 s = some n) : n < 2 ^ 32 := by
  obtain ⟨hfour, hreads, rfl⟩ := Ipv4Text.parseIpv4_eq_some_iff.mp h
  have hle : ∀ o ∈ split (text ".") s, (ofText o).toNat ≤ 255 := fun o ho =>
    toNat_le_of_outside (Ipv4Text.reads_iff_ofText.mp (hreads o ho))
  match hs : split (text ".") s, hfour with
  | [a, b, c, d], _ =>
    rw [hs] at hle
    have ha := hle a (by simp)
    have hb := hle b (by simp)
    have hc := hle c (by simp)
    have hd := hle d (by simp)
    simp only [List.map_cons, List.map_nil, Ipv4Text.networkOf_four]
    omega

theorem formV4_lawful : formV4.Lawful where
  family := subnetFamilyV4_lawful
  maxPrefix := rfl
  encode _ := rfl
  read n := by simp [formV4, networkV4, numberOf]
  parse s w h := ⟨UInt32.ofNat w, by
    have hlt := parseIpv4_lt h
    simp [formV4, UInt32.toNat_ofNat_of_lt' hlt]⟩
  format n := by
    have hn : UInt32.ofNat n.toNat = n := UInt32.ofNat_toNat
    simpa [formV4, hn] using (Ipv4Text.formatIpv4_quad n).accepted
  same n n' := by simp [formV4, UInt32.toNat_inj]

/-- Words of two groups each. -/
theorem words_lt {values : List Nat} (h : ∀ v ∈ values, v ≤ 0xffff) :
    ∃ n : Words, words values = formV6.web n := by
  have hlt : ∀ i, values.getD i 0 ≤ 0xffff := by
    intro i
    by_cases hi : i < values.length
    · simpa [hi] using h _ (List.getElem_mem hi)
    · simp [hi]
  have hword : ∀ i, (UInt32.ofNat (values.getD i 0 * 0x10000 + values.getD (i + 1) 0)).toNat =
      values.getD i 0 * 0x10000 + values.getD (i + 1) 0 := by
    intro i
    have hi := hlt i
    have hi' := hlt (i + 1)
    exact UInt32.toNat_ofNat_of_lt' (by rw [UInt32.size]; omega)
  refine ⟨⟨UInt32.ofNat (values.getD 0 0 * 0x10000 + values.getD 1 0),
    UInt32.ofNat (values.getD 2 0 * 0x10000 + values.getD 3 0),
    UInt32.ofNat (values.getD 4 0 * 0x10000 + values.getD 5 0),
    UInt32.ofNat (values.getD 6 0 * 0x10000 + values.getD 7 0)⟩, ?_⟩
  have h0 := hword 0
  have h2 := hword 2
  have h4 := hword 4
  have h6 := hword 6
  simp only [words, formV6, Ipv6Text.networkOf, List.map_cons, List.map_nil]
  rw [h0, h2, h4, h6]

/-- A group that is read has 16 bits. -/
theorem valuesOf_le {s : Text} (h : ∀ g ∈ leftGroups s ++ rightGroups s, Ipv6Text.Reads g) :
    ∀ v ∈ Ipv6Text.valuesOf s, v ≤ 0xffff := by
  have hgroup : ∀ g ∈ leftGroups s ++ rightGroups s, Ipv6Text.groupValue g ≤ 0xffff :=
    fun g hg => toNat_le_of_outside (Ipv6Text.reads_iff.mp (h g hg))
  intro v hv
  simp only [Ipv6Text.valuesOf, List.mem_append, List.mem_map, List.mem_replicate] at hv
  rcases hv with (⟨g, hg, rfl⟩ | ⟨-, rfl⟩) | ⟨g, hg, rfl⟩
  · exact hgroup g (List.mem_append_left _ hg)
  · omega
  · exact hgroup g (List.mem_append_right _ hg)

theorem parseIpv6_formatIpv6 (a b c d : UInt32) :
    parseIpv6 (formatIpv6 (Ipv6Text.networkOf a b c d)) = some (Ipv6Text.networkOf a b c d) := by
  have hsmall : ∀ v ∈ Ipv6Text.groupValues (Ipv6Text.networkOf a b c d), v < 0x10000 := by
    intro v hv
    obtain ⟨word, hword, hv⟩ := List.mem_flatMap.mp hv
    obtain ⟨w, -, rfl⟩ := List.mem_map.mp hword
    have hlt := w.toNat_lt
    rcases List.mem_pair.mp hv with rfl | rfl <;> omega
  have hread := ((Ipv6Text.compress_canonical _).denotes rfl hsmall).accepted
  have hwords : words (Ipv6Text.groupValues (Ipv6Text.networkOf a b c d)) =
      Ipv6Text.networkOf a b c d := Ipv6Text.words_groupValues ..
  rwa [hwords] at hread

theorem formV6_lawful : formV6.Lawful where
  family := subnetFamilyV6_lawful
  maxPrefix := rfl
  encode n := by simp [formV6, networkV6, Ipv6Text.networkOf, Words.json]
  read n := by simp [formV6, networkV6, Ipv6Text.networkOf, Words.json, numbersOf, numberOf]
  parse s w h := by
    obtain ⟨-, hreads, rfl⟩ := Ipv6Text.parseIpv6_eq_some_iff.mp h
    exact words_lt (valuesOf_le hreads)
  format n := parseIpv6_formatIpv6 ..
  same n n' := by
    obtain ⟨a, b, c, d⟩ := n
    obtain ⟨a', b', c', d'⟩ := n'
    have hwords :
        formV6.same (formV6.web ⟨a, b, c, d⟩) (formV6.web ⟨a', b', c', d'⟩) = true ↔
          a' = a ∧ b' = b ∧ c' = c ∧ d' = d := by
      simp [formV6, Ipv6Text.networkOf, UInt32.toNat_inj]
    rw [hwords, Words.mk.injEq]
    grind

end Oxidrop.Frontend.SubnetPage
