import Mathlib.Data.List.Lex
import Mathlib.Data.Prod.Lex
import Mathlib.Data.List.Sort
import Oxidrop.Api
import Oxidrop.Kernel
import Oxidrop.Lib.Run

/-!
# Subnet rules

A rule lives in two stores: a kernel trie, which identifies networks by their
first `prefix_len` bits, and a table, which identifies them by all their bits.
The two address families share their handlers up to the types, bounds and texts
that `SubnetFamily` collects.
-/
namespace Oxidrop

/-! ## Families -/

/-- `SubnetMatchV4Update` and `SubnetMatchV6Update`. -/
structure SubnetMatchUpdate (ν : Type) where
  network : ν
  prefixLen : UInt32
  action : Action
  deriving DecidableEq, Repr

/-- `SubnetV4Row` and `SubnetV6Row`. -/
structure SubnetRow (κ : Type) where
  network : κ
  prefixLen : Int
  action : Int
  deriving DecidableEq, Repr

/-- What distinguishes one address family from the other. `column` and `decode`
convert a network for its table column and back, and `collate` is the order in
which SQLite compares that column. -/
structure SubnetFamily (ν κ : Type) where
  maxPrefix : UInt32
  keyBytes : ν → List UInt8
  column : ν → κ
  decode : κ → Except UserError ν
  collate : κ → List Int
  invalidPrefix : String
  badPrefix : String
  insertFailed : String
  removeFailed : String
  restoreFailed : String

/-- `action as i64`. -/
def Action.toColumn : Action → Int
  | .allow => 0
  | .deny => 1

def subnetAction (value : Int) : Except UserError Action :=
  if value = 0 then .ok .allow
  else if value = 1 then .ok .deny
  else .error (.internal "invalid subnet action")

/-- `u32::try_from`. -/
def u32TryFrom (value : Int) : Option UInt32 :=
  if 0 ≤ value ∧ value ≤ 0xFFFFFFFF then some (UInt32.ofNat value.toNat) else none

theorem u32TryFrom_toNat (w : UInt32) : u32TryFrom (w.toNat : Int) = some w := by
  have hw := w.toNat_lt
  rw [u32TryFrom, if_pos (by omega)]
  simp

def orInternal {α : Type} (message : String) : Option α → Except UserError α
  | some a => .ok a
  | none => .error (.internal message)

def decodeNetworkV4 (network : Int) : Except UserError UInt32 :=
  orInternal "invalid IPv4 subnet network" (u32TryFrom network)

/-- `as_chunks::<4>` of a blob of sixteen bytes. -/
def decodeNetworkV6 (network : List UInt8) : Except UserError Words :=
  match network with
  | [a₁, b₁, c₁, d₁, a₂, b₂, c₂, d₂, a₃, b₃, c₃, d₃, a₄, b₄, c₄, d₄] =>
    .ok ⟨be32 a₁ b₁ c₁ d₁, be32 a₂ b₂ c₂ d₂, be32 a₃ b₃ c₃ d₃, be32 a₄ b₄ c₄ d₄⟩
  | _ => .error (.internal "invalid IPv6 subnet network")

def subnetFamilyV4 : SubnetFamily UInt32 Int where
  maxPrefix := 32
  keyBytes := toBeBytes
  column network := network.toNat
  decode := decodeNetworkV4
  collate network := [network]
  invalidPrefix := "invalid IPv4 prefix length"
  badPrefix := "prefix_len must be between 0 and 32 for an IPv4 subnet"
  insertFailed := "Failed to insert into SUBNET_MATCHING_V4"
  removeFailed := "Failed to remove from SUBNET_MATCHING_V4"
  restoreFailed := "Failed to restore IPv4 subnet rule"

def subnetFamilyV6 : SubnetFamily Words (List UInt8) where
  maxPrefix := 128
  keyBytes := ipv6NetworkBytes
  column := ipv6NetworkBytes
  decode := decodeNetworkV6
  collate network := network.map (fun b => (b.toNat : Int))
  invalidPrefix := "invalid IPv6 prefix length"
  badPrefix := "prefix_len must be between 0 and 128 for an IPv6 subnet"
  insertFailed := "Failed to insert into SUBNET_MATCHING_V6"
  removeFailed := "Failed to remove from SUBNET_MATCHING_V6"
  restoreFailed := "Failed to restore IPv6 subnet rule"

namespace SubnetFamily

variable {ν κ : Type} (f : SubnetFamily ν κ)

def row (rule : SubnetMatchUpdate ν) : SubnetRow κ :=
  ⟨f.column rule.network, rule.prefixLen.toNat, rule.action.toColumn⟩

def key (rule : SubnetMatchUpdate ν) : Key := ⟨rule.prefixLen, f.keyBytes rule.network⟩

/-- The trie entry of a rule. -/
def entry (rule : SubnetMatchUpdate ν) : List Bool := (f.key rule).cut

/-! ## Tables -/

variable [DecidableEq κ]

/-- `INSERT … ON CONFLICT(network, prefix_len) DO UPDATE SET action`. -/
def upsertRow (row : SubnetRow κ) : List (SubnetRow κ) → List (SubnetRow κ)
  | [] => [row]
  | r :: rows =>
    if r.network = row.network ∧ r.prefixLen = row.prefixLen then
      { r with action := row.action } :: rows
    else r :: upsertRow row rows

def deleteRow (network : κ) (prefixLen : Int) (rows : List (SubnetRow κ)) : List (SubnetRow κ) :=
  rows.filter (fun r => ¬ (r.network = network ∧ r.prefixLen = prefixLen))

/-- `save_subnet_v4` and `save_subnet_v6`. The table refuses a prefix length
above the bound of its family. -/
def saveSubnet (fails : Bool) (caller : CallerContext) (rule : SubnetMatchUpdate ν)
    (rows : List (SubnetRow κ)) : Except UserError Unit × List (SubnetRow κ) :=
  if caller.may .MODIFY then
    if fails ∨ f.maxPrefix < rule.prefixLen then (.error (.database .statement), rows)
    else (.ok (), upsertRow (f.row rule) rows)
  else (.error .lackingPermission, rows)

/-- `delete_subnet_v4` and `delete_subnet_v6`. -/
def deleteSubnet (fails : Bool) (caller : CallerContext) (network : ν) (prefixLen : UInt32)
    (rows : List (SubnetRow κ)) : Except UserError Unit × List (SubnetRow κ) :=
  if caller.may .DELETE then
    if fails then (.error (.database .statement), rows)
    else (.ok (), deleteRow (f.column network) prefixLen.toNat rows)
  else (.error .lackingPermission, rows)

/-- `ORDER BY prefix_len DESC, network ASC`. -/
def rowLe (r r' : SubnetRow κ) : Prop :=
  toLex (-r.prefixLen, f.collate r.network) ≤ toLex (-r'.prefixLen, f.collate r'.network)

instance : DecidableRel f.rowLe := fun r r' =>
  inferInstanceAs (Decidable
    (toLex (-r.prefixLen, f.collate r.network) ≤ toLex (-r'.prefixLen, f.collate r'.network)))

def decodeRow (r : SubnetRow κ) : Except UserError (SubnetMatchUpdate ν) := do
  let network ← f.decode r.network
  let prefixLen ← orInternal f.invalidPrefix (u32TryFrom r.prefixLen)
  let action ← subnetAction r.action
  return ⟨network, prefixLen, action⟩

/-- `list_subnet_v4` and `list_subnet_v6`. -/
def listSubnet (rows : List (SubnetRow κ)) : Except UserError (List (SubnetMatchUpdate ν)) :=
  (rows.insertionSort f.rowLe).mapM f.decodeRow

end SubnetFamily

/-- How `main` can end over the subnet rules: the list fails, or a rule does not go in. -/
inductive RestoreError where
  | list (e : UserError)
  | insert (context : String)
  deriving DecidableEq, Repr

namespace SubnetFamily

variable {ν κ : Type} (f : SubnetFamily ν κ)

/-- The loop of `main` over the listed rules, into a fresh trie. -/
def restore (rules : List (SubnetMatchUpdate ν)) : Option (LpmTrie Action) :=
  rules.foldlM (fun t rule => t.insert (f.key rule) rule.action) LpmTrie.empty

/-- The trie of one family after a restart. -/
def restart (rows : List (SubnetRow κ)) : Except RestoreError (LpmTrie Action) :=
  match f.listSubnet rows with
  | .error e => .error (.list e)
  | .ok rules =>
    match f.restore rules with
    | none => .error (.insert f.restoreFailed)
    | some t => .ok t

end SubnetFamily

/-! ## Handlers -/

/-- The two stores of one address family. -/
structure SubnetStore (κ : Type) where
  trie : LpmTrie Action
  rows : List (SubnetRow κ)

/-- Which of the operations of a request fail although their inputs are
accepted. `map` stands for any failure of the trie but a full one. -/
structure SubnetFaults where
  map : Bool
  statement : Bool
  undo : Bool
  deriving DecidableEq, Repr

namespace SubnetFamily

variable {ν κ : Type} [DecidableEq κ] (f : SubnetFamily ν κ)

/-- The `insert` of a POST. -/
def insertMatching (faults : SubnetFaults) (payload : SubnetMatchUpdate ν) (t : LpmTrie Action) :
    Option (LpmTrie Action) :=
  if faults.map then none else t.insert (f.key payload) payload.action

/-- `modify_subnet_matching_v4` and `modify_subnet_matching_v6`. -/
def modifySubnetMatching (session : Option CallerContext) (faults : SubnetFaults)
    (payload : SubnetMatchUpdate ν) : SubnetStore κ → Response × SubnetStore κ :=
  withPermission session .MODIFY fun caller s =>
    if f.maxPrefix < payload.prefixLen then (⟨.BAD_REQUEST, .text f.badPrefix⟩, s)
    else
      match f.insertMatching faults payload s.trie with
      | none => (⟨.INTERNAL_SERVER_ERROR, .text f.insertFailed⟩, s)
      | some map =>
        match f.saveSubnet faults.statement caller payload s.rows with
        | (.error _, rows) =>
          (StatusCode.INTERNAL_SERVER_ERROR.intoResponse,
            ⟨if faults.undo then map else map.remove (f.key payload), rows⟩)
        | (.ok _, rows) => (StatusCode.OK.intoResponse, ⟨map, rows⟩)

/-- `remove_subnet_matching_v4` and `remove_subnet_matching_v6`. The trie fails to
remove an entry that it does not have. -/
def removeSubnetMatching (session : Option CallerContext) (faults : SubnetFaults)
    (payload : SubnetMatchUpdate ν) : SubnetStore κ → Response × SubnetStore κ :=
  withPermission session .DELETE fun caller s =>
    if f.maxPrefix < payload.prefixLen then (⟨.BAD_REQUEST, .text f.badPrefix⟩, s)
    else if faults.map ∨ s.trie (f.entry payload) = none then
      (⟨.INTERNAL_SERVER_ERROR, .text f.removeFailed⟩, s)
    else
      let map := s.trie.remove (f.key payload)
      match f.deleteSubnet faults.statement caller payload.network payload.prefixLen s.rows with
      | (.error _, rows) => (StatusCode.INTERNAL_SERVER_ERROR.intoResponse, ⟨map, rows⟩)
      | (.ok _, rows) => (StatusCode.OK.intoResponse, ⟨map, rows⟩)

end SubnetFamily

/-! ## Both families -/

structure SubnetState where
  v4 : SubnetStore Int
  v6 : SubnetStore (List UInt8)

def modifySubnetMatchingV4 (session : Option CallerContext) (faults : SubnetFaults)
    (payload : SubnetMatchUpdate UInt32) (s : SubnetState) : Response × SubnetState :=
  let r := subnetFamilyV4.modifySubnetMatching session faults payload s.v4
  (r.1, { s with v4 := r.2 })

def removeSubnetMatchingV4 (session : Option CallerContext) (faults : SubnetFaults)
    (payload : SubnetMatchUpdate UInt32) (s : SubnetState) : Response × SubnetState :=
  let r := subnetFamilyV4.removeSubnetMatching session faults payload s.v4
  (r.1, { s with v4 := r.2 })

def modifySubnetMatchingV6 (session : Option CallerContext) (faults : SubnetFaults)
    (payload : SubnetMatchUpdate Words) (s : SubnetState) : Response × SubnetState :=
  let r := subnetFamilyV6.modifySubnetMatching session faults payload s.v6
  (r.1, { s with v6 := r.2 })

def removeSubnetMatchingV6 (session : Option CallerContext) (faults : SubnetFaults)
    (payload : SubnetMatchUpdate Words) (s : SubnetState) : Response × SubnetState :=
  let r := subnetFamilyV6.removeSubnetMatching session faults payload s.v6
  (r.1, { s with v6 := r.2 })

inductive SubnetRequest where
  | modifyV4 (payload : SubnetMatchUpdate UInt32)
  | removeV4 (payload : SubnetMatchUpdate UInt32)
  | modifyV6 (payload : SubnetMatchUpdate Words)
  | removeV6 (payload : SubnetMatchUpdate Words)
  deriving DecidableEq, Repr

/-- A request with its session and its faults. -/
structure SubnetCall where
  session : Option CallerContext
  faults : SubnetFaults
  request : SubnetRequest

/-- A call of an administrator during which nothing fails. -/
def SubnetRequest.byRoot (request : SubnetRequest) : SubnetCall :=
  ⟨some .root, ⟨false, false, false⟩, request⟩

def subnetHandler : Run.Machine SubnetCall SubnetState Response
  | ⟨session, faults, .modifyV4 payload⟩, s => modifySubnetMatchingV4 session faults payload s
  | ⟨session, faults, .removeV4 payload⟩, s => removeSubnetMatchingV4 session faults payload s
  | ⟨session, faults, .modifyV6 payload⟩, s => modifySubnetMatchingV6 session faults payload s
  | ⟨session, faults, .removeV6 payload⟩, s => removeSubnetMatchingV6 session faults payload s

def emptySubnets : SubnetState := ⟨⟨.empty, []⟩, ⟨.empty, []⟩⟩

end Oxidrop
