import Oxidrop.Lib.JavaScript
import Oxidrop.Lib.LongestRun
import Oxidrop.Lib.Split

/-!
# Addresses as text

The forms and tables of the frontend read and write addresses as text. Both IPv6
formatters end in the same loop, which looks for the zero groups to leave out.
-/
namespace Oxidrop.Frontend

open Numeral JavaScript Split LongestRun

/-- `Array.prototype.join`. -/
def join (separator : String) (parts : List Text) : Text := (text separator).intercalate parts

/-! ## IPv4 -/

def parseIpv4 (value : Text) : Option Nat :=
  let octets := split (text ".") value
  if octets.length ≠ 4 then none
  else
    let parsed := octets.map ofText
    if parsed.any (Number.outside 255) then none
    else some (parsed.foldl (fun network octet => network * 256 + octet.toNat) 0)

def formatIpv4 (network : UInt32) : Text :=
  join "." ([network >>> 24, (network >>> 16) &&& 255, (network >>> 8) &&& 255,
    network &&& 255].map fun octet => numeral 10 octet.toNat)

/-! ## IPv6 -/

/-- `part ? part.split(":") : []`. -/
def groupsOf (part : Text) : List Text := if part = [] then [] else split (text ":") part

def leftGroups (value : Text) : List Text := groupsOf ((split (text "::") value).getD 0 [])

/-- There may be no second part. -/
def rightGroups (value : Text) : List Text := groupsOf ((split (text "::") value).getD 1 [])

/-- Two 16-bit values make a word. -/
def words (values : List Nat) : List Nat :=
  [0, 2, 4, 6].map fun offset =>
    values.getD offset 0 * 0x10000 + values.getD (offset + 1) 0

def parseIpv6 (value : Text) : Option (List Nat) :=
  let parts := split (text "::") value
  if 2 < parts.length then none
  else
    let left := leftGroups value
    let right := rightGroups value
    let missing : Int := 8 - left.length - right.length
    if parts.length = 1 ∧ missing ≠ 0 ∨ missing < 0 then none
    else
      let groups := left ++ List.replicate missing.toNat (text "0") ++ right
      let values := groups.map (parseInt · 16)
      if values.length ≠ 8 ∨ values.any (Number.outside 0xffff) = true then none
      else some (words (values.map Number.toNat))

/-- `groups[end] === "0"`. -/
def isZero (group : Text) : Bool := group = text "0"

/-- `while (end < groups.length && groups[end] === "0") end += 1`, counted. -/
def zeros : List Text → Nat
  | [] => 0
  | group :: groups => if isZero group then zeros groups + 1 else 0

structure Best where
  bestStart : Int
  bestLength : Nat
  deriving DecidableEq, Repr

/-- The loop over `start`, on the groups from there on. It goes on at `end`, so the
rest of a run is passed over. -/
def scan : Nat → List Text → Nat → Best → Best
  | _, [], _, best => best
  | skip + 1, _ :: groups, start, best => scan skip groups (start + 1) best
  | 0, group :: groups, start, best =>
    if isZero group then
      let length := zeros groups + 1
      scan (zeros groups) groups (start + 1)
        (if best.bestLength < length then ⟨start, length⟩ else best)
    else scan 0 groups (start + 1) best

/-- The second half of both formatters. -/
def compress (groups : List Text) : Text :=
  let best := scan 0 groups 0 ⟨-1, 0⟩
  if best.bestLength < 2 then join ":" groups
  else
    let left := join ":" (groups.take best.bestStart.toNat)
    let right := join ":" (groups.drop (best.bestStart.toNat + best.bestLength))
    left ++ text "::" ++ right

def formatIpv6 (network : List Nat) : Text :=
  compress ((network.flatMap fun word => [word / 0x10000, word % 0x10000]).map (numeral 16))

/-! ## The formatters of the allow lists -/

/-- A value of a response. -/
inductive Value where
  | number (x : Number)
  | array (elements : List Value)
  | other

def ipv4 : Value → Text
  | .number x =>
    let address := x.toUint32
    join "." ([24, 16, 8, 0].map fun (shift : UInt32) =>
      numeral 10 ((address >>> shift) &&& 255).toNat)
  | _ => text "unknown"

/-- `typeof word === "number" ? word >>> 0 : 0`. -/
def Value.toWord : Value → UInt32
  | .number x => x.toUint32
  | _ => 0

def halves (number : UInt32) : List UInt32 := [(number >>> 16) &&& 0xffff, number &&& 0xffff]

def ipv6 : Value → Text
  | .array elements =>
    if elements.length ≠ 4 then text "unknown"
    else
      let groups := elements.flatMap fun word => halves word.toWord
      compress (groups.map fun group => numeral 16 group.toNat)
  | _ => text "unknown"

end Oxidrop.Frontend
