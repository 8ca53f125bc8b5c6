import Spoils.Mutation.Basic
import Spoils.Table.Modifier

/-! Loot trees: tables, references, actions and the drops at the leaves. -/
namespace Spoils

/-- How a table chooses among its entries. -/
inductive PickMethod where
  /-- By weight, each time from all entries. -/
  | weighted
  /-- All entries at equal odds until one succeeds. -/
  | tryAll
  /-- Every entry in order. -/
  | every
deriving DecidableEq, Repr, Inhabited

/-- How often something is rolled: a uniform number from `min` to `max`. -/
structure Repeat where
  min : Int := 1
  max : Int := 1
deriving DecidableEq, Repr, Inhabited

/-- The greatest number is not below the least. -/
def Repeat.normalize (r : Repeat) : Repeat := ⟨r.min, Max.max r.max r.min⟩

/-- A reaction of the client to a roll. -/
inductive Callback where
  | banner (message : String)
  | power (power : PrototypeId)
  | visualEffect (effect : AssetId)
  | chat (message : String)
deriving DecidableEq, Repr

inductive TokenFilter where
  | none | currentAvatar | unowned
deriving DecidableEq, Repr, Inhabited

inductive ActionKind where
  /-- Grants its target once and has that recorded under a key. -/
  | firstTime
  /-- Grants its target to every avatar of the party. -/
  | everyAvatar
deriving DecidableEq, Repr

/-- The ends of a loot tree: what is granted. -/
inductive Drop where
  | item (item : PrototypeId) (times : Repeat) (mutations : List Mutation)
  | anyItem (slot : EquipmentSlot) (rank : Int) (times : Repeat)
  | agent (agent : PrototypeId) (times : Repeat)
  | credits (curve : CurveId)
  | experience (curve : CurveId)
  | powerPoints (amount : Int)
  | health (amount : Int)
  | endurance (amount : Int)
  | realMoney (coupon transaction : String) (amount : Int)
  | vanityTitle (title : PrototypeId)
  | vendorXp (vendor : PrototypeId) (amount : Int)
  /-- A copy of the item granted at a position, with mutations. -/
  | copy (source : Int) (mutations : List Mutation)
  | callback (callback : Callback)

/-- What every node has: its weight among its siblings and its modifiers. -/
structure NodeHead where
  weight : Int := 1
  modifiers : List Modifier := []

/-- The fields of a table besides its entries. -/
structure TableSpec where
  method : PickMethod := .weighted
  /-- The chance that the table grants nothing. -/
  noDrop : Single := 0
  times : Repeat := {}
deriving DecidableEq

inductive LootNode where
  | table (head : NodeHead) (spec : TableSpec) (entries : List LootNode)
  | reference (head : NodeHead) (table : PrototypeId) (times : Repeat)
  | action (head : NodeHead) (kind : ActionKind) (key : PrototypeId) (target : LootNode)
  /-- A character token, or the fallback when none is available. -/
  | token (head : NodeHead) (parent : PrototypeId) (filter : TokenFilter)
      (fallback : Option LootNode)
  | drop (head : NodeHead) (drop : Drop)

structure LootTable where
  id : PrototypeId
  name : String := ""
  root : LootNode

def Drop.kindName : Drop → String
  | .item .. => "Item"
  | .anyItem .. => "ItemFilter"
  | .agent .. => "Agent"
  | .credits _ => "Credits"
  | .experience _ => "Experience"
  | .powerPoints _ => "PowerPoints"
  | .health _ => "HealthBonus"
  | .endurance _ => "EnduranceBonus"
  | .realMoney .. => "RealMoney"
  | .vanityTitle _ => "VanityTitle"
  | .vendorXp .. => "VendorXp"
  | .copy .. => "Clone"
  | .callback _ => "Callback"

def Drop.normalize : Drop → Drop
  | .item id times mutations => .item id times.normalize (mutations.map (·.normalize))
  | .anyItem slot rank times => .anyItem slot rank times.normalize
  | .agent id times => .agent id times.normalize
  | .copy source mutations => .copy source (mutations.map (·.normalize))
  | d => d

def NodeHead.normalize (h : NodeHead) : NodeHead :=
  { h with modifiers := h.modifiers.map (·.normalize) }

def TableSpec.normalize (t : TableSpec) : TableSpec :=
  { t with noDrop := t.noDrop.clampUnit, times := t.times.normalize }

namespace LootNode

def head : LootNode → NodeHead
  | .table head .. | .reference head .. | .action head .. | .token head .. | .drop head _ => head

def weight (n : LootNode) : Int := n.head.weight

def modifiers (n : LootNode) : List Modifier := n.head.modifiers

def kindName : LootNode → String
  | .table .. => "Table"
  | .reference .. => "TableRef"
  | .action .. => "Action"
  | .token .. => "CharacterToken"
  | .drop _ d => d.kindName

def isTable : LootNode → Bool
  | .table .. | .reference .. => true
  | _ => false

/-- Nodes that grant a counted amount. -/
def isDrop : LootNode → Bool
  | .reference .. => true
  | .drop _ d =>
    match d with
    | .item .. | .anyItem .. | .agent .. | .credits _ | .experience _ | .powerPoints _
    | .health _ | .endurance _ => true
    | _ => false
  | _ => false

mutual

/-- Brings every range of the tree into order. -/
def normalize : LootNode → LootNode
  | .table head spec entries => .table head.normalize spec.normalize (normalizeAll entries)
  | .reference head id times => .reference head.normalize id times.normalize
  | .action head kind key target => .action head.normalize kind key (normalize target)
  | .token head parent filter fallback =>
    .token head.normalize parent filter (normalizeFallback fallback)
  | .drop head d => .drop head.normalize d.normalize

def normalizeAll : List LootNode → List LootNode
  | [] => []
  | n :: ns => normalize n :: normalizeAll ns

def normalizeFallback : Option LootNode → Option LootNode
  | none => none
  | some n => some (normalize n)

end

mutual

/-- The node and all nodes below it, parents first. -/
def nodes : LootNode → List LootNode
  | .table head spec entries => .table head spec entries :: nodesOfAll entries
  | .action head kind key target => .action head kind key target :: nodes target
  | .token head parent filter fallback =>
    .token head parent filter fallback :: nodesOfFallback fallback
  | .reference head id times => [.reference head id times]
  | .drop head d => [.drop head d]

def nodesOfAll : List LootNode → List LootNode
  | [] => []
  | n :: ns => nodes n ++ nodesOfAll ns

def nodesOfFallback : Option LootNode → List LootNode
  | none => []
  | some n => nodes n

end

def referencedTables (n : LootNode) : List PrototypeId :=
  n.nodes.filterMap fun
    | .reference _ id _ => some id
    | _ => none

def referencedItems (n : LootNode) : List PrototypeId :=
  n.nodes.filterMap fun
    | .drop _ (.item id _ _) => some id
    | _ => none

end LootNode

def Modifier.fits (m : Modifier) (n : LootNode) : Bool :=
  if m.isForTables then n.isTable
  else
    match m with
    | .currencyBonus => n.isTable || n.isDrop
    | _ => true

end Spoils
