import Spoils.Catalog.Prototypes

/-! Content and the catalog that indexes it. -/
namespace Spoils

structure AssetBinding where
  asset : AssetId
  prototype : PrototypeId
deriving DecidableEq

/-- Content as it is written down. -/
structure Content where
  rarities : List Rarity := []
  affixes : List Affix := []
  items : List Item := []
  affixTables : List AffixTable := []
  rankTables : List RankTable := []
  difficultyTiers : List DifficultyTier := []
  lootTables : List LootTable := []
  prototypes : List NamedPrototype := []
  curves : List Curve := []
  properties : List PropertyInfo := []
  assets : List AssetBinding := []
  globals : PropertyStore := .empty
  noVisualsAffix : PrototypeId := .none

inductive Prototype where
  | rarity (r : Rarity)
  | affix (a : Affix)
  | item (i : Item)
  | affixTable (t : AffixTable)
  | difficultyTier (t : DifficultyTier)
  | lootTable (t : LootTable)
  | named (p : NamedPrototype)

namespace Prototype

def id : Prototype → PrototypeId
  | .rarity r => r.id
  | .affix a => a.id
  | .item i => i.id
  | .affixTable t => t.id
  | .difficultyTier t => t.id
  | .lootTable t => t.id
  | .named p => p.id

def kind : Prototype → PrototypeKind
  | .rarity _ => .rarity
  | .affix _ => .affix
  | .item _ => .item
  | .affixTable _ => .affixTable
  | .difficultyTier _ => .difficultyTier
  | .lootTable _ => .lootTable
  | .named p => p.kind

def name : Prototype → String
  | .rarity r => r.name
  | .affix a => a.name
  | .item i => i.name
  | .affixTable t => t.name
  | .difficultyTier t => t.name
  | .lootTable t => t.name
  | .named p => p.name

def parent : Prototype → PrototypeId
  | .item i => i.parent
  | .named p => p.parent
  | _ => .none

/-- Brings the ranges of an item or a loot table into order. -/
def normalize : Prototype → Prototype
  | .item i => .item i.normalize
  | .lootTable t => .lootTable { t with root := t.root.normalize }
  | p => p

end Prototype

/-- All prototypes of content, in the order in which they are taken in. -/
def Content.declared (c : Content) : List Prototype :=
  c.rarities.map .rarity ++ c.affixes.map .affix ++ c.items.map .item ++
    c.affixTables.map .affixTable ++ c.difficultyTiers.map .difficultyTier ++
    c.lootTables.map .lootTable ++ c.prototypes.map .named

inductive ContentError where
  | noId (kind : String)
  | duplicate (id : Nat) (kind : String)
deriving DecidableEq, Repr

def ContentError.message : ContentError → String
  | .noId kind => s!"Invalid prototype id 0 in {kind}"
  | .duplicate id kind => s!"Duplicate prototype id {id} ({kind})"

structure Catalog where
  prototypes : SortedMap PrototypeId Prototype := .empty
  rankTables : SortedMap PrototypeId RankTable := .empty
  curves : SortedMap CurveId Curve := .empty
  properties : SortedMap PropertyId PropertyInfo := .empty
  assets : SortedMap AssetId PrototypeId := .empty
  globals : PropertyStore := .empty
  /-- The affix that hides an item's visual affix. -/
  noVisualsAffix : PrototypeId := .none

namespace Catalog

/-- Takes one prototype in: it needs an identifier of its own. -/
def addPrototype (m : SortedMap PrototypeId Prototype) (p : Prototype) :
    Except ContentError (SortedMap PrototypeId Prototype) :=
  if !p.id.isValid then .error (.noId p.kind.label)
  else if m.contains p.id then .error (.duplicate p.id.val p.kind.label)
  else .ok (m.insert p.id p.normalize)

def addRankTable (m : SortedMap PrototypeId RankTable) (t : RankTable) :
    Except ContentError (SortedMap PrototypeId RankTable) :=
  if m.contains t.difficultyTier then
    .error (.duplicate t.difficultyTier.val "rank affix table")
  else .ok (m.insert t.difficultyTier t)

def addCurve (m : SortedMap CurveId Curve) (c : Curve) :
    Except ContentError (SortedMap CurveId Curve) :=
  if m.contains c.id then .error (.duplicate c.id.val "curve") else .ok (m.insert c.id c)

/-- Indexes content and brings its ranges into order; the first entry that cannot be taken in
is the error. -/
def ofContent (c : Content) : Except ContentError Catalog := do
  let prototypes ← c.declared.foldlM addPrototype .empty
  let rankTables ← c.rankTables.foldlM addRankTable .empty
  let curves ← c.curves.foldlM addCurve .empty
  return {
    prototypes := prototypes
    rankTables := rankTables
    curves := curves
    properties := .ofList ((PropertyInfo.builtins ++ c.properties).map fun i => (i.prop, i))
    assets := .ofList (c.assets.map fun a => (a.asset, a.prototype))
    globals := c.globals
    noVisualsAffix := c.noVisualsAffix }

def size (c : Catalog) : Nat := c.prototypes.size

def contains (c : Catalog) (id : PrototypeId) : Bool := c.prototypes.contains id

/-- The prototype of an identifier. A named prototype of a detailed kind has no data to give. -/
def resolve? (c : Catalog) (id : PrototypeId) : Option Prototype :=
  match c.prototypes.find? id with
  | some (.named p) => if p.kind.isDetailed then none else some (.named p)
  | found => found

def rarity? (c : Catalog) (id : PrototypeId) : Option Rarity :=
  match c.prototypes.find? id with
  | some (.rarity r) => some r
  | _ => none

def affix? (c : Catalog) (id : PrototypeId) : Option Affix :=
  match c.prototypes.find? id with
  | some (.affix a) => some a
  | _ => none

def item? (c : Catalog) (id : PrototypeId) : Option Item :=
  match c.prototypes.find? id with
  | some (.item i) => some i
  | _ => none

def affixTable? (c : Catalog) (id : PrototypeId) : Option AffixTable :=
  match c.prototypes.find? id with
  | some (.affixTable t) => some t
  | _ => none

def lootTable? (c : Catalog) (id : PrototypeId) : Option LootTable :=
  match c.prototypes.find? id with
  | some (.lootTable t) => some t
  | _ => none

def difficultyTier? (c : Catalog) (id : PrototypeId) : Option DifficultyTier :=
  match c.prototypes.find? id with
  | some (.difficultyTier t) => some t
  | _ => none

def curve? (c : Catalog) (id : CurveId) : Option Curve := c.curves.find? id

def property? (c : Catalog) (id : PropertyId) : Option PropertyInfo := c.properties.find? id

def ofAsset (c : Catalog) (asset : AssetId) : PrototypeId :=
  (c.assets.find? asset).getD .none

/-- The direct parent; roots and unknown identifiers have none. -/
def parentOf (c : Catalog) (id : PrototypeId) : PrototypeId :=
  match c.prototypes.find? id with
  | some p => p.parent
  | none => .none

def idsOfKind (c : Catalog) (kind : PrototypeKind) : List PrototypeId :=
  (c.prototypes.entries.filter fun e => e.2.kind == kind).map (·.1)

def rarities (c : Catalog) : List Rarity :=
  c.prototypes.values.filterMap fun
    | .rarity r => some r
    | _ => none

def affixes (c : Catalog) : List Affix :=
  c.prototypes.values.filterMap fun
    | .affix a => some a
    | _ => none

def items (c : Catalog) : List Item :=
  c.prototypes.values.filterMap fun
    | .item i => some i
    | _ => none

def affixTables (c : Catalog) : List AffixTable :=
  c.prototypes.values.filterMap fun
    | .affixTable t => some t
    | _ => none

def lootTables (c : Catalog) : List LootTable :=
  c.prototypes.values.filterMap fun
    | .lootTable t => some t
    | _ => none

def affixesAt (c : Catalog) (p : AffixPosition) : List Affix :=
  c.affixes.filter fun a => a.position == p

/-- Whether a tier lies between two others; a bound that is no tier is open. -/
def tierInRange (c : Catalog) (value lo hi : PrototypeId) : Bool :=
  match c.difficultyTier? value with
  | none => false
  | some t =>
    ((c.difficultyTier? lo).all fun l => l.tier ≤ t.tier) &&
      (c.difficultyTier? hi).all fun h => t.tier ≤ h.tier

/-- The rank table of a tier, or else the one for all tiers. -/
def rankTable? (c : Catalog) (tier : PrototypeId) : Option RankTable :=
  (c.rankTables.find? tier).or (c.rankTables.find? .none)

end Catalog

end Spoils
