import Spoils.Catalog.Basic
import Spoils.Codec.Table

/-! Documents of content. -/
namespace Spoils

namespace Curve

def ofDoc? (d : Doc) : Option Curve := do
  let fs ← d.fields? "Curve" ["id", "name", "min_position", "max_position", "values"]
  return {
    id := ← fs.need "id" CurveId.ofDoc?
    name := ← fs.get "name" "" Doc.text?
    min := ← fs.need "min_position" Doc.int32?
    max := ← fs.need "max_position" Doc.int32?
    values := ← fs.need "values" (Doc.listOf? Doc.single?) }

def toJson (c : Curve) : Json :=
  .object [("id", c.id.toJson), ("name", .text c.name), ("min_position", .int c.min),
    ("max_position", .int c.max), ("values", .ofList .single c.values)]

end Curve

namespace Rarity

def ofDoc? (d : Doc) : Option Rarity := do
  let fs ← d.fields? "RarityPrototype" ["id", "name", "downgrade_to", "weight_curve"]
  return {
    id := ← fs.need "id" PrototypeId.ofDoc?
    name := ← fs.get "name" "" Doc.text?
    downgradeTo := ← fs.get "downgrade_to" .none PrototypeId.ofDoc?
    weightCurve := ← fs.get "weight_curve" .none CurveId.ofDoc? }

def toJson (r : Rarity) : Json :=
  .object [("id", r.id.toJson), ("name", .text r.name), ("downgrade_to", r.downgradeTo.toJson),
    ("weight_curve", r.weightCurve.toJson)]

end Rarity

namespace AffixTable

def ofDoc? (d : Doc) : Option AffixTable := do
  let fs ← d.fields? "AffixTablePrototype" ["id", "name", "affixes"]
  return {
    id := ← fs.need "id" PrototypeId.ofDoc?
    name := ← fs.get "name" "" Doc.text?
    affixes := ← fs.need "affixes" PrototypeId.listOfDoc? }

def toJson (t : AffixTable) : Json :=
  .object [("id", t.id.toJson), ("name", .text t.name),
    ("affixes", PrototypeId.listToJson t.affixes)]

end AffixTable

def DifficultyTier.ofDoc? (d : Doc) : Option DifficultyTier := do
  let fs ← d.fields? "DifficultyTierPrototype" ["id", "name", "tier"]
  return {
    id := ← fs.need "id" PrototypeId.ofDoc?
    name := ← fs.get "name" "" Doc.text?
    tier := ← fs.need "tier" Doc.int32? }

def NamedPrototype.ofDoc? (d : Doc) : Option NamedPrototype := do
  let fs ← d.fields? "NamedPrototype" ["id", "kind", "name", "parent"]
  return {
    id := ← fs.need "id" PrototypeId.ofDoc?
    kind := ← fs.need "kind" (Doc.choice? Names.kinds)
    name := ← fs.get "name" "" Doc.text?
    parent := ← fs.get "parent" .none PrototypeId.ofDoc? }

def Rank.ofDoc? (d : Doc) : Option Rank := d.choice? Names.ranks

def Rank.toJson (r : Rank) : Json := .text (nameIn Names.ranks r)

namespace RankTable

def slotOfDoc? (d : Doc) : Option RankSlot := do
  let fs ← d.fields? "AffixTableEntry" ["table", "chance_pct"]
  return ⟨← fs.need "table" PrototypeId.ofDoc?, ← fs.get "chance_pct" 100 Doc.int32?⟩

def entryOfDoc? (d : Doc) : Option RankEntry := do
  let fs ← d.fields? "RankAffixEntry" ["rank", "weight", "affix_tables"]
  return {
    rank := ← fs.need "rank" Rank.ofDoc?
    weight := ← fs.get "weight" 0 Doc.int32?
    slots := ← fs.get "affix_tables" [] (Doc.listOf? slotOfDoc?) }

def ofDoc? (d : Doc) : Option RankTable := do
  let fs ← d.fields? "RankAffixTable" ["difficulty_tier", "entries"]
  return {
    difficultyTier := ← fs.get "difficulty_tier" .none PrototypeId.ofDoc?
    entries := ← fs.get "entries" [] (Doc.listOf? entryOfDoc?) }

def slotToJson (s : RankSlot) : Json :=
  .object [("table", s.table.toJson), ("chance_pct", .int s.chance)]

def entryToJson (e : RankEntry) : Json :=
  .object [("rank", e.rank.toJson), ("weight", .int e.weight),
    ("affix_tables", .ofList slotToJson e.slots)]

def toJson (t : RankTable) : Json :=
  .object [("difficulty_tier", t.difficultyTier.toJson),
    ("entries", .ofList entryToJson t.entries)]

end RankTable

def AssetBinding.ofDoc? (d : Doc) : Option AssetBinding := do
  let fs ← d.fields? "AssetBinding" ["asset", "prototype"]
  return ⟨← fs.need "asset" AssetId.ofDoc?, ← fs.need "prototype" PrototypeId.ofDoc?⟩

def Content.ofDoc? (d : Doc) : Option Content := do
  let fs ← d.fields? "ContentDatabase" ["rarities", "affixes", "items", "affix_tables",
    "rank_affix_tables", "difficulty_tiers", "loot_tables", "prototypes", "curves", "properties",
    "assets", "globals", "no_visuals_affix"]
  return {
    rarities := ← fs.get "rarities" [] (Doc.listOf? Rarity.ofDoc?)
    affixes := ← fs.get "affixes" [] (Doc.listOf? Affix.ofDoc?)
    items := ← fs.get "items" [] (Doc.listOf? Item.ofDoc?)
    affixTables := ← fs.get "affix_tables" [] (Doc.listOf? AffixTable.ofDoc?)
    rankTables := ← fs.get "rank_affix_tables" [] (Doc.listOf? RankTable.ofDoc?)
    difficultyTiers := ← fs.get "difficulty_tiers" [] (Doc.listOf? DifficultyTier.ofDoc?)
    lootTables := ← fs.get "loot_tables" [] (Doc.listOf? LootTable.ofDoc?)
    prototypes := ← fs.get "prototypes" [] (Doc.listOf? NamedPrototype.ofDoc?)
    curves := ← fs.get "curves" [] (Doc.listOf? Curve.ofDoc?)
    properties := ← fs.get "properties" [] (Doc.listOf? PropertyInfo.ofDoc?)
    assets := ← fs.get "assets" [] (Doc.listOf? AssetBinding.ofDoc?)
    globals := ← fs.get "globals" .empty PropertyStore.ofDoc?
    noVisualsAffix := ← fs.get "no_visuals_affix" .none PrototypeId.ofDoc? }

end Spoils
