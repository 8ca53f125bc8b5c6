import Spoils.Codec.Item

/-! Documents of branch settings. -/
namespace Spoils

namespace CooldownGate

def ofDoc? (d : Doc) : Option CooldownGate := do
  let fs ← d.fields? "CooldownGate" ["kind", "channel", "per_account"]
  return {
    kind := ← fs.need "kind" (Doc.choice? Names.cooldowns)
    channel := ← fs.need "channel" PrototypeId.ofDoc?
    perAccount := ← fs.need "per_account" Doc.bool? }

def toJson (g : CooldownGate) : Json :=
  .object [("kind", .text (nameIn Names.cooldowns g.kind)), ("channel", g.channel.toJson),
    ("per_account", .bool g.perAccount)]

end CooldownGate

def DropFlags.ofDoc? : Doc → Option DropFlags :=
  Flags.ofDoc? "LootDropChanceModifiers" DropFlags.names

def BranchSettings.ofDoc? (d : Doc) : Option BranchSettings := do
  let fs ← d.fields? "LootRollSettings" ["depth", "drop_chance_modifiers", "no_drop_modifier",
    "usable_avatar", "usable_team_up", "force_usable", "usable_percent", "level",
    "use_level_verbatim", "level_for_requirement_check", "difficulty_tier",
    "region_scenario_rarity", "region_affix_table", "kill_count", "usable_weekday",
    "rarities", "source_entity_keywords", "avatar_condition_keywords", "region_keywords",
    "affix_limit_min_by_position", "affix_limit_max_by_position", "affix_limit_by_category",
    "cooldown"]
  let set (name : String) : Option (SortedSet PrototypeId) :=
    fs.get name .empty fun d => (PrototypeId.listOfDoc? d).map .ofList
  let byPosition (name : String) : Option (SortedMap AffixPosition Int) :=
    fs.get name .empty fun d => (d.mapOf? AffixPosition.ofDoc? Doc.int16?).map .ofList
  return {
    depth := ← fs.get "depth" 0 Doc.nat32?
    flags := ← fs.get "drop_chance_modifiers" 0#32 DropFlags.ofDoc?
    dropFactor := ← fs.get "no_drop_modifier" 1 Doc.single?
    avatar := ← fs.get "usable_avatar" .none PrototypeId.ofDoc?
    teamUp := ← fs.get "usable_team_up" .none PrototypeId.ofDoc?
    forceUsable := ← fs.get "force_usable" false Doc.bool?
    usableChance := ← fs.get "usable_percent" 0 Doc.single?
    level := ← fs.get "level" defaultLevel Doc.int32?
    levelVerbatim := ← fs.get "use_level_verbatim" false Doc.bool?
    levelForRequirements := ← fs.get "level_for_requirement_check" defaultLevel Doc.int32?
    difficultyTier := ← fs.get "difficulty_tier" .none PrototypeId.ofDoc?
    regionRarity := ← fs.get "region_scenario_rarity" .none PrototypeId.ofDoc?
    regionAffixTable := ← fs.get "region_affix_table" .none PrototypeId.ofDoc?
    kills := ← fs.get "kill_count" 0 Doc.int32?
    weekday := ← fs.get "usable_weekday" .all (Doc.choice? Names.weekdays)
    rarities := ← set "rarities"
    dropperKeywords := ← set "source_entity_keywords"
    conditionKeywords := ← set "avatar_condition_keywords"
    regionKeywords := ← set "region_keywords"
    minDeltas := ← byPosition "affix_limit_min_by_position"
    maxDeltas := ← byPosition "affix_limit_max_by_position"
    categoryDeltas := ← fs.get "affix_limit_by_category" .empty fun d =>
      (d.mapOf? (fun k => k.keyNat?.map PrototypeId.mk) Doc.int16?).map .ofList
    cooldown := ← fs.maybe "cooldown" CooldownGate.ofDoc? }

end Spoils
