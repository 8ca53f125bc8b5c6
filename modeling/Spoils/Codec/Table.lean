import Spoils.Codec.Formula
import Spoils.Codec.Item

/-! Documents of mutations, modifiers and loot trees. -/
namespace Spoils

namespace AffixFilter

def names : List String := ["position", "keywords", "categories"]

def ofFields? (fs : Fields) : Option AffixFilter := do
  return {
    position := ← fs.get "position" .none AffixPosition.ofDoc?
    keywords := ← fs.get "keywords" [] PrototypeId.listOfDoc?
    categories := ← fs.get "categories" [] PrototypeId.listOfDoc? }

def toFields (f : AffixFilter) : List (String × Json) :=
  [("position", f.position.toJson), ("keywords", PrototypeId.listToJson f.keywords),
    ("categories", PrototypeId.listToJson f.categories)]

end AffixFilter

namespace Mutation

def ofDoc? (d : Doc) : Option Mutation := do
  let (label, payload) ← d.variant?
  let copying (make : Int → AffixFilter → Bool → Mutation) : Option Mutation := do
    let fs ← payload.fields? (["source_index"] ++ AffixFilter.names ++ ["enforce_affix_limits"])
    return make (← fs.need "source_index" Doc.int32?) (← AffixFilter.ofFields? fs)
      (← fs.get "enforce_affix_limits" false Doc.bool?)
  let source (make : Int → Mutation) : Option Mutation := do
    let fs ← payload.fields? ["source_index"]
    return make (← fs.need "source_index" Doc.int32?)
  let filtered (make : AffixFilter → Mutation) : Option Mutation := do
    return make (← AffixFilter.ofFields? (← payload.fields? AffixFilter.names))
  match label with
  | "AddAffixes" =>
    let fs ← payload.fields? ("count" :: AffixFilter.names)
    return .addAffixes (← fs.need "count" Doc.int16?) (← AffixFilter.ofFields? fs)
  | "AddAffix" =>
    let fs ← payload.fields? ["affix"]
    return .addAffix (← fs.need "affix" PrototypeId.ofDoc?)
  | "ApplyNoVisualsOverride" => payload.unit?.map fun _ => .noVisuals
  | "ClampLevel" =>
    let fs ← payload.fields? ["min_level", "max_level"]
    return .clampLevel (← fs.get "min_level" 0 Doc.int32?) (← fs.get "max_level" 0 Doc.int32?)
  | "CloneAffixes" => copying .cloneAffixes
  | "CloneBuiltinAffixes" => copying .cloneBuiltinAffixes
  | "CloneLevel" => source .cloneLevel
  | "CloneSeed" => source .cloneSeed
  | "DropAffixes" => filtered .dropAffixes
  | "Eval" => (Formula.ofDoc? (← payload.one?)).map .eval
  | "MutateBinding" => (Doc.choice? Names.bindingChanges (← payload.one?)).map .binding
  | "MutateLevel" => payload.unit?.map fun _ => .level
  | "MutateRank" =>
    let fs ← payload.fields? ["rank"]
    return .rank (← fs.need "rank" Doc.int32?)
  | "MutateRarity" =>
    let fs ← payload.fields? ["reroll_affix_count"]
    return .rarity (← fs.get "reroll_affix_count" false Doc.bool?)
  | "MutateSlot" =>
    let fs ← payload.fields? ["slot"]
    return .slot (← fs.need "slot" EquipmentSlot.ofDoc?)
  | "MutateAffixSeed" => filtered .affixSeed
  | "MutateBuiltinSeed" => payload.unit?.map fun _ => .builtinSeed
  | "OffsetLootLevel" =>
    let fs ← payload.fields? ["offset"]
    return .offsetLevel (← fs.need "offset" Doc.int32?)
  | "ReplaceAffixes" => copying .replaceAffixes
  | _ => none

def copyFields (source : Int) (filter : AffixFilter) (enforce : Bool) : List (String × Json) :=
  ("source_index", .int source) :: filter.toFields ++ [("enforce_affix_limits", .bool enforce)]

def toJson (m : Mutation) : Json :=
  let under (fields : List (String × Json)) : Json := .tagged m.name (.object fields)
  match m with
  | .addAffixes count filter => under (("count", .int count) :: filter.toFields)
  | .addAffix id => under [("affix", id.toJson)]
  | .noVisuals | .level | .builtinSeed => .text m.name
  | .clampLevel lo hi => under [("min_level", .int lo), ("max_level", .int hi)]
  | .cloneAffixes source filter enforce => under (copyFields source filter enforce)
  | .cloneBuiltinAffixes source filter enforce => under (copyFields source filter enforce)
  | .replaceAffixes source filter enforce => under (copyFields source filter enforce)
  | .cloneLevel source => under [("source_index", .int source)]
  | .cloneSeed source => under [("source_index", .int source)]
  | .dropAffixes filter => under filter.toFields
  | .affixSeed filter => under filter.toFields
  | .eval formula => .tagged m.name formula.toJson
  | .binding change => .tagged m.name (.text (nameIn Names.bindingChanges change))
  | .rank value => under [("rank", .int value)]
  | .rarity reroll => under [("reroll_affix_count", .bool reroll)]
  | .slot value => under [("slot", value.toJson)]
  | .offsetLevel offset => under [("offset", .int offset)]

end Mutation

namespace Modifier

def ofDoc? (d : Doc) : Option Modifier := do
  let (label, payload) ← d.variant?
  let cooldown (kind : CooldownKind) : Option Modifier := do
    let fs ← payload.fields? ["channel", "per_account"]
    return .cooldown kind (← fs.need "channel" PrototypeId.ofDoc?)
      (← fs.get "per_account" false Doc.bool?)
  let ids (make : List PrototypeId → Modifier) : Option Modifier := do
    return make (← PrototypeId.listOfDoc? (← payload.one?))
  let levels (make : Int → Int → Modifier) : Option Modifier := do
    let fs ← payload.fields? ["min", "max"]
    return make (← fs.need "min" Doc.int32?) (← fs.need "max" Doc.int32?)
  let mark (m : Modifier) : Option Modifier := payload.unit?.map fun _ => m
  match label with
  | "ClampLevel" => levels .clampLevel
  | "RequireLevel" => levels .requireLevel
  | "OffsetLevel" => (← payload.one?).int32?.map .offsetLevel
  | "MarkSpecial" => mark .markSpecial
  | "UnmarkSpecial" => mark .unmarkSpecial
  | "MarkRare" => mark .markRare
  | "UnmarkRare" => mark .unmarkRare
  | "OnceDaily" => cooldown .hours
  | "CooldownOncePerRollover" => cooldown .rollover
  | "CooldownByChannel" => cooldown .channel
  | "SetAvatar" => (PrototypeId.ofDoc? (← payload.one?)).map .setAvatar
  | "SetItemLevel" => (← payload.one?).int32?.map .setLevel
  | "ModifyAffixLimits" =>
    let fs ← payload.fields? ["position", "category", "modify_min_by", "modify_max_by"]
    return .affixLimits (← fs.get "position" .none AffixPosition.ofDoc?)
      (← fs.get "category" .none PrototypeId.ofDoc?) (← fs.get "modify_min_by" 0 Doc.int16?)
      (← fs.get "modify_max_by" 0 Doc.int16?)
  | "SetRarity" => ids .setRarity
  | "SetUsable" => (← payload.one?).single?.map .setUsable
  | "UseLevelVerbatim" => (← payload.one?).bool?.map .levelVerbatim
  | "RequireDifficultyTier" => ids .requireTier
  | "ModifyDropByDifficultyTier" => (CurveId.ofDoc? (← payload.one?)).map .dropByTier
  | "RequireConditionKeyword" => ids .requireCondition
  | "ForbidConditionKeyword" => ids .forbidCondition
  | "RequireDropperKeyword" => ids .requireDropper
  | "ForbidDropperKeyword" => ids .forbidDropper
  | "RequireRegionKeyword" => ids .requireRegion
  | "ForbidRegionKeyword" => ids .forbidRegion
  | "RequireRegionScenarioRarity" => ids .requireRegionRarity
  | "RequireKillCount" => (← payload.one?).int32?.map .requireKills
  | "RequireWeekday" =>
    return .requireWeekday (← Doc.listOf? (Doc.choice? Names.weekdays) (← payload.one?))
  | "IgnoreCooldown" => mark .ignoreCooldown
  | "IgnoreVendorXpCap" => mark .ignoreVendorCap
  | "IncludeCurrencyBonus" => mark .currencyBonus
  | "SetRegionAffixTable" => (PrototypeId.ofDoc? (← payload.one?)).map .setRegionAffixTable
  | "MissionStateRequired" =>
    let fs ← payload.fields? ["missions", "state"]
    return .requireMissions (← fs.need "missions" PrototypeId.listOfDoc?)
      (← fs.need "state" (Doc.choice? Names.missionStates))
  | "EvalChance" => (Formula.ofDoc? (← payload.one?)).map .evalChance
  | _ => none

def toJson (m : Modifier) : Json :=
  let under (j : Json) : Json := .tagged m.name j
  match m with
  | .clampLevel lo hi => under (.object [("min", .int lo), ("max", .int hi)])
  | .requireLevel lo hi => under (.object [("min", .int lo), ("max", .int hi)])
  | .offsetLevel offset => under (.int offset)
  | .markSpecial | .unmarkSpecial | .markRare | .unmarkRare | .ignoreCooldown
  | .ignoreVendorCap | .currencyBonus => .text m.name
  | .cooldown _ channel perAccount =>
    under (.object [("channel", channel.toJson), ("per_account", .bool perAccount)])
  | .setAvatar id => under id.toJson
  | .setLevel value => under (.int value)
  | .affixLimits position category minBy maxBy =>
    under (.object [("position", position.toJson), ("category", category.toJson),
      ("modify_min_by", .int minBy), ("modify_max_by", .int maxBy)])
  | .setRarity ids => under (PrototypeId.listToJson ids)
  | .setUsable chance => under (.single chance)
  | .levelVerbatim on => under (.bool on)
  | .requireTier ids => under (PrototypeId.listToJson ids)
  | .dropByTier curve => under curve.toJson
  | .requireCondition ids => under (PrototypeId.listToJson ids)
  | .forbidCondition ids => under (PrototypeId.listToJson ids)
  | .requireDropper ids => under (PrototypeId.listToJson ids)
  | .forbidDropper ids => under (PrototypeId.listToJson ids)
  | .requireRegion ids => under (PrototypeId.listToJson ids)
  | .forbidRegion ids => under (PrototypeId.listToJson ids)
  | .requireRegionRarity ids => under (PrototypeId.listToJson ids)
  | .requireKills kills => under (.int kills)
  | .requireWeekday days => under (.ofList (fun d => .text (nameIn Names.weekdays d)) days)
  | .setRegionAffixTable id => under id.toJson
  | .requireMissions missions state =>
    under (.object [("missions", PrototypeId.listToJson missions),
      ("state", .text (nameIn Names.missionStates state))])
  | .evalChance formula => under formula.toJson

end Modifier

namespace Callback

def ofDoc? (d : Doc) : Option Callback := do
  let (label, payload) ← d.variant?
  match label with
  | "BannerMessage" =>
    let fs ← payload.fields? ["message"]
    return .banner (← fs.need "message" Doc.text?)
  | "UsePower" =>
    let fs ← payload.fields? ["power"]
    return .power (← fs.need "power" PrototypeId.ofDoc?)
  | "PlayVisualEffect" =>
    let fs ← payload.fields? ["effect"]
    return .visualEffect (← fs.need "effect" AssetId.ofDoc?)
  | "ChatMessage" =>
    let fs ← payload.fields? ["message"]
    return .chat (← fs.need "message" Doc.text?)
  | _ => none

def toJson : Callback → Json
  | .banner message => .tagged "BannerMessage" (.object [("message", .text message)])
  | .power id => .tagged "UsePower" (.object [("power", id.toJson)])
  | .visualEffect id => .tagged "PlayVisualEffect" (.object [("effect", id.toJson)])
  | .chat message => .tagged "ChatMessage" (.object [("message", .text message)])

end Callback

namespace Repeat

def ofFields? (fs : Fields) : Option Repeat := do
  return ⟨← fs.get "num_min" 1 Doc.int32?, ← fs.get "num_max" 1 Doc.int32?⟩

def toFields (r : Repeat) : List (String × Json) :=
  [("num_min", .int r.min), ("num_max", .int r.max)]

end Repeat

namespace Drop

def ofPayload? (label : String) (payload : Payload) : Option Drop := do
  let mutations (fs : Fields) : Option (List Mutation) :=
    fs.get "mutations" [] (Doc.listOf? Mutation.ofDoc?)
  match label with
  | "Item" =>
    let fs ← payload.fields? ["item", "num_min", "num_max", "mutations"]
    return .item (← fs.need "item" PrototypeId.ofDoc?) (← Repeat.ofFields? fs) (← mutations fs)
  | "ItemFilter" =>
    let fs ← payload.fields? ["slot", "rank", "num_min", "num_max"]
    return .anyItem (← fs.need "slot" EquipmentSlot.ofDoc?) (← fs.get "rank" 0 Doc.int32?)
      (← Repeat.ofFields? fs)
  | "Agent" =>
    let fs ← payload.fields? ["agent", "num_min", "num_max"]
    return .agent (← fs.need "agent" PrototypeId.ofDoc?) (← Repeat.ofFields? fs)
  | "Credits" => (CurveId.ofDoc? (← payload.one?)).map .credits
  | "Experience" => (CurveId.ofDoc? (← payload.one?)).map .experience
  | "PowerPoints" => (← payload.one?).int32?.map .powerPoints
  | "HealthBonus" => (← payload.one?).int32?.map .health
  | "EnduranceBonus" => (← payload.one?).int32?.map .endurance
  | "RealMoney" =>
    let fs ← payload.fields? ["coupon_code", "transaction_context", "num"]
    return .realMoney (← fs.need "coupon_code" Doc.text?)
      (← fs.get "transaction_context" "" Doc.text?) (← fs.get "num" 1 Doc.int32?)
  | "VanityTitle" => (PrototypeId.ofDoc? (← payload.one?)).map .vanityTitle
  | "VendorXp" =>
    let fs ← payload.fields? ["vendor", "xp"]
    return .vendorXp (← fs.need "vendor" PrototypeId.ofDoc?) (← fs.need "xp" Doc.int32?)
  | "Clone" =>
    let fs ← payload.fields? ["source_index", "mutations"]
    return .copy (← fs.need "source_index" Doc.int32?) (← mutations fs)
  | "Callback" => (Callback.ofDoc? (← payload.one?)).map .callback
  | _ => none

def toJson (d : Drop) : Json :=
  let under (j : Json) : Json := .tagged d.kindName j
  let mutations (ms : List Mutation) : String × Json := ("mutations", .ofList Mutation.toJson ms)
  match d with
  | .item id times ms =>
    under (.object (("item", id.toJson) :: times.toFields ++ [mutations ms]))
  | .anyItem slot rank times =>
    under (.object (("slot", slot.toJson) :: ("rank", .int rank) :: times.toFields))
  | .agent id times => under (.object (("agent", id.toJson) :: times.toFields))
  | .credits curve => under curve.toJson
  | .experience curve => under curve.toJson
  | .powerPoints amount => under (.int amount)
  | .health amount => under (.int amount)
  | .endurance amount => under (.int amount)
  | .realMoney coupon transaction amount =>
    under (.object [("coupon_code", .text coupon), ("transaction_context", .text transaction),
      ("num", .int amount)])
  | .vanityTitle title => under title.toJson
  | .vendorXp vendor amount => under (.object [("vendor", vendor.toJson), ("xp", .int amount)])
  | .copy source ms => under (.object [("source_index", .int source), mutations ms])
  | .callback c => under c.toJson

end Drop

namespace LootNode

/-- Reads a tree whose nodes are nested at most as deep as the fuel. -/
def ofDocWith? : Nat → Doc → Option LootNode
  | 0, _ => none
  | fuel + 1, d => do
    let fs ← d.fields? "LootNode" ["weight", "modifiers", "kind"]
    let head : NodeHead := {
      weight := ← fs.get "weight" 1 Doc.int32?
      modifiers := ← fs.get "modifiers" [] (Doc.listOf? Modifier.ofDoc?) }
    let (label, payload) ← fs.need "kind" Doc.variant?
    match label with
    | "Table" =>
      let fs ← payload.record? "LootTable"
        ["pick_method", "no_drop_percent", "choices", "num_min", "num_max"]
      let spec : TableSpec := {
        method := ← fs.get "pick_method" .weighted (Doc.choice? Names.pickMethods)
        noDrop := ← fs.get "no_drop_percent" 0 Doc.single?
        times := ← Repeat.ofFields? fs }
      return .table head spec (← fs.get "choices" [] (Doc.listOf? (ofDocWith? fuel)))
    | "TableRef" =>
      let fs ← payload.fields? ["table", "num_min", "num_max"]
      return .reference head (← fs.need "table" PrototypeId.ofDoc?) (← Repeat.ofFields? fs)
    | "Action" =>
      let fs ← payload.record? "LootAction" ["kind", "key", "target"]
      return .action head (← fs.need "kind" (Doc.choice? Names.actions))
        (← fs.get "key" .none PrototypeId.ofDoc?) (← fs.need "target" (ofDocWith? fuel))
    | "CharacterToken" =>
      let fs ← payload.fields? ["token_parent", "filter", "on_unavailable"]
      return .token head (← fs.need "token_parent" PrototypeId.ofDoc?)
        (← fs.get "filter" .none (Doc.choice? Names.tokenFilters))
        (← fs.maybe "on_unavailable" (ofDocWith? fuel))
    | label => (Drop.ofPayload? label payload).map (.drop head)

def ofDoc? (d : Doc) : Option LootNode := ofDocWith? Doc.maxDepth d

/-- A node with its head and what it is. -/
def written (head : NodeHead) (kind : Json) : Json :=
  .object [("weight", .int head.weight), ("modifiers", .ofList Modifier.toJson head.modifiers),
    ("kind", kind)]

mutual

def toJson : LootNode → Json
  | .table head spec entries =>
    written head <| .tagged "Table" <| .object <|
      [("pick_method", .text (nameIn Names.pickMethods spec.method)),
        ("no_drop_percent", .single spec.noDrop), ("choices", .array (toJsons entries))] ++
      spec.times.toFields
  | .reference head id times =>
    written head (.tagged "TableRef" (.object (("table", id.toJson) :: times.toFields)))
  | .action head kind key target =>
    written head <| .tagged "Action" <| .object
      [("kind", .text (nameIn Names.actions kind)), ("key", key.toJson), ("target", toJson target)]
  | .token head parent filter fallback =>
    written head <| .tagged "CharacterToken" <| .object
      [("token_parent", parent.toJson), ("filter", .text (nameIn Names.tokenFilters filter)),
        ("on_unavailable", toJsonFallback fallback)]
  | .drop head d => written head d.toJson

def toJsons : List LootNode → List Json
  | [] => []
  | n :: ns => toJson n :: toJsons ns

def toJsonFallback : Option LootNode → Json
  | none => .null
  | some n => toJson n

end

end LootNode

namespace LootTable

def ofDoc? (d : Doc) : Option LootTable := do
  let fs ← d.fields? "LootTablePrototype" ["id", "name", "root"]
  return {
    id := ← fs.need "id" PrototypeId.ofDoc?
    name := ← fs.get "name" "" Doc.text?
    root := ← fs.need "root" LootNode.ofDoc? }

def toJson (t : LootTable) : Json :=
  .object [("id", t.id.toJson), ("name", .text t.name), ("root", t.root.toJson)]

end LootTable

end Spoils
