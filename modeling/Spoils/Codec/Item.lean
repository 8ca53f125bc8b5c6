import Spoils.Codec.Property

/-! Documents of affixes, items and drafts. -/
namespace Spoils

def AffixPosition.ofDoc? (d : Doc) : Option AffixPosition := d.choice? Names.positions
def EquipmentSlot.ofDoc? (d : Doc) : Option EquipmentSlot := d.choice? Names.equipment

def AffixPosition.toJson (p : AffixPosition) : Json := .text p.name
def EquipmentSlot.toJson (s : EquipmentSlot) : Json := .text (nameIn Names.equipment s)

def PrototypeId.listOfDoc? : Doc → Option (List PrototypeId) := Doc.listOf? PrototypeId.ofDoc?

def PrototypeId.listToJson (ids : List PrototypeId) : Json := .ofList PrototypeId.toJson ids

/-- Reads flags by their names; in object notation they stand in a wrapper. -/
def Flags.ofDoc? {n : Nat} (wrapper : String) (names : List (String × Flags n)) (d : Doc) :
    Option (Flags n) := do
  Flags.parse? names (← (← d.wrapped? wrapper).text?)

namespace Occasion

def ofDoc? : Doc → Option Occasion := Flags.ofDoc? "LootContext" names

def toJson (o : Occasion) : Json := .text (Flags.text names o)

end Occasion

namespace Affix

def ofDoc? (d : Doc) : Option Affix := do
  let fs ← d.fields? "AffixPrototype" ["id", "name", "position", "weight", "keywords", "categories",
    "type_filters", "scopes", "duplicate_handling", "level_requirement", "is_gem"]
  return {
    id := ← fs.need "id" PrototypeId.ofDoc?
    name := ← fs.get "name" "" Doc.text?
    position := ← fs.need "position" AffixPosition.ofDoc?
    weight := ← fs.get "weight" 1 Doc.int32?
    keywords := ← fs.get "keywords" [] PrototypeId.listOfDoc?
    categories := ← fs.get "categories" [] PrototypeId.listOfDoc?
    typeFilters := ← fs.get "type_filters" [] PrototypeId.listOfDoc?
    scopes := ← fs.get "scopes" [] PrototypeId.listOfDoc?
    duplicates := ← fs.get "duplicate_handling" .fail (Doc.choice? Names.duplicates)
    levelRequirement := ← fs.get "level_requirement" 0 Doc.int32?
    isGem := ← fs.get "is_gem" false Doc.bool? }

def toJson (a : Affix) : Json :=
  .object [("id", a.id.toJson), ("name", .text a.name), ("position", a.position.toJson),
    ("weight", .int a.weight), ("keywords", PrototypeId.listToJson a.keywords),
    ("categories", PrototypeId.listToJson a.categories),
    ("type_filters", PrototypeId.listToJson a.typeFilters),
    ("scopes", PrototypeId.listToJson a.scopes),
    ("duplicate_handling", .text (nameIn Names.duplicates a.duplicates)),
    ("level_requirement", .int a.levelRequirement), ("is_gem", .bool a.isGem)]

end Affix

namespace CountRange

def ofDoc? (d : Doc) : Option CountRange := do
  let fs ← d.fields? "CountRange" ["min", "max"]
  return ⟨← fs.get "min" 0 Doc.int16?, ← fs.get "max" 0 Doc.int16?⟩

def toJson (r : CountRange) : Json := .object [("min", .int r.min), ("max", .int r.max)]

end CountRange

namespace CategoryLimit

def ofDoc? (d : Doc) : Option CategoryLimit := do
  let fs ← d.fields? "CategorizedAffixLimit" ["category", "min_affixes"]
  return ⟨← fs.need "category" PrototypeId.ofDoc?, ← fs.need "min_affixes" Doc.int16?⟩

def toJson (l : CategoryLimit) : Json :=
  .object [("category", l.category.toJson), ("min_affixes", .int l.count)]

end CategoryLimit

namespace AffixLimits

def socketsOfDoc? (d : Doc) : Option (Int × Int × Int) := do
  match ← (← d.tuple?).mapM Doc.int16? with
  | [a, b, c] => return (a, b, c)
  | _ => none

def ofDoc? (d : Doc) : Option AffixLimits := do
  let fs ← d.fields? "AffixLimits" ["rarity", "allowed_contexts", "prefixes", "suffixes", "uniques",
    "team_ups", "region_affixes", "max_ultimates", "max_cosmics", "max_blessings",
    "max_runewords", "max_sockets", "categorized"]
  return {
    rarity := ← fs.get "rarity" .none PrototypeId.ofDoc?
    occasions := ← fs.get "allowed_contexts" .drop Occasion.ofDoc?
    prefixes := ← fs.get "prefixes" {} CountRange.ofDoc?
    suffixes := ← fs.get "suffixes" {} CountRange.ofDoc?
    uniques := ← fs.get "uniques" {} CountRange.ofDoc?
    teamUps := ← fs.get "team_ups" {} CountRange.ofDoc?
    regionAffixes := ← fs.get "region_affixes" {} CountRange.ofDoc?
    ultimates := ← fs.get "max_ultimates" 0 Doc.int16?
    cosmics := ← fs.get "max_cosmics" 0 Doc.int16?
    blessings := ← fs.get "max_blessings" 0 Doc.int16?
    runewords := ← fs.get "max_runewords" 0 Doc.int16?
    sockets := ← fs.get "max_sockets" (0, 0, 0) socketsOfDoc?
    categories := ← fs.get "categorized" [] (Doc.listOf? CategoryLimit.ofDoc?) }

def toJson (l : AffixLimits) : Json :=
  .object [("rarity", l.rarity.toJson), ("allowed_contexts", l.occasions.toJson),
    ("prefixes", l.prefixes.toJson), ("suffixes", l.suffixes.toJson),
    ("uniques", l.uniques.toJson), ("team_ups", l.teamUps.toJson),
    ("region_affixes", l.regionAffixes.toJson), ("max_ultimates", .int l.ultimates),
    ("max_cosmics", .int l.cosmics), ("max_blessings", .int l.blessings),
    ("max_runewords", .int l.runewords),
    ("max_sockets", .ofList .int [l.sockets.1, l.sockets.2.1, l.sockets.2.2]),
    ("categorized", .ofList CategoryLimit.toJson l.categories)]

end AffixLimits

namespace Restriction

/-- Reads a restriction whose conditionals are nested at most as deep as the fuel. -/
def ofDocWith? : Nat → Doc → Option Restriction
  | 0, _ => none
  | fuel + 1, d => do
    let (label, payload) ← d.variant?
    match label with
    | "Level" =>
      let fs ← payload.fields? ["level_min", "level_range"]
      return .level (← fs.need "level_min" Doc.int32?) (← fs.get "level_range" (-1) Doc.int32?)
    | "Rarity" =>
      let fs ← payload.fields? ["allowed"]
      return .rarity (← fs.need "allowed" PrototypeId.listOfDoc?)
    | "Rank" =>
      let fs ← payload.fields? ["allowed"]
      return .rank (← fs.need "allowed" (Doc.listOf? Doc.int32?))
    | "Slot" =>
      let fs ← payload.fields? ["allowed"]
      return .slot (← fs.need "allowed" (Doc.listOf? EquipmentSlot.ofDoc?))
    | "UsableBy" =>
      let fs ← payload.fields? ["avatars"]
      return .usableBy (← fs.need "avatars" PrototypeId.listOfDoc?)
    | "ItemParent" =>
      let fs ← payload.fields? ["allowed"]
      return .itemParent (← fs.need "allowed" PrototypeId.listOfDoc?)
    | "Context" =>
      let fs ← payload.fields? ["allowed"]
      return .occasion (← fs.need "allowed" Occasion.ofDoc?)
    | "OutputLevel" =>
      let fs ← payload.fields? ["value", "use_as_filter"]
      return .outputLevel (← fs.need "value" Doc.int32?) (← fs.need "use_as_filter" Doc.bool?)
    | "OutputRarity" =>
      let fs ← payload.fields? ["value", "use_as_filter"]
      return .outputRarity (← fs.need "value" PrototypeId.ofDoc?)
        (← fs.need "use_as_filter" Doc.bool?)
    | "OutputRank" =>
      let fs ← payload.fields? ["value", "use_as_filter"]
      return .outputRank (← fs.need "value" Doc.int32?) (← fs.need "use_as_filter" Doc.bool?)
    | "Conditional" =>
      let fs ← payload.fields? ["contexts", "apply", "otherwise"]
      return .conditional (← fs.need "contexts" Occasion.ofDoc?)
        (← fs.get "apply" [] (Doc.listOf? (ofDocWith? fuel)))
        (← fs.get "otherwise" [] (Doc.listOf? (ofDocWith? fuel)))
    | _ => none

def ofDoc? (d : Doc) : Option Restriction := ofDocWith? Doc.maxDepth d

mutual

def toJson : Restriction → Json
  | .level min range =>
    .tagged "Level" (.object [("level_min", .int min), ("level_range", .int range)])
  | .rarity allowed =>
    .tagged "Rarity" (.object [("allowed", PrototypeId.listToJson allowed)])
  | .rank allowed => .tagged "Rank" (.object [("allowed", .ofList .int allowed)])
  | .slot allowed =>
    .tagged "Slot" (.object [("allowed", .ofList EquipmentSlot.toJson allowed)])
  | .usableBy avatars =>
    .tagged "UsableBy" (.object [("avatars", PrototypeId.listToJson avatars)])
  | .itemParent allowed =>
    .tagged "ItemParent" (.object [("allowed", PrototypeId.listToJson allowed)])
  | .occasion allowed => .tagged "Context" (.object [("allowed", allowed.toJson)])
  | .outputLevel value filter =>
    .tagged "OutputLevel" (.object [("value", .int value), ("use_as_filter", .bool filter)])
  | .outputRarity value filter =>
    .tagged "OutputRarity" (.object [("value", value.toJson), ("use_as_filter", .bool filter)])
  | .outputRank value filter =>
    .tagged "OutputRank" (.object [("value", .int value), ("use_as_filter", .bool filter)])
  | .conditional occasions inside outside =>
    .tagged "Conditional" (.object [("contexts", occasions.toJson),
      ("apply", .array (toJsons inside)), ("otherwise", .array (toJsons outside))])

def toJsons : List Restriction → List Json
  | [] => []
  | r :: rs => toJson r :: toJsons rs

end

end Restriction

namespace BuiltinAffix

def ofDoc? (d : Doc) : Option BuiltinAffix := do
  let fs ← d.fields? "BuiltinAffix" ["affix", "scope", "seed"]
  return {
    affix := ← fs.need "affix" PrototypeId.ofDoc?
    scope := ← fs.get "scope" .none PrototypeId.ofDoc?
    seed := ← fs.get "seed" 0 Doc.nat32? }

def toJson (a : BuiltinAffix) : Json :=
  .object [("affix", a.affix.toJson), ("scope", a.scope.toJson), ("seed", .ofNat a.seed)]

end BuiltinAffix

namespace Item

def ofDoc? (d : Doc) : Option Item := do
  let fs ← d.fields? "ItemPrototype" ["id", "name", "parent", "is_abstract", "slot", "usable_by",
    "builtin_affixes", "affix_limits", "drop_restrictions"]
  return {
    id := ← fs.need "id" PrototypeId.ofDoc?
    name := ← fs.get "name" "" Doc.text?
    parent := ← fs.get "parent" .none PrototypeId.ofDoc?
    isAbstract := ← fs.get "is_abstract" false Doc.bool?
    slot := ← fs.get "slot" .invalid EquipmentSlot.ofDoc?
    usableBy := ← fs.get "usable_by" [] PrototypeId.listOfDoc?
    builtinAffixes := ← fs.get "builtin_affixes" [] (Doc.listOf? BuiltinAffix.ofDoc?)
    affixLimits := ← fs.get "affix_limits" [] (Doc.listOf? AffixLimits.ofDoc?)
    restrictions := ← fs.get "drop_restrictions" [] (Doc.listOf? Restriction.ofDoc?) }

def toJson (i : Item) : Json :=
  .object [("id", i.id.toJson), ("name", .text i.name), ("parent", i.parent.toJson),
    ("is_abstract", .bool i.isAbstract), ("slot", i.slot.toJson),
    ("usable_by", PrototypeId.listToJson i.usableBy),
    ("builtin_affixes", .ofList BuiltinAffix.toJson i.builtinAffixes),
    ("affix_limits", .ofList AffixLimits.toJson i.affixLimits),
    ("drop_restrictions", .array (Restriction.toJsons i.restrictions))]

end Item

namespace AttachedAffix

def ofDoc? (d : Doc) : Option AttachedAffix := do
  let fs ← d.fields? "AffixSpec" ["affix", "scope", "level_requirement", "seed"]
  return {
    affix := ← fs.need "affix" PrototypeId.ofDoc?
    scope := ← fs.get "scope" .none PrototypeId.ofDoc?
    levelRequirement := ← fs.get "level_requirement" 0 Doc.int32?
    seed := ← fs.get "seed" 0 Doc.nat32? }

def toJson (a : AttachedAffix) : Json :=
  .object [("affix", a.affix.toJson), ("scope", a.scope.toJson),
    ("level_requirement", .int a.levelRequirement), ("seed", .ofNat a.seed)]

end AttachedAffix

namespace Binding

def ofDoc? : Doc → Option Binding := Flags.ofDoc? "ItemBinding" names

def toJson (b : Binding) : Json := .text (Flags.text names b)

end Binding

namespace Draft

/-- Reads a draft; the checks are not written. -/
def ofDoc? (d : Doc) : Option Draft := do
  let fs ← d.fields? "ItemSpec" ["item", "rarity", "level", "rank", "seed", "slot", "equippable_by",
    "roll_for", "binding", "affixes", "properties"]
  return {
    item := ← fs.get "item" .none PrototypeId.ofDoc?
    rarity := ← fs.get "rarity" .none PrototypeId.ofDoc?
    level := ← fs.get "level" 0 Doc.int32?
    rank := ← fs.get "rank" 0 Doc.int32?
    seed := ← fs.get "seed" 0 Doc.nat32?
    slot := ← fs.get "slot" .invalid EquipmentSlot.ofDoc?
    equippableBy := ← fs.get "equippable_by" .none PrototypeId.ofDoc?
    rollFor := ← fs.get "roll_for" .none PrototypeId.ofDoc?
    binding := ← fs.get "binding" 0#8 Binding.ofDoc?
    affixes := ← fs.get "affixes" [] (Doc.listOf? AttachedAffix.ofDoc?)
    properties := ← fs.get "properties" .empty PropertyStore.ofDoc? }

def toJson (d : Draft) : Json :=
  .object [("item", d.item.toJson), ("rarity", d.rarity.toJson), ("level", .int d.level),
    ("rank", .int d.rank), ("seed", .ofNat d.seed), ("slot", d.slot.toJson),
    ("equippable_by", d.equippableBy.toJson), ("roll_for", d.rollFor.toJson),
    ("binding", Binding.toJson d.binding), ("affixes", .ofList AttachedAffix.toJson d.affixes),
    ("properties", PropertyStore.toJson d.properties)]

end Draft

end Spoils
