import Spoils.Catalog.Prototypes

/-! The written names of enumerations. -/
namespace Spoils

namespace Names

def slots : List (String × Slot) := Slot.all.map fun s => (s.name, s)

def positions : List (String × AffixPosition) := AffixPosition.all.map fun p => (p.name, p)

def dataTypes : List (String × DataType) :=
  [("Integer", .integer), ("Real", .real), ("Boolean", .boolean), ("EntityId", .entity),
   ("Prototype", .prototype), ("Asset", .asset), ("Curve", .curve), ("Time", .time)]

def paramTypes : List (String × ParamType) :=
  [("Invalid", .invalid), ("Integer", .integer), ("Asset", .asset), ("Prototype", .prototype)]

def aggregations : List (String × Aggregation) :=
  [("None", .none), ("Sum", .sum), ("Mul", .mul), ("Min", .min), ("Max", .max)]

def duplicates : List (String × Duplicates) :=
  [("Fail", .fail), ("Ignore", .ignore), ("Overwrite", .overwrite), ("Append", .append)]

def equipment : List (String × EquipmentSlot) :=
  [("Invalid", .invalid), ("Costume", .costume), ("Gear01", .gear1), ("Gear02", .gear2),
   ("Gear03", .gear3), ("Gear04", .gear4), ("Gear05", .gear5), ("Artifact01", .artifact1),
   ("Artifact02", .artifact2), ("Artifact03", .artifact3), ("Artifact04", .artifact4),
   ("Legendary", .legendary), ("Ring", .ring), ("Medal", .medal), ("Insignia", .insignia),
   ("TeamUpGear", .teamUpGear)]

def kinds : List (String × PrototypeKind) :=
  [("Rarity", .rarity), ("Affix", .affix), ("Item", .item), ("AffixTable", .affixTable),
   ("LootTable", .lootTable), ("DifficultyTier", .difficultyTier), ("Keyword", .keyword),
   ("Avatar", .avatar), ("Agent", .agent), ("AffixCategory", .affixCategory),
   ("Mission", .mission), ("Power", .power), ("Other", .other)]

def ranks : List (String × Rank) :=
  [("Popcorn", .popcorn), ("Champion", .champion), ("Elite", .elite), ("MiniBoss", .miniBoss),
   ("Boss", .boss), ("Player", .player), ("GroupBoss", .groupBoss), ("TeamUp", .teamUp)]

def weekdays : List (String × Weekday) :=
  [("Sunday", .sunday), ("Monday", .monday), ("Tuesday", .tuesday), ("Wednesday", .wednesday),
   ("Thursday", .thursday), ("Friday", .friday), ("Saturday", .saturday), ("All", .all)]

def cooldowns : List (String × CooldownKind) :=
  [("OncePerXHours", .hours), ("OncePerRollover", .rollover), ("ByChannel", .channel)]

def missionStates : List (String × MissionState) :=
  [("Invalid", .invalid), ("Inactive", .inactive), ("Available", .available),
   ("Active", .active), ("Completed", .completed), ("Failed", .failed)]

def bindingChanges : List (String × BindingChange) :=
  [("None", .none), ("TradeRestricted", .tradeRestricted),
   ("TradeRestrictedRemoveBinding", .tradeRestrictedUnbind), ("Avatar", .avatar)]

def pickMethods : List (String × PickMethod) :=
  [("PickWeight", .weighted), ("PickWeightTryAll", .tryAll), ("PickAll", .every)]

def tokenFilters : List (String × TokenFilter) :=
  [("None", .none), ("DropCurrentAvatarOnly", .currentAvatar), ("DropUnownedAvatarOnly", .unowned)]

def actions : List (String × ActionKind) :=
  [("FirstTime", .firstTime), ("LoopOverAvatars", .everyAvatar)]

end Names

end Spoils
