import Spoils.Formula.Basic
import Spoils.Branch.Settings

/-! Modifiers of loot nodes: what they ask of a branch or change in its settings. -/
namespace Spoils

inductive MissionState where
  | invalid | inactive | available | active | completed | failed
deriving DecidableEq, Repr, Inhabited

/-- A requirement never fails a roll by itself; it restricts the branch. -/
inductive Modifier where
  /-- A bound that is not positive is ignored. -/
  | clampLevel (min max : Int)
  | requireLevel (min max : Int)
  | offsetLevel (offset : Int)
  | markSpecial
  | unmarkSpecial
  | markRare
  | unmarkRare
  | cooldown (kind : CooldownKind) (channel : PrototypeId) (perAccount : Bool)
  | setAvatar (avatar : PrototypeId)
  | setLevel (level : Int)
  | affixLimits (position : AffixPosition) (category : PrototypeId) (minBy maxBy : Int)
  | setRarity (choices : List PrototypeId)
  | setUsable (chance : Single)
  | levelVerbatim (on : Bool)
  | requireTier (choices : List PrototypeId)
  | dropByTier (curve : CurveId)
  | requireCondition (keywords : List PrototypeId)
  | forbidCondition (keywords : List PrototypeId)
  | requireDropper (keywords : List PrototypeId)
  | forbidDropper (keywords : List PrototypeId)
  | requireRegion (keywords : List PrototypeId)
  | forbidRegion (keywords : List PrototypeId)
  | requireRegionRarity (choices : List PrototypeId)
  | requireKills (kills : Int)
  | requireWeekday (days : List Weekday)
  | ignoreCooldown
  | ignoreVendorCap
  | currencyBonus
  | setRegionAffixTable (table : PrototypeId)
  | requireMissions (missions : List PrototypeId) (state : MissionState)
  /-- A truth value decides directly; a number is a chance. -/
  | evalChance (formula : Formula)

namespace Modifier

def name : Modifier → String
  | .clampLevel .. => "ClampLevel"
  | .requireLevel .. => "RequireLevel"
  | .offsetLevel _ => "OffsetLevel"
  | .markSpecial => "MarkSpecial"
  | .unmarkSpecial => "UnmarkSpecial"
  | .markRare => "MarkRare"
  | .unmarkRare => "UnmarkRare"
  | .cooldown .hours .. => "OnceDaily"
  | .cooldown .rollover .. => "CooldownOncePerRollover"
  | .cooldown .channel .. => "CooldownByChannel"
  | .setAvatar _ => "SetAvatar"
  | .setLevel _ => "SetItemLevel"
  | .affixLimits .. => "ModifyAffixLimits"
  | .setRarity _ => "SetRarity"
  | .setUsable _ => "SetUsable"
  | .levelVerbatim _ => "UseLevelVerbatim"
  | .requireTier _ => "RequireDifficultyTier"
  | .dropByTier _ => "ModifyDropByDifficultyTier"
  | .requireCondition _ => "RequireConditionKeyword"
  | .forbidCondition _ => "ForbidConditionKeyword"
  | .requireDropper _ => "RequireDropperKeyword"
  | .forbidDropper _ => "ForbidDropperKeyword"
  | .requireRegion _ => "RequireRegionKeyword"
  | .forbidRegion _ => "ForbidRegionKeyword"
  | .requireRegionRarity _ => "RequireRegionScenarioRarity"
  | .requireKills _ => "RequireKillCount"
  | .requireWeekday _ => "RequireWeekday"
  | .ignoreCooldown => "IgnoreCooldown"
  | .ignoreVendorCap => "IgnoreVendorXpCap"
  | .currencyBonus => "IncludeCurrencyBonus"
  | .setRegionAffixTable _ => "SetRegionAffixTable"
  | .requireMissions .. => "MissionStateRequired"
  | .evalChance _ => "EvalChance"

/-- A chance of use lies in the unit interval. -/
def normalize : Modifier → Modifier
  | .setUsable chance => .setUsable chance.clampUnit
  | m => m

/-- Modifiers that only make sense on a table. -/
def isForTables : Modifier → Bool
  | .markSpecial | .unmarkSpecial | .markRare | .unmarkRare | .cooldown .. | .requireTier _
  | .dropByTier _ | .requireCondition _ | .forbidCondition _ | .requireDropper _
  | .forbidDropper _ | .requireRegion _ | .forbidRegion _ | .requireRegionRarity _
  | .requireKills _ | .requireWeekday _ => true
  | _ => false

end Modifier

end Spoils
