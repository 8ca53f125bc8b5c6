import Spoils.Formula.Eval
import Spoils.Roll.World

/-! Modifiers at work on the settings of a branch. -/
namespace Spoils

namespace BranchSettings

def addDelta {α : Type} [Ord α] [Std.TransOrd α] [Std.LawfulEqOrd α] (m : SortedMap α Int) (k : α)
    (delta : Int) : SortedMap α Int :=
  m.insert k (Bounds.int16.clamp ((m.find? k).getD 0 + delta))

def addCooldown (s : BranchSettings) (gate : CooldownGate) : BranchSettings :=
  let s := s.addFlags gate.kind.flag
  let s := if gate.perAccount then s.addFlags DropFlags.perAccount else s
  { s with cooldown := some gate }

def anyPresent (keywords : List PrototypeId) (present : SortedSet PrototypeId) : Bool :=
  keywords.any present.contains

/-- Changes the chance to drop by the curve of difficulty tiers; a factor next to one has no
effect. -/
def scaleDrop (s : BranchSettings) (c : Catalog) (curve : CurveId) : BranchSettings :=
  match c.difficultyTier? s.difficultyTier, c.curve? curve with
  | some tier, some values =>
    let factor := values.valueAt tier.tier
    if Formula.defaultEpsilon < (factor - 1).abs then
      { s with dropFactor := s.dropFactor * factor }.addFlags DropFlags.tierModified
    else s
  | _, _ => s

/-- The properties of a branch as a formula sees them. -/
def formulaStore (s : BranchSettings) : PropertyStore :=
  (SortedMap.empty.insert (PropertyId.itemLevel : PropertyKey) (.integer s.level)).insert
    PropertyId.difficultyTier (.prototype s.difficultyTier)

/-- Whether a formula lets the branch pass: a truth value decides, a number is a chance. -/
def passes (s : BranchSettings) (c : Catalog) (formula : Formula) (dice : Dice) : Bool × Dice :=
  let scope : Scope := { catalog := some c, dice := some dice }
  let (v, scope) := formula.eval (scope.bind .default (.store ⟨.owned, s.formulaStore⟩))
  let dice := scope.dice.getD dice
  let against (chance : Single) : Bool × Dice :=
    let (u, dice) := dice.unit
    (decide (u < chance), dice)
  match v with
  | .bool passed => (passed, dice)
  | .int n => against (.ofInt n)
  | .single x => against x
  | _ => (false, dice)

end BranchSettings

namespace Modifier

/-- Applies a modifier that draws nothing. -/
def adjust (w : World) (m : Modifier) (s : BranchSettings) : BranchSettings :=
  match m with
  | .clampLevel lo hi =>
    if 0 < lo ∧ s.level < lo then { s with level := lo }
    else if 0 < hi ∧ hi < s.level then { s with level := hi }
    else s
  | .requireLevel lo hi =>
    let level := s.levelForRequirements
    s.require ((lo ≤ 0 || lo ≤ level) && (hi ≤ 0 || level ≤ hi)) DropFlags.levelRestricted
  | .offsetLevel offset =>
    { s with level := Bounds.int32.clamp (s.level + offset) }
  | .markSpecial => s.addFlags DropFlags.specialFind
  | .unmarkSpecial => s.removeFlags DropFlags.specialFind
  | .markRare => s.addFlags DropFlags.rareFind
  | .unmarkRare => s.removeFlags DropFlags.rareFind
  | .cooldown kind channel perAccount => s.addCooldown ⟨kind, channel, perAccount⟩
  | .setAvatar avatar =>
    if avatar.isValid then { s with avatar := avatar, forceUsable := true } else s
  | .setLevel level => { s with level := level, levelVerbatim := true }
  | .affixLimits position category minBy maxBy =>
    if position != .none then
      { s with
        minDeltas := BranchSettings.addDelta s.minDeltas position minBy
        maxDeltas := BranchSettings.addDelta s.maxDeltas position maxBy }
    else if category.isValid then
      { s with categoryDeltas := BranchSettings.addDelta s.categoryDeltas category minBy }
    else s
  | .setRarity choices =>
    if choices.isEmpty then s else { s with rarities := SortedSet.ofList choices }
  | .setUsable chance => { s with usableChance := chance }
  | .levelVerbatim on => { s with levelVerbatim := on }
  | .requireTier choices =>
    let tier := s.difficultyTier
    s.require (choices.isEmpty || !tier.isValid || choices.contains tier) DropFlags.tierRestricted
  | .dropByTier curve => s.scaleDrop w.catalog curve
  | .requireCondition keywords =>
    s.require (BranchSettings.anyPresent keywords s.conditionKeywords) DropFlags.conditionRestricted
  | .forbidCondition keywords =>
    s.require (!BranchSettings.anyPresent keywords s.conditionKeywords)
      DropFlags.conditionRestricted
  | .requireDropper keywords =>
    s.require (BranchSettings.anyPresent keywords s.dropperKeywords) DropFlags.dropperRestricted
  | .forbidDropper keywords =>
    s.require (!BranchSettings.anyPresent keywords s.dropperKeywords) DropFlags.dropperRestricted
  | .requireRegion keywords =>
    s.require (BranchSettings.anyPresent keywords s.regionKeywords) DropFlags.regionRestricted
  | .forbidRegion keywords =>
    s.require (!BranchSettings.anyPresent keywords s.regionKeywords) DropFlags.regionRestricted
  | .requireRegionRarity choices =>
    s.require (choices.contains s.regionRarity) DropFlags.regionRestricted
  | .requireKills kills =>
    if kills ≤ 0 then s
    else
      s.addFlags (if kills ≤ s.kills then DropFlags.killsReached else DropFlags.killsRestricted)
  | .requireWeekday days =>
    s.require (days.isEmpty || s.weekday == .all || days.contains s.weekday)
      DropFlags.weekdayRestricted
  | .ignoreCooldown => s.addFlags DropFlags.ignoreCooldown
  | .ignoreVendorCap => s.addFlags DropFlags.ignoreCap
  | .currencyBonus => s.addFlags DropFlags.currencyBonus
  | .setRegionAffixTable table => if table.isValid then { s with regionAffixTable := table } else s
  | .requireMissions missions state =>
    s.require (missions.all fun m => w.oracle.missionState m == state) DropFlags.missionRestricted
  | .evalChance _ => s

/-- Applies a modifier. Only a formula draws. -/
def apply (w : World) (m : Modifier) (s : BranchSettings) (dice : Dice) : BranchSettings × Dice :=
  match m with
  | .evalChance formula =>
    let (passed, dice) := s.passes w.catalog formula dice
    (s.require passed DropFlags.evalRestricted, dice)
  | m => (m.adjust w s, dice)

def applyAll (w : World) : List Modifier → BranchSettings → Dice → BranchSettings × Dice
  | [], s, dice => (s, dice)
  | m :: ms, s, dice =>
    let (s, dice) := m.apply w s dice
    applyAll w ms s dice

end Modifier

end Spoils
