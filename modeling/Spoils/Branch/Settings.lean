import Spoils.SortedMap
import Spoils.Flags
import Spoils.Affix.Position
import Spoils.Single.Basic

/-! Settings of a branch of a loot tree: the level, restrictions and limits its drops obey. -/
namespace Spoils

/-- What the modifiers of a branch have collected. -/
abbrev DropFlags := Flags 32

namespace DropFlags

def cooldownHours : DropFlags := 0x000001#32
def cooldownRollover : DropFlags := 0x000002#32
def cooldownChannel : DropFlags := 0x000004#32
def specialFind : DropFlags := 0x000008#32
def perAccount : DropFlags := 0x000010#32
def modeRestricted : DropFlags := 0x000020#32
def regionRestricted : DropFlags := 0x000040#32
def killsRestricted : DropFlags := 0x000080#32
def killsReached : DropFlags := 0x000100#32
def previewOnly : DropFlags := 0x000200#32
def weekdayRestricted : DropFlags := 0x000400#32
def conditionRestricted : DropFlags := 0x000800#32
def tierModified : DropFlags := 0x001000#32
def tierRestricted : DropFlags := 0x002000#32
def ignoreCooldown : DropFlags := 0x004000#32
def ignoreCap : DropFlags := 0x008000#32
def levelRestricted : DropFlags := 0x010000#32
def rareFind : DropFlags := 0x020000#32
def dropperRestricted : DropFlags := 0x040000#32
def currencyBonus : DropFlags := 0x080000#32
def missionRestricted : DropFlags := 0x100000#32
def evalRestricted : DropFlags := 0x200000#32

def restrictions : DropFlags := 0x352ce0#32

def cooldowns : DropFlags := 0x000007#32

def names : List (String × DropFlags) :=
  [("COOLDOWN_ONCE_PER_X_HOURS", cooldownHours), ("COOLDOWN_ONCE_PER_ROLLOVER", cooldownRollover),
   ("COOLDOWN_BY_CHANNEL", cooldownChannel), ("SPECIAL_ITEM_FIND", specialFind),
   ("PER_ACCOUNT", perAccount), ("DIFFICULTY_MODE_RESTRICTED", modeRestricted),
   ("REGION_RESTRICTED", regionRestricted), ("KILL_COUNT_RESTRICTED", killsRestricted),
   ("KILL_COUNT_REQUIREMENT_MET", killsReached), ("PREVIEW_ONLY", previewOnly),
   ("WEEKDAY_RESTRICTED", weekdayRestricted), ("CONDITION_RESTRICTED", conditionRestricted),
   ("DIFFICULTY_TIER_NO_DROP_MODIFIED", tierModified),
   ("DIFFICULTY_TIER_RESTRICTED", tierRestricted), ("IGNORE_COOLDOWN", ignoreCooldown),
   ("IGNORE_CAP", ignoreCap), ("LEVEL_RESTRICTED", levelRestricted),
   ("RARE_ITEM_FIND", rareFind), ("DROPPER_RESTRICTED", dropperRestricted),
   ("INCLUDE_CURRENCY_BONUS", currencyBonus), ("MISSION_RESTRICTED", missionRestricted),
   ("EVAL_RESTRICTED", evalRestricted), ("RESTRICTIONS", restrictions), ("COOLDOWNS", cooldowns)]

end DropFlags

inductive Weekday where
  | sunday | monday | tuesday | wednesday | thursday | friday | saturday | all
deriving DecidableEq, Repr, Inhabited

inductive CooldownKind where
  | hours | rollover | channel
deriving DecidableEq, Repr

def CooldownKind.flag : CooldownKind → DropFlags
  | .hours => .cooldownHours
  | .rollover => .cooldownRollover
  | .channel => .cooldownChannel

/-- A cooldown that a branch waits for; the caller keeps its state. -/
structure CooldownGate where
  kind : CooldownKind
  channel : PrototypeId
  perAccount : Bool
deriving DecidableEq, Repr

/-- The checks a draft has to pass, or those that were adjusted. -/
structure Checks where
  level : Bool := false
  rarity : Bool := false
  rank : Bool := false
  slot : Bool := false
  itemType : Bool := false
  usableBy : Bool := false
  visualAffix : Bool := false
  itemParent : Bool := false
  cooldown : Bool := false
  output : Bool := false
  outputLevel : Bool := false
  outputRarity : Bool := false
  outputRank : Bool := false
deriving DecidableEq, Repr

namespace Checks

def none : Checks := {}

/-- Every check, without the marks of forced outputs. -/
def all : Checks :=
  { level := true, rarity := true, rank := true, slot := true, itemType := true
    usableBy := true, visualAffix := true, itemParent := true, cooldown := true }

def toNat (c : Checks) : Nat :=
  bitsToNat [c.level, c.rarity, c.rank, c.slot, c.itemType, c.usableBy, c.visualAffix,
    c.itemParent, c.cooldown, c.output, c.outputLevel, c.outputRarity, c.outputRank]

def ofNat (n : Nat) : Checks :=
  { level := n.testBit 0, rarity := n.testBit 1, rank := n.testBit 2, slot := n.testBit 3
    itemType := n.testBit 4, usableBy := n.testBit 5, visualAffix := n.testBit 6
    itemParent := n.testBit 7, cooldown := n.testBit 8, output := n.testBit 9
    outputLevel := n.testBit 10, outputRarity := n.testBit 11, outputRank := n.testBit 12 }

end Checks

def defaultLevel : Int := 1

structure BranchSettings where
  /-- How many tables enclose the branch. -/
  depth : Nat := 0
  flags : DropFlags := 0#32
  /-- Factor on the chance to drop that the difficulty tier asks for. -/
  dropFactor : Single := 1
  avatar : PrototypeId := .none
  teamUp : PrototypeId := .none
  forceUsable : Bool := false
  usableChance : Single := 0
  level : Int := defaultLevel
  levelVerbatim : Bool := false
  levelForRequirements : Int := defaultLevel
  difficultyTier : PrototypeId := .none
  regionRarity : PrototypeId := .none
  regionAffixTable : PrototypeId := .none
  kills : Int := 0
  weekday : Weekday := .all
  rarities : SortedSet PrototypeId := .empty
  dropperKeywords : SortedSet PrototypeId := .empty
  conditionKeywords : SortedSet PrototypeId := .empty
  regionKeywords : SortedSet PrototypeId := .empty
  minDeltas : SortedMap AffixPosition Int := .empty
  maxDeltas : SortedMap AffixPosition Int := .empty
  categoryDeltas : SortedMap PrototypeId Int := .empty
  cooldown : Option CooldownGate := none
deriving DecidableEq

namespace BranchSettings

/-- Moves the branch to a level, also for requirements. -/
def atLevel (s : BranchSettings) (level : Int) : BranchSettings :=
  { s with level := level, levelForRequirements := level }

def forLevel (level : Int) : BranchSettings := atLevel {} level

def isRestricted (s : BranchSettings) : Bool :=
  s.flags.intersects DropFlags.restrictions

def hasCooldown (s : BranchSettings) : Bool :=
  s.flags.intersects DropFlags.cooldowns

def isPreview (s : BranchSettings) : Bool :=
  s.flags.contains DropFlags.previewOnly

/-- Whether the gate has to be asked and used up. -/
def enforcesCooldown (s : BranchSettings) : Bool :=
  s.cooldown.isSome &&
    !s.flags.intersects (Flags.union DropFlags.ignoreCooldown DropFlags.previewOnly)

/-- The gate that has to be asked and used up, if there is one. -/
def enforcedGate? (s : BranchSettings) : Option CooldownGate :=
  if s.enforcesCooldown then s.cooldown else none

def checks (s : BranchSettings) : Checks :=
  { Checks.all with cooldown := s.hasCooldown }

def addFlags (s : BranchSettings) (f : DropFlags) : BranchSettings :=
  { s with flags := Flags.union s.flags f }

def removeFlags (s : BranchSettings) (f : DropFlags) : BranchSettings :=
  { s with flags := Flags.minus s.flags f }

/-- Restricts the branch unless a requirement is met. -/
def require (s : BranchSettings) (met : Bool) (f : DropFlags) : BranchSettings :=
  if met then s else s.addFlags f

end BranchSettings

end Spoils
