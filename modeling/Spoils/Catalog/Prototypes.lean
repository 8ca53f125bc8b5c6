import Spoils.Table.Node
import Spoils.Property.Info

/-! The kinds of prototypes that content declares. -/
namespace Spoils

inductive PrototypeKind where
  | rarity | affix | item | affixTable | lootTable | difficultyTier | keyword | avatar | agent
  | affixCategory | mission | power | other
deriving DecidableEq, Repr

namespace PrototypeKind

def label : PrototypeKind → String
  | .rarity => "rarity"
  | .affix => "affix"
  | .item => "item"
  | .affixTable => "affix table"
  | .lootTable => "loot table"
  | .difficultyTier => "difficulty tier"
  | .keyword => "keyword"
  | .avatar => "avatar"
  | .agent => "agent"
  | .affixCategory => "affix category"
  | .mission => "mission"
  | .power => "power"
  | .other => "other"

/-- Kinds whose prototypes have data of their own and not only a name. -/
def isDetailed : PrototypeKind → Bool
  | .rarity | .affix | .item | .affixTable | .lootTable | .difficultyTier => true
  | _ => false

end PrototypeKind

/-- Values at the positions from `min` to `max`. -/
structure Curve where
  id : CurveId
  name : String := ""
  min : Int
  max : Int
  values : List Single
deriving DecidableEq

namespace Curve

/-- The curve with one value per position from `min` on. -/
def ofValues (id : CurveId) (min : Int) (values : List Single) : Curve :=
  { id := id, min := min, max := min + (values.length - 1 : Nat), values := values }

def covers (c : Curve) (position : Int) : Bool := c.min ≤ position && position ≤ c.max

/-- The value at the nearest position of the range; past the values the last one, and zero
when there is none. -/
def valueAt (c : Curve) (position : Int) : Single :=
  let nearest := Max.max c.min (Min.min position (Max.max c.max c.min))
  match c.values[(nearest - c.min).toNat]? with
  | some v => v
  | none => c.values.getLast?.getD 0

def intAt (c : Curve) (position : Int) : Int := (c.valueAt position).toInt32

end Curve

structure Rarity where
  id : PrototypeId
  name : String := ""
  downgradeTo : PrototypeId := .none
  weightCurve : CurveId := .none
deriving DecidableEq

/-- A list of affixes that rank slots draw from. -/
structure AffixTable where
  id : PrototypeId
  name : String := ""
  affixes : List PrototypeId
deriving DecidableEq

structure DifficultyTier where
  id : PrototypeId
  name : String := ""
  /-- Higher is harder. -/
  tier : Int
deriving DecidableEq

/-- A prototype that is only referred to, such as a keyword or an avatar. -/
structure NamedPrototype where
  id : PrototypeId
  kind : PrototypeKind
  name : String := ""
  parent : PrototypeId := .none
deriving DecidableEq

/-- Ranks of enemies from the weakest to the strongest. -/
inductive Rank where
  | popcorn | champion | elite | miniBoss | boss | player | groupBoss | teamUp
deriving DecidableEq, Repr

namespace Rank

def all : List Rank :=
  [.popcorn, .champion, .elite, .miniBoss, .boss, .player, .groupBoss, .teamUp]

def label : Rank → String
  | .popcorn => "popcorn"
  | .champion => "champion"
  | .elite => "elite"
  | .miniBoss => "mini_boss"
  | .boss => "boss"
  | .player => "player"
  | .groupBoss => "group_boss"
  | .teamUp => "team_up"

/-- The higher of two ranks; a missing one gives way. -/
def higher : Option Rank → Option Rank → Option Rank
  | none, b => b
  | some a, none => some a
  | some a, some b => some (if b.ctorIdx ≤ a.ctorIdx then a else b)

end Rank

/-- One affix slot of a rank: the table it draws from and its chance in a hundred. -/
structure RankSlot where
  table : PrototypeId
  chance : Int := 100
deriving DecidableEq

structure RankEntry where
  rank : Rank
  weight : Int := 0
  slots : List RankSlot := []
deriving DecidableEq

/-- The ranks of one difficulty tier; no tier makes it the table for all others. -/
structure RankTable where
  difficultyTier : PrototypeId := .none
  entries : List RankEntry := []
deriving DecidableEq

end Spoils
