import Spoils.Property.Store

/-! Formulas: the expression trees that content uses for chances, levels and stored values. -/
namespace Spoils

/-- Where a formula finds its data. The first twelve slots can be bound. -/
inductive Slot where
  | default | entity | blackboard | other | condition | conditionKeywords | teamUp
  | var1 | var2 | var3 | var4 | var5
  /-- The innermost frame. -/
  | localStack
  /-- The frame around the innermost one. -/
  | callerStack
  /-- The properties of the catalog, which formulas cannot write. -/
  | globals
deriving DecidableEq, Repr

namespace Slot

def all : List Slot :=
  [.default, .entity, .blackboard, .other, .condition, .conditionKeywords, .teamUp,
   .var1, .var2, .var3, .var4, .var5, .localStack, .callerStack, .globals]

/-- The place of a slot among the twelve that can be bound. -/
def index? : Slot → Option (Fin 12)
  | .default => some 0
  | .entity => some 1
  | .blackboard => some 2
  | .other => some 3
  | .condition => some 4
  | .conditionKeywords => some 5
  | .teamUp => some 6
  | .var1 => some 7
  | .var2 => some 8
  | .var3 => some 9
  | .var4 => some 10
  | .var5 => some 11
  | .localStack | .callerStack | .globals => none

/-- Slots that may be read while unbound. -/
def isVariable : Slot → Bool
  | .var1 | .var2 | .var3 | .var4 | .var5 => true
  | _ => false

def name : Slot → String
  | .default => "Default"
  | .entity => "Entity"
  | .blackboard => "EntityBehaviorBlackboard"
  | .other => "Other"
  | .condition => "Condition"
  | .conditionKeywords => "ConditionKeywords"
  | .teamUp => "TeamUp"
  | .var1 => "Var1"
  | .var2 => "Var2"
  | .var3 => "Var3"
  | .var4 => "Var4"
  | .var5 => "Var5"
  | .localStack => "LocalStack"
  | .callerStack => "CallerStack"
  | .globals => "Globals"

end Slot

/-- Operators on two numbers that keep integers exact. -/
inductive ArithOp where
  | add | sub | mult | exponent | modulus | max | min
deriving DecidableEq, Repr

inductive Comparison where
  | greater | less
deriving DecidableEq, Repr

inductive EntityQuery where
  | hasKeyword (keyword : PrototypeId)
  | hasTalent (talent : PrototypeId)
  | combatLevel
  | powerRank (power : PrototypeId)
  /-- The rank the power would have if it were computed anew. -/
  | freshPowerRank (power : PrototypeId)
  | inParty
deriving DecidableEq, Repr

inductive Formula where
  | bool (v : Bool)
  | int (v : Int)
  | single (v : Single)
  | asset (id : AssetId)
  | proto (id : PrototypeId)
  | curve (curve : CurveId) (index : Formula)
  | contextInt (slot : Slot)
  | contextProto (slot : Slot)
  | load (slot : Slot) (key : PropertyKey)
  /-- The first parameter is the value bound in `param`. -/
  | loadBound (slot : Slot) (prop : PropertyId) (param : Slot)
  | loadWith (slot : Slot) (prop : PropertyId) (params : List Formula)
  | assign (slot : Slot) (key : PropertyKey) (value : Formula)
  | assignWith (slot : Slot) (prop : PropertyId) (params : List Formula) (value : Formula)
  | has (slot : Slot) (key : PropertyKey)
  | swap (left right : Slot) (key : PropertyKey)
  /-- Binds the entity that `entity` evaluates to. -/
  | bindEntity (entity : Formula) (slot : Slot)
  /-- Binds the conditions of the entity bound in `source`. -/
  | bindConditions (source slot : Slot)
  | isNull (slot : Slot)
  | arith (op : ArithOp) (a b : Formula)
  | div (a b : Formula)
  | compare (op : Comparison) (a b : Formula)
  | equals (a b : Formula) (epsilon : Single)
  | both (a b : Formula)
  | either (a b : Formula)
  | negate (a : Formula)
  | ifElse (condition yes : Formula) (no : Option Formula)
  | scope (body : List Formula)
  | loop (pre : Option Formula) (condition : Formula) (post : Option Formula)
      (body : List Formula)
  /-- Runs the body with each condition of the list in `source` bound in turn. -/
  | forConditions (source : Slot) (pre post : Option Formula) (body : List Formula)
  /-- Runs the body with each prototype of the list in `source` in the local frame. -/
  | forPrototypes (source : Slot) (pre post : Option Formula) (body : List Formula)
  | randomSingle (min max : Single)
  | randomInt (min max : Int)
  | query (slot : Slot) (question : EntityQuery)
  | damageReduction (slot : Slot) (damageType : Int) (level : Option Formula)
  | distance (source target : Slot) (edgeToEdge : Bool)
  | inInventory (slot : Slot) (entity inventory : PrototypeId)
  | tierInRange (slot : Slot) (min max : PrototypeId)
  | missionActive (slot : Slot) (mission : PrototypeId)
  | missionComplete (slot : Slot) (mission : PrototypeId)
  | dynamicLevel
  | failure
deriving Inhabited

namespace Formula

/-- The tolerance of equality between numbers unless a formula brings its own. -/
def defaultEpsilon : Single := 0.00001

def equal (a b : Formula) : Formula := .equals a b defaultEpsilon

def choose (condition yes no : Formula) : Formula := .ifElse condition yes (some no)

end Formula

end Spoils
