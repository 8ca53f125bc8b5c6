import Spoils.Formula.Basic
import Spoils.Single.Decimal

/-! Formulas as readable text. -/
namespace Spoils

namespace ArithOp

def opName : ArithOp → String
  | .add => "Add"
  | .sub => "Sub"
  | .mult => "Mult"
  | .exponent => "Exponent"
  | .modulus => "Modulus"
  | .max => "Max"
  | .min => "Min"

def all : List ArithOp := [.add, .sub, .mult, .exponent, .modulus, .max, .min]

def apply (op : ArithOp) (a b : String) : String :=
  match op with
  | .add => s!"({a} + {b})"
  | .sub => s!"({a} - {b})"
  | .mult => s!"({a} * {b})"
  | .exponent => s!"({a} ^ {b})"
  | .modulus => s!"({a} % {b})"
  | .max => s!"max({a}, {b})"
  | .min => s!"min({a}, {b})"

end ArithOp

def EntityQuery.opName : EntityQuery → String
  | .hasKeyword _ => "EntityHasKeyword"
  | .hasTalent _ => "EntityHasTalent"
  | .combatLevel => "GetCombatLevel"
  | .powerRank _ => "GetPowerRank"
  | .freshPowerRank _ => "CalcPowerRank"
  | .inParty => "IsInParty"

namespace Formula

/-- The name of the outermost operator. -/
def opName : Formula → String
  | .bool _ => "LoadBool"
  | .int _ => "LoadInt"
  | .single _ => "LoadFloat"
  | .asset _ => "LoadAssetRef"
  | .proto _ => "LoadProtoRef"
  | .curve .. => "LoadCurve"
  | .contextInt _ => "LoadContextInt"
  | .contextProto _ => "LoadContextProtoRef"
  | .load .. => "LoadProp"
  | .loadBound .. => "LoadPropContextParams"
  | .loadWith .. => "LoadPropEvalParams"
  | .assign .. => "AssignProp"
  | .assignWith .. => "AssignPropEvalParams"
  | .has .. => "HasProp"
  | .swap .. => "SwapProp"
  | .bindEntity .. => "LoadEntityToContextVar"
  | .bindConditions .. => "LoadConditionCollectionToContext"
  | .isNull _ => "IsContextDataNull"
  | .arith op .. => op.opName
  | .div .. => "Div"
  | .compare .greater .. => "GreaterThan"
  | .compare .less .. => "LessThan"
  | .equals .. => "Equals"
  | .both .. => "And"
  | .either .. => "Or"
  | .negate _ => "Not"
  | .ifElse .. => "IfElse"
  | .scope _ => "Scope"
  | .loop .. => "For"
  | .forConditions .. => "ForEachConditionInContext"
  | .forPrototypes .. => "ForEachProtoRefInContextRefList"
  | .randomSingle .. => "RandomFloat"
  | .randomInt .. => "RandomInt"
  | .query _ question => question.opName
  | .damageReduction .. => "GetDamageReductionPct"
  | .distance .. => "GetDistanceToEntity"
  | .inInventory .. => "HasEntityInInventory"
  | .tierInRange .. => "DifficultyTierRange"
  | .missionActive .. => "MissionIsActive"
  | .missionComplete .. => "MissionIsComplete"
  | .dynamicLevel => "IsDynamicCombatLevelEnabled"
  | .failure => "ExportError"

def block (statements : List String) : String :=
  "\x7b " ++ "; ".intercalate statements ++ " \x7d"

mutual

/-- The formula as an expression; operators without an infix form show their name only. -/
def text : Formula → String
  | .bool v => if v then "true" else "false"
  | .int v => toString v
  | .single v => v.plain
  | .asset id => s!"asset:{id.val}"
  | .proto id => s!"proto:{id.val}"
  | .curve id index => s!"curve{id.val}[" ++ text index ++ "]"
  | .contextInt slot | .contextProto slot => slot.name
  | .load slot key | .has slot key => s!"{slot.name}.prop{key.prop.val}"
  | .loadBound slot prop param => s!"{slot.name}.prop{prop.val}[{param.name}]"
  | .loadWith slot prop _ => s!"{slot.name}.prop{prop.val}[..]"
  | .assign slot key value => s!"{slot.name}.prop{key.prop.val} = " ++ text value
  | .assignWith slot prop _ value => s!"{slot.name}.prop{prop.val}[..] = " ++ text value
  | .swap left right key => s!"swap({left.name}, {right.name}, prop{key.prop.val})"
  | .arith op a b => op.apply (text a) (text b)
  | .div a b => "(" ++ text a ++ " / " ++ text b ++ ")"
  | .compare .greater a b => "(" ++ text a ++ " > " ++ text b ++ ")"
  | .compare .less a b => "(" ++ text a ++ " < " ++ text b ++ ")"
  | .equals a b _ => "(" ++ text a ++ " == " ++ text b ++ ")"
  | .both a b => "(" ++ text a ++ " && " ++ text b ++ ")"
  | .either a b => "(" ++ text a ++ " || " ++ text b ++ ")"
  | .negate a => "!" ++ text a
  | .ifElse condition yes no => "if " ++ text condition ++ " then " ++ text yes ++ textElse no
  | .scope body => block (texts body)
  | .loop _ condition _ body => "for (" ++ text condition ++ ") " ++ block (texts body)
  | .forConditions source _ _ body | .forPrototypes source _ _ body =>
    s!"foreach {source.name} " ++ block (texts body)
  | .randomSingle min max => s!"randf({min.plain}, {max.plain})"
  | .randomInt min max => s!"randi({min}, {max})"
  | .bindEntity entity slot => opName (.bindEntity entity slot)
  | .bindConditions source slot => opName (.bindConditions source slot)
  | .isNull slot => opName (.isNull slot)
  | .query slot question => opName (.query slot question)
  | .damageReduction slot kind level => opName (.damageReduction slot kind level)
  | .distance source target edge => opName (.distance source target edge)
  | .inInventory slot entity inventory => opName (.inInventory slot entity inventory)
  | .tierInRange slot min max => opName (.tierInRange slot min max)
  | .missionActive slot mission => opName (.missionActive slot mission)
  | .missionComplete slot mission => opName (.missionComplete slot mission)
  | .dynamicLevel => opName .dynamicLevel
  | .failure => opName .failure

def textElse : Option Formula → String
  | none => ""
  | some no => " else " ++ text no

def texts : List Formula → List String
  | [] => []
  | f :: fs => text f :: texts fs

end

end Formula

end Spoils
