import Spoils.Codec.Property
import Spoils.Formula.Text

/-! Documents of formulas. -/
namespace Spoils

def Slot.ofDoc? (d : Doc) : Option Slot := d.choice? Names.slots

def Slot.toJson (s : Slot) : Json := .text s.name

namespace Formula

/-- Reads a formula whose parts are nested at most as deep as the fuel. -/
def ofDocWith? : Nat → Doc → Option Formula
  | 0, _ => none
  | fuel + 1, d => do
    let part := ofDocWith? fuel
    let slot := Slot.ofDoc?
    let parts := Doc.listOf? part
    let (label, payload) ← d.variant?
    let binary (make : Formula → Formula → Formula) : Option Formula := do
      let (a, b) ← payload.two?
      return make (← part a) (← part b)
    match ArithOp.all.find? fun op => op.opName == label with
    | some op => binary (.arith op)
    | none =>
      match label with
      | "LoadBool" => (← payload.one?).bool?.map .bool
      | "LoadInt" => (← payload.one?).int64?.map .int
      | "LoadFloat" => (← payload.one?).single?.map .single
      | "LoadAssetRef" => (AssetId.ofDoc? (← payload.one?)).map .asset
      | "LoadProtoRef" => (PrototypeId.ofDoc? (← payload.one?)).map .proto
      | "LoadCurve" =>
        let fs ← payload.fields? ["curve", "index"]
        return .curve (← fs.need "curve" CurveId.ofDoc?) (← fs.need "index" part)
      | "LoadContextInt" => (slot (← payload.one?)).map .contextInt
      | "LoadContextProtoRef" => (slot (← payload.one?)).map .contextProto
      | "LoadProp" =>
        let fs ← payload.fields? ["slot", "prop"]
        return .load (← fs.need "slot" slot) (← fs.need "prop" PropertyKey.ofDoc?)
      | "LoadPropContextParams" =>
        let fs ← payload.fields? ["slot", "prop", "param_slot"]
        return .loadBound (← fs.need "slot" slot) (← fs.need "prop" PropertyId.ofDoc?)
          (← fs.need "param_slot" slot)
      | "LoadPropEvalParams" =>
        let fs ← payload.fields? ["slot", "prop", "params"]
        return .loadWith (← fs.need "slot" slot) (← fs.need "prop" PropertyId.ofDoc?)
          (← fs.need "params" parts)
      | "AssignProp" =>
        let fs ← payload.fields? ["slot", "prop", "value"]
        return .assign (← fs.need "slot" slot) (← fs.need "prop" PropertyKey.ofDoc?)
          (← fs.need "value" part)
      | "AssignPropEvalParams" =>
        let fs ← payload.fields? ["slot", "prop", "params", "value"]
        return .assignWith (← fs.need "slot" slot) (← fs.need "prop" PropertyId.ofDoc?)
          (← fs.need "params" parts) (← fs.need "value" part)
      | "HasProp" =>
        let fs ← payload.fields? ["slot", "prop"]
        return .has (← fs.need "slot" slot) (← fs.need "prop" PropertyKey.ofDoc?)
      | "SwapProp" =>
        let fs ← payload.fields? ["left", "right", "prop"]
        return .swap (← fs.need "left" slot) (← fs.need "right" slot)
          (← fs.need "prop" PropertyKey.ofDoc?)
      | "LoadEntityToContextVar" =>
        let fs ← payload.fields? ["entity", "slot"]
        return .bindEntity (← fs.need "entity" part) (← fs.need "slot" slot)
      | "LoadConditionCollectionToContext" =>
        let fs ← payload.fields? ["entity_slot", "slot"]
        return .bindConditions (← fs.need "entity_slot" slot) (← fs.need "slot" slot)
      | "IsContextDataNull" => (slot (← payload.one?)).map .isNull
      | "Div" => binary .div
      | "GreaterThan" => binary (.compare .greater)
      | "LessThan" => binary (.compare .less)
      | "Equals" =>
        let fs ← payload.fields? ["lhs", "rhs", "epsilon"]
        return .equals (← fs.need "lhs" part) (← fs.need "rhs" part)
          (← fs.get "epsilon" defaultEpsilon Doc.single?)
      | "And" => binary .both
      | "Or" => binary .either
      | "Not" => (part (← payload.one?)).map .negate
      | "IfElse" =>
        let fs ← payload.fields? ["condition", "then", "otherwise"]
        return .ifElse (← fs.need "condition" part) (← fs.need "then" part)
          (← fs.maybe "otherwise" part)
      | "Scope" => (parts (← payload.one?)).map .scope
      | "For" =>
        let fs ← payload.fields? ["pre", "condition", "post", "body"]
        return .loop (← fs.maybe "pre" part) (← fs.need "condition" part) (← fs.maybe "post" part)
          (← fs.need "body" parts)
      | "ForEachConditionInContext" =>
        let fs ← payload.fields? ["source", "pre", "post", "body"]
        return .forConditions (← fs.need "source" slot) (← fs.maybe "pre" part)
          (← fs.maybe "post" part) (← fs.need "body" parts)
      | "ForEachProtoRefInContextRefList" =>
        let fs ← payload.fields? ["source", "pre", "post", "body"]
        return .forPrototypes (← fs.need "source" slot) (← fs.maybe "pre" part)
          (← fs.maybe "post" part) (← fs.need "body" parts)
      | "RandomFloat" =>
        let fs ← payload.fields? ["min", "max"]
        return .randomSingle (← fs.need "min" Doc.single?) (← fs.need "max" Doc.single?)
      | "RandomInt" =>
        let fs ← payload.fields? ["min", "max"]
        return .randomInt (← fs.need "min" Doc.int32?) (← fs.need "max" Doc.int32?)
      | "EntityHasKeyword" =>
        let fs ← payload.fields? ["slot", "keyword"]
        return .query (← fs.need "slot" slot) (.hasKeyword (← fs.need "keyword" PrototypeId.ofDoc?))
      | "EntityHasTalent" =>
        let fs ← payload.fields? ["slot", "talent"]
        return .query (← fs.need "slot" slot) (.hasTalent (← fs.need "talent" PrototypeId.ofDoc?))
      | "GetCombatLevel" => (slot (← payload.one?)).map fun s => .query s .combatLevel
      | "GetPowerRank" =>
        let fs ← payload.fields? ["slot", "power"]
        return .query (← fs.need "slot" slot) (.powerRank (← fs.need "power" PrototypeId.ofDoc?))
      | "CalcPowerRank" =>
        let fs ← payload.fields? ["slot", "power"]
        return .query (← fs.need "slot" slot)
          (.freshPowerRank (← fs.need "power" PrototypeId.ofDoc?))
      | "IsInParty" => (slot (← payload.one?)).map fun s => .query s .inParty
      | "GetDamageReductionPct" =>
        let fs ← payload.fields? ["slot", "damage_type", "vs_level"]
        return .damageReduction (← fs.need "slot" slot) (← fs.need "damage_type" Doc.int32?)
          (← fs.maybe "vs_level" part)
      | "GetDistanceToEntity" =>
        let fs ← payload.fields? ["source", "target", "edge_to_edge"]
        return .distance (← fs.need "source" slot) (← fs.need "target" slot)
          (← fs.get "edge_to_edge" false Doc.bool?)
      | "HasEntityInInventory" =>
        let fs ← payload.fields? ["slot", "entity", "inventory"]
        return .inInventory (← fs.need "slot" slot) (← fs.get "entity" .none PrototypeId.ofDoc?)
          (← fs.need "inventory" PrototypeId.ofDoc?)
      | "DifficultyTierRange" =>
        let fs ← payload.fields? ["slot", "min", "max"]
        return .tierInRange (← fs.need "slot" slot) (← fs.get "min" .none PrototypeId.ofDoc?)
          (← fs.get "max" .none PrototypeId.ofDoc?)
      | "MissionIsActive" =>
        let fs ← payload.fields? ["slot", "mission"]
        return .missionActive (← fs.need "slot" slot) (← fs.need "mission" PrototypeId.ofDoc?)
      | "MissionIsComplete" =>
        let fs ← payload.fields? ["slot", "mission"]
        return .missionComplete (← fs.need "slot" slot) (← fs.need "mission" PrototypeId.ofDoc?)
      | "IsDynamicCombatLevelEnabled" => payload.unit?.map fun _ => .dynamicLevel
      | "ExportError" => payload.unit?.map fun _ => .failure
      | _ => none

def ofDoc? (d : Doc) : Option Formula := ofDocWith? Doc.maxDepth d

/-- What an entity is asked, besides the slot it is in. -/
def questionFields : EntityQuery → List (String × Json)
  | .hasKeyword id => [("keyword", id.toJson)]
  | .hasTalent id => [("talent", id.toJson)]
  | .powerRank id | .freshPowerRank id => [("power", id.toJson)]
  | .combatLevel | .inParty => []

/-- A formula under the name of its outermost operator. -/
def named (f : Formula) : Option Json → Json
  | some j => .tagged (opName f) j
  | none => .text (opName f)

mutual

/-- The data of the outermost operator, if it has any. -/
def payload : Formula → Option Json
  | .bool v => some (.bool v)
  | .int v => some (.int v)
  | .single v => some (.single v)
  | .asset id => some id.toJson
  | .proto id => some id.toJson
  | .curve id index => some (.object [("curve", id.toJson), ("index", named index (payload index))])
  | .contextInt slot => some slot.toJson
  | .contextProto slot => some slot.toJson
  | .load slot key => some (.object [("slot", slot.toJson), ("prop", key.toJson)])
  | .loadBound slot prop param =>
    some (.object [("slot", slot.toJson), ("prop", prop.toJson), ("param_slot", param.toJson)])
  | .loadWith slot prop params =>
    some (.object [("slot", slot.toJson), ("prop", prop.toJson),
      ("params", .array (payloads params))])
  | .assign slot key value =>
    some (.object [("slot", slot.toJson), ("prop", key.toJson),
      ("value", named value (payload value))])
  | .assignWith slot prop params value =>
    some (.object [("slot", slot.toJson), ("prop", prop.toJson),
      ("params", .array (payloads params)), ("value", named value (payload value))])
  | .has slot key => some (.object [("slot", slot.toJson), ("prop", key.toJson)])
  | .swap left right key =>
    some (.object [("left", left.toJson), ("right", right.toJson), ("prop", key.toJson)])
  | .bindEntity entity slot =>
    some (.object [("entity", named entity (payload entity)), ("slot", slot.toJson)])
  | .bindConditions source slot =>
    some (.object [("entity_slot", source.toJson), ("slot", slot.toJson)])
  | .isNull slot => some slot.toJson
  | .arith _ a b => some (.array [named a (payload a), named b (payload b)])
  | .div a b => some (.array [named a (payload a), named b (payload b)])
  | .compare _ a b => some (.array [named a (payload a), named b (payload b)])
  | .equals a b epsilon =>
    some (.object [("lhs", named a (payload a)), ("rhs", named b (payload b)),
      ("epsilon", .single epsilon)])
  | .both a b => some (.array [named a (payload a), named b (payload b)])
  | .either a b => some (.array [named a (payload a), named b (payload b)])
  | .negate a => some (named a (payload a))
  | .ifElse condition yes no =>
    some (.object [("condition", named condition (payload condition)),
      ("then", named yes (payload yes)), ("otherwise", payloadOption no)])
  | .scope body => some (.array (payloads body))
  | .loop pre condition post body =>
    some (.object [("pre", payloadOption pre), ("condition", named condition (payload condition)),
      ("post", payloadOption post), ("body", .array (payloads body))])
  | .forConditions source pre post body =>
    some (.object [("source", source.toJson), ("pre", payloadOption pre),
      ("post", payloadOption post), ("body", .array (payloads body))])
  | .forPrototypes source pre post body =>
    some (.object [("source", source.toJson), ("pre", payloadOption pre),
      ("post", payloadOption post), ("body", .array (payloads body))])
  | .randomSingle min max => some (.object [("min", .single min), ("max", .single max)])
  | .randomInt min max => some (.object [("min", .int min), ("max", .int max)])
  | .query slot .combatLevel => some slot.toJson
  | .query slot .inParty => some slot.toJson
  | .query slot question => some (.object (("slot", slot.toJson) :: questionFields question))
  | .damageReduction slot kind level =>
    some (.object [("slot", slot.toJson), ("damage_type", .int kind),
      ("vs_level", payloadOption level)])
  | .distance source target edge =>
    some (.object [("source", source.toJson), ("target", target.toJson),
      ("edge_to_edge", .bool edge)])
  | .inInventory slot entity inventory =>
    some (.object [("slot", slot.toJson), ("entity", entity.toJson),
      ("inventory", inventory.toJson)])
  | .tierInRange slot min max =>
    some (.object [("slot", slot.toJson), ("min", min.toJson), ("max", max.toJson)])
  | .missionActive slot mission =>
    some (.object [("slot", slot.toJson), ("mission", mission.toJson)])
  | .missionComplete slot mission =>
    some (.object [("slot", slot.toJson), ("mission", mission.toJson)])
  | .dynamicLevel => none
  | .failure => none

def payloads : List Formula → List Json
  | [] => []
  | f :: fs => named f (payload f) :: payloads fs

def payloadOption : Option Formula → Json
  | none => .null
  | some f => named f (payload f)

end

def toJson (f : Formula) : Json := named f (payload f)

end Formula

end Spoils
