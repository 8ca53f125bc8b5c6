import Spoils.Codec.Names
import Spoils.Document.Doc
import Spoils.Formula.Value

/-! Documents of identifiers, properties and values. -/
namespace Spoils

def PrototypeId.ofDoc? (d : Doc) : Option PrototypeId := d.nat64?.map .mk
def AssetId.ofDoc? (d : Doc) : Option AssetId := d.nat64?.map .mk
def CurveId.ofDoc? (d : Doc) : Option CurveId := d.nat64?.map .mk
def PropertyId.ofDoc? (d : Doc) : Option PropertyId := d.nat32?.map .mk

def PrototypeId.toJson (id : PrototypeId) : Json := .ofNat id.val
def AssetId.toJson (id : AssetId) : Json := .ofNat id.val
def CurveId.toJson (id : CurveId) : Json := .ofNat id.val
def PropertyId.toJson (id : PropertyId) : Json := .ofNat id.val

def Params.ofDoc? (d : Doc) : Option Params := do
  let items ← d.tuple?
  if items.length = 4 then (items.mapM Doc.nat64?).map .ofList else none

def Params.toJson (p : Params) : Json := .ofList .ofNat p.toList

namespace PropertyKey

def ofDoc? (d : Doc) : Option PropertyKey := do
  let fs ← d.fields? "PropertyId" ["prop", "params"]
  return { prop := ← fs.need "prop" PropertyId.ofDoc?
           params := ← fs.get "params" .zero Params.ofDoc? }

def toJson (k : PropertyKey) : Json :=
  .object [("prop", k.prop.toJson), ("params", k.params.toJson)]

end PropertyKey

namespace PropertyValue

/-- Reads a value whose reals are read by `real`. -/
def ofDocWith? (real : Doc → Option Single) (d : Doc) : Option PropertyValue := do
  let (name, payload) ← d.variant?
  match name with
  | "Integer" => (← payload.one?).int64?.map .integer
  | "Real" => (real (← payload.one?)).map .real
  | "Boolean" => (← payload.one?).bool?.map .boolean
  | "EntityId" => (← payload.one?).nat64?.map .entity
  | "Prototype" => (PrototypeId.ofDoc? (← payload.one?)).map .prototype
  | "Asset" => (AssetId.ofDoc? (← payload.one?)).map .asset
  | "Curve" => (CurveId.ofDoc? (← payload.one?)).map .curve
  | "Time" => (← payload.one?).int64?.map .time
  | _ => none

def ofDoc? : Doc → Option PropertyValue := ofDocWith? Doc.single?

def toJson (v : PropertyValue) : Json :=
  .tagged (nameIn Names.dataTypes v.dataType) <|
    match v with
    | .integer v => .int v
    | .real v => .single v
    | .boolean v => .bool v
    | .entity id => .ofNat id
    | .prototype id => id.toJson
    | .asset id => id.toJson
    | .curve id => id.toJson
    | .time v => .int v

end PropertyValue

namespace PropertyStore

def ofDocWith? (real : Doc → Option Single) (d : Doc) : Option PropertyStore :=
  (d.listOf? fun e => do
    match ← e.tuple? with
    | [k, v] => return (← PropertyKey.ofDoc? k, ← PropertyValue.ofDocWith? real v)
    | _ => none).map .ofList

def ofDoc? : Doc → Option PropertyStore := ofDocWith? Doc.single?

def toJson (s : PropertyStore) : Json :=
  .ofList (fun e => .array [PropertyKey.toJson e.1, PropertyValue.toJson e.2]) s.entries

end PropertyStore

namespace Value

/-- Reads a value; numbers that JSON cannot write are read by their names. -/
def ofDoc? (d : Doc) : Option Value := do
  let (name, payload) ← d.variant?
  match name with
  | "Undefined" => payload.unit?.map fun _ => .undefined
  | "Error" => payload.unit?.map fun _ => .error
  | "Bool" => (← payload.one?).bool?.map .bool
  | "Int" => (← payload.one?).int64?.map .int
  | "Float" => (← payload.one?).extendedSingle?.map .single
  | "ProtoRef" => (PrototypeId.ofDoc? (← payload.one?)).map .proto
  | "AssetRef" => (AssetId.ofDoc? (← payload.one?)).map .asset
  | "EntityId" => (← payload.one?).nat64?.map .entity
  | "PropertyId" => (PropertyKey.ofDoc? (← payload.one?)).map .key
  | _ => none

def toJson : Value → Json
  | .undefined => .text "Undefined"
  | .error => .text "Error"
  | .bool v => .tagged "Bool" (.bool v)
  | .int v => .tagged "Int" (.int v)
  | .single v => .tagged "Float" (.single v)
  | .proto id => .tagged "ProtoRef" id.toJson
  | .asset id => .tagged "AssetRef" id.toJson
  | .entity id => .tagged "EntityId" (.ofNat id)
  | .key k => .tagged "PropertyId" k.toJson

end Value

namespace PropertyInfo

def ofDoc? (d : Doc) : Option PropertyInfo := do
  let fs ← d.fields? "PropertyInfo" ["prop", "name", "data_type", "param_count", "param_types",
    "default_params", "agg_method"]
  return {
    prop := ← fs.need "prop" PropertyId.ofDoc?
    name := ← fs.need "name" Doc.text?
    dataType := ← fs.need "data_type" (Doc.choice? Names.dataTypes)
    paramCount := ← fs.get "param_count" 0 Doc.nat64?
    paramTypes := ← fs.get "param_types" (List.replicate 4 .invalid) fun d => do
      let items ← d.tuple?
      if items.length = 4 then items.mapM (Doc.choice? Names.paramTypes) else none
    defaultParams := ← fs.get "default_params" .zero Params.ofDoc?
    aggregation := ← fs.get "agg_method" .none (Doc.choice? Names.aggregations) }

def toJson (i : PropertyInfo) : Json :=
  .object [("prop", i.prop.toJson), ("name", .text i.name),
    ("data_type", .text (nameIn Names.dataTypes i.dataType)), ("param_count", .ofNat i.paramCount),
    ("param_types", .ofList (fun t => .text (nameIn Names.paramTypes t)) i.paramTypes),
    ("default_params", i.defaultParams.toJson),
    ("agg_method", .text (nameIn Names.aggregations i.aggregation))]

end PropertyInfo

end Spoils
