import Spoils.Property.Value
import Spoils.Property.Store
import Spoils.Single.Decimal

/-! Values of formulas and their conversions. -/
namespace Spoils

inductive Value where
  /-- Statements without a value, such as a finished loop. -/
  | undefined
  | error
  | bool (v : Bool)
  | int (v : Int)
  | single (v : Single)
  | proto (id : PrototypeId)
  | asset (id : AssetId)
  | entity (id : Nat)
  | key (k : PropertyKey)
deriving DecidableEq, Inhabited

namespace Value

def isError : Value → Bool
  | .error => true
  | _ => false

def isNumeric : Value → Bool
  | .int _ | .single _ => true
  | _ => false

def typeName : Value → String
  | .undefined => "Undefined"
  | .error => "Error"
  | .bool _ => "Bool"
  | .int _ => "Int"
  | .single _ => "Float"
  | .proto _ => "ProtoRef"
  | .asset _ => "AssetRef"
  | .entity _ => "EntityId"
  | .key _ => "PropertyId"

def toInt? : Value → Option Int
  | .int v => some v
  | .single v => some v.toInt64
  | _ => none

def toSingle? : Value → Option Single
  | .int v => some (.ofInt v)
  | .single v => some v
  | _ => none

/-- Numbers are true when positive, and nothing is false. -/
def toBool? : Value → Option Bool
  | .bool v => some v
  | .int v => some (decide (0 < v))
  | .single v => some (decide (0 < v))
  | .undefined => some false
  | _ => none

def toProto? : Value → Option PrototypeId
  | .proto id => some id
  | _ => none

def toAsset? : Value → Option AssetId
  | .asset id => some id
  | _ => none

/-- An entity, or an integer that can stand for one. -/
def toEntity? : Value → Option Nat
  | .entity id => some id
  | .int v => if 0 ≤ v then some v.toNat else none
  | _ => none

/-- The word a value stands for as a property parameter. -/
def toParam? : Value → Option Nat
  | .int v => some (unsigned64 v)
  | .bool v => some (if v then 1 else 0)
  | .proto id => some id.val
  | .asset id => some id.val
  | .entity id => some id
  | _ => none

/-- The value as a property of the given type, if it can be stored as one. -/
def store? (v : Value) : DataType → Option PropertyValue
  | .integer => v.toInt?.map .integer
  | .real => v.toSingle?.map .real
  | .boolean => v.toBool?.map .boolean
  | .entity => v.toEntity?.map .entity
  | .prototype => v.toProto?.map .prototype
  | .asset => v.toAsset?.map .asset
  | .curve => v.toInt?.map fun n => .curve ⟨(max n 0).toNat⟩
  | .time => v.toInt?.map .time

def naturalType? : Value → Option DataType
  | .bool _ => some .boolean
  | .int _ => some .integer
  | .single _ => some .real
  | .proto _ => some .prototype
  | .asset _ => some .asset
  | .entity _ => some .entity
  | _ => none

def ofProperty : PropertyValue → Value
  | .integer v => .int v
  | .time v => .int v
  | .real v => .single v
  | .boolean v => .bool v
  | .entity id => .entity id
  | .prototype id => .proto id
  | .asset id => .asset id
  | .curve id => .int (signed64 id.val)

def text : Value → String
  | .bool v => if v then "true" else "false"
  | .int v => toString v
  | .single v => v.plain
  | .proto id => s!"proto:{id.val}"
  | .asset id => s!"asset:{id.val}"
  | .entity id => s!"entity:{id}"
  | .key k => s!"prop:{k.prop.val}"
  | .undefined => "Undefined"
  | .error => "Error"

end Value

end Spoils
