import Spoils.Ids
import Spoils.Single.Basic

/-! Typed property values and their readings. -/
namespace Spoils

inductive DataType where
  | integer | real | boolean | entity | prototype | asset | curve | time
deriving DecidableEq, Repr

inductive PropertyValue where
  | integer (v : Int)
  | real (v : Single)
  | boolean (v : Bool)
  | entity (id : Nat)
  | prototype (id : PrototypeId)
  | asset (id : AssetId)
  | curve (id : CurveId)
  | time (v : Int)
deriving DecidableEq

/-- A 64-bit word read as a signed integer. -/
def signed64 (n : Nat) : Int := Int.bmod n 0x10000000000000000

/-- A signed integer read as a 64-bit word. -/
def unsigned64 (v : Int) : Nat := (v % 0x10000000000000000).toNat

namespace DataType

def all : List DataType :=
  [.integer, .real, .boolean, .entity, .prototype, .asset, .curve, .time]

/-- What a missing value of the type reads as. -/
def default : DataType → PropertyValue
  | .integer => .integer 0
  | .real => .real 0
  | .boolean => .boolean false
  | .entity => .entity 0
  | .prototype => .prototype .none
  | .asset => .asset .none
  | .curve => .curve .none
  | .time => .time 0

end DataType

namespace PropertyValue

def dataType : PropertyValue → DataType
  | .integer _ => .integer
  | .real _ => .real
  | .boolean _ => .boolean
  | .entity _ => .entity
  | .prototype _ => .prototype
  | .asset _ => .asset
  | .curve _ => .curve
  | .time _ => .time

def toInt : PropertyValue → Int
  | .integer v => v
  | .time v => v
  | .real v => v.toInt64
  | .boolean v => if v then 1 else 0
  | .entity id => signed64 id
  | .prototype id => signed64 id.val
  | .asset id => signed64 id.val
  | .curve id => signed64 id.val

def toSingle : PropertyValue → Single
  | .real v => v
  | v => .ofInt v.toInt

def toBool : PropertyValue → Bool
  | .boolean v => v
  | .real v => decide (0 < v)
  | v => decide (0 < v.toInt)

def toPrototype : PropertyValue → PrototypeId
  | .prototype id => id
  | _ => .none

def toAsset : PropertyValue → AssetId
  | .asset id => id
  | _ => .none

def toEntity : PropertyValue → Nat
  | .entity id => id
  | _ => 0

end PropertyValue

end Spoils
