import Spoils.Item.Basic
import Spoils.Property.Store

/-! Drafts: the records of items that a roll grants. -/
namespace Spoils

structure AttachedAffix where
  affix : PrototypeId
  scope : PrototypeId := .none
  levelRequirement : Int := 0
  seed : Nat := 0
deriving DecidableEq, Repr, Inhabited

/-- What makes two attached affixes the same. -/
def AttachedAffix.key (a : AttachedAffix) : PrototypeId × PrototypeId := (a.affix, a.scope)

/-- How an item is tied to its owner. -/
abbrev Binding := Flags 8

namespace Binding

def bound : Binding := 0x01#8
def tradeRestricted : Binding := 0x02#8

def names : List (String × Binding) :=
  [("BOUND", bound), ("TRADE_RESTRICTED", tradeRestricted)]

def set (b flag : Binding) (on : Bool) : Binding :=
  if on then Flags.union b flag else Flags.minus b flag

end Binding

structure Draft where
  item : PrototypeId := .none
  rarity : PrototypeId := .none
  level : Int := 0
  rank : Int := 0
  seed : Nat := 0
  slot : EquipmentSlot := .invalid
  /-- The avatar the item is bound to. -/
  equippableBy : PrototypeId := .none
  /-- The avatar the item was rolled for. -/
  rollFor : PrototypeId := .none
  binding : Binding := 0#8
  /-- The checks made again whenever the draft changes. -/
  checks : Checks := .all
  affixes : List AttachedAffix := []
  properties : PropertyStore := .empty
deriving DecidableEq

namespace Draft

instance : Inhabited Draft := ⟨{}⟩

def isValid (d : Draft) : Bool := d.item.isValid && d.rarity.isValid

/-- Binds to an avatar or unbinds; also tells whether anything changed. -/
def bind (d : Draft) (on : Bool) (avatar : PrototypeId) : Bool × Draft :=
  let owner := if on then avatar else .none
  (d.binding.contains Binding.bound != on || d.equippableBy != owner,
    { d with binding := d.binding.set .bound on, equippableBy := owner })

/-- The checks that are made of a copy: its rarity need not fit any more, and without an avatar
it need not be usable. -/
def copyChecks (d : Draft) : Checks :=
  { d.checks with
    usableBy := d.checks.usableBy && d.rollFor.isValid
    rarity := false }

/-- Sets the trade restriction and may unbind; also tells whether anything changed. -/
def restrictTrade (d : Draft) (on unbind : Bool) : Bool × Draft :=
  let changed := d.binding.contains Binding.tradeRestricted != on
  let d := { d with binding := d.binding.set .tradeRestricted on }
  if unbind then
    let (unbound, d) := d.bind false .none
    (changed || unbound, d)
  else (changed, d)

end Draft

end Spoils
