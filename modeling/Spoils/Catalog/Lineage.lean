import Spoils.Catalog.Basic

/-! Walks along parents and downgrades. Content may contain cycles, so a walk ends where it
would come back to an identifier it has met. -/
namespace Spoils

/-- The identifiers met by following `next` from one on, up to the first that is none or was
met before. -/
def trail (next : PrototypeId → PrototypeId) :
    Nat → List PrototypeId → PrototypeId → List PrototypeId
  | 0, _, _ => []
  | fuel + 1, met, id =>
    if id.isValid && !met.contains id then id :: trail next fuel (id :: met) (next id) else []

namespace Catalog

/-- Every walk leaves the catalog or closes a cycle within as many steps. -/
def walkLength (c : Catalog) : Nat := c.size + 2

def lineage (c : Catalog) (id : PrototypeId) : List PrototypeId :=
  trail c.parentOf c.walkLength [] id

/-- Whether `parent` is the identifier itself or one of its ancestors. -/
def isChildOf (c : Catalog) (id parent : PrototypeId) : Bool :=
  id.isValid && parent.isValid && (c.lineage id).contains parent

/-- The downgrade of a rarity; whatever is no rarity has none. -/
def downgradeOf (c : Catalog) (id : PrototypeId) : PrototypeId :=
  match c.rarity? id with
  | some r => r.downgradeTo
  | none => .none

/-- The downgrade of a rarity if it is a rarity too. -/
def rarityBelow (c : Catalog) (id : PrototypeId) : PrototypeId :=
  let below := c.downgradeOf id
  if (c.rarity? below).isSome then below else .none

/-- How many rarities there are from a rarity downwards, itself included. -/
def tier (c : Catalog) (r : Rarity) : Nat :=
  let first := if (c.rarity? r.downgradeTo).isSome then r.downgradeTo else .none
  (trail c.rarityBelow c.walkLength [r.id] first).length + 1

def tier? (c : Catalog) (id : PrototypeId) : Option Nat := (c.rarity? id).map c.tier

/-- Whether following the downgrades of a rarity comes to another. -/
def downgradesTo (c : Catalog) (r : Rarity) (other : PrototypeId) : Bool :=
  (trail c.downgradeOf c.walkLength [] r.downgradeTo).contains other

def rarityWeight (c : Catalog) (r : Rarity) (level : Int) : Single :=
  match c.curve? r.weightCurve with
  | some curve => curve.valueAt level
  | none => 0

def allowsAttachment (c : Catalog) (a : Affix) (item : PrototypeId) : Bool :=
  a.typeFilters.isEmpty || a.typeFilters.any (c.isChildOf item)

def concreteUnder (c : Catalog) (parent : PrototypeId) : List Item :=
  c.items.filter fun i => !i.isAbstract && c.isChildOf i.id parent

/-- The concrete items of a slot that an avatar may use; no avatar allows all of them. -/
def concreteForSlot (c : Catalog) (slot : EquipmentSlot) (avatar : PrototypeId) : List Item :=
  c.items.filter fun i =>
    !i.isAbstract && i.slot == slot && (!avatar.isValid || i.isUsableBy avatar)

end Catalog

namespace Draft

/-- How many affixes of a draft satisfy a condition; unknown ones count for none. -/
def countAffixes (c : Catalog) (d : Draft) (p : Affix → Bool) : Int :=
  count16 (d.affixes.countP fun a => (c.affix? a.affix).any p)

def countAtPosition (c : Catalog) (d : Draft) (p : AffixPosition) : Int :=
  d.countAffixes c fun a => a.position == p

def countInCategory (c : Catalog) (d : Draft) (category : PrototypeId) : Int :=
  d.countAffixes c fun a => a.hasCategory category

/-- Puts the affix that hides visuals in the place of visual ones; also tells whether it was
missing. -/
def hideVisuals (c : Catalog) (d : Draft) : Bool × Draft :=
  if !c.noVisualsAffix.isValid || d.affixes.any (fun a => a.affix == c.noVisualsAffix) then
    (false, d)
  else
    let kept := d.affixes.filter fun a =>
      (c.affix? a.affix).all fun p => p.position != .visual
    (true, { d with affixes := kept ++ [{ affix := c.noVisualsAffix }] })

end Draft

end Spoils
