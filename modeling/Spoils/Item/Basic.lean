import Spoils.Affix.Limits

/-! Items of the catalog and the restrictions on how they drop. -/
namespace Spoils

inductive EquipmentSlot where
  | invalid | costume | gear1 | gear2 | gear3 | gear4 | gear5 | artifact1 | artifact2
  | artifact3 | artifact4 | legendary | ring | medal | insignia | teamUpGear
deriving DecidableEq, Repr, Inhabited

def EquipmentSlot.isGear : EquipmentSlot → Bool
  | .invalid | .costume => false
  | _ => true

inductive Restriction where
  /-- Levels from `min` to `min + range`; a negative range has no end. -/
  | level (min range : Int)
  /-- Rarities from the lowest tier to the highest. -/
  | rarity (allowed : List PrototypeId)
  | rank (allowed : List Int)
  | slot (allowed : List EquipmentSlot)
  | usableBy (avatars : List PrototypeId)
  | itemParent (allowed : List PrototypeId)
  | occasion (allowed : Occasion)
  /-- Forces the level; as a filter it also refuses every other one. -/
  | outputLevel (value : Int) (filter : Bool)
  | outputRarity (value : PrototypeId) (filter : Bool)
  | outputRank (value : Int) (filter : Bool)
  /-- One list of restrictions on the given occasions, the other elsewhere. -/
  | conditional (occasions : Occasion) (inside outside : List Restriction)

mutual

/-- Levels start at one at least, and a range is never below `-1`. -/
def Restriction.normalize : Restriction → Restriction
  | .level min range => .level (max min 1) (max range (-1))
  | .conditional occasions inside outside =>
    .conditional occasions (Restriction.normalizeAll inside) (Restriction.normalizeAll outside)
  | r => r

def Restriction.normalizeAll : List Restriction → List Restriction
  | [] => []
  | r :: rs => r.normalize :: Restriction.normalizeAll rs

end

structure BuiltinAffix where
  affix : PrototypeId
  scope : PrototypeId := .none
  seed : Nat := 0
deriving DecidableEq, Repr

structure Item where
  id : PrototypeId
  name : String := ""
  parent : PrototypeId := .none
  /-- Abstract items stand for their concrete descendants and never drop themselves. -/
  isAbstract : Bool := false
  slot : EquipmentSlot := .invalid
  /-- Avatars that may use the item; none allows everyone. -/
  usableBy : List PrototypeId := []
  builtinAffixes : List BuiltinAffix := []
  affixLimits : List AffixLimits := []
  restrictions : List Restriction := []

namespace Item

def normalize (i : Item) : Item :=
  { i with
    affixLimits := i.affixLimits.map (·.normalize)
    restrictions := Restriction.normalizeAll i.restrictions }

def limitsFor? (i : Item) (rarity : PrototypeId) (occasion : Occasion) : Option AffixLimits :=
  i.affixLimits.find? fun l => l.appliesTo rarity occasion

def isUsableBy (i : Item) (avatar : PrototypeId) : Bool :=
  i.usableBy.isEmpty || i.usableBy.contains avatar

/-- The avatar the item is rolled for when one asks for it. -/
def rollFor (i : Item) (requested : PrototypeId) : PrototypeId :=
  if i.isUsableBy requested then requested else i.usableBy.head?.getD requested

end Item

end Spoils
