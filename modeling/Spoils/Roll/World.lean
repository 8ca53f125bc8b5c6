import Spoils.Item.Restriction
import Spoils.Picker
import Spoils.Roll.Oracle

/-! What a roll reads: the catalog, the answers of the game and the limits of the roll. -/
namespace Spoils

def minItemLevel : Int := 1

/-- The greatest level of an item, unless its level is taken verbatim. -/
def maxItemLevel : Int := 100

/-- How deep tables may be nested in a roll. -/
def maxTreeDepth : Nat := 50

structure World where
  catalog : Catalog := {}
  oracle : Oracle := .unknowing
  occasion : Occasion := .drop
  /-- Factor on every chance of a table to drop. -/
  dropMultiplier : Single := 1
  maxDepth : Nat := maxTreeDepth

namespace World

/-- The world with another factor on drops, which is never below zero. -/
def withMultiplier (w : World) (m : Single) : World :=
  { w with dropMultiplier := Single.larger m 0 }

def inspection (w : World) (checks : Checks) : Inspection := ⟨w.catalog, w.occasion, checks⟩

def accepts (w : World) (checks : Checks) (d : Draft) : Bool :=
  (w.catalog.item? d.item).any fun item => item.isDroppable (w.inspection checks) d

def adjust (w : World) (checks : Checks) (d : Draft) : Bool × Draft :=
  match w.catalog.item? d.item with
  | none => (false, d)
  | some item =>
    let (adjusted, d) := item.makeDroppable (w.inspection checks) d
    (adjusted.isSome, d)

/-- Whether a table drops; restricted branches never do, and draw nothing. -/
def rollsDrop (w : World) (s : BranchSettings) (noDrop : Single) (dice : Dice) : Bool × Dice :=
  if s.isRestricted then (false, dice)
  else
    let chance := (1 - noDrop) * w.dropMultiplier
    let chance := if s.flags.contains DropFlags.tierModified then chance * s.dropFactor else chance
    let (u, dice) := dice.unit
    (decide (u < chance), dice)

/-- The level of an item; only a verbatim one may exceed the greatest level. -/
def itemLevel (level : Int) (verbatim : Bool) : Int :=
  if verbatim then max level minItemLevel else max minItemLevel (min level maxItemLevel)

/-- The avatar to roll for: the one of the settings if it is forced or its chance comes up, else
any. -/
def rollAvatar (w : World) (s : BranchSettings) (dice : Dice) : PrototypeId × Dice :=
  let anyone (dice : Dice) : PrototypeId × Dice :=
    let (avatar, dice) := (Picker.uniform (w.catalog.idsOfKind .avatar)).pickOne dice
    (avatar.getD s.avatar, dice)
  if !s.avatar.isValid then anyone dice
  else if s.forceUsable then (s.avatar, dice)
  else
    let (u, dice) := dice.unit
    if u < s.usableChance then (s.avatar, dice) else anyone dice

/-- The rarities that may be rolled at a level, with their weights in hundredths. No listed
rarity allows all of them, and an item allows those that its restrictions do. -/
def rarityPicker (w : World) (listed : SortedSet PrototypeId) (level : Int) (item : Option Item) :
    Picker PrototypeId :=
  let fits (r : Rarity) : Bool :=
    (listed.isEmpty || listed.contains r.id) &&
      item.all fun i =>
        i.isDroppable (w.inspection { rarity := true })
          { item := i.id, rarity := r.id, level := level }
  ⟨(w.catalog.rarities.filter fits).map fun r =>
    (r.id, (w.catalog.rarityWeight r level * 100).toInt32)⟩

/-- Draws a rarity by weight; none when there is nothing to draw. -/
def rollRarity (w : World) (listed : SortedSet PrototypeId) (level : Int) (item : Option Item)
    (dice : Dice) : PrototypeId × Dice :=
  let (rarity, dice) := (w.rarityPicker listed level item).pickOne dice
  (rarity.getD .none, dice)

def draftOf (item : Item) (avatar : PrototypeId) (d : Draft) : Draft :=
  { d with item := item.id, slot := item.slot, rollFor := item.rollFor avatar }

def pickItem (w : World) (checks : Checks) (candidates : List Item) (d : Draft)
    (avatar : PrototypeId) (dice : Dice) : Option Item × Dice :=
  let valid := candidates.filter fun item => w.accepts checks (draftOf item avatar d)
  (Picker.uniform valid).pickOne dice

end World

end Spoils
