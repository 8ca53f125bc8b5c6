import Spoils.Catalog.Lineage
import Spoils.Picker

/-! Rolling the affixes of enemy ranks. A group of enemies prefers the affixes it already has. -/
namespace Spoils

namespace Affix

/-- Draws from a pool at equal odds: what was rolled before if the pool has any of it, else what
is not excluded. -/
def pickPreferred (pool : List PrototypeId) (before excluded : SortedSet PrototypeId)
    (dice : Dice) : Option PrototypeId × Dice :=
  match (Picker.uniform (before.toList.filter pool.contains)).pickOne dice with
  | (some id, dice) => (some id, dice)
  | (none, dice) =>
    (Picker.uniform (pool.filter fun id => !excluded.contains id)).pickOne dice

end Affix

/-- Rolls the affix of a slot: its chance has to come up first. None stands for no affix. -/
def RankSlot.roll (slot : RankSlot) (c : Catalog) (before excluded : SortedSet PrototypeId)
    (dice : Dice) : PrototypeId × Dice :=
  match c.affixTable? slot.table with
  | none => (.none, dice)
  | some t =>
    match dice.chance slot.chance with
    | (false, dice) => (.none, dice)
    | (true, dice) =>
      let (id, dice) := Affix.pickPreferred t.affixes before excluded dice
      (id.getD .none, dice)

/-- The affixes of one enemy and of its group. -/
structure RankRoll where
  rolled : List PrototypeId := []
  own : SortedSet PrototypeId := .empty
  group : SortedSet PrototypeId

namespace RankEntry

/-- Rolls slots in order; no affix comes twice on one enemy. -/
def rollSlots (c : Catalog) : List RankSlot → RankRoll → Dice → RankRoll × Dice
  | [], r, dice => (r, dice)
  | slot :: slots, r, dice =>
    let (id, dice) := slot.roll c (r.group.without r.own) r.own dice
    if !id.isValid || r.own.contains id then rollSlots c slots r dice
    else
      rollSlots c slots
        { rolled := r.rolled ++ [id], own := r.own.add id, group := r.group.add id } dice

def roll (e : RankEntry) (c : Catalog) (group : SortedSet PrototypeId) (dice : Dice) :
    List PrototypeId × SortedSet PrototypeId × Dice :=
  let (r, dice) := rollSlots c e.slots { group := group } dice
  (r.rolled, r.group, dice)

end RankEntry

namespace RankTable

/-- The ranks to draw from; those without affixes only if they are wanted. -/
def picker (t : RankTable) (plain : Bool) : Picker RankEntry :=
  ⟨(t.entries.filter fun e => decide (0 < e.weight) && (plain || !e.slots.isEmpty)).map
    fun e => (e, e.weight)⟩

def rollRank (t : RankTable) (plain : Bool) (dice : Dice) : Option RankEntry × Dice :=
  (t.picker plain).pickOne dice

def entry? (t : RankTable) (rank : Rank) : Option RankEntry :=
  t.entries.find? fun e => e.rank == rank

end RankTable

end Spoils
