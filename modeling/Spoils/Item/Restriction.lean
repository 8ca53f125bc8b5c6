import Spoils.Bounds
import Spoils.Catalog.Lineage

/-! Restrictions on drafts: what they allow, and how a draft is adjusted to meet them. -/
namespace Spoils

/-- Where a draft is inspected, and which checks it has to pass. -/
structure Inspection where
  catalog : Catalog
  occasion : Occasion
  checks : Checks

/-- A draft on its way to meet restrictions, with what was adjusted so far. -/
structure Adjustment where
  draft : Draft
  adjusted : Checks := .none
deriving DecidableEq

namespace Catalog

/-- The first allowed rarity below a rarity, within so many downgrades. -/
def allowedBelow (c : Catalog) (allowed : List PrototypeId) : Nat → PrototypeId →
    Option PrototypeId
  | 0, _ => none
  | steps + 1, next =>
    if !next.isValid then none
    else if allowed.contains next then some next
    else
      match c.rarity? next with
      | some r => allowedBelow c allowed steps r.downgradeTo
      | none => none

/-- Brings a rarity into a list that runs from the lowest tier to the highest: the nearer end
from outside, else the next allowed one below. -/
def clampRarity (c : Catalog) (allowed : List PrototypeId) (lowest highest : PrototypeId)
    (rarity : PrototypeId) : PrototypeId :=
  match c.rarity? rarity with
  | none => lowest
  | some r =>
    let bottom := (c.tier? lowest).getD 1
    let top := (c.tier? highest).getD bottom
    if c.tier r < bottom then lowest
    else if top < c.tier r then highest
    else (c.allowedBelow allowed (allowed.length + 16) r.downgradeTo).getD lowest

end Catalog

namespace Restriction

mutual

/-- Whether a draft meets a restriction. Checks that are not made count as met. -/
def allows (i : Inspection) : Restriction → Draft → Bool
  | .level lo range, d =>
    !i.checks.level || (lo ≤ d.level && (range < 0 || d.level ≤ Bounds.int32.wrap (lo + range)))
  | .rarity allowed, d => !i.checks.rarity || allowed.contains d.rarity
  | .rank allowed, d => !i.checks.rank || allowed.contains d.rank
  | .slot allowed, d => !allowed.isEmpty && (!i.checks.slot || allowed.contains d.slot)
  | .usableBy avatars, d =>
    !avatars.isEmpty && (!i.checks.usableBy || !d.rollFor.isValid || avatars.contains d.rollFor)
  | .itemParent allowed, d =>
    !allowed.isEmpty && (!i.checks.itemParent || allowed.any (i.catalog.isChildOf d.item))
  | .occasion allowed, _ => allowed.contains i.occasion
  | .outputLevel value filter, d => !filter || !i.checks.level || d.level == value
  | .outputRarity value filter, d => !filter || !i.checks.rarity || d.rarity == value
  | .outputRank value filter, d => !filter || !i.checks.rank || d.rank == value
  | .conditional occasions inside outside, d =>
    if occasions.contains i.occasion then allowsAll i inside d else allowsAll i outside d

def allowsAll (i : Inspection) : List Restriction → Draft → Bool
  | [], _ => true
  | r :: rs, d => allows i r d && allowsAll i rs d

end

/-- Raises a level to `lo` and brings it down to the end of the range, if there is one. -/
def clampLevel (lo range level : Int) : Int :=
  if 0 ≤ range then min (max level lo) (Bounds.int32.wrap (lo + range)) else max level lo

mutual

/-- Adjusts a draft to a restriction; false when it cannot be met. What an output forces is not
adjusted any more. -/
def adjust (i : Inspection) : Restriction → Adjustment → Bool × Adjustment
  | .level lo range, a =>
    if allows i (.level lo range) a.draft || a.adjusted.outputLevel || i.checks.output then
      (true, a)
    else
      (true, {
        draft := { a.draft with level := clampLevel lo range a.draft.level }
        adjusted := { a.adjusted with level := true } })
  | .rarity allowed, a =>
    if allows i (.rarity allowed) a.draft || a.adjusted.outputRarity || i.checks.output then
      (true, a)
    else
      match allowed.head?, allowed.getLast? with
      | some lowest, some highest =>
        (true, {
          draft := { a.draft with
            rarity := i.catalog.clampRarity allowed lowest highest a.draft.rarity }
          adjusted := { a.adjusted with rarity := true } })
      | _, _ => (false, a)
  | .rank allowed, a =>
    if (allows i (.rank allowed) a.draft && a.draft.rank != 0) || a.adjusted.outputRank ||
        i.checks.output then
      (true, a)
    else if !i.checks.rank then (false, a)
    else
      match allowed.max? with
      | some best =>
        (true, {
          draft := { a.draft with rank := best }
          adjusted := { a.adjusted with rank := true } })
      | none => (false, a)
  | .slot allowed, a =>
    if allows i (.slot allowed) a.draft || i.checks.output then (true, a)
    else if !i.checks.slot then (false, a)
    else
      match allowed.head? with
      | some first =>
        (true, {
          draft := { a.draft with slot := first }
          adjusted := { a.adjusted with slot := true } })
      | none => (false, a)
  | .outputLevel value _, a =>
    if !i.checks.level then (true, a)
    else
      (true, {
        draft := { a.draft with level := value }
        adjusted := { a.adjusted with
          outputLevel := true
          level := a.adjusted.level || a.draft.level != value } })
  | .outputRarity value _, a =>
    if !i.checks.rarity then (true, a)
    else
      (true, {
        draft := { a.draft with rarity := value }
        adjusted := { a.adjusted with
          outputRarity := true
          rarity := a.adjusted.rarity || a.draft.rarity != value } })
  | .outputRank value _, a =>
    if !i.checks.rank then (true, a)
    else
      (true, {
        draft := { a.draft with rank := value }
        adjusted := { a.adjusted with
          outputRank := true
          rank := a.adjusted.rank || a.draft.rank != value } })
  | .conditional occasions inside outside, a =>
    if occasions.contains i.occasion then adjustAll i inside a else adjustAll i outside a
  | .usableBy avatars, a => (i.checks.output || allows i (.usableBy avatars) a.draft, a)
  | .itemParent allowed, a => (i.checks.output || allows i (.itemParent allowed) a.draft, a)
  | .occasion allowed, a => (i.checks.output || allows i (.occasion allowed) a.draft, a)

def adjustAll (i : Inspection) : List Restriction → Adjustment → Bool × Adjustment
  | [], a => (true, a)
  | r :: rs, a =>
    match adjust i r a with
    | (true, a) => adjustAll i rs a
    | (false, a) => (false, a)

end

end Restriction

namespace Item

def isDroppable (i : Inspection) (item : Item) (d : Draft) : Bool :=
  !item.isAbstract &&
    !(i.checks.usableBy && d.rollFor.isValid && !item.isUsableBy d.rollFor) &&
    !(i.checks.slot && d.slot.isGear && item.slot.isGear && d.slot != item.slot) &&
    Restriction.allowsAll i item.restrictions d

/-- Adjusts a draft of the item until it may drop; tells what was adjusted, or nothing when it
still may not. -/
def makeDroppable (i : Inspection) (item : Item) (d : Draft) : Option Checks × Draft :=
  if item.isAbstract then (none, d)
  else
    match Restriction.adjustAll i item.restrictions ⟨d, .none⟩ with
    | (false, a) => (none, a.draft)
    | (true, a) => (if item.isDroppable i a.draft then some a.adjusted else none, a.draft)

end Item

end Spoils
