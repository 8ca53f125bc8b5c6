import Spoils.Config.Basic
import Spoils.Roll.Select

/-! Audits: what a table grants over many rolls. -/
namespace Spoils

/-- Counts over rolls of one table. -/
structure DropAudit where
  table : PrototypeId
  rolls : Nat := 0
  emptyRolls : Nat := 0
  items : Nat := 0
  itemCounts : SortedMap PrototypeId Nat := .empty
  rarityCounts : SortedMap PrototypeId Nat := .empty
  affixes : Nat := 0
  credits : Int := 0

namespace DropAudit

def increment (m : SortedMap PrototypeId Nat) (id : PrototypeId) : SortedMap PrototypeId Nat :=
  m.insert id ((m.find? id).getD 0 + 1)

def countDraft (a : DropAudit) (d : Draft) : DropAudit :=
  { a with
    items := a.items + 1
    itemCounts := increment a.itemCounts d.item
    rarityCounts := increment a.rarityCounts d.rarity
    affixes := a.affixes + d.affixes.length }

def record (a : DropAudit) (r : Results) : DropAudit :=
  r.drafts.foldl countDraft
    { a with
      rolls := a.rolls + 1
      emptyRolls := a.emptyRolls + (if r.isEmpty then 1 else 0)
      credits := a.credits + r.credits }

def ofResults (table : PrototypeId) (rs : List Results) : DropAudit :=
  rs.foldl record { table := table }

/-- A part of a whole as a double; of nothing it is zero. -/
def rate (part whole : Nat) : Float :=
  if whole = 0 then 0 else Float.ofNat part / Float.ofNat whole

def emptyRate (a : DropAudit) : Float := rate a.emptyRolls a.rolls

def averageAffixes (a : DropAudit) : Float := rate a.affixes a.items

/-- How many of an item a roll grants on average. -/
def dropRate (a : DropAudit) (item : PrototypeId) : Float :=
  rate ((a.itemCounts.find? item).getD 0) a.rolls

end DropAudit

/-- The rolls of an audit, each with a seed derived from the base seed. -/
def LootTable.auditRolls (t : LootTable) (c : Config) (w : World) (s : BranchSettings) :
    List Results :=
  (List.range c.auditRolls).map fun i =>
    t.root.roll ⟨c.apply w, s, deriveSeed (.ofNat c.baseSeed) (.ofNat i)⟩

def LootTable.audit (t : LootTable) (c : Config) (w : World) (s : BranchSettings) : DropAudit :=
  .ofResults t.id (t.auditRolls c w s)

end Spoils
