import Mathlib.Algebra.BigOperators.Group.List.Basic
import Mathlib.Algebra.GroupWithZero.Nat
import Mathlib.Algebra.Ring.Int.Defs
import Spoils.Audit.Basic
import Spoils.Proofs.SortedMap

/-! Audits add up: a report has the number of every item and rarity among all that its rolls grant,
so it does not depend on their order, and reports of parts sum up to that of the whole. -/
namespace Spoils

namespace SortedMap
variable {α : Type} [Ord α] [Std.LawfulEqOrd α] [Std.TransOrd α] {m n : SortedMap α Nat} {k : α}
  {v : Nat} {l : List (α × Nat)}

/-- The numbers of two maps, added under each key. -/
def plus (m n : SortedMap α Nat) : SortedMap α Nat :=
  n.entries.foldl (fun m e => m.insert e.1 ((m.find? e.1).getD 0 + e.2)) m

omit [Std.LawfulEqOrd α] [Std.TransOrd α] in
theorem lookup_eq_none (least : ∀ e ∈ l, compare k e.1 = .lt) : lookup k l = none := by
  induction l with
  | nil => rfl
  | cons e es ih =>
    obtain ⟨before, later⟩ := List.forall_mem_cons.mp least
    rw [lookup, before, if_neg (by decide), ih later]

private theorem find?_plus : (m.plus n).find? k = (m.find? k).merge (· + ·) (n.find? k) := by
  obtain ⟨l, sorted⟩ := n
  change (List.foldl _ m l).find? k = (m.find? k).merge (· + ·) (lookup k l)
  induction l generalizing m with
  | nil => rw [List.foldl_nil, lookup, Option.merge_none_right]
  | cons e es ih =>
    obtain ⟨least, rest⟩ := List.pairwise_cons.mp sorted
    rw [List.foldl_cons, ih rest]
    by_cases same : k = e.1
    · have self : compare k e.1 = .eq := Std.LawfulEqCmp.compare_eq_iff_eq.mpr same
      have once : lookup k es = none := lookup_eq_none fun x hx => same ▸ least x hx
      rw [lookup, if_pos self, once, same, find?_insert_self, Option.merge_none_right]
      cases m.find? e.1 <;> simp
    · have other : compare k e.1 ≠ .eq := fun hit => same (Std.LawfulEqCmp.eq_of_compare hit)
      rw [lookup, if_neg other, find?_insert_ne same]

omit [Std.LawfulEqOrd α] in
theorem sum_place (sorted : l.Pairwise fun a b => compare a.1 b.1 = .lt) :
    ((place k v l).map (·.2)).sum + (lookup k l).getD 0 = (l.map (·.2)).sum + v := by
  induction l with
  | nil => simp [place, lookup]
  | cons e es ih =>
    obtain ⟨least, rest⟩ := List.pairwise_cons.mp sorted
    unfold place
    split
    · rename_i before
      have absent : lookup k (e :: es) = none := by
        refine lookup_eq_none (List.forall_mem_cons.mpr ⟨before, fun x hx => ?_⟩)
        exact Std.TransCmp.lt_trans before (least x hx)
      rw [absent, List.map_cons, List.sum_cons]
      simp only [Option.getD_none]
      omega
    · rename_i hit
      rw [lookup, if_pos hit, List.map_cons, List.map_cons, List.sum_cons, List.sum_cons]
      simp only [Option.getD_some]
      omega
    · rename_i after
      have miss : compare k e.1 ≠ .eq := by rw [after]; decide
      have := ih rest
      rw [lookup, if_neg miss, List.map_cons, List.map_cons, List.sum_cons, List.sum_cons]
      omega

private theorem sum_values_insert :
    (m.insert k v).values.sum + (m.find? k).getD 0 = m.values.sum + v := sum_place m.sorted

end SortedMap

namespace DropAudit
variable {ids ids' : List PrototypeId} {first id : PrototypeId} {m : SortedMap PrototypeId Nat}
  {rs rs' : List Results}

/-- How often each of the listed identifiers is listed. -/
def tally (ids : List PrototypeId) : SortedMap PrototypeId Nat := ids.foldl increment .empty

/-- How often an identifier is listed, if it is. -/
def occurrences (ids : List PrototypeId) (id : PrototypeId) : Option Nat :=
  if id ∈ ids then some (ids.count id) else none

private theorem getD_occurrences : (occurrences ids id).getD 0 = ids.count id := by
  rw [occurrences]
  split
  · rfl
  · rename_i absent
    exact (List.count_eq_zero.mpr absent).symm

private theorem occurrences_perm (same : ids.Perm ids') :
    occurrences ids id = occurrences ids' id := by
  simp only [occurrences, same.mem_iff, same.count_eq]

theorem occurrences_append :
    occurrences (ids ++ ids') id = (occurrences ids id).merge (· + ·) (occurrences ids' id) := by
  by_cases left : id ∈ ids <;> by_cases right : id ∈ ids' <;>
    simp [occurrences, left, right, List.count_append, List.count_eq_zero.mpr]

private theorem find?_increment :
    (increment m first).find? id = (m.find? id).merge (· + ·) (occurrences [first] id) := by
  rw [increment]
  by_cases same : id = first
  · rw [same, SortedMap.find?_insert_self]
    cases m.find? first <;> simp [occurrences]
  · rw [SortedMap.find?_insert_ne same]
    simp [occurrences, same]

private theorem find?_increments :
    (ids.foldl increment m).find? id = (m.find? id).merge (· + ·) (occurrences ids id) := by
  have assoc : Std.Associative (Option.merge fun a b : Nat => a + b) := inferInstance
  -- Whatever was counted before stays in front of the sum, so the map is general.
  induction ids generalizing m with
  | nil => exact Option.merge_none_right.symm
  | cons first rest ih =>
    rw [List.foldl_cons, ih, find?_increment, assoc.assoc, ← occurrences_append,
      List.singleton_append]

theorem find?_tally : (tally ids).find? id = occurrences ids id := by
  rw [tally, find?_increments]
  exact Option.merge_none_left

theorem tally_perm (same : ids.Perm ids') : tally ids = tally ids' := by
  refine SortedMap.ext_find? fun id => ?_
  rw [find?_tally, find?_tally, occurrences_perm same]

private theorem tally_append : tally (ids ++ ids') = (tally ids).plus (tally ids') := by
  refine SortedMap.ext_find? fun id => ?_
  rw [SortedMap.find?_plus, find?_tally, find?_tally, find?_tally, occurrences_append]

private theorem sum_values_increment : (increment m id).values.sum = m.values.sum + 1 := by
  have total : (increment m id).values.sum + (m.find? id).getD 0 =
      m.values.sum + ((m.find? id).getD 0 + 1) := SortedMap.sum_values_insert
  omega

private theorem sum_values_tally (ids : List PrototypeId) :
    (tally ids).values.sum = ids.length := by
  have run (m : SortedMap PrototypeId Nat) :
      (ids.foldl increment m).values.sum = m.values.sum + ids.length := by
    induction ids generalizing m with
    | nil => rfl
    | cons first rest ih =>
      rw [List.foldl_cons, ih, sum_values_increment, List.length_cons]
      omega
  rw [tally, run]
  exact Nat.zero_add _

/-- What a list of rolls grants in items. -/
def drafted (rs : List Results) : List Draft := rs.flatMap (·.drafts)

/-- The sum of two reports, field by field, on the table of the first. -/
def plus (a b : DropAudit) : DropAudit :=
  { table := a.table
    rolls := a.rolls + b.rolls
    emptyRolls := a.emptyRolls + b.emptyRolls
    items := a.items + b.items
    itemCounts := a.itemCounts.plus b.itemCounts
    rarityCounts := a.rarityCounts.plus b.rarityCounts
    affixes := a.affixes + b.affixes
    credits := a.credits + b.credits }

private theorem foldl_countDraft (a : DropAudit) (ds : List Draft) :
    ds.foldl countDraft a =
      { a with
        items := a.items + ds.length
        itemCounts := (ds.map (·.item)).foldl increment a.itemCounts
        rarityCounts := (ds.map (·.rarity)).foldl increment a.rarityCounts
        affixes := a.affixes + (ds.map (·.affixes.length)).sum } := by
  induction ds generalizing a with
  | nil => rfl
  | cons d ds ih =>
    rw [List.foldl_cons, ih]
    simp only [countDraft, List.map_cons, List.foldl_cons, List.length_cons, List.sum_cons,
      Nat.add_assoc, Nat.add_comm 1]

private theorem foldl_record (a : DropAudit) (rs : List Results) :
    rs.foldl record a =
      { a with
        rolls := a.rolls + rs.length
        emptyRolls := a.emptyRolls + rs.countP (·.isEmpty)
        items := a.items + (drafted rs).length
        itemCounts := ((drafted rs).map (·.item)).foldl increment a.itemCounts
        rarityCounts := ((drafted rs).map (·.rarity)).foldl increment a.rarityCounts
        affixes := a.affixes + ((drafted rs).map (·.affixes.length)).sum
        credits := a.credits + (rs.map (·.credits)).sum } := by
  induction rs generalizing a with
  | nil => simp [drafted]
  | cons r rs ih =>
    rw [List.foldl_cons, ih, record, foldl_countDraft]
    simp only [drafted, List.flatMap_cons, List.map_append, List.foldl_append, List.length_append,
      List.length_cons, List.sum_append, List.map_cons, List.sum_cons, List.countP_cons]
    congr 1 <;> omega

/-- What a report says of a list of rolls. -/
theorem ofResults_eq (table : PrototypeId) (rs : List Results) :
    ofResults table rs =
      { table := table
        rolls := rs.length
        emptyRolls := rs.countP (·.isEmpty)
        items := (drafted rs).length
        itemCounts := tally ((drafted rs).map (·.item))
        rarityCounts := tally ((drafted rs).map (·.rarity))
        affixes := ((drafted rs).map (·.affixes.length)).sum
        credits := (rs.map (·.credits)).sum } := by
  rw [ofResults, foldl_record]
  simp only [Nat.zero_add, Int.zero_add, tally]

theorem ofResults_perm (table : PrototypeId) (same : rs.Perm rs') :
    ofResults table rs = ofResults table rs' := by
  have drafts : (drafted rs).Perm (drafted rs') := same.flatMap_right _
  have items := tally_perm (drafts.map (·.item))
  have rarities := tally_perm (drafts.map (·.rarity))
  have affixes := (drafts.map (·.affixes.length)).sum_eq
  have credits := (same.map (·.credits)).sum_eq
  rw [ofResults_eq, ofResults_eq, same.length_eq, same.countP_eq, drafts.length_eq, items, rarities,
    affixes, credits]

private theorem ofResults_append (table : PrototypeId) (rs rs' : List Results) :
    ofResults table (rs ++ rs') = (ofResults table rs).plus (ofResults table rs') := by
  simp only [ofResults_eq, plus, drafted, List.flatMap_append, List.map_append, tally_append,
    List.length_append, List.sum_append, List.countP_append]

/-- A report does not depend on the order of the rolls, and that of two lists of rolls together is
the sum of their reports. It has the number of the rolls and of those that grant nothing, and the
number, affixes and credits of what they grant; under each item and each rarity it has the number of
the granted items that are of it, and so both breakdowns sum up to the number of items. An audit is
the report of the rolls with the seeds that are derived from the base seed, in whichever order they
are made. -/
theorem ofResults_totals (table : PrototypeId) :
    (∀ rs rs', rs.Perm rs' → ofResults table rs = ofResults table rs') ∧
    (∀ rs rs', ofResults table (rs ++ rs') = (ofResults table rs).plus (ofResults table rs')) ∧
    (∀ rs, let report := ofResults table rs
      report.table = table ∧ report.rolls = rs.length ∧
      report.emptyRolls = rs.countP (fun r => r.grants.isEmpty) ∧
      report.itemCounts.values.sum = report.items ∧
      report.rarityCounts.values.sum = report.items ∧
      (∀ id, (report.itemCounts.find? id).getD 0 = (drafted rs).countP (fun d => d.item == id)) ∧
      (∀ id, (report.rarityCounts.find? id).getD 0 =
        (drafted rs).countP (fun d => d.rarity == id)) ∧
      report.items = (drafted rs).length ∧
      report.affixes = ((drafted rs).map (·.affixes.length)).sum ∧
      report.credits = (rs.map (·.credits)).sum) ∧
    ∀ (t : LootTable) (c : Config) (w : World) (s : BranchSettings) (order : List Nat),
      order.Perm (List.range c.auditRolls) →
      t.audit c w s = ofResults t.id (order.map fun i =>
        t.root.roll ⟨c.apply w, s, deriveSeed (.ofNat c.baseSeed) (.ofNat i)⟩) := by
  refine ⟨fun rs rs' => ofResults_perm table, ofResults_append table, fun rs => ?counts,
    fun t c w s order same => ?audit⟩
  case counts =>
    intro report
    have same : report = _ := ofResults_eq table rs
    rw [same]
    refine ⟨rfl, rfl, rfl, ?items, ?rarities, fun id => ?ofItem, fun id => ?ofRarity, rfl, rfl, rfl⟩
    case items | rarities => rw [sum_values_tally, List.length_map]
    case ofItem | ofRarity =>
      rw [find?_tally, getD_occurrences, List.count_eq_countP, List.countP_map]
      rfl
  case audit => exact ofResults_perm t.id (same.map _).symm

/-- Rolls of the same item with two rarities, and one that grants nothing, in another order; and an
audit of three rolls that are made out of order. -/
theorem ofResults_totals_shuffled :
    let rare : Results := { grants := [
      .item { item := ⟨100⟩, rarity := ⟨12⟩, affixes := [{ affix := ⟨1⟩ }] }, .credits 5] }
    let plain : Results := { grants := [
      .credits (-7), .item { item := ⟨100⟩, rarity := ⟨10⟩ }, .item { item := ⟨7⟩, rarity := ⟨10⟩ }] }
    let report := ofResults ⟨9⟩ [rare, {}, plain]
    let t : LootTable := { id := ⟨9⟩, root := .drop {} (.powerPoints 5) }
    let c : Config := { auditRolls := 3 }
    let w : World := { catalog := {} }
    ([rare, {}, plain].Perm [plain, rare, {}] ∧ report = ofResults ⟨9⟩ [plain, rare, {}]) ∧
    (report.itemCounts.entries = [(⟨7⟩, 1), (⟨100⟩, 2)] ∧
      report.rarityCounts.entries = [(⟨10⟩, 2), (⟨12⟩, 1)] ∧ report.items = 3 ∧
      report.emptyRolls = 1 ∧ report.credits = -2) ∧
    [2, 0, 1].Perm (List.range c.auditRolls) ∧
      t.audit c w {} = ofResults t.id ([2, 0, 1].map fun i =>
        t.root.roll ⟨c.apply w, {}, deriveSeed (.ofNat c.baseSeed) (.ofNat i)⟩) := by
  intro rare plain report t c w
  obtain ⟨orderless, -, -, audits⟩ := ofResults_totals ⟨9⟩
  have moved : [rare, {}, plain].Perm [plain, rare, {}] := by decide
  have shuffled : [2, 0, 1].Perm (List.range c.auditRolls) := by decide
  exact ⟨⟨moved, orderless _ _ moved⟩, ⟨rfl, rfl, rfl, rfl, rfl⟩, shuffled,
    audits t c w {} [2, 0, 1] shuffled⟩

end DropAudit
end Spoils
