import Spoils.Catalog.Basic
import Spoils.Proofs.SortedMap

/-! The catalog of content knows every prototype under its own identifier. -/
namespace Spoils

theorem Prototype.id_normalize (p : Prototype) : p.normalize.id = p.id := by
  cases p <;> rfl

namespace Catalog

/-- Every prototype stands under its own identifier. -/
def IsIndex (m : SortedMap PrototypeId Prototype) : Prop := ∀ e ∈ m.entries, e.1 = e.2.id

/-- A prototype is taken in, normalized, if its identifier is valid and free. -/
theorem addPrototype_eq_ok_iff {m m' : SortedMap PrototypeId Prototype} {p : Prototype} :
    addPrototype m p = .ok m' ↔
      p.id.isValid = true ∧ m.contains p.id = false ∧ m.insert p.id p.normalize = m' := by
  rw [addPrototype]
  split
  · rename_i invalid
    rw [Bool.not_eq_true'] at invalid
    simp [invalid]
  · rename_i valid
    rw [Bool.not_eq_true', Bool.not_eq_false] at valid
    split
    · rename_i taken
      simp [taken]
    · rename_i free
      simp [valid, Bool.eq_false_iff.mpr free]

/-- The entries of a map after prototypes were taken in, which had to be valid. -/
theorem mem_addPrototypes {ps : List Prototype} {m m' : SortedMap PrototypeId Prototype}
    (h : ps.foldlM addPrototype m = .ok m') :
    (∀ p ∈ ps, p.id.isValid = true) ∧
      ∀ e, e ∈ m'.entries ↔ (∃ p ∈ ps, (p.id, p.normalize) = e) ∨ e ∈ m.entries := by
  induction ps generalizing m with
  | nil =>
    cases h
    simp
  | cons p ps ih =>
    rw [List.foldlM_cons] at h
    cases added : addPrototype m p with
    | error e =>
      rw [added] at h
      cases h
    | ok next =>
      rw [added] at h
      obtain ⟨valid, rest⟩ := ih h
      obtain ⟨named, free, rfl⟩ := addPrototype_eq_ok_iff.mp added
      refine ⟨List.forall_mem_cons.mpr ⟨named, valid⟩, fun e => ?_⟩
      have other : e ∈ m.entries → e.1 ≠ p.id := by
        rintro old same
        exact Bool.eq_false_iff.mp free (SortedMap.contains_iff.mpr ⟨e.2, same ▸ old⟩)
      simp only [List.mem_cons, exists_eq_or_imp]
      rw [rest, SortedMap.mem_insert_iff, and_iff_left_of_imp other, eq_comm, or_assoc,
        or_left_comm]

/-- The prototypes of a catalog are those of its content, taken in one after the other. -/
theorem ofContent_prototypes {content : Content} {c : Catalog} (h : ofContent content = .ok c) :
    content.declared.foldlM addPrototype .empty = .ok c.prototypes := by
  rw [ofContent] at h
  cases all : content.declared.foldlM addPrototype .empty with
  | error e =>
    rw [all] at h
    cases h
  | ok prototypes =>
    rw [all] at h
    simp only [bind, Except.bind] at h
    split at h
    · cases h
    · split at h
      · cases h
      · cases h
        rfl

section
variable {content : Content} {c : Catalog} (registered : ofContent content = .ok c)
include registered

/-- What an identifier stands for is what content declares under it, normalized. -/
theorem find?_eq_some_iff {id : PrototypeId} {p : Prototype} :
    c.prototypes.find? id = some p ↔ ∃ q ∈ content.declared, q.id = id ∧ q.normalize = p := by
  have entries := (mem_addPrototypes (ofContent_prototypes registered)).2 (id, p)
  rw [SortedMap.find?_eq_some_iff, entries, or_iff_left (fun none => by cases none)]
  simp only [Prod.mk.injEq]

/-- What holds of every prototype that may be taken in holds of all that a catalog has. -/
theorem ofContent_entries {holds : PrototypeId × Prototype → Prop}
    (taken : ∀ p : Prototype, p.id.isValid = true → holds (p.id, p.normalize)) :
    ∀ e ∈ c.prototypes.entries, holds e := by
  intro e he
  obtain ⟨valid, entries⟩ := mem_addPrototypes (ofContent_prototypes registered)
  rcases (entries e).mp he with ⟨p, declared, rfl⟩ | none
  · exact taken p (valid p declared)
  · cases none

end

theorem ofContent_isIndex {content : Content} {c : Catalog} (h : ofContent content = .ok c) :
    IsIndex c.prototypes :=
  ofContent_entries h fun p _ => p.id_normalize.symm

theorem isValid_of_find? {content : Content} {c : Catalog} (h : ofContent content = .ok c)
    {id : PrototypeId} {p : Prototype} (found : c.prototypes.find? id = some p) :
    id.isValid = true := by
  have valid : ∀ e ∈ c.prototypes.entries, e.1.isValid = true :=
    ofContent_entries h fun _ named => named
  exact valid _ (SortedMap.find?_eq_some_iff.mp found)

section
variable {c : Catalog} {id : PrototypeId} {p : Prototype} {r : Rarity} {a : Affix} {i : Item}
  {t : LootTable}

theorem rarity?_eq_some_iff : c.rarity? id = some r ↔ c.prototypes.find? id = some (.rarity r) := by
  rw [rarity?]
  cases c.prototypes.find? id with
  | none => simp
  | some p => cases p <;> simp

theorem affix?_eq_some_iff : c.affix? id = some a ↔ c.prototypes.find? id = some (.affix a) := by
  rw [affix?]
  cases c.prototypes.find? id with
  | none => simp
  | some p => cases p <;> simp

theorem item?_eq_some_iff : c.item? id = some i ↔ c.prototypes.find? id = some (.item i) := by
  rw [item?]
  cases c.prototypes.find? id with
  | none => simp
  | some p => cases p <;> simp

theorem affixTable?_eq_some_iff {t : AffixTable} :
    c.affixTable? id = some t ↔ c.prototypes.find? id = some (.affixTable t) := by
  rw [affixTable?]
  cases c.prototypes.find? id with
  | none => simp
  | some p => cases p <;> simp

theorem lootTable?_eq_some_iff :
    c.lootTable? id = some t ↔ c.prototypes.find? id = some (.lootTable t) := by
  rw [lootTable?]
  cases c.prototypes.find? id with
  | none => simp
  | some p => cases p <;> simp

/-- The prototypes of one kind among others, by what is read of them. -/
theorem mem_filterMap_iff {α : Type} {read : Prototype → Option α} {make : α → Prototype}
    (reads : ∀ p a, read p = some a ↔ p = make a) {ps : List Prototype} {a : α} :
    a ∈ ps.filterMap read ↔ make a ∈ ps := by
  simp only [List.mem_filterMap, reads, exists_eq_right]

theorem mem_rarities_iff : r ∈ c.rarities ↔ .rarity r ∈ c.prototypes.values :=
  mem_filterMap_iff fun p r => by cases p <;> simp

theorem mem_affixes_iff : a ∈ c.affixes ↔ .affix a ∈ c.prototypes.values :=
  mem_filterMap_iff fun p a => by cases p <;> simp

theorem mem_items_iff : i ∈ c.items ↔ .item i ∈ c.prototypes.values :=
  mem_filterMap_iff fun p i => by cases p <;> simp

theorem mem_lootTables_iff : t ∈ c.lootTables ↔ .lootTable t ∈ c.prototypes.values :=
  mem_filterMap_iff fun p t => by cases p <;> simp

theorem mem_values_of_find? (found : c.prototypes.find? id = some p) : p ∈ c.prototypes.values :=
  List.mem_map_of_mem (SortedMap.find?_eq_some_iff.mp found)

theorem mem_affixes (found : c.affix? id = some a) : a ∈ c.affixes :=
  mem_affixes_iff.mpr (mem_values_of_find? (affix?_eq_some_iff.mp found))

theorem mem_lootTables (found : c.lootTable? id = some t) : t ∈ c.lootTables :=
  mem_lootTables_iff.mpr (mem_values_of_find? (lootTable?_eq_some_iff.mp found))

theorem isValid_of_item? {content : Content} (h : ofContent content = .ok c)
    (found : c.item? id = some i) : id.isValid = true :=
  isValid_of_find? h (item?_eq_some_iff.mp found)

variable (index : IsIndex c.prototypes)
include index

/-- A prototype of the catalog is the one that its identifier stands for, and no other one. -/
theorem find?_eq_some_iff_mem_values :
    c.prototypes.find? id = some p ↔ p ∈ c.prototypes.values ∧ p.id = id := by
  constructor
  · intro found
    exact ⟨mem_values_of_find? found, (index _ (SortedMap.find?_eq_some_iff.mp found)).symm⟩
  · rintro ⟨value, rfl⟩
    obtain ⟨⟨key, q⟩, entry, rfl⟩ := List.mem_map.mp value
    have same : key = q.id := index _ entry
    rw [← same]
    exact SortedMap.find?_eq_some_iff.mpr entry

theorem affix?_of_mem (h : a ∈ c.affixes) : c.affix? a.id = some a :=
  affix?_eq_some_iff.mpr ((find?_eq_some_iff_mem_values index).mpr ⟨mem_affixes_iff.mp h, rfl⟩)

theorem id_of_affix? (found : c.affix? id = some a) : a.id = id :=
  ((find?_eq_some_iff_mem_values index).mp (affix?_eq_some_iff.mp found)).2

theorem rarity?_eq_some_iff_mem_rarities : c.rarity? id = some r ↔ r ∈ c.rarities ∧ r.id = id := by
  rw [rarity?_eq_some_iff, find?_eq_some_iff_mem_values index, mem_rarities_iff, Prototype.id]

/-- The items of a catalog are what identifiers stand for, each under its own. -/
theorem item?_eq_some_iff_mem_items : c.item? id = some i ↔ i ∈ c.items ∧ i.id = id := by
  rw [item?_eq_some_iff, find?_eq_some_iff_mem_values index, mem_items_iff, Prototype.id]

theorem lootTable?_eq_some_iff_mem_lootTables :
    c.lootTable? id = some t ↔ t ∈ c.lootTables ∧ t.id = id := by
  rw [lootTable?_eq_some_iff, find?_eq_some_iff_mem_values index, mem_lootTables_iff, Prototype.id]

end

section
variable {content : Content} {c : Catalog} (registered : ofContent content = .ok c)
include registered

/-- The prototypes of a catalog were declared, and are in normal form. -/
theorem exists_normalize_of_mem_values {p : Prototype} (value : p ∈ c.prototypes.values) :
    ∃ q ∈ content.declared, q.normalize = p := by
  have index := ofContent_isIndex registered
  obtain ⟨q, declared, -, normal⟩ := (find?_eq_some_iff registered).mp
    ((find?_eq_some_iff_mem_values index).mpr ⟨value, rfl⟩)
  exact ⟨q, declared, normal⟩

theorem exists_normalize_of_mem_items {i : Item} (listed : i ∈ c.items) :
    ∃ raw : Item, raw.normalize = i := by
  obtain ⟨q, -, normal⟩ := exists_normalize_of_mem_values registered (mem_items_iff.mp listed)
  cases q with
  | item raw =>
    cases normal
    exact ⟨raw, rfl⟩
  | _ => cases normal

theorem exists_normalize_of_mem_lootTables {t : LootTable} (listed : t ∈ c.lootTables) :
    ∃ raw : LootNode, raw.normalize = t.root := by
  obtain ⟨q, -, normal⟩ := exists_normalize_of_mem_values registered (mem_lootTables_iff.mp listed)
  cases q with
  | lootTable raw =>
    cases normal
    exact ⟨raw.root, rfl⟩
  | _ => cases normal

end

end Catalog

end Spoils
