import Mathlib.Logic.Function.Iterate
import Spoils.Catalog.Lineage
import Spoils.Proofs.Catalog.Cycles
import Spoils.Proofs.Catalog.Declared

/-! Parents of prototypes: a walk along them comes back unreported only through prototypes that are
no items. -/
namespace Spoils.Catalog
variable {c : Catalog} {a b : PrototypeId} {n : Nat}

/-- The ancestor so many generations up, the identifier itself at zero. -/
def ancestor (c : Catalog) (id : PrototypeId) (n : Nat) : PrototypeId := c.parentOf^[n] id

theorem ancestor_succ : c.ancestor a (n + 1) = c.parentOf (c.ancestor a n) :=
  Function.iterate_succ_apply' c.parentOf n a

theorem ancestor_add {m : Nat} : c.ancestor (c.ancestor a m) n = c.ancestor a (m + n) := by
  rw [ancestor, ancestor, ancestor, ← Function.iterate_add_apply, Nat.add_comm]

theorem found_of_parentOf (h : (c.parentOf a).isValid = true) :
    ∃ p, c.prototypes.find? a = some p := by
  rw [parentOf] at h
  split at h
  · rename_i p found
    exact ⟨p, found⟩
  · cases h

theorem item_or_named (h : (c.parentOf a).isValid = true) :
    (∃ i, c.item? a = some i) ∨ ∃ p, c.prototypes.find? a = some (.named p) := by
  obtain ⟨p, found⟩ := found_of_parentOf h
  rw [parentOf, found] at h
  cases p with
  | item i => exact .inl ⟨i, item?_eq_some_iff.mpr found⟩
  | named p => exact .inr ⟨p, found⟩
  | _ => cases h

variable (index : IsIndex c.prototypes)
include index

/-- An edge leads from an item to its parent, if the catalog contains it. -/
theorem mem_itemParents : (a, b) ∈ c.itemParents ↔
    (∃ i, c.item? a = some i) ∧ c.parentOf a = b ∧ b.isValid = true ∧ c.contains b = true := by
  simp only [itemParents, List.mem_map, List.mem_filter, Bool.and_eq_true, Prod.mk.injEq]
  have parent {i : Item} (found : c.item? a = some i) : c.parentOf a = i.parent := by
    rw [parentOf, item?_eq_some_iff.mp found]
    rfl
  constructor
  · rintro ⟨i, ⟨listed, valid, known⟩, same, rfl⟩
    have found := (item?_eq_some_iff_mem_items index).mpr ⟨listed, same⟩
    exact ⟨⟨i, found⟩, parent found, valid, known⟩
  · rintro ⟨⟨i, found⟩, rfl, valid, known⟩
    obtain ⟨listed, same⟩ := (item?_eq_some_iff_mem_items index).mp found
    rw [parent found] at valid known
    exact ⟨i, ⟨listed, valid, known⟩, same, (parent found).symm⟩

/-- A path of parents of items leads some generations up, past items only. -/
theorem ancestor_of_reaches (h : c.itemParents.Reaches a b) :
    ∃ n, 0 < n ∧ c.ancestor a n = b ∧ ∀ k, k < n → ∃ i, c.item? (c.ancestor a k) = some i := by
  induction h with
  | single edge =>
    obtain ⟨item, parent, -⟩ := (mem_itemParents index).mp edge
    refine ⟨1, Nat.one_pos, parent, fun k first => ?_⟩
    obtain rfl : k = 0 := Nat.lt_one_iff.mp first
    exact item
  | tail _ edge ih =>
    obtain ⟨n, -, rfl, items⟩ := ih
    obtain ⟨item, parent, -⟩ := (mem_itemParents index).mp edge
    refine ⟨n + 1, Nat.succ_pos n, parent ▸ ancestor_succ, fun k before => ?_⟩
    rcases Nat.lt_succ_iff_lt_or_eq.mp before with earlier | rfl
    · exact items k earlier
    · exact item

omit index in
theorem reaches_ancestor {g : Edges} (up : 0 < n)
    (edge : ∀ k, k < n → (c.ancestor a k, c.ancestor a (k + 1)) ∈ g) :
    g.Reaches a (c.ancestor a n) := by
  induction n with
  | zero => exact absurd up (Nat.lt_irrefl 0)
  | succ n ih =>
    have last := edge n (Nat.lt_succ_self n)
    rcases Nat.eq_zero_or_pos n with rfl | more
    · exact .single last
    · exact .tail (ih more fun k before => edge k (Nat.lt_succ_of_lt before)) last

omit index
variable {content : Content} (registered : ofContent content = .ok c)
include registered

theorem isValid_ancestor {m k : Nat} (h : (c.ancestor a (k + m)).isValid = true) :
    (c.ancestor a k).isValid = true := by
  induction m with
  | zero => exact h
  | succ m ih =>
    rw [← Nat.add_assoc, ancestor_succ] at h
    obtain ⟨p, found⟩ := found_of_parentOf h
    exact ih (isValid_of_find? registered found)

/-- A cycle of parents of items is reported exactly if some item is its own ancestor, past items
only. -/
theorem reportsCycle_parent_iff :
    c.ReportsCycle .parent ↔ ∃ a n, 0 < n ∧ c.ancestor a n = a ∧
      ∀ k, k < n → ∃ i, c.item? (c.ancestor a k) = some i := by
  have index := ofContent_isIndex registered
  rw [reportsCycle_iff]
  refine exists_congr fun a => ⟨ancestor_of_reaches index, ?_⟩
  rintro ⟨n, up, loop, items⟩
  have known (k : Nat) (hk : k ≤ n) :
      ∃ i, c.prototypes.find? (c.ancestor a k) = some (.item i) := by
    have same : ∃ j, j < n ∧ c.ancestor a j = c.ancestor a k := by
      rcases Nat.lt_or_eq_of_le hk with before | rfl
      · exact ⟨k, before, rfl⟩
      · exact ⟨0, up, loop.symm⟩
    obtain ⟨j, before, same⟩ := same
    obtain ⟨i, found⟩ := items j before
    exact ⟨i, same ▸ item?_eq_some_iff.mp found⟩
  have edge (k : Nat) (hk : k < n) : (c.ancestor a k, c.ancestor a (k + 1)) ∈ c.itemParents := by
    obtain ⟨i, found⟩ := known (k + 1) hk
    refine (mem_itemParents index).mpr
      ⟨items k hk, ancestor_succ.symm, isValid_of_find? registered found, ?_⟩
    rw [contains, SortedMap.contains, found, Option.isSome_some]
  have path := reaches_ancestor up edge
  rwa [loop] at path

/-- An identifier that is its own ancestor, without a report, has a named prototype on the way. -/
theorem exists_named_of_loop (quiet : ¬ c.ReportsCycle .parent) (valid : a.isValid = true)
    (up : 0 < n) (loop : c.ancestor a n = a) :
    ∃ k p, k < n ∧ c.prototypes.find? (c.ancestor a k) = some (.named p) := by
  by_contra unnamed
  refine quiet ((reportsCycle_parent_iff registered).mpr ⟨a, n, up, loop, fun k before => ?_⟩)
  have parent : (c.parentOf (c.ancestor a k)).isValid = true := by
    rw [← ancestor_succ]
    refine isValid_ancestor (m := n - (k + 1)) registered ?_
    rwa [Nat.add_sub_cancel' before, loop]
  exact (item_or_named parent).resolve_right fun ⟨p, found⟩ => unnamed ⟨k, p, before, found⟩

/-- No cycle of parents of items is reported exactly if every identifier that is its own ancestor
has a named prototype on the way. Then a walk along parents never comes to an identifier again
exactly if no named prototype that it meets is its own ancestor. -/
theorem ancestor_returns :
    (¬ c.ReportsCycle .parent ↔ ∀ id n, id.isValid = true → 0 < n → c.ancestor id n = id →
      ∃ k p, k < n ∧ c.prototypes.find? (c.ancestor id k) = some (.named p)) ∧
    (¬ c.ReportsCycle .parent → ∀ id,
      (∀ m n, m < n → (c.ancestor id n).isValid = true → c.ancestor id n ≠ c.ancestor id m) ↔
        ∀ m p, c.prototypes.find? (c.ancestor id m) = some (.named p) →
          ∀ n, 0 < n → c.ancestor id (m + n) ≠ c.ancestor id m) := by
  refine ⟨⟨fun quiet id n => exists_named_of_loop registered quiet, fun named reported => ?apart⟩,
    fun quiet id => ⟨fun distinct m p found n up same => ?forth,
      fun acyclic m n before valid same => ?back⟩⟩
  case apart =>
    obtain ⟨id, n, up, loop, items⟩ := (reportsCycle_parent_iff registered).mp reported
    obtain ⟨i, first⟩ := items 0 up
    obtain ⟨k, p, before, found⟩ := named id n (isValid_of_item? registered first) up loop
    obtain ⟨j, item⟩ := items k before
    cases (item?_eq_some_iff.mp item).symm.trans found
  case forth =>
    have valid := isValid_of_find? registered found
    exact distinct m (m + n) (Nat.lt_add_of_pos_right up) (same ▸ valid) same
  case back =>
    -- The walk goes around from `m` on, and so past a named prototype.
    have around : c.ancestor (c.ancestor id m) (n - m) = c.ancestor id m := by
      rw [ancestor_add, Nat.add_sub_cancel' (Nat.le_of_lt before), same]
    obtain ⟨k, p, -, found⟩ :=
      exists_named_of_loop registered quiet (same ▸ valid) (Nat.sub_pos_of_lt before) around
    rw [ancestor_add] at found
    refine acyclic (m + k) p found (n - m) (Nat.sub_pos_of_lt before) ?_
    calc c.ancestor id (m + k + (n - m))
        = c.ancestor (c.ancestor (c.ancestor id m) (n - m)) k := by
          rw [ancestor_add, ancestor_add]
          congr 1
          omega
      _ = c.ancestor id (m + k) := by rw [around, ancestor_add]

omit registered

/-- Items below a keyword that has no parent are not met again. -/
theorem ancestor_returns_keyword :
    let content : Content := {
      items := [{ id := ⟨1⟩, parent := ⟨3⟩ }, { id := ⟨3⟩, parent := ⟨2⟩ }]
      prototypes := [{ id := ⟨2⟩, kind := .keyword }] }
    ∃ c, ofContent content = .ok c ∧ ¬ c.ReportsCycle .parent ∧ c.ancestor ⟨1⟩ 2 = ⟨2⟩ ∧
      ∀ m n, m < n → (c.ancestor ⟨1⟩ n).isValid = true → c.ancestor ⟨1⟩ n ≠ c.ancestor ⟨1⟩ m := by
  intro content
  have quiet {c : Catalog} (clean : c.issues = []) : ¬ c.ReportsCycle .parent := by
    rintro ⟨i, found, -⟩
    rw [clean] at found
    cases found
  have distinct {c : Catalog} (registered : ofContent content = .ok c) (clean : c.issues = [])
      (root : c.parentOf ⟨2⟩ = .none) (none : c.parentOf .none = .none) :
      ∀ m n, m < n → (c.ancestor ⟨1⟩ n).isValid = true → c.ancestor ⟨1⟩ n ≠ c.ancestor ⟨1⟩ m := by
    refine ((ancestor_returns registered).2 (quiet clean) ⟨1⟩).mpr fun m p found n up => ?_
    have keyword : c.ancestor ⟨1⟩ m = ⟨2⟩ := by
      obtain ⟨q, declared, named, normal⟩ := (find?_eq_some_iff registered).mp found
      cases Prototype.normalize_eq_named_iff.mp normal
      have only : p = { id := ⟨2⟩, kind := .keyword } := by
        simpa [content, Content.declared] using declared
      rw [← named, only, Prototype.id]
    have above (n : Nat) : c.ancestor ⟨2⟩ (n + 1) = .none := by
      induction n with
      | zero => exact root
      | succ n ih => rw [ancestor_succ, ih, none]
    rw [← ancestor_add, keyword, ← Nat.sub_add_cancel up, above]
    decide
  have registered : ofContent content = .ok _ := rfl
  refine ⟨_, registered, quiet ?clean, ?up, distinct registered ?clean ?root ?none⟩
  case clean => decide +kernel
  case up => rfl
  case root => rfl
  case none => rfl

/-- A cycle that alternates between an item and a keyword is not reported. -/
theorem ancestor_returns_unreported :
    ∃ c, ofContent {
      items := [{ id := ⟨1⟩, parent := ⟨2⟩ }]
      prototypes := [{ id := ⟨2⟩, kind := .keyword, parent := ⟨1⟩ }] } = .ok c ∧
      c.issues = [] ∧ (c.items.map (·.id)) = [⟨1⟩] ∧ c.ancestor ⟨1⟩ 2 = ⟨1⟩ :=
  ⟨_, rfl, rfl, rfl, rfl⟩

end Spoils.Catalog
