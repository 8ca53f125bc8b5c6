import Spoils.Proofs.Item.Reports
import Spoils.Roll.World

/-! What restrictions see of a draft and of the checks, and what an adjustment leaves alone. -/
namespace Spoils

/-- Restrictions cannot tell these drafts apart. -/
structure Draft.SameDrop (d e : Draft) : Prop where
  item : d.item = e.item
  rarity : d.rarity = e.rarity
  level : d.level = e.level
  rank : d.rank = e.rank
  slot : d.slot = e.slot
  rollFor : d.rollFor = e.rollFor

/-- The second set makes every check of the first that restrictions read. -/
structure Checks.Within (a b : Checks) : Prop where
  level : a.level = true → b.level = true
  rarity : a.rarity = true → b.rarity = true
  rank : a.rank = true → b.rank = true
  slot : a.slot = true → b.slot = true
  usableBy : a.usableBy = true → b.usableBy = true
  itemParent : a.itemParent = true → b.itemParent = true

theorem Checks.Within.refl (c : Checks) : c.Within c := ⟨id, id, id, id, id, id⟩

private theorem waive {made more met : Bool} (fewer : made = true → more = true)
    (h : (!more || met) = true) : (!made || met) = true := by
  cases made with
  | false => rfl
  | true => rwa [fewer rfl] at h

namespace Restriction
variable {i : Inspection} {checks : Checks} {d e : Draft}

/-- A restriction that is met stays met when fewer checks are made. -/
theorem allows_weaken (hc : checks.Within i.checks) (hd : d.SameDrop e) (r : Restriction)
    (h : allows i r d = true) : allows { i with checks := checks } r e = true := by
  induction r with
  | level lo range =>
    simp only [allows, ← hd.level] at h ⊢
    exact waive hc.level h
  | rarity allowed =>
    simp only [allows, ← hd.rarity] at h ⊢
    exact waive hc.rarity h
  | rank allowed =>
    simp only [allows, ← hd.rank] at h ⊢
    exact waive hc.rank h
  | slot allowed =>
    simp only [allows, ← hd.slot, Bool.and_eq_true] at h ⊢
    exact h.imp_right (waive hc.slot)
  | usableBy avatars =>
    simp only [allows, ← hd.rollFor, Bool.or_assoc, Bool.and_eq_true] at h ⊢
    exact h.imp_right (waive hc.usableBy)
  | itemParent allowed =>
    simp only [allows, ← hd.item, Bool.and_eq_true] at h ⊢
    exact h.imp_right (waive hc.itemParent)
  | occasion allowed => simpa only [allows] using h
  | outputLevel value filter =>
    rw [allows, Bool.or_assoc, Bool.or_eq_true, ← hd.level]
    rw [allows, Bool.or_assoc, Bool.or_eq_true] at h
    exact h.imp_right (waive hc.level)
  | outputRarity value filter =>
    rw [allows, Bool.or_assoc, Bool.or_eq_true, ← hd.rarity]
    rw [allows, Bool.or_assoc, Bool.or_eq_true] at h
    exact h.imp_right (waive hc.rarity)
  | outputRank value filter =>
    rw [allows, Bool.or_assoc, Bool.or_eq_true, ← hd.rank]
    rw [allows, Bool.or_assoc, Bool.or_eq_true] at h
    exact h.imp_right (waive hc.rank)
  | conditional occasions inside outside here elsewhere =>
    simp only [allows] at h ⊢
    split
    · rename_i hit
      rw [if_pos hit, allowsAll_iff] at h
      exact allowsAll_iff.mpr fun r listed => here r listed (h r listed)
    · rename_i miss
      rw [if_neg miss, allowsAll_iff] at h
      exact allowsAll_iff.mpr fun r listed => elsewhere r listed (h r listed)

private theorem allowsAll_weaken (hc : checks.Within i.checks) (hd : d.SameDrop e)
    (rs : List Restriction) (h : allowsAll i rs d = true) :
    allowsAll { i with checks := checks } rs e = true :=
  allowsAll_iff.mpr fun r listed => allows_weaken hc hd r (allowsAll_iff.mp h r listed)

end Restriction

theorem Restriction.adjustAll_adjusts (i : Inspection) (rs : List Restriction) (a : Adjustment) :
    a.draft.Adjusts (adjustAll i rs a).2.draft :=
  (adjustAll_accounts rs (.refl i a)).permitted.rest

namespace Item
variable {item : Item} {i : Inspection} {checks adjusted : Checks} {d e : Draft}

theorem isDroppable_iff : item.isDroppable i d = true ↔ item.isAbstract = false ∧
    (i.checks.usableBy = true → d.rollFor.isValid = true → item.isUsableBy d.rollFor = true) ∧
    (i.checks.slot = true → d.slot.isGear = true → item.slot.isGear = true → d.slot = item.slot) ∧
    Restriction.allowsAll i item.restrictions d = true := by
  simp only [isDroppable, Bool.and_eq_true, Bool.not_eq_true', Bool.and_eq_false_imp, and_assoc,
    and_imp, Bool.not_eq_false', bne_eq_false_iff_eq]

theorem isDroppable_weaken (hc : checks.Within i.checks) (hd : d.SameDrop e)
    (h : item.isDroppable i d = true) : item.isDroppable { i with checks := checks } e = true := by
  simp only [isDroppable, Bool.and_eq_true] at h ⊢
  obtain ⟨⟨⟨concrete, usable⟩, fits⟩, allowed⟩ := h
  refine ⟨⟨⟨concrete, ?_⟩, ?_⟩, Restriction.allowsAll_weaken hc hd item.restrictions allowed⟩
  · simp only [Bool.not_and, Bool.or_assoc, ← hd.rollFor] at usable ⊢
    exact waive hc.usableBy usable
  · simp only [Bool.not_and, Bool.or_assoc, ← hd.slot] at fits ⊢
    exact waive hc.slot fits

private theorem makeDroppable_adjusts (item : Item) (i : Inspection) (d : Draft) :
    d.Adjusts (item.makeDroppable i d).2 := by
  obtain ⟨a, account, ended, -⟩ := item.makeDroppable_accounts i d
  rw [ended]
  exact account.permitted.rest

theorem makeDroppable_eq_some_iff : item.makeDroppable i d = (some adjusted, e) ↔
    Restriction.adjustAll i item.restrictions ⟨d, .none⟩ = (true, ⟨e, adjusted⟩) ∧
      item.isDroppable i e = true := by
  rw [makeDroppable]
  split
  · rename_i hidden
    simp [isDroppable, hidden]
  · rcases Restriction.adjustAll i item.restrictions ⟨d, .none⟩ with ⟨_ | _, ⟨f, noted⟩⟩
    · simp
    · by_cases drops : item.isDroppable i f = true
      · simp only [drops, if_true, Prod.mk.injEq, Option.some.injEq, Adjustment.mk.injEq, true_and]
        constructor
        · rintro ⟨rfl, rfl⟩
          exact ⟨⟨rfl, rfl⟩, drops⟩
        · rintro ⟨⟨rfl, rfl⟩, -⟩
          exact ⟨rfl, rfl⟩
      · simp only [drops, Bool.false_eq_true, if_false, Prod.mk.injEq, reduceCtorEq, false_and,
          Adjustment.mk.injEq, true_and, false_iff, not_and]
        rintro ⟨rfl, -⟩
        exact drops

theorem makeDroppable_isDroppable (h : (item.makeDroppable i d).1.isSome = true) :
    item.isDroppable i (item.makeDroppable i d).2 = true := by
  simp only [makeDroppable] at h ⊢
  split at h
  · cases h
  · rename_i concrete
    rw [if_neg concrete]
    split at h
    · cases h
    · split at h
      · assumption
      · cases h

end Item

namespace World
variable {w : World} {checks : Checks} {d e : Draft}

/-- An accepted draft is accepted when fewer checks are made. -/
theorem accepts_weaken {fewer : Checks} (hc : fewer.Within checks) (hd : d.SameDrop e)
    (h : w.accepts checks d = true) : w.accepts fewer e = true := by
  simp only [accepts, Option.any_eq_true_iff_get, ← hd.item] at h ⊢
  obtain ⟨known, h⟩ := h
  exact ⟨known, Item.isDroppable_weaken hc hd h⟩

theorem accepts_same (hd : d.SameDrop e) (h : w.accepts checks d = true) :
    w.accepts checks e = true := accepts_weaken (.refl checks) hd h

theorem adjust_adjusts (w : World) (checks : Checks) (d : Draft) :
    d.Adjusts (w.adjust checks d).2 := by
  simp only [adjust]
  split
  · rfl
  · exact Item.makeDroppable_adjusts _ _ d

theorem adjust_accepts (h : (w.adjust checks d).1 = true) :
    w.accepts checks (w.adjust checks d).2 = true := by
  have same := (adjust_adjusts w checks d).item_eq
  simp only [accepts, same]
  simp only [adjust] at h ⊢
  split at h
  · cases h
  · rename_i item found
    simp only [found, Option.any_some]
    exact Item.makeDroppable_isDroppable h

end World

end Spoils
