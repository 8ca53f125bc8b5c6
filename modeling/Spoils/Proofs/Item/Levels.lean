import Spoils.Proofs.Catalog.Index
import Spoils.Proofs.Item.Restriction
import Spoils.Roll.World

/-! Adjusting a draft leaves its level at the least level or above, if the restrictions ask for no
lower one. -/
namespace Spoils

namespace Restriction

/-- By itself the restriction asks for no level below the least. -/
def KeepsLeast : Restriction → Prop
  | .level min range => minItemLevel ≤ min ∧ EndFits min range
  | .outputLevel value _ => minItemLevel ≤ value
  | _ => True

/-- In normal form every range of levels begins at the least level or above. -/
theorem le_of_level_mem_partsOfAll {min range : Int} (rs : List Restriction)
    (h : .level min range ∈ partsOfAll (normalizeAll rs)) : minItemLevel ≤ min := by
  rw [partsOfAll_normalize] at h
  obtain ⟨raw, -, normal⟩ := List.mem_map.mp h
  cases raw with
  | level lo hi =>
    simp only [normalize, level.injEq] at normal
    rw [← normal.1]
    exact Int.le_max_right lo 1
  | _ => simp only [normalize, reduceCtorEq] at normal

private theorem le_clampLevel {lo range level least : Int} (h : least ≤ lo)
    (fits : EndFits lo range) : least ≤ clampLevel lo range level := by
  rw [clampLevel_eq fits]
  split <;> omega

theorem le_adjust (i : Inspection) (r : Restriction) (a : Adjustment)
    (keeps : ∀ p ∈ r.parts, p.KeepsLeast) (h : minItemLevel ≤ a.draft.level) :
    minItemLevel ≤ (adjust i r a).2.draft.level := by
  have own := keeps r (mem_parts_self r)
  induction r generalizing a with
  | level lo range =>
    simp only [adjust]
    split
    · exact h
    · exact le_clampLevel own.1 own.2
  | outputLevel value filter =>
    simp only [adjust]
    split
    · exact h
    · exact own
  | conditional occasions inside outside here elsewhere =>
    have nested := (List.forall_mem_cons.mp keeps).2
    rw [List.forall_mem_append, forall_mem_partsOfAll, forall_mem_partsOfAll] at nested
    rw [adjust]
    split
    · exact adjustAll_keeps (fun r listed b hb =>
        here r listed b (nested.1 r listed) hb (nested.1 r listed r (mem_parts_self r))) h
    · exact adjustAll_keeps (fun r listed b hb =>
        elsewhere r listed b (nested.2 r listed) hb (nested.2 r listed r (mem_parts_self r))) h
  | rarity | rank | slot =>
    simp only [adjust]
    repeat' split
    all_goals exact h
  | outputRarity | outputRank =>
    simp only [adjust]
    split <;> exact h
  | usableBy | itemParent | occasion => exact h

theorem le_adjustAll (i : Inspection) (rs : List Restriction) (a : Adjustment)
    (keeps : ∀ p ∈ partsOfAll rs, p.KeepsLeast) (h : minItemLevel ≤ a.draft.level) :
    minItemLevel ≤ (adjustAll i rs a).2.draft.level :=
  adjustAll_keeps (fun r listed b => le_adjust i r b (forall_mem_partsOfAll.mp keeps r listed)) h

end Restriction

namespace World
variable {w : World}

theorem le_adjust (keeps : ∀ id item, w.catalog.item? id = some item →
      ∀ r ∈ Restriction.partsOfAll item.restrictions, r.KeepsLeast)
    (checks : Checks) {d : Draft} (h : minItemLevel ≤ d.level) :
    minItemLevel ≤ (w.adjust checks d).2.level := by
  simp only [adjust]
  split
  · exact h
  · rename_i item found
    have run := Restriction.le_adjustAll (w.inspection checks) item.restrictions ⟨d, .none⟩
      (keeps _ item found) h
    simp only [Item.makeDroppable]
    split
    · exact h
    · split <;> rename_i _ adjusted <;> rw [adjusted] at run <;> exact run

end World

end Spoils
