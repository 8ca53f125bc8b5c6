import Mathlib.Data.List.Basic
import Spoils.Item.Restriction

/-! Nested restrictions: induction over them, their parts, ranges of levels that fit their words, and
what is kept by adjusting to one of them after the other. -/
namespace Spoils

namespace Restriction

mutual

/-- The restriction itself and those nested in it. -/
def parts : Restriction → List Restriction
  | .conditional occasions inside outside =>
    .conditional occasions inside outside :: (partsOfAll inside ++ partsOfAll outside)
  | r => [r]

def partsOfAll : List Restriction → List Restriction
  | [] => []
  | r :: rs => parts r ++ partsOfAll rs

end

@[elab_as_elim, induction_eliminator]
theorem nestedInduction {motive : Restriction → Prop}
    (level : ∀ min range, motive (.level min range))
    (rarity : ∀ allowed, motive (.rarity allowed))
    (rank : ∀ allowed, motive (.rank allowed))
    (slot : ∀ allowed, motive (.slot allowed))
    (usableBy : ∀ avatars, motive (.usableBy avatars))
    (itemParent : ∀ allowed, motive (.itemParent allowed))
    (occasion : ∀ allowed, motive (.occasion allowed))
    (outputLevel : ∀ value filter, motive (.outputLevel value filter))
    (outputRarity : ∀ value filter, motive (.outputRarity value filter))
    (outputRank : ∀ value filter, motive (.outputRank value filter))
    (conditional : ∀ occasions inside outside, (∀ r ∈ inside, motive r) →
      (∀ r ∈ outside, motive r) → motive (.conditional occasions inside outside))
    (r : Restriction) : motive r := by
  refine @Restriction.rec motive (fun rs => ∀ r ∈ rs, motive r) level rarity rank slot usableBy
    itemParent occasion outputLevel outputRarity outputRank conditional ?nil ?cons r
  case nil => exact List.forall_mem_nil motive
  case cons => exact fun _ _ first later => List.forall_mem_cons.mpr ⟨first, later⟩

/-! The functions of lists that the recursion goes through. -/

theorem normalizeAll_eq (rs : List Restriction) : normalizeAll rs = rs.map (·.normalize) := by
  induction rs with
  | nil => rfl
  | cons r rs ih => rw [normalizeAll, ih, List.map_cons]

theorem partsOfAll_eq (rs : List Restriction) : partsOfAll rs = rs.flatMap parts := by
  induction rs with
  | nil => rfl
  | cons r rs ih => rw [partsOfAll, ih, List.flatMap_cons]

theorem allowsAll_iff {i : Inspection} {rs : List Restriction} {d : Draft} :
    allowsAll i rs d = true ↔ ∀ r ∈ rs, allows i r d = true := by
  induction rs with
  | nil => simp [allowsAll]
  | cons r rs ih => rw [allowsAll, Bool.and_eq_true, ih, List.forall_mem_cons]

theorem forall_mem_partsOfAll {P : Restriction → Prop} {rs : List Restriction} :
    (∀ p ∈ partsOfAll rs, P p) ↔ ∀ r ∈ rs, ∀ p ∈ r.parts, P p := by
  rw [partsOfAll_eq, List.forall_mem_flatMap]

theorem mem_parts_self (r : Restriction) : r ∈ r.parts := by
  cases r <;> simp [parts]

theorem partsOfAll_normalize_of {rs : List Restriction}
    (each : ∀ r ∈ rs, r.normalize.parts = r.parts.map (·.normalize)) :
    partsOfAll (normalizeAll rs) = (partsOfAll rs).map (·.normalize) := by
  rw [normalizeAll_eq, partsOfAll_eq, partsOfAll_eq, List.flatMap_map, List.map_flatMap]
  exact List.flatMap_congr each

theorem parts_normalize (r : Restriction) : r.normalize.parts = r.parts.map (·.normalize) := by
  induction r with
  | conditional occasions inside outside here elsewhere =>
    simp only [normalize, parts, List.map_cons, List.map_append, partsOfAll_normalize_of here,
      partsOfAll_normalize_of elsewhere]
  | _ => simp only [normalize, parts, List.map_cons, List.map_nil]

theorem partsOfAll_normalize (rs : List Restriction) :
    partsOfAll (normalizeAll rs) = (partsOfAll rs).map (·.normalize) :=
  partsOfAll_normalize_of fun r _ => r.parts_normalize

/-- The end of the range of levels, if it has one, fits the word that holds it. -/
def EndFits (lo range : Int) : Prop := 0 ≤ range → Bounds.int32.contains (lo + range) = true

theorem clampLevel_eq {lo range : Int} (fits : EndFits lo range) (level : Int) :
    clampLevel lo range level =
      if 0 ≤ range then min (max level lo) (lo + range) else max level lo := by
  rw [clampLevel]
  split
  · rename_i bounded
    rw [Bounds.wrap_eq_self (fits bounded)]
  · rfl

/-- What adjusting to every single restriction keeps is kept by adjusting to all of them. -/
theorem adjustAll_keeps {P : Adjustment → Prop} {i : Inspection} {rs : List Restriction}
    {a : Adjustment} (each : ∀ r ∈ rs, ∀ b, P b → P (adjust i r b).2) (h : P a) :
    P (adjustAll i rs a).2 := by
  induction rs generalizing a with
  | nil => exact h
  | cons r rs ih =>
    obtain ⟨this, later⟩ := List.forall_mem_cons.mp each
    have first := this a h
    rw [adjustAll]
    generalize adjust i r a = result at first ⊢
    obtain ⟨_ | _, b⟩ := result
    · exact first
    · exact ih later first

end Restriction

end Spoils
