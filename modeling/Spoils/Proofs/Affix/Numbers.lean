import Spoils.Proofs.Affix.Counts

/-! How many affixes of a draft satisfy a condition. As long as there are few enough it is the count
that the limits are compared with. -/
namespace Spoils

namespace Draft
variable {c : Catalog} {d : Draft} {q : Affix → Bool}

/-- How many affixes of the draft satisfy a condition; unknown ones satisfy none. -/
def numberOf (c : Catalog) (d : Draft) (q : Affix → Bool) : Nat :=
  d.affixes.countP fun a => (c.affix? a.affix).any q

def numberIn (c : Catalog) (d : Draft) (category : PrototypeId) : Nat :=
  d.numberOf c fun a => a.hasCategory category

theorem numberAt_eq (c : Catalog) (d : Draft) (p : AffixPosition) :
    d.numberAt c p = d.numberOf c fun a => a.position == p := by
  rw [numberAt, affixIds, List.countP_map]
  rfl

theorem numberOf_le_length (c : Catalog) (d : Draft) (q : Affix → Bool) :
    d.numberOf c q ≤ d.affixes.length := List.countP_le_length

/-- Up to the greatest sixteen-bit number a count is exact. -/
theorem countAffixes_eq (few : d.numberOf c q < 32768) :
    d.countAffixes c q = d.numberOf c q := by
  rw [countAffixes, ← numberOf]
  exact count16_eq (by omega)

theorem numberOf_append (c : Catalog) (d : Draft) (as : List AttachedAffix) (q : Affix → Bool) :
    ({ d with affixes := d.affixes ++ as } : Draft).numberOf c q =
      d.numberOf c q + as.countP fun a => (c.affix? a.affix).any q := List.countP_append

end Draft

end Spoils
