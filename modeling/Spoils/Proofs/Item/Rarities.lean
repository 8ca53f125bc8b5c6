import Spoils.Item.Restriction
import Spoils.Proofs.Catalog.Tiers

/-! Rarities that are not allowed: where a draft is brought to, and that it is not brought up from a
rarity that is no lower than the first allowed one. -/
namespace Spoils

namespace Catalog
variable {c : Catalog} {allowed : List PrototypeId} {lowest highest rarity next x : PrototypeId}

theorem one_le_tier (c : Catalog) (r : Rarity) : 1 ≤ c.tier r := by
  rw [tier]
  exact Nat.le_add_left 1 _

theorem allowedBelow_eq_some {steps : Nat} (h : c.allowedBelow allowed steps next = some x) :
    next.isValid = true ∧ x ∈ allowed ∧ Relation.ReflTransGen c.Downgrades next x := by
  induction steps generalizing next with
  | zero => cases h
  | succ steps ih =>
    rw [allowedBelow] at h
    split at h
    · cases h
    · rename_i valid
      rw [Bool.not_eq_true', Bool.not_eq_false] at valid
      refine ⟨valid, ?_⟩
      split at h
      · rename_i listed
        cases h
        exact ⟨List.contains_iff_mem.mp listed, .refl⟩
      · split at h
        · rename_i r found
          obtain ⟨valid', listed, path⟩ := ih h
          exact ⟨listed, .head ⟨⟨r, found, rfl⟩, valid'⟩ path⟩
        · cases h

private theorem clampRarity_mem (first : lowest ∈ allowed) (last : highest ∈ allowed) :
    c.clampRarity allowed lowest highest rarity ∈ allowed := by
  simp only [clampRarity]
  split
  · exact first
  · split
    · exact first
    · split
      · exact last
      · rcases below : c.allowedBelow _ _ _ with _ | x
        · exact first
        · exact (allowedBelow_eq_some below).2.1

/-- A rarity of the lowest tier at least is not brought to a higher tier than its own. What is no
rarity counts as one of the first tier. -/
theorem tier_clampRarity_le {content : Content} (registered : ofContent content = .ok c)
    {r : Rarity} (found : c.rarity? rarity = some r)
    (enough : (c.tier? lowest).getD 1 ≤ c.tier r) :
    (c.tier? (c.clampRarity allowed lowest highest rarity)).getD 1 ≤ c.tier r := by
  simp only [clampRarity, found]
  -- Below the lowest one, which `enough` rules out, above the highest one, or between them.
  split
  · exact enough
  · split
    · rename_i above
      rcases top : c.tier? highest with _ | t
      · exact c.one_le_tier r
      · rw [top] at above
        exact Nat.le_of_lt above
    · rcases below : c.allowedBelow _ _ _ with _ | x
      · exact enough
      · obtain ⟨valid, -, path⟩ := allowedBelow_eq_some below
        change (c.tier? x).getD 1 ≤ c.tier r
        rcases known : c.rarity? x with _ | s
        · rw [tier?, known]
          exact c.one_le_tier r
        · rw [tier?, known]
          exact tier_le registered found (.head ⟨⟨r, found, rfl⟩, valid⟩ path) known

end Catalog

namespace Restriction
variable {i : Inspection} {a : Adjustment} {allowed : List PrototypeId}

/-- Where no output has a say in the rarity, a draft gets an allowed one. If the old rarity was no
lower than the first allowed one, the new one is no higher than the old. What is no rarity counts as
one of the first tier. -/
theorem adjust_rarity_lands {content : Content}
    (registered : Catalog.ofContent content = .ok i.catalog) (listed : allowed ≠ [])
    (checked : i.checks.rarity = true) (free : i.checks.output = false)
    (unforced : a.adjusted.outputRarity = false) :
    ∃ b, adjust i (.rarity allowed) a = (true, b) ∧ b.draft.rarity ∈ allowed ∧
      ∀ tier, i.catalog.tier? a.draft.rarity = some tier →
        (i.catalog.tier? (allowed.head listed)).getD 1 ≤ tier →
        (i.catalog.tier? b.draft.rarity).getD 1 ≤ tier := by
  rw [adjust]
  split
  · rename_i met
    rw [unforced, free, Bool.or_false, Bool.or_false, allows, checked] at met
    refine ⟨a, rfl, List.contains_iff_mem.mp met, fun tier old _ => ?_⟩
    rw [old]
    exact Nat.le_refl tier
  · rw [List.head?_eq_some_head listed, List.getLast?_eq_some_getLast listed]
    refine ⟨_, rfl, Catalog.clampRarity_mem (List.head_mem listed) (List.getLast_mem listed), ?_⟩
    intro tier old enough
    obtain ⟨r, found, rfl⟩ := Option.map_eq_some_iff.mp old
    exact Catalog.tier_clampRarity_le registered found enough

/-- From the rarity above a cycle the first allowed one on the cycle is reached; the lowest allowed
one is none of the catalog. -/
theorem adjust_rarity_cycle :
    let content : Content := {
      rarities := [{ id := ⟨10⟩, downgradeTo := ⟨11⟩ }, { id := ⟨11⟩, downgradeTo := ⟨12⟩ },
        { id := ⟨12⟩, downgradeTo := ⟨11⟩ }, { id := ⟨13⟩, downgradeTo := ⟨10⟩ }] }
    let allowed : List PrototypeId := [⟨20⟩, ⟨12⟩, ⟨13⟩]
    let a : Adjustment := { draft := { rarity := ⟨10⟩ } }
    ∃ c, Catalog.ofContent content = .ok c ∧ c.tier? ⟨10⟩ = some 3 ∧ c.tier? ⟨20⟩ = none ∧
      ∃ b, adjust ⟨c, .drop, .all⟩ (.rarity allowed) a = (true, b) ∧ b.draft.rarity = ⟨12⟩ ∧
        (c.tier? b.draft.rarity).getD 1 ≤ 3 := by
  intro content allowed a
  have lands {c : Catalog} (registered : Catalog.ofContent content = .ok c)
      (old : c.tier? ⟨10⟩ = some 3) (lowest : c.tier? ⟨20⟩ = none)
      (landed : (adjust ⟨c, .drop, .all⟩ (.rarity allowed) a).2.draft.rarity = ⟨12⟩) :
      ∃ b, adjust ⟨c, .drop, .all⟩ (.rarity allowed) a = (true, b) ∧ b.draft.rarity = ⟨12⟩ ∧
        (c.tier? b.draft.rarity).getD 1 ≤ 3 := by
    obtain ⟨b, run, -, lower⟩ := adjust_rarity_lands (i := ⟨c, .drop, .all⟩) (a := a) registered
      (List.cons_ne_nil _ [⟨12⟩, ⟨13⟩]) rfl rfl rfl
    rw [run] at landed
    exact ⟨b, run, landed, lower 3 old (by rw [List.head_cons, lowest]; decide)⟩
  have registered : Catalog.ofContent content = .ok _ := rfl
  refine ⟨_, registered, ?old, ?lowest, lands registered ?old ?lowest ?landed⟩
  case old => decide +kernel
  case lowest => decide +kernel
  case landed => decide +kernel

end Restriction

end Spoils
