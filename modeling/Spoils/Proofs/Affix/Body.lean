import Spoils.Proofs.Affix.Rolling

/-! Rolling, copying and dropping affixes leaves everything else of a draft alone. -/
namespace Spoils.Draft

/-- Nothing but their affixes tells the drafts apart. -/
def SameBody (d e : Draft) : Prop := e = { d with affixes := e.affixes }

variable {c : Catalog} {occasion : Occasion} {s : Option BranchSettings} {d e f : Draft}

namespace SameBody

theorem refl (d : Draft) : d.SameBody d := rfl

theorem trans (h : d.SameBody e) (h' : e.SameBody f) : d.SameBody f := by
  rw [SameBody, h] at h'
  exact h'

theorem item_eq (h : d.SameBody e) : e.item = d.item := (congrArg Draft.item h).trans rfl

theorem rarity_eq (h : d.SameBody e) : e.rarity = d.rarity := (congrArg Draft.rarity h).trans rfl

theorem level_eq (h : d.SameBody e) : e.level = d.level := (congrArg Draft.level h).trans rfl

theorem rank_eq (h : d.SameBody e) : e.rank = d.rank := (congrArg Draft.rank h).trans rfl

theorem slot_eq (h : d.SameBody e) : e.slot = d.slot := (congrArg Draft.slot h).trans rfl

theorem rollFor_eq (h : d.SameBody e) : e.rollFor = d.rollFor :=
  (congrArg Draft.rollFor h).trans rfl

theorem checks_eq (h : d.SameBody e) : e.checks = d.checks := (congrArg Draft.checks h).trans rfl

end SameBody

theorem Puts.sameBody {pool : List Affix} (h : Puts pool d e) : d.SameBody e := by
  cases h <;> rfl

theorem PutsUpTo.sameBody {pool : List Affix} {n : Nat} (h : PutsUpTo pool n d e) :
    d.SameBody e := by
  induction h with
  | stay n d => exact .refl d
  | more first rest ih => exact first.sameBody.trans ih

theorem rollCount_sameBody (count : Int) (p : Picker Affix) (d : Draft) (dice : Dice) :
    d.SameBody (d.rollCount count p dice).draft := (rollCount_puts count p d dice).sameBody

theorem fillCategories_sameBody (l : AffixLimits) (d : Draft) (dice : Dice) :
    d.SameBody (d.fillCategories c s l dice).draft := by
  rw [fillCategories]
  generalize hc : (⟨.none, d, dice⟩ : Change) = change
  replace hc : d.SameBody change.draft := hc ▸ .refl d
  induction l.categories generalizing change with
  | nil => exact hc
  | cons e es ih => exact ih _ (hc.trans (rollCount_sameBody ..))

theorem fillPosition_sameBody (l : AffixLimits) (change : Change) (p : AffixPosition) :
    change.draft.SameBody (fillPosition c s l change p).draft := by
  rcases fillPosition_cases c s l change p with ⟨-, same⟩ | ⟨target, next, -, -, filled⟩
  · rw [same]
    exact .refl _
  · rw [filled]
    exact rollCount_sameBody ..

theorem foldl_fillPosition_sameBody (l : AffixLimits) (ps : List AffixPosition) (change : Change) :
    change.draft.SameBody (ps.foldl (fillPosition c s l) change).draft := by
  induction ps generalizing change with
  | nil => exact .refl _
  | cons p ps ih => exact (fillPosition_sameBody l change p).trans (ih _)

private theorem fillPositions_sameBody (l : AffixLimits) (change : Change) :
    change.draft.SameBody (fillPositions c s l change).draft :=
  foldl_fillPosition_sameBody l _ change

theorem rollAffixes_sameBody (d : Draft) (dice : Dice) :
    d.SameBody (d.rollAffixes c occasion s dice).draft := by
  rcases rollAffixes_cases c occasion s d dice with ⟨report, same, -⟩ | ⟨-, l, -, filled⟩
  · rw [same]
    exact .refl d
  · rw [filled]
    exact (fillCategories_sameBody l d dice).trans (fillPositions_sameBody l _)

theorem addAffixes_sameBody (s : BranchSettings) (count : Int) (f : AffixFilter) (d : Draft)
    (dice : Dice) : d.SameBody (d.addAffixes c occasion s count f dice).draft := by
  rcases addAffixes_cases c occasion s count f d dice with ⟨report, same, -⟩ | ⟨pool, rolled, -⟩
  · rw [same]
    exact .refl d
  · rw [rolled]
    exact rollCount_sameBody ..

theorem addAffix_sameBody (s : BranchSettings) (affix : PrototypeId) (d : Draft) (dice : Dice) :
    d.SameBody (d.addAffix c occasion s affix dice).draft := by
  rcases addAffix_cases c occasion s affix d dice with
    ⟨report, dice', same, -⟩ | ⟨a, e, dice', added, -, -, put⟩
  · rw [same]
    exact .refl d
  · rw [added]
    exact put.sameBody

private theorem copyEach_sameBody (f : AffixFilter) (l : Option AffixLimits)
    (source : List AttachedAffix) (report : MutationReport) (d : Draft) :
    d.SameBody (copyEach c f l source report d).2 := by
  induction source generalizing report d with
  | nil => exact .refl d
  | cons copy rest ih =>
    rw [copyEach]
    repeat' split
    all_goals first
      | exact .refl d
      | exact ih report d
      | exact (show d.SameBody { d with affixes := _ } from rfl).trans (ih _ _)

theorem copyAffixes_sameBody (source : List AttachedAffix) (f : AffixFilter) (enforce : Bool)
    (d : Draft) : d.SameBody (d.copyAffixes c occasion source f enforce).2 := by
  rw [copyAffixes]
  repeat' split
  all_goals first | exact .refl d | exact copyEach_sameBody ..

theorem hideVisuals_sameBody (d : Draft) : d.SameBody (d.hideVisuals c).2 := by
  rw [hideVisuals]
  split <;> rfl

end Spoils.Draft
