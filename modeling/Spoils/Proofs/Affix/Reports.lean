import Spoils.Proofs.Affix.Body

/-! Affix operations report what they do: unless an affix change is reported, the draft is the one
from before. -/
namespace Spoils.Draft

/-- The second draft is the first one, unless the report announces an affix change. -/
def Announces (d : Draft) (report : MutationReport) (e : Draft) : Prop :=
  report.affixChange = false → e = d

variable {c : Catalog} {occasion : Occasion} {s : Option BranchSettings} {d e f : Draft}
  {report report' : MutationReport}

theorem Announces.refl (d : Draft) (report : MutationReport) : d.Announces report d := fun _ => rfl

theorem Announces.trans (h : d.Announces report e) (h' : e.Announces report' f) :
    d.Announces (report'.union report) f := by
  intro silent
  obtain ⟨later, earlier⟩ := Bool.or_eq_false_iff.mp silent
  exact (h' later).trans (h earlier)

theorem Announces.of_change (announced : report.affixChange = true) : d.Announces report e :=
  fun silent => (Bool.false_ne_true (silent.symm.trans announced)).elim

private theorem rollOne_same {p : Picker Affix} {dice : Dice}
    (none : (rollOne p d dice).1 = false) : (rollOne p d dice).2.2.1 = d :=
  (rollOneWith_rollsOne p.size p d dice).same none

private theorem rollMany_same {n : Nat} {p : Picker Affix} {dice : Dice}
    (none : (rollMany n p d dice).1 = false) : (rollMany n p d dice).2.1 = d := by
  cases n with
  | zero => rfl
  | succ n =>
    have one : (rollOne p d dice).1 = false → (rollOne p d dice).2.2.1 = d := rollOne_same
    rw [rollMany] at none ⊢
    generalize rollOne p d dice = r at one none ⊢
    obtain ⟨_ | _, q, e, dice'⟩ := r
    · exact one rfl
    · cases none

private theorem rollCount_announces (count : Int) (p : Picker Affix) (d : Draft) (dice : Dice) :
    d.Announces (d.rollCount count p dice).report (d.rollCount count p dice).draft :=
  fun silent => rollMany_same silent

private theorem fillCategories_announces (l : AffixLimits) (d : Draft) (dice : Dice) :
    d.Announces (d.fillCategories c s l dice).report (d.fillCategories c s l dice).draft := by
  rw [fillCategories]
  generalize hc : (⟨.none, d, dice⟩ : Change) = change
  replace hc : d.Announces change.report change.draft := hc ▸ .refl d _
  induction l.categories generalizing change with
  | nil => exact hc
  | cons e es ih => exact ih _ (hc.trans (rollCount_announces _ _ _ _))

private theorem fillPosition_announces (l : AffixLimits) {change : Change} (p : AffixPosition)
    (hc : d.Announces change.report change.draft) :
    d.Announces (fillPosition c s l change p).report (fillPosition c s l change p).draft := by
  rcases fillPosition_cases c s l change p with ⟨-, same⟩ | ⟨target, next, -, -, filled⟩
  · rw [same]
    exact hc
  · rw [filled]
    exact hc.trans (rollCount_announces _ _ _ _)

private theorem fillPositions_announces (l : AffixLimits) {change : Change}
    (hc : d.Announces change.report change.draft) :
    d.Announces (fillPositions c s l change).report (fillPositions c s l change).draft := by
  rw [fillPositions]
  induction AffixPosition.all.filter (·.isCounted) generalizing change with
  | nil => exact hc
  | cons p ps ih => exact ih (fillPosition_announces l p hc)

theorem rollAffixes_announces (d : Draft) (dice : Dice) :
    d.Announces (d.rollAffixes c occasion s dice).report
      (d.rollAffixes c occasion s dice).draft := by
  rcases rollAffixes_cases c occasion s d dice with ⟨report, same, -⟩ | ⟨-, l, -, filled⟩
  · rw [same]
    exact .refl d report
  · rw [filled]
    exact fillPositions_announces l (fillCategories_announces l d dice)

theorem addAffixes_announces (s : BranchSettings) (count : Int) (f : AffixFilter) (d : Draft)
    (dice : Dice) :
    d.Announces (d.addAffixes c occasion s count f dice).report
      (d.addAffixes c occasion s count f dice).draft := by
  rcases addAffixes_cases c occasion s count f d dice with ⟨report, same, -⟩ | ⟨pool, rolled, -⟩
  · rw [same]
    exact .refl d report
  · rw [rolled]
    exact rollCount_announces count _ d dice

theorem addAffix_announces (s : BranchSettings) (affix : PrototypeId) (d : Draft) (dice : Dice) :
    d.Announces (d.addAffix c occasion s affix dice).report
      (d.addAffix c occasion s affix dice).draft := by
  rcases addAffix_cases c occasion s affix d dice with
    ⟨report, dice', same, -⟩ | ⟨a, e, dice', added, -⟩
  · rw [same]
    exact .refl d report
  · rw [added]
    exact .of_change rfl

/-- Copying without an error announces what it copied; an error forgets it. -/
private theorem copyEach_announces {f : AffixFilter} {l : Option AffixLimits}
    {source : List AttachedAffix} {out : MutationReport × Draft} (before : d.Announces report e)
    (ran : copyEach c f l source report e = out) (clean : out.1.error = false) :
    d.Announces out.1 out.2 := by
  induction source generalizing report e with
  | nil => exact ran ▸ before
  | cons copy rest ih =>
    rw [copyEach] at ran
    split at ran
    · subst ran
      cases clean
    · split at ran
      · exact ih before ran
      · split at ran
        · rename_i refused
          subst ran
          exact (Bool.false_ne_true (clean.symm.trans refused)).elim
        · split at ran
          · split at ran
            · exact ih before ran
            all_goals
              subst ran
              cases clean
          · split at ran
            · subst ran
              cases clean
            · exact ih (.of_change (Bool.or_true _)) ran

theorem copyAffixes_announces {source : List AttachedAffix} {f : AffixFilter} {enforce : Bool}
    (clean : (d.copyAffixes c occasion source f enforce).1.error = false) :
    d.Announces (d.copyAffixes c occasion source f enforce).1
      (d.copyAffixes c occasion source f enforce).2 := by
  have copied (l : Option AffixLimits) (clean : (copyEach c f l source .none d).1.error = false) :
      d.Announces (copyEach c f l source .none d).1 (copyEach c f l source .none d).2 :=
    copyEach_announces (.refl d _) rfl clean
  generalize ran : d.copyAffixes c occasion source f enforce = out at clean ⊢
  rw [copyAffixes] at ran
  split at ran
  · subst ran
    cases clean
  · split at ran
    · subst ran
      exact copied none clean
    · split at ran
      · subst ran
        cases clean
      · subst ran
        exact copied _ clean

theorem dropAffixes_announces (f : AffixFilter) (d : Draft) :
    d.Announces (d.dropAffixes c f).1 (d.dropAffixes c f).2 := by
  intro silent
  have whole : ∀ kept : List AttachedAffix, kept.Sublist d.affixes →
      (kept.length != d.affixes.length) = false → ({ d with affixes := kept } : Draft) = d := by
    intro kept sub same
    rw [sub.eq_of_length (bne_eq_false_iff_eq.mp same)]
  exact whole _ List.filter_sublist silent

theorem hideVisuals_same (d : Draft) (none : (d.hideVisuals c).1 = false) :
    (d.hideVisuals c).2 = d := by
  rw [hideVisuals] at none ⊢
  split at none
  · rw [if_pos ‹_›]
  · cases none

end Spoils.Draft
