import Spoils.Proofs.Roll.Modifiers

/-! Requirements on a branch: no modifier writes what they look at, and so the restrictions of a
branch do not depend on the order of its modifiers. -/
namespace Spoils

/-- What requirements look at in the settings of a branch. -/
structure Circumstances where
  level : Int
  tier : PrototypeId
  regionRarity : PrototypeId
  kills : Int
  weekday : Weekday
  conditionKeywords : SortedSet PrototypeId
  dropperKeywords : SortedSet PrototypeId
  regionKeywords : SortedSet PrototypeId

namespace BranchSettings
variable {s : BranchSettings} {f : DropFlags}

def circumstances (s : BranchSettings) : Circumstances where
  level := s.levelForRequirements
  tier := s.difficultyTier
  regionRarity := s.regionRarity
  kills := s.kills
  weekday := s.weekday
  conditionKeywords := s.conditionKeywords
  dropperKeywords := s.dropperKeywords
  regionKeywords := s.regionKeywords

def restrictions (s : BranchSettings) : DropFlags := s.flags &&& DropFlags.restrictions

end BranchSettings

namespace Modifier

/-- Whether the requirement of a modifier is met. What a formula asks for has to be drawn, and other
modifiers ask for nothing. -/
def isMet (w : World) (c : Circumstances) : Modifier → Bool
  | .requireLevel lo hi => (lo ≤ 0 || lo ≤ c.level) && (hi ≤ 0 || c.level ≤ hi)
  | .requireTier choices => choices.isEmpty || !c.tier.isValid || choices.contains c.tier
  | .requireCondition keywords => BranchSettings.anyPresent keywords c.conditionKeywords
  | .forbidCondition keywords => !BranchSettings.anyPresent keywords c.conditionKeywords
  | .requireDropper keywords => BranchSettings.anyPresent keywords c.dropperKeywords
  | .forbidDropper keywords => !BranchSettings.anyPresent keywords c.dropperKeywords
  | .requireRegion keywords => BranchSettings.anyPresent keywords c.regionKeywords
  | .forbidRegion keywords => !BranchSettings.anyPresent keywords c.regionKeywords
  | .requireRegionRarity choices => choices.contains c.regionRarity
  | .requireKills kills => kills ≤ 0 || kills ≤ c.kills
  | .requireWeekday days => days.isEmpty || c.weekday == .all || days.contains c.weekday
  | .requireMissions missions state => missions.all fun m => w.oracle.missionState m == state
  | _ => true

/-- The flag that a requirement puts on a branch where it is not met. -/
def restriction : Modifier → DropFlags
  | .requireLevel .. => .levelRestricted
  | .requireTier _ => .tierRestricted
  | .requireCondition _ | .forbidCondition _ => .conditionRestricted
  | .requireDropper _ | .forbidDropper _ => .dropperRestricted
  | .requireRegion _ | .forbidRegion _ | .requireRegionRarity _ => .regionRestricted
  | .requireKills _ => .killsRestricted
  | .requireWeekday _ => .weekdayRestricted
  | .requireMissions .. => .missionRestricted
  | _ => 0#32

end Modifier

namespace BranchSettings
variable {s s' : BranchSettings} {f raised lowered : DropFlags} {i : Nat}

theorem getLsbD_restrictions : s.restrictions.getLsbD i = true ↔
    s.flags.getLsbD i = true ∧ DropFlags.restrictions.getLsbD i = true := by
  rw [restrictions, BitVec.getLsbD_and, Bool.and_eq_true]

/-- Flags that are no restrictions may come and go. -/
theorem Shifts.restrictions_iff (h : Shifts raised lowered s s')
    (fixed : raised.intersects DropFlags.restrictions = false)
    (held : lowered.intersects DropFlags.restrictions = false) :
    s'.restrictions.getLsbD i = true ↔ s.restrictions.getLsbD i = true := by
  rw [getLsbD_restrictions, getLsbD_restrictions]
  exact and_congr_left fun hi => h.getLsbD_iff fixed held hi

private theorem Shifts.restrictions_kept (h : Shifts raised lowered s s')
    (held : lowered.intersects DropFlags.restrictions = false) :
    s'.restrictions.contains s.restrictions = true := by
  refine Flags.contains_iff.mpr fun i present => ?_
  rw [getLsbD_restrictions] at present ⊢
  exact ⟨h.getLsbD_kept held present.2 present.1, present.2⟩

theorem restrictions_addFlags_iff (within : DropFlags.restrictions.contains f = true) :
    (s.addFlags f).restrictions.getLsbD i = true ↔
      s.restrictions.getLsbD i = true ∨ f.getLsbD i = true := by
  rw [getLsbD_restrictions, getLsbD_restrictions, addFlags, Flags.getLsbD_union, Bool.or_eq_true,
    or_and_right, and_iff_left_of_imp (Flags.contains_iff.mp within i)]

private theorem restrictions_require_iff (within : DropFlags.restrictions.contains f = true)
    (met : Bool) : (s.require met f).restrictions.getLsbD i = true ↔
      s.restrictions.getLsbD i = true ∨ met = false ∧ f.getLsbD i = true := by
  cases met with
  | true => simp [require]
  | false => simpa [require] using restrictions_addFlags_iff within

end BranchSettings

namespace Modifier
variable {w : World} {m : Modifier} {ms ms' : List Modifier} {s : BranchSettings}
  {dice dice' : Dice} {i : Nat}

theorem apply_circumstances : (m.apply w s dice).1.circumstances = s.circumstances := by
  rw [apply_frame]
  rfl

theorem restrictions_apply_iff (sure : ∀ f, m ≠ .evalChance f) :
    (m.apply w s dice).1.restrictions.getLsbD i = true ↔ s.restrictions.getLsbD i = true ∨
      m.isMet w s.circumstances = false ∧ m.restriction.getLsbD i = true := by
  have untouched (other : m.raises.intersects DropFlags.restrictions = false)
      (always : m.isMet w s.circumstances = true) :
      (m.apply w s dice).1.restrictions.getLsbD i = true ↔ s.restrictions.getLsbD i = true ∨
        m.isMet w s.circumstances = false ∧ m.restriction.getLsbD i = true := by
    rw [(m.apply_shifts w s dice).restrictions_iff other
      (Flags.apart_of_contains m.lowers_finds (by decide)), always]
    simp
  cases m with
  | requireLevel | requireTier | requireCondition | forbidCondition | requireDropper
  | forbidDropper | requireRegion | forbidRegion | requireRegionRarity | requireWeekday
  | requireMissions => exact BranchSettings.restrictions_require_iff (by decide) _
  | requireKills kills =>
    simp only [apply, adjust, isMet, restriction, BranchSettings.circumstances]
    by_cases none : kills ≤ 0
    · simp [none]
    · by_cases reached : kills ≤ s.kills
      · have fixed : BranchSettings.Shifts DropFlags.killsReached 0#32 s
            (s.addFlags DropFlags.killsReached) := .addFlags s fun _ hi => hi
        simpa [none, reached] using fixed.restrictions_iff (by decide) (by decide)
      · simpa [none, reached] using BranchSettings.restrictions_addFlags_iff (by decide)
  | evalChance f => exact absurd rfl (sure f)
  | cooldown kind channel perAccount =>
    refine untouched ?_ rfl
    rw [raises]
    cases kind <;> cases perAccount <;> decide
  | _ => exact untouched (by simp only [raises]; decide) rfl

/-- Whatever came before, every requirement is judged by the settings that a branch began with. -/
theorem restrictions_applyAll_iff (sure : ∀ f, .evalChance f ∉ ms) :
    (applyAll w ms s dice).1.restrictions.getLsbD i = true ↔ s.restrictions.getLsbD i = true ∨
      ∃ m ∈ ms, m.isMet w s.circumstances = false ∧ m.restriction.getLsbD i = true := by
  induction ms generalizing s dice with
  | nil => simp [applyAll]
  | cons m ms ih =>
    simp only [List.mem_cons, not_or] at sure
    rw [applyAll, ih fun f => (sure f).2, restrictions_apply_iff fun f => Ne.symm (sure f).1,
      apply_circumstances]
    simp only [List.mem_cons, exists_eq_or_imp, or_assoc]

/-- No modifier clears a restriction, and what the modifiers of a branch restrict does not depend on
their order: besides the restrictions of the settings it begins with, these are those of the
requirements that are not met by these settings. -/
theorem applyAll_restrictions (w : World) (s : BranchSettings) {ms ms' : List Modifier}
    (dice dice' : Dice) (same : ms.Perm ms') (sure : ∀ f, .evalChance f ∉ ms) :
    (applyAll w ms s dice).1.restrictions = (applyAll w ms' s dice').1.restrictions ∧
      (applyAll w ms s dice).1.isRestricted = (applyAll w ms' s dice').1.isRestricted ∧
      (∀ i, (applyAll w ms s dice).1.restrictions.getLsbD i = true ↔
        s.restrictions.getLsbD i = true ∨
          ∃ m ∈ ms, m.isMet w s.circumstances = false ∧ m.restriction.getLsbD i = true) ∧
      ∀ (m : Modifier) (t : BranchSettings) (dice : Dice),
        (m.apply w t dice).1.restrictions.contains t.restrictions = true := by
  have sure' : ∀ f, .evalChance f ∉ ms' := fun f listed => sure f (same.mem_iff.mpr listed)
  have equal : (applyAll w ms s dice).1.restrictions = (applyAll w ms' s dice').1.restrictions := by
    refine BitVec.eq_of_getLsbD_eq fun i _ => ?_
    rw [Bool.eq_iff_iff, restrictions_applyAll_iff sure, restrictions_applyAll_iff sure']
    simp only [same.mem_iff]
  have restricted (s : BranchSettings) : s.isRestricted = (s.restrictions != 0#32) := rfl
  refine ⟨equal, ?_, fun i => restrictions_applyAll_iff sure, fun m t dice => ?_⟩
  · rw [restricted, restricted, equal]
  · exact (m.apply_shifts w t dice).restrictions_kept
      (Flags.apart_of_contains m.lowers_finds (by decide))

/-- Levels and avatars are overwritten before a requirement or after it, which is not met all the
same. -/
theorem applyAll_restrictions_reversed :
    let ms : List Modifier := [.setLevel 60, .requireLevel 50 0, .unmarkSpecial, .requireKills 3,
      .setAvatar ⟨4⟩, .forbidRegion [⟨7⟩], .offsetLevel 9]
    let s : BranchSettings := { flags := DropFlags.weekdayRestricted, kills := 3 }
    ms.Perm ms.reverse ∧ (∀ f, .evalChance f ∉ ms) ∧
      (applyAll {} ms s (.ofSeed 1)).1.restrictions =
        (applyAll {} ms.reverse s (.ofSeed 2)).1.restrictions ∧
      (applyAll {} ms.reverse s (.ofSeed 2)).1.restrictions =
        Flags.union DropFlags.weekdayRestricted DropFlags.levelRestricted := by
  intro ms s
  have same : ms.Perm ms.reverse := ms.reverse_perm.symm
  have sure : ∀ f, .evalChance f ∉ ms := by simp [ms]
  exact ⟨same, sure, (applyAll_restrictions {} s (.ofSeed 1) (.ofSeed 2) same sure).1,
    by decide +kernel⟩

end Modifier

end Spoils
