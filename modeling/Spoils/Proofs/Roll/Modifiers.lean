import Spoils.Proofs.Flags
import Spoils.Roll.Modifiers

/-! What modifiers do to the flags of a branch and to its cooldown gate. -/
namespace Spoils

namespace Modifier

/-- The flags that a modifier may put on a branch. -/
def raises : Modifier → DropFlags
  | .requireLevel .. => .levelRestricted
  | .markSpecial => .specialFind
  | .markRare => .rareFind
  | .cooldown kind _ perAccount =>
    Flags.union kind.flag (if perAccount then DropFlags.perAccount else 0#32)
  | .requireTier _ => .tierRestricted
  | .dropByTier _ => .tierModified
  | .requireCondition _ | .forbidCondition _ => .conditionRestricted
  | .requireDropper _ | .forbidDropper _ => .dropperRestricted
  | .requireRegion _ | .forbidRegion _ | .requireRegionRarity _ => .regionRestricted
  | .requireKills _ => Flags.union DropFlags.killsReached DropFlags.killsRestricted
  | .requireWeekday _ => .weekdayRestricted
  | .ignoreCooldown => .ignoreCooldown
  | .ignoreVendorCap => .ignoreCap
  | .currencyBonus => .currencyBonus
  | .requireMissions .. => .missionRestricted
  | .evalChance _ => .evalRestricted
  | .clampLevel .. | .offsetLevel _ | .unmarkSpecial | .unmarkRare | .setAvatar _ | .setLevel _
  | .affixLimits .. | .setRarity _ | .setUsable _ | .levelVerbatim _ | .setRegionAffixTable _ =>
    0#32

/-- The flags that a modifier takes off a branch. -/
def lowers : Modifier → DropFlags
  | .unmarkSpecial => .specialFind
  | .unmarkRare => .rareFind
  | _ => 0#32

def gate? : Modifier → Option CooldownGate
  | .cooldown kind channel perAccount => some ⟨kind, channel, perAccount⟩
  | _ => none

/-- The gate of a branch after modifiers: the last one that was put on it. -/
def gateAfter : List Modifier → Option CooldownGate → Option CooldownGate
  | [], held => held
  | m :: ms, held => gateAfter ms (m.gate?.or held)

end Modifier

namespace BranchSettings

/-- The flags have moved within bounds: what is new was to be raised, what is gone was to be
lowered. -/
structure Shifts (raised lowered : DropFlags) (s s' : BranchSettings) : Prop where
  raised : ∀ {i}, s'.flags.getLsbD i = true → s.flags.getLsbD i = true ∨ raised.getLsbD i = true
  kept : ∀ {i}, s.flags.getLsbD i = true → s'.flags.getLsbD i = true ∨ lowered.getLsbD i = true

namespace Shifts
variable {raised lowered f : DropFlags} {s s' : BranchSettings}

theorem of_eq (same : s'.flags = s.flags) : Shifts raised lowered s s' :=
  ⟨fun h => .inl (same ▸ h), fun h => .inl (same ▸ h)⟩

theorem addFlags (s : BranchSettings) (h : ∀ i, f.getLsbD i = true → raised.getLsbD i = true) :
    Shifts raised lowered s (s.addFlags f) := by
  constructor
  · intro i hi
    rw [BranchSettings.addFlags, Flags.getLsbD_union, Bool.or_eq_true] at hi
    exact hi.imp_right (h i)
  · intro i hi
    rw [BranchSettings.addFlags, Flags.getLsbD_union, hi]
    exact .inl rfl

theorem require (s : BranchSettings) (met : Bool) :
    Shifts f lowered s (s.require met f) := by
  rw [BranchSettings.require]
  split
  · exact .of_eq rfl
  · exact addFlags s fun _ hi => hi

theorem removeFlags (s : BranchSettings) : Shifts raised f s (s.removeFlags f) := by
  constructor
  · intro i hi
    rw [BranchSettings.removeFlags, Flags.getLsbD_minus, Bool.and_eq_true] at hi
    exact .inl hi.1
  · intro i hi
    rw [BranchSettings.removeFlags, Flags.getLsbD_minus, hi, Bool.true_and]
    cases f.getLsbD i
    · exact .inl rfl
    · exact .inr rfl

/-- Where no flag of a set is lowered, one that is there stays. -/
theorem getLsbD_kept (h : Shifts raised lowered s s') (held : lowered.intersects f = false)
    {i : Nat} (hi : f.getLsbD i = true) (present : s.flags.getLsbD i = true) :
    s'.flags.getLsbD i = true := by
  refine (h.kept present).resolve_right fun down => ?_
  cases (Flags.getLsbD_of_disjoint held hi).symm.trans down

/-- A flag that is neither raised nor lowered is as it was. -/
theorem getLsbD_iff (h : Shifts raised lowered s s') (fixed : raised.intersects f = false)
    (held : lowered.intersects f = false) {i : Nat} (hi : f.getLsbD i = true) :
    s'.flags.getLsbD i = true ↔ s.flags.getLsbD i = true := by
  refine ⟨fun new => (h.raised new).resolve_right fun up => ?_, h.getLsbD_kept held hi⟩
  cases (Flags.getLsbD_of_disjoint fixed hi).symm.trans up

theorem contains_eq (h : Shifts raised lowered s s') (fixed : raised.intersects f = false)
    (held : lowered.intersects f = false) : s'.flags.contains f = s.flags.contains f := by
  rw [Bool.eq_iff_iff, Flags.contains_iff, Flags.contains_iff]
  exact forall_congr' fun i => imp_congr_right fun hi => h.getLsbD_iff fixed held hi

private theorem intersects_mono (h : Shifts raised lowered s s')
    (held : lowered.intersects f = false) (present : s.flags.intersects f = true) :
    s'.flags.intersects f = true := by
  obtain ⟨i, hi, hf⟩ := Flags.intersects_iff.mp present
  exact Flags.intersects_iff.mpr ⟨i, h.getLsbD_kept held hf hi, hf⟩

end Shifts

end BranchSettings

namespace Modifier
variable (w : World) (m : Modifier) (s : BranchSettings) (dice : Dice)

theorem apply_shifts : s.Shifts m.raises m.lowers (m.apply w s dice).1 := by
  cases m with
  | requireLevel | requireTier | requireCondition | forbidCondition | requireDropper
  | forbidDropper | requireRegion | forbidRegion | requireRegionRarity | requireWeekday
  | requireMissions | evalChance => exact .require s _
  | markSpecial | markRare | ignoreCooldown | ignoreVendorCap | currencyBonus =>
    exact .addFlags s fun _ hi => hi
  | unmarkSpecial | unmarkRare => exact .removeFlags s
  | offsetLevel | setLevel | setUsable | levelVerbatim => exact .of_eq rfl
  | clampLevel lo hi =>
    simp only [apply, adjust]
    split
    · exact .of_eq rfl
    · split <;> exact .of_eq rfl
  | setAvatar | setRarity | setRegionAffixTable =>
    simp only [apply, adjust]
    split <;> exact .of_eq rfl
  | affixLimits position category minBy maxBy =>
    simp only [apply, adjust]
    split
    · exact .of_eq rfl
    · split <;> exact .of_eq rfl
  | requireKills kills =>
    simp only [apply, adjust]
    split
    · exact .of_eq rfl
    · refine .addFlags s fun i hi => ?_
      rw [raises, Flags.getLsbD_union, Bool.or_eq_true]
      split at hi
      · exact .inl hi
      · exact .inr hi
  | dropByTier curve =>
    simp only [apply, adjust, BranchSettings.scaleDrop]
    split
    · split
      · obtain ⟨raised, kept⟩ : s.Shifts (dropByTier curve).raises (dropByTier curve).lowers
            (s.addFlags DropFlags.tierModified) := .addFlags s fun _ hi => hi
        exact ⟨raised, kept⟩
      · exact .of_eq rfl
    · exact .of_eq rfl
  | cooldown kind channel perAccount =>
    have combined : ((cooldown kind channel perAccount).apply w s dice).1.flags =
        (s.addFlags (cooldown kind channel perAccount).raises).flags := by
      cases perAccount <;> simp [apply, adjust, BranchSettings.addCooldown,
        BranchSettings.addFlags, raises, Flags.union, BitVec.or_assoc]
    have shifts : s.Shifts (cooldown kind channel perAccount).raises 0#32
        (s.addFlags (cooldown kind channel perAccount).raises) := .addFlags s fun _ hi => hi
    exact ⟨fun hi => shifts.raised (combined ▸ hi), fun hi => combined ▸ shifts.kept hi⟩

private theorem raises_preview : m.raises.intersects DropFlags.previewOnly = false := by
  cases m with
  | cooldown kind _ perAccount =>
    rw [raises]
    cases kind <;> cases perAccount <;> decide
  | _ =>
    simp only [raises]
    decide

private theorem raises_ignoreCap (other : m ≠ .ignoreVendorCap) :
    m.raises.intersects DropFlags.ignoreCap = false := by
  cases m with
  | cooldown kind _ perAccount =>
    rw [raises]
    cases kind <;> cases perAccount <;> decide
  | ignoreVendorCap => exact (other rfl).elim
  | _ =>
    simp only [raises]
    decide

theorem lowers_finds :
    (Flags.union DropFlags.specialFind DropFlags.rareFind).contains m.lowers = true := by
  cases m with
  | _ =>
    simp only [lowers]
    decide

private theorem apply_isPreview : (m.apply w s dice).1.isPreview = s.isPreview :=
  (m.apply_shifts w s dice).contains_eq m.raises_preview
    (Flags.apart_of_contains m.lowers_finds (by decide))

/-- No modifier lifts a restriction. -/
theorem apply_isRestricted (restricted : s.isRestricted = true) :
    (m.apply w s dice).1.isRestricted = true :=
  (m.apply_shifts w s dice).intersects_mono
    (Flags.apart_of_contains m.lowers_finds (by decide)) restricted

private theorem apply_ignoresCap (other : m ≠ .ignoreVendorCap) :
    (m.apply w s dice).1.flags.contains DropFlags.ignoreCap =
      s.flags.contains DropFlags.ignoreCap :=
  (m.apply_shifts w s dice).contains_eq (m.raises_ignoreCap other)
    (Flags.apart_of_contains m.lowers_finds (by decide))

/-- No modifier writes the depth of a branch, nor where and for whom it is rolled, and of the gates
only its own. -/
theorem apply_frame : (m.apply w s dice).1 = { (m.apply w s dice).1 with
    cooldown := m.gate?.or s.cooldown
    depth := s.depth
    teamUp := s.teamUp
    levelForRequirements := s.levelForRequirements
    difficultyTier := s.difficultyTier
    regionRarity := s.regionRarity
    kills := s.kills
    weekday := s.weekday
    dropperKeywords := s.dropperKeywords
    conditionKeywords := s.conditionKeywords
    regionKeywords := s.regionKeywords } := by
  cases m with
  | requireLevel | requireTier | requireCondition | forbidCondition | requireDropper
  | forbidDropper | requireRegion | forbidRegion | requireRegionRarity | requireWeekday
  | requireMissions | evalChance =>
    simp only [apply, adjust, BranchSettings.require]
    split <;> rfl
  | markSpecial | markRare | unmarkSpecial | unmarkRare | ignoreCooldown | ignoreVendorCap
  | currencyBonus | offsetLevel | setLevel | setUsable | levelVerbatim => rfl
  | setAvatar | setRarity | setRegionAffixTable | requireKills =>
    simp only [apply, adjust]
    split <;> rfl
  | cooldown kind channel perAccount => cases perAccount <;> rfl
  | clampLevel | affixLimits =>
    simp only [apply, adjust]
    split
    · rfl
    · split <;> rfl
  | dropByTier =>
    simp only [apply, adjust, BranchSettings.scaleDrop]
    split
    · split <;> rfl
    · rfl

private theorem apply_depth : (m.apply w s dice).1.depth = s.depth := by
  rw [apply_frame]

private theorem apply_cooldown : (m.apply w s dice).1.cooldown = m.gate?.or s.cooldown := by
  rw [apply_frame]

variable {w s dice}

theorem applyAll_isPreview (ms : List Modifier) :
    (applyAll w ms s dice).1.isPreview = s.isPreview := by
  induction ms generalizing s dice with
  | nil => rfl
  | cons m ms ih => exact ih.trans (m.apply_isPreview w s dice)

theorem applyAll_isRestricted (ms : List Modifier) (restricted : s.isRestricted = true) :
    (applyAll w ms s dice).1.isRestricted = true := by
  induction ms generalizing s dice with
  | nil => exact restricted
  | cons m ms ih => exact ih (m.apply_isRestricted w s dice restricted)

theorem applyAll_ignoresCap {ms : List Modifier} (other : .ignoreVendorCap ∉ ms) :
    (applyAll w ms s dice).1.flags.contains DropFlags.ignoreCap =
      s.flags.contains DropFlags.ignoreCap := by
  induction ms generalizing s dice with
  | nil => rfl
  | cons m ms ih =>
    simp only [List.mem_cons, not_or] at other
    exact (ih other.2).trans (m.apply_ignoresCap w s dice (Ne.symm other.1))

theorem applyAll_depth (ms : List Modifier) : (applyAll w ms s dice).1.depth = s.depth := by
  induction ms generalizing s dice with
  | nil => rfl
  | cons m ms ih => exact ih.trans (m.apply_depth w s dice)

theorem applyAll_cooldown (ms : List Modifier) :
    (applyAll w ms s dice).1.cooldown = gateAfter ms s.cooldown := by
  induction ms generalizing s dice with
  | nil => rfl
  | cons m ms ih => rw [applyAll, ih, apply_cooldown, gateAfter]

end Modifier

end Spoils
