import Spoils.Affix.Limits

/-! The limits at a position: the least count never exceeds the greatest, and both follow the
changes that a branch asks for at the position. -/
namespace Spoils

namespace BranchSettings

/-- The change asked for in the greatest count at a position; none without settings or entry. -/
def maxDelta (s : Option BranchSettings) (p : AffixPosition) : Int :=
  (s.bind fun s => s.maxDeltas.find? p).getD 0

/-- The change asked for in the least count at a position; none without settings or entry. -/
def minDelta (s : Option BranchSettings) (p : AffixPosition) : Int :=
  (s.bind fun s => s.minDeltas.find? p).getD 0

end BranchSettings

namespace AffixLimits
open BranchSettings
variable (l : AffixLimits) (p : AffixPosition) (s : Option BranchSettings)
  {t : Option BranchSettings}

/-- Counts are kept among the sixteen-bit numbers that are not negative. -/
theorem count_mem (n : Int) :
    0 ≤ max (Bounds.int16.clamp n) 0 ∧ max (Bounds.int16.clamp n) 0 ≤ 32767 :=
  ⟨Int.le_max_right _ _, Int.max_le.mpr ⟨Bounds.clamp_le (by decide) n, by decide⟩⟩

theorem maxCount_mem : 0 ≤ l.maxCount p s ∧ l.maxCount p s ≤ 32767 := count_mem _

theorem categoryMax_le (category : PrototypeId) : l.categoryMax category s ≤ 32767 := by
  rw [categoryMax]
  split
  · exact Int.le_refl _
  · exact (count_mem _).2

theorem minCount_nonneg : 0 ≤ l.minCount p s := by
  rw [minCount]
  omega

theorem minCount_le_maxCount : l.minCount p s ≤ l.maxCount p s := by
  have := (l.maxCount_mem p s).1
  rw [minCount]
  omega

variable {s p}

theorem maxCount_mono (raised : maxDelta s p ≤ maxDelta t p) :
    l.maxCount p s ≤ l.maxCount p t := by
  have shifted := Bounds.int16.clamp_mono (Int.add_le_add_left raised (l.range p).max)
  simp only [maxDelta] at shifted
  simp only [maxCount]
  omega

theorem maxCount_congr (same : maxDelta s p = maxDelta t p) : l.maxCount p s = l.maxCount p t :=
  Int.le_antisymm (l.maxCount_mono (Int.le_of_eq same)) (l.maxCount_mono (Int.le_of_eq same.symm))

/-- The least count follows its own change and the greatest count, by which it is held down. -/
theorem minCount_mono (raised : minDelta s p ≤ minDelta t p)
    (most : l.maxCount p s ≤ l.maxCount p t) : l.minCount p s ≤ l.minCount p t := by
  have shifted := Bounds.int16.clamp_mono (Int.add_le_add_left raised (l.range p).min)
  simp only [minDelta] at shifted
  simp only [minCount]
  omega

variable (s p)

/-- With any limits, also such whose ranges are reversed, the least count at a position is not
negative and not above the greatest. To raise the change of the greatest count lowers neither; to
raise the change of the least count does not lower it and leaves the greatest as it is. Both counts
are the same wherever these two changes are, whatever is asked for at other positions and in
categories. -/
theorem counts_coherent :
    (0 ≤ l.minCount p s ∧ l.minCount p s ≤ l.maxCount p s) ∧
    (∀ t, maxDelta s p ≤ maxDelta t p → minDelta s p = minDelta t p →
      l.maxCount p s ≤ l.maxCount p t ∧ l.minCount p s ≤ l.minCount p t) ∧
    (∀ t, maxDelta s p = maxDelta t p → minDelta s p ≤ minDelta t p →
      l.maxCount p s = l.maxCount p t ∧ l.minCount p s ≤ l.minCount p t) ∧
    ∀ t, maxDelta s p = maxDelta t p → minDelta s p = minDelta t p →
      l.maxCount p s = l.maxCount p t ∧ l.minCount p s = l.minCount p t := by
  refine ⟨⟨l.minCount_nonneg p s, l.minCount_le_maxCount p s⟩, fun t max min => ?_,
    fun t max min => ?_, fun t max min => ?_⟩
  · have most := l.maxCount_mono max
    exact ⟨most, l.minCount_mono (Int.le_of_eq min) most⟩
  · have most := l.maxCount_congr max
    exact ⟨most, l.minCount_mono min (Int.le_of_eq most)⟩
  · have most := l.maxCount_congr max
    exact ⟨most, Int.le_antisymm (l.minCount_mono (Int.le_of_eq min) (Int.le_of_eq most))
      (l.minCount_mono (Int.le_of_eq min.symm) (Int.le_of_eq most.symm))⟩

/-- A reversed range: raised as far as it goes, the least count is held at the greatest, and where
nothing is allowed both are zero. -/
theorem counts_coherent_reversed :
    let l : AffixLimits := { prefixes := ⟨4, 2⟩ }
    let low : Option BranchSettings := some { maxDeltas := .ofList [(.prefixed, -32768)] }
    let raised : Option BranchSettings := some
      { minDeltas := .ofList [(.prefixed, 32767), (.suffixed, -3)]
        categoryDeltas := .ofList [(⟨70⟩, 9)] }
    (maxDelta low .prefixed ≤ maxDelta none .prefixed ∧
      minDelta low .prefixed = minDelta none .prefixed ∧
      l.maxCount .prefixed low ≤ l.maxCount .prefixed none ∧
      l.minCount .prefixed low ≤ l.minCount .prefixed none) ∧
    (maxDelta none .prefixed = maxDelta raised .prefixed ∧
      minDelta none .prefixed ≤ minDelta raised .prefixed ∧
      l.maxCount .prefixed none = l.maxCount .prefixed raised ∧
      l.minCount .prefixed none ≤ l.minCount .prefixed raised) ∧
    (maxDelta none .suffixed = maxDelta low .suffixed ∧
      minDelta none .suffixed = minDelta low .suffixed ∧
      l.maxCount .suffixed none = l.maxCount .suffixed low) ∧
    (l.maxCount .prefixed low = 0 ∧ l.minCount .prefixed low = 0) ∧
    (l.maxCount .prefixed raised = 2 ∧ l.minCount .prefixed raised = 2) := by
  intro l low raised
  obtain ⟨-, highest, -, -⟩ := l.counts_coherent .prefixed low
  obtain ⟨-, -, least, -⟩ := l.counts_coherent .prefixed none
  obtain ⟨-, -, -, apart⟩ := l.counts_coherent .suffixed none
  have up : maxDelta low .prefixed ≤ maxDelta none .prefixed := by decide
  have up' : minDelta none .prefixed ≤ minDelta raised .prefixed := by decide
  exact ⟨⟨up, rfl, highest none up rfl⟩, ⟨rfl, up', least raised rfl up'⟩,
    ⟨rfl, rfl, (apart low rfl rfl).1⟩, by decide, by decide⟩

end AffixLimits

end Spoils
