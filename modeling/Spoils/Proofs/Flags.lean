import Spoils.Flags

/-! Sets of flags, one flag at a time. -/
namespace Spoils.Flags
variable {n : Nat} {a b : Flags n}

@[simp] theorem getLsbD_union (a b : Flags n) (i : Nat) :
    (union a b).getLsbD i = (a.getLsbD i || b.getLsbD i) := BitVec.getLsbD_or

@[simp] theorem getLsbD_minus (a b : Flags n) (i : Nat) :
    (minus a b).getLsbD i = (a.getLsbD i && !b.getLsbD i) := by
  by_cases inside : i < n
  · simp [minus, inside]
  · simp [minus, BitVec.getLsbD_of_ge _ i (Nat.le_of_not_lt inside)]

theorem contains_iff : contains a b = true ↔ ∀ i, b.getLsbD i = true → a.getLsbD i = true := by
  rw [contains, beq_iff_eq]
  constructor
  · intro both i hi
    rw [← both, BitVec.getLsbD_and, Bool.and_eq_true] at hi
    exact hi.1
  · intro inside
    refine BitVec.eq_of_getLsbD_eq fun i _ => ?_
    rw [BitVec.getLsbD_and, Bool.and_eq_right_iff_imp]
    exact inside i

theorem intersects_iff :
    intersects a b = true ↔ ∃ i, a.getLsbD i = true ∧ b.getLsbD i = true := by
  rw [intersects, bne_iff_ne]
  constructor
  · intro common
    refine Classical.byContradiction fun apart => common (BitVec.eq_of_getLsbD_eq fun i _ => ?_)
    rw [BitVec.getLsbD_and, BitVec.getLsbD_zero]
    refine Bool.eq_false_iff.mpr fun both => apart ⟨i, ?_⟩
    rwa [Bool.and_eq_true] at both
  · rintro ⟨i, ha, hb⟩ none
    have bit : (a &&& b).getLsbD i = true := by rw [BitVec.getLsbD_and, ha, hb]; rfl
    rw [none, BitVec.getLsbD_zero] at bit
    cases bit

/-- Of sets without a common flag, a flag of one is not in the other. -/
theorem getLsbD_of_disjoint (apart : intersects a b = false) {i : Nat} (h : b.getLsbD i = true) :
    a.getLsbD i = false := by
  refine Bool.eq_false_iff.mpr fun present => ?_
  have common : intersects a b = true := intersects_iff.mpr ⟨i, present, h⟩
  cases apart.symm.trans common

/-- A set within another has nothing in common with what the other has nothing in common with. -/
theorem apart_of_contains {c : Flags n} (within : contains b a = true)
    (apart : intersects b c = false) : intersects a c = false := by
  refine Bool.eq_false_iff.mpr fun common => ?_
  obtain ⟨i, ha, hc⟩ := intersects_iff.mp common
  cases (getLsbD_of_disjoint apart hc).symm.trans (contains_iff.mp within i ha)

theorem contains_minus {f : Flags n} (apart : intersects f b = false) :
    contains (minus a f) b = contains a b := by
  rw [Bool.eq_iff_iff, contains_iff, contains_iff]
  refine forall_congr' fun i => imp_congr_right fun hb => ?_
  rw [getLsbD_minus, getLsbD_of_disjoint apart hb, Bool.not_false, Bool.and_true]

theorem intersects_minus {f : Flags n} (apart : intersects f b = false) :
    intersects (minus a f) b = intersects a b := by
  rw [Bool.eq_iff_iff, intersects_iff, intersects_iff]
  refine exists_congr fun i => and_congr_left fun hb => ?_
  rw [getLsbD_minus, getLsbD_of_disjoint apart hb, Bool.not_false, Bool.and_true]

theorem union_minus {f : Flags n} (apart : intersects f b = false) :
    union (minus a f) b = minus (union a b) f := by
  refine BitVec.eq_of_getLsbD_eq fun i _ => ?_
  simp only [getLsbD_union, getLsbD_minus]
  cases hb : b.getLsbD i
  · rw [Bool.or_false, Bool.or_false]
  · rw [getLsbD_of_disjoint apart hb, Bool.not_false, Bool.and_true, Bool.and_true]

theorem minus_minus_self (a f : Flags n) : minus (minus a f) f = minus a f := by
  refine BitVec.eq_of_getLsbD_eq fun i _ => ?_
  simp only [getLsbD_minus, Bool.and_assoc, Bool.and_self]

theorem minus_right_comm (a b f : Flags n) : minus (minus a f) b = minus (minus a b) f := by
  refine BitVec.eq_of_getLsbD_eq fun i _ => ?_
  simp only [getLsbD_minus, Bool.and_right_comm]

end Spoils.Flags
