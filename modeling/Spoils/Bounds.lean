/-! The ranges that whole numbers are kept in. -/
namespace Spoils

/-- A range of whole numbers with both ends. -/
structure Bounds where
  lo : Int
  hi : Int
deriving DecidableEq, Repr

namespace Bounds

def int16 : Bounds := ⟨-0x8000, 0x7fff⟩

def int32 : Bounds := ⟨-0x80000000, 0x7fffffff⟩

def int64 : Bounds := ⟨-0x8000000000000000, 0x7fffffffffffffff⟩

def word32 : Bounds := ⟨0, 0xffffffff⟩

def word64 : Bounds := ⟨0, 0xffffffffffffffff⟩

def contains (b : Bounds) (n : Int) : Bool := b.lo ≤ n && n ≤ b.hi

def check? (b : Bounds) (n : Int) : Option Int := if b.contains n then some n else none

/-- The number of the range that is nearest. -/
def clamp (b : Bounds) (n : Int) : Int := max b.lo (min b.hi n)

/-- The number as a word of the range holds it: beyond one end it begins again at the other. -/
def wrap (b : Bounds) (n : Int) : Int := b.lo + (n - b.lo) % (b.hi - b.lo + 1)

theorem contains_iff {b : Bounds} {n : Int} : b.contains n = true ↔ b.lo ≤ n ∧ n ≤ b.hi := by
  rw [contains, Bool.and_eq_true, decide_eq_true_iff, decide_eq_true_iff]

theorem clamp_eq_self {b : Bounds} {n : Int} (h : b.lo ≤ n ∧ n ≤ b.hi) : b.clamp n = n := by
  simp only [clamp]; omega

theorem wrap_eq_self {b : Bounds} {n : Int} (h : b.contains n = true) : b.wrap n = n := by
  have bounded := contains_iff.mp h
  rw [wrap, Int.emod_eq_of_lt (by omega) (by omega)]
  omega

theorem clamp_le {b : Bounds} (h : b.lo ≤ b.hi) (n : Int) : b.clamp n ≤ b.hi := by
  simp only [clamp]; omega

theorem clamp_mono (b : Bounds) {m n : Int} (h : m ≤ n) : b.clamp m ≤ b.clamp n := by
  simp only [clamp]; omega

end Bounds

end Spoils
