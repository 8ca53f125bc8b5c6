import Spoils.Random.Dice

/-! Draws between signed words. The remainder on the way may be read as a negative number and the
sum may wrap around, but what comes out is the exact number, for every range of signed words. -/
namespace Spoils.Dice
variable {lo hi : Int64}

private theorem toInt_toInt64 (w : UInt64) :
    w.toInt64.toInt = (w.toNat : Int).bmod 0x10000000000000000 :=
  BitVec.toInt_eq_toNat_bmod w.toBitVec

private theorem toNat_toUInt64 (n : Int64) :
    (n.toUInt64.toNat : Int) = n.toInt % (0x10000000000000000 : Nat) := by
  have small : n.toUInt64.toNat < 0x10000000000000000 := n.toUInt64.toNat_lt
  have wrapped := toInt_toInt64 n.toUInt64
  rw [Int64.toInt64_toUInt64] at wrapped
  rw [wrapped, Int.bmod_emod]
  omega

/-- A difference of signed words can be too large for a signed word, but not for a word. -/
private theorem toNat_toUInt64_sub {m n : Int64} (le : m ≤ n) :
    ((n.toUInt64 - m.toUInt64).toNat : Int) = n.toInt - m.toInt := by
  have ordered := Int64.le_iff_toInt_le.mp le
  have least := m.le_toInt
  have limit := n.toInt_lt
  rw [← Int64.toUInt64_sub, toNat_toUInt64, Int64.toInt_sub, Int.bmod_emod]
  omega

private theorem toNat_distance (a b : Int64) :
    (distance a b).toNat = (a.toInt - b.toInt).natAbs := by
  rw [distance]
  split
  next less =>
    have ordered := Int64.lt_iff_toInt_lt.mp less
    have difference := toNat_toUInt64_sub (Int64.le_of_lt less)
    omega
  next notLess =>
    have le := Int64.not_lt.mp notLess
    have ordered := Int64.le_iff_toInt_le.mp le
    have difference := toNat_toUInt64_sub le
    omega

/-- The remainder and the sum are exact up to wrapping around, and the exact sum is a signed word,
so that nothing is left of the wrapping. -/
theorem toInt_between (filled : lo < hi) (w : UInt64) :
    (between lo hi w).toInt = lo.toInt + (w.toNat % (hi.toInt - lo.toInt).toNat : Nat) := by
  have ordered := Int64.lt_iff_toInt_lt.mp filled
  have span : (distance hi lo).toNat = (hi.toInt - lo.toInt).toNat := by
    rw [toNat_distance]
    omega
  have small := Nat.mod_lt w.toNat (show 0 < (hi.toInt - lo.toInt).toNat by omega)
  have least := lo.le_toInt
  have limit := hi.toInt_lt
  rw [between, Int64.toInt_add, toInt_toInt64, Int.add_bmod_bmod, UInt64.toNat_mod, span]
  exact Int.bmod_eq_of_le (by omega) (by omega)

private theorem between_mem (filled : lo < hi) (w : UInt64) :
    lo ≤ between lo hi w ∧ between lo hi w < hi := by
  have ordered := Int64.lt_iff_toInt_lt.mp filled
  have small := Nat.mod_lt w.toNat (show 0 < (hi.toInt - lo.toInt).toNat by omega)
  rw [Int64.le_iff_toInt_le, Int64.lt_iff_toInt_lt, toInt_between filled]
  omega

/-- A number of the range comes from its distance to the lower end. -/
private theorem between_distance {n : Int64} (least : lo ≤ n) (small : n < hi) :
    between lo hi (distance n lo) = n := by
  have above := Int64.le_iff_toInt_le.mp least
  have below := Int64.lt_iff_toInt_lt.mp small
  apply Int64.toInt_inj.mp
  rw [toInt_between (Int64.lt_of_le_of_lt least small), toNat_distance,
    Nat.mod_eq_of_lt (by omega)]
  omega

private theorem signed_of_lt (filled : lo < hi) (s : Dice) :
    s.signed lo hi = (between lo hi s.word.1, s.word.2) := by
  rw [signed, if_neg (Int64.not_le.mpr filled)]

/-- Draws between signed words are draws from the same range without bounds on the numbers. -/
theorem wideInt_toInt (lo hi : Int64) (s : Dice) :
    s.wideInt lo.toInt hi.toInt = ((s.signed lo hi).1.toInt, (s.signed lo hi).2) := by
  by_cases filled : lo < hi
  · have ordered := Int64.lt_iff_toInt_lt.mp filled
    rw [signed_of_lt filled, toInt_between filled, wideInt, if_neg (by omega)]
  · have empty := Int64.not_lt.mp filled
    rw [signed, if_pos empty, wideInt, if_pos (Int64.le_iff_toInt_le.mp empty)]

/-- Every word comes next for some dice. -/
theorem exists_word (w : UInt64) : ∃ s : Dice, s.word.1 = w := by
  -- the outer parts cancel, and the second one keeps the state from being zero throughout
  refine ⟨⟨w, 1, 0, -w⟩, ?_⟩
  have nothing : Random.rotate 0 23 = 0 := by decide
  simp only [word, UInt64.add_right_neg, nothing, UInt64.zero_add]

/-- A draw from a range of signed words that is not empty, however far apart its ends are, takes one
word and gives the number that exact arithmetic gives. The number lies in the range whichever word
comes next, and every number of the range comes from some word, which is the next of some dice. -/
theorem signed_covers (filled : lo < hi) :
    (∀ s : Dice, s.signed lo hi = (between lo hi s.word.1, s.word.2) ∧
      s.wideInt lo.toInt hi.toInt = ((s.signed lo hi).1.toInt, s.word.2)) ∧
    (∀ w, lo ≤ between lo hi w ∧ between lo hi w < hi) ∧
    ∀ n, lo ≤ n → n < hi → ∃ w, between lo hi w = n ∧ ∃ s : Dice, s.word.1 = w := by
  refine ⟨fun s => ⟨signed_of_lt filled s, ?_⟩, between_mem filled, fun n least small =>
    ⟨distance n lo, between_distance least small, exists_word _⟩⟩
  rw [wideInt_toInt, signed_of_lt filled]

/-- Over the widest range a large word is read as a negative number, and the sum wraps around. -/
theorem signed_covers_widest :
    let lo := Int64.minValue
    let hi := Int64.maxValue
    let w : UInt64 := 0x8000000000000007
    lo < hi ∧ (w % distance hi lo).toInt64 < 0 ∧ between lo hi w = 7 ∧
      (lo ≤ between lo hi w ∧ between lo hi w < hi) ∧
      (∃ v, between lo hi v = hi - 1 ∧ ∃ s : Dice, s.word.1 = v) ∧
      ((Dice.ofSeed 1).signed lo hi).2 = (Dice.ofSeed 1).word.2 := by
  intro lo hi w
  have filled : lo < hi := by decide
  obtain ⟨draws, inside, reached⟩ := signed_covers filled
  exact ⟨filled, by decide, by decide, inside w, reached (hi - 1) (by decide) (by decide),
    congrArg Prod.snd (draws (.ofSeed 1)).1⟩

end Spoils.Dice
