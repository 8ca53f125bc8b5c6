import Spoils.Random.Dice

/-! Drawn numbers lie in the range they were asked for. -/
namespace Spoils.Dice

private theorem halfWord_lt (s : Dice) : s.halfWord.1 < 0x100000000 := by
  have small : s.word.1.toNat < 0x10000000000000000 := s.word.1.toNat_lt
  exact Nat.div_lt_of_lt_mul small

private theorem accept_lt {span : Nat} (positive : 0 < span) (attempts : Nat) (s : Dice) :
    (accept span attempts s).1 < span := by
  induction attempts generalizing s with
  | zero => exact positive
  | succ attempts ih =>
    rw [accept]
    rcases hv : s.halfWord with ⟨v, next⟩
    simp only
    split
    · have small : v < 0x100000000 := by
        have := s.halfWord_lt
        rwa [hv] at this
      exact Nat.div_lt_of_lt_mul (Nat.mul_lt_mul_of_pos_right small positive)
    · exact ih next

theorem int_mem {lo hi : Int} (h : lo < hi) (s : Dice) :
    lo ≤ (s.int lo hi).1 ∧ (s.int lo hi).1 < hi := by
  have positive : 0 < (hi - lo).toNat := by omega
  have drawn := accept_lt positive 4096 s
  rw [int, if_neg (by omega)]
  simp only
  omega

theorem chance_of_le {percent : Int} (sure : 100 ≤ percent) (s : Dice) :
    (s.chance percent).1 = true := by
  have small := (s.int_mem (show (0 : Int) < 100 by decide)).2
  exact decide_eq_true (Int.lt_of_lt_of_le small sure)

theorem wideInt_mem {lo hi : Int} (h : lo < hi) (s : Dice) :
    lo ≤ (s.wideInt lo hi).1 ∧ (s.wideInt lo hi).1 < hi := by
  have drawn := Nat.mod_lt s.word.1.toNat (show 0 < (hi - lo).toNat by omega)
  rw [wideInt, if_neg (by omega)]
  simp only
  omega

end Spoils.Dice
