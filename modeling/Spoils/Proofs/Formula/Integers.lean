import Mathlib.Algebra.Ring.Int.Parity
import Spoils.Proofs.Formula.Law

/-! Formulas of integers: the value is the exact one as long as all values on the way to it fit
64 bits, and an error otherwise. Powers are exact for exponents of 32 bits. -/
namespace Spoils

namespace ArithOp

/-- The result in unbounded integers. A remainder has the sign of its dividend. -/
def onIntegers (op : ArithOp) (a b : Int) : Int :=
  match op with
  | .add => a + b
  | .sub => a - b
  | .mult => a * b
  | .exponent => a ^ b.toNat
  | .modulus => a.tmod b
  | .max => Max.max a b
  | .min => Min.min a b

/-- Nothing has a remainder by zero, and the least integer has none by minus one: the quotient is
beyond 64 bits. -/
def isDefinedOn (op : ArithOp) (a b : Int) : Bool :=
  match op with
  | .modulus => decide (b ≠ 0 ∧ ¬(a = Bounds.int64.lo ∧ b = -1))
  | _ => true

end ArithOp

namespace Formula

/-- The value in unbounded integers, of a formula of integers. -/
def integer : Formula → Int
  | .int v => v
  | .arith op a b => op.onIntegers a.integer b.integer
  | _ => 0

/-- Whether that value is defined and fits 64 bits. -/
def fits : Formula → Bool
  | .arith op a b =>
    op.isDefinedOn a.integer b.integer &&
      Bounds.int64.contains (op.onIntegers a.integer b.integer)
  | f => Bounds.int64.contains f.integer

/-- Built from integers of 64 bits by the operators besides powers and quotients. -/
inductive OfIntegers : Formula → Prop
  | int {v : Int} (bounded : Bounds.int64.contains v = true) : OfIntegers (.int v)
  | arith {op : ArithOp} {a b : Formula} (noPower : op ≠ .exponent) (left : OfIntegers a)
      (right : OfIntegers b) : OfIntegers (.arith op a b)

end Formula

/-- A power with an exponent of 64 or more is beyond 64 bits, unless its base is one in size at
most. -/
theorem power_beyond {base : Int} {exponent : Nat} (large : 2 ≤ base.natAbs)
    (wide : 64 ≤ exponent) : Bounds.int64.contains (base ^ exponent) = false := by
  have grown : 2 ^ 64 ≤ (base ^ exponent).natAbs := by
    rw [Int.natAbs_pow]
    calc 2 ^ 64 ≤ 2 ^ exponent := Nat.pow_le_pow_right (by decide) wide
      _ ≤ base.natAbs ^ exponent := Nat.pow_le_pow_left large exponent
  rw [← Bool.not_eq_true, Bounds.contains_iff]
  dsimp only [Bounds.int64]
  omega

private theorem power64_eq (base : Int) (exponent : Nat) :
    power64 base exponent = Bounds.int64.check? (base ^ exponent) := by
  unfold power64
  split
  · rfl
  · rename_i wide
    by_cases small : base.natAbs ≤ 1
    · obtain rfl | rfl | rfl : base = 0 ∨ base = 1 ∨ base = -1 := by omega
      · rw [zero_pow (by omega : exponent ≠ 0)]
        rfl
      · rw [one_pow]
        rfl
      · rw [neg_one_pow_eq_pow_mod_two (R := Int) exponent]
        rcases Nat.mod_two_eq_zero_or_one exponent with even | odd
        · rw [even]
          rfl
        · rw [odd]
          rfl
    · rw [Bounds.check?, power_beyond (by omega) (by omega), if_neg (by omega), if_neg (by omega)]
      rfl

namespace ArithOp
variable {op : ArithOp} {a b : Int}

theorem getD_check? (bounds : Bounds) (n : Int) :
    ((bounds.check? n).map Value.int).getD .error =
      if bounds.contains n = true then .int n else .error := by
  rw [Bounds.check?]
  split <;> rfl

private theorem contains_tmod (hb : Bounds.int64.contains b = true) (nonzero : b ≠ 0) :
    Bounds.int64.contains (a.tmod b) = true := by
  have size : (a.tmod b).natAbs < b.natAbs := by
    rw [Int.natAbs_tmod]
    exact Nat.mod_lt _ (Int.natAbs_pos.mpr nonzero)
  rw [Bounds.contains_iff] at hb ⊢
  dsimp only [Bounds.int64] at hb ⊢
  omega

theorem isDefinedOn_modulus_iff :
    isDefinedOn .modulus a b = true ↔ ¬(b = 0 ∨ a = Bounds.int64.lo ∧ b = -1) := by
  rw [isDefinedOn, decide_eq_true_iff, not_or]

/-- On integers of 64 bits the result is the exact one if it is defined and fits, else an error. -/
theorem onInts_eq (noPower : op ≠ .exponent) (ha : Bounds.int64.contains a = true)
    (hb : Bounds.int64.contains b = true) :
    op.onInts a b =
      if (op.isDefinedOn a b && Bounds.int64.contains (op.onIntegers a b)) = true then
        .int (op.onIntegers a b)
      else .error := by
  cases op with
  | exponent => exact absurd rfl noPower
  | add | sub | mult => exact getD_check? _ _
  | max | min =>
    rw [Bounds.contains_iff] at ha hb
    refine (if_pos ?_).symm
    change Bounds.int64.contains (onIntegers _ a b) = true
    rw [Bounds.contains_iff, onIntegers]
    omega
  | modulus =>
    rw [onInts, modulus64]
    by_cases undefined : b = 0 ∨ a = Bounds.int64.lo ∧ b = -1
    · have refused : isDefinedOn .modulus a b = false := by
        rw [← Bool.not_eq_true, isDefinedOn_modulus_iff]
        exact not_not_intro undefined
      rw [if_pos undefined, refused]
      rfl
    · have bounded := contains_tmod (a := a) hb fun h => undefined (.inl h)
      rw [if_neg undefined, isDefinedOn_modulus_iff.mpr undefined, onIntegers, bounded]
      rfl

/-- A power is exact for an exponent of 32 bits, and one of singles for any other. -/
theorem onInts_exponent (a b : Int) :
    onInts .exponent a b =
      if Bounds.word32.contains b = true then
        if Bounds.int64.contains (a ^ b.toNat) = true then .int (a ^ b.toNat) else .error
      else .single (Float32.pow (.ofInt a) (.ofInt b)) := by
  rw [onInts]
  simp only [power64_eq, getD_check?]

end ArithOp

namespace Formula
variable {f a b : Formula} {op : ArithOp} {x y : Int} {s t u : Scope}

theorem eval_arith_ints (ha : a.eval s = (.int x, t)) (hb : b.eval t = (.int y, u)) :
    (arith op a b).eval s = (op.onInts x y, u) := by
  simp only [eval, ha, hb]
  rfl

private theorem eval_arith_error (ha : a.eval s = (.error, t)) :
    (arith op a b).eval s = (.error, t) := by
  simp only [eval, ha]
  rfl

private theorem eval_arith_int_error (ha : a.eval s = (.int x, t)) (hb : b.eval t = (.error, u)) :
    (arith op a b).eval s = (.error, u) := by
  simp only [eval, ha, hb]
  rfl

theorem forall_parts_arith (op : ArithOp) (a b : Formula) :
    (∀ g ∈ (arith op a b).parts, g.fits = true) ↔ (arith op a b).fits = true ∧
      (∀ g ∈ a.parts, g.fits = true) ∧ ∀ g ∈ b.parts, g.fits = true := by
  rw [parts, inner, List.forall_mem_cons, List.forall_mem_append]
  rfl

private theorem contains_of_fits (hf : f.OfIntegers) (fitting : f.fits = true) :
    Bounds.int64.contains f.integer = true := by
  cases hf with
  | int => exact fitting
  | arith =>
    rw [fits, Bool.and_eq_true] at fitting
    exact fitting.2

/-- A formula of integers has its exact value when the values of all its parts are defined and fit
64 bits, and an error else. It leaves the scope as it is. -/
theorem eval_integer (hf : f.OfIntegers) (s : Scope) :
    f.eval s = (if ∀ g ∈ f.parts, g.fits = true then .int f.integer else .error, s) := by
  induction hf with
  | @int v bounded =>
    have fitting : ∀ g ∈ (int v).parts, g.fits = true := List.forall_mem_singleton.mpr bounded
    rw [if_pos fitting]
    rfl
  | @arith op a b noPower left right iha ihb =>
    by_cases ha : ∀ g ∈ a.parts, g.fits = true
    · rw [if_pos ha] at iha
      by_cases hb : ∀ g ∈ b.parts, g.fits = true
      · rw [if_pos hb] at ihb
        have whole : (∀ g ∈ (arith op a b).parts, g.fits = true) ↔ (arith op a b).fits = true := by
          rw [forall_parts_arith]
          exact and_iff_left ⟨ha, hb⟩
        have bounded := contains_of_fits left (ha a (.head _))
        rw [eval_arith_ints iha ihb, if_congr whole rfl rfl,
          ArithOp.onInts_eq noPower bounded (contains_of_fits right (hb b (.head _)))]
        rfl
      · rw [if_neg hb] at ihb
        rw [eval_arith_int_error iha ihb, if_neg fun h => hb ((forall_parts_arith op a b).mp h).2.2]
    · rw [if_neg ha] at iha
      rw [eval_arith_error iha, if_neg fun h => ha ((forall_parts_arith op a b).mp h).2.1]

/-- The sum of the greatest integer and one is an error, and so is what takes the one away again;
a remainder has the sign of its dividend. -/
theorem eval_integer_overflow :
    let sum : Formula := .arith .sub (.arith .add (.int 0x7fffffffffffffff) (.int 1)) (.int 1)
    let rest : Formula := .arith .modulus (.int (-7)) (.arith .min (.int 3) (.int 4))
    (sum.OfIntegers ∧ sum.integer = 0x7fffffffffffffff ∧ sum.eval {} = (.error, {})) ∧
      rest.OfIntegers ∧ rest.eval {} = (.int (-1), {}) := by
  intro sum rest
  have hsum : sum.OfIntegers :=
    .arith (by decide) (.arith (by decide) (.int rfl) (.int rfl)) (.int rfl)
  have hrest : rest.OfIntegers :=
    .arith (by decide) (.int rfl) (.arith (by decide) (.int rfl) (.int rfl))
  have overflows : ¬∀ g ∈ sum.parts, g.fits = true := by decide
  have fitting : ∀ g ∈ rest.parts, g.fits = true := by decide
  refine ⟨⟨hsum, by decide, ?_⟩, hrest, ?_⟩
  · rw [eval_integer hsum, if_neg overflows]
  · rw [eval_integer hrest, if_pos fitting]
    rfl

/-- A power of integers is exact when it fits 64 bits, and an error else, as long as the exponent
fits 32 bits. Beyond, it is a power of singles. -/
theorem eval_exponent (x : Int) {y : Int} (counts : 0 ≤ y) (s : Scope) :
    (arith .exponent (.int x) (.int y)).eval s =
      (if y ≤ Bounds.word32.hi then
        if Bounds.int64.contains (x ^ y.toNat) = true then .int (x ^ y.toNat) else .error
      else .single (Float32.pow (.ofInt x) (.ofInt y)), s) := by
  have range : Bounds.word32.contains y = true ↔ y ≤ Bounds.word32.hi := by
    rw [Bounds.contains_iff]
    exact and_iff_right counts
  rw [eval_arith_ints rfl rfl, ArithOp.onInts_exponent, if_congr range rfl rfl]

/-- Powers of minus two at both sides of the least integer. -/
theorem eval_exponent_limits :
    (arith .exponent (.int (-2)) (.int 63)).eval {} = (.int (-0x8000000000000000), {}) ∧
      (arith .exponent (.int (-2)) (.int 64)).eval {} = (.error, {}) := by
  have counts : (0 : Int) ≤ 63 ∧ (0 : Int) ≤ 64 := by decide
  constructor
  · rw [eval_exponent (-2) counts.1, if_pos (by decide), if_pos (by decide)]
    rfl
  · rw [eval_exponent (-2) counts.2, if_pos (by decide), if_neg (by decide)]

/-- One to the power of 2 ^ 32 is one, and it evaluates to a single. -/
theorem eval_exponent_wide :
    let power : Formula := .arith .exponent (.int 1) (.int 0x100000000)
    (1 : Int) ^ (0x100000000 : Int).toNat = 1 ∧ (power.eval {}).1 ≠ .int 1 ∧
      (power.eval {}).1 ≠ .error := by
  intro power
  have single : power.eval {} = (.single (Float32.pow (.ofInt 1) (.ofInt 0x100000000)), {}) := by
    rw [eval_arith_ints rfl rfl, ArithOp.onInts_exponent]
    rfl
  rw [single]
  exact ⟨one_pow _, Value.noConfusion, Value.noConfusion⟩

end Formula

end Spoils
