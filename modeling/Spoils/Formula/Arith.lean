import Spoils.Formula.Value
import Spoils.Formula.Basic

/-! Arithmetic and comparison of values. Integers stay exact within 64 bits. -/
namespace Spoils

/-- An exact power within 64 bits. From the 64th power on only bases up to one in size fit. -/
def power64 (base : Int) (exponent : Nat) : Option Int :=
  if exponent < 64 then Bounds.int64.check? (Int.pow base exponent)
  else if base = 0 ∨ base = 1 then some base
  else if base = -1 then some (if exponent % 2 = 0 then 1 else -1)
  else none

/-- The truncated remainder; undefined by zero, and where the quotient does not fit. -/
def modulus64 (a b : Int) : Option Int :=
  if b = 0 ∨ (a = Bounds.int64.lo ∧ b = -1) then none else some (a.tmod b)

/-- The result on two integers; an exponent that is no 32-bit count makes a power of singles. -/
def ArithOp.onInts (op : ArithOp) (a b : Int) : Value :=
  let exact (r : Option Int) : Value := (r.map Value.int).getD .error
  match op with
  | .add => exact (Bounds.int64.check? (a + b))
  | .sub => exact (Bounds.int64.check? (a - b))
  | .mult => exact (Bounds.int64.check? (a * b))
  | .modulus => exact (modulus64 a b)
  | .max => .int (Max.max a b)
  | .min => .int (Min.min a b)
  | .exponent =>
    if Bounds.word32.contains b then exact (power64 a b.toNat)
    else .single (Float32.pow (.ofInt a) (.ofInt b))

def ArithOp.onSingles (op : ArithOp) (a b : Single) : Value :=
  match op with
  | .add => .single (a + b)
  | .sub => .single (a - b)
  | .mult => .single (a * b)
  | .exponent => .single (Float32.pow a b)
  | .max => .single (a.larger b)
  | .min => .single (a.smaller b)
  | .modulus => if b == 0 then .error else .single (a.remainder b)

def ArithOp.onValues (op : ArithOp) (a b : Value) : Value :=
  match a, b with
  | .int m, .int n => op.onInts m n
  | a, b =>
    match a.toSingle?, b.toSingle? with
    | some x, some y => op.onSingles x y
    | _, _ => .error

def Value.divide (a b : Value) : Value :=
  match a.toSingle?, b.toSingle? with
  | some x, some y => if y == 0 then .error else .single (x / y)
  | _, _ => .error

def Comparison.onValues (op : Comparison) (a b : Value) : Value :=
  match a, b with
  | .int m, .int n =>
    match op with
    | .greater => .bool (decide (n < m))
    | .less => .bool (decide (m < n))
  | a, b =>
    match a.toSingle?, b.toSingle? with
    | some x, some y =>
      match op with
      | .greater => .bool (decide (y < x))
      | .less => .bool (decide (x < y))
    | _, _ => .error

/-- Equality of two values of one kind; numbers that are not both integers may differ by
`epsilon`. -/
def Value.equals (epsilon : Single) (a b : Value) : Value :=
  match a, b with
  | .int m, .int n => .bool (m == n)
  | .proto p, .proto q => .bool (p == q)
  | .asset p, .asset q => .bool (p == q)
  | .bool p, .bool q => .bool (p == q)
  | .entity p, .entity q => .bool (p == q)
  | a, b =>
    match a.toSingle?, b.toSingle? with
    | some x, some y => .bool (decide ((x - y).abs ≤ epsilon))
    | _, _ => .error

end Spoils
