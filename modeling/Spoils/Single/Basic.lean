import Spoils.Bounds

/-! Binary32 numbers: decoding into mantissa and exponent, whole parts, and the exact remainder.
Sums, products and comparisons are those of `Float32`. -/
namespace Spoils

/-- A single-precision number. -/
abbrev Single := Float32

namespace Single

/-- Sign, mantissa and exponent of a finite number: its size is `mantissa * 2 ^ exponent`. -/
structure Parts where
  negative : Bool
  mantissa : Nat
  exponent : Int
deriving DecidableEq, Repr

/-- The three bit fields: sign, biased exponent and fraction. -/
def fields (x : Single) : Bool × Nat × Nat :=
  let bits := x.toBits.toNat
  (decide (0x80000000 ≤ bits), bits / 0x800000 % 0x100, bits % 0x800000)

/-- The exact value of a finite number; infinities and not-a-number have none. -/
def decode (x : Single) : Option Parts :=
  match x.fields with
  | (negative, biased, fraction) =>
    if biased = 255 then none
    else if biased = 0 then some ⟨negative, fraction, -149⟩
    else some ⟨negative, fraction + 0x800000, biased - 150⟩

def isNotANumber (x : Single) : Bool :=
  x.fields.2.1 == 255 && x.fields.2.2 != 0

def isInfinite (x : Single) : Bool :=
  x.fields.2.1 == 255 && x.fields.2.2 == 0

def isFinite (x : Single) : Bool :=
  x.fields.2.1 != 255

def isNegative (x : Single) : Bool :=
  x.fields.1

def notANumber : Single := Float32.ofBits 0x7fc00000

def infinity : Single := Float32.ofBits 0x7f800000

/-- The number with the given parts; exact when the mantissa has at most 24 bits and the
value is in range. -/
def compose (p : Parts) : Single :=
  let sign : Nat := if p.negative then 0x80000000 else 0
  if p.mantissa = 0 then Float32.ofBits (UInt32.ofNat sign)
  else
    let shift := min (23 - Nat.log2 p.mantissa) (p.exponent + 149).toNat
    let mantissa := p.mantissa <<< shift
    let exponent := p.exponent - shift
    if mantissa < 0x800000 then Float32.ofBits (UInt32.ofNat (sign + mantissa))
    else Float32.ofBits (UInt32.ofNat (sign + (exponent + 149).toNat * 0x800000 + mantissa))

/-- The nearest single to a whole number, ties to even. -/
def ofInt (n : Int) : Single := Float32.ofInt n

/-- The whole number next to a finite value in the direction of zero. -/
def Parts.towardZero (p : Parts) : Int :=
  let size := (p.mantissa <<< p.exponent.toNat) >>> (-p.exponent).toNat
  if p.negative then -size else size

/-- The least whole number that is not below a finite value. -/
def Parts.ceiling (p : Parts) : Int :=
  let scaled := p.mantissa <<< p.exponent.toNat
  let unit := 1 <<< (-p.exponent).toNat
  if p.negative then -(scaled / unit : Nat) else ((scaled + unit - 1) / unit : Nat)

/-- Brings a number into a range after rounding by `round`: beyond the range it is the nearer
end, and not-a-number counts as zero. -/
def saturate (round : Parts → Int) (b : Bounds) (x : Single) : Int :=
  match x.decode with
  | some p => b.clamp (round p)
  | none => if x.isNotANumber then 0 else if x.isNegative then b.lo else b.hi

/-- Truncation to a 32-bit integer, saturating. -/
def toInt32 (x : Single) : Int := x.saturate Parts.towardZero .int32

def toInt64 (x : Single) : Int := x.saturate Parts.towardZero .int64

/-- The ceiling as a 32-bit integer, saturating. -/
def ceilInt32 (x : Single) : Int := x.saturate Parts.ceiling .int32

/-- The exact remainder of truncated division, with the sign of the dividend. -/
def remainder (x y : Single) : Single :=
  match x.decode, y.decode with
  | some p, some q =>
    if q.mantissa = 0 then notANumber
    else
      let exponent := min p.exponent q.exponent
      let a := p.mantissa <<< (p.exponent - exponent).toNat
      let b := q.mantissa <<< (q.exponent - exponent).toNat
      compose ⟨p.negative, a % b, exponent⟩
  | some _, none => if y.isNotANumber then notANumber else x
  | none, _ => notANumber

/-- The larger of two numbers; a number beats not-a-number. -/
def larger (x y : Single) : Single :=
  if x.isNotANumber then y else if y.isNotANumber then x else if x < y then y else x

def smaller (x y : Single) : Single :=
  if x.isNotANumber then y else if y.isNotANumber then x else if y < x then y else x

/-- Brings a number into the unit interval; not-a-number becomes zero. -/
def clampUnit (x : Single) : Single :=
  if x.isNotANumber then 0 else if x < 0 then 0 else if 1 < x then 1 else x

end Single

end Spoils
