import Spoils.Single.Basic

/-! The shortest decimal that reads back as the same single, and its written forms. -/
namespace Spoils

/-- A decimal `0.d₁d₂… * 10 ^ point` with a sign. -/
structure Decimal where
  negative : Bool
  digits : List Nat
  point : Int
deriving DecidableEq, Repr

/-- Which of two decimals that are equally short and equally near is taken. -/
inductive Tie where
  | larger
  | even
deriving DecidableEq, Repr

namespace Decimal

def digitsOf (n : Nat) : List Nat :=
  (Nat.toDigits 10 n).map fun c => c.toNat - 48

def trim (ds : List Nat) : List Nat :=
  (ds.reverse.dropWhile (· == 0)).reverse

def text (ds : List Nat) : String :=
  String.ofList (ds.map fun d => Char.ofNat (d + 48))

def zeros (n : Nat) : String :=
  String.ofList (List.replicate n '0')

def sign (d : Decimal) : String :=
  if d.negative then "-" else ""

/-- Positional notation; a whole number gets `tail` at its end. -/
def positional (tail : String) (d : Decimal) : String :=
  let n := d.digits.length
  let body :=
    if d.point ≤ 0 then "0." ++ zeros (-d.point).toNat ++ text d.digits
    else if d.point < n then
      text (d.digits.take d.point.toNat) ++ "." ++ text (d.digits.drop d.point.toNat)
    else text d.digits ++ zeros (d.point - n).toNat ++ tail
  d.sign ++ body

/-- One digit before the point and a power of ten, always with its sign. -/
def scientific (d : Decimal) : String :=
  let fraction := text (d.digits.drop 1)
  let body := text (d.digits.take 1) ++ (if fraction.isEmpty then "" else "." ++ fraction)
  let exponent := d.point - 1
  d.sign ++ body ++ (if exponent < 0 then "e" else "e+") ++ toString exponent

end Decimal

namespace Single

/-- The least normal mantissa of a binary format and its least exponent. -/
structure Grid where
  normal : Nat
  least : Int

def singles : Grid := ⟨0x800000, -149⟩

def doubles : Grid := ⟨0x10000000000000, -1074⟩

/-- Numbers that round to a given one lie between `low` and `high`, all over `unit`;
the bounds themselves do so iff `closed`. -/
structure Interval where
  low : Nat
  value : Nat
  high : Nat
  unit : Nat
  closed : Bool

/-- The rounding interval of a positive number. At a power of two the gap below is half as wide. -/
def Parts.interval (g : Grid) (p : Parts) : Interval :=
  let up := 1 <<< p.exponent.toNat
  let below := if p.mantissa = g.normal ∧ g.least < p.exponent then 1 else 2
  { low := (4 * p.mantissa - below) * up
    value := 4 * p.mantissa * up
    high := (4 * p.mantissa + 2) * up
    unit := 4 <<< (-p.exponent).toNat
    closed := p.mantissa % 2 = 0 }

def Interval.holds (i : Interval) (n den : Nat) : Bool :=
  let x := n * i.unit
  if i.closed then i.low * den ≤ x && x ≤ i.high * den
  else i.low * den < x && x < i.high * den

/-- A power of ten; those with a negative exponent count as one. -/
def ten (k : Int) : Nat := Nat.pow 10 k.toNat

/-- The least `k` with `value < 10 ^ k`, searched upwards from `k`. -/
def Interval.magnitude (i : Interval) : Nat → Int → Int
  | 0, k => k
  | fuel + 1, k =>
    if i.value * ten (-k) < i.unit * ten k then k else i.magnitude fuel (k + 1)

/-- The multiple of `10 ^ step` in the interval that is nearest to the value, if there is one. -/
def Interval.onGrid (i : Interval) (tie : Tie) (step : Int) : Option Nat :=
  let down := ten (-step)
  let up := ten step
  let floor := i.value * down / (i.unit * up)
  let inside (n : Nat) : Bool := i.holds (n * up) down
  let twice := 2 * i.value * down
  let middle := (2 * floor + 1) * (i.unit * up)
  let lower := twice < middle || (twice == middle && tie == .even && floor % 2 == 0)
  match inside floor, inside (floor + 1) with
  | true, true => if lower then some floor else some (floor + 1)
  | true, false => some floor
  | false, true => some (floor + 1)
  | false, false => none

/-- The first grid, from coarse to fine, that has a point in the interval. -/
def Interval.search (i : Interval) (tie : Tie) : Nat → Int → Nat × Int
  | 0, step => (i.value / i.unit, step)
  | fuel + 1, step =>
    match i.onGrid tie step with
    | some n => (n, step)
    | none => i.search tie fuel (step - 1)

/-- The shortest decimal that reads back as the number. -/
def shortest (g : Grid) (tie : Tie) (p : Parts) : Decimal :=
  if p.mantissa = 0 then ⟨p.negative, [0], 1⟩
  else
    let i := p.interval g
    let top := i.magnitude 700 (-330)
    let (n, step) := i.search tie 64 (top - 1)
    let ds := Decimal.digitsOf n
    ⟨p.negative, Decimal.trim ds, ds.length + step⟩

/-- The words for numbers without digits. -/
def word (x : Single) : String :=
  if x.isNotANumber then "NaN" else if x.isNegative then "-inf" else "inf"

/-- Plain text: positional, without a point for whole numbers. -/
def plain (x : Single) : String :=
  match x.decode with
  | some p => (shortest singles .larger p).positional ""
  | none => x.word

/-- Positional text that always shows a point. -/
def pointed (x : Single) : String :=
  match x.decode with
  | some p => (shortest singles .larger p).positional ".0"
  | none => x.word

def decodeDouble (x : Float) : Option Parts :=
  let bits := x.toBits.toNat
  let negative := decide (0x8000000000000000 ≤ bits)
  let biased : Nat := bits / 0x10000000000000 % 0x800
  let fraction : Nat := bits % 0x10000000000000
  if biased = 2047 then none
  else if biased = 0 then some ⟨negative, fraction, -1074⟩
  else some ⟨negative, fraction + 0x10000000000000, biased - 1075⟩

/-- Compact text of a double: positional from `1e-5` to below `1e16`, with a power of ten
outside. -/
def compactDouble (x : Float) : String :=
  match decodeDouble x with
  | some p =>
    let d := shortest doubles .even p
    if -4 ≤ d.point ∧ d.point ≤ 16 then d.positional ".0" else d.scientific
  | none => "null"

/-- Compact text: positional from `1e-6` to below `1e13`, with a power of ten outside. -/
def compact (x : Single) : String :=
  match x.decode with
  | some p =>
    let d := shortest singles .even p
    if -5 ≤ d.point ∧ d.point ≤ 13 then d.positional ".0" else d.scientific
  | none => "null"

end Single

end Spoils
