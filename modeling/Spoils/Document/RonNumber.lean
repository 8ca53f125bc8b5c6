import Spoils.Document.Ron

/-! The numbers of object notation. Integers have bases and underscores; reals have neither. -/
namespace Spoils.Ron

/-- Digits of a base with underscores after the first. -/
def basedDigits? (base : Nat) (cs : List Char) : Option Nat := do
  if cs.isEmpty ∨ cs.head? = some '_' then none
  let ds ← (cs.filter (· != '_')).mapM hexDigit?
  if ds.all (· < base) then return numberOf base ds else none

def natural? : List Char → Option Nat
  | '0' :: 'x' :: cs => basedDigits? 16 cs
  | '0' :: 'b' :: cs => basedDigits? 2 cs
  | '0' :: 'o' :: cs => basedDigits? 8 cs
  | cs => basedDigits? 10 cs

/-- Whether a minus sign comes first, and what follows the sign. -/
def sign : List Char → Bool × List Char
  | '-' :: cs => (true, cs)
  | '+' :: cs => (false, cs)
  | cs => (false, cs)

def integer? (cs : List Char) : Option Int :=
  let (negative, cs) := sign cs
  (natural? cs).map fun n => if negative then -n else n

def toSingle (ds : List Nat) (exponent : Int) : Single :=
  let m := numberOf 10 ds
  let top : Int := exponent + (Nat.toDigits 10 m).length
  if m = 0 ∨ top < -80 then 0
  else if 60 < top then Single.infinity
  else Float32.ofScientific m (exponent < 0) exponent.natAbs

def decimal? (cs : List Char) : Option Single := do
  let (whole, rest) := leadingDigits cs
  let (fraction, rest) :=
    match rest with
    | '.' :: rest => leadingDigits rest
    | rest => ([], rest)
  if whole.isEmpty && fraction.isEmpty then none
  match ← exponent? rest with
  | (exponent, []) => return toSingle (whole ++ fraction) (exponent.getD 0 - fraction.length)
  | _ => none

def single? (cs : List Char) : Option Single :=
  let (negative, cs) := sign cs
  let size :=
    match String.ofList cs with
    | "inf" => some Single.infinity
    | "NaN" => some Single.notANumber
    | _ => decimal? cs
  size.map fun x => if negative then -x else x

end Spoils.Ron
