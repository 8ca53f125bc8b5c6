/-! Characters of numbers and blanks. -/
namespace Spoils

def digit? (c : Char) : Option Nat :=
  let v := c.toNat
  if 48 ≤ v ∧ v ≤ 57 then some (v - 48) else none

def hexDigit? (c : Char) : Option Nat :=
  let v := c.toNat
  if 48 ≤ v ∧ v ≤ 57 then some (v - 48)
  else if 65 ≤ v ∧ v ≤ 70 then some (v - 55)
  else if 97 ≤ v ∧ v ≤ 102 then some (v - 87)
  else none

/-- Blank characters of text, in every script. -/
def isBlank (c : Char) : Bool :=
  let v := c.toNat
  (9 ≤ v && v ≤ 13) || v == 0x20 || v == 0x85 || v == 0xa0 || v == 0x1680 ||
    (0x2000 ≤ v && v ≤ 0x200a) || v == 0x2028 || v == 0x2029 || v == 0x202f || v == 0x205f ||
    v == 0x3000

def trimBlank (cs : List Char) : List Char :=
  ((cs.dropWhile isBlank).reverse.dropWhile isBlank).reverse

/-- Cuts at every mark; there is always at least one part. -/
def cutAt (mark : Char) : List Char → List (List Char)
  | [] => [[]]
  | c :: cs =>
    if c = mark then [] :: cutAt mark cs
    else
      match cutAt mark cs with
      | [] => [[c]]
      | p :: ps => (c :: p) :: ps

/-- Splits off leading decimal digits. -/
def leadingDigits : List Char → List Nat × List Char
  | [] => ([], [])
  | c :: cs =>
    match digit? c with
    | some d =>
      let (ds, rest) := leadingDigits cs
      (d :: ds, rest)
    | none => ([], c :: cs)

/-- The number that digits write in a base. -/
def numberOf (base : Nat) (ds : List Nat) : Nat := ds.foldl (fun n d => base * n + d) 0

/-- The exponent at the end of a number, if there is one. -/
def exponent? (cs : List Char) : Option (Option Int × List Char) :=
  match cs with
  | 'e' :: cs | 'E' :: cs =>
    let (negative, cs) :=
      match cs with
      | '+' :: cs => (false, cs)
      | '-' :: cs => (true, cs)
      | cs => (false, cs)
    match leadingDigits cs with
    | ([], _) => none
    | (ds, cs) =>
      let n : Nat := numberOf 10 ds
      some (some (if negative then -n else n), cs)
  | cs => some (none, cs)

end Spoils
