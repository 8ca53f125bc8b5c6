import Spoils.Characters

/-! Sets of named flags: bit operations, and their text as names joined by bars. -/
namespace Spoils

/-- The number whose binary digits are given, lowest first. -/
def bitsToNat : List Bool → Nat
  | [] => 0
  | b :: bs => (if b then 1 else 0) + 2 * bitsToNat bs

/-- A set of flags, one bit each. Bits without a name are kept. -/
abbrev Flags (n : Nat) := BitVec n

namespace Flags

variable {n : Nat}

def contains (a b : Flags n) : Bool := a &&& b == b

def intersects (a b : Flags n) : Bool := a &&& b != 0#n

def union (a b : Flags n) : Flags n := a ||| b

def minus (a b : Flags n) : Flags n := a &&& ~~~ b

/-- The flags of a number; bits outside `known` are dropped. -/
def ofNat (known : Flags n) (v : Nat) : Flags n := BitVec.ofNat n v &&& known

/-- A number in hexadecimal digits, at least one, after an optional plus sign. -/
def hex? (cs : List Char) : Option Nat :=
  let ds := match cs with
    | '+' :: ds => ds
    | ds => ds
  if ds.isEmpty then none else (ds.mapM hexDigit?).map (numberOf 16)

/-- One part: a name, or raw bits after `0x`. -/
def part? (names : List (String × Flags n)) (cs : List Char) : Option (Flags n) :=
  match cs with
  | '0' :: 'x' :: ds =>
    (hex? ds).bind fun v => if v < 1 <<< n then some (BitVec.ofNat n v) else none
  | _ => (names.find? fun e => e.1.toList == cs).map (·.2)

/-- Reads names and raw bits joined by bars; blank text is the empty set. -/
def parse? (names : List (String × Flags n)) (s : String) : Option (Flags n) :=
  let cs := s.toList
  if (trimBlank cs).isEmpty then some 0#n
  else (cutAt '|' cs).foldlM (fun a p => (part? names (trimBlank p)).map (union a)) 0#n

/-- Names of the flags in the set, in the order of the list, and what they leave over. -/
def namesIn : List (String × Flags n) → Flags n → Flags n → List String × Flags n
  | [], _, rest => ([], rest)
  | e :: es, a, rest =>
    if contains a e.2 && intersects rest e.2 then
      let (found, rest) := namesIn es a (minus rest e.2)
      (e.1 :: found, rest)
    else namesIn es a rest

def hexText (v : Nat) : String := "0x" ++ String.ofList (Nat.toDigits 16 v)

/-- The names joined by spaced bars; bits without a name come last. -/
def text (names : List (String × Flags n)) (a : Flags n) : String :=
  let (found, rest) := namesIn names a a
  " | ".intercalate (found ++ if rest = 0#n then [] else [hexText rest.toNat])

end Flags

end Spoils
