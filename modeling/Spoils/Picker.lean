import Spoils.Random.Dice

/-! Weighted selection. Entries whose weight is not positive are kept but never drawn. -/
namespace Spoils

/-- Weighted entries in insertion order. -/
structure Picker (α : Type) where
  entries : List (α × Int)
deriving DecidableEq

namespace Picker

variable {α : Type}

def empty : Picker α := ⟨[]⟩

instance : Inhabited (Picker α) := ⟨empty⟩

def add (p : Picker α) (item : α) (weight : Int) : Picker α :=
  ⟨p.entries ++ [(item, weight)]⟩

def uniform (items : List α) : Picker α :=
  ⟨items.map (·, 1)⟩

def items (p : Picker α) : List α := p.entries.map (·.1)

def size (p : Picker α) : Nat := p.entries.length

/-- Sum of the positive weights. -/
def totalWeight (p : Picker α) : Int :=
  p.entries.foldr (fun e total => max e.2 0 + total) 0

def isExhausted (p : Picker α) : Bool := p.totalWeight == 0

/-- The position a rolled number falls on when each entry covers as many numbers as it weighs. -/
def locate : List (α × Int) → Int → Option Nat
  | [], _ => none
  | e :: es, roll =>
    if e.2 ≤ 0 then (locate es roll).map (· + 1)
    else if roll < e.2 then some 0
    else (locate es (roll - e.2)).map (· + 1)

/-- Draws a position with odds by weight; nothing is drawn when no weight is positive. -/
def drawIndex (p : Picker α) (s : Dice) : Option Nat × Dice :=
  if p.totalWeight ≤ 0 then (none, s)
  else
    let (roll, s) := s.wideInt 0 p.totalWeight
    (locate p.entries roll, s)

/-- Draws an item and leaves it in. -/
def sample (p : Picker α) (s : Dice) : Option α × Dice :=
  let (index, s) := p.drawIndex s
  (index.bind fun i => (p.entries[i]?).map (·.1), s)

/-- Draws an item and takes it out. -/
def pick (p : Picker α) (s : Dice) : Option (α × Picker α) × Dice :=
  let (index, s) := p.drawIndex s
  (index.bind fun i => (p.entries[i]?).map fun e => (e.1, ⟨p.entries.eraseIdx i⟩), s)

/-- Draws an item when the rest does not matter. -/
def pickOne (p : Picker α) (s : Dice) : Option α × Dice :=
  let (picked, s) := p.pick s
  (picked.map (·.1), s)

/-- Picks at most `fuel` times, until nothing is drawn. -/
def drainWith : Nat → Picker α → Dice → List α × Picker α × Dice
  | 0, p, s => ([], p, s)
  | fuel + 1, p, s =>
    match p.pick s with
    | (none, s) => ([], p, s)
    | (some (item, rest), s) =>
      let (drawn, left, s) := drainWith fuel rest s
      (item :: drawn, left, s)

/-- Picks until nothing is drawn: the items in order, what stays, and the dice. -/
def drain (p : Picker α) (s : Dice) : List α × Picker α × Dice :=
  drainWith p.size p s

end Picker

end Spoils
