/-! Texts for a terminal that shows no colours: control sequences are left out. -/
namespace Spoils.Terminal

/-- What the characters before belong to: nothing that is still open, or a sequence that began with
an escape character. Some strings are also closed by a bell. -/
inductive Mode where
  | plain
  | escape
  | intermediate
  | command
  | string (bell : Bool)
deriving DecidableEq, Repr

def isSpacing (c : Char) : Bool :=
  let v := c.toNat
  v == 9 || v == 10 || v == 12 || v == 13

def isControl (c : Char) : Bool := c.toNat < 0x20 || c.toNat == 0x7f

namespace Mode

/-- Where a character leads that neither ends nor begins a sequence as a whole. -/
def within (m : Mode) (c : Char) : Mode :=
  let v := c.toNat
  match m with
  | .plain => .plain
  | .escape =>
    if v < 0x30 then .intermediate
    else if c == '[' then .command
    else if c == ']' then .string true
    else if c == 'P' || c == 'X' || v == 0x5e || c == '_' then .string false
    else .plain
  | .intermediate => if v < 0x30 then .intermediate else .plain
  | .command => if v < 0x40 then .command else .plain
  | .string bell => .string bell

/-- Whether a character is shown, and the mode after it. -/
def step (m : Mode) (c : Char) : Bool × Mode :=
  let v := c.toNat
  if v == 0x1b then (false, .escape)
  else if v == 0x18 || v == 0x1a then (false, .plain)
  else if 0x80 ≤ v then (true, .plain)
  else if isControl c then
    match m with
    | .string bell => (false, if bell && v == 7 then .plain else .string bell)
    | m => if isSpacing c then (true, .plain) else (false, m)
  else (m == .plain, m.within c)

end Mode

def marks : Mode → List Char → List (Bool × Char)
  | _, [] => []
  | m, c :: cs =>
    let (isShown, m) := m.step c
    (isShown, c) :: marks m cs

def shown (cs : List Char) : List Char := ((marks .plain cs).filter (·.1)).map (·.2)

/-- Puts neighbours together that are both shown or both left out. -/
def joined : List (Bool × Char) → List (Bool × List Char)
  | [] => []
  | (isShown, c) :: ms =>
    match joined ms with
    | [] => [(isShown, [c])]
    | (b, cs) :: runs =>
      if b == isShown then (b, c :: cs) :: runs else (isShown, [c]) :: (b, cs) :: runs

/-- The runs of characters that are shown and of those that are not. -/
def runs (cs : List Char) : List (Bool × List Char) := joined (marks .plain cs)

end Spoils.Terminal
