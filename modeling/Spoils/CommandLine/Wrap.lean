import Spoils.Characters
import Spoils.CommandLine.Terminal

/-! Breaking lines of a text between words. -/
namespace Spoils.Wrap

/-- A line that is being filled: how wide it is, and what the lines that continue it begin with. -/
structure Line where
  width : Nat := 0
  margin : Option (List Char) := none

def trimEnd (cs : List Char) : List Char := (cs.reverse.dropWhile isBlank).reverse

def byteSize (cs : List Char) : Nat := (String.ofList cs).utf8ByteSize

/-- The columns that characters take; those from a control to the next `m` take none. -/
def columns (inSequence : Bool) : List Char → Nat
  | [] => 0
  | c :: cs =>
    if Terminal.isControl c then columns true cs
    else if inSequence then columns (c != 'm') cs
    else 1 + columns false cs

def words : List Char → List (List Char)
  | [] => []
  | c :: cs =>
    match words cs with
    | [] => [[c]]
    | w :: ws => if c == ' ' && w.head? != some ' ' then [c] :: w :: ws else (c :: w) :: ws

def lines : List Char → List (List Char)
  | [] => []
  | c :: cs =>
    if c == '\n' then [c] :: lines cs
    else
      match lines cs with
      | [] => [[c]]
      | l :: ls => (c :: l) :: ls

def Line.add (line : Line) (word : List Char) : Line :=
  let core := trimEnd word
  { line with width := line.width + columns false core + byteSize (word.drop core.length) }

/-- Sets words after the word `last`, and breaks the line before each that would end beyond the
limit. -/
def setAfter (limit : Nat) (line : Line) (last : List Char) :
    List (List Char) → List Char × Line
  | [] => (last, line)
  | word :: rest =>
    if limit < line.width + columns false (trimEnd word) then
      let margin := line.margin.getD []
      let next : Line := { line with width := byteSize margin }
      let (cs, line) := setAfter limit (next.add word) word rest
      (trimEnd last ++ '\n' :: margin ++ cs, line)
    else
      let (cs, line) := setAfter limit (line.add word) word rest
      (last ++ cs, line)

/-- Sets the words of one line. Blanks before its first word are repeated where it is broken. -/
def setLine (limit : Nat) (line : Line) (cs : List Char) : List Char × Line :=
  match words cs with
  | [] => ([], line)
  | word :: rest =>
    let margin := line.margin.getD (if (trimEnd word).isEmpty then word else [])
    let line : Line := { line with margin := some margin }
    setAfter limit (line.add word) word rest

def setLines (limit : Nat) (line : Line) : List (List Char) → List Char × Line
  | [] => ([], line)
  | [l] => setLine limit line l
  | l :: ls =>
    let (cs, _) := setLine limit line l
    let (more, line) := setLines limit {} ls
    (cs ++ more, line)

def setRuns (limit : Nat) (line : Line) : List (Bool × List Char) → List Char
  | [] => []
  | (isShown, cs) :: runs =>
    let (set, line) := if isShown then setLines limit line (lines cs) else (cs, line)
    set ++ setRuns limit line runs

/-- Breaks a text into lines of at most `limit` columns where there are spaces. -/
def wrap (limit : Nat) (cs : List Char) : List Char := setRuns limit {} (Terminal.runs cs)

end Spoils.Wrap
