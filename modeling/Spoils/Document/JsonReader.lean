import Spoils.Characters
import Spoils.Document.Json

/-! Reading JSON text. A part may be well formed and yet have no meaning: a number beyond the
doubles, a string with half of a pair, or what is nested 128 levels deep. -/
namespace Spoils.Json

def skipBlanks : List Char → List Char
  | [] => []
  | c :: cs => if c = ' ' ∨ c = '\n' ∨ c = '\t' ∨ c = '\r' then skipBlanks cs else c :: cs

/-- Four hexadecimal digits. -/
def unit? (a b c d : Char) : Option Nat := do
  return ((16 * (← hexDigit? a) + (← hexDigit? b)) * 16 + (← hexDigit? c)) * 16 + (← hexDigit? d)

def escapes : List (Char × Char) :=
  [('"', '"'), ('\\', '\\'), ('/', '/'), ('b', Char.ofNat 8), ('f', Char.ofNat 12),
   ('n', '\n'), ('r', '\r'), ('t', '\t')]

/-- A part of a string: a character, or the number of a 16-bit unit. -/
inductive Piece where
  | character (c : Char)
  | unit (v : Nat)
deriving DecidableEq

/-- The parts of a string up to its closing quote; `before` holds earlier ones, last one first. -/
def pieces (before : List Piece) : List Char → Option (List Piece × List Char)
  | [] => none
  | '"' :: cs => some (before.reverse, cs)
  | '\\' :: 'u' :: a :: b :: c :: d :: cs => do
    pieces (.unit (← unit? a b c d) :: before) cs
  | '\\' :: c :: cs => do
    let (_, meaning) ← escapes.find? fun e => e.1 == c
    pieces (.character meaning :: before) cs
  | c :: cs => if c.toNat < 32 then none else pieces (.character c :: before) cs

/-- The characters that parts stand for. The units of a pair have to follow each other. -/
def charactersOf : List Piece → Option (List Char)
  | [] => some []
  | .character c :: ps => (charactersOf ps).map (c :: ·)
  | [.unit v] => if 0xd800 ≤ v ∧ v < 0xe000 then none else some [Char.ofNat v]
  | .unit v :: .unit w :: ps =>
    if 0xd800 ≤ v ∧ v < 0xdc00 then
      if 0xdc00 ≤ w ∧ w < 0xe000 then
        let c := Char.ofNat (0x10000 + (v - 0xd800) * 0x400 + (w - 0xdc00))
        (charactersOf ps).map (c :: ·)
      else none
    else if 0xdc00 ≤ v ∧ v < 0xe000 then none
    else (charactersOf (.unit w :: ps)).map (Char.ofNat v :: ·)
  | .unit v :: ps =>
    if 0xd800 ≤ v ∧ v < 0xe000 then none else (charactersOf ps).map (Char.ofNat v :: ·)

/-- Reads a string after its opening quote; none inside when it has no meaning. -/
def string? (cs : List Char) : Option (Option String × List Char) :=
  (pieces [] cs).map fun (ps, cs) => ((charactersOf ps).map String.ofList, cs)

def maxWord : Nat := 0xffffffffffffffff

/-- Takes digits into a word as long as it holds them; gives the word and the digits left. -/
def gather : Nat → List Nat → Nat × List Nat
  | w, [] => (w, [])
  | w, d :: ds => if 10 * w + d ≤ maxWord then gather (10 * w + d) ds else (w, d :: ds)

/-- A decimal as a double: the word and the power of ten are rounded first, then their product
or quotient. A number that is too large has no meaning. -/
def toDouble (negative : Bool) (word : Nat) (exponent : Int) : Option Float :=
  let sign (x : Float) : Float := if negative then -x else x
  let base := Float.ofNat word
  if 0 ≤ exponent then
    if word = 0 then some (sign 0)
    else if 308 < exponent then none
    else
      let x := base * Float.ofScientific 1 false exponent.toNat
      if x.isInf then none else some (sign x)
  else if exponent < -616 then some (sign 0)
  else if exponent < -308 then
    let x := base / Float.ofScientific 1 false 308
    some (sign (x / Float.ofScientific 1 false (-exponent - 308).toNat))
  else some (sign (base / Float.ofScientific 1 false (-exponent).toNat))

def number (negative : Bool) (cs : List Char) : Option (Json × List Char) := do
  let (whole, rest) ←
    match leadingDigits cs with
    | ([], _) => none
    | (0 :: _ :: _, _) => none
    | found => some found
  let (word, left) := gather 0 whole
  let shift : Int := left.length
  let real (word : Nat) (exponent : Int) (cs : List Char) : Option (Json × List Char) :=
    some (((toDouble negative word exponent).map .double).getD .meaningless, cs)
  match rest with
  | '.' :: cs =>
    match leadingDigits cs with
    | ([], _) => none
    | (fraction, cs) =>
      let (word, dropped) := gather word fraction
      let shift := shift - (fraction.length - dropped.length : Nat)
      let (exponent, cs) ← exponent? cs
      real word (shift + exponent.getD 0) cs
  | cs =>
    match ← exponent? cs with
    | (some exponent, cs) => real word (shift + exponent) cs
    | (none, cs) =>
      if left.isEmpty then
        if negative then
          if 0 < word ∧ word ≤ 0x8000000000000000 then return (.int (-word), cs) else real word 0 cs
        else return (.int word, cs)
      else real word shift cs

def keyword (word : String) (j : Json) (cs : List Char) : Option (Json × List Char) :=
  if word.toList.isPrefixOf cs then some (j, cs.drop word.length) else none

mutual

/-- Reads a document; `fuel` bounds the steps. A list or record that is nested too deeply for
`depth` has no meaning, but what it holds has to be well formed all the same. -/
def value : Nat → Nat → List Char → Option (Json × List Char)
  | 0, _, _ => none
  | fuel + 1, depth, cs =>
    match skipBlanks cs with
    | 'n' :: cs => keyword "ull" .null cs
    | 't' :: cs => keyword "rue" (.bool true) cs
    | 'f' :: cs => keyword "alse" (.bool false) cs
    | '"' :: cs => (string? cs).map fun (s, cs) => ((s.map .text).getD .meaningless, cs)
    | '-' :: cs => number true cs
    | '[' :: cs =>
      let list (js : List Json) : Json := if depth ≤ 1 then .meaningless else .array js
      match skipBlanks cs with
      | ']' :: cs => some (list [], cs)
      | cs => (elements fuel (depth - 1) cs).map fun (js, cs) => (list js, cs)
    | c :: cs =>
      if c.toNat = 0x7b then
        let record (fs : List (Option String × Json)) : Json :=
          if depth ≤ 1 then .meaningless
          else
            match fs.mapM fun f => f.1.map fun name => (name, f.2) with
            | some fs => .object fs
            | none => .meaningless
        match skipBlanks cs with
        | [] => none
        | d :: ds =>
          if d.toNat = 0x7d then some (record [], ds)
          else (members fuel (depth - 1) (d :: ds)).map fun (fs, cs) => (record fs, cs)
      else number false (c :: cs)
    | [] => none

def elements : Nat → Nat → List Char → Option (List Json × List Char)
  | 0, _, _ => none
  | fuel + 1, depth, cs => do
    let (j, cs) ← value fuel depth cs
    match skipBlanks cs with
    | ',' :: cs =>
      let (js, cs) ← elements fuel depth cs
      return (j :: js, cs)
    | ']' :: cs => return ([j], cs)
    | _ => none

def members : Nat → Nat → List Char → Option (List (Option String × Json) × List Char)
  | 0, _, _ => none
  | fuel + 1, depth, cs => do
    match skipBlanks cs with
    | '"' :: cs =>
      let (name, cs) ← string? cs
      match skipBlanks cs with
      | ':' :: cs =>
        let (j, cs) ← value fuel depth cs
        match skipBlanks cs with
        | ',' :: cs =>
          let (fs, cs) ← members fuel depth cs
          return ((name, j) :: fs, cs)
        | c :: cs => if c.toNat = 0x7d then return ([(name, j)], cs) else none
        | [] => none
      | _ => none
    | _ => none

end

/-- Reads a whole text as one document, of which parts may be without meaning. -/
def read? (s : String) : Option Json :=
  let cs := s.toList
  match value (2 * cs.length + 2) 128 cs with
  | some (j, rest) => if (skipBlanks rest).isEmpty then some j else none
  | none => none

/-- Reads a whole text as one document that has a meaning throughout. -/
def parse? (s : String) : Option Json := (read? s).filter (·.isMeaningful)

end Spoils.Json
