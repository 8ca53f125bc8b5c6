import Spoils.Bounds
import Spoils.Document.RonNumber

/-! Reading object notation. -/
namespace Spoils.Ron

/-- What follows a comment in slashes and stars; comments nest. -/
def blockRest : Nat → List Char → Option (List Char)
  | _, [] => none
  | n, '/' :: '*' :: cs => blockRest (n + 1) cs
  | 0, '*' :: '/' :: cs => some cs
  | n + 1, '*' :: '/' :: cs => blockRest n cs
  | n, _ :: cs => blockRest n cs

/-- What is left after blanks and comments; each round takes at least one character. -/
def skipWith : Nat → List Char → Option (List Char)
  | 0, cs => some cs
  | fuel + 1, cs =>
    match cs with
    | '/' :: '/' :: cs => skipWith fuel (cs.dropWhile (· != '\n'))
    | '/' :: '*' :: cs => (blockRest 0 cs).bind (skipWith fuel)
    | c :: cs =>
      if c = ' ' ∨ c = '\n' ∨ c = '\t' ∨ c = '\r' then skipWith fuel cs else some (c :: cs)
    | [] => some []

def skip (cs : List Char) : Option (List Char) := skipWith (cs.length + 1) cs

def isNameStart (c : Char) : Bool := c.isAlpha || c == '_'

def isNameRest (c : Char) : Bool := c.isAlphanum || c == '_'

/-- Characters of numbers, and of names that are marked as such. -/
def isPart (c : Char) : Bool := isNameRest c || c == '+' || c == '-' || c == '.'

/-- Splits off a name. Only a marked one may hold signs and points; the mark stays. -/
def name? : List Char → Option (String × List Char)
  | 'r' :: '#' :: cs =>
    let part := cs.takeWhile isPart
    if part.isEmpty then none else some (String.ofList ('r' :: '#' :: part), cs.drop part.length)
  | 'r' :: '"' :: _ => none
  | c :: cs =>
    let part := (c :: cs).takeWhile isPart
    if isNameStart c && part.all isNameRest then
      some (String.ofList part, (c :: cs).drop part.length)
    else none
  | [] => none

def escapes : List (Char × Char) :=
  [('"', '"'), ('\\', '\\'), (Char.ofNat 39, Char.ofNat 39), ('n', '\n'), ('r', '\r'),
   ('t', '\t'), ('0', Char.ofNat 0)]

def character? (v : Nat) : Option Char := if v.isValidChar then some (Char.ofNat v) else none

def escaped? (cs : List Char) : Option (Char × List Char) :=
  match cs with
  | 'x' :: a :: b :: cs => do
    let v := numberOf 16 [← hexDigit? a, ← hexDigit? b]
    return (← character? v, cs)
  | 'u' :: c :: cs =>
    if c.toNat = 0x7b then do
      let ds := cs.takeWhile fun c => c.toNat != 0x7d
      if ds.isEmpty ∨ 6 < ds.length then none
      let v := numberOf 16 (← ds.mapM hexDigit?)
      match cs.drop ds.length with
      | _ :: cs => return (← character? v, cs)
      | [] => none
    else none
  | c :: cs => (escapes.find? fun e => e.1 == c).map fun e => (e.2, cs)
  | [] => none

/-- The characters of a string up to its closing quote. -/
def stringRest : Nat → List Char → Option (List Char × List Char)
  | 0, _ => none
  | fuel + 1, cs =>
    match cs with
    | [] => none
    | '"' :: cs => some ([], cs)
    | '\\' :: cs => do
      let (c, cs) ← escaped? cs
      let (rest, cs) ← stringRest fuel cs
      return (c :: rest, cs)
    | c :: cs => do
      let (rest, cs) ← stringRest fuel cs
      return (c :: rest, cs)

/-- The characters of a raw string up to a quote and as many hashes as it began with. -/
def rawRest (ending : List Char) : List Char → Option (List Char × List Char)
  | [] => none
  | c :: cs =>
    if ending.isPrefixOf (c :: cs) then some ([], (c :: cs).drop ending.length)
    else (rawRest ending cs).map fun (rest, cs) => (c :: rest, cs)

/-- The characters of a raw string, which begins with a letter and hashes. -/
def rawString? : List Char → Option (List Char × List Char)
  | 'r' :: cs =>
    match cs.dropWhile (· == '#') with
    | '"' :: rest => rawRest ('"' :: cs.takeWhile (· == '#')) rest
    | _ => none
  | _ => none

/-- Splits off the characters of a number: an integer of 64 bits, or else a real. -/
def number? (cs : List Char) : Option (Ron × List Char) :=
  let part := cs.takeWhile isPart
  let bounds := if part.head? == some '+' || part.head? == some '-' then Bounds.int64
    else Bounds.word64
  if ((integer? part).bind bounds.check?).isSome || (single? part).isSome then
    some (.number (String.ofList part), cs.drop part.length)
  else none

/-- The character of a literal after its opening quote. -/
def quoted? (cs : List Char) : Option (Ron × List Char) := do
  let (c, cs) ←
    match cs with
    | '\\' :: cs => escaped? cs
    | c :: cs => if c.toNat = 39 then none else some (c, cs)
    | [] => none
  match cs with
  | d :: cs => if d.toNat = 39 then return (.character c, cs) else none
  | [] => none

def startsField (cs : List Char) : Bool :=
  match name? cs with
  | some (_, rest) => ((skip rest).bind (·.head?)) == some ':'
  | none => false

/-- After an entry: the closing character, or a comma and what follows it. -/
def separator? (closing : Nat) (cs : List Char) : Option (Bool × List Char) := do
  match ← skip cs with
  | ',' :: cs =>
    match ← skip cs with
    | c :: cs => if c.toNat = closing then return (true, cs) else return (false, c :: cs)
    | [] => none
  | c :: cs => if c.toNat = closing then return (true, cs) else none
  | [] => none

/-- A second comma and the closing character, after the first comma. -/
def spareEnd? (closing : Nat) : List Char → Option (List Char)
  | ',' :: cs => do
    match ← skip cs with
    | c :: cs => if c.toNat = closing then return cs else none
    | [] => none
  | _ => none

mutual

/-- Reads a document; `fuel` bounds the steps and `depth` the nesting. -/
def value : Nat → Nat → List Char → Option (Ron × List Char)
  | 0, _, _ => none
  | _ + 1, 0, _ => none
  | fuel + 1, depth + 1, cs => do
    match ← skip cs with
    | [] => none
    | '"' :: cs => (stringRest fuel cs).map fun (s, cs) => (.text (String.ofList s), cs)
    | '[' :: cs =>
      match ← skip cs with
      | ']' :: cs => return (.list [], cs)
      | cs =>
        let (rs, spare, cs) ← items fuel depth 0x5d cs
        if spare then none else return (.list rs, cs)
    | '(' :: cs => parens fuel depth none cs
    | c :: cs =>
      if c.toNat = 39 then quoted? cs
      else if c.toNat = 0x7b then
        match ← skip cs with
        | [] => none
        | d :: ds =>
          if d.toNat = 0x7d then return (.map [], ds)
          else (entries fuel depth (d :: ds)).map fun (es, cs) => (.map es, cs)
      else
        match rawString? (c :: cs), name? (c :: cs) with
        | some (s, cs), _ => return (.text (String.ofList s), cs)
        | none, none => number? (c :: cs)
        | none, some (label, rest) =>
          match skip rest with
          | some ('(' :: cs) => parens fuel depth (some label) cs
          | _ => return (.name label, rest)

/-- Reads what stands in parentheses: fields or items. -/
def parens : Nat → Nat → Option String → List Char → Option (Ron × List Char)
  | 0, _, _, _ => none
  | fuel + 1, depth, label, cs => do
    match ← skip cs with
    | ')' :: cs => return (.tuple label [] false, cs)
    | cs =>
      if startsField cs then
        (fields fuel depth cs).map fun (fs, cs) => (.record label fs, cs)
      else
        (items fuel depth 0x29 cs).map fun (rs, spare, cs) => (.tuple label rs spare, cs)

/-- Reads items up to the closing character, and whether two commas follow the last one. -/
def items : Nat → Nat → Nat → List Char → Option (List Ron × Bool × List Char)
  | 0, _, _, _ => none
  | fuel + 1, depth, closing, cs => do
    let (r, cs) ← value fuel depth cs
    match ← separator? closing cs with
    | (true, cs) => return ([r], false, cs)
    | (false, cs) =>
      match spareEnd? closing cs with
      | some cs => return ([r], true, cs)
      | none =>
        let (rs, spare, cs) ← items fuel depth closing cs
        return (r :: rs, spare, cs)

def fields : Nat → Nat → List Char → Option (List (String × Ron) × List Char)
  | 0, _, _ => none
  | fuel + 1, depth, cs => do
    let (label, cs) ← name? cs
    match ← skip cs with
    | ':' :: cs =>
      let (r, cs) ← value fuel depth cs
      match ← separator? 0x29 cs with
      | (true, cs) => return ([(label, r)], cs)
      | (false, cs) =>
        let (fs, cs) ← fields fuel depth cs
        return ((label, r) :: fs, cs)
    | _ => none

def entries : Nat → Nat → List Char → Option (List (Ron × Ron) × List Char)
  | 0, _, _ => none
  | fuel + 1, depth, cs => do
    let (k, cs) ← value fuel depth cs
    match ← skip cs with
    | ':' :: cs =>
      let (r, cs) ← value fuel depth cs
      match ← separator? 0x7d cs with
      | (true, cs) => return ([(k, r)], cs)
      | (false, cs) =>
        let (es, cs) ← entries fuel depth cs
        return ((k, r) :: es, cs)
    | _ => none

end

def unmarked (name : String) : String :=
  match name.toList with
  | 'r' :: '#' :: cs => String.ofList cs
  | _ => name

def ShortForms.enable? (forms : ShortForms) (name : String) : Option ShortForms :=
  match name with
  | "unwrap_newtypes" => some { forms with bareWrappers := true }
  | "implicit_some" => some { forms with bareOptions := true }
  | "unwrap_variant_newtypes" => some { forms with bareVariants := true }
  | _ => none

/-- Takes words one after the other, with blanks after each. -/
def words? (words : List String) (cs : List Char) : Option (List Char) :=
  words.foldlM (fun cs word =>
    if word.toList.isPrefixOf cs then skip (cs.drop word.length) else none) cs

/-- Reads names of short forms, with a comma between them and at most one at the end. -/
def enabled : Nat → ShortForms → List Char → Option (ShortForms × List Char)
  | 0, _, _ => none
  | fuel + 1, forms, cs => do
    let (form, cs) ← name? cs
    let forms ← forms.enable? (unmarked form)
    match ← skip cs with
    | ',' :: cs =>
      let cs ← skip cs
      if (cs.head?.map isNameRest).getD false then enabled fuel forms cs else return (forms, cs)
    | cs => return (forms, cs)

/-- Reads the lines at the beginning of a text that allow short forms. -/
def header : Nat → ShortForms → List Char → Option (ShortForms × List Char)
  | 0, _, _ => none
  | fuel + 1, forms, cs => do
    match ← skip cs with
    | '#' :: cs =>
      let cs ← words? ["#", "!", "[", "enable", "("] ('#' :: cs)
      let (forms, cs) ← enabled fuel forms cs
      header fuel forms (← words? [")", "]"] cs)
    | cs => return (forms, cs)

/-- Reads a whole text as one document, with the short forms that it allows. -/
def parse? (s : String) : Option (ShortForms × Ron) := do
  let cs := s.toList
  let (forms, cs) ← header (cs.length + 1) {} cs
  let (r, rest) ← value (3 * cs.length + 3) 128 cs
  if (← skip rest).isEmpty then return (forms, r) else none

end Spoils.Ron
