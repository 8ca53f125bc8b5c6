import Spoils.Characters
import Spoils.Document.HiddenCharacters
import Spoils.Single.Decimal

/-! Trees of documents in object notation: records, tuples and names besides lists and maps. -/
namespace Spoils

/-- A document in object notation. Records and tuples may carry a name. Numbers and names are kept
as they are written, since what they mean depends on what is read from them. A tuple is `spare` if
a second comma follows its last item. -/
inductive Ron where
  | number (v : String)
  | text (v : String)
  | character (v : Char)
  | list (items : List Ron)
  | map (entries : List (Ron × Ron))
  | name (v : String)
  | tuple (name : Option String) (items : List Ron) (spare : Bool)
  | record (name : Option String) (fields : List (String × Ron))
deriving Inhabited

namespace Ron

/-- Which parts of a document may be left out: the parentheses of a wrapper, the `Some` of a value
that may be absent, and the inner parentheses of a record that is all a variant holds. -/
structure ShortForms where
  bareWrappers : Bool := false
  bareOptions : Bool := false
  bareVariants : Bool := false
deriving DecidableEq, Repr

def ofNat (v : Nat) : Ron := .number (toString v)

def ofSingle (v : Single) : Ron := .number v.pointed

/-- A character as it stands inside a string; hidden ones are written by their number. -/
def escape (c : Char) : List Char :=
  if c = '"' then ['\\', '"']
  else if c = '\\' then ['\\', '\\']
  else if c.toNat = 39 then ['\\', c]
  else if c = '\n' then ['\\', 'n']
  else if c = '\r' then ['\\', 'r']
  else if c = '\t' then ['\\', 't']
  else if c.toNat = 0 then ['\\', '0']
  else if isHidden c then
    ['\\', 'u', Char.ofNat 0x7b] ++ Nat.toDigits 16 c.toNat ++ [Char.ofNat 0x7d]
  else [c]

def quote (s : String) : String :=
  "\"" ++ String.ofList (s.toList.flatMap escape) ++ "\""

/-- Children on lines of their own, each with a comma, indented four blanks more. -/
def nest (depth : Nat) (opening closing : String) (children : List String) : String :=
  let line (n : Nat) := "\n" ++ String.ofList (List.replicate (4 * n) ' ')
  if children.isEmpty then opening ++ closing
  else
    opening ++ String.join (children.map fun c => line (depth + 1) ++ c ++ ",") ++ line depth ++
      closing

mutual

/-- The document with one field or item a line, and tuples on one line. -/
def prettyAt : Nat → Ron → String
  | _, .number v => v
  | _, .text v => quote v
  | _, .character v => String.ofList ([Char.ofNat 39] ++ escape v ++ [Char.ofNat 39])
  | _, .name v => v
  | depth, .list items => nest depth "[" "]" (prettyAll (depth + 1) items)
  | depth, .tuple label items spare =>
    let closing := if spare then ",,)" else ")"
    label.getD "" ++ "(" ++ ", ".intercalate (prettyAll depth items) ++ closing
  | depth, .record label fields =>
    nest depth (label.getD "" ++ "(") ")" (prettyFields (depth + 1) fields)
  | depth, .map entries => nest depth "\x7b" "\x7d" (prettyEntries (depth + 1) entries)

def prettyAll : Nat → List Ron → List String
  | _, [] => []
  | depth, r :: rs => prettyAt depth r :: prettyAll depth rs

def prettyFields : Nat → List (String × Ron) → List String
  | _, [] => []
  | depth, (label, r) :: fs => (label ++ ": " ++ prettyAt depth r) :: prettyFields depth fs

def prettyEntries : Nat → List (Ron × Ron) → List String
  | _, [] => []
  | depth, (k, r) :: es => (prettyAt depth k ++ ": " ++ prettyAt depth r) :: prettyEntries depth es

end

def pretty (r : Ron) : String := prettyAt 0 r

end Ron

end Spoils
