import Spoils.Single.Decimal

/-! Trees of JSON documents and their text. -/
namespace Spoils

/-- A JSON document. Numbers with a point or an exponent are doubles when read; singles are only
written. A part of a text that is well formed may have no meaning; it may only be passed over. -/
inductive Json where
  | null
  | bool (v : Bool)
  | int (v : Int)
  | double (v : Float)
  | single (v : Single)
  | text (v : String)
  | array (items : List Json)
  | object (fields : List (String × Json))
  | meaningless
deriving Inhabited

namespace Json

def hexDigit (n : Nat) : Char := Nat.digitChar n

/-- A character as it stands inside a string. -/
def escape (c : Char) : List Char :=
  if c = '"' then ['\\', '"']
  else if c = '\\' then ['\\', '\\']
  else if c = '\n' then ['\\', 'n']
  else if c = '\r' then ['\\', 'r']
  else if c = '\t' then ['\\', 't']
  else if c.toNat = 8 then ['\\', 'b']
  else if c.toNat = 12 then ['\\', 'f']
  else if c.toNat < 32 then
    ['\\', 'u', '0', '0', hexDigit (c.toNat / 16), hexDigit (c.toNat % 16)]
  else [c]

def quote (s : String) : String :=
  "\"" ++ String.ofList (s.toList.flatMap escape) ++ "\""

def atom : Json → String
  | .null => "null"
  | .bool v => if v then "true" else "false"
  | .int v => toString v
  | .double v => Single.compactDouble v
  | .single v => v.compact
  | .text v => quote v
  | .array _ => "[]"
  | .object _ => "\x7b\x7d"
  | .meaningless => "null"

mutual

def compact : Json → String
  | .array items => "[" ++ ",".intercalate (compactAll items) ++ "]"
  | .object fields => "\x7b" ++ ",".intercalate (compactFields fields) ++ "\x7d"
  | .null => atom .null
  | .bool v => atom (.bool v)
  | .int v => atom (.int v)
  | .double v => atom (.double v)
  | .single v => atom (.single v)
  | .text v => atom (.text v)
  | .meaningless => atom .meaningless

def compactAll : List Json → List String
  | [] => []
  | j :: js => compact j :: compactAll js

def compactFields : List (String × Json) → List String
  | [] => []
  | (name, j) :: fs => (quote name ++ ":" ++ compact j) :: compactFields fs

end

/-- Children on lines of their own, indented by two blanks more than what is around them. -/
def nest (depth : Nat) (opening closing : String) (children : List String) : String :=
  let line (n : Nat) := "\n" ++ String.ofList (List.replicate (2 * n) ' ')
  if children.isEmpty then opening ++ closing
  else
    opening ++ line (depth + 1) ++ ("," ++ line (depth + 1)).intercalate children ++ line depth ++
      closing

mutual

/-- The document with one entry a line, at a depth of indentation. -/
def prettyAt : Nat → Json → String
  | depth, .array items => nest depth "[" "]" (prettyAll (depth + 1) items)
  | depth, .object fields => nest depth "\x7b" "\x7d" (prettyFields (depth + 1) fields)
  | _, .null => atom .null
  | _, .bool v => atom (.bool v)
  | _, .int v => atom (.int v)
  | _, .double v => atom (.double v)
  | _, .single v => atom (.single v)
  | _, .text v => atom (.text v)
  | _, .meaningless => atom .meaningless

def prettyAll : Nat → List Json → List String
  | _, [] => []
  | depth, j :: js => prettyAt depth j :: prettyAll depth js

def prettyFields : Nat → List (String × Json) → List String
  | _, [] => []
  | depth, (name, j) :: fs =>
    (quote name ++ ": " ++ prettyAt depth j) :: prettyFields depth fs

end

def pretty (j : Json) : String := prettyAt 0 j

mutual

def mapSingles (f : Single → Json) : Json → Json
  | .single v => f v
  | .array items => .array (mapSinglesAll f items)
  | .object fields => .object (mapSinglesFields f fields)
  | .null => .null
  | .bool v => .bool v
  | .int v => .int v
  | .double v => .double v
  | .text v => .text v
  | .meaningless => .meaningless

def mapSinglesAll (f : Single → Json) : List Json → List Json
  | [] => []
  | j :: js => mapSingles f j :: mapSinglesAll f js

def mapSinglesFields (f : Single → Json) : List (String × Json) → List (String × Json)
  | [] => []
  | (name, j) :: fs => (name, mapSingles f j) :: mapSinglesFields f fs

end

mutual

/-- Whether every part of the document has a meaning. -/
def isMeaningful : Json → Bool
  | .meaningless => false
  | .array items => areMeaningful items
  | .object fields => fieldsAreMeaningful fields
  | .null | .bool _ | .int _ | .double _ | .single _ | .text _ => true

def areMeaningful : List Json → Bool
  | [] => true
  | j :: js => isMeaningful j && areMeaningful js

def fieldsAreMeaningful : List (String × Json) → Bool
  | [] => true
  | (_, j) :: fs => isMeaningful j && fieldsAreMeaningful fs

end

end Json

end Spoils
