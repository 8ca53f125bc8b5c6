import Spoils.Document.JsonReader
import Spoils.Document.RonReader

/-! Documents of either notation seen through one view: numbers, lists, records, variants. -/
namespace Spoils

namespace Ron

/-- How far inwards a document in object notation may still be read, and which short forms it may
use. -/
structure Context where
  left : Nat := 128
  forms : ShortForms := {}

namespace Context

def enter (c : Context) : Option Context :=
  if c.left = 0 then none else some { c with left := c.left - 1 }

/-- The context of the parts of a whole, which is two steps inwards. A whole without parts takes
only one step. -/
def within {α : Type} (c : Context) (parts : List α) : Option Context := do
  let c ← c.enter
  if parts.isEmpty then return c else c.enter

end Context

/-- Names that never stand in front of parentheses where nothing is read. -/
def atoms : List String := ["Some", "None", "true", "false", "inf", "NaN"]

/-- Whether a whole can be passed over, its parts apart. -/
def hasRoom (left : Nat) (isEmpty : Bool) : Bool := if isEmpty then 1 ≤ left else 2 ≤ left

mutual

/-- Whether a document from which nothing is read may stand so many steps from the limit. -/
def isIgnorable (left : Nat) : Ron → Bool
  | .number _ | .text _ | .character _ => true
  | .name v => v != "Some"
  | .list items => hasRoom left items.isEmpty && areIgnorable (left - 2) items
  | .map entries => hasRoom left entries.isEmpty && entriesAreIgnorable (left - 2) entries
  | .tuple label items spare =>
    if spare then false
    else if label == some "Some" then
      items.length == 1 && hasRoom left true && areIgnorable (left - 1) items
    else if label.isNone && items.isEmpty then true
    else !label.any atoms.contains && hasRoom left items.isEmpty && areIgnorable (left - 2) items
  | .record label fields =>
    !label.any atoms.contains && hasRoom left fields.isEmpty &&
      fieldsAreIgnorable (left - 2) fields

def areIgnorable (left : Nat) : List Ron → Bool
  | [] => true
  | r :: rs => isIgnorable left r && areIgnorable left rs

def entriesAreIgnorable (left : Nat) : List (Ron × Ron) → Bool
  | [] => true
  | (k, r) :: es => isIgnorable left k && isIgnorable left r && entriesAreIgnorable left es

def fieldsAreIgnorable (left : Nat) : List (String × Ron) → Bool
  | [] => true
  | (_, r) :: fs => isIgnorable left r && fieldsAreIgnorable left fs

end

end Ron

/-- A document in one of the two notations. In JSON `written` as a text of its own the named parts
of a variant may also come as a list; elsewhere in JSON they may not. -/
inductive Doc where
  | json (j : Json)
  | written (j : Json)
  | ron (c : Ron.Context) (r : Ron)

abbrev Fields := List (String × Doc)

/-- What belongs to the name of a variant. -/
inductive Payload where
  | bare
  | json (j : Json)
  | written (j : Json)
  | items (c : Ron.Context) (rs : List Ron) (spare : Bool)
  | fields (c : Ron.Context) (fs : List (String × Ron))

def Fields.distinct {α : Type} (known : List String) (fs : List (String × α)) : Bool :=
  known.all fun k => (fs.filter fun f => f.1 == k).length ≤ 1

/-- The fields of an object, of which `make` makes documents. -/
def Fields.ofObject? (known : List String) (make : Json → Doc) (fs : List (String × Json)) :
    Option Fields :=
  if distinct known fs then some (fs.map fun f => (f.1, make f.2)) else none

def Fields.ofArray? (known : List String) (make : Json → Doc) (js : List Json) : Option Fields :=
  if js.length ≤ known.length then some (known.zip (js.map make)) else none

/-- The fields of a record in object notation. Nothing is read from unknown ones. -/
def Fields.ofRecord? (known : List String) (c : Ron.Context) (fs : List (String × Ron)) :
    Option Fields := do
  let c ← c.within fs
  let fs := fs.map fun f => (Ron.unmarked f.1, f.2)
  if distinct known fs && fs.all fun f => known.contains f.1 || f.2.isIgnorable c.left then
    return fs.map fun f => (f.1, .ron c f.2)
  else none

namespace Doc

/-- No reader gives documents that are nested deeper. -/
def maxDepth : Nat := 128

def bool? : Doc → Option Bool
  | .json (.bool v) | .written (.bool v) => some v
  | .ron _ (.name "true") => some true
  | .ron _ (.name "false") => some false
  | _ => none

def int? : Doc → Option Int
  | .json (.int v) | .written (.int v) => some v
  | .ron _ (.number v) => Ron.integer? v.toList
  | _ => none

def nat? : Doc → Option Nat
  | .json (.int v) | .written (.int v) => v.toNat?
  | .ron _ (.number v) => Ron.natural? v.toList
  | _ => none

def intIn? (b : Bounds) (d : Doc) : Option Int := d.int?.bind b.check?

def natIn? (b : Bounds) (d : Doc) : Option Nat :=
  d.nat?.bind fun n => (b.check? n).map (·.toNat)

def int16? : Doc → Option Int := intIn? .int16
def int32? : Doc → Option Int := intIn? .int32
def int64? : Doc → Option Int := intIn? .int64
def nat32? : Doc → Option Nat := natIn? .word32
def nat64? : Doc → Option Nat := natIn? .word64

/-- A number as a single; a double is rounded once more. -/
def single? : Doc → Option Single
  | .json (.int v) | .written (.int v) => some (.ofInt v)
  | .json (.double v) | .written (.double v) => some v.toFloat32
  | .ron _ (.number v) => Ron.single? v.toList
  | .ron _ (.name "inf") => some Single.infinity
  | .ron _ (.name "NaN") => some Single.notANumber
  | _ => none

/-- A single, or the name of a value that JSON numbers cannot write. -/
def extendedSingle? : Doc → Option Single
  | .json (.text "nan") => some Single.notANumber
  | .json (.text "inf") => some Single.infinity
  | .json (.text "-inf") => some (-Single.infinity)
  | d => d.single?

def text? : Doc → Option String
  | .json (.text v) | .written (.text v) => some v
  | .ron _ (.text v) => some v
  | _ => none

def list? : Doc → Option (List Doc)
  | .json (.array js) => some (js.map .json)
  | .written (.array js) => some (js.map .written)
  | .ron c (.list rs) => (c.within rs).map fun c => rs.map (.ron c)
  | _ => none

def listOf? {α : Type} (f : Doc → Option α) (d : Doc) : Option (List α) :=
  d.list?.bind fun ds => ds.mapM f

def tuple? : Doc → Option (List Doc)
  | .json (.array js) => some (js.map .json)
  | .written (.array js) => some (js.map .written)
  | .ron c (.tuple none rs _) => (c.within rs).map fun c => rs.map (.ron c)
  | _ => none

/-- The entries of a map; keys in JSON are texts. -/
def entries? : Doc → Option (List (Doc × Doc))
  | .json (.object fs) => some (fs.map fun f => (.json (.text f.1), .json f.2))
  | .written (.object fs) => some (fs.map fun f => (.written (.text f.1), .written f.2))
  | .ron c (.map es) => (c.within es).map fun c => es.map fun e => (.ron c e.1, .ron c e.2)
  | _ => none

/-- Whether the name that a record of object notation carries, if any, is the right one. -/
def isLabel (name : String) (label : Option String) : Bool :=
  label.all fun l => Ron.unmarked l == name

/-- The fields of a record of a name. In JSON they may also come as a list in their order. -/
def fields? (name : String) (known : List String) : Doc → Option Fields
  | .json (.object fs) => Fields.ofObject? known .json fs
  | .written (.object fs) => Fields.ofObject? known .written fs
  | .json (.array js) => Fields.ofArray? known .json js
  | .written (.array js) => Fields.ofArray? known .written js
  | .ron c (.record label fs) => if isLabel name label then Fields.ofRecord? known c fs else none
  | .ron c (.tuple label [] _) => if isLabel name label then Fields.ofRecord? known c [] else none
  | _ => none

/-- What a wrapper of a name holds. In JSON there is no wrapper to be seen. -/
def wrapped? (name : String) : Doc → Option Doc
  | .ron c r =>
    if c.forms.bareWrappers then c.enter.map (.ron · r)
    else
      match r with
      | .tuple label [r] false => if isLabel name label then c.enter.map (.ron · r) else none
      | _ => none
  | d => some d

def option? {α : Type} (f : Doc → Option α) : Doc → Option (Option α)
  | .json .null | .written .null => some none
  | .ron _ (.name "None") => some none
  | .ron c (.tuple (some "Some") [r] false) => (c.enter.bind fun c => f (.ron c r)).map some
  | .ron c r =>
    let named : Bool :=
      match r with
      | .name label | .tuple (some label) _ _ | .record (some label) _ => label == "Some"
      | _ => false
    if c.forms.bareOptions && !named then (c.enter.bind fun c => f (.ron c r)).map some else none
  | d => (f d).map some

/-- The name of a variant and what belongs to it. -/
def variant? : Doc → Option (String × Payload)
  | .json (.text s) | .written (.text s) => some (s, .bare)
  | .json (.object [(s, j)]) => some (s, .json j)
  | .written (.object [(s, j)]) => some (s, .written j)
  | .ron c r => do
    let c ← c.enter
    let _ ← c.enter
    match r with
    | .name s => return (Ron.unmarked s, .bare)
    | .tuple (some s) rs spare => return (Ron.unmarked s, .items c rs spare)
    | .record (some s) fs => return (Ron.unmarked s, .fields c fs)
    | _ => none
  | _ => none

end Doc

namespace Payload

def unit? : Payload → Option Unit
  | .bare => some ()
  | .json .null | .written .null => some ()
  | _ => none

def one? : Payload → Option Doc
  | .json j => some (.json j)
  | .written j => some (.written j)
  | .items c [r] false => c.enter.map (.ron · r)
  | _ => none

def two? : Payload → Option (Doc × Doc)
  | .json (.array [a, b]) => some (.json a, .json b)
  | .written (.array [a, b]) => some (.written a, .written b)
  | .items c [a, b] _ => (c.within [a, b]).map fun c => (.ron c a, .ron c b)
  | _ => none

def fields? (known : List String) : Payload → Option Fields
  | .json (.object fs) => Fields.ofObject? known .json fs
  | .written (.object fs) => Fields.ofObject? known .written fs
  | .written (.array js) => Fields.ofArray? known .written js
  | .fields c fs => Fields.ofRecord? known c fs
  | .items c [] _ => Fields.ofRecord? known c []
  | _ => none

/-- The fields of a record of a name, which is all that a variant holds. -/
def record? (name : String) (known : List String) : Payload → Option Fields
  | .fields c fs =>
    if c.forms.bareVariants then c.enter.bind fun c => Fields.ofRecord? known c fs else none
  | .items c [] _ =>
    if c.forms.bareVariants then c.enter.bind fun c => Fields.ofRecord? known c [] else none
  | .items c [r] false =>
    if c.forms.bareVariants then none else c.enter.bind fun c => Doc.fields? name known (.ron c r)
  | p => p.one?.bind (Doc.fields? name known)

end Payload

namespace Fields

variable {α : Type}

def get? (fs : Fields) (name : String) : Option Doc :=
  (fs.find? fun f => f.1 == name).map (·.2)

def need (fs : Fields) (name : String) (f : Doc → Option α) : Option α :=
  (get? fs name).bind f

def get (fs : Fields) (name : String) (default : α) (f : Doc → Option α) : Option α :=
  match get? fs name with
  | some d => f d
  | none => some default

/-- A field that may be absent or hold nothing. -/
def maybe (fs : Fields) (name : String) (f : Doc → Option α) : Option (Option α) :=
  get fs name none (Doc.option? f)

end Fields

namespace Doc

variable {α : Type}

/-- The meaning of a variant without data. -/
def choice? (table : List (String × α)) (d : Doc) : Option α := do
  let (name, payload) ← d.variant?
  payload.unit?
  (table.find? fun e => e.1 == name).map (·.2)

/-- A key of a map: a number written in full, which JSON has as text. -/
def keyNat? : Doc → Option Nat
  | .json (.text s) | .written (.text s) =>
    match s.toList with
    | c :: cs =>
      match Json.number false (c :: cs) with
      | some (j, []) => nat64? (.json j)
      | _ => none
    | [] => none
  | d => d.nat64?

def mapOf? {β : Type} (key : Doc → Option α) (f : Doc → Option β) (d : Doc) :
    Option (List (α × β)) :=
  d.entries?.bind fun es => es.mapM fun e => do return (← key e.1, ← f e.2)

end Doc

def nameIn {α : Type} [DecidableEq α] (table : List (String × α)) (a : α) : String :=
  ((table.find? fun e => decide (e.2 = a)).map (·.1)).getD ""

namespace Json

def ofNat (n : Nat) : Json := .int n

def ofList {α : Type} (f : α → Json) (l : List α) : Json := .array (l.map f)

def ofOption {α : Type} (f : α → Json) : Option α → Json
  | some a => f a
  | none => .null

/-- An object with one field: a variant with data. -/
def tagged (name : String) (j : Json) : Json := .object [(name, j)]

end Json

end Spoils
