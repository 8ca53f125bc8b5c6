import Spoils.Document.Doc

/-! The two notations of documents, chosen by the name of a file. -/
namespace Spoils

inductive Format where
  | json | ron
deriving DecidableEq, Repr

namespace Format

def read? (f : Format) (text : String) : Option Doc :=
  match f with
  | .json => (Json.read? text).map .written
  | .ron => (Ron.parse? text).map fun (forms, r) => .ron { forms } r

def fileName (path : List Char) : List Char :=
  let path := (path.reverse.dropWhile (· == '/')).reverse
  (path.reverse.takeWhile (· != '/')).reverse

/-- What follows the last point of a file name; a point at the beginning does not count. -/
def ending (path : String) : Option (List Char) :=
  match fileName path.toList with
  | [] => none
  | c :: cs =>
    if (c :: cs) == ['.', '.'] || !cs.contains '.' then none
    else some (cs.reverse.takeWhile (· != '.')).reverse

def ofPath? (path : String) : Option Format :=
  if ending path == some ['r', 'o', 'n'] then some .ron
  else if ending path == some ['j', 's', 'o', 'n'] then some .json
  else none

end Format

end Spoils
