import Spoils.Characters

/-! The files of a directory. -/
namespace Spoils

/-- Texts by the paths of their files. -/
abbrev Files := List (String × String)

namespace Files

/-- The names on the way from a directory to a file in it; a point stands for the way so far. -/
def steps? (path : String) : Option (List (List Char)) :=
  let parts := cutAt '/' path.toList
  let names := parts.filter fun p => !p.isEmpty && p != ['.']
  if parts.head? == some [] || parts.getLast? != names.getLast? then none else some names

def read? (files : Files) (path : String) : Option String := do
  let steps ← steps? path
  (files.find? fun f => steps? f.1 == some steps).map (·.2)

end Files

end Spoils
