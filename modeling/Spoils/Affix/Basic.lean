import Spoils.Affix.Position

/-! Affixes: what they are, whom they match, and how they treat a second copy. -/
namespace Spoils

/-- What happens when an affix meets itself on an item. -/
inductive Duplicates where
  | fail | ignore | overwrite | append
deriving DecidableEq, Repr, Inhabited

structure Affix where
  id : PrototypeId
  name : String := ""
  position : AffixPosition
  weight : Int := 1
  keywords : List PrototypeId := []
  categories : List PrototypeId := []
  /-- Ancestors of the items the affix may be on; none allows every item. -/
  typeFilters : List PrototypeId := []
  /-- What the affix may be narrowed to; none leaves it general. -/
  scopes : List PrototypeId := []
  duplicates : Duplicates := .fail
  levelRequirement : Int := 0
  isGem : Bool := false
deriving DecidableEq

namespace Affix

def hasAllKeywords (a : Affix) (keywords : List PrototypeId) : Bool :=
  keywords.all a.keywords.contains

/-- No requested keyword is met by every affix. -/
def hasAnyKeyword (a : Affix) (keywords : List PrototypeId) : Bool :=
  keywords.isEmpty || keywords.any a.keywords.contains

def hasCategory (a : Affix) (category : PrototypeId) : Bool :=
  a.categories.contains category

/-- No requested category is met by every affix. -/
def hasAnyCategory (a : Affix) (categories : List PrototypeId) : Bool :=
  categories.isEmpty || categories.any a.hasCategory

def firstCategory? (a : Affix) (categories : List PrototypeId) : Option PrototypeId :=
  categories.find? a.hasCategory

end Affix

structure AffixFilter where
  position : AffixPosition := .none
  keywords : List PrototypeId := []
  categories : List PrototypeId := []
deriving DecidableEq

/-- Whether an affix passes; no position allows all of them. -/
def AffixFilter.accepts (f : AffixFilter) (a : Affix) : Bool :=
  (f.position == .none || a.position == f.position) && a.hasAnyKeyword f.keywords &&
    a.hasAnyCategory f.categories

end Spoils
