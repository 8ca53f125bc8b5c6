import Spoils.Bounds
import Spoils.Occasion
import Spoils.Branch.Settings

/-! How many affixes an item may have at each position and in each category. -/
namespace Spoils

/-- A number of things as a sixteen-bit count. -/
def count16 (n : Nat) : Int := Int.bmod n 0x10000

structure CountRange where
  min : Int := 0
  max : Int := 0
deriving DecidableEq, Repr, Inhabited

/-- The range with `0 ≤ min ≤ max`. -/
def CountRange.normalize (r : CountRange) : CountRange :=
  let top := Max.max r.max 0
  ⟨Max.max 0 (Min.min r.min top), top⟩

structure CategoryLimit where
  category : PrototypeId
  count : Int
deriving DecidableEq, Repr

/-- The limits for one rarity on a set of occasions. -/
structure AffixLimits where
  rarity : PrototypeId := .none
  occasions : Occasion := .drop
  prefixes : CountRange := {}
  suffixes : CountRange := {}
  uniques : CountRange := {}
  teamUps : CountRange := {}
  regionAffixes : CountRange := {}
  ultimates : Int := 0
  cosmics : Int := 0
  blessings : Int := 0
  runewords : Int := 0
  sockets : Int × Int × Int := (0, 0, 0)
  categories : List CategoryLimit := []
deriving DecidableEq

namespace AffixLimits

/-- The count that stands for "without limit". -/
def unlimited : Int := 32767

def normalize (l : AffixLimits) : AffixLimits :=
  { l with
    prefixes := l.prefixes.normalize
    suffixes := l.suffixes.normalize
    uniques := l.uniques.normalize
    teamUps := l.teamUps.normalize
    regionAffixes := l.regionAffixes.normalize }

def appliesTo (l : AffixLimits) (rarity : PrototypeId) (occasion : Occasion) : Bool :=
  l.rarity == rarity && l.occasions.contains occasion

def range (l : AffixLimits) : AffixPosition → CountRange
  | .prefixed => l.prefixes
  | .suffixed => l.suffixes
  | .unique => l.uniques
  | .teamUp => l.teamUps
  | .region => l.regionAffixes
  | .ultimate => ⟨0, l.ultimates⟩
  | .cosmic => ⟨0, l.cosmics⟩
  | .blessing => ⟨0, l.blessings⟩
  | .runeword => ⟨0, l.runewords⟩
  | .socket1 => ⟨0, l.sockets.1⟩
  | .socket2 => ⟨0, l.sockets.2.1⟩
  | .socket3 => ⟨0, l.sockets.2.2⟩
  | .none | .visual | .metadata | .petTech1 | .petTech2 | .petTech3 | .petTech4 | .petTech5 =>
    ⟨0, 0⟩

/-- The greatest count at a position, with the change the branch asks for. -/
def maxCount (l : AffixLimits) (p : AffixPosition) (s : Option BranchSettings) : Int :=
  let delta := (s.bind fun s => s.maxDeltas.find? p).getD 0
  max (Bounds.int16.clamp ((l.range p).max + delta)) 0

/-- The least count at a position, never above the greatest. -/
def minCount (l : AffixLimits) (p : AffixPosition) (s : Option BranchSettings) : Int :=
  let delta := (s.bind fun s => s.minDeltas.find? p).getD 0
  max (min (Bounds.int16.clamp ((l.range p).min + delta)) (l.maxCount p s)) 0

/-- The count wanted by a category entry, with the change the branch asks for. -/
def categoryCount (e : CategoryLimit) (s : Option BranchSettings) : Int :=
  let delta := (s.bind fun s => s.categoryDeltas.find? e.category).getD 0
  max (Bounds.int16.clamp (e.count + delta)) 0

/-- The cap of a category; one that is not listed has none. -/
def categoryMax (l : AffixLimits) (category : PrototypeId) (s : Option BranchSettings) : Int :=
  match l.categories.find? fun e => e.category == category with
  | none => unlimited
  | some e => categoryCount e s

end AffixLimits

end Spoils
