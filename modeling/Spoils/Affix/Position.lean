import Spoils.Ids

/-! The positions that affixes take on an item. -/
namespace Spoils

inductive AffixPosition where
  | none | prefixed | suffixed | visual | ultimate | cosmic | unique | blessing | runeword
  | teamUp | metadata | petTech1 | petTech2 | petTech3 | petTech4 | petTech5 | region
  | socket1 | socket2 | socket3
deriving DecidableEq, Repr, Inhabited

namespace AffixPosition

def all : List AffixPosition :=
  [.none, .prefixed, .suffixed, .visual, .ultimate, .cosmic, .unique, .blessing, .runeword,
   .teamUp, .metadata, .petTech1, .petTech2, .petTech3, .petTech4, .petTech5, .region,
   .socket1, .socket2, .socket3]

def index (p : AffixPosition) : Nat := p.ctorIdx

instance : Ord AffixPosition := ⟨fun a b => compare a.index b.index⟩
instance : Std.TransOrd AffixPosition := transOrd_of_key index fun _ _ => rfl
instance : Std.LawfulEqOrd AffixPosition :=
  lawfulEqOrd_of_key index (fun _ _ => rfl) (by
    intro a b h
    cases a <;> cases b <;> first | rfl | cases h)

def name : AffixPosition → String
  | .none => "None"
  | .prefixed => "Prefix"
  | .suffixed => "Suffix"
  | .visual => "Visual"
  | .ultimate => "Ultimate"
  | .cosmic => "Cosmic"
  | .unique => "Unique"
  | .blessing => "Blessing"
  | .runeword => "Runeword"
  | .teamUp => "TeamUp"
  | .metadata => "Metadata"
  | .petTech1 => "PetTech1"
  | .petTech2 => "PetTech2"
  | .petTech3 => "PetTech3"
  | .petTech4 => "PetTech4"
  | .petTech5 => "PetTech5"
  | .region => "RegionAffix"
  | .socket1 => "Socket1"
  | .socket2 => "Socket2"
  | .socket3 => "Socket3"

def label : AffixPosition → String
  | .none => "none"
  | .prefixed => "prefix"
  | .suffixed => "suffix"
  | .visual => "visual"
  | .ultimate => "ultimate"
  | .cosmic => "cosmic"
  | .unique => "unique"
  | .blessing => "blessing"
  | .runeword => "runeword"
  | .teamUp => "team_up"
  | .metadata => "metadata"
  | .petTech1 => "pet_tech_1"
  | .petTech2 => "pet_tech_2"
  | .petTech3 => "pet_tech_3"
  | .petTech4 => "pet_tech_4"
  | .petTech5 => "pet_tech_5"
  | .region => "region_affix"
  | .socket1 => "socket_1"
  | .socket2 => "socket_2"
  | .socket3 => "socket_3"

def isPetTech : AffixPosition → Bool
  | .petTech1 | .petTech2 | .petTech3 | .petTech4 | .petTech5 => true
  | _ => false

/-- Positions with a least count of their own. -/
def hasMinimum : AffixPosition → Bool
  | .prefixed | .suffixed | .unique | .teamUp | .region => true
  | _ => false

/-- Positions that are filled up to a rolled count. -/
def isCounted : AffixPosition → Bool
  | .none | .blessing | .runeword => false
  | p => !p.isPetTech

end AffixPosition

end Spoils
