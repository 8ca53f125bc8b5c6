import Spoils.Flags

/-! Where a roll comes from. -/
namespace Spoils

/-- A set of occasions; a roll has one, content may allow several. -/
abbrev Occasion := Flags 32

namespace Occasion

def achievement : Occasion := 0x01#32
def drop : Occasion := 0x02#32
def mission : Occasion := 0x40#32

def names : List (String × Occasion) :=
  [("ACHIEVEMENT_REWARD", 0x01#32), ("DROP", 0x02#32), ("INITIALIZATION", 0x04#32),
   ("CASH_SHOP", 0x08#32), ("CRAFTING", 0x10#32), ("MYSTERY_CHEST", 0x20#32),
   ("MISSION_REWARD", 0x40#32), ("VENDOR", 0x80#32)]

def known : Occasion := 0xff#32

/-- The occasions on which agents appear. -/
def withAgents : Occasion := Flags.union (Flags.union achievement drop) mission

end Occasion

end Spoils
