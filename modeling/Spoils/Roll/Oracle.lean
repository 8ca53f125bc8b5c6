import Spoils.Branch.Settings
import Spoils.Table.Modifier

/-! What a roll asks the game about the players. -/
namespace Spoils

/-- Answers of the game. The defaults know nothing. -/
structure Oracle where
  isOnCooldown : CooldownGate → Bool := fun _ => false
  hasReceived : PrototypeId → Bool := fun _ => false
  party : List PrototypeId := []
  hasUnlocked : PrototypeId → Bool := fun _ => false
  /-- The experience a vendor still takes today; none when there is no cap. -/
  vendorRemaining : PrototypeId → Option Int := fun _ => none
  missionState : PrototypeId → MissionState := fun _ => .invalid

namespace Oracle

def unknowing : Oracle := {}

/-- Records of the players, as lists. -/
structure Records where
  cooldowns : List PrototypeId := []
  /-- Cooldowns that count for gates of the whole account only. -/
  accountCooldowns : List PrototypeId := []
  received : List PrototypeId := []
  party : List PrototypeId := []
  unlocked : List PrototypeId := []
  vendors : List (PrototypeId × Int) := []
  missions : List (PrototypeId × MissionState) := []

def firstOf {α : Type} (entries : List (PrototypeId × α)) (key : PrototypeId) : Option α :=
  (entries.find? fun e => e.1 == key).map (·.2)

def ofRecords (r : Records) : Oracle where
  isOnCooldown gate :=
    r.cooldowns.contains gate.channel ||
      (gate.perAccount && r.accountCooldowns.contains gate.channel)
  hasReceived := r.received.contains
  party := r.party
  hasUnlocked := r.unlocked.contains
  vendorRemaining := firstOf r.vendors
  missionState id := (firstOf r.missions id).getD .invalid

end Oracle

end Spoils
