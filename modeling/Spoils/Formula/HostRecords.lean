import Spoils.Formula.Scope

/-! A host that answers from records. Of several records for one key the first counts. -/
namespace Spoils

structure DamageReduction where
  damageType : Int
  level : Int
  percent : Single

structure EntityRecord where
  id : Nat := 0
  properties : Option PropertyStore := none
  conditions : List Condition := []
  keywords : List PrototypeId := []
  talents : List PrototypeId := []
  level : Int := 0
  powerRanks : List (PrototypeId × Int) := []
  freshPowerRanks : List (PrototypeId × Int) := []
  inParty : Bool := false
  reductions : List DamageReduction := []
  inventory : List (PrototypeId × PrototypeId) := []
  tier : PrototypeId := .none
  activeMissions : List PrototypeId := []
  completeMissions : List PrototypeId := []

structure DistanceRecord where
  source : Nat
  target : Nat
  edgeToEdge : Bool
  distance : Single

structure HostRecords where
  entities : List EntityRecord := []
  distances : List DistanceRecord := []

namespace EntityRecord

def rankIn (ranks : List (PrototypeId × Int)) (power : PrototypeId) : Option Int :=
  (ranks.find? fun e => e.1 == power).map (·.2)

def powerRank (e : EntityRecord) (power : PrototypeId) : Int := (rankIn e.powerRanks power).getD 0

/-- A power without a fresh rank has its usual one. -/
def freshPowerRank (e : EntityRecord) (power : PrototypeId) : Int :=
  (rankIn e.freshPowerRanks power).getD (e.powerRank power)

def reduction (e : EntityRecord) (damageType level : Int) : Single :=
  ((e.reductions.find? fun r => r.damageType == damageType && r.level == level).map
    (·.percent)).getD 0

/-- No entity asks for anything in the inventory. -/
def holds (e : EntityRecord) (entity inventory : PrototypeId) : Bool :=
  e.inventory.any fun h => h.2 == inventory && (!entity.isValid || h.1 == entity)

end EntityRecord

def Host.ofRecords (r : HostRecords) : Host :=
  let get {α : Type} (id : Nat) (default : α) (f : EntityRecord → α) : α :=
    ((r.entities.find? fun e => e.id == id).map f).getD default
  { properties := fun id => get id none (·.properties)
    conditions := fun id => get id [] (·.conditions)
    hasKeyword := fun id keyword => get id false (·.keywords.contains keyword)
    hasTalent := fun id talent => get id false (·.talents.contains talent)
    combatLevel := fun id => get id 0 (·.level)
    powerRank := fun id power => get id 0 (·.powerRank power)
    freshPowerRank := fun id power => get id 0 (·.freshPowerRank power)
    inParty := fun id => get id false (·.inParty)
    damageReduction := fun id damageType level => get id 0 (·.reduction damageType level)
    distance := fun source target edge =>
      (r.distances.find? fun d =>
        d.source == source && d.target == target && d.edgeToEdge == edge).map (·.distance)
    inInventory := fun id entity inventory => get id false (·.holds entity inventory)
    difficultyTier := fun id => get id .none (·.tier)
    missionActive := fun id mission => get id false (·.activeMissions.contains mission)
    missionComplete := fun id mission => get id false (·.completeMissions.contains mission) }

end Spoils
