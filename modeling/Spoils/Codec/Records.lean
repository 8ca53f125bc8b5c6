import Spoils.Codec.Property
import Spoils.Formula.HostRecords
import Spoils.Roll.Oracle

/-! Documents of the records that a host and an oracle answer from. -/
namespace Spoils

def Doc.pairsOf? {α β : Type} (f : Doc → Option α) (g : Doc → Option β) (d : Doc) :
    Option (List (α × β)) :=
  d.listOf? fun e => do
    match ← e.tuple? with
    | [a, b] => return (← f a, ← g b)
    | _ => none

namespace Condition

def ofDoc? (d : Doc) : Option Condition := do
  let fs ← d.fields? "Condition" ["id", "keywords", "properties"]
  return {
    id := ← fs.get "id" 0 Doc.nat64?
    keywords := ← fs.get "keywords" [] (Doc.listOf? PrototypeId.ofDoc?)
    properties := ← fs.get "properties" .empty PropertyStore.ofDoc? }

end Condition

def DamageReduction.ofDoc? (d : Doc) : Option DamageReduction := do
  match ← d.tuple? with
  | [kind, level, percent] => return ⟨← kind.int32?, ← level.int64?, ← percent.single?⟩
  | _ => none

def EntityRecord.ofDoc? (d : Doc) : Option EntityRecord := do
  let fs ← d.fields? "Entity" ["id", "properties", "conditions", "keywords", "talents", "level",
    "power_ranks", "calc_power_ranks", "in_party", "reductions", "inventory", "tier", "active",
    "complete"]
  let ids (name : String) : Option (List PrototypeId) :=
    fs.get name [] (Doc.listOf? PrototypeId.ofDoc?)
  let ranks (name : String) : Option (List (PrototypeId × Int)) :=
    fs.get name [] (Doc.pairsOf? PrototypeId.ofDoc? Doc.int64?)
  return {
    id := ← fs.get "id" 0 Doc.nat64?
    properties := ← fs.maybe "properties" PropertyStore.ofDoc?
    conditions := ← fs.get "conditions" [] (Doc.listOf? Condition.ofDoc?)
    keywords := ← ids "keywords"
    talents := ← ids "talents"
    level := ← fs.get "level" 0 Doc.int64?
    powerRanks := ← ranks "power_ranks"
    freshPowerRanks := ← ranks "calc_power_ranks"
    inParty := ← fs.get "in_party" false Doc.bool?
    reductions := ← fs.get "reductions" [] (Doc.listOf? DamageReduction.ofDoc?)
    inventory := ← fs.get "inventory" [] (Doc.pairsOf? PrototypeId.ofDoc? PrototypeId.ofDoc?)
    tier := ← fs.get "tier" .none PrototypeId.ofDoc?
    activeMissions := ← ids "active"
    completeMissions := ← ids "complete" }

def DistanceRecord.ofDoc? (d : Doc) : Option DistanceRecord := do
  match ← d.tuple? with
  | [source, target, edge, distance] =>
    return ⟨← source.nat64?, ← target.nat64?, ← edge.bool?, ← distance.single?⟩
  | _ => none

def HostRecords.ofDoc? (d : Doc) : Option HostRecords := do
  let fs ← d.fields? "Host" ["entities", "distances"]
  return ⟨← fs.get "entities" [] (Doc.listOf? EntityRecord.ofDoc?),
    ← fs.get "distances" [] (Doc.listOf? DistanceRecord.ofDoc?)⟩

def Oracle.Records.ofDoc? (d : Doc) : Option Oracle.Records := do
  let fs ← d.fields? "Oracle" ["cooldown", "account_cooldown", "first_time", "party", "unlocked",
    "vendor_xp", "missions"]
  let ids (name : String) : Option (List PrototypeId) :=
    fs.get name [] (Doc.listOf? PrototypeId.ofDoc?)
  return {
    cooldowns := ← ids "cooldown"
    accountCooldowns := ← ids "account_cooldown"
    received := ← ids "first_time"
    party := ← ids "party"
    unlocked := ← ids "unlocked"
    vendors := ← fs.get "vendor_xp" [] (Doc.pairsOf? PrototypeId.ofDoc? Doc.int32?)
    missions := ← fs.get "missions" []
      (Doc.pairsOf? PrototypeId.ofDoc? (Doc.choice? Names.missionStates)) }

def Oracle.ofDoc? (d : Doc) : Option Oracle := (Oracle.Records.ofDoc? d).map .ofRecords

def Host.ofDoc? (d : Doc) : Option Host := (HostRecords.ofDoc? d).map .ofRecords

end Spoils
