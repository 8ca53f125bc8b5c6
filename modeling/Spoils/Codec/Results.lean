import Spoils.Audit.Basic
import Spoils.Codec.Settings
import Spoils.Codec.Table

/-! Documents of results, traces and audits. -/
namespace Spoils

namespace Outcome

/-- The names of what happened, joined by bars. -/
def text (o : Outcome) : String :=
  let named : List (Bool × String) :=
    [(o.success, "SUCCESS"), (o.failure, "FAILURE"), (o.part, "PARTIAL_SUCCESS")]
  " | ".intercalate ((named.filter (·.1)).map (·.2))

def toJson (o : Outcome) : Json := .text o.text

end Outcome

namespace Grant

def ofDoc? (d : Doc) : Option Grant := do
  let (label, payload) ← d.variant?
  let amount (make : Int → Grant) : Option Grant := (payload.one?.bind Doc.int32?).map make
  match label with
  | "Item" => (Draft.ofDoc? (← payload.one?)).map .item
  | "Agent" =>
    let fs ← payload.fields? ["agent", "level"]
    return .agent (← fs.need "agent" PrototypeId.ofDoc?) (← fs.need "level" Doc.int32?)
  | "Credits" => amount .credits
  | "Experience" =>
    let fs ← payload.fields? ["curve", "amount"]
    return .experience (← fs.need "curve" CurveId.ofDoc?) (← fs.need "amount" Doc.int32?)
  | "PowerPoints" => amount .powerPoints
  | "HealthBonus" => amount .health
  | "EnduranceBonus" => amount .endurance
  | "RealMoney" =>
    let fs ← payload.fields? ["coupon_code", "transaction_context", "num"]
    return .realMoney (← fs.need "coupon_code" Doc.text?)
      (← fs.need "transaction_context" Doc.text?) (← fs.need "num" Doc.int32?)
  | "VanityTitle" => (PrototypeId.ofDoc? (← payload.one?)).map .vanityTitle
  | "VendorXp" =>
    let fs ← payload.fields? ["vendor", "amount"]
    return .vendorXp (← fs.need "vendor" PrototypeId.ofDoc?) (← fs.need "amount" Doc.int32?)
  | _ => none

def toJson : Grant → Json
  | .item d => .tagged "Item" d.toJson
  | .agent id level => .tagged "Agent" (.object [("agent", id.toJson), ("level", .int level)])
  | .credits amount => .tagged "Credits" (.int amount)
  | .experience curve amount =>
    .tagged "Experience" (.object [("curve", curve.toJson), ("amount", .int amount)])
  | .powerPoints amount => .tagged "PowerPoints" (.int amount)
  | .health amount => .tagged "HealthBonus" (.int amount)
  | .endurance amount => .tagged "EnduranceBonus" (.int amount)
  | .realMoney coupon transaction amount =>
    .tagged "RealMoney" (.object [("coupon_code", .text coupon),
      ("transaction_context", .text transaction), ("num", .int amount)])
  | .vanityTitle title => .tagged "VanityTitle" title.toJson
  | .vendorXp vendor amount =>
    .tagged "VendorXp" (.object [("vendor", vendor.toJson), ("amount", .int amount)])

end Grant

namespace Effect

def ofDoc? (d : Doc) : Option Effect := do
  let (label, payload) ← d.variant?
  match label with
  | "ConsumeCooldown" => (CooldownGate.ofDoc? (← payload.one?)).map .useCooldown
  | "MarkFirstTime" =>
    let fs ← payload.fields? ["node"]
    return .markReceived (← fs.need "node" PrototypeId.ofDoc?)
  | "Callback" => (Callback.ofDoc? (← payload.one?)).map .callback
  | _ => none

def toJson : Effect → Json
  | .useCooldown gate => .tagged "ConsumeCooldown" gate.toJson
  | .markReceived key => .tagged "MarkFirstTime" (.object [("node", key.toJson)])
  | .callback c => .tagged "Callback" c.toJson

end Effect

namespace Stage

def names : List (String × Stage) :=
  [("Selecting", .selecting), ("Drafting", .drafting), ("Mutating", .mutating),
   ("Finalized", .finalized), ("Discarded", .discarded)]

def ofDoc? (d : Doc) : Option Stage := d.choice? names

def toJson (s : Stage) : Json := .text (nameIn names s)

end Stage

def Trace.toJson (t : Trace) : Json :=
  .object [("item", t.item.toJson), ("states", .ofList Stage.toJson t.stages)]

def Results.toJson (r : Results) : Json :=
  .object [("outcome", r.outcome.toJson), ("results", .ofList Grant.toJson r.grants),
    ("effects", .ofList Effect.toJson r.effects), ("traces", .ofList Trace.toJson r.traces)]

namespace DropAudit

def countsToJson (m : SortedMap PrototypeId Nat) : Json :=
  .object (m.entries.map fun e => (toString e.1.val, .ofNat e.2))

def toJson (a : DropAudit) : Json :=
  .object [("table", a.table.toJson), ("rolls", .ofNat a.rolls),
    ("empty_rolls", .ofNat a.emptyRolls), ("items_rolled", .ofNat a.items),
    ("item_counts", countsToJson a.itemCounts), ("rarity_counts", countsToJson a.rarityCounts),
    ("total_affixes", .ofNat a.affixes), ("credits_total", .int a.credits)]

end DropAudit

end Spoils
