import Spoils.Roll.State

/-! Drops: what the ends of a loot tree do in a roll. -/
namespace Spoils

def Repeat.roll (t : Repeat) (dice : Dice) : Int × Dice :=
  if t.min == t.max then (t.min, dice) else dice.int t.min (Min.min (t.max + 1) Bounds.int32.hi)

/-- How often the rarity of an abstract item may be lowered until an item fits. -/
def maxDowngrades : Nat := 8

namespace Roll

variable (w : World) (s : BranchSettings)

/-- Runs a step of a roll several times and unites the outcomes. -/
def times (step : Roll → Outcome × Roll) : Nat → Outcome → Roll → Outcome × Roll
  | 0, outcome, r => (outcome, r)
  | n + 1, outcome, r =>
    let (o, r) := step r
    times step n (outcome.union o) r

def level : Int := World.itemLevel s.level s.levelVerbatim

def give (g : Grant) (r : Roll) : Outcome × Roll :=
  let (outcome, r) := r.pushGrant g
  r.finish w s outcome

def giveAmount (make : Int → Grant) (amount : Int) (r : Roll) : Outcome × Roll :=
  if amount ≤ 0 then (.noRoll, r) else r.give w s (make amount)

/-- Ends a step without loot: what waits is dropped. -/
def abandon (r : Roll) : Outcome × Roll := (.failed, r.clearQueue)

/-- Draws a concrete item for a draft, lowering the rarity as long as none fits. -/
def pickLowered (checks : Checks) (candidates : List Item) (avatar : PrototypeId) :
    Nat → Draft → Dice → Option (Item × Draft) × Dice
  | 0, _, dice => (none, dice)
  | attempts + 1, d, dice =>
    match w.pickItem checks candidates d avatar dice with
    | (some item, dice) => (some (item, d), dice)
    | (none, dice) =>
      let below := w.catalog.downgradeOf d.rarity
      if below.isValid then
        pickLowered checks candidates avatar attempts { d with rarity := below } dice
      else (none, dice)

/-- Rolls an item. An abstract one stands for any concrete descendant that fits. -/
def rollItem (item : Item) (mutations : List Mutation) (r : Roll) : Outcome × Roll :=
  let level := level s
  let (avatar, dice) := w.rollAvatar s r.dice
  let (rarity, dice) :=
    w.rollRarity s.rarities level (if item.isAbstract then none else some item) dice
  let r := { r with dice := dice }
  if !rarity.isValid then r.abandon
  else
    let draft := World.draftOf item avatar { rarity := rarity, level := level }
    let queue (d : Draft) (r : Roll) : Outcome × Roll :=
      let (outcome, r) := r.pushItem w d s.checks mutations
      r.finish w s outcome
    if !item.isAbstract then queue draft r
    else
      match pickLowered w s.checks (w.catalog.concreteUnder item.id) avatar maxDowngrades draft
        r.dice with
      | (none, dice) => (.failed, { r with dice := dice })
      | (some (found, d), dice) => queue (World.draftOf found avatar d) { r with dice := dice }

/-- Queues a number of items of a slot; without an avatar's item or a rarity nothing is left. -/
def queueAny (slot : EquipmentSlot) (rank : Int) : Nat → Outcome → Roll → Option Outcome × Roll
  | 0, outcome, r => (some outcome, r)
  | n + 1, outcome, r =>
    let (avatar, dice) := w.rollAvatar s r.dice
    let candidates := w.catalog.concreteForSlot slot avatar
    if candidates.isEmpty then (none, { r with dice := dice })
    else
      match w.rollRarity s.rarities (level s) none dice with
      | (rarity, dice) =>
        if !rarity.isValid then (none, { r with dice := dice })
        else
          let draft : Draft := {
            rarity := rarity, level := level s, rank := rank, slot := slot, rollFor := avatar }
          match w.pickItem s.checks candidates draft avatar dice with
          | (none, dice) => queueAny slot rank n outcome { r with dice := dice }
          | (some item, dice) =>
            let d := { draft with item := item.id, rollFor := item.rollFor avatar }
            let (o, r) := pushItem w d s.checks [] { r with dice := dice }
            queueAny slot rank n (outcome.union o) r

def rollAny (slot : EquipmentSlot) (rank : Int) (count : Repeat) (r : Roll) : Outcome × Roll :=
  if count.min < 1 ∨ rank < 0 ∨ slot = .invalid then (.noRoll, r)
  else
    let (n, dice) := count.roll r.dice
    match queueAny w s slot rank n.toNat .noRoll { r with dice := dice } with
    | (some outcome, r) => r.finish w s outcome
    | (none, r) => r.abandon

def tokens (parent : PrototypeId) (filter : TokenFilter) : List Item :=
  (w.catalog.concreteUnder parent).filter fun token =>
    let character := token.usableBy.head?.getD .none
    match filter with
    | .none => true
    | .currentAvatar => character == s.avatar
    | .unowned => !w.oracle.hasUnlocked character

/-- Rolls one of the tokens, for anyone. -/
def rollToken (candidates : List Item) (r : Roll) : Outcome × Roll :=
  let (avatar, dice) := w.rollAvatar s r.dice
  match w.rollRarity s.rarities (level s) none dice with
  | (rarity, dice) =>
    if !rarity.isValid then abandon { r with dice := dice }
    else
      let checks := { s.checks with usableBy := false }
      let draft : Draft := { rarity := rarity, level := level s }
      match w.pickItem checks candidates draft avatar dice with
      | (none, dice) => (.failed, { r with dice := dice })
      | (some token, dice) =>
        let (outcome, r) :=
          pushItem w (World.draftOf token avatar draft) checks [] { r with dice := dice }
        r.finish w s outcome

/-- Copies an item granted before. Its rarity need not fit any more. -/
def rollCopy (source : Int) (mutations : List Mutation) (r : Roll) : Outcome × Roll :=
  match (r.workshop w s).source? source with
  | none => (.failed, r)
  | some d =>
    let m := r.mutate w s mutations { d with checks := d.copyChecks }
    if m.report.error then m.roll.abandon
    else
      let (outcome, r) := m.roll.pushCopy m.draft
      r.finish w s outcome

/-- Rolls credits: the value of the curve, or up to half as much again. -/
def rollCredits (curve : CurveId) (r : Roll) : Outcome × Roll :=
  match w.catalog.curve? curve with
  | none => (.noRoll, r)
  | some values =>
    let base := values.intAt (level s)
    if base ≤ 0 then (.noRoll, r)
    else
      let (amount, dice) := r.dice.int base (min (base * 3) Bounds.int32.hi / 2 + 1)
      give w s (.credits amount) { r with dice := dice }

/-- The experience of a curve, rounded up. -/
def giveExperience (curve : CurveId) (r : Roll) : Outcome × Roll :=
  match w.catalog.curve? curve with
  | none => (.noRoll, r)
  | some values =>
    r.giveAmount w s (.experience curve) (values.valueAt (level s)).ceilInt32

/-- The experience that a vendor still takes of an amount. -/
def vendorAmount (vendor : PrototypeId) (amount : Int) : Int :=
  if s.flags.contains DropFlags.ignoreCap then amount
  else
    match w.oracle.vendorRemaining vendor with
    | some remaining => min amount (max remaining 0)
    | none => amount

def rollDrop (d : Drop) (r : Roll) : Outcome × Roll :=
  match d with
  | .item id count mutations =>
    match w.catalog.item? id with
    | none => (.failed, r)
    | some item =>
      let (n, dice) := count.roll r.dice
      times (rollItem w s item mutations) n.toNat .noRoll { r with dice := dice }
  | .anyItem slot rank count => r.rollAny w s slot rank count
  | .agent id count =>
    if !w.occasion.intersects Occasion.withAgents then (.failed, r)
    else
      let (n, dice) := count.roll r.dice
      let (outcome, r) := times (pushGrant (.agent id (World.itemLevel s.level true))) n.toNat
        .noRoll { r with dice := dice }
      r.finish w s outcome
  | .credits curve => r.rollCredits w s curve
  | .experience curve => r.giveExperience w s curve
  | .powerPoints amount => r.giveAmount w s .powerPoints amount
  | .health amount => r.giveAmount w s .health amount
  | .endurance amount => r.giveAmount w s .endurance amount
  | .realMoney coupon transaction amount =>
    r.giveAmount w s (.realMoney coupon transaction) amount
  | .vanityTitle title => if title.isValid then r.give w s (.vanityTitle title) else (.noRoll, r)
  | .vendorXp vendor amount =>
    r.giveAmount w s (.vendorXp vendor) (vendorAmount w s vendor amount)
  | .copy source mutations => r.rollCopy w s source mutations
  | .callback c => (.succeeded, if s.isPreview then r else r.addEffect (.callback c))

end Roll

end Spoils
