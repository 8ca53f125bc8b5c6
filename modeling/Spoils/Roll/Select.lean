import Spoils.Roll.Drops
import Spoils.Roll.Modifiers

/-! Walks through loot trees. -/
namespace Spoils

/-- A roll inside a tree, with the settings of the branch it is in. -/
structure Walk where
  settings : BranchSettings
  roll : Roll

/-- What a branch of a tree does to a walk. -/
abbrev Branch := Walk → Outcome × Walk

namespace Walk

def run (walk : Walk) (step : BranchSettings → Roll → Outcome × Roll) : Outcome × Walk :=
  let (outcome, r) := step walk.settings walk.roll
  (outcome, { walk with roll := r })

def draw {α : Type} (walk : Walk) (f : Dice → α × Dice) : α × Walk :=
  let (a, dice) := f walk.roll.dice
  (a, { walk with roll := { walk.roll with dice := dice } })

def addEffect (walk : Walk) (e : Effect) : Walk := { walk with roll := walk.roll.addEffect e }

def deeper (branch : Branch) (walk : Walk) : Outcome × Walk :=
  let settings := { walk.settings with depth := walk.settings.depth + 1 }
  let (outcome, walk) := branch { walk with settings := settings }
  let settings := { walk.settings with depth := walk.settings.depth - 1 }
  (outcome, { walk with settings := settings })

/-- Runs a branch under settings of its own; those around it stay. -/
def under (settings : BranchSettings) (branch : Branch) (walk : Walk) : Outcome × Walk :=
  let (outcome, inner) := branch { walk with settings := settings }
  (outcome, { walk with roll := inner.roll })

end Walk

namespace Branch

def repeated (branch : Branch) : Nat → Outcome → Walk → Outcome × Walk
  | 0, outcome, walk => (outcome, walk)
  | n + 1, outcome, walk =>
    let (o, walk) := branch walk
    repeated branch n (outcome.union o) walk

def every : List Branch → Outcome → Walk → Outcome × Walk
  | [], outcome, walk => (outcome, walk)
  | b :: bs, outcome, walk =>
    let (o, walk) := b walk
    every bs (outcome.union o) walk

/-- Draws a branch by weight, several times; without positive weights nothing is rolled. -/
def weighted (picker : Picker Branch) : Nat → Outcome → Walk → Outcome × Walk
  | 0, outcome, walk => (outcome, walk)
  | n + 1, outcome, walk =>
    match walk.draw picker.sample with
    | (none, walk) => (outcome, walk)
    | (some branch, walk) =>
      let (o, walk) := branch walk
      weighted picker n (outcome.union o) walk

/-- Draws branches one after the other until one succeeds. The outcome is that of the success,
or all failures together. -/
def tryUntil : Nat → Picker Branch → Outcome → Walk → Outcome × Walk
  | 0, _, failures, walk => (failures, walk)
  | fuel + 1, picker, failures, walk =>
    match walk.draw picker.pick with
    | (none, walk) => (failures, walk)
    | (some (branch, picker), walk) =>
      let (o, walk) := branch walk
      if o.success then (o, walk) else tryUntil fuel picker (failures.union o) walk

def tryAll (branches : List Branch) : Branch :=
  tryUntil branches.length (Picker.uniform branches) .noRoll

def forAvatars (branch : Branch) : List PrototypeId → Outcome → Walk → Outcome × Walk
  | [], outcome, walk => (outcome, walk)
  | avatar :: avatars, outcome, walk =>
    let settings := { walk.settings with avatar := avatar, forceUsable := true }
    let (o, walk) := walk.under settings branch
    forAvatars branch avatars (outcome.union o) walk

/-- Grants the target unless its key was received, and has the key recorded. -/
def firstTime (w : World) (key : PrototypeId) (target : Branch) (walk : Walk) : Outcome × Walk :=
  if w.oracle.hasReceived key then (.noRoll, walk)
  else
    let (outcome, walk) := target walk
    if outcome.success && key.isValid && !walk.settings.isPreview then
      (outcome, walk.addEffect (.markReceived key))
    else (outcome, walk)

/-- Grants the target to every avatar of the party, or to that of the settings. -/
def everyAvatar (w : World) (target : Branch) (walk : Walk) : Outcome × Walk :=
  let avatars :=
    if w.oracle.party.isEmpty && walk.settings.avatar.isValid then [walk.settings.avatar]
    else w.oracle.party
  if avatars.isEmpty then target walk else forAvatars target avatars .noRoll walk

/-- Rolls a table over its branches. The chance to drop comes first; without a drop the table
still succeeds. -/
def table (w : World) (spec : TableSpec) (branches : List (Branch × Int)) (walk : Walk) :
    Outcome × Walk :=
  if spec.times.min < 1 || branches.isEmpty then (.noRoll, walk)
  else if w.maxDepth < walk.settings.depth then (.failed, walk)
  else
    let (drops, walk) := walk.draw (w.rollsDrop walk.settings spec.noDrop)
    if !drops then walk.run fun s r => r.finish w s .succeeded
    else
      walk.deeper fun walk =>
        let (n, walk) := walk.draw spec.times.roll
        match spec.method with
        | .weighted => weighted ⟨branches⟩ n.toNat .noRoll walk
        | .tryAll => repeated (tryAll (branches.map (·.1))) n.toNat .noRoll walk
        | .every => repeated (every (branches.map (·.1)) .noRoll) n.toNat .noRoll walk

def reference (w : World) (id : PrototypeId) (times : Repeat) (follow : LootNode → Branch)
    (walk : Walk) : Outcome × Walk :=
  match w.catalog.lootTable? id with
  | none => (.failed, walk)
  | some t =>
    if w.maxDepth < walk.settings.depth then (.failed, walk)
    else
      walk.deeper fun walk =>
        let (n, walk) := walk.draw times.roll
        repeated (follow t.root) n.toNat .noRoll walk

def token (w : World) (parent : PrototypeId) (filter : TokenFilter) (fallback : Option Branch)
    (walk : Walk) : Outcome × Walk :=
  let candidates := Roll.tokens w walk.settings parent filter
  if candidates.isEmpty then
    match fallback with
    | some branch => branch walk
    | none => (.failed, walk)
  else walk.run fun s r => r.rollToken w s candidates

/-- Puts modifiers in front of a branch. They change a copy of the settings; a restriction or a
cooldown closes the branch, and a success uses the cooldown up. -/
def modified (w : World) (modifiers : List Modifier) (branch : Branch) (walk : Walk) :
    Outcome × Walk :=
  if modifiers.isEmpty then branch walk
  else
    let (settings, walk) := walk.draw (Modifier.applyAll w modifiers walk.settings)
    if settings.isRestricted then (.failed, walk)
    else
      let gate := settings.enforcedGate?
      if gate.any w.oracle.isOnCooldown then (.noRoll, walk)
      else
        let (outcome, walk) := walk.under { settings with cooldown := none } branch
        match gate with
        | some gate =>
          (outcome, if outcome.success then walk.addEffect (.useCooldown gate) else walk)
        | none => (outcome, walk)

end Branch

namespace LootNode

mutual

/-- Rolls a node; `follow` rolls the root of a table that is referred to. -/
def selectWith (w : World) (follow : LootNode → Branch) : LootNode → Branch
  | .table head spec entries =>
    Branch.modified w head.modifiers (Branch.table w spec (branchesWith w follow entries))
  | .reference head id times =>
    Branch.modified w head.modifiers (Branch.reference w id times follow)
  | .action head kind key target =>
    let target := selectWith w follow target
    Branch.modified w head.modifiers <|
      match kind with
      | .firstTime => Branch.firstTime w key target
      | .everyAvatar => Branch.everyAvatar w target
  | .token head parent filter fallback =>
    Branch.modified w head.modifiers
      (Branch.token w parent filter (fallbackWith w follow fallback))
  | .drop head d =>
    Branch.modified w head.modifiers fun walk => walk.run fun s r => r.rollDrop w s d

def branchesWith (w : World) (follow : LootNode → Branch) : List LootNode → List (Branch × Int)
  | [] => []
  | n :: ns => (selectWith w follow n, n.weight) :: branchesWith w follow ns

def fallbackWith (w : World) (follow : LootNode → Branch) : Option LootNode → Option Branch
  | none => none
  | some n => some (selectWith w follow n)

end

/-- Rolls a node with references at most `fuel` deep. -/
def selectAt (w : World) : Nat → LootNode → Branch
  | 0 => selectWith w fun _ walk => (.failed, walk)
  | fuel + 1 => selectWith w (selectAt w fuel)

/-- Rolls a node. Every reference is one table deeper, so as many can be nested as the depth
leaves room for. -/
def select (w : World) (n : LootNode) (walk : Walk) : Outcome × Walk :=
  selectAt w (w.maxDepth + 1 - walk.settings.depth) n walk

end LootNode

structure Request where
  world : World
  settings : BranchSettings := {}
  seed : UInt64 := 0

def LootNode.roll (n : LootNode) (q : Request) : Results :=
  let (outcome, walk) := n.select q.world ⟨q.settings, .start q.seed⟩
  walk.roll.results outcome.normalize

end Spoils
