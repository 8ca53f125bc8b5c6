import Spoils.Proofs.Roll.Around

/-! What nodes do, one call at a time. A course stops wherever another node is to be rolled and goes
on with what comes of that roll; it knows nothing of how nodes are rolled. With some way to roll
them put in, a course ends like the branch of its node. -/
namespace Spoils

/-- What is left to do for a node: nothing, or another node is rolled first. -/
inductive Course where
  | ended (outcome : Outcome) (walk : Walk)
  | enter (n : LootNode) (walk : Walk) (rest : Outcome → Walk → Course)

namespace Course

/-- Goes on where a course is over. -/
def bind : Course → (Outcome → Walk → Course) → Course
  | .ended o walk, next => next o walk
  | .enter n walk rest, next => .enter n walk fun o walk => (rest o walk).bind next

/-- The end of a course when every node is rolled in some way. -/
def eval (select : LootNode → Branch) : Course → Outcome × Walk
  | .ended o walk => (o, walk)
  | .enter n walk rest => (rest (select n walk).1 (select n walk).2).eval select

theorem eval_bind (select : LootNode → Branch) (c : Course) (next : Outcome → Walk → Course) :
    (c.bind next).eval select = (next (c.eval select).1 (c.eval select).2).eval select := by
  induction c with
  | ended o walk => rfl
  | enter n walk rest ih => exact ih _ _

end Course

/-- The course that begins with a walk. -/
abbrev Route := Walk → Course

namespace Route

/-- Does what a branch does, which rolls no nodes. -/
def ofBranch (b : Branch) : Route := fun walk => .ended (b walk).1 (b walk).2

def node (n : LootNode) : Route := fun walk => .enter n walk .ended

def deeper (route : Route) : Route := fun walk =>
  (route { walk with
    settings := { walk.settings with depth := walk.settings.depth + 1 } }).bind fun o walk =>
      .ended o { walk with settings := { walk.settings with depth := walk.settings.depth - 1 } }

def under (settings : BranchSettings) (route : Route) : Route := fun walk =>
  (route { walk with settings := settings }).bind fun o inner =>
    .ended o { walk with roll := inner.roll }

def repeated (route : Route) : Nat → Outcome → Route
  | 0, outcome, walk => .ended outcome walk
  | n + 1, outcome, walk =>
    (route walk).bind fun o walk => repeated route n (outcome.union o) walk

def every : List LootNode → Outcome → Route
  | [], outcome, walk => .ended outcome walk
  | n :: ns, outcome, walk => .enter n walk fun o walk => every ns (outcome.union o) walk

def weighted (picker : Picker LootNode) : Nat → Outcome → Route
  | 0, outcome, walk => .ended outcome walk
  | n + 1, outcome, walk =>
    match walk.draw picker.sample with
    | (none, walk) => .ended outcome walk
    | (some m, walk) => .enter m walk fun o walk => weighted picker n (outcome.union o) walk

def tryUntil : Nat → Picker LootNode → Outcome → Route
  | 0, _, failures, walk => .ended failures walk
  | fuel + 1, picker, failures, walk =>
    match walk.draw picker.pick with
    | (none, walk) => .ended failures walk
    | (some (m, picker), walk) => .enter m walk fun o walk =>
      if o.success then .ended o walk else tryUntil fuel picker (failures.union o) walk

def tryAll (ns : List LootNode) : Route := tryUntil ns.length (Picker.uniform ns) .noRoll

def forAvatars (target : LootNode) : List PrototypeId → Outcome → Route
  | [], outcome, walk => .ended outcome walk
  | avatar :: avatars, outcome, walk =>
    (under { walk.settings with avatar := avatar, forceUsable := true } (node target) walk).bind
      fun o walk => forAvatars target avatars (outcome.union o) walk

def firstTime (w : World) (key : PrototypeId) (target : LootNode) : Route := fun walk =>
  if w.oracle.hasReceived key then .ended .noRoll walk
  else .enter target walk fun o walk =>
    if o.success && key.isValid && !walk.settings.isPreview then
      .ended o (walk.addEffect (.markReceived key))
    else .ended o walk

def everyAvatar (w : World) (target : LootNode) : Route := fun walk =>
  let avatars :=
    if w.oracle.party.isEmpty && walk.settings.avatar.isValid then [walk.settings.avatar]
    else w.oracle.party
  if avatars.isEmpty then node target walk else forAvatars target avatars .noRoll walk

def table (w : World) (spec : TableSpec) (entries : List LootNode) : Route := fun walk =>
  if spec.times.min < 1 || entries.isEmpty then .ended .noRoll walk
  else if w.maxDepth < walk.settings.depth then .ended .failed walk
  else
    let (drops, walk) := walk.draw (w.rollsDrop walk.settings spec.noDrop)
    if !drops then ofBranch (fun walk => walk.run fun s r => r.finish w s .succeeded) walk
    else
      walk |> deeper fun walk =>
        let (n, walk) := walk.draw spec.times.roll
        match spec.method with
        | .weighted => weighted ⟨entries.map fun m => (m, m.weight)⟩ n.toNat .noRoll walk
        | .tryAll => repeated (tryAll entries) n.toNat .noRoll walk
        | .every => repeated (every entries .noRoll) n.toNat .noRoll walk

def reference (w : World) (id : PrototypeId) (times : Repeat) : Route := fun walk =>
  match w.catalog.lootTable? id with
  | none => .ended .failed walk
  | some t =>
    if w.maxDepth < walk.settings.depth then .ended .failed walk
    else
      walk |> deeper fun walk =>
        let (n, walk) := walk.draw times.roll
        repeated (node t.root) n.toNat .noRoll walk

def token (w : World) (parent : PrototypeId) (filter : TokenFilter)
    (fallback : Option LootNode) : Route := fun walk =>
  let candidates := Roll.tokens w walk.settings parent filter
  if candidates.isEmpty then
    match fallback with
    | some n => node n walk
    | none => .ended .failed walk
  else ofBranch (fun walk => walk.run fun s r => r.rollToken w s candidates) walk

def modified (w : World) (modifiers : List Modifier) (route : Route) : Route := fun walk =>
  if modifiers.isEmpty then route walk
  else
    let (settings, walk) := walk.draw (Modifier.applyAll w modifiers walk.settings)
    if settings.isRestricted then .ended .failed walk
    else
      let gate := settings.enforcedGate?
      if gate.any w.oracle.isOnCooldown then .ended .noRoll walk
      else
        (under { settings with cooldown := none } route walk).bind fun o walk =>
          match gate with
          | some gate => .ended o (if o.success then walk.addEffect (.useCooldown gate) else walk)
          | none => .ended o walk

/-- A route ends like a branch, wherever it begins. -/
def Renders (select : LootNode → Branch) (route : Route) (b : Branch) : Prop :=
  ∀ walk, (route walk).eval select = b walk

section
variable {select : LootNode → Branch} {route : Route} {b : Branch} {w : World}

private theorem ofBranch_renders (b : Branch) : Renders select (ofBranch b) b := fun _ => rfl

private theorem node_renders (n : LootNode) : Renders select (node n) (select n) := fun _ => rfl

private theorem deeper_renders (h : Renders select route b) :
    Renders select (deeper route) (Walk.deeper b) := by
  intro walk
  rw [deeper, Course.eval_bind, h]
  rfl

private theorem under_renders (settings : BranchSettings) (h : Renders select route b) :
    Renders select (under settings route) fun walk => walk.under settings b := by
  intro walk
  rw [under, Course.eval_bind, h]
  rfl

private theorem repeated_renders (h : Renders select route b) (n : Nat) (o : Outcome) :
    Renders select (repeated route n o) (Branch.repeated b n o) := by
  intro walk
  induction n generalizing o walk with
  | zero => rfl
  | succ n ih =>
    rw [repeated, Course.eval_bind, h]
    exact ih _ _

private theorem every_renders (ns : List LootNode) (o : Outcome) :
    Renders select (every ns o) (Branch.every (ns.map select) o) := by
  intro walk
  induction ns generalizing o walk with
  | nil => rfl
  | cons n ns ih => exact ih _ _

private theorem weighted_renders (picker : Picker LootNode) (n : Nat) (o : Outcome) :
    Renders select (weighted picker n o) (Branch.weighted (picker.map select) n o) := by
  intro walk
  induction n generalizing o walk with
  | zero => rfl
  | succ n ih =>
    simp only [weighted, Branch.weighted, Walk.draw, Picker.sample_map]
    rcases picker.sample walk.roll.dice with ⟨_ | m, dice⟩
    · rfl
    · exact ih _ _

private theorem tryUntil_renders (fuel : Nat) (picker : Picker LootNode) (o : Outcome) :
    Renders select (tryUntil fuel picker o) (Branch.tryUntil fuel (picker.map select) o) := by
  intro walk
  induction fuel generalizing picker o walk with
  | zero => rfl
  | succ fuel ih =>
    simp only [tryUntil, Branch.tryUntil, Walk.draw, Picker.pick_map]
    rcases picker.pick walk.roll.dice with ⟨_ | ⟨m, rest⟩, dice⟩
    · rfl
    · simp only [Option.map_some, Course.eval]
      split
      · rfl
      · exact ih _ _ _

private theorem tryAll_renders (ns : List LootNode) :
    Renders select (tryAll ns) (Branch.tryAll (ns.map select)) := by
  rw [tryAll, Branch.tryAll, List.length_map, Picker.uniform_map]
  exact tryUntil_renders _ _ _

private theorem forAvatars_renders (target : LootNode) (avatars : List PrototypeId) (o : Outcome) :
    Renders select (forAvatars target avatars o) (Branch.forAvatars (select target) avatars o) := by
  intro walk
  induction avatars generalizing o walk with
  | nil => rfl
  | cons avatar avatars ih =>
    rw [forAvatars, Course.eval_bind, under_renders _ (node_renders target)]
    exact ih _ _

private theorem firstTime_renders (key : PrototypeId) (target : LootNode) :
    Renders select (firstTime w key target) (Branch.firstTime w key (select target)) := by
  intro walk
  simp only [firstTime, Branch.firstTime]
  split
  · rfl
  · simp only [Course.eval]
    split <;> rfl

theorem everyAvatar_eq (target : LootNode) (walk : Walk) : everyAvatar w target walk =
    if (w.avatarsFor walk.settings).isEmpty then node target walk
    else forAvatars target (w.avatarsFor walk.settings) .noRoll walk := rfl

private theorem everyAvatar_renders (target : LootNode) :
    Renders select (everyAvatar w target) (Branch.everyAvatar w (select target)) := by
  intro walk
  rw [everyAvatar_eq, Branch.everyAvatar_eq]
  split
  · rfl
  · exact forAvatars_renders target _ _ walk

private theorem table_renders (spec : TableSpec) (entries : List LootNode) :
    Renders select (table w spec entries)
      (Branch.table w spec (entries.map fun n => (select n, n.weight))) := by
  intro walk
  have first : (entries.map fun n => (select n, n.weight)).map (·.1) = entries.map select := by
    rw [List.map_map]
    rfl
  have weights : (⟨entries.map fun n => (select n, n.weight)⟩ : Picker Branch) =
      (⟨entries.map fun n => (n, n.weight)⟩ : Picker LootNode).map select := by
    rw [Picker.map, List.map_map]
    rfl
  simp only [table, Branch.table, List.isEmpty_map]
  split
  · rfl
  · split
    · rfl
    · rcases walk.draw (w.rollsDrop walk.settings spec.noDrop) with ⟨drops, next⟩
      simp only
      split
      · rfl
      · refine deeper_renders (fun walk => ?_) next
        rcases walk.draw spec.times.roll with ⟨n, next⟩
        simp only [first, weights]
        cases spec.method with
        | weighted => exact weighted_renders _ _ _ next
        | tryAll => exact repeated_renders (tryAll_renders entries) _ _ next
        | every => exact repeated_renders (every_renders entries .noRoll) _ _ next

private theorem reference_renders (id : PrototypeId) (times : Repeat) :
    Renders select (reference w id times) (Branch.reference w id times select) := by
  intro walk
  rw [reference, Branch.reference]
  cases w.catalog.lootTable? id with
  | none => rfl
  | some t =>
    by_cases deep : w.maxDepth < walk.settings.depth
    · simp only [deep, if_true]
      rfl
    · simp only [deep, if_false]
      refine deeper_renders (fun walk => ?_) walk
      exact repeated_renders (node_renders t.root) _ _ _

private theorem token_renders (parent : PrototypeId) (filter : TokenFilter)
    (fallback : Option LootNode) :
    Renders select (token w parent filter fallback)
      (Branch.token w parent filter (fallback.map select)) := by
  intro walk
  simp only [token, Branch.token]
  split
  · cases fallback <;> rfl
  · rfl

private theorem modified_renders (ms : List Modifier) (h : Renders select route b) :
    Renders select (modified w ms route) (Branch.modified w ms b) := by
  intro walk
  simp only [modified, Branch.modified]
  split
  · exact h walk
  · rcases walk.draw (Modifier.applyAll w ms walk.settings) with ⟨settings, next⟩
    simp only
    split
    · rfl
    · split
      · rfl
      · rw [Course.eval_bind, under_renders _ h]
        cases settings.enforcedGate? <;> rfl

end

end Route

namespace LootNode
variable {w : World} {follow : LootNode → Branch}

/-- What a node does behind its modifiers. -/
def body (w : World) : LootNode → Route
  | .table _ spec entries => Route.table w spec entries
  | .reference _ id times => Route.reference w id times
  | .action _ .firstTime key target => Route.firstTime w key target
  | .action _ .everyAvatar _ target => Route.everyAvatar w target
  | .token _ parent filter fallback => Route.token w parent filter fallback
  | .drop _ d => Route.ofBranch fun walk => walk.run fun s r => r.rollDrop w s d

def course (w : World) (n : LootNode) : Route := Route.modified w n.modifiers (n.body w)

/-- What a node does when the nodes that it enters are rolled in some way. -/
def branch (w : World) (select : LootNode → Branch) : LootNode → Branch
  | .table head spec entries =>
    Branch.modified w head.modifiers
      (Branch.table w spec (entries.map fun n => (select n, n.weight)))
  | .reference head id times =>
    Branch.modified w head.modifiers (Branch.reference w id times select)
  | .action head .firstTime key target =>
    Branch.modified w head.modifiers (Branch.firstTime w key (select target))
  | .action head .everyAvatar _ target =>
    Branch.modified w head.modifiers (Branch.everyAvatar w (select target))
  | .token head parent filter fallback =>
    Branch.modified w head.modifiers (Branch.token w parent filter (fallback.map select))
  | .drop head d =>
    Branch.modified w head.modifiers fun walk => walk.run fun s r => r.rollDrop w s d

/-- The course of a node ends like its branch, however other nodes are rolled. -/
theorem course_renders (select : LootNode → Branch) (n : LootNode) :
    Route.Renders select (n.course w) (n.branch w select) := by
  cases n with
  | table head spec entries =>
    exact Route.modified_renders _ (Route.table_renders spec entries)
  | reference head id times =>
    exact Route.modified_renders _ (Route.reference_renders id times)
  | action head kind key target =>
    cases kind with
    | firstTime => exact Route.modified_renders _ (Route.firstTime_renders key target)
    | everyAvatar => exact Route.modified_renders _ (Route.everyAvatar_renders target)
  | token head parent filter fallback =>
    exact Route.modified_renders _ (Route.token_renders parent filter fallback)
  | drop head d => exact Route.modified_renders _ (Route.ofBranch_renders _)

/-- How the nodes are rolled that a node enters. -/
def onward (w : World) (follow : LootNode → Branch) : LootNode → LootNode → Branch
  | .reference .. => follow
  | _ => selectWith w follow

theorem selectWith_eq_branch (w : World) (follow : LootNode → Branch) (n : LootNode) :
    selectWith w follow n = n.branch w (n.onward w follow) := by
  cases n with
  | table head spec entries =>
    rw [selectWith, branchesWith_eq_map]
    rfl
  | reference head id times => rw [selectWith, branch, onward]
  | action head kind key target =>
    cases kind with
    | firstTime =>
      rw [selectWith]
      rfl
    | everyAvatar =>
      rw [selectWith]
      rfl
  | token head parent filter fallback =>
    rw [selectWith, fallbackWith_eq]
    rfl
  | drop head d =>
    rw [selectWith]
    rfl

end LootNode

end Spoils
