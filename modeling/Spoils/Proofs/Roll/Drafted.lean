import Spoils.Proofs.Roll.Leaves
import Spoils.Proofs.Roll.Nesting

/-! What a roll drafts: what its leaves do, in the order in which they are rolled. Every item leaves
its trace, and there are no other traces. -/
namespace Spoils

/-- The walk behind modifiers, if they let it through. -/
def Modifier.passed? (w : World) (modifiers : List Modifier) (walk : Walk) : Option Walk :=
  if modifiers.isEmpty then some walk
  else
    let (settings, walk) := walk.draw (applyAll w modifiers walk.settings)
    if settings.isRestricted || settings.enforcedGate?.any w.oracle.isOnCooldown then none
    else some { walk with settings := { settings with cooldown := none } }

/-- The nodes that are entered on a course, with the walks that they begin with, when every node is
rolled in some way. -/
def Course.calls (select : LootNode → Branch) : Course → List (LootNode × Walk)
  | .ended .. => []
  | .enter n walk rest => (n, walk) :: (rest (select n walk).1 (select n walk).2).calls select

/-- From a roll where nothing waits a course drafts some items before it enters a node, and no others
but by the nodes that it enters. -/
inductive Course.Logs : List (Draft × List Mutation) → Roll → Course → Prop where
  | ended {log r o walk} (logs : Roll.Logs log r walk.roll) : Logs log r (.ended o walk)
  | enter {log r n walk rest} (logs : Roll.Logs log r walk.roll)
      (goesOn : ∀ o walk', walk'.roll.queue = [] → Logs [] walk'.roll (rest o walk')) :
      Logs log r (.enter n walk rest)

namespace Course.Logs
variable {log log' : List (Draft × List Mutation)} {r : Roll} {c : Course}

theorem after {start : Roll} (h : Logs log' r c) (first : Roll.Logs log start r) :
    Logs (log ++ log') start c := by
  cases h with
  | ended logs => exact .ended (first.trans logs)
  | enter logs goesOn => exact .enter (first.trans logs) goesOn

theorem bind {next : Outcome → Walk → Course} (h : c.Logs log r)
    (goesOn : ∀ o walk, walk.roll.queue = [] → (next o walk).Logs [] walk.roll) :
    (c.bind next).Logs log r := by
  induction h with
  | @ended log r o walk logs =>
    have whole := (goesOn o walk logs.idle).after logs
    rwa [List.append_nil] at whole
  | enter logs _ ih => exact .enter logs fun o walk idle => ih o walk idle

/-- The whole course drafts what the nodes draft that it enters, after its own items. -/
theorem eval {select : LootNode → Branch} {drafted : LootNode × Walk → List (Draft × List Mutation)}
    (h : c.Logs log r)
    (each : ∀ call ∈ c.calls select, call.2.roll.queue = [] →
      Roll.Logs (drafted call) call.2.roll (select call.1 call.2).2.roll) :
    Roll.Logs (log ++ (c.calls select).flatMap drafted) r (c.eval select).2.roll := by
  induction h with
  | ended logs =>
    rw [calls, List.flatMap_nil, List.append_nil]
    exact logs
  | enter logs _ ih =>
    obtain ⟨first, others⟩ := List.forall_mem_cons.mp each
    have entered := first logs.idle
    exact logs.trans (entered.trans (ih _ _ entered.idle others))

end Course.Logs

/-- Wherever nothing waits, the route drafts items only by the nodes that it enters. -/
def Route.Quiet (route : Route) : Prop :=
  ∀ walk, walk.roll.queue = [] → (route walk).Logs [] walk.roll

namespace Route
variable {w : World} {route : Route} {walk : Walk} {log : List (Draft × List Mutation)}

private theorem ended_quiet (o : Outcome) : Quiet fun walk => .ended o walk :=
  fun _ idle => .ended (.refl idle)

private theorem node_quiet (n : LootNode) : Quiet (node n) :=
  fun _ idle => .enter (.refl idle) fun _ _ idle => .ended (.refl idle)

/-- A draw comes before whatever goes on quietly. -/
theorem after_draw {α : Type} (f : Dice → α × Dice) {c : Course} (idle : walk.roll.queue = [])
    (h : c.Logs [] (walk.draw f).2.roll) : c.Logs [] walk.roll := by
  have drawn : Roll.Logs [] walk.roll (walk.draw f).2.roll := .still rfl rfl idle
  exact h.after drawn

private theorem deeper_quiet (h : Quiet route) : Quiet (deeper route) := by
  intro walk idle
  have inner := h
    { walk with settings := { walk.settings with depth := walk.settings.depth + 1 } } idle
  exact inner.bind fun _ _ idle => .ended (.refl idle)

private theorem under_logs (walk : Walk) (settings : BranchSettings)
    (h : (route { walk with settings := settings }).Logs log walk.roll) :
    (under settings route walk).Logs log walk.roll :=
  h.bind fun _ _ idle => .ended (.refl idle)

private theorem repeated_quiet (h : Quiet route) (n : Nat) (o : Outcome) :
    Quiet (repeated route n o) := by
  induction n generalizing o with
  | zero => exact ended_quiet o
  | succ n ih => exact fun walk idle => (h walk idle).bind fun _ next idle => ih _ next idle

private theorem every_quiet (ns : List LootNode) (o : Outcome) : Quiet (every ns o) := by
  induction ns generalizing o with
  | nil => exact ended_quiet o
  | cons n ns ih => exact fun _ idle => .enter (.refl idle) fun _ next idle => ih _ next idle

private theorem weighted_quiet (picker : Picker LootNode) (n : Nat) (o : Outcome) :
    Quiet (weighted picker n o) := by
  induction n generalizing o with
  | zero => exact ended_quiet o
  | succ n ih =>
    intro walk idle
    rw [weighted, Walk.draw]
    rcases picker.sample walk.roll.dice with ⟨_ | m, dice⟩
    · exact .ended (.still rfl rfl idle)
    · exact .enter (.still rfl rfl idle) fun _ next idle => ih _ next idle

private theorem tryUntil_quiet (fuel : Nat) (picker : Picker LootNode) (o : Outcome) :
    Quiet (tryUntil fuel picker o) := by
  induction fuel generalizing picker o with
  | zero => exact ended_quiet o
  | succ fuel ih =>
    intro walk idle
    rw [tryUntil, Walk.draw]
    rcases picker.pick walk.roll.dice with ⟨_ | ⟨m, rest⟩, dice⟩
    · exact .ended (.still rfl rfl idle)
    · refine .enter (.still rfl rfl idle) fun o' next idle => ?_
      split
      · exact .ended (.refl idle)
      · exact ih _ _ next idle

private theorem forAvatars_quiet (target : LootNode) (avatars : List PrototypeId) (o : Outcome) :
    Quiet (forAvatars target avatars o) := by
  induction avatars generalizing o with
  | nil => exact ended_quiet o
  | cons avatar avatars ih =>
    intro walk idle
    let forced : BranchSettings := { walk.settings with avatar := avatar, forceUsable := true }
    have once := node_quiet target { walk with settings := forced } idle
    exact (under_logs walk forced once).bind fun _ next idle => ih _ next idle

private theorem firstTime_quiet (key : PrototypeId) (target : LootNode) :
    Quiet (firstTime w key target) := by
  intro walk idle
  rw [firstTime]
  split
  · exact .ended (.refl idle)
  · refine .enter (.refl idle) fun o next idle => ?_
    split
    · exact .ended (.still rfl rfl idle)
    · exact .ended (.refl idle)

private theorem everyAvatar_quiet (target : LootNode) : Quiet (everyAvatar w target) := by
  intro walk idle
  rw [everyAvatar_eq]
  split
  · exact node_quiet target walk idle
  · exact forAvatars_quiet target _ _ walk idle

private theorem table_quiet (spec : TableSpec) (entries : List LootNode) :
    Quiet (table w spec entries) := by
  intro walk idle
  rw [table]
  split
  · exact .ended (.refl idle)
  · split
    · exact .ended (.refl idle)
    · refine after_draw (w.rollsDrop walk.settings spec.noDrop) idle ?_
      have idle : (walk.draw (w.rollsDrop walk.settings spec.noDrop)).2.roll.queue = [] := idle
      generalize walk.draw (w.rollsDrop walk.settings spec.noDrop) = drawn at idle ⊢
      obtain ⟨drops, next⟩ := drawn
      simp only
      split
      · refine .ended ?_
        change Roll.Logs [] next.roll (next.roll.finish w next.settings .succeeded).2
        rw [Roll.finish_idle idle]
        exact .refl idle
      · refine deeper_quiet (fun walk idle => ?_) next idle
        refine after_draw spec.times.roll idle ?_
        have idle : (walk.draw spec.times.roll).2.roll.queue = [] := idle
        generalize walk.draw spec.times.roll = drawn at idle ⊢
        obtain ⟨n, next⟩ := drawn
        cases spec.method with
        | weighted => exact weighted_quiet _ _ _ next idle
        | tryAll => exact repeated_quiet (tryUntil_quiet _ _ _) _ _ next idle
        | every => exact repeated_quiet (every_quiet _ _) _ _ next idle

private theorem reference_quiet (id : PrototypeId) (times : Repeat) :
    Quiet (reference w id times) := by
  intro walk idle
  rw [reference]
  cases w.catalog.lootTable? id with
  | none => exact .ended (.refl idle)
  | some t =>
    simp only
    split
    · exact .ended (.refl idle)
    · refine deeper_quiet (fun walk idle => ?_) walk idle
      refine after_draw times.roll idle ?_
      exact repeated_quiet (node_quiet t.root) _ _ (walk.draw times.roll).2 idle

/-- Behind modifiers a route drafts what it drafts where they let it through. -/
private theorem modified_logs (modifiers : List Modifier)
    {drafted : Walk → List (Draft × List Mutation)}
    (h : ∀ walk, walk.roll.queue = [] → (route walk).Logs (drafted walk) walk.roll) (walk : Walk)
    (idle : walk.roll.queue = []) :
    (modified w modifiers route walk).Logs
      (((Modifier.passed? w modifiers walk).map drafted).getD []) walk.roll := by
  rw [modified, Modifier.passed?]
  split
  · exact h walk idle
  · have drawn : Roll.Logs [] walk.roll
        (walk.draw (Modifier.applyAll w modifiers walk.settings)).2.roll := .still rfl rfl idle
    generalize walk.draw (Modifier.applyAll w modifiers walk.settings) = d at drawn ⊢
    obtain ⟨settings, next⟩ := d
    simp only
    by_cases closed : settings.isRestricted = true
    · simp only [closed, Bool.true_or, if_true]
      exact .ended drawn
    · by_cases cooling : settings.enforcedGate?.any w.oracle.isOnCooldown = true
      · simp only [closed, cooling, Bool.or_true, Bool.false_eq_true, if_true, if_false]
        exact .ended drawn
      · simp only [closed, cooling, Bool.or_false, Bool.false_eq_true, if_false]
        have inner := h { next with settings := { settings with cooldown := none } } drawn.idle
        refine .after (.bind (under_logs next _ inner) fun o walk idle => ?_) drawn
        cases settings.enforcedGate? with
        | none => exact .ended (.refl idle)
        | some gate =>
          refine .ended ?_
          split
          · exact .still rfl rfl idle
          · exact .refl idle

end Route

theorem Course.Within.mem_calls {into : LootNode → Nat → Prop} {s : BranchSettings} {c : Course}
    {select : LootNode → Branch} (h : c.Within into s)
    (restores : ∀ m walk, (select m walk).2.settings = walk.settings) :
    ∀ call ∈ c.calls select, into call.1 call.2.settings.depth := by
  induction h with
  | ended _ => exact List.forall_mem_nil _
  | enter allowed _ ih => exact List.forall_mem_cons.mpr ⟨allowed, ih _ _ (restores ..)⟩

namespace LootNode
variable {w : World}

/-- The items that a node drafts itself, behind its modifiers. -/
def bodyDrafted (w : World) (n : LootNode) (walk : Walk) : List (Draft × List Mutation) :=
  match n with
  | .drop _ d => Roll.dropDrafted w walk.settings d walk.roll
  | .token _ parent filter _ =>
    let candidates := Roll.tokens w walk.settings parent filter
    if candidates.isEmpty then []
    else (Roll.tokenTurn w walk.settings candidates walk.roll).waiting w
  | _ => []

def ownDrafted (w : World) (n : LootNode) (walk : Walk) : List (Draft × List Mutation) :=
  ((Modifier.passed? w n.modifiers walk).map (n.bodyDrafted w)).getD []

theorem mem_calls {n : LootNode} {walk : Walk} {call : LootNode × Walk}
    (called : call ∈ (n.course w walk).calls fun m => m.select w) :
    n.Enters w walk.settings.depth call.1 call.2.settings.depth :=
  (n.course_stays w _ walk rfl).mem_calls
    (fun m next => (select_obeys (Roll.any_law w) m next).settings) call called

/-- The items that a node drafts: its own, and those of the nodes that it enters, in order. -/
def drafted (w : World) (n : LootNode) (walk : Walk) : List (Draft × List Mutation) :=
  n.ownDrafted w walk ++ ((n.course w walk).calls fun m => m.select w).attach.flatMap fun call =>
    call.1.1.drafted w call.1.2
termination_by (w.maxDepth + 1 - walk.settings.depth, sizeOf n)
decreasing_by exact (mem_calls call.2).decreases

private theorem drafted_eq (n : LootNode) (walk : Walk) : n.drafted w walk =
    n.ownDrafted w walk ++ ((n.course w walk).calls fun m => m.select w).flatMap fun call =>
      call.1.drafted w call.2 := by
  rw [drafted, List.flatMap_subtype (g := fun call => call.1.drafted w call.2) fun _ _ => rfl,
    List.unattach_attach]

private theorem body_logs (n : LootNode) (walk : Walk) (idle : walk.roll.queue = []) :
    (n.body w walk).Logs (n.bodyDrafted w walk) walk.roll := by
  cases n with
  | table head spec entries => exact Route.table_quiet spec entries walk idle
  | reference head id times => exact Route.reference_quiet id times walk idle
  | action head kind key target =>
    cases kind with
    | firstTime => exact Route.firstTime_quiet key target walk idle
    | everyAvatar => exact Route.everyAvatar_quiet target walk idle
  | token head parent filter fallback =>
    simp only [body, bodyDrafted, Route.token]
    split
    · cases fallback with
      | none => exact .ended (.refl idle)
      | some n => exact Route.node_quiet n walk idle
    · exact .ended (Roll.rollToken_logs _ idle)
  | drop head d => exact .ended (Roll.rollDrop_logs d idle)

/-- A node drafts what the walk says of it, wherever nothing waits. -/
private theorem select_logs (n : LootNode) (walk : Walk) (idle : walk.roll.queue = []) :
    Roll.Logs (n.drafted w walk) walk.roll (n.select w walk).2.roll := by
  suffices all : ∀ depth, walk.settings.depth = depth →
      Roll.Logs (n.drafted w walk) walk.roll (n.select w walk).2.roll from all _ rfl
  intro depth here
  induction n, depth using Enters.induction w generalizing walk with
  | step n depth ih =>
    rw [drafted_eq, select_eq_branch, ← course_renders]
    refine (Route.modified_logs n.modifiers (n.body_logs (w := w)) walk idle).eval ?_
    exact fun call called idle => ih call.1 _ (here ▸ mem_calls called) call.2 idle rfl

/-- To grant what waits leaves one trace for each item, whatever waits, and the granted items are
those that were finalized. The nodes are rolled call for call, and so a roll has the traces of the
items that wait whenever it grants, in order, and no others; those that were finalized are as many as
the granted items. Whatever stages are asked for, what a trace takes on stands in order behind its
current stage: it never goes back, repeats nothing but mutations and goes on from no end. -/
theorem roll_traces (n : LootNode) (q : Request) :
    (∀ s o r, (∀ g, Pending.other g ∈ r.queue → g.IsPlain) →
      Roll.Accounts r.waiting r (Roll.finish q.world s o r).2) ∧
    (∀ m walk, (course q.world m walk).eval (fun k => k.select q.world) = m.select q.world walk) ∧
    List.Forall₂ (fun e t => t.Records e.1 e.2) (n.drafted q.world ⟨q.settings, .start q.seed⟩)
      (n.roll q).traces ∧
    (n.roll q).traces.countP (fun t => t.current == .finalized) = (n.roll q).drafts.length ∧
    ∀ (t : Trace) (requests : List Stage), ∃ added,
      requests.foldl Trace.move t = { t with stages := t.stages ++ added } ∧
        (t.current :: added).Pairwise Stage.Precedes := by
  obtain ⟨ts, ds, traces, drafts, records, count⟩ :=
    (n.select_logs (w := q.world) ⟨q.settings, .start q.seed⟩ rfl).accounts
  have same : (n.roll q).traces = ts := traces
  have granted : (n.roll q).drafts = ds := drafts
  rw [same, granted]
  refine ⟨fun s o r => Roll.finish_accounts s o, fun m walk => ?_, records, count,
    Trace.foldl_move⟩
  rw [course_renders, select_eq_branch]

end LootNode

end Spoils
