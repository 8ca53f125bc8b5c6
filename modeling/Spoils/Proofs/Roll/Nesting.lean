import Mathlib.Logic.Relation
import Spoils.Proofs.Roll.Course
import Spoils.Proofs.Roll.Isolation
import Spoils.Proofs.Roll.Modifiers

/-! Rolls on a stack. A node that rolls another waits until that roll is over. Every roll comes to
an end, however tables refer to each other: along a reference the depth grows up to its bound, and
everywhere else the tree becomes smaller. The depth also counts the tables that wait. -/
namespace Spoils

namespace LootNode

/-- Tables and references roll their nodes one table deeper. -/
def deepens : LootNode → Bool
  | .table .. | .reference .. => true
  | .action .. | .token .. | .drop .. => false

/-- A node that is rolled at one depth may roll a node at another. -/
inductive Enters (w : World) (depth : Nat) : LootNode → LootNode → Nat → Prop where
  | entry {head spec entries n} (listed : n ∈ entries) (shallow : depth ≤ w.maxDepth) :
      Enters w depth (.table head spec entries) n (depth + 1)
  | root {head id times t} (found : w.catalog.lootTable? id = some t)
      (shallow : depth ≤ w.maxDepth) : Enters w depth (.reference head id times) t.root (depth + 1)
  | target {head kind key n} : Enters w depth (.action head kind key n) n depth
  | fallback {head parent filter n} : Enters w depth (.token head parent filter (some n)) n depth

namespace Enters
variable {w : World} {depth depth' : Nat} {n m : LootNode}

theorem depth_eq (h : n.Enters w depth m depth') :
    depth' = depth + if n.deepens then 1 else 0 := by
  cases h <;> rfl

theorem depth_le (h : n.Enters w depth m depth') (bounded : depth ≤ w.maxDepth + 1) :
    depth' ≤ w.maxDepth + 1 := by
  cases h with
  | entry _ shallow => exact Nat.succ_le_succ shallow
  | root _ shallow => exact Nat.succ_le_succ shallow
  | target => exact bounded
  | fallback => exact bounded

theorem shallow (h : n.Enters w depth m depth') (deepens : n.deepens = true) :
    depth ≤ w.maxDepth := by
  cases h with
  | entry _ shallow => exact shallow
  | root _ shallow => exact shallow
  | target => cases deepens
  | fallback => cases deepens

/-- Either less depth is left or the tree is smaller. -/
theorem decreases (h : n.Enters w depth m depth') :
    Prod.Lex (· < ·) (· < ·) (w.maxDepth + 1 - depth', sizeOf m) (w.maxDepth + 1 - depth, sizeOf n) := by
  cases h with
  | entry listed shallow => exact .left _ _ (by omega)
  | root found shallow => exact .left _ _ (by omega)
  | target =>
    refine .right _ ?_
    simp only [LootNode.action.sizeOf_spec]
    omega
  | fallback =>
    refine .right _ ?_
    simp only [LootNode.token.sizeOf_spec, Option.some.sizeOf_spec]
    omega

/-- What holds of a node at a depth if it holds of all nodes that it may roll holds everywhere. -/
theorem induction (w : World) {motive : LootNode → Nat → Prop}
    (step : ∀ n depth, (∀ m depth', n.Enters w depth m depth' → motive m depth') → motive n depth)
    (n : LootNode) (depth : Nat) : motive n depth :=
  step n depth fun m depth' _ => induction w step m depth'
termination_by (w.maxDepth + 1 - depth, sizeOf n)
decreasing_by
  rename_i entered
  exact entered.decreases

end Enters

end LootNode

/-- A course enters only nodes that are allowed at their depth, and it is over under the settings
that are asked for, as long as the nodes leave the settings as they are. -/
inductive Course.Within (into : LootNode → Nat → Prop) (s : BranchSettings) : Course → Prop where
  | ended {o walk} (same : walk.settings = s) : Within into s (.ended o walk)
  | enter {n walk rest} (allowed : into n walk.settings.depth)
      (goesOn : ∀ o walk', walk'.settings = walk.settings → Within into s (rest o walk')) :
      Within into s (.enter n walk rest)

theorem Course.Within.bind {into : LootNode → Nat → Prop} {s s' : BranchSettings} {c : Course}
    {next : Outcome → Walk → Course} (h : c.Within into s)
    (goesOn : ∀ o walk, walk.settings = s → (next o walk).Within into s') :
    (c.bind next).Within into s' := by
  induction h with
  | ended same => exact goesOn _ _ same
  | enter allowed _ ih => exact .enter allowed ih

/-- The end of a course depends only on how those nodes are rolled that it may enter. -/
theorem Course.Within.eval_congr {into : LootNode → Nat → Prop} {s : BranchSettings} {c : Course}
    {select select' : LootNode → Branch} (h : c.Within into s)
    (restores : ∀ m walk, into m walk.settings.depth →
      (select m walk).2.settings = walk.settings)
    (same : ∀ m walk, into m walk.settings.depth → select m walk = select' m walk) :
    c.eval select = c.eval select' := by
  induction h with
  | ended _ => rfl
  | @enter m walk rest allowed _ ih =>
    rw [Course.eval, Course.eval, ← same m walk allowed]
    exact ih _ _ (restores m walk allowed)

/-- From a depth on, a route enters only nodes that are allowed and comes back to its settings. -/
def Route.Stays (into : LootNode → Nat → Prop) (depth : Nat) (route : Route) : Prop :=
  ∀ walk, walk.settings.depth = depth → (route walk).Within into walk.settings

namespace Route
variable {into : LootNode → Nat → Prop} {depth : Nat} {route : Route} {w : World}

private theorem node_stays {n : LootNode} (allowed : into n depth) : Stays into depth (node n) :=
  fun _ here => .enter (here ▸ allowed) fun _ _ same => .ended same

private theorem deeper_stays (h : Stays into (depth + 1) route) :
    Stays into depth (deeper route) := by
  intro walk here
  refine (h { walk with settings := _ } (congrArg (· + 1) here)).bind fun o inner same => .ended ?_
  simp only [same, Nat.add_sub_cancel]

private theorem under_stays {settings : BranchSettings} (here : settings.depth = depth)
    (h : Stays into depth route) (walk : Walk) :
    (under settings route walk).Within into walk.settings :=
  (h { walk with settings := settings } here).bind fun _ _ _ => .ended rfl

private theorem repeated_stays (h : Stays into depth route) (n : Nat) (o : Outcome) :
    Stays into depth (repeated route n o) := by
  intro walk here
  induction n generalizing o walk with
  | zero => exact .ended rfl
  | succ n ih => exact (h walk here).bind fun _ _ same => same ▸ ih _ _ (same ▸ here)

private theorem every_stays {ns : List LootNode} (allowed : ∀ n ∈ ns, into n depth) (o : Outcome) :
    Stays into depth (every ns o) := by
  intro walk here
  induction ns generalizing o walk with
  | nil => exact .ended rfl
  | cons n ns ih =>
    obtain ⟨first, others⟩ := List.forall_mem_cons.mp allowed
    exact .enter (here ▸ first) fun _ _ same => same ▸ ih others _ _ (same ▸ here)

private theorem weighted_stays {picker : Picker LootNode}
    (allowed : ∀ n ∈ picker.items, into n depth) (n : Nat) (o : Outcome) :
    Stays into depth (weighted picker n o) := by
  intro walk here
  induction n generalizing o walk with
  | zero => exact .ended rfl
  | succ n ih =>
    rw [weighted, Walk.draw]
    rcases drawn : picker.sample walk.roll.dice with ⟨_ | m, dice⟩
    · exact .ended rfl
    · have listed := Picker.sample_mem (congrArg Prod.fst drawn)
      exact .enter (here ▸ allowed m listed) fun _ _ same => same ▸ ih _ _ (same ▸ here)

private theorem tryUntil_stays (fuel : Nat) {picker : Picker LootNode}
    (allowed : ∀ n ∈ picker.items, into n depth) (o : Outcome) :
    Stays into depth (tryUntil fuel picker o) := by
  intro walk here
  induction fuel generalizing picker o walk with
  | zero => exact .ended rfl
  | succ fuel ih =>
    rw [tryUntil, Walk.draw]
    rcases drawn : picker.pick walk.roll.dice with ⟨_ | ⟨m, rest⟩, dice⟩
    · exact .ended rfl
    · obtain ⟨listed, left⟩ := Picker.pick_mem (congrArg Prod.fst drawn)
      refine .enter (here ▸ allowed m listed) fun o' _ same => ?_
      split
      · exact .ended same
      · exact same ▸ ih (fun n hn => allowed n (left hn)) _ _ (same ▸ here)

private theorem tryAll_stays {ns : List LootNode} (allowed : ∀ n ∈ ns, into n depth) :
    Stays into depth (tryAll ns) :=
  tryUntil_stays _ (fun n hn => allowed n (by rwa [Picker.items_uniform] at hn)) _

private theorem forAvatars_stays {target : LootNode} (allowed : into target depth)
    (avatars : List PrototypeId) (o : Outcome) :
    Stays into depth (forAvatars target avatars o) := by
  intro walk here
  induction avatars generalizing o walk with
  | nil => exact .ended rfl
  | cons avatar avatars ih =>
    refine (under_stays ?_ (node_stays allowed) walk).bind fun _ _ same =>
      same ▸ ih _ _ (same ▸ here)
    exact here

private theorem firstTime_stays (key : PrototypeId) {target : LootNode}
    (allowed : into target depth) : Stays into depth (firstTime w key target) := by
  intro walk here
  rw [firstTime]
  split
  · exact .ended rfl
  · refine .enter (here ▸ allowed) fun o inner same => ?_
    split
    · exact .ended same
    · exact .ended same

private theorem everyAvatar_stays {target : LootNode} (allowed : into target depth) :
    Stays into depth (everyAvatar w target) := by
  intro walk here
  rw [everyAvatar_eq]
  split
  · exact node_stays allowed walk here
  · exact forAvatars_stays allowed _ _ walk here

private theorem table_stays (spec : TableSpec) {entries : List LootNode}
    (allowed : ∀ n ∈ entries, depth ≤ w.maxDepth → into n (depth + 1)) :
    Stays into depth (table w spec entries) := by
  intro walk here
  rw [table]
  split
  · exact .ended rfl
  · split
    · exact .ended rfl
    · rename_i bounded
      have entered : ∀ n ∈ entries, into n (depth + 1) := fun n hn => allowed n hn (by omega)
      have listed : ∀ n ∈ (⟨entries.map fun n => (n, n.weight)⟩ : Picker LootNode).items,
          into n (depth + 1) := by
        simpa [Picker.items] using entered
      rcases drawn : walk.draw (w.rollsDrop walk.settings spec.noDrop) with ⟨drops, next⟩
      have same : next.settings = walk.settings := (congrArg (·.2.settings) drawn).symm
      rw [← same] at here ⊢
      simp only
      split
      · exact .ended rfl
      · refine deeper_stays (fun walk here => ?_) next here
        rcases drawn : walk.draw spec.times.roll with ⟨n, next⟩
        have same : next.settings = walk.settings := (congrArg (·.2.settings) drawn).symm
        rw [← same] at here ⊢
        cases spec.method with
        | weighted => exact weighted_stays listed _ _ next here
        | tryAll => exact repeated_stays (tryAll_stays entered) _ _ next here
        | every => exact repeated_stays (every_stays entered _) _ _ next here

private theorem reference_stays (id : PrototypeId) (times : Repeat)
    (allowed : ∀ t, w.catalog.lootTable? id = some t → depth ≤ w.maxDepth →
      into t.root (depth + 1)) :
    Stays into depth (reference w id times) := by
  intro walk here
  rw [reference]
  cases found : w.catalog.lootTable? id with
  | none => exact .ended rfl
  | some t =>
    simp only
    split
    · exact .ended rfl
    · have entered : into t.root (depth + 1) := allowed t found (by omega)
      refine deeper_stays (fun walk here => ?_) walk here
      exact repeated_stays (node_stays entered) _ _ (walk.draw times.roll).2 here

private theorem token_stays (parent : PrototypeId) (filter : TokenFilter)
    {fallback : Option LootNode} (allowed : ∀ n ∈ fallback, into n depth) :
    Stays into depth (token w parent filter fallback) := by
  intro walk here
  simp only [token]
  split
  · cases fallback with
    | none => exact .ended rfl
    | some n => exact node_stays (allowed n rfl) walk here
  · exact .ended rfl

private theorem modified_stays (modifiers : List Modifier) (h : Stays into depth route) :
    Stays into depth (modified w modifiers route) := by
  intro walk here
  rw [modified]
  split
  · exact h walk here
  · rcases drawn : walk.draw (Modifier.applyAll w modifiers walk.settings) with ⟨settings, next⟩
    have applied : (Modifier.applyAll w modifiers walk.settings walk.roll.dice).1 = settings :=
      congrArg Prod.fst drawn
    have same : next.settings = walk.settings := (congrArg (·.2.settings) drawn).symm
    have deep : settings.depth = depth := by rw [← applied, Modifier.applyAll_depth, here]
    have inside : ({ settings with cooldown := none } : BranchSettings).depth = depth := deep
    rw [← same]
    simp only
    split
    · exact .ended rfl
    · split
      · exact .ended rfl
      · refine (under_stays inside h next).bind fun o inner same => ?_
        cases settings.enforcedGate? with
        | none => exact .ended same
        | some gate =>
          refine .ended ?_
          split <;> exact same

end Route

/-- A node enters only what it may, and leaves the settings as they are. -/
theorem LootNode.course_stays (w : World) (n : LootNode) (depth : Nat) :
    Route.Stays (n.Enters w depth) depth (n.course w) := by
  refine Route.modified_stays _ ?_
  cases n with
  | table head spec entries => exact Route.table_stays spec fun _ listed => .entry listed
  | reference head id times => exact Route.reference_stays id times fun _ found => .root found
  | action head kind key target =>
    cases kind with
    | firstTime => exact Route.firstTime_stays key .target
    | everyAvatar => exact Route.everyAvatar_stays .target
  | token head parent filter fallback =>
    refine Route.token_stays parent filter fun n instead => ?_
    cases instead
    exact .fallback
  | drop head d => exact fun _ _ => .ended rfl

namespace LootNode
variable {w : World}

/-- What is done where a reference is followed while references are at most so deep. -/
def followAt (w : World) : Nat → LootNode → Branch
  | 0 => fun _ walk => (.failed, walk)
  | fuel + 1 => selectAt w fuel

theorem selectAt_eq (w : World) (fuel : Nat) :
    selectAt w fuel = selectWith w (followAt w fuel) := by
  cases fuel <;> rfl

/-- What a node enters is rolled with references as deep as its depth leaves room for. -/
theorem Enters.onward_eq {depth depth' fuel : Nat} {n m : LootNode}
    (h : n.Enters w depth m depth') (enough : w.maxDepth + 1 - depth ≤ fuel) :
    ∃ fuel', n.onward w (followAt w fuel) m = selectAt w fuel' m ∧
      w.maxDepth + 1 - depth' ≤ fuel' := by
  cases h with
  | root _ shallow =>
    obtain ⟨fuel, rfl⟩ : ∃ f, fuel = f + 1 := ⟨fuel - 1, by omega⟩
    exact ⟨fuel, rfl, by omega⟩
  | entry => exact ⟨fuel, congrFun (selectAt_eq w fuel).symm m, by omega⟩
  | target => exact ⟨fuel, congrFun (selectAt_eq w fuel).symm m, enough⟩
  | fallback => exact ⟨fuel, congrFun (selectAt_eq w fuel).symm m, enough⟩

theorem selectAt_settings (w : World) (fuel : Nat) (n : LootNode) (walk : Walk) :
    (selectAt w fuel n walk).2.settings = walk.settings :=
  (selectAt_obeys (Roll.any_law w) fuel n walk).settings

/-- Nodes are rolled the same way wherever what they enter is. -/
theorem branch_congr {select select' : LootNode → Branch} (n : LootNode) (walk : Walk)
    (restores : ∀ m next, n.Enters w walk.settings.depth m next.settings.depth →
      (select m next).2.settings = next.settings)
    (same : ∀ m next, n.Enters w walk.settings.depth m next.settings.depth →
      select m next = select' m next) :
    n.branch w select walk = n.branch w select' walk := by
  rw [← course_renders select n walk, ← course_renders select' n walk]
  exact (n.course_stays w _ walk rfl).eval_congr restores same

/-- More references than there is depth left make no difference. -/
theorem selectAt_eq_selectAt (n : LootNode) (depth : Nat) (walk : Walk) {fuel fuel' : Nat}
    (here : walk.settings.depth = depth) (enough : w.maxDepth + 1 - depth ≤ fuel)
    (enough' : w.maxDepth + 1 - depth ≤ fuel') :
    selectAt w fuel n walk = selectAt w fuel' n walk := by
  induction n, depth using Enters.induction w generalizing walk fuel fuel' with
  | step n depth ih =>
    rw [selectAt_eq, selectAt_eq, selectWith_eq_branch, selectWith_eq_branch]
    refine branch_congr n walk (fun m next entered => ?restores) fun m next entered => ?same
    case restores =>
      obtain ⟨less, rolled, -⟩ := entered.onward_eq (here ▸ enough)
      rw [rolled, selectAt_settings]
    case same =>
      obtain ⟨less, rolled, left⟩ := entered.onward_eq (here ▸ enough)
      obtain ⟨less', rolled', left'⟩ := entered.onward_eq (here ▸ enough')
      rw [rolled, rolled']
      exact ih m _ (here ▸ entered) next rfl left left'

/-- A roll of a node rolls the nodes that it enters in the same way, whatever they are. -/
theorem select_eq_branch (n : LootNode) (walk : Walk) :
    n.select w walk = n.branch w (fun m => m.select w) walk := by
  rw [select, selectAt_eq, selectWith_eq_branch]
  refine branch_congr n walk (fun m next entered => ?restores) fun m next entered => ?same
  case restores =>
    obtain ⟨less, rolled, -⟩ := entered.onward_eq (Nat.le_refl _)
    rw [rolled, selectAt_settings]
  case same =>
    obtain ⟨less, rolled, left⟩ := entered.onward_eq (Nat.le_refl _)
    rw [rolled]
    exact selectAt_eq_selectAt m _ next rfl left (Nat.le_refl _)

end LootNode

/-- A roll that waits for a node that it has entered: the settings it was entered with itself, and
how it goes on. -/
structure Frame where
  node : LootNode
  settings : BranchSettings
  rest : Outcome → Walk → Course

/-- Rolls under way: those that wait, the last one first, and the one of a node that was entered
with some settings and has a course before it. -/
structure Rolling where
  waiting : List Frame
  node : LootNode
  settings : BranchSettings
  course : Course

namespace Rolling
variable {w : World} {n : LootNode} {r r' : Rolling} {waiting : List Frame}

def enter (w : World) (waiting : List Frame) (n : LootNode) (walk : Walk) : Rolling :=
  ⟨waiting, n, walk.settings, n.course w walk⟩

def start (n : LootNode) (q : Request) : Rolling := enter q.world [] n ⟨q.settings, .start q.seed⟩

/-- One step: a node is entered, or a roll that is over hands its outcome to the one that waits for
it. -/
def next (w : World) : Rolling → Option Rolling
  | ⟨waiting, node, settings, .enter n walk rest⟩ =>
    some (enter w (⟨node, settings, rest⟩ :: waiting) n walk)
  | ⟨frame :: waiting, _, _, .ended o walk⟩ =>
    some ⟨waiting, frame.node, frame.settings, frame.rest o walk⟩
  | ⟨[], _, _, .ended _ _⟩ => none

def Reaches (w : World) : Rolling → Rolling → Prop :=
  Relation.ReflTransGen fun r r' => r.next w = some r'

/-- The tables and references that are rolled inside each other: those that wait, and the one that
is rolled now unless it is too deep to roll anything. -/
def nested (w : World) (r : Rolling) : Nat :=
  (r.waiting.countP fun frame => frame.node.deepens) +
    if r.node.deepens && decide (r.settings.depth ≤ w.maxDepth) then 1 else 0

/-- A course is rolled to its end if the nodes are that it enters. -/
theorem reaches_ended {into : LootNode → Nat → Prop} {s : BranchSettings} {c : Course}
    {select : LootNode → Branch} (within : c.Within into s)
    (restores : ∀ m walk, into m walk.settings.depth →
      (select m walk).2.settings = walk.settings)
    (ends : ∀ m walk waiting, into m walk.settings.depth → Reaches w (enter w waiting m walk)
      ⟨waiting, m, walk.settings, .ended (select m walk).1 (select m walk).2⟩) :
    Reaches w ⟨waiting, n, s, c⟩
      ⟨waiting, n, s, .ended (c.eval select).1 (c.eval select).2⟩ := by
  induction within with
  | ended same => exact .refl
  | @enter m walk rest allowed _ ih =>
    have entered := ends m walk (⟨n, s, rest⟩ :: waiting) allowed
    exact .trans (.head rfl entered) (.head rfl (ih _ _ (restores m walk allowed)))

/-- A node is rolled to its end, at any depth and whatever waits. -/
theorem reaches_select (n : LootNode) (depth : Nat) (walk : Walk)
    (here : walk.settings.depth = depth) (waiting : List Frame) :
    Reaches w (enter w waiting n walk)
      ⟨waiting, n, walk.settings, .ended (n.select w walk).1 (n.select w walk).2⟩ := by
  induction n, depth using LootNode.Enters.induction w generalizing walk waiting with
  | step n depth ih =>
    rw [LootNode.select_eq_branch, ← LootNode.course_renders _ n walk]
    -- Whatever the node enters has less depth left or is below it.
    exact reaches_ended (n.course_stays w depth walk here)
      (fun m next _ => (LootNode.select_obeys (Roll.any_law w) m next).settings)
      fun m next waiting entered => ih m _ entered next rfl waiting

/-- The rolls that wait, from the one that entered a node with some settings back to the first: each
was free to enter the next one, and goes on well when it is over. -/
inductive Waits (w : World) (first : BranchSettings) : BranchSettings → List Frame → Prop where
  | first : Waits w first first []
  | inside {s frame frames n} (entered : frame.node.Enters w frame.settings.depth n s.depth)
      (goesOn : ∀ o walk, walk.settings = s →
        (frame.rest o walk).Within (frame.node.Enters w frame.settings.depth) frame.settings)
      (outer : Waits w first frame.settings frames) : Waits w first s (frame :: frames)

namespace Waits
variable {first s : BranchSettings} {frames : List Frame}

/-- The depth counts the tables and references that wait. -/
theorem depth_eq (h : Waits w first s frames) :
    s.depth = first.depth + frames.countP fun frame => frame.node.deepens := by
  induction h with
  | first => rfl
  | inside entered _ _ ih =>
    rw [entered.depth_eq, ih, List.countP_cons, Nat.add_assoc]

theorem depth_le (h : Waits w first s frames) (bounded : first.depth ≤ w.maxDepth + 1) :
    s.depth ≤ w.maxDepth + 1 := by
  induction h with
  | first => exact bounded
  | inside entered _ _ ih => exact entered.depth_le ih

end Waits

/-- Everything is in order: what waits does so for the node that is rolled, and that node does only
what it may. -/
structure Sound (w : World) (first : BranchSettings) (r : Rolling) : Prop where
  waits : Waits w first r.settings r.waiting
  within : r.course.Within (r.node.Enters w r.settings.depth) r.settings

namespace Sound
variable {first : BranchSettings}

theorem start (w : World) (n : LootNode) (walk : Walk) :
    Sound w walk.settings (enter w [] n walk) :=
  ⟨.first, n.course_stays w _ walk rfl⟩

theorem next (sound : Sound w first r) (step : r.next w = some r') : Sound w first r' := by
  obtain ⟨waiting, node, settings, course⟩ := r
  obtain ⟨waits, within⟩ := sound
  cases within with
  | enter allowed goesOn =>
    cases step
    exact ⟨.inside allowed goesOn waits, LootNode.course_stays w _ _ _ rfl⟩
  | ended same =>
    cases waits with
    | first => cases step
    | inside _ goesOn outer =>
      cases step
      exact ⟨outer, goesOn _ _ same⟩

private theorem reaches (sound : Sound w first r) (path : Reaches w r r') : Sound w first r' := by
  induction path with
  | refl => exact sound
  | tail _ step ih => exact ih.next step

/-- A table that is too deep rolls nothing. -/
theorem refused (sound : Sound w first r) (deepens : r.node.deepens = true)
    (deep : w.maxDepth < r.settings.depth) : ∃ o walk, r.course = .ended o walk := by
  cases course : r.course with
  | ended o walk => exact ⟨o, walk, rfl⟩
  | enter n walk rest =>
    have within := sound.within
    rw [course] at within
    cases within with
    | enter allowed _ => exact absurd (allowed.shallow deepens) (Nat.not_le_of_lt deep)

private theorem nested_le (sound : Sound w first r) (bounded : first.depth ≤ w.maxDepth + 1) :
    r.nested w ≤ w.maxDepth + 1 - first.depth := by
  have counted := sound.waits.depth_eq
  have within := sound.waits.depth_le bounded
  rw [nested]
  split
  · rename_i counts
    rw [Bool.and_eq_true, decide_eq_true_eq] at counts
    omega
  · omega

end Sound

/-- A request that begins at a depth within bounds is rolled to its end, also from whatever is
reached on the way; the courses of the nodes do what the nodes do, call for call. No node is entered
deeper than one beyond the greatest depth of tables, where they roll nothing, and so at most as many
tables and references are rolled inside each other as there is depth left. -/
theorem start_ends (n : LootNode) (q : Request)
    (bounded : q.settings.depth ≤ q.world.maxDepth + 1) :
    (∀ select m walk,
      (LootNode.course q.world m walk).eval select = m.branch q.world select walk) ∧
    (∃ o walk, n.roll q = walk.roll.results o.normalize ∧
      next q.world ⟨[], n, q.settings, .ended o walk⟩ = none ∧
      ∀ r, (start n q).Reaches q.world r →
        r.Reaches q.world ⟨[], n, q.settings, .ended o walk⟩) ∧
    ∀ r, (start n q).Reaches q.world r →
      r.settings.depth ≤ q.world.maxDepth + 1 ∧
      r.settings.depth = q.settings.depth + r.waiting.countP (fun f => f.node.deepens) ∧
      (r.node.deepens = true → q.world.maxDepth < r.settings.depth →
        ∃ o walk, r.course = .ended o walk) ∧
      r.nested q.world ≤ q.world.maxDepth + 1 - q.settings.depth := by
  have last : (start n q).Reaches q.world _ :=
    reaches_select n q.settings.depth ⟨q.settings, .start q.seed⟩ rfl []
  refine ⟨fun select m => m.course_renders select, ⟨_, _, rfl, rfl, fun r path => ?ends⟩,
    fun r path => ?_⟩
  case ends =>
    have deterministic : Relator.RightUnique fun r r' : Rolling => r.next q.world = some r' :=
      fun _ _ _ one other => Option.some.inj (one.symm.trans other)
    rcases Relation.ReflTransGen.total_of_right_unique deterministic path last with on | beyond
    · exact on
    · -- Nothing comes after the end.
      rcases beyond.cases_head with same | ⟨_, step, -⟩
      · exact same ▸ .refl
      · cases step
  · have sound := (Sound.start q.world n ⟨q.settings, .start q.seed⟩).reaches path
    exact ⟨sound.waits.depth_le bounded, sound.waits.depth_eq, sound.refused,
      sound.nested_le bounded⟩

/-- Two tables, of which one refers to both and the other one to it, are rolled to the end, never
more than four inside each other. -/
theorem start_ends_cycle :
    let one : LootNode :=
      .table {} { method := .every } [.reference {} ⟨2⟩ {}, .reference {} ⟨1⟩ ⟨2, 2⟩]
    let other : LootNode := .action {} .everyAvatar ⟨5⟩ (.reference {} ⟨1⟩ {})
    let w : World := {
      catalog := { prototypes := .ofList [
        (⟨1⟩, .lootTable { id := ⟨1⟩, root := one }),
        (⟨2⟩, .lootTable { id := ⟨2⟩, root := other })] }
      maxDepth := 3 }
    let n : LootNode := .reference {} ⟨1⟩ {}
    ∃ o walk, n.roll { world := w } = walk.roll.results o.normalize ∧
      (start n { world := w }).Reaches w ⟨[], n, {}, .ended o walk⟩ ∧
      ∀ r, (start n { world := w }).Reaches w r → r.nested w ≤ 4 := by
  intro one other w n
  obtain ⟨-, ⟨o, walk, rolled, -, ends⟩, bounds⟩ := start_ends n { world := w } (Nat.zero_le 4)
  exact ⟨o, walk, rolled, ends _ .refl, fun r path => (bounds r path).2.2.2⟩

end Rolling

end Spoils
