import Spoils.Proofs.Roll.Failure
import Spoils.Proofs.Roll.Modifiers

/-! Restricted branches: modifiers and tables refuse them, and other nodes pass them on. -/
namespace Spoils

namespace LootNode

/-- A node is reached without passing modifiers or a table, which look at restrictions. -/
inductive Exposes (w : World) : LootNode → LootNode → Prop where
  | here {n : LootNode} (plain : n.modifiers = []) : Exposes w n n
  | reference {head : NodeHead} {id : PrototypeId} {times : Repeat} {t : LootTable}
      {n : LootNode} (plain : head.modifiers = []) (found : w.catalog.lootTable? id = some t)
      (below : Exposes w t.root n) : Exposes w (.reference head id times) n
  | action {head : NodeHead} {kind : ActionKind} {key : PrototypeId} {target n : LootNode}
      (plain : head.modifiers = []) (below : Exposes w target n) :
      Exposes w (.action head kind key target) n

/-- No table is exposed. A restricted table drops nothing, but it succeeds. -/
def HidesTables (w : World) (n : LootNode) : Prop :=
  ∀ head spec entries, ¬ n.Exposes w (.table head spec entries)

/-- Nothing that is exposed gives loot or takes a table's success for a reward. -/
structure Sealed (w : World) (n : LootNode) : Prop where
  drops : ∀ head d, ¬ n.Exposes w (.drop head d)
  tokens : ∀ head parent filter fallback, ¬ n.Exposes w (.token head parent filter fallback)
  rewards : ∀ head key target, n.Exposes w (.action head .firstTime key target) →
    target.HidesTables w

namespace Sealed
variable {w : World} {head : NodeHead}

theorem below {n m : LootNode} (h : n.Sealed w) (through : ∀ {k}, m.Exposes w k → n.Exposes w k) :
    m.Sealed w :=
  ⟨fun head d e => h.drops head d (through e),
    fun head parent filter fallback e => h.tokens head parent filter fallback (through e),
    fun head key target e => h.rewards head key target (through e)⟩

end Sealed

end LootNode

/-- From one walk to another nothing but the dice and the traces has moved, and if this is `sure`
then without success. -/
structure Walk.Idles (sure : Prop) (walk : Walk) (outcome : Outcome) (walk' : Walk) : Prop where
  settings : walk'.settings = walk.settings
  traced : walk.roll.OnlyTraced walk'.roll
  failed : sure → outcome.success = false

/-- A branch does nothing where nothing waits and drops are restricted. -/
def Branch.Bars (sure : Prop) (b : Branch) : Prop :=
  ∀ walk : Walk, walk.roll.queue = [] → walk.settings.isRestricted = true →
    walk.Idles sure (b walk).1 (b walk).2

theorem Roll.OnlyTraced.queue {r r' : Roll} (h : r.OnlyTraced r') : r'.queue = r.queue := by
  rw [h]

namespace Walk.Idles
variable {sure : Prop} {a b c : Walk} {o p : Outcome}

theorem trans (h : a.Idles sure o b) (h' : b.Idles sure p c) : a.Idles sure (o.union p) c :=
  ⟨h'.settings.trans h.settings, h.traced.trans h'.traced, fun really => by
    rw [Outcome.union, h.failed really, h'.failed really]
    rfl⟩

theorem stay (walk : Walk) (failed : o.success = false) : walk.Idles sure o walk :=
  ⟨rfl, .refl walk.roll, fun _ => failed⟩

theorem deeper {branch : Branch} {walk : Walk} (hb : branch.Bars sure)
    (idle : walk.roll.queue = []) (restricted : walk.settings.isRestricted = true) :
    walk.Idles sure (Walk.deeper branch walk).1 (Walk.deeper branch walk).2 := by
  have inner := hb { walk with
    settings := { walk.settings with depth := walk.settings.depth + 1 } } idle restricted
  refine ⟨?_, inner.traced, inner.failed⟩
  simp only [Walk.deeper, inner.settings, Nat.add_sub_cancel]

end Walk.Idles

namespace Branch
variable {w : World} {sure : Prop} {b : Branch} {start walk : Walk} {outcome : Outcome}

private theorem repeated_idles (hb : b.Bars sure) (n : Nat) (idle : start.roll.queue = [])
    (restricted : start.settings.isRestricted = true) (h : start.Idles sure outcome walk) :
    start.Idles sure (repeated b n outcome walk).1 (repeated b n outcome walk).2 := by
  induction n generalizing outcome walk with
  | zero => exact h
  | succ n ih =>
    exact ih (h.trans (hb walk (h.traced.queue.trans idle) (h.settings ▸ restricted)))

private theorem forAvatars_idles (hb : b.Bars sure) (avatars : List PrototypeId)
    (idle : start.roll.queue = []) (restricted : start.settings.isRestricted = true)
    (h : start.Idles sure outcome walk) :
    start.Idles sure (forAvatars b avatars outcome walk).1
      (forAvatars b avatars outcome walk).2 := by
  induction avatars generalizing outcome walk with
  | nil => exact h
  | cons avatar avatars ih =>
    have inner := hb { walk with
        settings := { walk.settings with avatar := avatar, forceUsable := true } }
      (h.traced.queue.trans idle) (h.settings ▸ restricted)
    exact ih (h.trans ⟨rfl, inner.traced, inner.failed⟩)

private theorem everyAvatar_bars (hb : b.Bars sure) : Bars sure (everyAvatar w b) := by
  intro walk idle restricted
  rw [everyAvatar_eq]
  split
  · exact hb walk idle restricted
  · exact forAvatars_idles hb _ idle restricted (.stay walk rfl)

/-- A target that surely fails leaves no mark. -/
private theorem firstTime_bars (key : PrototypeId) (hb : b.Bars True) :
    Bars sure (firstTime w key b) := by
  intro walk idle restricted
  have target := hb walk idle restricted
  simp only [firstTime]
  split
  · exact .stay walk rfl
  · rw [target.failed trivial]
    exact ⟨target.settings, target.traced, fun _ => target.failed trivial⟩

/-- A restricted table drops nothing and draws nothing for it. -/
private theorem table_bars (spec : TableSpec) (branches : List (Branch × Int)) :
    Bars False (table w spec branches) := by
  intro walk idle restricted
  rw [table]
  split
  · exact .stay walk rfl
  · split
    · exact .stay walk rfl
    · have refused : walk.draw (w.rollsDrop walk.settings spec.noDrop) = (false, walk) := by
        simp only [Walk.draw, World.rollsDrop, restricted, if_true]
      rw [refused]
      simp only [Bool.not_false, if_true, Walk.run, Roll.finish_idle idle]
      exact ⟨rfl, .refl walk.roll, False.elim⟩

private theorem reference_bars (id : PrototypeId) (times : Repeat) {follow : LootNode → Branch}
    (hf : ∀ t, w.catalog.lootTable? id = some t → (follow t.root).Bars sure) :
    Bars sure (reference w id times follow) := by
  intro walk idle restricted
  rw [reference]
  split
  · exact .stay walk rfl
  · rename_i t found
    split
    · exact .stay walk rfl
    · refine .deeper (fun walk idle restricted => ?_) idle restricted
      have drawn : walk.Idles sure .noRoll (walk.draw times.roll).2 := ⟨rfl, rfl, fun _ => rfl⟩
      exact repeated_idles (hf t found) _ idle restricted drawn

/-- Behind modifiers no restricted branch is run. -/
theorem modified_failed {ms : List Modifier} (some_modifier : ms ≠ []) (b : Branch)
    (restricted : walk.settings.isRestricted = true) :
    modified w ms b walk = (.failed, { walk with roll := { walk.roll with
      dice := (Modifier.applyAll w ms walk.settings walk.roll.dice).2 } }) := by
  have stays : (Modifier.applyAll w ms walk.settings walk.roll.dice).1.isRestricted = true :=
    Modifier.applyAll_isRestricted ms restricted
  rw [modified, if_neg (by simpa using some_modifier)]
  simp only [Walk.draw, stays, if_true]

private theorem modified_bars (ms : List Modifier) (hb : ms = [] → b.Bars sure) :
    Bars sure (modified w ms b) := by
  intro walk idle restricted
  by_cases plain : ms = []
  · rw [plain]
    exact hb plain walk idle restricted
  · rw [modified_failed plain b restricted]
    exact ⟨rfl, rfl, fun _ => rfl⟩

end Branch

namespace LootNode
variable {w : World} {follow : LootNode → Branch}

/-- The trees behind references do nothing where they are sealed, and fail where no table is
exposed. -/
def FollowsSealed (w : World) (follow : LootNode → Branch) : Prop :=
  ∀ n, n.Sealed w → (follow n).Bars (n.HidesTables w)

private theorem selectWith_bars (hf : FollowsSealed w follow) :
    ∀ n, Sealed w n → (selectWith w follow n).Bars (HidesTables w n)
  | .table head spec entries, _ => by
    rw [selectWith]
    refine Branch.modified_bars _ fun plain walk idle restricted => ?_
    obtain ⟨settings, traced, -⟩ :=
      Branch.table_bars spec (branchesWith w follow entries) walk idle restricted
    exact ⟨settings, traced, fun hides => (hides head spec entries (.here plain)).elim⟩
  | .reference head id times, sealed => by
    rw [selectWith]
    refine Branch.modified_bars _ fun plain => Branch.reference_bars id times fun t found => ?_
    intro walk idle restricted
    obtain ⟨settings, traced, failed⟩ :=
      hf t.root (sealed.below (.reference plain found)) walk idle restricted
    refine ⟨settings, traced, fun hides => failed fun head spec entries e => ?_⟩
    exact hides head spec entries (.reference plain found e)
  | .action head kind key target, sealed => by
    cases kind with
    | firstTime =>
      rw [selectWith]
      refine Branch.modified_bars _ fun plain => Branch.firstTime_bars key ?_
      have hidden := sealed.rewards head key target (.here plain)
      intro walk idle restricted
      obtain ⟨settings, traced, failed⟩ :=
        selectWith_bars hf target (sealed.below (.action plain)) walk idle restricted
      exact ⟨settings, traced, fun _ => failed hidden⟩
    | everyAvatar =>
      rw [selectWith]
      refine Branch.modified_bars _ fun plain => Branch.everyAvatar_bars ?_
      intro walk idle restricted
      obtain ⟨settings, traced, failed⟩ :=
        selectWith_bars hf target (sealed.below (.action plain)) walk idle restricted
      refine ⟨settings, traced, fun hides => failed fun head spec entries e => ?_⟩
      exact hides head spec entries (.action plain e)
  | .token head parent filter fallback, sealed => by
    rw [selectWith]
    exact Branch.modified_bars _ fun plain =>
      (sealed.tokens head parent filter fallback (.here plain)).elim
  | .drop head d, sealed => by
    rw [selectWith]
    exact Branch.modified_bars _ fun plain => (sealed.drops head d (.here plain)).elim

private theorem selectAt_bars (fuel : Nat) : FollowsSealed w (selectAt w fuel) := by
  induction fuel with
  | zero => exact selectWith_bars fun _ _ walk _ _ => .stay walk rfl
  | succ fuel ih => exact selectWith_bars ih

theorem selectWith_failed {n : LootNode} (guarded : n.modifiers ≠ []) {walk : Walk}
    (restricted : walk.settings.isRestricted = true) :
    selectWith w follow n walk = (.failed, { walk with roll := { walk.roll with
      dice := (Modifier.applyAll w n.modifiers walk.settings walk.roll.dice).2 } }) := by
  obtain ⟨b, eq⟩ := selectWith_eq_modified w follow n
  rw [eq]
  exact Branch.modified_failed guarded b restricted

/-- A restricted node with modifiers fails and moves the dice at most. Without them it does nothing
where nothing waits and the tree is sealed: tables refuse the restriction, drops and tokens do not
look at it, and a reward is recorded for a target that succeeds. -/
theorem select_restricted (w : World) (n : LootNode) (walk : Walk)
    (restricted : walk.settings.isRestricted = true) :
    (n.modifiers ≠ [] → n.select w walk = (.failed, { walk with roll := { walk.roll with
      dice := (Modifier.applyAll w n.modifiers walk.settings walk.roll.dice).2 } })) ∧
    (walk.roll.queue = [] → n.Sealed w →
      (n.select w walk).2.roll.grants = walk.roll.grants ∧
        (n.select w walk).2.roll.effects = walk.roll.effects) := by
  constructor
  · intro guarded
    rw [select]
    cases w.maxDepth + 1 - walk.settings.depth with
    | zero => exact selectWith_failed guarded restricted
    | succ fuel => exact selectWith_failed guarded restricted
  · intro idle sealed
    have barred := (selectAt_bars (w.maxDepth + 1 - walk.settings.depth) n sealed walk idle
      restricted).traced
    rw [Roll.OnlyTraced] at barred
    rw [select, barred]
    exact ⟨rfl, rfl⟩

/-- A drop behind a modifier fails; a table that every avatar is sent to drops nothing. -/
theorem select_restricted_sealed :
    let root : LootNode := .table {} {} [.drop {} (.powerPoints 5)]
    let w : World := { catalog := { prototypes := .ofList [(⟨9⟩, .lootTable ⟨⟨9⟩, "", root⟩)] } }
    let guarded : LootNode := .drop ⟨1, [.markSpecial]⟩ (.powerPoints 5)
    let passing : LootNode := .action {} .everyAvatar ⟨3⟩ (.reference {} ⟨9⟩ {})
    let walk : Walk := ⟨{ flags := DropFlags.modeRestricted }, .start 7⟩
    (guarded.select w walk).1 = .failed ∧ (passing.select w walk).2.roll.grants = [] ∧
      (passing.select w walk).2.roll.effects = [] := by
  intro root w guarded passing walk
  have only_table {m : LootNode}
      (e : Exposes w (.action {} .everyAvatar ⟨3⟩ (.reference {} ⟨9⟩ {})) m) :
      m = passing ∨ m = .reference {} ⟨9⟩ {} ∨ m = root := by
    cases e with
    | here => exact .inl rfl
    | action _ e =>
      cases e with
      | here => exact .inr (.inl rfl)
      | reference _ found e =>
        cases Option.some.inj (found.symm.trans (rfl : _ = some (⟨⟨9⟩, "", root⟩ : LootTable)))
        cases e with
        | here => exact .inr (.inr rfl)
  have closed : passing.Sealed w :=
    ⟨fun _ _ e => by simpa [passing, root] using only_table e,
      fun _ _ _ _ e => by simpa [passing, root] using only_table e,
      fun _ _ _ e => by simpa [passing, root] using only_table e⟩
  have failed :=
    (select_restricted w guarded walk (by decide)).1 (by simp [guarded, modifiers, head])
  have kept := (select_restricted w passing walk (by decide)).2 rfl closed
  exact ⟨congrArg Prod.fst failed, kept.1, kept.2⟩

/-- A bare drop does not look at the restriction, and a reward over a restricted table that drops
nothing is recorded all the same. -/
theorem select_restricted_drop :
    let walk : Walk := ⟨{ flags := DropFlags.modeRestricted }, .start 1⟩
    let bare : LootNode := .drop {} (.powerPoints 5)
    let reward : LootNode := .action {} .firstTime ⟨3⟩ (.table {} {} [bare])
    walk.settings.isRestricted = true ∧
      ¬ (bare.select {} walk).2.roll.grants = walk.roll.grants ∧
      ¬ (reward.select {} walk).2.roll.effects = walk.roll.effects := by
  decide +kernel

end LootNode

end Spoils
