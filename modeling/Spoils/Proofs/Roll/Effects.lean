import Spoils.Proofs.Roll.Granting
import Spoils.Proofs.Roll.Trees

/-! Effects and what the game answers: they are left behind only where it permits them, and a branch
that it closes does nothing. -/
namespace Spoils

/-- The game permits the effect: the cooldown is over, or the reward under its key was not
received. -/
def Effect.Permitted (o : Oracle) : Effect → Prop
  | .useCooldown gate => o.isOnCooldown gate = false
  | .markReceived key => key.isValid = true ∧ o.hasReceived key = false
  | .callback _ => True

namespace Roll

/-- From one roll to another effects of a kind were left behind, and all others are still there. -/
def Leaves (kind : Effect → Prop) (r r' : Roll) : Prop :=
  ∃ es, r'.effects = r.effects ++ es ∧ ∀ e ∈ es, kind e

namespace Leaves
variable {kind : Effect → Prop} {r r' r'' : Roll}

theorem of_eq (same : r'.effects = r.effects) : r.Leaves kind r' :=
  ⟨[], by rw [same, List.append_nil], by simp⟩

theorem trans (h : r.Leaves kind r') (h' : r'.Leaves kind r'') : r.Leaves kind r'' := by
  obtain ⟨es, left, all⟩ := h
  obtain ⟨es', left', all'⟩ := h'
  refine ⟨es ++ es', by rw [left', left, List.append_assoc], fun e he => ?_⟩
  rcases List.mem_append.mp he with he | he
  · exact all e he
  · exact all' e he

theorem addEffect (r : Roll) {e : Effect} (he : kind e) : r.Leaves kind (r.addEffect e) :=
  ⟨[e], rfl, by simpa using he⟩

end Leaves

private theorem permitted_law (w : World) :
    Law.Holds w fun _ _ r r' => r.Leaves (·.Permitted w.oracle) r' where
  draw _ _ _ := .of_eq rfl
  trans first rest := first.trans rest
  deeper := id
  forced _ := id
  modified _ _ := id
  granted _ _ _ o _ _ _ := .of_eq (finish_effects o)
  abandoned _ _ := .of_eq rfl
  called s r c := by
    split
    · exact .of_eq rfl
    · exact .addEffect r trivial
  received _ r _ unknown valid _ := .addEffect r ⟨valid, unknown⟩
  cooled _ r _ _ _ _ ready := .addEffect r ready

end Roll

/-- Without success nothing has moved but the dice. -/
def Walk.Passes (walk : Walk) (outcome : Outcome) (walk' : Walk) : Prop :=
  outcome.success = false ∧ ∃ dice, walk' = { walk with roll := { walk.roll with dice := dice } }

namespace Branch
variable {w : World} {ms : List Modifier} {walk : Walk}

private theorem modified_cooling (guarded : ms ≠ []) {gate : CooldownGate} (b : Branch)
    (enforced : (Modifier.applyAll w ms walk.settings walk.roll.dice).1.enforcedGate? = some gate)
    (busy : w.oracle.isOnCooldown gate = true) :
    walk.Passes (modified w ms b walk).1 (modified w ms b walk).2 := by
  rw [modified, if_neg (by simpa using guarded)]
  simp only [Walk.draw, enforced, Option.any_some, busy, if_true]
  split <;> exact ⟨rfl, _, rfl⟩

/-- Modifiers add nothing to a branch that has nothing to do. -/
theorem modified_passes (ms : List Modifier) {b : Branch}
    (nothing : ∀ walk, b walk = (.noRoll, walk)) :
    walk.Passes (modified w ms b walk).1 (modified w ms b walk).2 := by
  rw [modified]
  split
  · rw [nothing]
    exact ⟨rfl, walk.roll.dice, rfl⟩
  · simp only [Walk.draw, Walk.under, nothing]
    split
    · exact ⟨rfl, _, rfl⟩
    · split
      · exact ⟨rfl, _, rfl⟩
      · split <;> exact ⟨rfl, _, rfl⟩

end Branch

namespace LootNode

/-- The game closes the node: a cooldown that is enforced behind its modifiers is not over, or the
reward that it gives once was received. -/
inductive Closed (w : World) (walk : Walk) : LootNode → Prop where
  | cooling {n : LootNode} {gate : CooldownGate} (guarded : n.modifiers ≠ [])
      (enforced : (Modifier.applyAll w n.modifiers walk.settings walk.roll.dice).1.enforcedGate? =
        some gate)
      (busy : w.oracle.isOnCooldown gate = true) : Closed w walk n
  | received {head : NodeHead} {key : PrototypeId} {target : LootNode}
      (known : w.oracle.hasReceived key = true) : Closed w walk (.action head .firstTime key target)

private theorem selectWith_closed {w : World} {walk : Walk} {n : LootNode}
    (closed : n.Closed w walk) (follow : LootNode → Branch) :
    walk.Passes (selectWith w follow n walk).1 (selectWith w follow n walk).2 := by
  cases closed with
  | cooling guarded enforced busy =>
    obtain ⟨b, eq⟩ := selectWith_eq_modified w follow n
    rw [eq]
    exact Branch.modified_cooling guarded b enforced busy
  | received known =>
    rw [selectWith]
    exact Branch.modified_passes _ fun walk => by rw [Branch.firstTime, if_pos known]

/-- Every effect that a node leaves behind is one that the game permits, and a node that it closes
moves the dice at most. A cooldown that the settings bring is asked for at nodes with modifiers
only. -/
theorem select_permitted (w : World) (n : LootNode) (walk : Walk) :
    walk.roll.Leaves (·.Permitted w.oracle) (n.select w walk).2.roll ∧
      (n.Closed w walk → walk.Passes (n.select w walk).1 (n.select w walk).2) := by
  refine ⟨(select_obeys (Roll.permitted_law w) n walk).law, fun closed => ?_⟩
  obtain ⟨follow, eq⟩ := select_eq_selectWith w n walk
  rw [eq]
  exact selectWith_closed closed follow

/-- A drop behind its own cooldown, and a reward that was received. -/
theorem select_permitted_closed :
    let w : World := { oracle := { isOnCooldown := fun g => g.channel == ⟨4⟩
                                   hasReceived := fun key => key == ⟨3⟩ } }
    let cooling : LootNode := .drop ⟨1, [.cooldown .channel ⟨4⟩ false]⟩ (.powerPoints 5)
    let received : LootNode := .action {} .firstTime ⟨3⟩ (.drop {} (.powerPoints 5))
    let walk : Walk := ⟨{}, .start 7⟩
    (cooling.select w walk).1.success = false ∧ (received.select w walk).1.success = false := by
  intro w cooling received walk
  have enforced :
      (Modifier.applyAll w cooling.modifiers walk.settings walk.roll.dice).1.enforcedGate? =
        some ⟨.channel, ⟨4⟩, false⟩ := by decide
  have closed := (select_permitted w cooling walk).2
    (.cooling (by simp [cooling, modifiers, head]) enforced (by decide))
  exact ⟨closed.1, ((select_permitted w received walk).2 (.received (by decide))).1⟩

/-- A bare drop does not ask for the cooldown that the settings bring. -/
theorem select_cooling_drop :
    let w : World := { oracle := { isOnCooldown := fun g => g.channel == ⟨4⟩ } }
    let gate : CooldownGate := ⟨.channel, ⟨4⟩, false⟩
    let walk : Walk := ⟨{ cooldown := some gate }, .start 1⟩
    let bare : LootNode := .drop {} (.powerPoints 5)
    walk.settings.enforcedGate? = some gate ∧ w.oracle.isOnCooldown gate = true ∧
      ¬ (bare.select w walk).2.roll.grants = walk.roll.grants := by
  decide +kernel

end LootNode

end Spoils
