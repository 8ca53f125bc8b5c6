import Spoils.Proofs.Roll.Around
import Spoils.Proofs.Roll.Failure

/-! Nodes keep to themselves: loot that one of them queued waits for no other, and the settings that
it changed are its own. -/
namespace Spoils

namespace Roll

theorem idle_law (w : World) : (Law.keeping fun r => r.queue = []).Holds w where
  draw _ _ _ idle := idle
  trans first rest idle := rest (first idle)
  deeper := id
  forced _ := id
  modified _ _ := id
  granted _ _ _ o _ _ _ _ := finish_queue o
  abandoned _ _ _ := rfl
  called s r _ idle := by split <;> exact idle
  received _ _ _ _ _ _ idle := idle
  cooled _ _ _ _ _ _ _ idle := idle

theorem any_law (w : World) : (Law.keeping fun _ => True).Holds w where
  draw _ _ _ _ := trivial
  trans _ _ _ := trivial
  deeper := id
  forced _ := id
  modified _ _ := id
  granted _ _ _ _ _ _ _ _ := trivial
  abandoned _ _ _ := trivial
  called _ _ _ _ := trivial
  received _ _ _ _ _ _ _ := trivial
  cooled _ _ _ _ _ _ _ _ := trivial

end Roll

namespace LootNode

/-- Where loot waits something else is done in place of the node. -/
def unlessIdle (instead : LootNode → Branch) (n : LootNode) (b : Branch) : Branch := fun walk =>
  if walk.roll.queue.isEmpty then b walk else instead n walk

/-- The node is rolled with a copy of the settings, and what it leaves of the copy is dropped. -/
def onCopy (_ : LootNode) (b : Branch) : Branch := fun walk => walk.under walk.settings b

private theorem unlessIdle_harmless (instead : LootNode → Branch) :
    Harmless (fun r => r.queue = []) (unlessIdle instead) := fun _ _ _ h =>
  ⟨h.keeps, fun idle => by rw [unlessIdle, idle, List.isEmpty_nil, if_pos rfl, h.same idle]⟩

private theorem onCopy_harmless : Harmless (fun _ => True) onCopy := by
  refine fun _ b c h => ⟨h.keeps, fun {walk} hw => ?_⟩
  have kept : (c walk).2.settings = walk.settings := (h.keeps walk).settings
  calc onCopy _ b walk
      = ((c walk).1, { walk with roll := (c walk).2.roll }) := by rw [onCopy, Walk.under, h.same hw]
    _ = c walk := by rw [← kept]

/-- A node that is rolled while nothing waits leaves nothing waiting, and so no node in the roll is
reached while something waits: it does not matter what would be done there. -/
theorem select_idle (w : World) (n : LootNode) (walk : Walk) (idle : walk.roll.queue = []) :
    (n.select w walk).2.roll.queue = [] ∧
      ∀ instead : LootNode → Branch,
        n.selectAround w (unlessIdle instead) walk = n.select w walk :=
  ⟨(select_obeys (Roll.idle_law w) n walk).law idle, fun instead =>
    selectAround_eq (Roll.idle_law w) (unlessIdle_harmless instead) n idle⟩

/-- The first of two items waits when the second is rolled for an avatar without one; then neither
does. -/
theorem select_idle_any :
    let w : World := { catalog := {
      prototypes := .ofList [
        (⟨1⟩, .named { id := ⟨1⟩, kind := .avatar }), (⟨2⟩, .named { id := ⟨2⟩, kind := .avatar }),
        (⟨5⟩, .item { id := ⟨5⟩, slot := .gear1, usableBy := [⟨1⟩] }),
        (⟨7⟩, .rarity { id := ⟨7⟩, weightCurve := ⟨6⟩ })]
      curves := .ofList [(⟨6⟩, .ofValues ⟨6⟩ 1 [1])] } }
    let n : LootNode := .drop {} (.anyItem .gear1 0 ⟨2, 2⟩)
    (Roll.queueAny w {} .gear1 0 2 .noRoll (.start 2)).2.queue.length = 1 ∧
      (n.select w ⟨{}, .start 2⟩).2.roll.queue = [] := by
  intro w n
  exact ⟨by decide +kernel, (select_idle w n ⟨{}, .start 2⟩ rfl).1⟩

/-- A node leaves the settings as they were, down to the depth, and so the roll is the same when
every node in it is given a copy of them. -/
theorem select_settings (w : World) (n : LootNode) (walk : Walk) :
    (n.select w walk).2.settings = walk.settings ∧
      n.selectAround w onCopy walk = n.select w walk :=
  ⟨(select_obeys (Roll.any_law w) n walk).settings,
    selectAround_eq (Roll.any_law w) onCopy_harmless n trivial⟩

end LootNode

end Spoils
