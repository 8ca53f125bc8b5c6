import Spoils.Proofs.Roll.Granting
import Spoils.Proofs.Roll.Trees

/-! A branch that does not succeed leaves no loot and no effects behind. -/
namespace Spoils

namespace Roll
variable {w : World} {s : BranchSettings} {r : Roll}

/-- Nothing but the dice and the traces has moved. -/
def OnlyTraced (r r' : Roll) : Prop := r' = { r with dice := r'.dice, traces := r'.traces }

theorem OnlyTraced.trans {r r' r'' : Roll} (h : r.OnlyTraced r') (h' : r'.OnlyTraced r'') :
    r.OnlyTraced r'' := by
  rw [OnlyTraced, h] at h'
  exact h'

theorem grantEntry_sure {p : Pending} (sure : p.IsSure) : (r.grantEntry w s p).1 = true := by
  cases p with
  | other g => rfl
  | item d ms wanted =>
    rw [show ms = [] from sure]
    rfl

private theorem grantAll_sure {ps : List Pending} (sure : ∀ p ∈ ps, p.IsSure) :
    (grantAll w s ps r).1 = true := by
  induction ps generalizing r with
  | nil => rfl
  | cons p ps ih =>
    rw [grantAll]
    simp only [grantEntry_sure (sure p (.head ps)), ih fun q hq => sure q (.tail p hq),
      Bool.and_self]

theorem OnlyTraced.refl (r : Roll) : r.OnlyTraced r := rfl

/-- A step that queued one entry, or only sure ones, fails without a grant. -/
theorem finish_failed {o : Outcome} (few : r.queue.length ≤ 1 ∨ ∀ p ∈ r.queue, p.IsSure)
    (succeeds : o.success = false → r.queue = []) (failed : (r.finish w s o).1.success = false) :
    r.clearQueue.OnlyTraced (r.finish w s o).2 := by
  rw [finish_eq] at failed ⊢
  rcases few with few | sure
  · rcases waits : r.queue with _ | ⟨p, _ | ⟨q, qs⟩⟩
    · exact .refl r.clearQueue
    · rw [waits] at failed succeeds
      simp only [grantAll, Bool.and_true] at failed ⊢
      -- The one entry is discarded, or it is granted and the step does not fail.
      obtain ⟨dice, traces, h | ⟨g, -, h⟩⟩ := grantEntry_cases w s r.clearQueue p
      · rw [h]
        rfl
      · rw [h] at failed
        cases succeeds failed
    · rw [waits, List.length_cons, List.length_cons] at few
      omega
  · rw [grantAll_sure sure] at failed
    rw [succeeds failed]
    exact .refl r.clearQueue

/-- A failure from an empty queue leaves nothing behind, and no branch leaves anything waiting. -/
abbrev FailsClean : Law := fun _ ok r r' =>
  r.queue = [] → r'.queue = [] ∧ (ok = false → r.OnlyTraced r')

theorem failure_law (w : World) : Law.Holds w FailsClean where
  draw s r dice empty := ⟨empty, fun _ => rfl⟩
  trans h h' empty := by
    obtain ⟨mid, first⟩ := h empty
    obtain ⟨last, second⟩ := h' mid
    refine ⟨last, fun failed => ?_⟩
    obtain ⟨ha, hb⟩ := Bool.or_eq_false_iff.mp failed
    exact (first ha).trans (second hb)
  deeper := id
  forced _ := id
  modified _ _ := id
  granted s r ps o _ few succeeds empty := by
    refine ⟨finish_queue o, fun failed => ?_⟩
    have same : ({ r with queue := r.queue ++ ps } : Roll).clearQueue = r := by
      rw [clearQueue, ← empty]
    have only := finish_failed (r := { r with queue := r.queue ++ ps })
      (by rwa [empty, List.nil_append]) (by rwa [empty, List.nil_append]) failed
    rwa [same] at only
  abandoned s r empty := ⟨rfl, fun _ => by rw [clearQueue, ← empty]; rfl⟩
  called s r c empty := by
    refine ⟨?_, fun failed => by cases failed⟩
    split <;> exact empty
  received _ _ _ _ _ _ empty := ⟨empty, fun failed => by cases failed⟩
  cooled _ _ _ _ _ _ _ empty := ⟨empty, fun failed => by cases failed⟩

end Roll

namespace LootNode

/-- A node that is rolled while nothing waits and does not succeed has moved the dice and the
traces at most: what was granted, the effects and the settings are as before. -/
theorem select_failed (w : World) (n : LootNode) (walk : Walk) (empty : walk.roll.queue = [])
    (failed : (n.select w walk).1.success = false) :
    (n.select w walk).2 = { walk with roll := { walk.roll with
      dice := (n.select w walk).2.roll.dice
      traces := (n.select w walk).2.roll.traces } } := by
  have led := select_obeys (Roll.failure_law w) n walk
  have only := (led.law empty).2 failed
  rw [Roll.OnlyTraced] at only
  rw [← only, ← led.settings]

/-- A copy behind a reference fails in its second mutation, after a draw of the first. -/
theorem select_failed_copy :
    let copy : LootNode := .drop {} (.copy 0 [.builtinSeed, .rank 0])
    let w : World := { catalog := { prototypes := .ofList [(⟨9⟩, .lootTable ⟨⟨9⟩, "", copy⟩)] } }
    let n : LootNode := .action {} .firstTime ⟨3⟩ (.reference {} ⟨9⟩ {})
    let r : Roll := { Roll.start 7 with
      grants := [.item { item := ⟨5⟩, rarity := ⟨1⟩, level := 3 }]
      effects := [.markReceived ⟨4⟩] }
    (n.select w ⟨{}, r⟩).1 = .failed ∧ (n.select w ⟨{}, r⟩).2.roll.dice ≠ r.dice ∧
      (n.select w ⟨{}, r⟩).2.roll.grants = r.grants ∧
      (n.select w ⟨{}, r⟩).2.roll.effects = r.effects := by
  intro copy w n r
  have failed : (n.select w ⟨{}, r⟩).1 = .failed := by decide
  have unmoved := select_failed w n ⟨{}, r⟩ rfl (by rw [failed]; rfl)
  refine ⟨failed, by decide, ?_, ?_⟩
  · rw [unmoved]
  · rw [unmoved]

end LootNode

end Spoils
