import Mathlib.Algebra.BigOperators.Group.List.Basic
import Mathlib.Algebra.Ring.Int.Defs
import Spoils.Proofs.Roll.Tally

/-! How often a roll asks for an effect, and how much experience it gives a vendor. -/
namespace Spoils

/-- Counts the steps that ask for an effect. Keys that were received and gates on cooldown never
do. -/
def Effect.tally (w : World) (e : Effect) : Tally where
  drop
    | .callback c => if e = .callback c then 1 else 0
    | _ => 0
  received key :=
    if e = .markReceived key && key.isValid && !w.oracle.hasReceived key then 1 else 0
  cooled gate := if e = .useCooldown gate && !w.oracle.isOnCooldown gate then 1 else 0

/-- The experience for a vendor among what was granted. -/
def Grant.experienceFor (vendor : PrototypeId) : Grant → Int
  | .vendorXp v amount => if v = vendor then amount else 0
  | _ => 0

def vendorTotal (vendor : PrototypeId) (gs : List Grant) : Int :=
  (gs.map (·.experienceFor vendor)).sum

/-- Counts the experience that drops give a vendor when each is held to what remains. -/
def Tally.ofVendor (vendor : PrototypeId) (remaining : Int) : Tally where
  drop
    | .vendorXp v amount => if v = vendor then (min amount (max remaining 0)).toNat else 0
    | _ => 0

theorem count_addEffect (e f : Effect) (r : Roll) :
    (r.addEffect f).effects.count e = r.effects.count e + if e = f then 1 else 0 := by
  rw [Roll.addEffect, List.count_append, List.count_singleton]
  simp only [beq_iff_eq, eq_comm (a := e)]

private theorem Effect.tally_bounds (w : World) (e : Effect) :
    (e.tally w).Bounds w (fun _ => True) fun r => r.effects.count e where
  traced traced := by
    rw [traced]
  drop s d r _ idle := by
    cases d with
    | callback c =>
      rw [Roll.rollDrop]
      split
      · exact Int.le_add_of_nonneg_right (Int.natCast_nonneg _)
      · simp [count_addEffect, tally]
    | _ =>
      rw [(Roll.rollDrop_gains (w := w) (s := s) (by simp) idle).effects]
      omega
  token s candidates r idle := by
    rw [(Roll.rollToken_gains (w := w) (s := s) candidates idle).effects]
  received r key unknown valid := by
    simp [count_addEffect, tally, unknown, valid]
  cooled r gate ready := by
    simp [count_addEffect, tally, ready]

/-- A roll asks for an effect no more often than it can reach steps that ask for it. -/
theorem LootNode.roll_count_le (n : LootNode) (q : Request) (e : Effect) :
    (n.roll q).effects.count e ≤ n.most q.world (e.tally q.world) q.settings := by
  have counted := select_adds (n := n) (e.tally_bounds q.world) (fun _ _ _ _ _ _ _ _ => trivial)
    (fun _ _ _ _ _ => trivial) ⟨q.settings, .start q.seed⟩ rfl trivial
  have none_before : (Roll.start q.seed).effects.count e = 0 := rfl
  rw [none_before, Int.natCast_zero, Int.zero_add] at counted
  exact Int.ofNat_le.mp counted

/-- Of two rewards for one key, a table draws one. -/
example :
    let reward : LootNode := .action {} .firstTime ⟨3⟩ (.drop {} (.powerPoints 5))
    LootNode.most (.table {} {} [reward, reward]) {} (Effect.tally {} (.markReceived ⟨3⟩)) {} = 1 :=
  by decide

/-- A reward for the first time behind a cooldown, in a table that takes every entry twice, is paid
twice: the answers about keys and gates are those from before the roll. -/
theorem LootNode.roll_pays_again :
    let reward : LootNode := .action ⟨1, [.cooldown .channel ⟨4⟩ false]⟩ .firstTime ⟨3⟩
      (.drop {} (.powerPoints 5))
    let n : LootNode := .table {} { method := .every, times := ⟨2, 2⟩ } [reward]
    let effects := (n.roll { world := {}, seed := 1 }).effects
    ¬ effects.count (.markReceived ⟨3⟩) ≤ 1 ∧
      ¬ effects.count (.useCooldown ⟨.channel, ⟨4⟩, false⟩) ≤ 1 := by
  decide +kernel

section
variable {vendor : PrototypeId} {remaining : Int}

theorem vendorTotal_append (gs gs' : List Grant) :
    vendorTotal vendor (gs ++ gs') = vendorTotal vendor gs + vendorTotal vendor gs' := by
  rw [vendorTotal, List.map_append, List.sum_append]
  rfl

theorem Roll.Gains.vendorTotal_eq {gives : Grant → Prop} {r r' : Roll} (h : r.Gains gives r')
    (other : ∀ amount, ¬ gives (.vendorXp vendor amount)) :
    vendorTotal vendor r'.grants = vendorTotal vendor r.grants := by
  obtain ⟨gs, appended, given⟩ := h.grants
  have nothing : ∀ x ∈ gs.map (·.experienceFor vendor), x = 0 := by
    intro x hx
    obtain ⟨g, hg, rfl⟩ := List.mem_map.mp hx
    cases g with
    | vendorXp v amount =>
      rw [Grant.experienceFor]
      split
      · rename_i same
        exact (other amount (same ▸ given _ hg rfl)).elim
      · rfl
    | _ => rfl
  rw [appended, vendorTotal_append, vendorTotal, vendorTotal, List.sum_eq_zero nothing]
  omega

private theorem Tally.ofVendor_bounds {w : World}
    (capped : w.oracle.vendorRemaining vendor = some remaining) :
    (Tally.ofVendor vendor remaining).Bounds w (·.contains DropFlags.ignoreCap = false)
      fun r => vendorTotal vendor r.grants where
  traced traced := by
    rw [traced]
  drop s d r held idle := by
    cases d with
    | vendorXp v amount =>
      rw [Roll.rollDrop_vendorXp v amount idle, vendorTotal_append]
      by_cases same : v = vendor
      · have clamped : Roll.vendorAmount w s v amount = min amount (max remaining 0) := by
          rw [Roll.vendorAmount, held, same, capped]
          rfl
        simp only [clamped, ofVendor, if_pos same]
        split
        · simp only [vendorTotal, List.map_nil, List.sum_nil]
          omega
        · simp only [vendorTotal, List.map_cons, List.map_nil, List.sum_singleton,
            Grant.experienceFor, if_pos same]
          omega
      · simp only [ofVendor, if_neg same]
        split <;> simp [vendorTotal, Grant.experienceFor, same]
    | callback c =>
      rw [Roll.rollDrop]
      split
      · exact Int.le_add_of_nonneg_right (Int.natCast_nonneg _)
      · exact Int.le_add_of_nonneg_right (Int.natCast_nonneg _)
    | _ =>
      rw [(Roll.rollDrop_gains (w := w) (s := s) (by simp) idle).vendorTotal_eq
        fun _ given => by cases given]
      omega
  token s candidates r idle := by
    rw [(Roll.rollToken_gains (w := w) (s := s) candidates idle).vendorTotal_eq (by simp)]
  received _ _ _ _ := Int.le_add_of_nonneg_right (Int.natCast_nonneg _)
  cooled _ _ _ := Int.le_add_of_nonneg_right (Int.natCast_nonneg _)

/-- Where nothing lifts the cap of a vendor, a roll gives it no more experience than the drops that
it can reach, when each is held to what remains. -/
theorem LootNode.roll_vendorTotal_le (n : LootNode) (q : Request)
    (capped : q.world.oracle.vendorRemaining vendor = some remaining)
    (held : q.settings.flags.contains DropFlags.ignoreCap = false)
    (tree : ∀ m ∈ n.nodes, .ignoreVendorCap ∉ m.modifiers)
    (tables : ∀ id t, q.world.catalog.lootTable? id = some t →
      ∀ m ∈ t.root.nodes, .ignoreVendorCap ∉ m.modifiers) :
    vendorTotal vendor (n.roll q).grants ≤
      n.most q.world (.ofVendor vendor remaining) q.settings := by
  have keeps {n : LootNode} (h : ∀ m ∈ n.nodes, .ignoreVendorCap ∉ m.modifiers) :
      n.Keeps q.world (·.contains DropFlags.ignoreCap = false) :=
    fun m hm s dice flags => (Modifier.applyAll_ignoresCap (h m hm)).trans flags
  have counted := select_adds (Tally.ofVendor_bounds capped) (fun id t ht => keeps (tables id t ht))
    (keeps tree) ⟨q.settings, .start q.seed⟩ rfl held
  have none_before : vendorTotal vendor (Roll.start q.seed).grants = 0 := rfl
  rw [none_before, Int.zero_add] at counted
  exact counted

end

namespace LootNode

/-- Of two drops for a vendor that takes five, a table draws one. -/
theorem roll_vendorTotal_le_drawn :
    let n : LootNode := .table {} {} [.drop {} (.vendorXp ⟨7⟩ 3), .drop {} (.vendorXp ⟨7⟩ 8)]
    let w : World := { oracle := { vendorRemaining := fun _ => some 5 } }
    vendorTotal ⟨7⟩ (n.roll { world := w, seed := 1 }).grants ≤ 5 := by
  intro n w
  have bound : vendorTotal ⟨7⟩ (n.roll { world := w, seed := 1 }).grants ≤
      n.most w (.ofVendor ⟨7⟩ 5) {} :=
    roll_vendorTotal_le n { world := w, seed := 1 } rfl (by decide)
      (by simp [n, nodes, nodesOfAll, modifiers, head]) (fun id t found => nomatch found)
  exact bound.trans (by decide)

/-- A table that takes a drop of the whole rest twice gives the vendor twice what remains: every
drop asks for itself, and the answer is that from before the roll. -/
theorem roll_exceeds_cap :
    let n : LootNode := .table {} { method := .every, times := ⟨2, 2⟩ }
      [.drop {} (.vendorXp ⟨7⟩ 5)]
    let w : World := { oracle := { vendorRemaining := fun _ => some 5 } }
    let q : Request := { world := w, seed := 1 }
    q.settings.flags.contains DropFlags.ignoreCap = false ∧
      (∀ m ∈ n.nodes, m.modifiers = []) ∧
      ¬ vendorTotal ⟨7⟩ (n.roll q).grants ≤ max 5 0 := by
  refine ⟨by decide, by simp [nodes, nodesOfAll, modifiers, head], by decide +kernel⟩

end LootNode

end Spoils
