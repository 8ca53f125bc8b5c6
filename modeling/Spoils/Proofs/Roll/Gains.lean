import Spoils.Proofs.Roll.Drops
import Spoils.Proofs.Roll.Granting
import Spoils.Proofs.Roll.Trees

/-! What the ends of trees add to a roll: items, loot of the kinds they give, and no effects. -/
namespace Spoils

namespace Roll
variable {w : World} {s : BranchSettings} {r : Roll}

/-- The effects are as they were, and what was granted besides items is loot of these kinds. -/
structure Gains (gives : Grant → Prop) (r r' : Roll) : Prop where
  effects : r'.effects = r.effects
  grants : ∃ gs, r'.grants = r.grants ++ gs ∧ ∀ g ∈ gs, g.IsPlain → gives g

theorem Gains.of_eq {gives : Grant → Prop} {r r' : Roll} (effects : r'.effects = r.effects)
    (grants : r'.grants = r.grants) : r.Gains gives r' :=
  ⟨effects, [], grants.trans (List.append_nil _).symm, by simp⟩

theorem Gains.trans {gives : Grant → Prop} {r r' r'' : Roll} (h : r.Gains gives r')
    (h' : r'.Gains gives r'') : r.Gains gives r'' := by
  obtain ⟨gs, first, given⟩ := h.grants
  obtain ⟨gs', second, given'⟩ := h'.grants
  refine ⟨h'.effects.trans h.effects, gs ++ gs', ?_, fun g hg => ?_⟩
  · rw [second, first, List.append_assoc]
  · exact (List.mem_append.mp hg).elim (given g) (given' g)

private theorem gains_law (w : World) (gives : BranchSettings → Grant → Prop) :
    Law.Ends w gives fun s _ r r' => r.queue = [] → r'.queue = [] ∧ r.Gains (gives s) r' where
  draw s r dice empty := ⟨empty, .of_eq rfl rfl⟩
  trans h h' empty := by
    obtain ⟨mid, first⟩ := h empty
    obtain ⟨last, second⟩ := h' mid
    exact ⟨last, first.trans second⟩
  granted s r ps o queued _ _ empty := by
    obtain ⟨gs, appended, came⟩ := grantAll_grants (w := w) (s := s)
      (r := { r with queue := [] }) ({ r with queue := r.queue ++ ps } : Roll).queue
    refine ⟨finish_queue o, finish_effects o, gs, appended, fun g hg plain => ?_⟩
    obtain ⟨p, hp, before, became⟩ := came g hg
    have known : p.Queued w s (gives s) (fun _ => True) r.drafts := queued p (by simpa [empty] using hp)
    cases became with
    | item => cases plain
    | other =>
      cases known with
      | other given => exact given
  abandoned s r _ := ⟨rfl, .of_eq rfl rfl⟩

/-- Drops leave no effects, callbacks apart. -/
theorem rollDrop_gains {d : Drop} (quiet : ∀ c, d ≠ .callback c) (empty : r.queue = []) :
    r.Gains (d.Gives w s) (r.rollDrop w s d).2 :=
  (rollDrop_law (gains_law w fun s => d.Gives w s) s (fun _ => id) (fun _ _ => trivial)
    (fun c _ h => (quiet c h).elim) r empty).2

theorem rollToken_gains (candidates : List Item) (empty : r.queue = []) :
    r.Gains (fun _ => False) (r.rollToken w s candidates).2 :=
  (rollToken_law (gains_law w fun _ _ => False) s candidates r empty).2

/-- Experience for a vendor is given at once and alone. -/
theorem rollDrop_vendorXp (vendor : PrototypeId) (amount : Int) (empty : r.queue = []) :
    (r.rollDrop w s (.vendorXp vendor amount)).2.grants =
      r.grants ++ if vendorAmount w s vendor amount ≤ 0 then []
        else [.vendorXp vendor (vendorAmount w s vendor amount)] := by
  rw [rollDrop, giveAmount]
  split
  · rw [List.append_nil]
  · simp only [give, pushGrant, push, empty, List.nil_append]
    rfl

/-- Nothing waits, and what was granted besides items is loot of these kinds. -/
structure OnlyGives (gives : Grant → Prop) (r : Roll) : Prop where
  queue : r.queue = []
  grants : ∀ g ∈ r.grants, g.IsPlain → gives g

private theorem OnlyGives.gains {gives : Grant → Prop} {r r' : Roll} (h : r.OnlyGives gives)
    (queue : r'.queue = []) (gained : r.Gains gives r') : r'.OnlyGives gives := by
  obtain ⟨gs, appended, given⟩ := gained.grants
  refine ⟨queue, fun g hg => ?_⟩
  rw [appended] at hg
  exact (List.mem_append.mp hg).elim (h.grants g) (given g)

private theorem onlyGives_law (w : World) (gives : Grant → Prop) :
    Law.Holds w (fun _ _ r r' => r.OnlyGives gives → r'.OnlyGives gives) (fun _ => True)
      fun _ => gives where
  draw _ _ _ h := ⟨h.queue, h.grants⟩
  trans h h' := h' ∘ h
  deeper := id
  forced _ := id
  modified _ _ := id
  granted s r ps o queued few idle h := by
    obtain ⟨queue, gained⟩ :=
      (gains_law w fun _ => gives).granted s r ps o queued few idle h.queue
    exact h.gains queue gained
  abandoned _ _ h := ⟨rfl, h.grants⟩
  called s r _ h := by
    split
    · exact h
    · exact ⟨h.queue, h.grants⟩
  received _ _ _ _ _ _ h := ⟨h.queue, h.grants⟩
  cooled _ _ _ _ _ _ _ h := ⟨h.queue, h.grants⟩

end Roll

/-- Besides items a roll grants only what drops may give. -/
theorem LootNode.roll_gives (n : LootNode) (q : Request) {gives : Grant → Prop}
    (given : ∀ {s d g}, Drop.Gives q.world s d g → gives g) :
    ∀ g ∈ (n.roll q).grants, g.IsPlain → gives g := by
  have led := select_obeys_of (Roll.onlyGives_law q.world gives) given
    (fun _ t _ => t.root.applies_all) n n.applies_all
  exact ((led ⟨q.settings, .start q.seed⟩).law ⟨rfl, List.forall_mem_nil _⟩).grants

end Spoils
