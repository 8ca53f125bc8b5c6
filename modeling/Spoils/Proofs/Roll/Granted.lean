import Spoils.Proofs.Mutation.Acceptance
import Spoils.Proofs.Roll.Granting
import Spoils.Proofs.Roll.Trees

/-! What holds of every item that a roll grants: a condition that new drafts meet and that a roll
keeps, whatever it does to a draft. -/
namespace Spoils

/-- New drafts meet the condition, and affixes that are rolled for them, allowed mutations and
copies keep it. -/
structure Draft.Invariant (w : World) (holds : Draft → Prop)
    (allowed : Mutation → Prop := fun _ => True) : Prop where
  queued : ∀ {d checks} (seed : Nat), d.IsNew → w.accepts checks d = true →
    holds { d with seed := seed, checks := checks }
  rolled : ∀ s d dice, d.affixes = [] → holds d →
    holds (d.rollAffixes w.catalog w.occasion s dice).draft
  mutated : ∀ granted s m d dice, allowed m → (∀ e ∈ granted, holds e) → holds d →
    (Mutation.apply ⟨w, granted, s⟩ m d dice).report.error = false →
    holds (Mutation.apply ⟨w, granted, s⟩ m d dice).draft
  copied : ∀ d, holds d → holds { d with checks := d.copyChecks }

def Pending.draft? : Pending → Option Draft
  | .item d _ _ => some d
  | .other g => g.draft?

def Pending.mutations : Pending → List Mutation
  | .item _ mutations _ => mutations
  | .other _ => []

def Pending.IsBare : Pending → Prop
  | .item d _ true => d.affixes = []
  | _ => True

/-- The condition holds of the item of an entry, and its mutations are allowed. -/
structure Pending.Meets (holds : Draft → Prop) (allowed : Mutation → Prop) (p : Pending) :
    Prop where
  draft : ∀ d ∈ p.draft?, holds d
  bare : p.IsBare
  listed : ∀ m ∈ p.mutations, allowed m

/-- The condition holds of all items that were granted or wait, which wait for allowed
mutations. -/
structure Roll.AllDrafts (holds : Draft → Prop) (allowed : Mutation → Prop) (r : Roll) :
    Prop where
  granted : ∀ d ∈ r.drafts, holds d
  waiting : ∀ p ∈ r.queue, p.Meets holds allowed

namespace Draft.Invariant
variable {w : World} {holds : Draft → Prop} {allowed : Mutation → Prop}
  (inv : Invariant w holds allowed)
include inv

theorem applyAll {granted : List Draft} (hg : ∀ e ∈ granted, holds e) (s : BranchSettings)
    {ms : List Mutation} (listed : ∀ m ∈ ms, allowed m) {d : Draft} {dice : Dice} (hd : holds d)
    (clean : (Mutation.applyAll ⟨w, granted, s⟩ ms d dice).2.report.error = false) :
    holds (Mutation.applyAll ⟨w, granted, s⟩ ms d dice).2.draft :=
  Mutation.applyAll_keeps _ holds ms
    (fun m hm d dice => inv.mutated granted s m d dice (listed m hm) hg) d dice hd clean

private theorem becomes {s : BranchSettings} {r : Roll} {p : Pending} {g : Grant}
    (hr : ∀ d ∈ r.drafts, holds d) (hp : p.Meets holds allowed) (h : Roll.Becomes w s r p g) :
    ∀ d ∈ g.draft?, holds d := by
  cases h with
  | other g => exact hp.draft
  | @item d ms wanted m run clean =>
    have attached : holds (r.attach w s d wanted).1 := by
      rw [Roll.attach]
      split
      · rename_i rolls
        subst rolls
        exact inv.rolled (some s) d r.dice hp.bare (hp.draft d rfl)
      · exact hp.draft d rfl
    have same : (r.attach w s d wanted).2.drafts = r.drafts := by
      rw [Roll.attach]
      split <;> rfl
    intro e he
    cases he
    rw [← run] at clean ⊢
    exact inv.applyAll (same ▸ hr) s hp.listed attached clean

theorem grantEntry {r : Roll} (s : BranchSettings) (hr : ∀ d ∈ r.drafts, holds d) {p : Pending}
    (hp : p.Meets holds allowed) : ∀ d ∈ (r.grantEntry w s p).2.drafts, holds d := by
  obtain ⟨dice, traces, h | ⟨g, became, h⟩⟩ := Roll.grantEntry_cases w s r p
  · rw [h]
    exact hr
  · rw [h]
    intro d hd
    simp only [Roll.drafts, List.filterMap_append, List.mem_append] at hd
    rcases hd with hd | hd
    · exact hr d hd
    · obtain ⟨g', hg', hd⟩ := List.mem_filterMap.mp hd
      rw [List.mem_singleton.mp hg'] at hd
      exact inv.becomes hr hp became d hd

theorem grantAll {r : Roll} (s : BranchSettings) (hr : ∀ d ∈ r.drafts, holds d)
    {ps : List Pending} (hps : ∀ p ∈ ps, p.Meets holds allowed) :
    ∀ d ∈ (Roll.grantAll w s ps r).2.drafts, holds d := by
  induction ps generalizing r with
  | nil => exact hr
  | cons p ps ih =>
    exact ih (inv.grantEntry s hr (hps p (.head ps))) fun q hq => hps q (.tail p hq)

theorem finish {r : Roll} (s : BranchSettings) (o : Outcome) (hr : r.AllDrafts holds allowed) :
    (r.finish w s o).2.AllDrafts holds allowed := by
  refine ⟨inv.grantAll (r := r.clearQueue) s hr.granted hr.waiting, ?_⟩
  rw [Roll.finish_queue]
  simp

private theorem queuedDraft {s : BranchSettings} {granted : List Draft} {p : Pending}
    (hg : ∀ d ∈ granted, holds d) (h : p.Queued w s Grant.IsPlain allowed granted) :
    p.Meets holds allowed := by
  cases h with
  | item seed ms new fits listed =>
    refine ⟨fun e he => ?_, new.affixes, listed⟩
    cases he
    exact inv.queued seed new fits
  | copy source clean listed =>
    refine ⟨fun e he => ?_, trivial, List.forall_mem_nil _⟩
    cases he
    exact inv.applyAll hg s listed (inv.copied _ (hg _ source)) clean
  | other plain =>
    refine ⟨fun e he => ?_, trivial, List.forall_mem_nil _⟩
    cases plain.symm.trans he

theorem law :
    Law.Holds w (fun _ _ r r' => r.AllDrafts holds allowed → r'.AllDrafts holds allowed)
      allowed where
  draw _ _ _ h := ⟨h.granted, h.waiting⟩
  trans h h' := h' ∘ h
  deeper := id
  forced _ := id
  modified _ _ := id
  granted s r ps o queued _ _ := by
    intro h
    refine inv.finish s o ⟨h.granted, fun p hp => ?_⟩
    rcases List.mem_append.mp hp with hp | hp
    · exact h.waiting p hp
    · exact inv.queuedDraft h.granted (queued p hp)
  abandoned s r h := ⟨h.granted, by simp [Roll.clearQueue]⟩
  called s r c h := by
    split
    · exact h
    · exact ⟨h.granted, h.waiting⟩
  received _ _ _ _ _ _ h := ⟨h.granted, h.waiting⟩
  cooled _ _ _ _ _ _ _ h := ⟨h.granted, h.waiting⟩

/-- Whatever a roll of allowed mutations grants satisfies the condition. -/
theorem roll_of (n : LootNode) {q : Request} (same : q.world = w) (applies : n.Applies allowed)
    (known : ∀ id t, w.catalog.lootTable? id = some t → t.root.Applies allowed) :
    ∀ d ∈ (n.roll q).drafts, holds d := by
  subst same
  have led := LootNode.select_obeys_of inv.law Drop.Gives.isPlain known n applies
  have run := (led ⟨q.settings, .start q.seed⟩).law
  exact (run ⟨by simp [Roll.drafts, Roll.start], by simp [Roll.start]⟩).granted

omit inv in
theorem roll (inv : Invariant w holds) (n : LootNode) {q : Request} (same : q.world = w) :
    ∀ d ∈ (n.roll q).drafts, holds d :=
  inv.roll_of n same n.applies_all fun _ t _ => t.root.applies_all

end Draft.Invariant

/-- To be droppable under its own checks is kept by everything that a roll does to a draft. -/
theorem World.mayDrop_invariant (w : World) : Draft.Invariant w (·.MayDrop w) where
  queued {d _} _ _ fits := World.accepts_same (d := d) ⟨rfl, rfl, rfl, rfl, rfl, rfl⟩ fits
  rolled s d dice _ h := h.sameBody (Draft.rollAffixes_sameBody d dice)
  mutated granted s m d dice _ _ h clean := Mutation.apply_mayDrop ⟨w, granted, s⟩ m d dice h clean
  copied d h := by
    refine h.weaken ⟨rfl, rfl, rfl, rfl, rfl, rfl⟩ ⟨id, ?_, id, id, ?_, id⟩
    · exact fun clash => (Bool.false_ne_true clash).elim
    · exact fun both => (Bool.and_eq_true _ _ ▸ both).1

namespace LootNode

/-- Every granted item is of a concrete item of the catalog and may drop under its own checks,
after affixes, mutations and copies. -/
theorem roll_mayDrop (n : LootNode) (q : Request) :
    (n.roll q).drafts.all (fun d => (q.world.catalog.item? d.item).any fun item =>
      !item.isAbstract && item.isDroppable (q.world.inspection d.checks) d) = true := by
  rw [List.all_eq_true]
  intro d hd
  have accepted := q.world.mayDrop_invariant.roll n rfl d hd
  simp only [Draft.MayDrop, World.accepts, Option.any_eq_true] at accepted
  obtain ⟨item, found, droppable⟩ := accepted
  have concrete : (!item.isAbstract) = true := by
    simp only [Item.isDroppable, Bool.and_eq_true] at droppable
    exact droppable.1.1.1
  rw [found, Option.any_some, concrete, droppable, Bool.and_true]

end LootNode

end Spoils
