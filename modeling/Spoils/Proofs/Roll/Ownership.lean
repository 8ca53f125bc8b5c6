import Spoils.Proofs.Mutation.Changes
import Spoils.Proofs.Roll.Granted

/-! Whether items are bound exactly if they have an owner. What counts is which requests to bind
and to unbind come, and which comes last. -/
namespace Spoils

/-- The requests of a mutation to bind a draft or to unbind it. -/
def Mutation.binds : Mutation → List Bool
  | .binding .avatar => [true]
  | .binding .none | .binding .tradeRestrictedUnbind => [false]
  | _ => []

namespace Draft
variable {d e f : Draft}

def isBound (d : Draft) : Bool := d.binding.contains Binding.bound

def isOwned (d : Draft) : Bool := d.equippableBy.isValid

/-- The draft is bound exactly if it has an owner. -/
def BoundToOwner (d : Draft) : Prop := d.isBound = d.isOwned

instance (d : Draft) : Decidable d.BoundToOwner := inferInstanceAs (Decidable (_ = _))

/-- What requests to bind and to unbind leave. The last one says whether the draft is bound. It has
an owner like that if it was rolled for an avatar; else an owner that is lost does not come back. -/
structure Ties (asked : List Bool) (d e : Draft) : Prop where
  rollFor : e.rollFor = d.rollFor
  bound : e.isBound = asked.getLast?.getD d.isBound
  owned : e.isOwned =
    if d.rollFor.isValid then asked.getLast?.getD d.isOwned else d.isOwned && !asked.contains false

namespace Ties
variable {asked more : List Bool}

/-- Whatever leaves the owner alone ties nothing. -/
private theorem of_same (rollFor : e.rollFor = d.rollFor) (binding : e.binding = d.binding)
    (owner : e.equippableBy = d.equippableBy) : Ties [] d e where
  rollFor := rollFor
  bound := by rw [isBound, binding]; rfl
  owned := by
    rw [isOwned, owner, List.contains_nil, Bool.not_false, Bool.and_true]
    exact (ite_self _).symm

theorem trans (h : Ties asked d e) (h' : Ties more e f) : Ties (asked ++ more) d f where
  rollFor := h'.rollFor.trans h.rollFor
  bound := by
    rw [h'.bound, h.bound, List.getLast?_append]
    cases more.getLast? <;> rfl
  owned := by
    rw [h'.owned, h.owned, h.rollFor, List.getLast?_append, List.contains_append]
    split
    · cases more.getLast? <;> rfl
    · rw [Bool.not_or, Bool.and_assoc]

end Ties

private theorem set_tradeRestricted_bound : ∀ b : Binding, ∀ on,
    Flags.contains (b.set .tradeRestricted on) Binding.bound = Flags.contains b Binding.bound := by
  decide

private theorem set_bound :
    ∀ b : Binding, ∀ on, Flags.contains (b.set .bound on) Binding.bound = on := by
  decide

private theorem bind_ties (d : Draft) (on : Bool) :
    Ties [on] d (d.bind on (if d.equippableBy.isValid then d.equippableBy else d.rollFor)).2 where
  rollFor := rfl
  bound := set_bound d.binding on
  owned := by
    cases on with
    | false => simp [bind, isOwned, PrototypeId.none, PrototypeId.isValid]
    | true =>
      simp only [bind, isOwned]
      by_cases owned : d.equippableBy.isValid <;> simp [owned]

private theorem restrictTrade_ties (d : Draft) : Ties [] d (d.restrictTrade true false).2 where
  rollFor := rfl
  bound := set_tradeRestricted_bound d.binding true
  owned := by simp [restrictTrade, isOwned]

private theorem rebind_ties (change : BindingChange) (d : Draft) (dice : Dice) :
    Ties (Mutation.binding change).binds d (d.rebind change dice).draft := by
  -- An item that is freed is not checked any more for who may use it.
  have freed {asked : List Bool} (changed : Bool × Draft) (h : Ties asked d changed.2) :
      Ties asked d (if changed.1 then { changed.2 with
        checks := { changed.2.checks with usableBy := false } } else changed.2) := by
    split
    · exact ⟨h.rollFor, h.bound, h.owned⟩
    · exact h
  cases change with
  | none => exact freed (d.bind false .none) (bind_ties d false)
  | tradeRestricted => exact restrictTrade_ties d
  | tradeRestrictedUnbind =>
    exact freed (d.restrictTrade true true)
      ((restrictTrade_ties d).trans (bind_ties (d.restrictTrade true false).2 false))
  | avatar => exact bind_ties d true

/-- A draft that is bound exactly if it has an owner stays so, unless it was rolled for nobody, is
bound last, and has no owner to be bound to. -/
theorem Ties.boundToOwner_iff {asked : List Bool} (h : Ties asked d e) (before : d.BoundToOwner) :
    e.BoundToOwner ↔ d.rollFor.isValid = true ∨ asked.getLast? ≠ some true ∨
      d.isOwned = true ∧ false ∉ asked := by
  rw [BoundToOwner, h.bound, h.owned, before]
  by_cases wanted : d.rollFor.isValid = true
  · simp only [wanted, if_true, true_or]
  · rw [if_neg wanted]
    cases last : asked.getLast? with
    | none => simp [List.getLast?_eq_none_iff.mp last]
    | some on =>
      cases on with
      | true =>
        rw [Option.getD_some, eq_comm, Bool.and_eq_true]
        simp [wanted]
      | false => simp [List.mem_of_getLast? last]

/-- The draft is bound exactly if it has an owner, or is bound without one and was rolled for
nobody. -/
def Tied (d : Draft) : Prop := d.rollFor.isValid = true ∨ d.isOwned = true → d.BoundToOwner

theorem Ties.tied {asked : List Bool} (h : Ties asked d e) (tied : d.Tied) : e.Tied := by
  rintro (wanted | owned)
  · rw [h.rollFor] at wanted
    exact (h.boundToOwner_iff (tied (.inl wanted))).mpr (.inl wanted)
  · by_cases wanted : d.rollFor.isValid = true
    · exact (h.boundToOwner_iff (tied (.inl wanted))).mpr (.inl wanted)
    · rw [h.owned, if_neg wanted] at owned
      have owned : d.isOwned = true ∧ false ∉ asked := by simpa using owned
      exact (h.boundToOwner_iff (tied (.inr owned.1))).mpr (.inr (.inr owned))

end Draft

namespace Mutation
variable {k : Workshop} {m : Mutation} {d e : Draft}

theorem Step.ties (h : m.Step k d e) (other : ∀ change, m ≠ .binding change) :
    Draft.Ties [] d e := by
  cases h with
  | written | moved | turned => exact .of_same rfl rfl rfl
  | adjusted checks =>
    have adjusts := k.world.adjust_adjusts checks d
    exact .of_same ((congrArg Draft.rollFor adjusts).trans rfl)
      ((congrArg Draft.binding adjusts).trans rfl) ((congrArg Draft.equippableBy adjusts).trans rfl)
  | @rebound change asked => exact (other change asked).elim

theorem Steps.ties (h : m.Steps k d e) (other : ∀ change, m ≠ .binding change) :
    Draft.Ties [] d e := by
  induction h with
  | refl => exact .of_same rfl rfl rfl
  | tail _ step ih => exact ih.trans (step.ties other)

private theorem apply_ties (k : Workshop) (m : Mutation) (d : Draft) (dice : Dice) :
    Draft.Ties m.binds d (m.apply k d dice).draft := by
  cases m with
  | binding change => exact Draft.rebind_ties change d dice
  | _ => exact (apply_steps ..).ties nofun

/-- Mutations without an error tie by all of their requests, in their order. -/
private theorem applyEach_ties (k : Workshop) (ms : List Mutation) (c : Change)
    (clean : (applyEach k ms c).2.report.error = false) :
    Draft.Ties (ms.flatMap binds) c.draft (applyEach k ms c).2.draft := by
  induction ms generalizing c with
  | nil => exact .of_same rfl rfl rfl
  | cons m ms ih =>
    rw [applyEach_cons] at clean ⊢
    rw [List.flatMap_cons]
    by_cases failed : (applyNext k m c).report.error = true
    · rw [if_pos failed] at clean
      cases failed.symm.trans clean
    · rw [if_neg failed] at clean ⊢
      exact (apply_ties k m c.draft c.dice).trans (ih _ clean)

private theorem applyAll_ties (k : Workshop) (ms : List Mutation) (d : Draft) (dice : Dice)
    (clean : (applyAll k ms d dice).2.report.error = false) :
    Draft.Ties (ms.flatMap binds) d (applyAll k ms d dice).2.draft := by
  rw [applyAll_eq] at clean ⊢
  have run := applyEach_ties k ms ⟨.none, d, dice⟩ clean
  simp only at clean ⊢
  rwa [if_neg (by rw [clean]; decide)]

end Mutation

/-- New drafts are tied to nobody, and mutations leave drafts tied. -/
theorem World.tied_invariant (w : World) : Draft.Invariant w Draft.Tied where
  queued {d checks} seed new _ _ := by
    rw [Draft.BoundToOwner, Draft.isBound, Draft.isOwned, new.binding, new.equippableBy]
    rfl
  rolled s d dice _ h := by
    have same : d.SameBody (d.rollAffixes w.catalog w.occasion s dice).draft :=
      Draft.rollAffixes_sameBody d dice
    exact (Draft.Ties.of_same same.rollFor_eq ((congrArg Draft.binding same).trans rfl)
      ((congrArg Draft.equippableBy same).trans rfl)).tied h
  mutated granted s m d dice _ _ h _ := (Mutation.apply_ties ⟨w, granted, s⟩ m d dice).tied h
  copied _ h := h

namespace LootNode

/-- After mutations without an error an item that was bound exactly if it had an owner is so again
exactly if it was rolled for an avatar, is not bound last, or had an owner and is never unbound. A
roll grants items that are bound without an owner only when they were rolled for nobody. -/
theorem roll_boundToOwner (w : World) :
    (∀ (s : BranchSettings) (ms : List Mutation) (d : Draft) (r : Roll), d.BoundToOwner →
      (r.mutate w s ms d).report.error = false →
      ((r.mutate w s ms d).draft.BoundToOwner ↔
        d.rollFor.isValid = true ∨ (ms.flatMap Mutation.binds).getLast? ≠ some true ∨
          d.isOwned = true ∧ false ∉ ms.flatMap Mutation.binds)) ∧
      ∀ (n : LootNode) (q : Request), q.world = w → ∀ d ∈ (n.roll q).drafts,
        d.rollFor.isValid = true ∨ d.isOwned = true → d.BoundToOwner := by
  refine ⟨fun s ms d r before clean => ?_, fun n q same => w.tied_invariant.roll n same⟩
  exact (Mutation.applyAll_ties (r.workshop w s) ms d r.dice clean).boundToOwner_iff before

/-- An item is unbound and bound again for the avatar it was rolled for. -/
theorem roll_boundToOwner_avatar :
    let content : Content := {
      rarities := [{ id := ⟨10⟩, weightCurve := ⟨5⟩ }]
      curves := [{ id := ⟨5⟩, min := 1, max := 1, values := [1] }]
      items := [{ id := ⟨100⟩ }]
      prototypes := [{ id := ⟨3⟩, kind := .avatar }] }
    let ms : List Mutation := [.binding .tradeRestrictedUnbind, .binding .avatar]
    let n : LootNode := .drop {} (.item ⟨100⟩ {} ms)
    let d : Draft := { item := ⟨100⟩, rarity := ⟨10⟩, rollFor := ⟨3⟩ }
    ((Roll.start 1).mutate {} {} ms d).report.error = false ∧
      ((Roll.start 1).mutate {} {} ms d).draft.isBound = true ∧
      ((Roll.start 1).mutate {} {} ms d).draft.BoundToOwner ∧
      ∃ c, Catalog.ofContent content = .ok c ∧
        ((n.roll { world := { catalog := c }, seed := 1 }).drafts.map fun d =>
          (d.rollFor, d.isBound)) = [(⟨3⟩, true)] ∧
        ∀ d ∈ (n.roll { world := { catalog := c }, seed := 1 }).drafts, d.BoundToOwner := by
  intro content ms n d
  have clean : ((Roll.start 1).mutate {} {} ms d).report.error = false := by decide +kernel
  have before : d.BoundToOwner := by decide
  have again := ((roll_boundToOwner {}).1 {} ms d (.start 1) before clean).mpr (.inl rfl)
  have tied {c : Catalog} (wanted : ∀ d ∈ (n.roll { world := { catalog := c }, seed := 1 }).drafts,
      d.rollFor.isValid = true) :
      ∀ d ∈ (n.roll { world := { catalog := c }, seed := 1 }).drafts, d.BoundToOwner :=
    fun d granted => (roll_boundToOwner _).2 n _ rfl d granted (.inl (wanted d granted))
  refine ⟨clean, ?bound, again, _, rfl, ?rolled, tied ?wanted⟩
  case bound => decide +kernel
  case rolled => decide +kernel
  case wanted => decide +kernel

/-- An item that was rolled for nobody is bound to nobody. -/
theorem roll_bound_unowned :
    let content : Content := {
      rarities := [{ id := ⟨10⟩, weightCurve := ⟨5⟩ }]
      curves := [{ id := ⟨5⟩, min := 1, max := 1, values := [1] }]
      items := [{ id := ⟨100⟩ }] }
    let n : LootNode := .drop {} (.item ⟨100⟩ {} [.binding .avatar])
    let d : Draft := { item := ⟨100⟩, rarity := ⟨10⟩ }
    d.BoundToOwner ∧ ((Roll.start 1).mutate {} {} [.binding .avatar] d).report.error = false ∧
      ¬ ((Roll.start 1).mutate {} {} [.binding .avatar] d).draft.BoundToOwner ∧
      ∃ c, Catalog.ofContent content = .ok c ∧
        ∃ d ∈ (n.roll { world := { catalog := c }, seed := 1 }).drafts, ¬ d.BoundToOwner := by
  refine ⟨?before, ?clean, ?apart, _, rfl, ?rolled⟩
  case before => decide
  case clean => decide +kernel
  case apart => decide +kernel
  case rolled => decide +kernel

end LootNode

end Spoils
