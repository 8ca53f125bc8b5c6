import Spoils.Proofs.Affix.Body
import Spoils.Proofs.Mutation.Pipeline
import Spoils.Proofs.Mutation.Steps

/-! Mutations without an error keep a draft droppable under its own checks. -/
namespace Spoils

namespace Draft
variable {w : World} {d e : Draft}

/-- The draft may drop under its own checks. -/
def MayDrop (w : World) (d : Draft) : Prop := w.accepts d.checks d = true

private theorem SameBody.sameDrop (h : d.SameBody e) : d.SameDrop e :=
  ⟨h.item_eq.symm, h.rarity_eq.symm, h.level_eq.symm, h.rank_eq.symm, h.slot_eq.symm,
    h.rollFor_eq.symm⟩

theorem MayDrop.weaken (hd : d.MayDrop w) (same : d.SameDrop e)
    (fewer : e.checks.Within d.checks) : e.MayDrop w :=
  World.accepts_weaken fewer same hd

theorem MayDrop.sameBody (hd : d.MayDrop w) (h : d.SameBody e) : e.MayDrop w :=
  hd.weaken h.sameDrop (h.checks_eq ▸ .refl d.checks)

theorem mayDrop_of_adjust {checks : Checks} (same : d.checks = checks)
    (adjusted : w.adjust checks d = (true, e)) : e.MayDrop w := by
  have accepted := World.adjust_accepts (w := w) (congrArg Prod.fst adjusted)
  have adjusts := w.adjust_adjusts checks d
  rw [adjusted] at accepted adjusts
  rwa [MayDrop, adjusts.checks_eq, same]

/-- Binding and unbinding take checks away at most. -/
theorem rebind_draft (change : BindingChange) (d : Draft) (dice : Dice) :
    ∃ owner binding checks, (d.rebind change dice).draft =
      { d with equippableBy := owner, binding := binding, checks := checks } ∧
      checks.Within d.checks := by
  have fewer : ({ d.checks with usableBy := false } : Checks).Within d.checks :=
    ⟨id, id, id, id, fun h => (Bool.false_ne_true h).elim, id⟩
  cases change with
  | none | tradeRestrictedUnbind =>
    simp only [rebind]
    split
    · exact ⟨_, _, _, rfl, fewer⟩
    · exact ⟨_, _, _, rfl, .refl d.checks⟩
  | tradeRestricted | avatar => exact ⟨_, _, _, rfl, .refl d.checks⟩

private theorem rebind_mayDrop (change : BindingChange) (dice : Dice) (hd : d.MayDrop w) :
    (d.rebind change dice).draft.MayDrop w := by
  obtain ⟨owner, binding, checks, rebound, fewer⟩ := rebind_draft change d dice
  rw [rebound]
  exact hd.weaken ⟨rfl, rfl, rfl, rfl, rfl, rfl⟩ fewer

end Draft

namespace Workshop
variable {k : Workshop} {d e : Draft} {dice : Dice}

private theorem settled_mayDrop (clean : (k.settled d dice).report.error = false) :
    (k.settled d dice).draft.MayDrop k.world := by
  obtain ⟨e, adjusted, -, settles⟩ := settled_cases clean
  rw [settles]
  exact Draft.mayDrop_of_adjust rfl adjusted

private theorem setLevel_mayDrop (level : Int) (hd : d.MayDrop k.world)
    (clean : (k.setLevel level d dice).report.error = false) :
    (k.setLevel level d dice).draft.MayDrop k.world := by
  rcases k.setLevel_cases level d dice with same | moved
  · rw [same]
    exact hd
  · rw [moved] at clean ⊢
    exact settled_mayDrop (Bool.or_eq_false_iff.mp clean).1

private theorem evaluate_mayDrop (formula : Formula) (hd : d.MayDrop k.world)
    (clean : (k.evaluate formula d dice).report.error = false) :
    (k.evaluate formula d dice).draft.MayDrop k.world := by
  have written (p : PropertyStore) : Draft.MayDrop k.world { d with properties := p } :=
    hd.weaken ⟨rfl, rfl, rfl, rfl, rfl, rfl⟩ (.refl d.checks)
  obtain ⟨p, dice', stays | ⟨level, moved⟩⟩ := evaluate_cases clean
  · rw [stays]
    exact written p
  · rw [moved] at clean ⊢
    exact setLevel_mayDrop level (written p) (Bool.or_eq_false_iff.mp clean).1

private theorem become_mayDrop (item : Item) {candidate : Draft}
    (clean : (k.become item candidate d dice).report.error = false) :
    (k.become item candidate d dice).draft.MayDrop k.world := by
  obtain ⟨e, -, became⟩ := become_cases clean
  rw [became] at clean ⊢
  exact settled_mayDrop (Bool.or_eq_false_iff.mp clean).1

private theorem setRank_mayDrop (rank : Int) (hd : d.MayDrop k.world)
    (clean : (k.setRank rank d dice).report.error = false) :
    (k.setRank rank d dice).draft.MayDrop k.world := by
  rcases setRank_cases clean with same | ⟨item, dice', became⟩
  · rw [same]
    exact hd
  · rw [became] at clean ⊢
    exact become_mayDrop item clean

private theorem setSlot_mayDrop (slot : EquipmentSlot) (hd : d.MayDrop k.world)
    (clean : (k.setSlot slot d dice).report.error = false) :
    (k.setSlot slot d dice).draft.MayDrop k.world := by
  rcases setSlot_cases clean with same | ⟨item, dice', became⟩
  · rw [same]
    exact hd
  · rw [became] at clean ⊢
    exact become_mayDrop item clean

private theorem rerollRarity_mayDrop (affixes : Bool) (hd : d.MayDrop k.world)
    (clean : (k.rerollRarity affixes d dice).report.error = false) :
    (k.rerollRarity affixes d dice).draft.MayDrop k.world := by
  rcases rerollRarity_cases clean with ⟨dice', same⟩ | ⟨rarity, e, dice', adjusted, -, rolled⟩
  · rw [same]
    exact hd
  · have may : e.MayDrop k.world := Draft.mayDrop_of_adjust rfl adjusted
    rw [rolled]
    cases affixes with
    | false => exact may
    | true =>
      have stripped (as : List AttachedAffix) : Draft.MayDrop k.world { e with affixes := as } :=
        may.weaken ⟨rfl, rfl, rfl, rfl, rfl, rfl⟩ (.refl e.checks)
      exact (stripped _).sameBody (Draft.rollAffixes_sameBody _ _)

end Workshop

namespace Mutation

/-- A mutation without an error keeps a draft droppable. Those that change what restrictions see
settle the draft under its own checks; the others change its affixes, take a check away, or touch
nothing that a restriction reads. -/
theorem apply_mayDrop (k : Workshop) (m : Mutation) (d : Draft) (dice : Dice)
    (hd : d.MayDrop k.world) (clean : (m.apply k d dice).report.error = false) :
    (m.apply k d dice).draft.MayDrop k.world := by
  have unseen {seed : Nat} : Draft.MayDrop k.world { d with seed := seed } :=
    hd.weaken ⟨rfl, rfl, rfl, rfl, rfl, rfl⟩ (.refl d.checks)
  cases m with
  | addAffixes count filter =>
    simp only [apply, Workshop.validated_draft]
    exact hd.sameBody (Draft.addAffixes_sameBody ..)
  | addAffix affix =>
    simp only [apply, Workshop.validated_draft]
    exact hd.sameBody (Draft.addAffix_sameBody ..)
  | noVisuals => exact hd.sameBody (Draft.hideVisuals_sameBody d)
  | clampLevel lo hi => exact Workshop.setLevel_mayDrop _ hd clean
  | cloneAffixes position filter enforce =>
    obtain ⟨s, -, copied⟩ := cloneAffixes_cases clean
    rw [copied, Workshop.validated_draft]
    exact hd.sameBody (Draft.copyAffixes_sameBody ..)
  | cloneBuiltinAffixes position filter enforce =>
    obtain ⟨s, item, -, -, copied⟩ := cloneBuiltinAffixes_cases clean
    rw [copied, Workshop.validated_draft]
    exact hd.sameBody (Draft.copyAffixes_sameBody ..)
  | cloneLevel position =>
    obtain ⟨s, -, moved⟩ := cloneLevel_cases clean
    rw [moved] at clean ⊢
    exact Workshop.setLevel_mayDrop _ hd clean
  | cloneSeed position =>
    obtain ⟨s, -, reseeded⟩ := cloneSeed_cases clean
    rw [reseeded]
    exact unseen
  | dropAffixes filter =>
    simp only [apply, Workshop.validated_draft]
    exact hd.sameBody rfl
  | eval formula => exact Workshop.evaluate_mayDrop formula hd clean
  | binding change => exact Draft.rebind_mayDrop change dice hd
  | level => exact Workshop.setLevel_mayDrop _ hd clean
  | rank rank => exact Workshop.setRank_mayDrop rank hd clean
  | rarity affixes => exact Workshop.rerollRarity_mayDrop affixes hd clean
  | slot slot => exact Workshop.setSlot_mayDrop slot hd clean
  | affixSeed filter =>
    simp only [apply, Workshop.reseed_draft]
    exact hd.sameBody rfl
  | builtinSeed => exact unseen
  | offsetLevel offset => exact Workshop.setLevel_mayDrop _ hd clean
  | replaceAffixes position filter enforce =>
    obtain ⟨s, -, replaced⟩ := replaceAffixes_cases clean
    have dropped : (d.dropAffixes k.catalog filter).2.MayDrop k.world := hd.sameBody rfl
    rw [replaced, Workshop.validated_draft]
    exact dropped.sameBody (Draft.copyAffixes_sameBody ..)

end Mutation

end Spoils
