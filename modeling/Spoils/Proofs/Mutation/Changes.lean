import Mathlib.Logic.Relation
import Spoils.Proofs.Affix.Body
import Spoils.Proofs.Mutation.Steps

/-! Mutations as sequences of single changes of a draft, whether they end in an error or not. -/
namespace Spoils

/-- The levels to which a mutation may move a draft. -/
def Mutation.Asks (k : Workshop) (d : Draft) : Mutation → Int → Prop
  | .clampLevel lo hi, target =>
    target = if hi = 0 then max d.level lo else max lo (min d.level (max hi lo))
  | .cloneLevel _, target => ∃ source ∈ k.granted, source.level = target
  | .eval _, target | .level, target | .offsetLevel _, target =>
    ∃ wanted verbatim, World.itemLevel wanted verbatim = target
  | _, _ => False

/-- A single change of a draft by a mutation. -/
inductive Mutation.Step (k : Workshop) (m : Mutation) (d : Draft) : Draft → Prop where
  | written (affixes : List AttachedAffix) (properties : PropertyStore) (seed : Nat) :
      Step k m d { d with affixes := affixes, properties := properties, seed := seed }
  | adjusted (checks : Checks) : Step k m d (k.world.adjust checks d).2
  | moved {level : Int} (asked : m.Asks k d level) :
      Step k m d { d with level := level, rank := 0 }
  | turned (item rarity : PrototypeId) (rank : Int) (slot : EquipmentSlot) :
      Step k m d { d with item := item, rarity := rarity, rank := rank, slot := slot }
  | rebound {change : BindingChange} (asked : m = .binding change) (dice : Dice) :
      Step k m d (d.rebind change dice).draft

/-- Changes of a draft by a mutation, one after the other. -/
abbrev Mutation.Steps (k : Workshop) (m : Mutation) : Draft → Draft → Prop :=
  Relation.ReflTransGen (m.Step k)

namespace Workshop
variable {k : Workshop} {m : Mutation} {d e : Draft} {dice : Dice}

private theorem steps_of_sameBody (h : d.SameBody e) : m.Steps k d e := by
  rw [h]
  exact .single (.written e.affixes d.properties d.seed)

private theorem validated_steps {c : Change} (h : d.SameBody c.draft) :
    m.Steps k d (k.validated c).draft := by
  rw [validated_draft]
  exact steps_of_sameBody h

private theorem settled_steps (d : Draft) (dice : Dice) : m.Steps k d (k.settled d dice).draft := by
  have adjusted : (k.settled d dice).draft = (k.world.adjust d.checks d).2 := by
    rw [settled]
    split <;> rename_i _ run <;> rw [run]
  rw [adjusted]
  exact .single (.adjusted d.checks)

private theorem setLevel_steps {level : Int} (dice : Dice) (asked : m.Asks k d level) :
    m.Steps k d (k.setLevel level d dice).draft := by
  rcases k.setLevel_cases level d dice with same | moved
  · rw [same]
  · rw [moved]
    exact .head (.moved asked) (settled_steps _ dice)

private theorem evaluate_steps (formula : Formula) (d : Draft) (dice : Dice) :
    (Mutation.eval formula).Steps k d (k.evaluate formula d dice).draft := by
  simp only [evaluate]
  split
  · exact .single (.written d.affixes _ d.seed)
  · split
    · exact .single (.written d.affixes _ d.seed)
    · exact .head (.written d.affixes _ d.seed) (setLevel_steps _ ⟨_, _, rfl⟩)

private theorem become_steps (item : Item) (rank : Int) (slot : EquipmentSlot) (d : Draft)
    (dice : Dice) :
    m.Steps k d (k.become item { d with rank := rank, slot := slot } d dice).draft := by
  rw [become]
  split
  · exact .refl
  · rename_i e adjusted
    have fitted := Mutation.Step.adjusted (k := k) (m := m)
      (d := { d with item := item.id, rank := rank, slot := item.slot }) { level := true }
    rw [adjusted] at fitted
    exact .head (.turned item.id d.rarity rank item.slot) (.head fitted (settled_steps e dice))

private theorem setRank_steps (rank : Int) (d : Draft) (dice : Dice) :
    m.Steps k d (k.setRank rank d dice).draft := by
  simp only [setRank]
  repeat' split
  · exact .refl
  · exact .refl
  · exact .refl
  · exact become_steps _ rank d.slot d _

private theorem setSlot_steps (slot : EquipmentSlot) (d : Draft) (dice : Dice) :
    m.Steps k d (k.setSlot slot d dice).draft := by
  simp only [setSlot]
  repeat' split
  · exact .refl
  · exact .refl
  · exact become_steps _ d.rank slot d _

private theorem rerollRarity_steps (affixes : Bool) (d : Draft) (dice : Dice) :
    m.Steps k d (k.rerollRarity affixes d dice).draft := by
  have turned (rarity : PrototypeId) {ok e}
      (run : k.world.adjust d.checks { d with rarity := rarity } = (ok, e)) : m.Steps k d e := by
    have fitted := Mutation.Step.adjusted (k := k) (m := m) (d := { d with rarity := rarity }) d.checks
    rw [run] at fitted
    exact .head (.turned d.item rarity d.rank d.slot) (.single fitted)
  simp only [rerollRarity]
  repeat' split
  · exact .refl
  · exact .refl
  · exact turned _ ‹_›
  · rename_i e adjusted _
    have stripped : e.SameBody { e with affixes := AttachedAffix.uncounted k.catalog e.affixes } := rfl
    exact (turned _ adjusted).trans
      (steps_of_sameBody (stripped.trans (Draft.rollAffixes_sameBody _ _)))
  · exact turned _ ‹_›

end Workshop

/-- Whatever a mutation does to a draft is a sequence of single changes. -/
theorem Mutation.apply_steps (k : Workshop) (m : Mutation) (d : Draft) (dice : Dice) :
    m.Steps k d (m.apply k d dice).draft := by
  cases m with
  | addAffixes count filter => exact Workshop.validated_steps (Draft.addAffixes_sameBody ..)
  | addAffix affix => exact Workshop.validated_steps (Draft.addAffix_sameBody ..)
  | noVisuals => exact Workshop.steps_of_sameBody (Draft.hideVisuals_sameBody d)
  | clampLevel lo hi => exact Workshop.setLevel_steps dice rfl
  | cloneAffixes source filter enforce =>
    simp only [apply]
    split
    · exact Workshop.validated_steps (Draft.copyAffixes_sameBody ..)
    · exact .refl
  | cloneBuiltinAffixes source filter enforce =>
    simp only [apply]
    repeat' split
    · exact Workshop.validated_steps (Draft.copyAffixes_sameBody ..)
    · exact .refl
    · exact .refl
  | cloneLevel source =>
    simp only [apply]
    split
    · rename_i s found
      rw [Workshop.source?] at found
      split at found
      · cases found
      · exact Workshop.setLevel_steps dice ⟨s, List.mem_of_getElem? found, rfl⟩
    · exact .refl
  | cloneSeed source =>
    simp only [apply]
    split
    · exact .single (.written d.affixes d.properties _)
    · exact .refl
  | dropAffixes filter => exact Workshop.validated_steps rfl
  | eval formula => exact Workshop.evaluate_steps formula d dice
  | binding change => exact .single (.rebound rfl dice)
  | level => exact Workshop.setLevel_steps dice ⟨_, _, rfl⟩
  | rank rank => exact Workshop.setRank_steps rank d dice
  | rarity affixes => exact Workshop.rerollRarity_steps affixes d dice
  | slot slot => exact Workshop.setSlot_steps slot d dice
  | affixSeed filter =>
    simp only [apply, Workshop.reseed_draft]
    exact Workshop.steps_of_sameBody rfl
  | builtinSeed => exact .single (.written d.affixes d.properties _)
  | offsetLevel offset => exact Workshop.setLevel_steps dice ⟨_, _, rfl⟩
  | replaceAffixes source filter enforce =>
    simp only [apply]
    split
    · have dropped : d.SameBody (d.dropAffixes k.catalog filter).2 := rfl
      exact Workshop.validated_steps (dropped.trans (Draft.copyAffixes_sameBody ..))
    · exact .refl

end Spoils
