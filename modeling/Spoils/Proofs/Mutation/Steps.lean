import Spoils.Mutation.Apply
import Spoils.Proofs.Item.Droppable

/-! What the steps of mutations can do: every way in which they end without an error. -/
namespace Spoils

theorem Draft.fault_clean {c : Catalog} {d : Draft} (clean : (d.fault c).error = false) :
    d.fault c = .none := by
  rw [fault] at clean ⊢
  split at clean
  · cases clean
  · rw [if_neg ‹_›]
    split at clean
    · cases clean
    · rw [if_neg ‹_›]

namespace Workshop
variable {k : Workshop} {d : Draft} {dice : Dice}

theorem validated_draft (k : Workshop) (c : Change) : (k.validated c).draft = c.draft := by
  rw [validated]
  split <;> rfl

theorem validated_sound {c : Change} (clean : (k.validated c).report.error = false) :
    c.draft.fault k.catalog = .none := by
  rw [validated] at clean
  split at clean
  · rename_i failed
    cases clean.symm.trans failed
  · exact Draft.fault_clean (Bool.or_eq_false_iff.mp clean).2

theorem validated_report {c : Change} (clean : (k.validated c).report.error = false) :
    (k.validated c).report = c.report := by
  have sound := validated_sound clean
  rw [validated]
  split
  · rfl
  · rw [Change.also, sound, MutationReport.union_none]

/-- A draft that settles was adjusted by its own checks and is sound. -/
theorem settled_cases (clean : (k.settled d dice).report.error = false) :
    ∃ e, k.world.adjust d.checks d = (true, e) ∧ e.fault k.catalog = .none ∧
      k.settled d dice = ⟨.none, e, dice⟩ := by
  rw [settled] at clean ⊢
  split at clean
  · cases clean
  · rename_i e adjusted
    have sound := Draft.fault_clean clean
    exact ⟨e, adjusted, sound, by rw [sound]⟩

theorem setLevel_cases (k : Workshop) (level : Int) (d : Draft) (dice : Dice) :
    k.setLevel level d dice = ⟨.none, d, dice⟩ ∨
      k.setLevel level d dice =
        (k.settled { d with level := level, rank := 0 } dice).also { changed := true } := by
  rw [setLevel]
  split
  · exact .inl rfl
  · exact .inr rfl

theorem evaluate_cases {formula : Formula}
    (clean : (k.evaluate formula d dice).report.error = false) :
    ∃ p dice', k.evaluate formula d dice =
        ⟨{ evalChange := true }, { d with properties := p }, dice'⟩ ∨
      ∃ level, k.evaluate formula d dice =
        (k.setLevel level { d with properties := p } dice').also { evalChange := true } := by
  simp only [evaluate] at clean ⊢
  split at clean
  · cases clean
  · rw [if_neg ‹_›]
    split
    · exact ⟨_, _, .inl rfl⟩
    · exact ⟨_, _, .inr ⟨_, rfl⟩⟩

theorem become_cases {item : Item} {candidate : Draft}
    (clean : (k.become item candidate d dice).report.error = false) :
    ∃ e, k.world.adjust { level := true } { candidate with item := item.id, slot := item.slot } =
        (true, e) ∧
      k.become item candidate d dice =
        (k.settled e dice).also { changed := true, itemChange := item.id != d.item } := by
  rw [become] at clean ⊢
  split at clean
  · cases clean
  · rename_i e adjusted
    exact ⟨e, adjusted, rfl⟩

theorem setRank_cases {rank : Int} (clean : (k.setRank rank d dice).report.error = false) :
    k.setRank rank d dice = ⟨.none, d, dice⟩ ∨
      ∃ item dice', k.setRank rank d dice = k.become item { d with rank := rank } d dice' := by
  simp only [setRank] at clean ⊢
  split at clean
  · cases clean
  · rw [if_neg ‹_›]
    split at clean
    · rw [if_pos ‹_›]
      exact .inl rfl
    · rw [if_neg ‹_›]
      split at clean
      · cases clean
      · exact .inr ⟨_, _, rfl⟩

theorem setSlot_cases {slot : EquipmentSlot}
    (clean : (k.setSlot slot d dice).report.error = false) :
    k.setSlot slot d dice = ⟨.none, d, dice⟩ ∨
      ∃ item dice', k.setSlot slot d dice = k.become item { d with slot := slot } d dice' := by
  simp only [setSlot] at clean ⊢
  split at clean
  · rw [if_pos ‹_›]
    exact .inl rfl
  · rw [if_neg ‹_›]
    split at clean
    · cases clean
    · exact .inr ⟨_, _, rfl⟩

/-- A draft that gets another rarity is adjusted by its own checks. It keeps its affixes and is
sound, or rolls the counted ones again. -/
theorem rerollRarity_cases {affixes : Bool}
    (clean : (k.rerollRarity affixes d dice).report.error = false) :
    (∃ dice', k.rerollRarity affixes d dice = ⟨.none, d, dice'⟩) ∨
      ∃ rarity e dice', k.world.adjust d.checks { d with rarity := rarity } = (true, e) ∧
        (affixes = false → e.fault k.catalog = .none) ∧
        k.rerollRarity affixes d dice = if affixes then
          (Draft.rollAffixes k.catalog k.world.occasion (some k.settings) { e with
            affixes := AttachedAffix.uncounted k.catalog e.affixes } dice').also { changed := true }
        else ⟨{ changed := true }, e, dice'⟩ := by
  simp only [rerollRarity] at clean ⊢
  split at clean
  · cases clean
  · rw [if_neg ‹_›]
    split at clean
    · rw [if_pos ‹_›]
      exact .inl ⟨_, rfl⟩
    · rw [if_neg ‹_›]
      split at clean
      · cases clean
      · rename_i e adjusted
        refine .inr ⟨_, e, (k.world.rollRarity k.settings.rarities d.level
          (k.catalog.item? d.item) dice).2, adjusted, ?_⟩
        cases affixes with
        | true => exact ⟨Bool.noConfusion, rfl⟩
        | false =>
          have sound : e.fault k.catalog = .none :=
            Draft.fault_clean (Bool.or_eq_false_iff.mp clean).1
          refine ⟨fun _ => sound, ?_⟩
          simp only [Bool.false_eq_true, if_false, sound]
          rfl

theorem reseed_draft (k : Workshop) (f : AffixFilter) (d : Draft) (dice : Dice) :
    (k.reseed f d dice).draft = { d with affixes := (k.reseedEach f d.affixes dice).2.1 } := by
  simp only [reseed]
  split <;> rfl

end Workshop

/-! Mutations that read a granted item find it, if they end without an error. -/
namespace Mutation
variable {k : Workshop} {d : Draft} {dice : Dice} {position : Int} {f : AffixFilter}
  {enforce : Bool}

/-- What fails without the granted item has found it, if it ends without an error. -/
theorem source_of_clean {c : Change} {make : Draft → Change}
    (reads : c = match k.source? position with
      | some s => make s
      | none => ⟨.failed, d, dice⟩)
    (clean : c.report.error = false) : ∃ s, k.source? position = some s ∧ c = make s := by
  split at reads
  · exact ⟨_, ‹_›, reads⟩
  · cases reads
    cases clean

theorem cloneAffixes_cases
    (clean : (apply k (.cloneAffixes position f enforce) d dice).report.error = false) :
    ∃ s, k.source? position = some s ∧ apply k (.cloneAffixes position f enforce) d dice =
      k.validated (k.copy s.affixes f enforce d dice) :=
  source_of_clean rfl clean

theorem cloneBuiltinAffixes_cases
    (clean : (apply k (.cloneBuiltinAffixes position f enforce) d dice).report.error = false) :
    ∃ s item, k.source? position = some s ∧ k.catalog.item? s.item = some item ∧
      apply k (.cloneBuiltinAffixes position f enforce) d dice =
        k.validated (k.copy (k.builtins item) f enforce d dice) := by
  obtain ⟨s, granted, run⟩ :=
    source_of_clean (c := apply k (.cloneBuiltinAffixes position f enforce) d dice) rfl clean
  rw [run] at clean ⊢
  split at clean
  · exact ⟨s, _, granted, ‹_›, rfl⟩
  · cases clean

theorem replaceAffixes_cases
    (clean : (apply k (.replaceAffixes position f enforce) d dice).report.error = false) :
    ∃ s, k.source? position = some s ∧ apply k (.replaceAffixes position f enforce) d dice =
      k.validated ((k.copy s.affixes f enforce (d.dropAffixes k.catalog f).2 dice).also
        (d.dropAffixes k.catalog f).1) :=
  source_of_clean rfl clean

theorem cloneLevel_cases
    (clean : (apply k (.cloneLevel position) d dice).report.error = false) :
    ∃ s, k.source? position = some s ∧
      apply k (.cloneLevel position) d dice = k.setLevel s.level d dice :=
  source_of_clean rfl clean

theorem cloneSeed_cases
    (clean : (apply k (.cloneSeed position) d dice).report.error = false) :
    ∃ s, k.source? position = some s ∧ apply k (.cloneSeed position) d dice =
      ⟨{ changed := true }, { d with seed := s.seed }, dice⟩ :=
  source_of_clean rfl clean

end Mutation

end Spoils
