import Spoils.Proofs.Affix.Copying
import Spoils.Proofs.Mutation.Affixes

/-! What is on a draft after affixes were copied from another item, beside those that it had or in
their place. -/
namespace Spoils

namespace Mutation
variable {k : Workshop} {m : Mutation} {f : AffixFilter} {enforce : Bool} {d : Draft} {dice : Dice}
  {position : Int}

/-- A draft that copies affixes without an error keeps its own, in a replacement those alone that
the filter or metadata spares, and receives the affixes of the source. -/
theorem apply_receives
    (copies : m = .cloneAffixes position f enforce ∨ m = .replaceAffixes position f enforce)
    (clean : (m.apply k d dice).report.error = false) :
    ∃ source, k.source? position = some source ∧
      Draft.Receives k.catalog k.world.occasion f enforce source.affixes
        { d with affixes := d.affixes.filter fun x => m.spares k.catalog x.affix }
        (m.apply k d dice).draft := by
  rcases copies with rfl | rfl
  · simp only [apply] at clean ⊢
    split at clean
    · rename_i source found
      simp only [found]
      have all : (d.affixes.filter fun x =>
          (cloneAffixes position f enforce).spares k.catalog x.affix) = d.affixes :=
        List.filter_eq_self.mpr fun _ _ => rfl
      refine ⟨source, rfl, ?_⟩
      rw [all, Workshop.validated_draft]
      rw [Workshop.validated_report clean] at clean
      exact Draft.copyAffixes_receives clean
    · cases clean
  · simp only [apply] at clean ⊢
    split at clean
    · rename_i source found
      simp only [found]
      refine ⟨source, rfl, ?_⟩
      rw [Workshop.validated_draft]
      rw [Workshop.validated_report clean] at clean
      exact Draft.copyAffixes_receives (Bool.or_eq_false_iff.mp clean).1
    · cases clean

/-- A prefix is replaced and a suffix comes beside it. The metadata stays, and so the metadata of
the source is passed over. -/
theorem apply_receives_replaced :
    let l : AffixLimits := {
      rarity := ⟨10⟩, prefixes := ⟨0, 1⟩, suffixes := ⟨0, 1⟩, categories := [⟨⟨70⟩, 1⟩] }
    let content : Content := {
      rarities := [{ id := ⟨10⟩ }]
      affixes := [{ id := ⟨1⟩, position := .prefixed },
        { id := ⟨2⟩, position := .suffixed, categories := [⟨70⟩] },
        { id := ⟨3⟩, position := .metadata, duplicates := .ignore }]
      items := [{ id := ⟨100⟩, affixLimits := [l] }] }
    let carries (affixes : List AttachedAffix) : Draft := {
      item := ⟨100⟩, rarity := ⟨10⟩, level := 1, affixes := affixes }
    let d := carries [{ affix := ⟨3⟩ }, { affix := ⟨1⟩, seed := 4 }]
    let source := carries [{ affix := ⟨1⟩, seed := 5 }, { affix := ⟨2⟩, seed := 6 },
      { affix := ⟨3⟩, seed := 7 }]
    let m : Mutation := .replaceAffixes 0 {} true
    ∃ k : Workshop, Catalog.ofContent content = .ok k.catalog ∧
      (m.apply k d (.ofSeed 1)).draft =
        carries [{ affix := ⟨3⟩ }, { affix := ⟨1⟩, seed := 5 }, { affix := ⟨2⟩, seed := 6 }] ∧
      Draft.Receives k.catalog k.world.occasion {} true source.affixes
        (carries [{ affix := ⟨3⟩ }]) (m.apply k d (.ofSeed 1)).draft := by
  intro l content carries d source m
  have receives {k : Workshop} (found : k.source? 0 = some source)
      (stays : (d.affixes.filter fun x => m.spares k.catalog x.affix) = [{ affix := ⟨3⟩ }])
      (clean : (m.apply k d (.ofSeed 1)).report.error = false) :
      Draft.Receives k.catalog k.world.occasion {} true source.affixes
        (carries [{ affix := ⟨3⟩ }]) (m.apply k d (.ofSeed 1)).draft := by
    obtain ⟨copied, known, receives⟩ := apply_receives (.inr rfl) clean
    rw [found, Option.some.injEq] at known
    rwa [← known, stays] at receives
  refine ⟨{ world := { catalog := _ }, granted := [source], settings := {} }, rfl, ?put,
    receives rfl ?stays ?clean⟩
  case put => decide +kernel
  case stays => decide +kernel
  case clean => decide +kernel

end Mutation

end Spoils
