import Spoils.Proofs.Affix.Adding
import Spoils.Proofs.Mutation.Steps

/-! What is on a draft after affixes were added to it, and how many of them its limits allow. -/
namespace Spoils

namespace Mutation
variable {k : Workshop} {count : Int} {f : AffixFilter} {d : Draft} {dice : Dice}

/-- A draft to which affixes were added without an error keeps its own, and has at most so many
new ones behind them; fewer only if draws overwrite or all that may be added is there. Where its
item has limits, these hold at the position that was asked for, or in all categories if there was
no position. -/
theorem apply_adds {content : Content} (registered : Catalog.ofContent content = .ok k.catalog)
    (few : (d.affixes.length : Int) < 32768 - count)
    (clean : ((addAffixes count f).apply k d dice).report.error = false) :
    Draft.Gathers k.catalog count f d ((addAffixes count f).apply k d dice).draft ∧
      ∀ l, d.limits? k.catalog k.world.occasion = some l →
        (f.position ≠ .none →
          (((addAffixes count f).apply k d dice).draft.numberAt k.catalog f.position : Int) ≤
            l.maxCount f.position (some k.settings)) ∧
        (f.position = .none → ∀ category ∈ f.categories,
          (((addAffixes count f).apply k d dice).draft.numberIn k.catalog category : Int) ≤
            l.categoryMax category (some k.settings)) := by
  simp only [apply] at clean ⊢
  rw [Workshop.validated_report clean] at clean
  rw [Workshop.validated_draft]
  obtain ⟨positive, gathers, room⟩ :=
    Draft.addAffixes_gathers (Catalog.ofContent_isIndex registered) clean
  -- So few affixes are counted as they are, and no sum is clamped.
  have within {q : Affix → Bool} {most : Int}
      (free : Bounds.int16.clamp (d.countAffixes k.catalog q + count) ≤ most) :
      ((d.addAffixes k.catalog k.world.occasion k.settings count f dice).draft.numberOf k.catalog
        q : Int) ≤ most := by
    have before := Draft.numberOf_le_length k.catalog d q
    have after := gathers.adds.numberOf_le q
    rw [Draft.countAffixes_eq (by omega), Bounds.clamp_eq_self (by simp only [Bounds.int16]; omega)]
      at free
    omega
  refine ⟨gathers, fun l limited => ⟨fun placed => ?_, fun anywhere category listed => ?_⟩⟩
  · rw [Draft.numberAt_eq]
    exact within ((room l limited).1 placed)
  · exact within ((room l limited).2 anywhere category listed)

/-- One of two prefixes is there and stays, the other one comes with its scope. -/
theorem apply_adds_prefix :
    let l : AffixLimits := { rarity := ⟨10⟩, prefixes := ⟨0, 3⟩ }
    let content : Content := {
      rarities := [{ id := ⟨10⟩ }]
      affixes := [{ id := ⟨1⟩, position := .prefixed, duplicates := .overwrite },
        { id := ⟨2⟩, position := .prefixed, scopes := [⟨80⟩] }]
      items := [{ id := ⟨100⟩, affixLimits := [l] }] }
    let d : Draft := {
      item := ⟨100⟩, rarity := ⟨10⟩, level := 1, affixes := [{ affix := ⟨1⟩, seed := 4 }] }
    let f : AffixFilter := { position := .prefixed }
    let m : Mutation := .addAffixes 2 f
    ∃ k : Workshop, Catalog.ofContent content = .ok k.catalog ∧
      (m.apply k d (.ofSeed 1)).draft.affixKeys = [(⟨1⟩, .none), (⟨2⟩, ⟨80⟩)] ∧
      Draft.Gathers k.catalog 2 f d (m.apply k d (.ofSeed 1)).draft ∧
      ((m.apply k d (.ofSeed 1)).draft.numberAt k.catalog .prefixed : Int) ≤
        l.maxCount .prefixed (some k.settings) := by
  intro l content d f m
  have gathered {k : Workshop} (registered : Catalog.ofContent content = .ok k.catalog)
      (limited : d.limits? k.catalog k.world.occasion = some l)
      (clean : (m.apply k d (.ofSeed 1)).report.error = false) :
      Draft.Gathers k.catalog 2 f d (m.apply k d (.ofSeed 1)).draft ∧
        ((m.apply k d (.ofSeed 1)).draft.numberAt k.catalog .prefixed : Int) ≤
          l.maxCount .prefixed (some k.settings) := by
    obtain ⟨gathers, within⟩ := apply_adds registered (by decide) clean
    exact ⟨gathers, (within l limited).1 nofun⟩
  have registered : Catalog.ofContent content = .ok _ := rfl
  refine ⟨{ world := { catalog := _ }, granted := [], settings := {} }, registered, ?put,
    gathered registered ?limited ?clean⟩
  case put => decide +kernel
  case limited => decide
  case clean => decide +kernel

end Mutation

end Spoils
