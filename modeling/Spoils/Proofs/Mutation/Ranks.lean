import Spoils.Proofs.Catalog.Index
import Spoils.Proofs.Mutation.Acceptance
import Spoils.Proofs.Roll.Downgrades
import Spoils.Proofs.Roll.Sound

/-! Ranks: whether a draft settles as the item that was picked for its rank, where items have no
restrictions. -/
namespace Spoils

namespace World
variable {w : World} {checks : Checks} {d : Draft} {item : Item}

/-- A draft of an item without restrictions has to be usable, and in the item's slot. -/
theorem accepts_iff_of_free (found : w.catalog.item? d.item = some item)
    (free : item.restrictions = []) : w.accepts checks d = true ↔ item.isAbstract = false ∧
      (checks.usableBy = true → d.rollFor.isValid = true → item.isUsableBy d.rollFor = true) ∧
      (checks.slot = true → d.slot.isGear = true → item.slot.isGear = true →
        d.slot = item.slot) := by
  rw [accepts, found, Option.any_some, Item.isDroppable_iff, free]
  simp only [inspection, Restriction.allowsAll, and_true]

theorem adjust_of_free (found : w.catalog.item? d.item = some item)
    (free : item.restrictions = []) : w.adjust checks d = (w.accepts checks d, d) := by
  simp only [adjust, accepts, found, Option.any_some, Item.makeDroppable, free,
    Restriction.adjustAll]
  by_cases hidden : item.isAbstract = true
  · simp [hidden, Item.isDroppable]
  · rw [if_neg hidden]
    split <;> rename_i drops <;> simp [drops]

end World

/-- A draft is sound with another item that there is, and with another rank and slot. -/
theorem Draft.fault_turned {c : Catalog} {d : Draft} (sound : d.fault c = .none) {id : PrototypeId}
    (valid : id.isValid = true) (rank : Int) (slot : EquipmentSlot) :
    Draft.fault c { d with item := id, rank := rank, slot := slot } = .none := by
  obtain ⟨registered, apart⟩ := fault_eq_none_iff.mp sound
  have rarity : d.rarity.isValid = true := (Bool.and_eq_true_iff.mp registered.valid).2
  refine fault_eq_none_iff.mpr ⟨⟨?_, registered.known⟩, fun clash => ?_⟩
  · rw [isValid, valid, rarity, Bool.and_self]
  · exact apart ⟨clash.hidden, clash.shown⟩

namespace Workshop
variable {k : Workshop} {d e : Draft} {rank : Int} {item : Item} {dice : Dice}

def rankCandidates (k : Workshop) (d : Draft) : List Item :=
  let parent := k.catalog.parentOf d.item
  if d.slot.isGear then k.catalog.concreteForSlot d.slot d.rollFor
  else if parent.isValid then k.catalog.concreteUnder parent
  else (k.catalog.item? d.item).toList

/-- What is checked of a candidate for another rank. -/
def rankChecks : Checks := { Checks.all with level := false }

private theorem setRank_eq (named : rank ≠ 0) (other : d.rank ≠ rank) : k.setRank rank d dice =
    match k.world.pickItem rankChecks (k.rankCandidates d) { d with rank := rank } d.rollFor dice with
    | (none, dice) => ⟨.failed, d, dice⟩
    | (some item, dice) => k.become item { d with rank := rank } d dice := by
  rw [setRank, if_neg (by simpa using named), if_neg (by simpa using other)]
  rfl

/-- A candidate of an item without restrictions settles exactly if it may drop. -/
theorem become_of_free {candidate : Draft} (found : k.catalog.item? item.id = some item)
    (free : item.restrictions = []) (concrete : item.isAbstract = false)
    (sound : Draft.fault k.catalog { candidate with item := item.id, slot := item.slot } = .none) :
    let e : Draft := { candidate with item := item.id, slot := item.slot }
    k.become item candidate d dice =
      Change.also ⟨if k.world.accepts e.checks e then .none else .failed, e, dice⟩
        { changed := true, itemChange := item.id != d.item } := by
  intro e
  have known : k.world.catalog.item? e.item = some item := found
  have leveled : k.world.accepts { level := true } e = true :=
    (World.accepts_iff_of_free known free).mpr ⟨concrete, nofun, nofun⟩
  rw [become, World.adjust_of_free known free, leveled]
  simp only [settled, World.adjust_of_free known free]
  cases k.world.accepts e.checks e with
  | false => rfl
  | true => simp only [e, sound, if_true]

section
variable (index : Catalog.IsIndex k.catalog.prototypes)
include index

theorem item?_of_mem_rankCandidates (tried : item ∈ k.rankCandidates d) :
    k.catalog.item? item.id = some item := by
  rw [Catalog.item?_eq_some_iff_mem_items index]
  refine ⟨?_, rfl⟩
  simp only [rankCandidates] at tried
  split at tried
  · exact (List.mem_filter.mp tried).1
  split at tried
  · exact (List.mem_filter.mp tried).1
  · exact ((Catalog.item?_eq_some_iff_mem_items index).mp (Option.mem_toList.mp tried)).1

/-- Only relatives of an item without a slot for gear may be of use to other avatars alone. -/
theorem isUsableBy_of_mem_rankCandidates (free : ∀ i ∈ k.catalog.items, i.restrictions = [])
    (may : d.MayDrop k.world) (tried : item ∈ k.rankCandidates d)
    (alone : d.slot.isGear = true ∨ (k.catalog.parentOf d.item).isValid = false)
    (asked : d.checks.usableBy = true) (avatar : d.rollFor.isValid = true) :
    item.isUsableBy d.rollFor = true := by
  simp only [rankCandidates] at tried
  split at tried
  · have passes := (List.mem_filter.mp tried).2
    simp only [avatar, Bool.not_true, Bool.false_or, Bool.and_eq_true] at passes
    exact passes.2
  · rename_i gear
    have orphan := alone.resolve_left gear
    rw [orphan, if_neg Bool.false_ne_true] at tried
    have own := Option.mem_toList.mp tried
    have listed := ((Catalog.item?_eq_some_iff_mem_items index).mp own).1
    exact ((World.accepts_iff_of_free own (free item listed)).mp may).2.1 asked avatar

end

/-- Where items have no restrictions, a sound draft that may drop settles with another rank as
whichever fitting item is picked for it, unless that item is of no use to the avatar that the draft
was rolled for: such an item is tried as if it was rolled for another avatar, but the draft stays
with its own. It is not tried for gear, and not for an item without relatives. -/
theorem setRank_picks {content : Content} (registered : Catalog.ofContent content = .ok k.catalog)
    (free : ∀ item ∈ k.catalog.items, item.restrictions = []) (may : d.MayDrop k.world)
    (sound : d.fault k.catalog = .none) (named : rank ≠ 0) (other : d.rank ≠ rank)
    (fits : Roll.fitting k.world rankChecks (k.rankCandidates d) d.rollFor
      { d with rank := rank } ≠ []) (dice : Dice) :
    ∃ item dice', k.world.pickItem rankChecks (k.rankCandidates d) { d with rank := rank }
        d.rollFor dice = (some item, dice') ∧
      ((k.setRank rank d dice).report.error = true ↔
        d.checks.usableBy = true ∧ d.rollFor.isValid = true ∧ item.isUsableBy d.rollFor = false) ∧
      (d.slot.isGear = true ∨ (k.catalog.parentOf d.item).isValid = false →
        (k.setRank rank d dice).report.error = false) ∧
      ((k.setRank rank d dice).report.error = false → k.setRank rank d dice =
        ⟨{ changed := true, itemChange := item.id != d.item },
          { d with rank := rank, item := item.id, slot := item.slot }, dice'⟩) := by
  have index := Catalog.ofContent_isIndex registered
  rcases Roll.pickItem_cases k.world rankChecks (k.rankCandidates d) d.rollFor
    { d with rank := rank } dice with ⟨nothing, -⟩ | ⟨item, fit, picked⟩
  · exact absurd nothing fits
  rcases drawn : k.world.pickItem rankChecks (k.rankCandidates d) { d with rank := rank } d.rollFor
    dice with ⟨found, dice'⟩
  rw [drawn] at picked
  cases picked
  obtain ⟨tried, passes⟩ := List.mem_filter.mp fit
  have known := item?_of_mem_rankCandidates index tried
  have listed := ((Catalog.item?_eq_some_iff_mem_items index).mp known).1
  have concrete := ((World.accepts_iff_of_free known (free item listed)).mp passes).1
  let e : Draft := { d with rank := rank, item := item.id, slot := item.slot }
  have settles : k.setRank rank d dice =
      Change.also ⟨if k.world.accepts e.checks e then .none else .failed, e, dice'⟩
        { changed := true, itemChange := item.id != d.item } := by
    rw [setRank_eq named other, drawn]
    exact become_of_free known (free item listed) concrete
      (Draft.fault_turned sound (Catalog.isValid_of_item? registered known) rank item.slot)
  have usable : k.world.accepts e.checks e = true ↔
      (d.checks.usableBy = true → d.rollFor.isValid = true → item.isUsableBy d.rollFor = true) := by
    rw [World.accepts_iff_of_free known (free item listed)]
    exact ⟨fun h => h.2.1, fun h => ⟨concrete, h, fun _ _ _ => rfl⟩⟩
  refine ⟨item, dice', rfl, ?_, ?_, ?_⟩
  · have refused : k.world.accepts e.checks e = false ↔
        d.checks.usableBy = true ∧ d.rollFor.isValid = true ∧ item.isUsableBy d.rollFor = false := by
      rw [← Bool.not_eq_true, usable]
      simp only [Classical.not_imp, Bool.not_eq_true]
    rw [settles, ← refused]
    cases k.world.accepts e.checks e with
    | false => exact iff_of_true rfl rfl
    | true => exact iff_of_false Bool.false_ne_true Bool.true_eq_false.mp
  · intro alone
    rw [settles, usable.mpr (isUsableBy_of_mem_rankCandidates index free may tried alone)]
    rfl
  · intro clean
    rw [settles] at clean ⊢
    cases accepted : k.world.accepts e.checks e with
    | false =>
      rw [accepted] at clean
      cases clean
    | true => rfl

/-- Two relatives fit, one of them for another avatar only; the other one is picked. -/
theorem setRank_picks_usable :
    let content : Content := {
      rarities := [{ id := ⟨10⟩ }]
      items := [{ id := ⟨100⟩, parent := ⟨90⟩ },
        { id := ⟨101⟩, parent := ⟨90⟩, usableBy := [⟨301⟩] }]
      prototypes := [{ id := ⟨90⟩, kind := .other }] }
    let d : Draft := { item := ⟨100⟩, rarity := ⟨10⟩, level := 1, rollFor := ⟨300⟩ }
    ∃ c, Catalog.ofContent content = .ok c ∧
      let k : Workshop := ⟨{ catalog := c }, [], {}⟩
      (Roll.fitting k.world rankChecks (k.rankCandidates d) ⟨300⟩ { d with rank := 3 }).map (·.id) =
          [⟨100⟩, ⟨101⟩] ∧
        ∃ dice, k.setRank 3 d (.ofSeed 2) = ⟨{ changed := true }, { d with rank := 3 }, dice⟩ := by
  intro content d
  have registered : Catalog.ofContent content = .ok _ := rfl
  refine ⟨_, registered, ?_⟩
  intro k
  have fits : (Roll.fitting k.world rankChecks (k.rankCandidates d) ⟨300⟩ { d with rank := 3 }).map
      (·.id) = [⟨100⟩, ⟨101⟩] := by decide +kernel
  have may : d.MayDrop k.world := by
    unfold Draft.MayDrop
    decide
  have some_fit : Roll.fitting k.world rankChecks (k.rankCandidates d) ⟨300⟩ { d with rank := 3 } ≠
      [] := by
    intro none
    rw [none] at fits
    cases fits
  obtain ⟨item, dice, drawn, -, -, settles⟩ := setRank_picks (k := k) (d := d) registered
    (by decide) may (by decide) (by decide) (by decide) some_fit (.ofSeed 2)
  have picked : (item.id, item.slot) = (⟨100⟩, .invalid) := by
    have seen := congrArg (fun picked => picked.1.map fun i => (i.id, i.slot)) drawn
    exact Option.some.inj (seen.symm.trans (by decide +kernel))
  obtain ⟨id_eq, slot_eq⟩ := Prod.mk.inj picked
  have settled := settles (by decide +kernel)
  rw [id_eq, slot_eq] at settled
  exact ⟨fits, dice, settled⟩

/-- The same draft fails with other dice, which pick the relative for another avatar. -/
theorem setRank_picks_unusable :
    let content : Content := {
      rarities := [{ id := ⟨10⟩ }]
      items := [{ id := ⟨100⟩, parent := ⟨90⟩ },
        { id := ⟨101⟩, parent := ⟨90⟩, usableBy := [⟨301⟩] }]
      prototypes := [{ id := ⟨90⟩, kind := .other }] }
    let d : Draft := { item := ⟨100⟩, rarity := ⟨10⟩, level := 1, rollFor := ⟨300⟩ }
    ∃ c, Catalog.ofContent content = .ok c ∧ (∀ item ∈ c.items, item.restrictions = []) ∧
      let k : Workshop := ⟨{ catalog := c }, [], {}⟩
      d.MayDrop k.world ∧ d.fault c = .none ∧
        (Roll.fitting k.world rankChecks (k.rankCandidates d) ⟨300⟩ { d with rank := 3 }).map
          (·.id) = [⟨100⟩, ⟨101⟩] ∧
        (k.setRank 3 d (.ofSeed 1)).report.error = true := by
  refine ⟨_, rfl, by decide, ?_, by decide, by decide +kernel, by decide +kernel⟩
  unfold Draft.MayDrop
  decide

end Workshop

end Spoils
