import Spoils.Proofs.Mutation.Affixes
import Spoils.Proofs.Roll.Granted

/-! Whether the affixes of granted items are sound: all of them are registered, and a visual one
does not stand beside the one that hides visuals as long as rolling cannot put both on. -/
namespace Spoils

namespace Catalog

/-- The affix that hides visuals, if there is one, is registered and not a visual one. -/
def CanHide (c : Catalog) : Prop :=
  c.noVisualsAffix.isValid = true →
    ∃ a, c.affix? c.noVisualsAffix = some a ∧ a.position ≠ .visual

/-- Limits that may roll a visual affix do not roll the one that hides visuals, which goes before
counted affixes are rolled again. -/
def RollsApart (c : Catalog) : Prop :=
  ∀ i ∈ c.items, ∀ l ∈ i.affixLimits, ∀ a ∈ c.affixes, a.position = .visual →
    l.mayRoll c i.id a = true →
      c.isUncounted c.noVisualsAffix = false ∧
        ∀ b ∈ c.affixes, b.id = c.noVisualsAffix → l.mayRoll c i.id b = false

end Catalog

namespace Draft
variable {c : Catalog} {d e : Draft}

/-- The draft is valid and its affixes are registered. -/
structure IsRegistered (c : Catalog) (d : Draft) : Prop where
  valid : d.isValid = true
  known : ∀ id ∈ d.affixIds, (c.affix? id).isSome = true

/-- A visual affix stands beside the one that hides visuals. -/
structure Clashes (c : Catalog) (d : Draft) : Prop where
  hidden : c.noVisualsAffix.isValid = true ∧ c.noVisualsAffix ∈ d.affixIds
  shown : ∃ id ∈ d.affixIds, c.isVisual id = true

private theorem hasSoundAffixes_iff : d.hasSoundAffixes c = true ↔
    (∀ id ∈ d.affixIds, (c.affix? id).isSome = true) ∧ ¬ d.Clashes c := by
  have visual : d.affixes.any (fun a => (c.affix? a.affix).any fun p => p.position == .visual) =
      d.affixIds.any c.isVisual := by
    rw [affixIds, List.any_map]
    rfl
  have hider : d.affixes.any (fun a => a.affix == c.noVisualsAffix) =
      d.affixIds.any (· == c.noVisualsAffix) := by
    rw [affixIds, List.any_map]
    rfl
  have known : d.affixes.all (fun a => (c.affix? a.affix).isSome) =
      d.affixIds.all (fun id => (c.affix? id).isSome) := by
    rw [affixIds, List.all_map]
    rfl
  have clashes : d.Clashes c ↔ (d.affixIds.any c.isVisual && c.noVisualsAffix.isValid &&
      d.affixIds.any (· == c.noVisualsAffix)) = true := by
    simp only [Bool.and_eq_true, List.any_eq_true, beq_iff_eq, exists_eq_right]
    exact ⟨fun h => ⟨⟨h.shown, h.hidden.1⟩, h.hidden.2⟩, fun h => ⟨⟨h.1.2, h.2⟩, h.1.1⟩⟩
  rw [clashes, hasSoundAffixes, visual, hider, known, Bool.and_eq_true, List.all_eq_true,
    Bool.not_eq_true', Bool.not_eq_true]

/-- A draft without a fault is registered and does not clash. -/
theorem fault_eq_none_iff : d.fault c = .none ↔ d.IsRegistered c ∧ ¬ d.Clashes c := by
  have whole : d.IsRegistered c ∧ ¬ d.Clashes c ↔
      d.isValid = true ∧ d.hasSoundAffixes c = true := by
    rw [hasSoundAffixes_iff, ← and_assoc]
    exact and_congr_left fun _ => ⟨fun h => ⟨h.valid, h.known⟩, fun h => ⟨h.1, h.2⟩⟩
  rw [whole, fault]
  cases d.isValid <;> cases d.hasSoundAffixes c <;> simp [MutationReport.failed,
    MutationReport.badAffix, MutationReport.none]

theorem mem_affixIds {id : PrototypeId} : id ∈ d.affixIds ↔ ∃ key ∈ d.affixKeys, key.1 = id := by
  rw [affixIds_eq, List.mem_map]

namespace IsRegistered

theorem gaining (h : d.IsRegistered c) (item : e.item = d.item) (rarity : e.rarity = d.rarity)
    (gained : ∀ id ∈ e.affixIds, id ∈ d.affixIds ∨ (c.affix? id).isSome = true) :
    e.IsRegistered c := by
  refine ⟨?_, fun id carried => (gained id carried).elim (h.known id) fun known => known⟩
  rw [isValid, item, rarity]
  exact h.valid

theorem rollAffixes (index : Catalog.IsIndex c.prototypes) {occasion : Occasion}
    {s : Option BranchSettings} {dice : Dice} (h : d.IsRegistered c) :
    (d.rollAffixes c occasion s dice).draft.IsRegistered c := by
  have body : d.SameBody (d.rollAffixes c occasion s dice).draft := rollAffixes_sameBody d dice
  refine h.gaining body.item_eq body.rarity_eq fun id carried => ?_
  rcases rollAffixes_collects index occasion s d dice with same | ⟨-, l, -, collects⟩
  · rw [same] at carried
    exact .inl carried
  · obtain ⟨key, stands, rfl⟩ := mem_affixIds.mp carried
    rcases collects.mem stands with before | ⟨a, known, -⟩
    · exact .inl (mem_affixIds.mpr ⟨key, before, rfl⟩)
    · exact .inr (Option.isSome_of_mem known)

theorem hideVisuals (hides : c.CanHide) (h : d.IsRegistered c) :
    (d.hideVisuals c).2.IsRegistered c := by
  have body : d.SameBody (d.hideVisuals c).2 := hideVisuals_sameBody d
  refine h.gaining body.item_eq body.rarity_eq fun id carried => ?_
  rcases hideVisuals_keys c d with same | ⟨valid, -, keys⟩
  · rw [same] at carried
    exact .inl carried
  · obtain ⟨a, known, -⟩ := hides valid
    obtain ⟨key, stands, rfl⟩ := mem_affixIds.mp carried
    rw [keys] at stands
    rcases List.mem_append.mp stands with before | new
    · exact .inl (mem_affixIds.mpr ⟨key, (List.mem_filter.mp before).1, rfl⟩)
    · rw [List.mem_singleton.mp new]
      exact .inr (Option.isSome_of_mem known)

end IsRegistered

private theorem Clashes.of_keys (h : e.Clashes c) (keys : e.affixKeys = d.affixKeys) :
    d.Clashes c := by
  have ids : e.affixIds = d.affixIds := by rw [affixIds_eq, keys, affixIds_eq]
  exact ⟨ids ▸ h.hidden, ids ▸ h.shown⟩

/-- Where visuals are hidden they go. -/
theorem hideVisuals_apart (hides : c.CanHide) (apart : ¬ d.Clashes c) :
    ¬ (d.hideVisuals c).2.Clashes c := by
  rintro ⟨⟨valid, hidden⟩, id, carried, visual⟩
  rcases hideVisuals_keys c d with same | ⟨-, -, keys⟩
  · rw [same] at hidden carried
    exact apart ⟨⟨valid, hidden⟩, id, carried, visual⟩
  · obtain ⟨a, known, other⟩ := hides valid
    obtain ⟨key, stands, rfl⟩ := mem_affixIds.mp carried
    rw [keys] at stands
    rcases List.mem_append.mp stands with kept | new
    · have unseen := (List.mem_filter.mp kept).2
      rw [visual] at unseen
      cases unseen
    · rw [List.mem_singleton.mp new, Catalog.isVisual, known] at visual
      exact other (eq_of_beq visual)

private theorem not_isVisual_of_isUncounted {id : PrototypeId} (h : c.isUncounted id = true) :
    c.isVisual id = false := by
  rw [Catalog.isUncounted] at h
  rw [Catalog.isVisual]
  cases found : c.affix? id with
  | none => rfl
  | some a =>
    rw [found, Option.all_some] at h
    refine Bool.eq_false_iff.mpr fun visual => ?_
    rw [Option.any_some, beq_iff_eq] at visual
    rw [visual] at h
    cases h

/-- What is rolled for a draft without counted affixes does not clash. -/
theorem rollAffixes_apart (index : Catalog.IsIndex c.prototypes) (separate : c.RollsApart)
    (uncounted : ∀ id ∈ d.affixIds, c.isUncounted id = true) (occasion : Occasion)
    (s : Option BranchSettings) (dice : Dice) :
    ¬ (d.rollAffixes c occasion s dice).draft.Clashes c := by
  rintro ⟨⟨valid, hidden⟩, id, carried, visual⟩
  have unseen (before : id ∈ d.affixIds) : False :=
    Bool.noConfusion ((not_isVisual_of_isUncounted (uncounted id before)).symm.trans visual)
  rcases rollAffixes_collects index occasion s d dice with same | ⟨-, l, limited, collects⟩
  · rw [same] at carried
    exact unseen carried
  · -- Whatever is carried was there before, or the limits may roll it.
    have came {id : PrototypeId} (carried : id ∈ (d.rollAffixes c occasion s dice).draft.affixIds) :
        id ∈ d.affixIds ∨ ∃ a, c.affix? id = some a ∧ l.mayRoll c d.item a = true := by
      obtain ⟨key, stands, rfl⟩ := mem_affixIds.mp carried
      exact (collects.mem stands).imp_left fun before => mem_affixIds.mpr ⟨key, before, rfl⟩
    obtain ⟨item, found, applies⟩ := Option.bind_eq_some_iff.mp limited
    obtain ⟨listed, named⟩ := (Catalog.item?_eq_some_iff_mem_items index).mp found
    have own : l ∈ item.affixLimits := List.mem_of_find?_eq_some applies
    rcases came carried with before | ⟨a, known, rolls⟩
    · exact unseen before
    · rw [Catalog.isVisual, known] at visual
      rw [← named] at rolls
      obtain ⟨counted, never⟩ :=
        separate item listed l own a (Catalog.mem_affixes known) (eq_of_beq visual) rolls
      rcases came hidden with before | ⟨b, registered, hides⟩
      · exact Bool.noConfusion (counted.symm.trans (uncounted _ before))
      · have refused :=
          never b (Catalog.mem_affixes registered) (Catalog.id_of_affix? index registered)
        rw [named, hides] at refused
        cases refused

end Draft

namespace Mutation.Alters
variable {k : Workshop} {m : Mutation} {d : Draft} {x : Change}

theorem registered (h : m.Alters k d x) (index : Catalog.IsIndex k.catalog.prototypes)
    (hides : k.catalog.CanHide) (before : d.IsRegistered k.catalog) :
    x.draft.IsRegistered k.catalog := by
  cases h with
  | ignored keys item rarity =>
    refine before.gaining item rarity fun id carried => .inl ?_
    rwa [Draft.affixIds_eq, keys, ← Draft.affixIds_eq] at carried
  | settled _ _ sound => exact (Draft.fault_eq_none_iff.mp sound).1
  | gathered _ _ sound => exact (Draft.fault_eq_none_iff.mp sound).1
  | hidden _ draft =>
    rw [draft]
    exact before.hideVisuals hides
  | rerolled e dice _ _ _ sound draft =>
    rw [draft]
    exact (Draft.fault_eq_none_iff.mp sound).1.rollAffixes index

/-- Affixes that are rolled again are not looked at afterwards, but they do not clash if the limits
keep them apart. -/
theorem sound (h : m.Alters k d x) (index : Catalog.IsIndex k.catalog.prototypes)
    (hides : k.catalog.CanHide) (separate : k.catalog.RollsApart)
    (before : d.fault k.catalog = .none) : x.draft.fault k.catalog = .none := by
  obtain ⟨known, apart⟩ := Draft.fault_eq_none_iff.mp before
  refine Draft.fault_eq_none_iff.mpr ⟨h.registered index hides known, ?_⟩
  cases h with
  | ignored keys => exact fun clash => apart (clash.of_keys keys)
  | settled _ _ sound => exact (Draft.fault_eq_none_iff.mp sound).2
  | gathered _ _ sound => exact (Draft.fault_eq_none_iff.mp sound).2
  | hidden _ draft =>
    rw [draft]
    exact Draft.hideVisuals_apart hides apart
  | rerolled e dice rolls keys _ _ draft =>
    rw [draft]
    refine Draft.rollAffixes_apart index separate (fun id carried => ?_) _ _ dice
    obtain ⟨key, stands, rfl⟩ := Draft.mem_affixIds.mp carried
    rw [keys] at stands
    have spared := (List.mem_filter.mp stands).2
    rwa [rolls] at spared

end Mutation.Alters

namespace World
variable {w : World}

theorem isRegistered_of_isNew {content : Content}
    (registered : Catalog.ofContent content = .ok w.catalog) {d : Draft} {checks : Checks}
    (new : d.IsNew) (fits : w.accepts checks d = true) : d.IsRegistered w.catalog := by
  simp only [accepts, Option.any_eq_true] at fits
  obtain ⟨item, found, -⟩ := fits
  refine ⟨?_, fun id carried => ?_⟩
  · rw [Draft.isValid, Catalog.isValid_of_item? registered found, new.rarity]
    rfl
  · rw [Draft.affixIds, new.affixes] at carried
    cases carried

section
variable {content : Content} (registered : Catalog.ofContent content = .ok w.catalog)
  (hides : w.catalog.CanHide)
include registered hides

theorem registered_invariant : Draft.Invariant w (·.IsRegistered w.catalog) where
  queued _ new fits :=
    have h := isRegistered_of_isNew registered new fits
    ⟨h.valid, h.known⟩
  rolled _ _ _ _ h := h.rollAffixes (Catalog.ofContent_isIndex registered)
  mutated granted s m d dice _ _ h clean :=
    have index := Catalog.ofContent_isIndex registered
    (Mutation.apply_alters (k := ⟨w, granted, s⟩) index m d dice clean).registered index hides h
  copied _ h := ⟨h.valid, h.known⟩

theorem sound_invariant (separate : w.catalog.RollsApart) :
    Draft.Invariant w (·.fault w.catalog = .none) where
  queued _ new fits := by
    have h := isRegistered_of_isNew registered new fits
    refine Draft.fault_eq_none_iff.mpr ⟨⟨h.valid, h.known⟩, fun clash => ?_⟩
    obtain ⟨-, carried⟩ := clash.hidden
    rw [Draft.affixIds, new.affixes] at carried
    cases carried
  rolled s d dice bare h := by
    have index := Catalog.ofContent_isIndex registered
    have known := (Draft.fault_eq_none_iff.mp h).1
    refine Draft.fault_eq_none_iff.mpr ⟨known.rollAffixes index, ?_⟩
    refine Draft.rollAffixes_apart index separate (fun id carried => ?_) w.occasion s dice
    rw [Draft.affixIds, bare] at carried
    cases carried
  mutated granted s m d dice _ _ h clean :=
    have index := Catalog.ofContent_isIndex registered
    (Mutation.apply_alters (k := ⟨w, granted, s⟩) index m d dice clean).sound index hides separate h
  copied _ h := h

end

end World

namespace LootNode

/-- Every granted item is valid and has registered affixes only. If the limits of items do not roll
a visual affix beside the one that hides visuals, none stands there: validation finds nothing
wrong. -/
theorem roll_sound {content : Content} {w : World}
    (registered : Catalog.ofContent content = .ok w.catalog) (hides : w.catalog.CanHide)
    (n : LootNode) {q : Request} (same : q.world = w) :
    (∀ d ∈ (n.roll q).drafts, d.IsRegistered w.catalog) ∧
      (w.catalog.RollsApart → ∀ d ∈ (n.roll q).drafts, d.fault w.catalog = .none) :=
  ⟨(World.registered_invariant registered hides).roll n same,
    fun separate => (World.sound_invariant registered hides separate).roll n same⟩

/-- The affix that hides visuals has no weight; a visual one is rolled, and the item is sound. -/
theorem roll_sound_visual :
    let content : Content := {
      rarities := [{ id := ⟨10⟩, weightCurve := ⟨5⟩ }]
      curves := [{ id := ⟨5⟩, min := 1, max := 1, values := [1] }]
      affixes := [{ id := ⟨1⟩, position := .metadata, weight := 0, categories := [⟨70⟩] },
        { id := ⟨2⟩, position := .visual, categories := [⟨70⟩] }]
      noVisualsAffix := ⟨1⟩
      items := [{ id := ⟨100⟩, affixLimits := [{ rarity := ⟨10⟩, categories := [⟨⟨70⟩, 1⟩] }] }] }
    let n : LootNode := .drop {} (.item ⟨100⟩ {} [])
    ∃ c, Catalog.ofContent content = .ok c ∧
      (n.roll { world := { catalog := c }, seed := 1 }).drafts.map (·.affixIds) = [[⟨2⟩]] ∧
      ∀ d ∈ (n.roll { world := { catalog := c }, seed := 1 }).drafts, d.fault c = .none := by
  intro content n
  have sound {c : Catalog} (registered : Catalog.ofContent content = .ok c) (hides : c.CanHide)
      (separate : c.RollsApart) :
      ∀ d ∈ (n.roll { world := { catalog := c }, seed := 1 }).drafts, d.fault c = .none :=
    (roll_sound (w := { catalog := c }) registered hides n rfl).2 separate
  have registered : Catalog.ofContent content = .ok _ := rfl
  refine ⟨_, registered, ?rolled, sound registered (fun _ => ⟨_, rfl, ?other⟩) ?separate⟩
  case rolled => decide +kernel
  case other => decide
  case separate =>
    unfold Catalog.RollsApart
    decide +kernel

/-- Two categories put a visual affix beside the one that hides visuals, and the item is granted. -/
theorem roll_sound_clash :
    let content : Content := {
      rarities := [{ id := ⟨10⟩, weightCurve := ⟨5⟩ }]
      curves := [{ id := ⟨5⟩, min := 1, max := 1, values := [1] }]
      affixes := [{ id := ⟨1⟩, position := .metadata, categories := [⟨70⟩] },
        { id := ⟨2⟩, position := .visual, categories := [⟨71⟩] }]
      noVisualsAffix := ⟨1⟩
      items := [{
        id := ⟨100⟩
        affixLimits := [{ rarity := ⟨10⟩, categories := [⟨⟨70⟩, 1⟩, ⟨⟨71⟩, 1⟩] }] }] }
    let n : LootNode := .drop {} (.item ⟨100⟩ {} [])
    ∃ c, Catalog.ofContent content = .ok c ∧ c.CanHide ∧
      ∃ d ∈ (n.roll { world := { catalog := c }, seed := 1 }).drafts, d.fault c = .badAffix := by
  refine ⟨_, rfl, fun _ => ⟨_, rfl, ?_⟩, ?_⟩
  · decide
  · decide +kernel

end LootNode

end Spoils
