import Spoils.Proofs.Affix.Draws

/-! How many affixes a position has at least after it was filled. A draw that finds every copy of
its affix on the draft gives one of them another seed instead of adding any, and still counts as
one of those that were asked for. -/
namespace Spoils

namespace Catalog.Collects
variable {c : Catalog} {fits : Affix → Prop} {keys keys' : List (PrototypeId × PrototypeId)}

/-- A part of the keys stays as it is when nothing that fits belongs to it. -/
theorem filter_eq (h : c.Collects fits keys keys') {part : PrototypeId × PrototypeId → Bool}
    (apart : ∀ key a, c.affix? key.1 = some a → fits a → part key = false) :
    keys'.filter part = keys.filter part := by
  induction h with
  | done keys => rfl
  | more known fit _ _ ih =>
    have out := apart _ _ known fit
    rw [ih, List.filter_append, List.filter_cons_of_neg (by rw [out]; decide), List.filter_nil,
      List.append_nil]

end Catalog.Collects

namespace Draft
variable {c : Catalog} {s : Option BranchSettings} {l : AffixLimits} {d e : Draft}
  {p : AffixPosition} {a : Affix} {scope : PrototypeId}

def keysAt (c : Catalog) (d : Draft) (p : AffixPosition) : List (PrototypeId × PrototypeId) :=
  d.affixKeys.filter fun key => (c.affix? key.1).any (·.position == p)

theorem length_keysAt (c : Catalog) (d : Draft) (p : AffixPosition) :
    (d.keysAt c p).length = d.numberAt c p := by
  rw [numberAt, affixIds_eq, List.countP_map, List.countP_eq_length_filter]
  rfl

section
variable (index : Catalog.IsIndex c.prototypes)
include index

theorem mem_keysAt (here : a ∈ c.affixesAt p) :
    (a.id, scope) ∈ d.keysAt c p ↔ (a.id, scope) ∈ d.affixKeys := by
  obtain ⟨listed, rfl⟩ := affixesAt_mem here
  simp [keysAt, List.mem_filter, Catalog.affix?_of_mem index listed]

/-- What is at a position tells which of its affixes are on a draft. -/
theorem mem_affixIds_congr (same : e.keysAt c p = d.keysAt c p) (here : a ∈ c.affixesAt p) :
    a.id ∈ e.affixIds ↔ a.id ∈ d.affixIds := by
  have carried (d : Draft) : a.id ∈ d.affixIds ↔ ∃ scope, (a.id, scope) ∈ d.keysAt c p := by
    simp only [affixIds_eq, mem_keysAt index here, List.mem_map, Prod.exists, exists_eq_right,
      exists_and_right]
  rw [carried, carried, same]

private theorem overwrites_keysAt (same : e.keysAt c p = d.keysAt c p) (here : a ∈ c.affixesAt p) :
    e.overwrites a = d.overwrites a :=
  overwrites_congr fun scope => by rw [← mem_keysAt index here, same, mem_keysAt index here]

theorem foldl_fillPosition_keysAt {qs : List AffixPosition} (elsewhere : p ∉ qs) (change : Change) :
    (qs.foldl (fillPosition c s l) change).draft.keysAt c p = change.draft.keysAt c p := by
  induction qs generalizing change with
  | nil => rfl
  | cons q qs ih =>
    obtain ⟨other, rest⟩ := not_or.mp (List.mem_cons.not.mp elsewhere)
    rw [List.foldl_cons, ih rest]
    rcases fillPosition_cases c s l change q with ⟨-, same⟩ | ⟨target, next, -, -, filled⟩
    · rw [same]
    · rw [filled]
      refine (rollCount_collects index (fun a ha => (affixesAt_mem (mem_pickerFor.mp ha).1).1)
        _ _ _).filter_eq fun key a known ha => ?_
      rw [known, Option.any_some, (affixesAt_mem (mem_pickerFor.mp ha).1).2]
      exact beq_eq_false_iff_ne.mpr (Ne.symm other)

/-- To fill a position with room puts on at least its minimum, less what is drawn to be overwritten,
or all that is available. -/
theorem fillPosition_reaches (room : 0 < l.maxCount p s) (change : Change) :
    (∀ a ∈ c.available change.draft.item p,
        a.id ∈ (fillPosition c s l change p).draft.affixIds) ∨
      l.minCount p s ≤ (fillPosition c s l change p).draft.numberAt c p +
        (c.available change.draft.item p).countP change.draft.overwrites := by
  have most := (l.maxCount_mem p s).2
  rcases fillPosition_cases c s l change p with ⟨full, -⟩ | ⟨target, next, -, range, filled⟩
  · omega
  rw [filled]
  simp only [Change.also, rollCount]
  obtain ⟨new, listed, ids, reached⟩ :=
    rollMany_reaches (target - change.draft.countAtPosition c p).toNat
      (.pickerFor index (c.affixesAt_sublist p) change.draft.item { position := p })
      change.draft next
  rw [Catalog.items_pickerFor] at listed reached
  have number := numberAt_append index ids
    (List.Subset.trans listed (c.available_subset change.draft.item p)) p
  rw [if_pos rfl] at number
  rcases reached with all | enough
  · exact .inl all
  · right
    rw [number]
    by_cases few : (change.draft.numberAt c p : Int) ≤ 32767
    · rw [countAtPosition_eq, count16_eq few] at enough
      omega
    · omega

theorem fillPositions_reaches (counted : p.isCounted = true) (room : 0 < l.maxCount p s)
    (change : Change) :
    (∀ a ∈ c.available change.draft.item p,
        a.id ∈ (fillPositions c s l change).draft.affixIds) ∨
      l.minCount p s ≤ (fillPositions c s l change).draft.numberAt c p +
        (c.available change.draft.item p).countP change.draft.overwrites := by
  have listed : p ∈ AffixPosition.all.filter (·.isCounted) :=
    List.mem_filter.mpr ⟨by cases p <;> decide, counted⟩
  obtain ⟨before, after, order⟩ := List.append_of_mem listed
  have distinct : (AffixPosition.all.filter (·.isCounted)).Nodup := by decide
  rw [order] at distinct
  obtain ⟨-, last, apart⟩ := List.nodup_append.mp distinct
  rw [fillPositions, order, List.foldl_append, List.foldl_cons]
  -- What was filled before the position and what is filled after it stand elsewhere.
  have first := foldl_fillPosition_keysAt (s := s) (l := l) index
    (fun early => apart p early p (.head _) rfl) change
  have item := (foldl_fillPosition_sameBody (c := c) (s := s) l before change).item_eq
  generalize before.foldl (fillPosition c s l) change = x at first item ⊢
  have rest := foldl_fillPosition_keysAt (s := s) (l := l) index (List.nodup_cons.mp last).1
    (fillPosition c s l x p)
  have reached := fillPosition_reaches index room x
  rw [item, ← length_keysAt, ← rest, length_keysAt] at reached
  have here {a : Affix} (ha : a ∈ c.available change.draft.item p) : a ∈ c.affixesAt p :=
    c.available_subset _ p ha
  rcases reached with all | enough
  · exact .inl fun a ha => (mem_affixIds_congr index rest (here ha)).mpr (all a ha)
  · rw [List.countP_congr fun a ha => by rw [overwrites_keysAt index first (here ha)]] at enough
    exact .inr enough

end

/-- Without an error the limits of a draft are filled, the categories first. -/
theorem rollAffixes_eq {occasion : Occasion} {dice : Dice}
    (clean : (d.rollAffixes c occasion s dice).report.error = false)
    (limited : d.limits? c occasion = some l) :
    d.rollAffixes c occasion s dice = fillPositions c s l (d.fillCategories c s l dice) := by
  rcases rollAffixes_cases c occasion s d dice with ⟨report, same, told⟩ | ⟨-, l', known, filled⟩
  · rw [same] at clean
    cases limited.symm.trans (told clean).2
  · cases limited.symm.trans known
    exact filled

/-- Rolling affixes without an error gives a counted position with room at least its minimum, less
what may be drawn only to be overwritten, or all that is available for the item. In particular the
minimum holds when no affix of the position is overwritten. -/
theorem rollAffixes_reaches {content : Content} (registered : Catalog.ofContent content = .ok c)
    (occasion : Occasion) (s : Option BranchSettings) (dice : Dice)
    (clean : (d.rollAffixes c occasion s dice).report.error = false)
    (limited : d.limits? c occasion = some l) (counted : p.isCounted = true)
    (room : 0 < l.maxCount p s) :
    (∀ a ∈ c.available d.item p, a.id ∈ (d.rollAffixes c occasion s dice).draft.affixIds) ∨
      l.minCount p s ≤ (d.rollAffixes c occasion s dice).draft.numberAt c p +
        (c.available d.item p).countP (d.fillCategories c s l dice).draft.overwrites := by
  have reached := fillPositions_reaches (Catalog.ofContent_isIndex registered) counted room
    (d.fillCategories c s l dice)
  rw [(fillCategories_sameBody l d dice).item_eq] at reached
  rwa [rollAffixes_eq clean limited]

/-- Two suffixes are put on as they are asked for, but one prefix alone, since the other draw finds
the one that is there for its category. -/
theorem rollAffixes_reaches_suffixes :
    let content : Content := {
      rarities := [{ id := ⟨10⟩ }]
      affixes := [
        { id := ⟨1⟩, position := .prefixed, categories := [⟨70⟩], duplicates := .overwrite },
        { id := ⟨2⟩, position := .prefixed }, { id := ⟨3⟩, position := .suffixed },
        { id := ⟨4⟩, position := .suffixed }, { id := ⟨5⟩, position := .suffixed }]
      items := [{ id := ⟨100⟩, affixLimits := [{
        rarity := ⟨10⟩, prefixes := ⟨2, 2⟩, suffixes := ⟨2, 2⟩, categories := [⟨⟨70⟩, 1⟩] }] }] }
    let d : Draft := { item := ⟨100⟩, rarity := ⟨10⟩, level := 1 }
    ∃ c, Catalog.ofContent content = .ok c ∧
      2 ≤ (d.rollAffixes c .drop none (.ofSeed 1)).draft.numberAt c .suffixed ∧
      2 ≤ (d.rollAffixes c .drop none (.ofSeed 1)).draft.numberAt c .prefixed + 1 := by
  intro content d
  have reached {c : Catalog} {l : AffixLimits} {p : AffixPosition} {spent : Nat}
      (registered : Catalog.ofContent content = .ok c) (limited : d.limits? c .drop = some l)
      (counted : p.isCounted = true) (most : l.maxCount p none = 2) (least : l.minCount p none = 2)
      (clean : (d.rollAffixes c .drop none (.ofSeed 1)).report.error = false)
      (missing : ∃ a ∈ c.available d.item p,
        a.id ∉ (d.rollAffixes c .drop none (.ofSeed 1)).draft.affixIds)
      (count : (c.available d.item p).countP
        (d.fillCategories c none l (.ofSeed 1)).draft.overwrites = spent) :
      2 ≤ (d.rollAffixes c .drop none (.ofSeed 1)).draft.numberAt c p + spent := by
    rcases rollAffixes_reaches registered .drop none (.ofSeed 1) clean limited counted (by omega)
      with all | enough
    · obtain ⟨a, available, absent⟩ := missing
      exact (absent (all a available)).elim
    · rw [least, count] at enough
      omega
  have registered : Catalog.ofContent content = .ok _ := rfl
  refine ⟨_, registered, ?suffixes, ?prefixes⟩
  case suffixes =>
    rw [← Nat.add_zero (numberAt ..)]
    exact reached (p := .suffixed) registered rfl rfl (by decide) (by decide) (by decide +kernel)
      (by decide +kernel) (by decide +kernel)
  case prefixes =>
    exact reached (p := .prefixed) registered rfl rfl (by decide) (by decide) (by decide +kernel)
      (by decide +kernel) (by decide +kernel)

/-- A position stays below its minimum although another affix is available: the second draw gives
the affix that is there for its category another seed. -/
theorem rollAffixes_misses :
    let content : Content := {
      rarities := [{ id := ⟨10⟩ }]
      affixes := [
        { id := ⟨1⟩, position := .prefixed, categories := [⟨70⟩], duplicates := .overwrite },
        { id := ⟨2⟩, position := .prefixed }]
      items := [{ id := ⟨100⟩, affixLimits := [{
        rarity := ⟨10⟩, prefixes := ⟨2, 2⟩, categories := [⟨⟨70⟩, 1⟩] }] }] }
    let d : Draft := { item := ⟨100⟩, rarity := ⟨10⟩, level := 1 }
    ∃ c l, Catalog.ofContent content = .ok c ∧ d.limits? c .drop = some l ∧
      (d.rollAffixes c .drop (some {}) (.ofSeed 1)).report.error = false ∧
      AffixPosition.isCounted .prefixed = true ∧ 0 < l.maxCount .prefixed (some {}) ∧
      l.minCount .prefixed (some {}) = 2 ∧
      (d.rollAffixes c .drop (some {}) (.ofSeed 1)).draft.numberAt c .prefixed = 1 ∧
      ∃ a ∈ c.available d.item .prefixed,
        a.id ∉ (d.rollAffixes c .drop (some {}) (.ofSeed 1)).draft.affixIds := by
  refine ⟨_, _, rfl, rfl, ?_⟩
  decide +kernel

end Draft

end Spoils
