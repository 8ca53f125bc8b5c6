import Mathlib.Data.List.Nodup
import Mathlib.Data.List.Perm.Subperm
import Spoils.Proofs.Affix.Counts

/-! How many affixes a bare draft gets at each position. As long as nothing in a pool is on the
draft every affix that is drawn is put on, so a position is filled up to its target or until the
pool is empty. -/
namespace Spoils

namespace Catalog
variable {c : Catalog}

def available (c : Catalog) (item : PrototypeId) (p : AffixPosition) : List Affix :=
  (c.affixesAt p).filter fun a => decide (0 < a.weight) && c.allowsAttachment a item

private theorem affixes_distinct (index : IsIndex c.prototypes) : (c.affixes.map (·.id)).Nodup := by
  have distinct : c.prototypes.values.Pairwise fun p q => p.id ≠ q.id := by
    rw [SortedMap.values, List.pairwise_map]
    refine List.Pairwise.imp_of_mem ?_ (List.pairwise_map.mp (SortedMap.keys_pairwise c.prototypes))
    intro e f he hf before
    rw [← index e he, ← index f hf]
    exact SortedMap.ne_of_lt before
  refine List.pairwise_map.mpr (distinct.filterMap _ fun p q apart a ha b hb => ?_)
  cases p <;> cases q <;> cases ha <;> cases hb
  exact apart

theorem pickerFor_available (item : PrototypeId) (p : AffixPosition) :
    (Affix.pickerFor c (c.affixesAt p) item { position := p }).entries =
      (c.available item p).map fun a => (a, a.weight) := by
  rw [Affix.pickerFor, available]
  refine congrArg (List.map _) (List.filter_congr fun a here => ?_)
  have passes : ({ position := p } : AffixFilter).accepts a = true := by
    simp [AffixFilter.accepts, Affix.hasAnyKeyword, Affix.hasAnyCategory,
      (Draft.affixesAt_mem here).2]
  rw [passes, Bool.and_true]

theorem items_pickerFor (item : PrototypeId) (p : AffixPosition) :
    (Affix.pickerFor c (c.affixesAt p) item { position := p }).items = c.available item p := by
  rw [Picker.items, pickerFor_available, List.map_map]
  exact List.map_id' _

theorem available_subset (c : Catalog) (item : PrototypeId) (p : AffixPosition) :
    c.available item p ⊆ c.affixesAt p := List.filter_sublist.subset

theorem affixesAt_sublist (c : Catalog) (p : AffixPosition) :
    (c.affixesAt p).Sublist c.affixes := List.filter_sublist

theorem pickerFor_heavy (pool : List Affix) (item : PrototypeId) (f : AffixFilter) :
    ∀ entry ∈ (Affix.pickerFor c pool item f).entries, 0 < entry.2 := by
  intro entry he
  obtain ⟨a, ha, rfl⟩ := List.mem_map.mp he
  have passes := (List.mem_filter.mp ha).2
  simp only [Bool.and_eq_true, decide_eq_true_eq] at passes
  exact passes.1.1

theorem pickerFor_distinct (index : IsIndex c.prototypes) {pool : List Affix}
    (sub : pool.Sublist c.affixes) (item : PrototypeId) (f : AffixFilter) :
    ((Affix.pickerFor c pool item f).items.map (·.id)).Nodup := by
  rw [Affix.pickerFor, Picker.items, List.map_map, List.map_map]
  exact ((List.filter_sublist.trans sub).map _).nodup (affixes_distinct index)

end Catalog

namespace Draft
variable {c : Catalog} {s : Option BranchSettings} {l : AffixLimits} {d e : Draft}
  {pool q : Picker Affix} {p : AffixPosition} {ps : List AffixPosition}

/-- Everything in the pool may be drawn, nothing is in it twice or on the draft. -/
structure Fresh (pool : Picker Affix) (d : Draft) : Prop where
  heavy : ∀ e ∈ pool.entries, 0 < e.2
  distinct : (pool.items.map (·.id)).Nodup
  apart : ∀ a ∈ pool.items, a.id ∉ d.affixIds

theorem attachAffix_affixIds (a : Affix) (scope : PrototypeId) (seed : Nat) (d : Draft) :
    (d.attachAffix a scope seed).affixIds = d.affixIds ++ [a.id] := by
  simp only [affixIds, attachAffix, List.map_append, List.map_cons, List.map_nil]

/-- An affix that is not on a draft is put on, in whatever scope. -/
theorem putAffix_of_absent {a : Affix} (absent : a.id ∉ d.affixIds) (scope : PrototypeId)
    (dice : Dice) :
    d.putAffix a scope dice = some (d.attachAffix a scope dice.seed.1, dice.seed.2) := by
  have free : d.hasAffix a.id scope = false := by
    rw [hasAffix, List.any_eq_false]
    intro attached carried same
    exact absent (List.mem_map.mpr ⟨attached, carried, congrArg Prod.fst (eq_of_beq same)⟩)
  rw [putAffix, free]
  rfl

/-- What is left of a fresh pool is fresh when what was drawn is put on. -/
theorem Fresh.rest {a : Affix} {scope : PrototypeId} {seed : Nat} {weight : Int}
    (fresh : Fresh pool d) (drawn : pool.entries.Perm ((a, weight) :: q.entries)) :
    Fresh q (d.attachAffix a scope seed) := by
  have items : pool.items.Perm (a :: q.items) := List.Perm.map Prod.fst drawn
  have ids := (items.map (·.id)).nodup_iff.mp fresh.distinct
  obtain ⟨new, distinct⟩ := List.nodup_cons.mp ids
  refine ⟨fun e he => fresh.heavy e (drawn.mem_iff.mpr (.tail _ he)), distinct, fun b hb on => ?_⟩
  rw [attachAffix_affixIds] at on
  rcases List.mem_append.mp on with before | last
  · exact fresh.apart b (items.mem_iff.mpr (.tail a hb)) before
  · exact new (List.mem_map.mpr ⟨b, hb, List.mem_singleton.mp last⟩)

/-- Rolling one affix of a fresh pool puts the first one on that is drawn. -/
theorem rollOne_fresh (fresh : Fresh pool d) (filled : pool.entries ≠ []) (dice : Dice) :
    ∃ a q scope seed rest, rollOne pool d dice = (true, q, d.attachAffix a scope seed, rest) ∧
      pool.items.Perm (a :: q.items) ∧ Fresh q (d.attachAffix a scope seed) := by
  obtain ⟨first, listed⟩ := List.exists_mem_of_ne_nil _ filled
  obtain ⟨a, q, picked⟩ :=
    Picker.pick_isSome (Picker.totalWeight_pos listed (fresh.heavy first listed)) dice
  obtain ⟨weight, -, drawn⟩ := Picker.pick_perm picked
  have items : pool.items.Perm (a :: q.items) := List.Perm.map Prod.fst drawn
  have put := putAffix_of_absent (fresh.apart a (items.mem_iff.mpr (.head _)))
  -- What is drawn first is put on, and so nothing is drawn again.
  have tries : pool.size = (pool.size - 1) + 1 :=
    (Nat.sub_add_cancel (List.length_pos_iff.mpr filled)).symm
  have picks : pool.pick dice = (some (a, q), (pool.pick dice).2) := Prod.ext picked rfl
  obtain ⟨scope, next, chosen⟩ : ∃ scope next,
      a.pickScope (d.hasAffix a.id) (pool.pick dice).2 = (scope, next) := ⟨_, _, rfl⟩
  refine ⟨a, q, scope, next.seed.1, next.seed.2, ?_, items, fresh.rest drawn⟩
  rw [rollOne, tries, rollOneWith, picks]
  simp only [chosen, put]

/-- Rolling affixes of a fresh pool puts on as many different ones as it is asked for, or all. -/
theorem rollMany_fresh (n : Nat) (fresh : Fresh pool d) (dice : Dice) :
    ∃ new : List Affix, new.Subperm pool.items ∧ new.length = min n pool.size ∧
      (rollMany n pool d dice).2.1.affixIds = d.affixIds ++ new.map (·.id) := by
  induction n generalizing pool d dice with
  | zero => exact ⟨[], List.nil_subperm, (Nat.zero_min _).symm, (List.append_nil _).symm⟩
  | succ n ih =>
    by_cases filled : pool.entries = []
    · refine ⟨[], List.nil_subperm, by simp [Picker.size, filled], ?_⟩
      have nothing : rollOne pool d dice = (false, pool, d, dice) := by
        rw [rollOne, Picker.size, filled]
        rfl
      simp only [rollMany, nothing, List.map_nil, List.append_nil]
    · obtain ⟨a, q, scope, seed, rest, rolled, items, again⟩ := rollOne_fresh fresh filled dice
      obtain ⟨new, sub, length, ids⟩ := ih again rest
      have size : pool.size = q.size + 1 := by
        rw [← Picker.length_items, items.length_eq, List.length_cons, Picker.length_items]
      refine ⟨a :: new, ((List.subperm_cons a).mpr sub).trans items.symm.subperm, ?_, ?_⟩
      · rw [List.length_cons, length, size, Nat.add_min_add_right]
      · simp only [rollMany, rolled, ids, attachAffix_affixIds, List.map_cons, List.append_assoc,
          List.singleton_append]

/-- Some positions are filled: where the limits leave room, with as many affixes as a target within
the limits asks for, or with all that are available. No affix is there twice, and none stands
elsewhere. -/
structure Filled (c : Catalog) (s : Option BranchSettings) (l : AffixLimits) (item : PrototypeId)
    (ps : List AffixPosition) (d : Draft) : Prop where
  item_eq : d.item = item
  number : ∀ p ∈ ps, 0 < l.maxCount p s → ∃ target,
    l.minCount p s ≤ target ∧ target ≤ l.maxCount p s ∧
      (d.numberAt c p : Int) = min target (c.available item p).length
  distinct : d.affixIds.Nodup
  placed : ∀ id ∈ d.affixIds, ∃ a,
    c.affix? id = some a ∧ a.position ∈ ps ∧ 0 < l.maxCount a.position s

section
variable {item : PrototypeId} {q : AffixPosition}

theorem Filled.numberAt_eq_zero (filled : Filled c s l item ps d) (later : q ∉ ps) :
    d.numberAt c q = 0 := by
  refine List.countP_eq_zero.mpr fun id carried here => ?_
  obtain ⟨a, known, position, -⟩ := filled.placed id carried
  rw [known, Option.any_some, beq_iff_eq] at here
  exact later (here ▸ position)

variable (index : Catalog.IsIndex c.prototypes)
include index

/-- Affixes of one position add to the number there and nowhere else. -/
theorem numberAt_append {new : List Affix} (ids : e.affixIds = d.affixIds ++ new.map (·.id))
    (known : new ⊆ c.affixesAt q) (p : AffixPosition) :
    e.numberAt c p = d.numberAt c p + if q = p then new.length else 0 := by
  have stands {a : Affix} (ha : a ∈ new) :
      (c.affix? a.id).any (·.position == p) = decide (q = p) := by
    obtain ⟨listed, rfl⟩ := affixesAt_mem (known ha)
    rw [Catalog.affix?_of_mem index listed, Option.any_some, beq_eq_decide]
  rw [numberAt, ids, List.countP_append, List.countP_map, numberAt]
  congr 1
  split
  · rename_i here
    refine List.countP_eq_length.mpr fun a ha => ?_
    rw [Function.comp, stands ha, decide_eq_true here]
  · rename_i elsewhere
    refine List.countP_eq_zero.mpr fun a ha => ?_
    rw [Function.comp, stands ha, decide_eq_false elsewhere]
    exact Bool.false_ne_true

theorem Filled.fresh (filled : Filled c s l item ps d) (later : q ∉ ps) :
    Fresh (Affix.pickerFor c (c.affixesAt q) item { position := q }) d := by
  refine ⟨c.pickerFor_heavy _ item _,
    Catalog.pickerFor_distinct index (c.affixesAt_sublist q) item _, fun a ha carried => ?_⟩
  rw [Catalog.items_pickerFor] at ha
  obtain ⟨listed, here⟩ := affixesAt_mem (c.available_subset item q ha)
  obtain ⟨b, known, position, -⟩ := filled.placed a.id carried
  rw [Catalog.affix?_of_mem index listed, Option.some.injEq] at known
  exact later (here ▸ known ▸ position)

/-- Rolling affixes at a position that is not filled yet puts on as many of those that are available
as it is asked for, or all of them. -/
theorem Filled.rollCount_affixIds (filled : Filled c s l item ps d) (later : q ∉ ps) (count : Int)
    (dice : Dice) : ∃ new : List Affix, new ⊆ c.affixesAt q ∧
      new.length = min count.toNat (c.available item q).length ∧
      (d.affixIds ++ new.map (·.id)).Nodup ∧
      (d.rollCount count (Affix.pickerFor c (c.affixesAt q) item { position := q })
        dice).draft.affixIds = d.affixIds ++ new.map (·.id) := by
  have fresh := filled.fresh index later
  obtain ⟨new, sub, length, ids⟩ := rollMany_fresh count.toNat fresh dice
  rw [← Picker.length_items] at length
  have distinct : (new.map (·.id)).Nodup := by
    obtain ⟨drawn, perm, sublist⟩ := sub
    exact (perm.map (·.id)).nodup_iff.mp ((sublist.map (·.id)).nodup fresh.distinct)
  have apart := fun a (ha : a ∈ new) => fresh.apart a (sub.subset ha)
  rw [Catalog.items_pickerFor] at sub length
  refine ⟨new, List.Subset.trans sub.subset (c.available_subset item q), length, ?_, ids⟩
  refine List.nodup_append.mpr ⟨filled.distinct, distinct, fun id carried other added same => ?_⟩
  obtain ⟨a, ha, rfl⟩ := List.mem_map.mp added
  exact apart a ha (same ▸ carried)

/-- To fill one more position leaves those before it as they are. -/
theorem fillPosition_filled {change : Change} (filled : Filled c s l item ps change.draft)
    (later : q ∉ ps) :
    Filled c s l item (ps ++ [q]) (fillPosition c s l change q).draft := by
  rcases fillPosition_cases c s l change q with ⟨full, same⟩ | ⟨target, next, room, range, fills⟩
  · rw [same]
    refine ⟨filled.item_eq, fun p hp room => ?_, filled.distinct, fun id carried => ?_⟩
    · rcases List.mem_append.mp hp with before | last
      · exact filled.number p before room
      · rw [List.mem_singleton.mp last] at room
        omega
    · obtain ⟨a, known, position, room⟩ := filled.placed id carried
      exact ⟨a, known, List.mem_append_left _ position, room⟩
  · have least : 0 ≤ l.minCount q s := l.minCount_nonneg q s
    -- Nothing stands there yet, so that all of the target is asked for.
    have none : change.draft.countAtPosition c q = 0 := by
      rw [countAtPosition_eq, filled.numberAt_eq_zero later]
      rfl
    rw [fills]
    simp only [none, Int.sub_zero, Change.also, filled.item_eq]
    obtain ⟨new, known, length, distinct, ids⟩ := filled.rollCount_affixIds index later target next
    have number := fun p => numberAt_append index ids known p
    refine ⟨(rollCount_sameBody ..).item_eq.trans filled.item_eq, fun p hp roomy => ?number,
      ids ▸ distinct, fun id carried => ?placed⟩
    case number =>
      rw [number]
      rcases List.mem_append.mp hp with before | last
      · rw [if_neg (ne_of_mem_of_not_mem before later).symm, Nat.add_zero]
        exact filled.number p before roomy
      · cases List.mem_singleton.mp last
        rw [if_pos rfl, filled.numberAt_eq_zero later, length]
        exact ⟨target, range.1, by omega, by omega⟩
    case placed =>
      rw [ids] at carried
      rcases List.mem_append.mp carried with before | added
      · obtain ⟨a, found, position, roomy⟩ := filled.placed id before
        exact ⟨a, found, List.mem_append_left _ position, roomy⟩
      · obtain ⟨a, ha, rfl⟩ := List.mem_map.mp added
        obtain ⟨listed, rfl⟩ := affixesAt_mem (known ha)
        exact ⟨a, Catalog.affix?_of_mem index listed, List.mem_append_right _ (.head _), by omega⟩

/-- To fill different positions one after the other fills all of them. -/
theorem foldl_fillPosition_filled (qs : List AffixPosition) (change : Change)
    (filled : Filled c s l item ps change.draft) (distinct : (ps ++ qs).Nodup) :
    Filled c s l item (ps ++ qs) (qs.foldl (fillPosition c s l) change).draft := by
  induction qs generalizing ps change with
  | nil => rwa [List.append_nil]
  | cons q qs ih =>
    rw [List.append_cons] at distinct ⊢
    have later : q ∉ ps := fun before =>
      (List.nodup_append.mp (List.nodup_append.mp distinct).1).2.2 q before q (.head _) rfl
    exact ih _ (fillPosition_filled index filled later) distinct

end

/-- A valid draft without affixes, under limits that list no category, gets at every counted
position with any room exactly as many affixes as a target within the limits asks for, or as many as
are available for the item; they are all different, and there are none at other positions. -/
theorem rollAffixes_exact {content : Content} (registered : Catalog.ofContent content = .ok c)
    (occasion : Occasion) (s : Option BranchSettings) (dice : Dice) (valid : d.isValid = true)
    (bare : d.affixes = []) (limited : d.limits? c occasion = some l)
    (uncategorized : l.categories = []) :
    (∀ p : AffixPosition, p.isCounted = true → 0 < l.maxCount p s → ∃ target,
      l.minCount p s ≤ target ∧ target ≤ l.maxCount p s ∧
        ((d.rollAffixes c occasion s dice).draft.numberAt c p : Int) =
          min target (c.available d.item p).length) ∧
    (d.rollAffixes c occasion s dice).draft.affixIds.Nodup ∧
    ∀ id ∈ (d.rollAffixes c occasion s dice).draft.affixIds, ∃ a,
      c.affix? id = some a ∧ a.position.isCounted = true ∧ 0 < l.maxCount a.position s := by
  have index := Catalog.ofContent_isIndex registered
  have none : d.affixIds = [] := by rw [affixIds, bare, List.map_nil]
  have sound : (d.fault c).error = false := by
    simp [fault, valid, hasSoundAffixes, bare, MutationReport.none]
  obtain ⟨item, found, applies⟩ := Option.bind_eq_some_iff.mp limited
  have rolled : d.rollAffixes c occasion s dice =
      (AffixPosition.all.filter (·.isCounted)).foldl (fillPosition c s l) ⟨.none, d, dice⟩ := by
    simp only [rollAffixes, sound, Bool.false_eq_true, if_false, found, applies, fillCategories,
      uncategorized, List.foldl_nil, fillPositions]
  have start : Filled c s l d.item [] d := by
    refine ⟨rfl, fun p hp => ?_, ?_, fun id carried => ?_⟩
    · cases hp
    · rw [none]
      exact .nil
    · rw [none] at carried
      cases carried
  have filled := foldl_fillPosition_filled index (AffixPosition.all.filter (·.isCounted))
    ⟨.none, d, dice⟩ start (by decide)
  rw [List.nil_append, ← rolled] at filled
  have all (p : AffixPosition) : p ∈ AffixPosition.all := by cases p <;> decide
  refine ⟨fun p counted => filled.number p (List.mem_filter.mpr ⟨all p, counted⟩),
    filled.distinct, fun id carried => ?_⟩
  obtain ⟨a, known, position, room⟩ := filled.placed id carried
  exact ⟨a, known, (List.mem_filter.mp position).2, room⟩

/-- Two of three prefixes are drawn, and the only suffix that weighs anything although three are
asked for. -/
theorem rollAffixes_exact_scarce :
    let content : Content := {
      rarities := [{ id := ⟨10⟩ }]
      affixes := [{ id := ⟨1⟩, position := .prefixed }, { id := ⟨2⟩, position := .prefixed },
        { id := ⟨3⟩, position := .prefixed, weight := 5 }, { id := ⟨4⟩, position := .suffixed },
        { id := ⟨5⟩, position := .suffixed, weight := 0 }, { id := ⟨6⟩, position := .cosmic }]
      items := [{ id := ⟨100⟩, affixLimits := [{
        rarity := ⟨10⟩, prefixes := ⟨2, 2⟩, suffixes := ⟨3, 3⟩ }] }] }
    let d : Draft := { item := ⟨100⟩, rarity := ⟨10⟩, level := 1 }
    ∃ c, Catalog.ofContent content = .ok c ∧
      (d.rollAffixes c .drop none (.ofSeed 1)).draft.numberAt c .prefixed = 2 ∧
      (d.rollAffixes c .drop none (.ofSeed 1)).draft.numberAt c .suffixed = 1 ∧
      (d.rollAffixes c .drop none (.ofSeed 1)).draft.affixIds.Nodup := by
  intro content d
  have registered : Catalog.ofContent content = .ok _ := rfl
  obtain ⟨number, distinct, -⟩ :=
    rollAffixes_exact (d := d) registered .drop none (.ofSeed 1) rfl rfl rfl rfl
  refine ⟨_, registered, ?prefixed, ?suffixed, distinct⟩
  case prefixed =>
    obtain ⟨target, least, most, exactly⟩ := number .prefixed rfl (by decide)
    have : target = 2 := Int.le_antisymm most least
    rw [this] at exactly
    exact Int.ofNat.inj exactly
  case suffixed =>
    obtain ⟨target, least, most, exactly⟩ := number .suffixed rfl (by decide)
    have : target = 3 := Int.le_antisymm most least
    rw [this] at exactly
    exact Int.ofNat.inj exactly

end Draft

end Spoils
