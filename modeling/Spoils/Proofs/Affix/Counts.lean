import Spoils.Proofs.Affix.Body
import Spoils.Proofs.Affix.Limits
import Spoils.Proofs.Catalog.Index
import Spoils.Proofs.Random.Dice

/-! How many affixes a draft has at a position after its affixes were rolled. Filling a position
never goes beyond its limit; filling a category looks at no position at all. -/
namespace Spoils

theorem count16_eq {n : Nat} (h : (n : Int) ≤ 32767) : count16 n = n := by
  have small : (n : Int) * 2 < (0x10000 : Nat) := by omega
  have positive : -((0x10000 : Nat) : Int) ≤ (n : Int) * 2 := by omega
  exact Int.bmod_eq_of_le_mul_two positive small

namespace Draft
variable {c : Catalog} {s : Option BranchSettings} {l : AffixLimits} {d e : Draft}
  {p : AffixPosition}

def affixIds (d : Draft) : List PrototypeId := d.affixes.map (·.affix)

/-- How many affixes of the draft have the position, in whatever number. -/
def numberAt (c : Catalog) (d : Draft) (p : AffixPosition) : Nat :=
  d.affixIds.countP fun id => (c.affix? id).any fun a => a.position == p

theorem countAtPosition_eq (c : Catalog) (d : Draft) (p : AffixPosition) :
    d.countAtPosition c p = count16 (d.numberAt c p) := by
  rw [countAtPosition, countAffixes, numberAt, affixIds, List.countP_map]
  rfl

theorem reseed_keys (key : PrototypeId × PrototypeId) (seed : Nat) (as : List AttachedAffix) :
    (reseed key seed as).map (·.key) = as.map (·.key) := by
  induction as with
  | nil => rfl
  | cons a as ih =>
    rw [reseed]
    split
    · rfl
    · rw [List.map_cons, List.map_cons, ih]

private theorem reseed_affixIds (key : PrototypeId × PrototypeId) (seed : Nat)
    (as : List AttachedAffix) : (reseed key seed as).map (·.affix) = as.map (·.affix) := by
  have ids (as : List AttachedAffix) : as.map (·.affix) = (as.map (·.key)).map (·.1) := by
    rw [List.map_map]
    rfl
  rw [ids, reseed_keys, ← ids]

/-- Putting on affixes adds identifiers of the pool at the end, at most so many. -/
theorem PutsUpTo.affixIds {pool : List Affix} {n : Nat} (h : PutsUpTo pool n d e) :
    ∃ new, new ⊆ pool ∧ new.length ≤ n ∧ e.affixIds = d.affixIds ++ new.map (·.id) := by
  induction h with
  | stay n d => exact ⟨[], List.nil_subset pool, Nat.zero_le n, by simp⟩
  | more first rest ih =>
    obtain ⟨new, sub, few, ids⟩ := ih
    cases first with
    | append a scope seed drawn free =>
      refine ⟨a :: new, List.cons_subset.mpr ⟨drawn, sub⟩, Nat.succ_le_succ few, ?_⟩
      rw [ids]
      simp [Draft.affixIds, attachAffix]
    | overwrite a scope seed drawn taken again =>
      refine ⟨new, sub, Nat.le_succ_of_le few, ?_⟩
      rw [ids]
      simp only [Draft.affixIds, reseed_affixIds]

/-- What may be drawn for an item of a pool. -/
theorem mem_pickerFor {pool : List Affix} {item : PrototypeId} {f : AffixFilter} {a : Affix} :
    a ∈ (Affix.pickerFor c pool item f).items ↔
      a ∈ pool ∧ 0 < a.weight ∧ f.accepts a = true ∧ c.allowsAttachment a item = true := by
  simp only [Affix.pickerFor, Picker.items, List.map_map, Function.comp_def, List.map_id',
    List.mem_filter, Bool.and_eq_true, decide_eq_true_eq, and_assoc]

theorem pickerFor_items {pool : List Affix} {item : PrototypeId} {f : AffixFilter} {a : Affix}
    (h : a ∈ (Affix.pickerFor c pool item f).items) : a ∈ pool ∧ f.accepts a = true :=
  ⟨(mem_pickerFor.mp h).1, (mem_pickerFor.mp h).2.2.1⟩

/-- What a roll of a number of affixes adds to the numbers at a position. -/
theorem rollCount_numberAt (index : Catalog.IsIndex c.prototypes) (p : AffixPosition)
    (count : Int) (pool : Picker Affix) (known : pool.items ⊆ c.affixes) (d : Draft)
    (dice : Dice) :
    ∃ new, new ⊆ pool.items ∧ new.length ≤ count.toNat ∧
      (d.rollCount count pool dice).draft.numberAt c p =
        d.numberAt c p + new.countP fun a => a.position == p := by
  obtain ⟨new, sub, few, ids⟩ := (rollCount_puts count pool d dice).affixIds
  refine ⟨new, sub, few, ?_⟩
  rw [numberAt, ids, List.countP_append, List.countP_map]
  congr 1
  refine List.countP_congr fun a ha => ?_
  rw [Function.comp, Catalog.affix?_of_mem index (known (sub ha)), Option.any_some]

theorem affixesAt_mem {a : Affix} (h : a ∈ c.affixesAt p) : a ∈ c.affixes ∧ a.position = p :=
  ⟨(List.mem_filter.mp h).1, eq_of_beq (List.mem_filter.mp h).2⟩

/-- Filling a position keeps every position on its side of its limit: at its own it stops at the
limit and takes nothing away, at the others it changes nothing. -/
theorem fillPosition_within (index : Catalog.IsIndex c.prototypes) (change : Change)
    (q p : AffixPosition) :
    ((fillPosition c s l change q).draft.numberAt c p : Int) ≤ l.maxCount p s ↔
      (change.draft.numberAt c p : Int) ≤ l.maxCount p s := by
  rcases fillPosition_cases c s l change q with ⟨-, same⟩ | ⟨target, next, -, range, filled⟩
  · rw [same]
  · obtain ⟨new, sub, few, number⟩ := rollCount_numberAt index p
      (target - change.draft.countAtPosition c q)
      (Affix.pickerFor c (c.affixesAt q) change.draft.item { position := q })
      (fun a ha => (affixesAt_mem (pickerFor_items ha).1).1) change.draft next
    have placed : ∀ a ∈ new, a.position = q := fun a ha =>
      (affixesAt_mem (pickerFor_items (sub ha)).1).2
    rw [filled]
    simp only [Change.also, number]
    by_cases here : q = p
    · subst here
      have limit := (l.maxCount_mem q s).2
      have added := List.countP_le_length (p := fun a : Affix => a.position == q) (l := new)
      constructor
      · omega
      · intro within
        -- Within the limit a number is its sixteen-bit count.
        rw [countAtPosition_eq, count16_eq (by omega)] at few
        omega
    · have absent : (new.countP fun a => a.position == p) = 0 := by
        rw [List.countP_eq_zero]
        intro a ha hp
        exact here ((placed a ha).symm.trans (eq_of_beq hp))
      rw [absent, Nat.add_zero]

private theorem fillPositions_within (index : Catalog.IsIndex c.prototypes) (change : Change)
    (p : AffixPosition) :
    ((fillPositions c s l change).draft.numberAt c p : Int) ≤ l.maxCount p s ↔
      (change.draft.numberAt c p : Int) ≤ l.maxCount p s := by
  rw [fillPositions]
  induction AffixPosition.all.filter (·.isCounted) generalizing change with
  | nil => rfl
  | cons q qs ih => exact (ih _).trans (fillPosition_within index change q p)

/-- Categories without an affix of the position add nothing there. -/
theorem fillCategories_numberAt (index : Catalog.IsIndex c.prototypes)
    (apart : ∀ e ∈ l.categories, ∀ a ∈ c.affixes, a.hasCategory e.category = true →
      a.position ≠ p) (d : Draft) (dice : Dice) :
    (d.fillCategories c s l dice).draft.numberAt c p = d.numberAt c p := by
  rw [fillCategories]
  generalize hc : (⟨.none, d, dice⟩ : Change) = change
  replace hc : change.draft.numberAt c p = d.numberAt c p := by rw [← hc]
  generalize l.categories = es at apart ⊢
  induction es generalizing change with
  | nil => exact hc
  | cons e es ih =>
    refine ih _ ?_ fun e' he' => apart e' (.tail e he')
    obtain ⟨new, sub, -, number⟩ := rollCount_numberAt index p
      (AffixLimits.categoryCount e s - change.draft.countInCategory c e.category)
      (Affix.pickerFor c c.affixes change.draft.item { categories := [e.category] })
      (fun a ha => (pickerFor_items ha).1) change.draft change.dice
    have absent : (new.countP fun a => a.position == p) = 0 := by
      rw [List.countP_eq_zero]
      intro a ha hp
      obtain ⟨known, passes⟩ := pickerFor_items (sub ha)
      simp only [AffixFilter.accepts, Affix.hasAnyCategory, List.isEmpty_cons, Bool.false_or,
        List.any_cons, List.any_nil, Bool.or_false, Bool.and_eq_true] at passes
      exact apart e (.head es) a known passes.2 (eq_of_beq hp)
    simp only [fillCategory, Change.also, number, absent, Nat.add_zero]
    exact hc

/-- A valid draft without affixes has its affixes rolled within the limit of a position exactly
when the categories alone have not gone beyond it. In particular the limit holds when no affix of
the position has one of the listed categories. -/
theorem rollAffixes_within {content : Content} (registered : Catalog.ofContent content = .ok c)
    (occasion : Occasion) (s : Option BranchSettings) (dice : Dice) (valid : d.isValid = true)
    (bare : d.affixes = []) (limited : d.limits? c occasion = some l) (p : AffixPosition) :
    (((d.rollAffixes c occasion s dice).draft.numberAt c p : Int) ≤ l.maxCount p s ↔
      ((d.fillCategories c s l dice).draft.numberAt c p : Int) ≤ l.maxCount p s) ∧
    ((∀ e ∈ l.categories, ∀ a ∈ c.affixes, a.hasCategory e.category = true → a.position ≠ p) →
      ((d.rollAffixes c occasion s dice).draft.numberAt c p : Int) ≤ l.maxCount p s) := by
  have index := Catalog.ofContent_isIndex registered
  have sound : (d.fault c).error = false := by
    simp [fault, valid, hasSoundAffixes, bare, MutationReport.none]
  obtain ⟨item, found, applies⟩ := Option.bind_eq_some_iff.mp limited
  have rolled : d.rollAffixes c occasion s dice =
      fillPositions c s l (fillCategories c s l d dice) := by
    simp only [rollAffixes, sound, Bool.false_eq_true, if_false, found, applies]
  rw [rolled, fillPositions_within index]
  refine ⟨.rfl, fun apart => ?_⟩
  rw [fillCategories_numberAt index apart, numberAt, affixIds, bare]
  exact (l.maxCount_mem p s).1

/-- The limit of the prefixes holds; the suffixes, of which the limits list a category, exceed
theirs. -/
theorem rollAffixes_within_prefixes :
    let content : Content := {
      rarities := [{ id := ⟨10⟩ }]
      affixes := [{ id := ⟨1⟩, position := .prefixed },
        { id := ⟨2⟩, position := .suffixed, categories := [⟨70⟩] }]
      items := [{
        id := ⟨100⟩
        affixLimits := [{
          rarity := ⟨10⟩, prefixes := ⟨1, 1⟩, categories := [⟨⟨70⟩, 1⟩] }] }] }
    let d : Draft := { item := ⟨100⟩, rarity := ⟨10⟩, level := 1 }
    ∃ c l, Catalog.ofContent content = .ok c ∧ d.limits? c .drop = some l ∧
      ((d.rollAffixes c .drop none (.ofSeed 1)).draft.numberAt c .prefixed : Int) ≤
        l.maxCount .prefixed none ∧
      ¬((d.rollAffixes c .drop none (.ofSeed 1)).draft.numberAt c .suffixed : Int) ≤
        l.maxCount .suffixed none := by
  intro content d
  have registered : Catalog.ofContent content = .ok _ := rfl
  refine ⟨_, _, registered, rfl, ?_, ?_⟩
  · exact (rollAffixes_within registered .drop none (.ofSeed 1) rfl rfl rfl .prefixed).2 (by decide)
  · rw [(rollAffixes_within registered .drop none (.ofSeed 1) rfl rfl rfl .suffixed).1]
    decide

/-- A category fills a position that has no room at all. -/
theorem rollAffixes_exceeds :
    let content : Content := {
      rarities := [{ id := ⟨10⟩ }]
      affixes := [{ id := ⟨1⟩, position := .prefixed, categories := [⟨70⟩] }]
      items := [{ id := ⟨100⟩, affixLimits := [{ rarity := ⟨10⟩, categories := [⟨⟨70⟩, 1⟩] }] }] }
    let d : Draft := { item := ⟨100⟩, rarity := ⟨10⟩, level := 1 }
    ∃ c l, Catalog.ofContent content = .ok c ∧ d.limits? c .drop = some l ∧ d.isValid = true ∧
      d.affixes = [] ∧ AffixPosition.isCounted .prefixed = true ∧
      l.maxCount .prefixed (some {}) = 0 ∧
      (d.rollAffixes c .drop (some {}) (.ofSeed 1)).draft.numberAt c .prefixed = 1 := by
  refine ⟨_, _, rfl, rfl, rfl, rfl, rfl, ?_, ?_⟩
  · decide
  · decide

end Draft

end Spoils
