import Spoils.Proofs.Affix.Counts

/-! The affixes of a draft with their scopes, and what the affix operations do to them. Rolling and
copying add keys at the end: each of a registered affix, and none twice unless its affix is
appended. Dropping and hiding take away what an identifier tells. -/
namespace Spoils

namespace Catalog

/-- Keys are added one after the other, each of a registered affix that passes a condition, and
none that is there already unless its affix is appended. -/
inductive Collects (c : Catalog) (fits : Affix → Prop) :
    List (PrototypeId × PrototypeId) → List (PrototypeId × PrototypeId) → Prop where
  | done (keys : List (PrototypeId × PrototypeId)) : Collects c fits keys keys
  | more {keys keys' : List (PrototypeId × PrototypeId)} {key : PrototypeId × PrototypeId}
      {a : Affix} (known : c.affix? key.1 = some a) (fit : fits a)
      (free : key ∉ keys ∨ a.duplicates = .append) (rest : Collects c fits (keys ++ [key]) keys') :
      Collects c fits keys keys'

namespace Collects
variable {c : Catalog} {fits fits' : Affix → Prop}
  {keys keys' keys'' : List (PrototypeId × PrototypeId)} {key : PrototypeId × PrototypeId}

theorem mono (h : c.Collects fits keys keys') (weaker : ∀ a, fits a → fits' a) :
    c.Collects fits' keys keys' := by
  induction h with
  | done keys => exact .done keys
  | more known fit free _ ih => exact .more known (weaker _ fit) free ih

theorem trans (h : c.Collects fits keys keys') (h' : c.Collects fits keys' keys'') :
    c.Collects fits keys keys'' := by
  induction h with
  | done keys => exact h'
  | more known fit free _ ih => exact .more known fit free (ih h')

/-- What was there stays in front. -/
theorem isPrefix (h : c.Collects fits keys keys') : keys <+: keys' := by
  induction h with
  | done keys => exact List.prefix_refl keys
  | more _ _ _ _ ih => exact (List.prefix_append ..).trans ih

theorem mem (h : c.Collects fits keys keys') (carried : key ∈ keys') :
    key ∈ keys ∨ ∃ a, c.affix? key.1 = some a ∧ fits a := by
  induction h with
  | done keys => exact .inl carried
  | more known fit _ _ ih =>
    rcases ih carried with before | came
    · rcases List.mem_append.mp before with before | new
      · exact .inl before
      · rw [List.mem_singleton.mp new]
        exact .inr ⟨_, known, fit⟩
    · exact .inr came

end Collects

variable (c : Catalog)

/-- Whether an affix stays where those that pass a filter are dropped. -/
def withstands (f : AffixFilter) (id : PrototypeId) : Bool :=
  (c.affix? id).all fun p => p.position == .metadata || !f.accepts p

def isUncounted (id : PrototypeId) : Bool := (c.affix? id).all fun p => !p.position.isCounted

def isMetadata (id : PrototypeId) : Bool := (c.affix? id).any fun p => p.position == .metadata

def isVisual (id : PrototypeId) : Bool := (c.affix? id).any fun p => p.position == .visual

end Catalog

/-- The affixes that rolling may put on an item under limits: those of a listed category, and those
at a counted position. -/
def AffixLimits.mayRoll (c : Catalog) (l : AffixLimits) (item : PrototypeId) (a : Affix) : Bool :=
  decide (0 < a.weight) && c.allowsAttachment a item &&
    (l.categories.any (fun e => a.hasCategory e.category) || a.position.isCounted)

theorem AffixLimits.mayRoll_allows {c : Catalog} {l : AffixLimits} {item : PrototypeId} {a : Affix}
    (h : l.mayRoll c item a = true) : c.allowsAttachment a item = true := by
  simp only [mayRoll, Bool.and_eq_true] at h
  exact h.1.2

namespace Draft
variable {c : Catalog} {occasion : Occasion} {s : Option BranchSettings} {l : AffixLimits}
  {pool : List Affix} {d e : Draft}

/-- The affixes with their scopes, in order. -/
def affixKeys (d : Draft) : List (PrototypeId × PrototypeId) := d.affixes.map (·.key)

def metadataKeys (c : Catalog) (d : Draft) : List (PrototypeId × PrototypeId) :=
  d.affixKeys.filter fun key => c.isMetadata key.1

theorem metadataKeys_sublist (c : Catalog) (d : Draft) : (d.metadataKeys c).Sublist d.affixKeys :=
  List.filter_sublist

theorem metadataKeys_of_sublist {c : Catalog} {d e : Draft}
    (stays : (d.metadataKeys c).Sublist e.affixKeys) :
    (d.metadataKeys c).Sublist (e.metadataKeys c) := by
  have again := stays.filter fun key => c.isMetadata key.1
  simp only [metadataKeys, List.filter_filter, Bool.and_self] at again
  exact again

theorem affixIds_eq (d : Draft) : d.affixIds = d.affixKeys.map (·.1) := by
  rw [affixIds, affixKeys, List.map_map]
  rfl

theorem hasAffix_iff {affix scope : PrototypeId} :
    d.hasAffix affix scope = true ↔ (affix, scope) ∈ d.affixKeys := by
  simp only [hasAffix, affixKeys, List.any_eq_true, beq_iff_eq, List.mem_map]

section
variable (index : Catalog.IsIndex c.prototypes)
include index

theorem Puts.collects (h : Puts pool d e) (known : pool ⊆ c.affixes) :
    c.Collects (· ∈ pool) d.affixKeys e.affixKeys := by
  cases h with
  | append a scope seed drawn free =>
    have added : (d.attachAffix a scope seed).affixKeys = d.affixKeys ++ [(a.id, scope)] := by
      simp only [affixKeys, attachAffix, List.map_append, List.map_cons, List.map_nil,
        AttachedAffix.key]
    rw [added]
    refine .more (Catalog.affix?_of_mem index (known drawn)) drawn (free.imp_left ?_) (.done _)
    intro absent present
    rw [hasAffix_iff.mpr present] at absent
    cases absent
  | overwrite a scope seed drawn taken again =>
    have same : ({ d with affixes := reseed (a.id, scope) seed d.affixes } : Draft).affixKeys =
        d.affixKeys := reseed_keys ..
    rw [same]
    exact .done _

theorem PutsUpTo.collects {n : Nat} (h : PutsUpTo pool n d e) (known : pool ⊆ c.affixes) :
    c.Collects (· ∈ pool) d.affixKeys e.affixKeys := by
  induction h with
  | stay n d => exact .done _
  | more first rest ih => exact (first.collects index known).trans ih

theorem rollCount_collects {p : Picker Affix} (known : p.items ⊆ c.affixes) (count : Int)
    (d : Draft) (dice : Dice) :
    c.Collects (· ∈ p.items) d.affixKeys (d.rollCount count p dice).draft.affixKeys :=
  (rollCount_puts count p d dice).collects index known

private theorem fillCategory_collects {entry : CategoryLimit} (listed : entry ∈ l.categories)
    (change : Change) :
    c.Collects (fun a => l.mayRoll c change.draft.item a = true) change.draft.affixKeys
      (fillCategory c s change entry).draft.affixKeys := by
  refine (rollCount_collects index (fun a ha => (mem_pickerFor.mp ha).1) _ _ _).mono fun a ha => ?_
  obtain ⟨-, heavy, passes, allowed⟩ := mem_pickerFor.mp ha
  have category : a.hasCategory entry.category = true := by
    simpa [AffixFilter.accepts, Affix.hasAnyKeyword, Affix.hasAnyCategory] using passes
  rw [AffixLimits.mayRoll, decide_eq_true heavy, allowed,
    List.any_eq_true.mpr ⟨entry, listed, category⟩]
  rfl

private theorem fillPosition_collects {p : AffixPosition} (counted : p.isCounted = true)
    (change : Change) :
    c.Collects (fun a => l.mayRoll c change.draft.item a = true) change.draft.affixKeys
      (fillPosition c s l change p).draft.affixKeys := by
  rcases fillPosition_cases c s l change p with ⟨-, same⟩ | ⟨target, next, -, -, filled⟩
  · rw [same]
    exact .done _
  · rw [filled]
    refine (rollCount_collects index
      (fun a ha => (affixesAt_mem (mem_pickerFor.mp ha).1).1) _ _ _).mono fun a ha => ?_
    obtain ⟨here, heavy, -, allowed⟩ := mem_pickerFor.mp ha
    rw [AffixLimits.mayRoll, decide_eq_true heavy, allowed, (affixesAt_mem here).2, counted,
      Bool.or_true]
    rfl

private theorem fillCategories_collects (d : Draft) (dice : Dice) :
    c.Collects (fun a => l.mayRoll c d.item a = true) d.affixKeys
      (d.fillCategories c s l dice).draft.affixKeys := by
  have fill (es : List CategoryLimit) (listed : es ⊆ l.categories) (change : Change)
      (same : d.SameBody change.draft)
      (before : c.Collects (fun a => l.mayRoll c d.item a = true) d.affixKeys
        change.draft.affixKeys) :
      c.Collects (fun a => l.mayRoll c d.item a = true) d.affixKeys
        (es.foldl (fillCategory c s) change).draft.affixKeys := by
    induction es generalizing change with
    | nil => exact before
    | cons e es ih =>
      have next := fillCategory_collects index (s := s) (listed (.head es)) change
      rw [same.item_eq] at next
      exact ih (fun e he => listed (.tail _ he)) _ (same.trans (rollCount_sameBody ..))
        (before.trans next)
  exact fill l.categories (List.Subset.refl _) ⟨.none, d, dice⟩ (.refl d) (.done _)

private theorem fillPositions_collects (change : Change) :
    c.Collects (fun a => l.mayRoll c change.draft.item a = true) change.draft.affixKeys
      (fillPositions c s l change).draft.affixKeys := by
  have fill (ps : List AffixPosition) (counted : ∀ p ∈ ps, p.isCounted = true)
      (change : Change) :
      c.Collects (fun a => l.mayRoll c change.draft.item a = true) change.draft.affixKeys
        (ps.foldl (fillPosition c s l) change).draft.affixKeys := by
    induction ps generalizing change with
    | nil => exact .done _
    | cons p ps ih =>
      have rest := ih (fun p hp => counted p (.tail _ hp)) (fillPosition c s l change p)
      rw [(fillPosition_sameBody l change p).item_eq] at rest
      exact (fillPosition_collects index (counted p (.head ps)) change).trans rest
  exact fill _ (fun p hp => (List.mem_filter.mp hp).2) change

/-- Rolling leaves the affixes alone, or adds what the limits of a sound draft may roll. -/
theorem rollAffixes_collects (occasion : Occasion) (s : Option BranchSettings) (d : Draft)
    (dice : Dice) :
    (d.rollAffixes c occasion s dice).draft = d ∨
      (d.fault c).error = false ∧ ∃ l, d.limits? c occasion = some l ∧
        c.Collects (fun a => l.mayRoll c d.item a = true) d.affixKeys
          (d.rollAffixes c occasion s dice).draft.affixKeys := by
  rcases rollAffixes_cases c occasion s d dice with ⟨report, same, -⟩ | ⟨sound, l, limited, filled⟩
  · exact .inl (congrArg Change.draft same)
  · have first := fillCategories_collects index (l := l) (s := s) d dice
    have rest := fillPositions_collects index (l := l) (s := s) (d.fillCategories c s l dice)
    rw [(fillCategories_sameBody l d dice).item_eq] at rest
    rw [filled]
    exact .inr ⟨sound, l, limited, first.trans rest⟩

theorem addAffixes_collects (s : BranchSettings) (count : Int) (f : AffixFilter) (d : Draft)
    (dice : Dice) :
    c.Collects (fun a => c.allowsAttachment a d.item = true) d.affixKeys
      (d.addAffixes c occasion s count f dice).draft.affixKeys := by
  rcases addAffixes_cases c occasion s count f d dice with
    ⟨report, same, -⟩ | ⟨pool, rolled, asked, -⟩
  · rw [same]
    exact .done _
  · have known : pool ⊆ c.affixes := by
      rcases asked with ⟨-, rfl⟩ | ⟨-, rfl⟩
      · exact fun a ha => (affixesAt_mem ha).1
      · exact List.Subset.refl _
    rw [rolled]
    exact (rollCount_collects index (fun a ha => known (mem_pickerFor.mp ha).1) _ _ _).mono
      fun a ha => (mem_pickerFor.mp ha).2.2.2

theorem addAffix_collects (s : BranchSettings) (affix : PrototypeId) (d : Draft) (dice : Dice) :
    c.Collects (fun a => c.allowsAttachment a d.item = true) d.affixKeys
      (d.addAffix c occasion s affix dice).draft.affixKeys := by
  rcases addAffix_cases c occasion s affix d dice with
    ⟨report, dice', same, -⟩ | ⟨a, e, dice', added, found, allowed, put⟩
  · rw [same]
    exact .done _
  · have known : [a] ⊆ c.affixes :=
      List.cons_subset.mpr ⟨Catalog.mem_affixes found, List.nil_subset _⟩
    rw [added]
    exact (put.collects index known).mono fun b hb => List.mem_singleton.mp hb ▸ allowed

end

private theorem copyEach_collects (f : AffixFilter) (l : Option AffixLimits)
    (source : List AttachedAffix) (report : MutationReport) (d : Draft) :
    c.Collects (fun a => f.accepts a = true) d.affixKeys
      (copyEach c f l source report d).2.affixKeys := by
  induction source generalizing report d with
  | nil => exact .done _
  | cons copy rest ih =>
    rw [copyEach]
    split
    · exact .done _
    · rename_i a found
      split
      · exact ih report d
      · rename_i accepted
        split
        · exact .done _
        · split
          · split
            · exact ih report d
            all_goals exact .done _
          · rename_i absent
            split
            · exact .done _
            · have next := ih (report.union { affixChange := true })
                { d with affixes := d.affixes ++ [copy] }
              have added : ({ d with affixes := d.affixes ++ [copy] } : Draft).affixKeys =
                  d.affixKeys ++ [copy.key] := List.map_append
              rw [added] at next
              have known : c.affix? copy.key.1 = some a := found
              refine .more known (by simpa using accepted) (.inl ?_) next
              exact fun present => absent (hasAffix_iff.mpr present)

theorem copyAffixes_collects (source : List AttachedAffix) (f : AffixFilter) (enforce : Bool)
    (d : Draft) :
    c.Collects (fun a => f.accepts a = true) d.affixKeys
      (d.copyAffixes c occasion source f enforce).2.affixKeys := by
  rw [copyAffixes]
  repeat' split
  all_goals first | exact .done _ | exact copyEach_collects ..

/-- To take affixes away by their identifiers takes away their keys. -/
theorem keys_filter (spares : PrototypeId → Bool) (as : List AttachedAffix) :
    (as.filter fun a => spares a.affix).map (·.key) =
      (as.map (·.key)).filter fun key => spares key.1 := by
  rw [List.filter_map]
  rfl

theorem dropAffixes_keys (c : Catalog) (f : AffixFilter) (d : Draft) :
    (d.dropAffixes c f).2.affixKeys = d.affixKeys.filter fun key => c.withstands f key.1 :=
  keys_filter (c.withstands f) d.affixes

theorem uncounted_keys (c : Catalog) (as : List AttachedAffix) :
    (AttachedAffix.uncounted c as).map (·.key) =
      (as.map (·.key)).filter fun key => c.isUncounted key.1 :=
  keys_filter c.isUncounted as

/-- Hiding visuals does nothing where it has been done or cannot be done. Otherwise the visual
affixes go and the affix that hides them comes. -/
theorem hideVisuals_keys (c : Catalog) (d : Draft) :
    (d.hideVisuals c).2 = d ∨
      c.noVisualsAffix.isValid = true ∧ c.noVisualsAffix ∉ d.affixIds ∧
        (d.hideVisuals c).2.affixKeys =
          (d.affixKeys.filter fun key => !c.isVisual key.1) ++ [(c.noVisualsAffix, .none)] := by
  rw [hideVisuals]
  split
  · exact .inl rfl
  · rename_i missing
    simp only [Bool.or_eq_true, Bool.not_eq_true', not_or, Bool.not_eq_false] at missing
    obtain ⟨valid, absent⟩ := missing
    refine .inr ⟨valid, fun present => absent ?_, ?_⟩
    · obtain ⟨a, carried, same⟩ := List.mem_map.mp present
      exact List.any_eq_true.mpr ⟨a, carried, beq_iff_eq.mpr same⟩
    · have visual (id : PrototypeId) :
          ((c.affix? id).all fun p => p.position != .visual) = !c.isVisual id := by
        rw [Catalog.isVisual]
        cases c.affix? id <;> rfl
      have kept := keys_filter (fun id => !c.isVisual id) d.affixes
      simp only [visual, affixKeys, List.map_append, kept]
      rfl

end Draft

end Spoils
