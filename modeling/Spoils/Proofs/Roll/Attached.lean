import Spoils.Proofs.Mutation.Affixes
import Spoils.Proofs.Roll.Granted

/-! Affixes that may be on some items only: rolling and adding look at the item, but copies, hidden
visuals and a change of the item do not. -/
namespace Spoils

namespace Catalog
variable {c : Catalog} {item : PrototypeId} {keys keys' : List (PrototypeId × PrototypeId)}

/-- All registered affixes among keys may be on an item. -/
def Attaches (c : Catalog) (item : PrototypeId) (keys : List (PrototypeId × PrototypeId)) : Prop :=
  ∀ key ∈ keys, ∀ a, c.affix? key.1 = some a → c.allowsAttachment a item = true

theorem allowsAttachment_of_free {a : Affix} (free : a.typeFilters = []) (item : PrototypeId) :
    c.allowsAttachment a item = true := by
  rw [allowsAttachment, free]
  rfl

namespace Attaches

theorem subset (h : c.Attaches item keys) (fewer : keys' ⊆ keys) : c.Attaches item keys' :=
  fun key stands => h key (fewer stands)

theorem collects (h : c.Attaches item keys) {takes : Affix → Prop}
    (collected : c.Collects takes keys keys')
    (allowed : ∀ a ∈ c.affixes, takes a → c.allowsAttachment a item = true) :
    c.Attaches item keys' := by
  intro key stands a found
  rcases collected.mem stands with before | ⟨b, known, taken⟩
  · exact h key before a found
  · cases known.symm.trans found
    exact allowed a (mem_affixes found) taken

end Attaches

end Catalog

/-- Every affix of the draft may be on its item. -/
def Draft.Fits (c : Catalog) (d : Draft) : Prop := c.Attaches d.item d.affixKeys

/-- A mutation moves no affix that may be on some items only. What it copies may be on every item,
as may the affix with which it hides visuals, and it changes the item only where every affix may be on
every item. -/
structure Mutation.RespectsFilters (c : Catalog) (m : Mutation) : Prop where
  stays : m.swapsItem = true → ∀ a ∈ c.affixes, a.typeFilters = []
  brings : ∀ item, ∀ a ∈ c.affixes, m.brings c item a = true → c.allowsAttachment a item = true
  hides : m = .noVisuals → ∀ a ∈ c.affixes, a.id = c.noVisualsAffix → a.typeFilters = []

/-- A copy respects filters if its own lets only affixes pass that may be on every item. -/
theorem Mutation.respectsFilters_cloneAffixes {c : Catalog} {source : Int} {f : AffixFilter}
    {enforce : Bool} (free : ∀ a ∈ c.affixes, f.accepts a = true → a.typeFilters = []) :
    (Mutation.cloneAffixes source f enforce).RespectsFilters c where
  stays swaps := by cases swaps
  brings item a known passes := Catalog.allowsAttachment_of_free (free a known passes) item
  hides other := by cases other

namespace Draft
variable {c : Catalog} {d : Draft}

private theorem fits_of_bare (bare : d.affixes = []) : d.Fits c := by
  intro key stands
  rw [affixKeys, bare] at stands
  cases stands

namespace Fits

theorem rollAffixes (index : Catalog.IsIndex c.prototypes) (h : d.Fits c) (occasion : Occasion)
    (s : Option BranchSettings) (dice : Dice) : (d.rollAffixes c occasion s dice).draft.Fits c := by
  rcases rollAffixes_collects index occasion s d dice with same | ⟨-, l, -, collected⟩
  · rwa [same]
  · rw [Fits, (rollAffixes_sameBody d dice).item_eq]
    exact Catalog.Attaches.collects h collected fun a _ rolls => AffixLimits.mayRoll_allows rolls

theorem hideVisuals (index : Catalog.IsIndex c.prototypes) (h : d.Fits c)
    (free : ∀ a ∈ c.affixes, a.id = c.noVisualsAffix → a.typeFilters = []) :
    (d.hideVisuals c).2.Fits c := by
  rcases hideVisuals_keys c d with same | ⟨-, -, keys⟩
  · rwa [same]
  · rw [Fits, keys, (hideVisuals_sameBody d).item_eq]
    intro key stands a found
    rcases List.mem_append.mp stands with kept | new
    · exact h key (List.mem_filter.mp kept).1 a found
    · rw [List.mem_singleton.mp new] at found
      have named := Catalog.id_of_affix? index found
      exact Catalog.allowsAttachment_of_free (free a (Catalog.mem_affixes found) named) _

end Fits

end Draft

theorem Mutation.Alters.fits {k : Workshop} {m : Mutation} {d : Draft} {x : Change}
    (h : m.Alters k d x) (index : Catalog.IsIndex k.catalog.prototypes)
    (respects : m.RespectsFilters k.catalog) (before : d.Fits k.catalog) :
    x.draft.Fits k.catalog := by
  cases h with
  | ignored keys item => rwa [Draft.Fits, keys, item]
  | settled keys item =>
    cases swaps : m.swapsItem with
    | false => rwa [Draft.Fits, keys, item swaps]
    | true =>
      intro key stands a found
      exact Catalog.allowsAttachment_of_free (respects.stays swaps a (Catalog.mem_affixes found)) _
  | gathered keys item =>
    rw [Draft.Fits, item]
    exact (before.subset List.filter_sublist.subset).collects keys (respects.brings d.item)
  | hidden hides draft =>
    rw [draft]
    exact before.hideVisuals index (respects.hides hides)
  | rerolled e dice rolls keys item sound draft =>
    have stripped : e.Fits k.catalog := by
      rw [Draft.Fits, keys, item]
      exact before.subset List.filter_sublist.subset
    rw [draft]
    exact stripped.rollAffixes index _ _ dice

theorem World.fits_invariant (w : World) (index : Catalog.IsIndex w.catalog.prototypes) :
    Draft.Invariant w (·.Fits w.catalog) (·.RespectsFilters w.catalog) where
  queued _ new _ := Draft.fits_of_bare new.affixes
  rolled s _ dice _ h := h.rollAffixes index w.occasion s dice
  mutated granted s m d dice respects _ h clean :=
    (Mutation.apply_alters (k := ⟨w, granted, s⟩) index m d dice clean).fits index respects h
  copied _ h := h

namespace LootNode

/-- Where neither the tree nor a table of the catalog moves affixes that may be on some items only,
every affix of a granted item may be on it. -/
theorem roll_fits {content : Content} {w : World}
    (registered : Catalog.ofContent content = .ok w.catalog) (n : LootNode)
    (applies : n.Applies (·.RespectsFilters w.catalog))
    (tables : ∀ t ∈ w.catalog.lootTables, t.root.Applies (·.RespectsFilters w.catalog))
    {q : Request} (same : q.world = w) : ∀ d ∈ (n.roll q).drafts, d.Fits w.catalog :=
  (w.fits_invariant (Catalog.ofContent_isIndex registered)).roll_of n same applies
    fun _ t found => tables t (Catalog.mem_lootTables found)

/-- A copy of the affixes of one category leaves that with a filter on the item it fits. -/
theorem roll_fits_copied :
    let content : Content := {
      rarities := [{ id := ⟨10⟩, weightCurve := ⟨5⟩ }]
      curves := [{ id := ⟨5⟩, min := 1, max := 1, values := [1] }]
      affixes := [
        { id := ⟨1⟩, position := .prefixed, categories := [⟨70⟩], typeFilters := [⟨50⟩] },
        { id := ⟨2⟩, position := .suffixed, categories := [⟨71⟩] }]
      items := [
        { id := ⟨100⟩
          parent := ⟨50⟩
          affixLimits := [{ rarity := ⟨10⟩, categories := [⟨⟨70⟩, 1⟩, ⟨⟨71⟩, 1⟩] }] },
        { id := ⟨200⟩ }] }
    let copies : Mutation := .cloneAffixes 0 { categories := [⟨71⟩] } false
    let n : LootNode := .table {} { method := .every }
      [.drop {} (.item ⟨100⟩ {} []), .drop {} (.item ⟨200⟩ {} [copies])]
    ∃ c, Catalog.ofContent content = .ok c ∧
      (n.roll { world := { catalog := c }, seed := 1 }).drafts.map (·.affixIds) =
        [[⟨1⟩, ⟨2⟩], [⟨2⟩]] ∧
      ∀ d ∈ (n.roll { world := { catalog := c }, seed := 1 }).drafts, d.Fits c := by
  intro content copies n
  have fits {c : Catalog} (registered : Catalog.ofContent content = .ok c)
      (bare : c.lootTables = [])
      (free : ∀ a ∈ c.affixes, ({ categories := [⟨71⟩] } : AffixFilter).accepts a = true →
        a.typeFilters = []) :
      ∀ d ∈ (n.roll { world := { catalog := c }, seed := 1 }).drafts, d.Fits c := by
    have respects : copies.RespectsFilters c := Mutation.respectsFilters_cloneAffixes free
    have applies : n.Applies (·.RespectsFilters c) := by
      intro m hm x hx
      have only : x = copies := by
        simp only [n, nodes, nodesOfAll, List.mem_cons, List.append_nil, List.cons_append,
          List.nil_append, List.not_mem_nil, or_false] at hm
        rcases hm with rfl | rfl | rfl
        · cases hx
        · cases hx
        · exact List.mem_singleton.mp hx
      exact only ▸ respects
    exact roll_fits (w := { catalog := c }) registered n applies
      (fun t listed => by simp [bare] at listed) rfl
  have registered : Catalog.ofContent content = .ok _ := rfl
  refine ⟨_, registered, ?rolled, fits registered ?bare ?free⟩
  case rolled => decide +kernel
  case bare => rfl
  case free => decide +kernel

/-- A copy puts an affix on an item that its filter refuses. -/
theorem roll_fits_refused :
    let content : Content := {
      rarities := [{ id := ⟨10⟩, weightCurve := ⟨5⟩ }]
      curves := [{ id := ⟨5⟩, min := 1, max := 1, values := [1] }]
      prototypes := [{ id := ⟨50⟩, kind := .other }]
      affixes := [{ id := ⟨1⟩, position := .prefixed, categories := [⟨70⟩], typeFilters := [⟨50⟩] }]
      items := [
        { id := ⟨100⟩
          parent := ⟨50⟩
          affixLimits := [{ rarity := ⟨10⟩, categories := [⟨⟨70⟩, 1⟩] }] },
        { id := ⟨200⟩ }] }
    let n : LootNode := .table {} { method := .every }
      [.drop {} (.item ⟨100⟩ {} []), .drop {} (.item ⟨200⟩ {} [.cloneAffixes 0 {} false])]
    ∃ c a, Catalog.ofContent content = .ok c ∧ c.affix? ⟨1⟩ = some a ∧
      ∃ d ∈ (n.roll { world := { catalog := c }, seed := 1 }).drafts,
        ⟨1⟩ ∈ d.affixIds ∧ c.allowsAttachment a d.item = false := by
  refine ⟨_, _, rfl, rfl, ?_⟩
  decide +kernel

end LootNode

end Spoils
