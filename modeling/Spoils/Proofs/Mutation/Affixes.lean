import Mathlib.Data.List.Basic
import Spoils.Proofs.Affix.Keys
import Spoils.Proofs.Mutation.Reports

/-! What mutations do to the affixes of a draft: which ones they take off, which ones they put on,
and when they make sure that the draft is sound. -/
namespace Spoils

/-- The seed of an affix is not part of its key. -/
theorem AttachedAffix.key_reseeded (a : AttachedAffix) (seed : Nat) :
    ({ a with seed := seed } : AttachedAffix).key = a.key := rfl

namespace Mutation

/-- Whether a mutation may move a draft to another item. -/
def swapsItem : Mutation → Bool
  | .rank _ | .slot _ => true
  | _ => false

/-- Whether a mutation takes the counted affixes off to roll them again. -/
def rerollsAffixes : Mutation → Bool
  | .rarity affixes => affixes
  | _ => false

/-- Whether a mutation leaves an affix on. -/
def spares (c : Catalog) : Mutation → PrototypeId → Bool
  | .dropAffixes f, id | .replaceAffixes _ f _, id => c.withstands f id
  | .rarity true, id => c.isUncounted id
  | .noVisuals, id => !c.isVisual id
  | _, _ => true

/-- Whether a mutation that gathers affixes may put one on an item. Copies look at their filter
only. -/
def brings (c : Catalog) (item : PrototypeId) : Mutation → Affix → Bool
  | .addAffixes _ _, a | .addAffix _, a => c.allowsAttachment a item
  | .cloneAffixes _ f _, a | .cloneBuiltinAffixes _ f _, a | .replaceAffixes _ f _, a => f.accepts a
  | _, _ => false

/-- The ways of a mutation without an error with the affixes of a draft. -/
inductive Alters (k : Workshop) (m : Mutation) (d : Draft) (x : Change) : Prop where
  /-- It does not look at them. -/
  | ignored (keys : x.draft.affixKeys = d.affixKeys) (item : x.draft.item = d.item)
      (rarity : x.draft.rarity = d.rarity)
  /-- It finds them sound on what has become of the draft, maybe another item. -/
  | settled (keys : x.draft.affixKeys = d.affixKeys)
      (item : m.swapsItem = false → x.draft.item = d.item)
      (sound : x.draft.fault k.catalog = .none)
  /-- It takes some off and puts some on, and finds the result sound. -/
  | gathered (keys : k.catalog.Collects (fun a => m.brings k.catalog d.item a = true)
      (d.affixKeys.filter fun key => m.spares k.catalog key.1) x.draft.affixKeys)
      (item : x.draft.item = d.item) (sound : x.draft.fault k.catalog = .none)
      (keeps : m.rerollsAffixes = false)
  /-- It hides the visual ones. -/
  | hidden (hides : m = .noVisuals) (draft : x.draft = (d.hideVisuals k.catalog).2)
  /-- It rolls the counted ones again, and does not look at the result. -/
  | rerolled (e : Draft) (dice : Dice) (rolls : m = .rarity true)
      (keys : e.affixKeys = d.affixKeys.filter fun key => m.spares k.catalog key.1)
      (item : e.item = d.item) (sound : e.fault k.catalog = .none)
      (draft : x.draft =
        (e.rollAffixes k.catalog k.world.occasion (some k.settings) dice).draft)
      (changed : x.report.changed = true)

theorem Alters.reseeded {k : Workshop} {m : Mutation} (r : MutationReport) (d : Draft) (seed : Nat)
    (dice : Dice) : m.Alters k d ⟨r, { d with seed := seed }, dice⟩ :=
  .ignored rfl rfl rfl

theorem Alters.also {k : Workshop} {m : Mutation} {d : Draft} {x : Change} (h : m.Alters k d x)
    (r : MutationReport) : m.Alters k d (x.also r) := by
  cases h with
  | ignored keys item rarity => exact .ignored keys item rarity
  | settled keys item sound => exact .settled keys item sound
  | gathered keys item sound keeps => exact .gathered keys item sound keeps
  | hidden hides draft => exact .hidden hides draft
  | rerolled e dice rolls keys item sound draft changed =>
    exact .rerolled e dice rolls keys item sound draft (Bool.or_eq_true_iff.mpr (.inl changed))

end Mutation

namespace Draft
variable {c : Catalog} {d e : Draft}

theorem affixKeys_eq (same : e.affixes = d.affixes) : e.affixKeys = d.affixKeys :=
  congrArg (List.map _) same

theorem rollAffixes_sound {occasion : Occasion} {s : Option BranchSettings} {dice : Dice}
    (clean : (d.rollAffixes c occasion s dice).report.error = false) : d.fault c = .none :=
  fault_clean (fault_of_rollAffixes clean)

end Draft

namespace Workshop
open Mutation
variable {k : Workshop} {m : Mutation} {d e : Draft} {dice : Dice}

private theorem settled_keys (clean : (k.settled d dice).report.error = false) :
    (k.settled d dice).draft.affixKeys = d.affixKeys ∧
      (k.settled d dice).draft.item = d.item ∧
      (k.settled d dice).draft.fault k.catalog = .none := by
  have adjusts := k.settled_adjusts d dice
  refine ⟨Draft.affixKeys_eq adjusts.affixes_eq, adjusts.item_eq, ?_⟩
  obtain ⟨e, -, sound, settles⟩ := settled_cases clean
  rw [settles]
  exact sound

/-- What moves to a level may differ from the draft already, but not in what affixes depend on. -/
private theorem setLevel_alters {level : Int} (keys : e.affixKeys = d.affixKeys)
    (item : e.item = d.item) (rarity : e.rarity = d.rarity)
    (clean : (k.setLevel level e dice).report.error = false) :
    m.Alters k d (k.setLevel level e dice) := by
  rcases k.setLevel_cases level e dice with same | moved
  · rw [same]
    exact .ignored keys item rarity
  · rw [moved] at clean ⊢
    obtain ⟨kept, stays, sound⟩ := settled_keys (Bool.or_eq_false_iff.mp clean).1
    exact .settled (kept.trans keys) (fun _ => stays.trans item) sound

private theorem evaluate_alters {formula : Formula}
    (clean : (k.evaluate formula d dice).report.error = false) :
    m.Alters k d (k.evaluate formula d dice) := by
  obtain ⟨p, dice', stays | ⟨level, moved⟩⟩ := evaluate_cases clean
  · rw [stays]
    exact .ignored rfl rfl rfl
  · have same : ({ d with properties := p } : Draft).affixKeys = d.affixKeys := rfl
    rw [moved] at clean ⊢
    exact (setLevel_alters same rfl rfl (Bool.or_eq_false_iff.mp clean).1).also _

private theorem become_alters {item : Item} (swaps : m.swapsItem = true)
    (keys : e.affixKeys = d.affixKeys)
    (clean : (k.become item e d dice).report.error = false) :
    m.Alters k d (k.become item e d dice) := by
  obtain ⟨candidate, adjusted, became⟩ := become_cases clean
  have adjusts := k.world.adjust_adjusts { level := true }
    { e with item := item.id, slot := item.slot }
  rw [adjusted] at adjusts
  rw [became] at clean ⊢
  obtain ⟨kept, -, sound⟩ := settled_keys (Bool.or_eq_false_iff.mp clean).1
  have whole := kept.trans ((Draft.affixKeys_eq adjusts.affixes_eq).trans keys)
  exact .settled whole (fun stays => Bool.noConfusion (swaps.symm.trans stays)) sound

private theorem setRank_alters {rank : Int} (clean : (k.setRank rank d dice).report.error = false) :
    Alters k (.rank rank) d (k.setRank rank d dice) := by
  rcases setRank_cases clean with same | ⟨item, dice', became⟩
  · rw [same]
    exact .ignored rfl rfl rfl
  · rw [became] at clean ⊢
    exact become_alters rfl rfl clean

private theorem setSlot_alters {slot : EquipmentSlot}
    (clean : (k.setSlot slot d dice).report.error = false) :
    Alters k (.slot slot) d (k.setSlot slot d dice) := by
  rcases setSlot_cases clean with same | ⟨item, dice', became⟩
  · rw [same]
    exact .ignored rfl rfl rfl
  · rw [became] at clean ⊢
    exact become_alters rfl rfl clean

private theorem rerollRarity_alters {affixes : Bool}
    (clean : (k.rerollRarity affixes d dice).report.error = false) :
    Alters k (.rarity affixes) d (k.rerollRarity affixes d dice) := by
  rcases rerollRarity_cases clean with ⟨dice', same⟩ | ⟨rarity, e, dice', adjusted, sound, rolled⟩
  · rw [same]
    exact .ignored rfl rfl rfl
  · have adjusts := k.world.adjust_adjusts d.checks { d with rarity := rarity }
    rw [adjusted] at adjusts
    rw [rolled] at clean ⊢
    cases affixes with
    | false =>
      exact .settled (Draft.affixKeys_eq adjusts.affixes_eq) (fun _ => adjusts.item_eq) (sound rfl)
    | true =>
      have same : e.affixKeys = d.affixKeys := Draft.affixKeys_eq adjusts.affixes_eq
      have stripped : ({ e with affixes := AttachedAffix.uncounted k.catalog e.affixes }
          : Draft).affixKeys = d.affixKeys.filter fun key => k.catalog.isUncounted key.1 := by
        rw [← same]
        exact Draft.uncounted_keys k.catalog e.affixes
      rw [if_pos rfl] at clean ⊢
      have rolls := (Bool.or_eq_false_iff.mp clean).1
      exact .rerolled _ dice' rfl stripped adjusts.item_eq (Draft.rollAffixes_sound rolls) rfl
        (Bool.or_true _)

private theorem reseedEach_keys (k : Workshop) (f : AffixFilter) (affixes : List AttachedAffix)
    (dice : Dice) :
    (k.reseedEach f affixes dice).2.1.map (·.key) = affixes.map (·.key) := by
  induction affixes generalizing dice with
  | nil => rfl
  | cons a as ih =>
    rcases known : k.catalog.affix? a.affix with _ | p
    · simp only [reseedEach, known]
    · by_cases skipped : (p.position == .metadata || !f.accepts p) = true
      · simp only [reseedEach, known, if_pos skipped, List.map_cons, ih]
      · have fresh : (k.reseedEach f (a :: as) dice).2.1 =
            { a with seed := dice.seed.1 } :: (k.reseedEach f as dice.seed.2).2.1 := by
          simp only [reseedEach, known, if_neg skipped]
        -- The drawn seed is rewritten away: to compare it with the old one would draw it.
        rw [fresh, List.map_cons, List.map_cons, AttachedAffix.key_reseeded, ih]

private theorem reseed_alters (f : AffixFilter) : m.Alters k d (k.reseed f d dice) := by
  refine .ignored ?_ ?_ ?_ <;> rw [reseed_draft]
  exact reseedEach_keys k f d.affixes dice

private theorem validated_alters {x : Change} (body : d.SameBody x.draft)
    (keys : k.catalog.Collects (fun a => m.brings k.catalog d.item a = true)
      (d.affixKeys.filter fun key => m.spares k.catalog key.1) x.draft.affixKeys)
    (clean : (k.validated x).report.error = false) (keeps : m.rerollsAffixes = false) :
    m.Alters k d (k.validated x) := by
  have sound := validated_sound clean
  rw [← validated_draft k x] at sound keys body
  exact .gathered keys body.item_eq sound keeps

end Workshop

namespace Mutation
variable {k : Workshop}

/-- A mutation without an error goes one of the ways with the affixes. -/
theorem apply_alters (index : Catalog.IsIndex k.catalog.prototypes) (m : Mutation) (d : Draft)
    (dice : Dice) (clean : (m.apply k d dice).report.error = false) :
    m.Alters k d (m.apply k d dice) := by
  have all_spared (m : Mutation) (spared : ∀ id, m.spares k.catalog id = true) :
      d.affixKeys = d.affixKeys.filter fun key => m.spares k.catalog key.1 :=
    (List.filter_eq_self.mpr fun key _ => spared key.1).symm
  cases m with
  | addAffixes count filter =>
    refine Workshop.validated_alters (Draft.addAffixes_sameBody ..) ?_ clean rfl
    rw [← all_spared _ fun _ => rfl]
    exact Draft.addAffixes_collects index ..
  | addAffix affix =>
    refine Workshop.validated_alters (Draft.addAffix_sameBody ..) ?_ clean rfl
    rw [← all_spared _ fun _ => rfl]
    exact Draft.addAffix_collects index ..
  | noVisuals => exact .hidden rfl rfl
  | clampLevel lo hi => exact Workshop.setLevel_alters rfl rfl rfl clean
  | cloneAffixes position filter enforce =>
    obtain ⟨s, -, copied⟩ := cloneAffixes_cases clean
    rw [copied] at clean ⊢
    refine Workshop.validated_alters (Draft.copyAffixes_sameBody ..) ?_ clean rfl
    rw [← all_spared _ fun _ => rfl]
    exact Draft.copyAffixes_collects ..
  | cloneBuiltinAffixes position filter enforce =>
    obtain ⟨s, item, -, -, copied⟩ := cloneBuiltinAffixes_cases clean
    rw [copied] at clean ⊢
    refine Workshop.validated_alters (Draft.copyAffixes_sameBody ..) ?_ clean rfl
    rw [← all_spared _ fun _ => rfl]
    exact Draft.copyAffixes_collects ..
  | cloneLevel position =>
    obtain ⟨s, -, moved⟩ := cloneLevel_cases clean
    rw [moved] at clean ⊢
    exact Workshop.setLevel_alters rfl rfl rfl clean
  | cloneSeed position =>
    obtain ⟨s, -, reseeded⟩ := cloneSeed_cases clean
    rw [reseeded]
    exact .reseeded ..
  | dropAffixes filter =>
    have dropped := Draft.dropAffixes_keys k.catalog filter d
    refine Workshop.validated_alters rfl ?_ clean rfl
    exact dropped ▸ .done _
  | eval formula => exact Workshop.evaluate_alters clean
  | binding change =>
    obtain ⟨owner, binding, checks, rebound, -⟩ := Draft.rebind_draft change d dice
    simp only [apply]
    refine .ignored ?_ ?_ ?_ <;> rw [rebound]
    rfl
  | level => exact Workshop.setLevel_alters rfl rfl rfl clean
  | rank rank => exact Workshop.setRank_alters clean
  | rarity affixes => exact Workshop.rerollRarity_alters clean
  | slot slot => exact Workshop.setSlot_alters clean
  | affixSeed filter => exact Workshop.reseed_alters filter
  | builtinSeed => exact .reseeded ..
  | offsetLevel offset => exact Workshop.setLevel_alters rfl rfl rfl clean
  | replaceAffixes position filter enforce =>
    obtain ⟨s, -, replaced⟩ := replaceAffixes_cases clean
    rw [replaced] at clean ⊢
    have dropped : d.SameBody (d.dropAffixes k.catalog filter).2 := rfl
    refine Workshop.validated_alters (dropped.trans (Draft.copyAffixes_sameBody ..)) ?_ clean rfl
    have kept := Draft.dropAffixes_keys k.catalog filter d
    exact kept ▸ Draft.copyAffixes_collects ..

/-- Mutations that do not roll affixes again leave metadata on. -/
theorem spares_of_isMetadata {c : Catalog} {m : Mutation} (keeps : m.rerollsAffixes = false)
    {id : PrototypeId} (h : c.isMetadata id = true) : m.spares c id = true := by
  rw [Catalog.isMetadata] at h
  cases found : c.affix? id with
  | none => rw [found] at h; cases h
  | some a =>
    rw [found, Option.any_some] at h
    have withstands (f : AffixFilter) : c.withstands f id = true := by
      rw [Catalog.withstands, found, Option.all_some, h, Bool.true_or]
    cases m with
    | dropAffixes f => exact withstands f
    | replaceAffixes _ f _ => exact withstands f
    | rarity affixes =>
      cases affixes with
      | false => rfl
      | true => cases keeps
    | noVisuals =>
      rw [spares, Catalog.isVisual, found, Option.any_some, eq_of_beq h]
      rfl
    | _ => rfl

/-- Metadata stays on a draft in order, or its rarity changed and affixes were rolled again. -/
theorem Alters.metadata {m : Mutation} {d : Draft} {x : Change} (h : m.Alters k d x) :
    (d.metadataKeys k.catalog).Sublist x.draft.affixKeys ∨
      m = .rarity true ∧ x.report.changed = true := by
  have spared (keeps : m.rerollsAffixes = false) : (d.metadataKeys k.catalog).Sublist
      (d.affixKeys.filter fun key => m.spares k.catalog key.1) :=
    List.monotone_filter_right _ fun key => spares_of_isMetadata keeps
  cases h with
  | ignored keys => exact .inl (keys ▸ d.metadataKeys_sublist k.catalog)
  | settled keys => exact .inl (keys ▸ d.metadataKeys_sublist k.catalog)
  | gathered keys _ _ keeps => exact .inl ((spared keeps).trans keys.isPrefix.sublist)
  | hidden hides draft =>
    have kept := spared (hides ▸ rfl)
    rw [draft]
    rcases Draft.hideVisuals_keys k.catalog d with same | ⟨-, -, keys⟩
    · rw [same]
      exact .inl (d.metadataKeys_sublist k.catalog)
    · rw [keys]
      rw [hides] at kept
      exact .inl (kept.trans (List.sublist_append_left ..))
  | rerolled e dice rolls keys item sound draft changed => exact .inr ⟨rolls, changed⟩

/-- Mutations without an error leave all metadata on the draft, in order, unless a rarity changed
and affixes were rolled again. -/
theorem applyAll_metadata (index : Catalog.IsIndex k.catalog.prototypes) (ms : List Mutation)
    (d : Draft) (dice : Dice) (clean : (applyAll k ms d dice).2.report.error = false) :
    (d.metadataKeys k.catalog).Sublist (applyAll k ms d dice).2.draft.affixKeys ∨
      .rarity true ∈ ms ∧ (applyAll k ms d dice).2.report.changed = true := by
  rw [applyAll_eq] at clean ⊢
  have next (m : Mutation) (hm : m ∈ ms) (c : Change)
      (hc : (d.metadataKeys k.catalog).Sublist c.draft.affixKeys ∨
        .rarity true ∈ ms ∧ c.report.changed = true)
      (passed : (apply k m c.draft c.dice).report.error = false) :
      (d.metadataKeys k.catalog).Sublist (applyNext k m c).draft.affixKeys ∨
        .rarity true ∈ ms ∧ (applyNext k m c).report.changed = true := by
    rcases hc with stays | ⟨listed, changed⟩
    · rcases (apply_alters index m c.draft c.dice passed).metadata with kept | ⟨rolls, changed⟩
      · exact .inl ((Draft.metadataKeys_of_sublist stays).trans kept)
      · exact .inr ⟨rolls ▸ hm, Bool.or_eq_true_iff.mpr (.inl changed)⟩
    · exact .inr ⟨listed, Bool.or_eq_true_iff.mpr (.inr changed)⟩
  have run := applyEach_carries k _ ms next ⟨.none, d, dice⟩
    (.inl (d.metadataKeys_sublist k.catalog)) clean
  simp only at clean ⊢
  rwa [if_neg (by rw [clean]; decide)]

end Mutation

namespace Roll

/-- Mutations without an error leave all metadata on the draft, in order. One of them may not: when
a new rarity rolls affixes again, metadata counts as one of those to take off. -/
theorem mutate_metadata {content : Content} {w : World}
    (registered : Catalog.ofContent content = .ok w.catalog) (s : BranchSettings)
    (ms : List Mutation) (d : Draft) (r : Roll) (clean : (r.mutate w s ms d).report.error = false) :
    (d.metadataKeys w.catalog).Sublist (r.mutate w s ms d).draft.affixKeys ∨
      .rarity true ∈ ms ∧ (r.mutate w s ms d).report.changed = true :=
  Mutation.applyAll_metadata (k := r.workshop w s) (Catalog.ofContent_isIndex registered) ms d
    r.dice clean

/-- The prefix is taken off, the metadata beside it is not. -/
theorem mutate_metadata_dropped :
    let content : Content := {
      affixes := [{ id := ⟨1⟩, position := .metadata }, { id := ⟨2⟩, position := .prefixed }]
      items := [{ id := ⟨100⟩ }] }
    let d : Draft := {
      item := ⟨100⟩, rarity := ⟨10⟩, level := 1, affixes := [{ affix := ⟨1⟩ }, { affix := ⟨2⟩ }] }
    ∃ c, Catalog.ofContent content = .ok c ∧
      ((start 1).mutate { catalog := c } {} [.dropAffixes {}] d).report.error = false ∧
      ((start 1).mutate { catalog := c } {} [.dropAffixes {}] d).report.affixChange = true ∧
      (d.metadataKeys c).Sublist
        ((start 1).mutate { catalog := c } {} [.dropAffixes {}] d).draft.affixKeys := by
  intro content d
  have stays {c : Catalog} (registered : Catalog.ofContent content = .ok c)
      (clean : ((start 1).mutate { catalog := c } {} [.dropAffixes {}] d).report.error = false) :
      (d.metadataKeys c).Sublist
        ((start 1).mutate { catalog := c } {} [.dropAffixes {}] d).draft.affixKeys := by
    rcases mutate_metadata (w := { catalog := c }) registered {} [.dropAffixes {}] d (start 1) clean
      with kept | ⟨again, -⟩
    · exact kept
    · simp at again
  have registered : Catalog.ofContent content = .ok _ := rfl
  refine ⟨_, registered, ?clean, ?taken, stays registered ?clean⟩
  case clean => decide +kernel
  case taken => decide +kernel

/-- A new rarity takes metadata off, and no error is reported. -/
theorem mutate_metadata_stripped :
    let content : Content := {
      rarities := [{ id := ⟨10⟩ }, { id := ⟨12⟩, weightCurve := ⟨5⟩ }]
      curves := [{ id := ⟨5⟩, min := 1, max := 1, values := [1] }]
      affixes := [{ id := ⟨1⟩, position := .metadata }]
      items := [{ id := ⟨100⟩ }] }
    let d : Draft := {
      item := ⟨100⟩, rarity := ⟨10⟩, level := 1, affixes := [{ affix := ⟨1⟩, seed := 7 }] }
    ∃ c, Catalog.ofContent content = .ok c ∧ c.isMetadata ⟨1⟩ = true ∧
      ((start 1).mutate { catalog := c } { level := 1 } [.rarity true] d).report.error = false ∧
      ((start 1).mutate { catalog := c } { level := 1 } [.rarity true] d).draft.affixes = [] := by
  refine ⟨_, rfl, ?_⟩
  decide +kernel

end Roll

end Spoils
