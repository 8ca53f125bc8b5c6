import Spoils.Proofs.Mutation.Affixes
import Spoils.Proofs.Roll.Granted

/-! No item has an affix twice with one scope, unless copies of the affix are appended. -/
namespace Spoils

namespace Catalog
variable {c : Catalog} {keys keys' : List (PrototypeId × PrototypeId)}

/-- No key comes twice, unless its affix is one whose copies are appended. -/
def Distinct (c : Catalog) (keys : List (PrototypeId × PrototypeId)) : Prop :=
  ∀ key, keys.count key ≤ 1 ∨ ∃ a, c.affix? key.1 = some a ∧ a.duplicates = .append

namespace Distinct

theorem sublist (h : c.Distinct keys) (sub : keys'.Sublist keys) : c.Distinct keys' :=
  fun key => (h key).imp_left (Nat.le_trans (sub.count_le key))

theorem append (h : c.Distinct keys) {key : PrototypeId × PrototypeId}
    (free : key ∉ keys ∨ ∃ a, c.affix? key.1 = some a ∧ a.duplicates = .append) :
    c.Distinct (keys ++ [key]) := by
  intro other
  by_cases same : key = other
  · subst same
    refine free.imp_left fun absent => ?_
    have once : (keys ++ [key]).count key = 1 := by
      rw [List.count_append, List.count_eq_zero_of_not_mem absent, List.count_singleton_self]
    exact Nat.le_of_eq once
  · have apart : [key].count other = 0 := List.count_singleton.trans (if_neg (by simpa using same))
    rw [List.count_append, apart, Nat.add_zero]
    exact h other

end Distinct

theorem Collects.distinct {fits : Affix → Prop} (h : c.Collects fits keys keys')
    (before : c.Distinct keys) : c.Distinct keys' := by
  induction h with
  | done keys => exact before
  | more known _ free _ ih => exact ih (before.append (free.imp_right fun appended =>
      ⟨_, known, appended⟩))

end Catalog

namespace Draft
variable {c : Catalog} {d : Draft}

/-- No affix is on the draft twice with one scope, unless its copies are appended. -/
def Distinct (c : Catalog) (d : Draft) : Prop := c.Distinct d.affixKeys

theorem distinct_of_bare (bare : d.affixes = []) : d.Distinct c := by
  intro key
  rw [affixKeys, bare]
  exact .inl (Nat.zero_le 1)

theorem rollAffixes_distinct (index : Catalog.IsIndex c.prototypes) (occasion : Occasion)
    (s : Option BranchSettings) (dice : Dice) (h : d.Distinct c) :
    (d.rollAffixes c occasion s dice).draft.Distinct c := by
  rcases rollAffixes_collects index occasion s d dice with same | ⟨-, l, -, collects⟩
  · rwa [same]
  · exact collects.distinct h

private theorem hideVisuals_distinct (h : d.Distinct c) : (d.hideVisuals c).2.Distinct c := by
  rcases hideVisuals_keys c d with same | ⟨-, absent, keys⟩
  · rwa [same]
  · rw [Distinct, keys]
    refine (h.sublist List.filter_sublist).append (.inl fun present => absent ?_)
    rw [affixIds_eq]
    exact List.mem_map_of_mem (List.mem_filter.mp present).1

end Draft

/-- Whichever way a mutation goes with the affixes, it makes none of them come twice. -/
theorem Mutation.Alters.distinct {k : Workshop} {m : Mutation} {d : Draft} {x : Change}
    (h : m.Alters k d x) (index : Catalog.IsIndex k.catalog.prototypes)
    (before : d.Distinct k.catalog) : x.draft.Distinct k.catalog := by
  cases h with
  | ignored keys => rwa [Draft.Distinct, keys]
  | settled keys => rwa [Draft.Distinct, keys]
  | gathered keys => exact keys.distinct (before.sublist List.filter_sublist)
  | hidden hides draft =>
    rw [draft]
    exact Draft.hideVisuals_distinct before
  | rerolled e dice rolls keys item sound draft =>
    have stripped : e.Distinct k.catalog := by
      rw [Draft.Distinct, keys]
      exact before.sublist List.filter_sublist
    rw [draft]
    exact Draft.rollAffixes_distinct index k.world.occasion (some k.settings) dice stripped

private theorem Mutation.applyAll_distinct (k : Workshop)
    (index : Catalog.IsIndex k.catalog.prototypes) (ms : List Mutation) (d : Draft) (dice : Dice)
    (before : d.Distinct k.catalog) (clean : (applyAll k ms d dice).2.report.error = false) :
    (applyAll k ms d dice).2.draft.Distinct k.catalog :=
  applyAll_keeps k (·.Distinct k.catalog) ms
    (fun m _ d dice hd passed => (apply_alters index m d dice passed).distinct index hd)
    d dice before clean

theorem World.distinct_invariant (w : World)
    (index : Catalog.IsIndex w.catalog.prototypes) : Draft.Invariant w (·.Distinct w.catalog) where
  queued _ new _ := Draft.distinct_of_bare new.affixes
  rolled s _ dice _ h := Draft.rollAffixes_distinct index w.occasion s dice h
  mutated granted s m d dice _ _ h clean :=
    (Mutation.apply_alters (k := ⟨w, granted, s⟩) index m d dice clean).distinct index h
  copied _ h := h

namespace LootNode

/-- No granted item has an affix twice with one scope, unless copies of the affix are appended; and
mutations without an error keep that of every draft, whatever was granted before. -/
theorem roll_distinct {content : Content} {w : World}
    (registered : Catalog.ofContent content = .ok w.catalog) :
    (∀ (n : LootNode) (q : Request), q.world = w → ∀ d ∈ (n.roll q).drafts, d.Distinct w.catalog) ∧
      ∀ (s : BranchSettings) (ms : List Mutation) (d : Draft) (r : Roll), d.Distinct w.catalog →
        (r.mutate w s ms d).report.error = false → (r.mutate w s ms d).draft.Distinct w.catalog := by
  have index := Catalog.ofContent_isIndex registered
  refine ⟨fun n q same => (w.distinct_invariant index).roll n same, fun s ms d r before clean => ?_⟩
  exact Mutation.applyAll_distinct (r.workshop w s) index ms d r.dice before clean

/-- An affix that is appended may come twice, and another beside it comes once. -/
theorem roll_distinct_appended :
    let content : Content := {
      rarities := [{ id := ⟨10⟩ }]
      affixes := [{ id := ⟨1⟩, position := .prefixed, duplicates := .append },
        { id := ⟨2⟩, position := .suffixed }]
      items := [{ id := ⟨100⟩ }] }
    let d : Draft := { item := ⟨100⟩, rarity := ⟨10⟩, level := 1 }
    let ms : List Mutation := [.addAffix ⟨1⟩, .addAffix ⟨2⟩, .addAffix ⟨1⟩]
    ∃ c, Catalog.ofContent content = .ok c ∧
      ((Roll.start 1).mutate { catalog := c } {} ms d).report.error = false ∧
      ((Roll.start 1).mutate { catalog := c } {} ms d).draft.affixKeys.count (⟨1⟩, .none) = 2 ∧
      ((Roll.start 1).mutate { catalog := c } {} ms d).draft.Distinct c := by
  intro content d ms
  have kept {c : Catalog} (registered : Catalog.ofContent content = .ok c)
      (clean : ((Roll.start 1).mutate { catalog := c } {} ms d).report.error = false) :
      ((Roll.start 1).mutate { catalog := c } {} ms d).draft.Distinct c :=
    (roll_distinct (w := { catalog := c }) registered).2 {} ms d (.start 1)
      (Draft.distinct_of_bare rfl) clean
  have registered : Catalog.ofContent content = .ok _ := rfl
  refine ⟨_, registered, ?clean, ?twice, kept registered ?clean⟩
  case clean => decide +kernel
  case twice => decide +kernel

end LootNode

end Spoils
