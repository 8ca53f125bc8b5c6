import Spoils.Proofs.Catalog.References
import Spoils.Proofs.Roll.Levels

/-! Normal forms of loot trees and items: at any depth everything is in order after normalization,
and what is in order is left as it is. -/
namespace Spoils

/-- What a function makes is in order, and it leaves alone what is in order. -/
structure Normalizes {α : Type} (f : α → α) (InOrder : α → Prop) : Prop where
  inOrder (a : α) : InOrder (f a)
  fixed (a : α) : InOrder a → f a = a

namespace Normalizes
variable {α : Type} {f : α → α} {InOrder : α → Prop} {a : α}

theorem idempotent (h : Normalizes f InOrder) (a : α) : f (f a) = f a := h.fixed _ (h.inOrder a)

theorem eq_self_iff (h : Normalizes f InOrder) : f a = a ↔ InOrder a :=
  ⟨fun same => same ▸ h.inOrder a, h.fixed a⟩

theorem map (h : Normalizes f InOrder) :
    Normalizes (List.map f) fun l => ∀ a ∈ l, InOrder a where
  inOrder l a mem := by
    obtain ⟨b, -, rfl⟩ := List.mem_map.mp mem
    exact h.inOrder b
  fixed l ordered := by
    rw [List.map_congr_left fun a mem => h.fixed a (ordered a mem), List.map_id']

end Normalizes

/-- A number of the unit interval. -/
def Single.IsChance (x : Single) : Prop := x.isNotANumber = false ∧ ¬ x < 0 ∧ ¬ 1 < x

private theorem Single.clampUnit_normalizes : Normalizes clampUnit IsChance where
  inOrder x := by
    rw [clampUnit]
    split
    · exact ⟨by decide +kernel, by decide +kernel, by decide +kernel⟩
    · rename_i number
      split
      · exact ⟨by decide +kernel, by decide +kernel, by decide +kernel⟩
      · rename_i low
        split
        · exact ⟨by decide +kernel, by decide +kernel, by decide +kernel⟩
        · rename_i high
          exact ⟨Bool.eq_false_iff.mpr number, low, high⟩
  fixed x chance := by
    obtain ⟨number, low, high⟩ := chance
    rw [clampUnit, number, if_neg Bool.false_ne_true, if_neg low, if_neg high]

namespace Repeat

/-- The least number is not above the greatest. -/
def InOrder (r : Repeat) : Prop := r.min ≤ r.max

private theorem normalizes : Normalizes normalize InOrder where
  inOrder r := Int.le_max_right r.max r.min
  fixed r ordered := by
    rw [normalize, Int.max_eq_left ordered]

end Repeat

namespace CountRange

def InOrder (r : CountRange) : Prop := 0 ≤ r.min ∧ r.min ≤ r.max

private theorem normalizes : Normalizes normalize InOrder where
  inOrder r := by
    simp only [normalize, InOrder]
    omega
  fixed r ordered := by
    obtain ⟨low, high⟩ := ordered
    have top := Int.max_eq_left (Int.le_trans low high)
    simp only [normalize, top, Int.min_eq_left high, Int.max_eq_right low]

end CountRange

namespace AffixLimits

/-- All ranges of counts are in order. -/
structure InOrder (l : AffixLimits) : Prop where
  prefixes : l.prefixes.InOrder
  suffixes : l.suffixes.InOrder
  uniques : l.uniques.InOrder
  teamUps : l.teamUps.InOrder
  regionAffixes : l.regionAffixes.InOrder

private theorem normalizes : Normalizes normalize InOrder where
  inOrder l :=
    ⟨CountRange.normalizes.inOrder _, CountRange.normalizes.inOrder _,
      CountRange.normalizes.inOrder _, CountRange.normalizes.inOrder _,
      CountRange.normalizes.inOrder _⟩
  fixed l ordered := by
    have range := CountRange.normalizes.fixed
    rw [normalize, range _ ordered.prefixes, range _ ordered.suffixes, range _ ordered.uniques,
      range _ ordered.teamUps, range _ ordered.regionAffixes]

end AffixLimits

namespace Mutation

/-- A clamp of levels begins at zero or above, and it has no upper end or one that is not below. -/
def InOrder : Mutation → Prop
  | .clampLevel lo hi => 0 ≤ lo ∧ (hi = 0 ∨ lo ≤ hi)
  | _ => True

private theorem normalizes : Normalizes normalize InOrder where
  inOrder m := by
    cases normal : m.normalize with
    | clampLevel lo hi => exact IsNormal.bounds ⟨m, normal⟩
    | _ => trivial
  fixed m ordered := by
    cases m with
    | clampLevel lo hi =>
      obtain ⟨low, high⟩ := ordered
      rw [normalize, Int.max_eq_left low]
      split
      · rename_i unbounded
        rw [unbounded]
      · rename_i bounded
        rw [Int.max_eq_left (high.resolve_left bounded)]
    | _ => rfl

end Mutation

namespace Modifier

def InOrder : Modifier → Prop
  | .setUsable chance => chance.IsChance
  | _ => True

private theorem normalizes : Normalizes normalize InOrder where
  inOrder m := by
    cases m with
    | setUsable chance => exact Single.clampUnit_normalizes.inOrder chance
    | _ => trivial
  fixed m ordered := by
    cases m with
    | setUsable chance => rw [normalize, Single.clampUnit_normalizes.fixed chance ordered]
    | _ => rfl

end Modifier

namespace Drop

/-- The range of repetitions is in order, and so are all mutations. -/
def InOrder : Drop → Prop
  | .item _ times mutations => times.InOrder ∧ ∀ m ∈ mutations, m.InOrder
  | .anyItem _ _ times | .agent _ times => times.InOrder
  | .copy _ mutations => ∀ m ∈ mutations, m.InOrder
  | _ => True

private theorem normalizes : Normalizes normalize InOrder where
  inOrder d := by
    cases d with
    | item id times mutations =>
      exact ⟨Repeat.normalizes.inOrder times, Mutation.normalizes.map.inOrder mutations⟩
    | anyItem slot rank times => exact Repeat.normalizes.inOrder times
    | agent id times => exact Repeat.normalizes.inOrder times
    | copy source mutations => exact Mutation.normalizes.map.inOrder mutations
    | _ => trivial
  fixed d ordered := by
    cases d with
    | item id times mutations =>
      rw [normalize, Repeat.normalizes.fixed times ordered.1,
        Mutation.normalizes.map.fixed mutations ordered.2]
    | anyItem slot rank times => rw [normalize, Repeat.normalizes.fixed times ordered]
    | agent id times => rw [normalize, Repeat.normalizes.fixed times ordered]
    | copy source mutations => rw [normalize, Mutation.normalizes.map.fixed mutations ordered]
    | _ => rfl

end Drop

namespace NodeHead

def InOrder (h : NodeHead) : Prop := ∀ m ∈ h.modifiers, m.InOrder

private theorem normalizes : Normalizes normalize InOrder where
  inOrder h := Modifier.normalizes.map.inOrder h.modifiers
  fixed h ordered := by rw [normalize, Modifier.normalizes.map.fixed h.modifiers ordered]

end NodeHead

namespace TableSpec

def InOrder (t : TableSpec) : Prop := t.noDrop.IsChance ∧ t.times.InOrder

private theorem normalizes : Normalizes normalize InOrder where
  inOrder t := ⟨Single.clampUnit_normalizes.inOrder t.noDrop, Repeat.normalizes.inOrder t.times⟩
  fixed t ordered := by
    rw [normalize, Single.clampUnit_normalizes.fixed t.noDrop ordered.1,
      Repeat.normalizes.fixed t.times ordered.2]

end TableSpec

namespace LootNode

/-- By itself the node is in order, whatever the nodes below it are. -/
def InOrder : LootNode → Prop
  | .table head spec _ => head.InOrder ∧ spec.InOrder
  | .reference head _ times => head.InOrder ∧ times.InOrder
  | .action head .. | .token head .. => head.InOrder
  | .drop head d => head.InOrder ∧ d.InOrder

private theorem inOrder_normalize (n : LootNode) : n.normalize.InOrder := by
  have head := NodeHead.normalizes.inOrder n.head
  cases n with
  | table _ spec entries =>
    rw [normalize]
    exact ⟨head, TableSpec.normalizes.inOrder spec⟩
  | reference _ id times => exact ⟨head, Repeat.normalizes.inOrder times⟩
  | action | token =>
    rw [normalize]
    exact head
  | drop _ d => exact ⟨head, Drop.normalizes.inOrder d⟩

private theorem normalize_of_inOrder {n : LootNode} (ordered : ∀ m ∈ n.nodes, m.InOrder) :
    n.normalize = n := by
  have own := ordered n (mem_nodes_self n)
  induction n with
  | table head spec entries ih =>
    have below : entries.map normalize = entries := by
      refine (List.map_congr_left fun n listed => ?_).trans (List.map_id' entries)
      have inside := Child.forall_nodes (.entry listed) ordered
      exact ih n listed inside (inside n (mem_nodes_self n))
    rw [normalize, NodeHead.normalizes.fixed head own.1, TableSpec.normalizes.fixed spec own.2,
      normalizeAll_eq, below]
  | reference head id times =>
    rw [normalize, NodeHead.normalizes.fixed head own.1, Repeat.normalizes.fixed times own.2]
  | action head kind key target ih =>
    have inside := Child.forall_nodes .target ordered
    rw [normalize, NodeHead.normalizes.fixed head own, ih inside (inside _ (mem_nodes_self _))]
  | token head parent filter fallback ih =>
    rw [normalize, NodeHead.normalizes.fixed head own, normalizeFallback_eq]
    cases fallback with
    | none => rfl
    | some n =>
      have inside := Child.forall_nodes .fallback ordered
      rw [Option.map_some, ih n rfl inside (inside n (mem_nodes_self n))]
  | drop head d =>
    rw [normalize, NodeHead.normalizes.fixed head own.1, Drop.normalizes.fixed d own.2]

theorem normalizes : Normalizes normalize fun n => ∀ m, n.InTree m → m.InOrder where
  inOrder n m inside := by
    rw [← mem_nodes_iff, nodes_normalize] at inside
    obtain ⟨raw, -, rfl⟩ := List.mem_map.mp inside
    exact raw.inOrder_normalize
  fixed n ordered := normalize_of_inOrder fun m listed => ordered m (mem_nodes_iff.mp listed)

end LootNode

namespace Restriction

/-- By itself the restriction is in order: levels begin at one or above, and a range of them that is
negative is `-1`. -/
def InOrder : Restriction → Prop
  | .level lo range => 1 ≤ lo ∧ -1 ≤ range
  | _ => True

private theorem inOrder_normalize (r : Restriction) : r.normalize.InOrder := by
  cases r with
  | level lo range =>
    rw [normalize]
    exact ⟨Int.le_max_right lo 1, Int.le_max_right range (-1)⟩
  | _ => trivial

private theorem normalizeAll_of {rs : List Restriction} (each : ∀ r ∈ rs, r.normalize = r) :
    normalizeAll rs = rs := by
  rw [normalizeAll_eq]
  exact (List.map_congr_left each).trans (List.map_id' rs)

private theorem normalize_of_inOrder (r : Restriction) (ordered : ∀ p ∈ r.parts, p.InOrder) :
    r.normalize = r := by
  induction r with
  | level lo range =>
    obtain ⟨low, wide⟩ := ordered _ (List.mem_singleton_self _)
    rw [normalize, Int.max_eq_left low, Int.max_eq_left wide]
  | conditional occasions inside outside here elsewhere =>
    have nested := (List.forall_mem_cons.mp ordered).2
    rw [List.forall_mem_append, forall_mem_partsOfAll, forall_mem_partsOfAll] at nested
    rw [normalize, normalizeAll_of fun r listed => here r listed (nested.1 r listed),
      normalizeAll_of fun r listed => elsewhere r listed (nested.2 r listed)]
  | _ => rfl

theorem normalizes : Normalizes normalizeAll fun rs => ∀ p ∈ partsOfAll rs, p.InOrder where
  inOrder rs p nested := by
    rw [partsOfAll_normalize] at nested
    obtain ⟨raw, -, rfl⟩ := List.mem_map.mp nested
    exact raw.inOrder_normalize
  fixed rs ordered := normalizeAll_of fun r listed =>
    r.normalize_of_inOrder (forall_mem_partsOfAll.mp ordered r listed)

end Restriction

namespace Item

/-- All restrictions, nested ones too, and all ranges of counts are in order. -/
structure InOrder (i : Item) : Prop where
  restrictions : ∀ r ∈ Restriction.partsOfAll i.restrictions, r.InOrder
  affixLimits : ∀ l ∈ i.affixLimits, l.InOrder

theorem normalizes : Normalizes normalize InOrder where
  inOrder i :=
    ⟨Restriction.normalizes.inOrder i.restrictions, AffixLimits.normalizes.map.inOrder i.affixLimits⟩
  fixed i ordered := by
    rw [normalize, Restriction.normalizes.fixed _ ordered.restrictions,
      AffixLimits.normalizes.map.fixed _ ordered.affixLimits]

end Item

/-- Normalization brings every node of a loot tree into order at its place, however deep, and every
restriction and range of an item. What is in order is its own normal form, so a second normalization
changes nothing. All trees and items of a catalog are in order. -/
theorem normalize_reaches :
    (∀ n : LootNode,
      (∀ m, n.normalize.InTree m → m.InOrder) ∧ n.normalize.nodes = n.nodes.map (·.normalize) ∧
        n.normalize.normalize = n.normalize ∧ (n.normalize = n ↔ ∀ m, n.InTree m → m.InOrder)) ∧
    (∀ i : Item,
      i.normalize.InOrder ∧ i.normalize.normalize = i.normalize ∧ (i.normalize = i ↔ i.InOrder)) ∧
    ∀ content c, Catalog.ofContent content = .ok c →
      (∀ t ∈ c.lootTables, ∀ m, t.root.InTree m → m.InOrder) ∧ ∀ i ∈ c.items, i.InOrder := by
  have trees := LootNode.normalizes
  have items := Item.normalizes
  refine ⟨fun n => ⟨trees.inOrder n, n.nodes_normalize, trees.idempotent n, trees.eq_self_iff⟩,
    fun i => ⟨items.inOrder i, items.idempotent i, items.eq_self_iff⟩, fun content c registered => ?_⟩
  constructor
  · intro t listed
    obtain ⟨raw, normal⟩ := Catalog.exists_normalize_of_mem_lootTables registered listed
    exact normal ▸ trees.inOrder raw
  · intro i listed
    obtain ⟨raw, rfl⟩ := Catalog.exists_normalize_of_mem_items registered listed
    exact items.inOrder raw

/-- Reversed ranges in the fallback of a token below an action, and in a nested restriction. -/
theorem normalize_reaches_fallback :
    let raw : LootNode := .table {} { times := ⟨2, -1⟩ } [
      .action {} .firstTime ⟨3⟩ (.token {} ⟨50⟩ .none (some
        (.drop {} (.item ⟨100⟩ ⟨3, 1⟩ [.clampLevel (-2) (-6), .clampLevel 4 2]))))]
    let deep : LootNode := .drop {} (.item ⟨100⟩ ⟨3, 3⟩ [.clampLevel 0 0, .clampLevel 4 4])
    let content : Content := {
      items := [{
        id := ⟨100⟩
        affixLimits := [{ prefixes := ⟨5, 2⟩ }]
        restrictions := [.conditional .drop [.level (-3) (-7)] []] }]
      lootTables := [{ id := ⟨9⟩, root := raw }] }
    let item : Item := {
      id := ⟨100⟩
      affixLimits := [{ prefixes := ⟨2, 2⟩ }]
      restrictions := [.conditional .drop [.level 1 (-1)] []] }
    ∃ c t, Catalog.ofContent content = .ok c ∧
      (t ∈ c.lootTables ∧ t.root.InTree deep ∧ deep.InOrder) ∧ (item ∈ c.items ∧ item.InOrder) := by
  intro raw deep content item
  have loaded {c : Catalog} (registered : Catalog.ofContent content = .ok c) :=
    normalize_reaches.2.2 content c registered
  have registered : Catalog.ofContent content = .ok _ := rfl
  have inside : raw.normalize.InTree deep :=
    .head (.entry (.head _)) (.head .target (.head .fallback .refl))
  refine ⟨_, { id := ⟨9⟩, root := raw.normalize }, registered,
    ⟨?table, inside, (loaded registered).1 _ ?table deep inside⟩, ?item,
    (loaded registered).2 item ?item⟩
  case table => exact Catalog.mem_lootTables (show Catalog.lootTable? _ ⟨9⟩ = _ from rfl)
  case item =>
    exact Catalog.mem_items_iff.mpr (Catalog.mem_values_of_find?
      (show SortedMap.find? _ (⟨100⟩ : PrototypeId) = _ from rfl))

end Spoils
