import Mathlib.Data.List.Basic
import Mathlib.Logic.Relation
import Spoils.Table.Node

/-! Nodes below nodes: induction over loot trees, the nodes of a tree and those of its normal form. -/
namespace Spoils

/-- A node stands right below another: as an entry of a table, the target of an action or the
fallback of a token. -/
inductive LootNode.Child : LootNode → LootNode → Prop where
  | entry {head spec entries n} (listed : n ∈ entries) : Child (.table head spec entries) n
  | target {head kind key n} : Child (.action head kind key n) n
  | fallback {head parent filter n} : Child (.token head parent filter (some n)) n

namespace LootNode

def InTree : LootNode → LootNode → Prop := Relation.ReflTransGen Child

/-- What is to be shown of a node may be used of the nodes right below it. -/
@[elab_as_elim, induction_eliminator]
theorem nestedInduction {motive : LootNode → Prop}
    (table : ∀ head spec entries, (∀ n ∈ entries, motive n) → motive (.table head spec entries))
    (reference : ∀ head id times, motive (.reference head id times))
    (action : ∀ head kind key target, motive target → motive (.action head kind key target))
    (token : ∀ head parent filter fallback, (∀ n ∈ fallback, motive n) →
      motive (.token head parent filter fallback))
    (drop : ∀ head d, motive (.drop head d)) (n : LootNode) : motive n := by
  refine @LootNode.rec motive (fun ns => ∀ n ∈ ns, motive n) (fun o => ∀ n ∈ o, motive n)
    table reference action token drop ?nil ?cons ?none ?some n
  case nil => exact List.forall_mem_nil motive
  case cons => exact fun _ _ first later => List.forall_mem_cons.mpr ⟨first, later⟩
  case none => exact fun _ other => nomatch other
  case some => exact fun _ here _ same => Option.some.inj same ▸ here

/-! The functions of lists and fallbacks that the recursion over a tree goes through. -/

theorem normalizeAll_eq (ns : List LootNode) : normalizeAll ns = ns.map normalize := by
  induction ns with
  | nil => rfl
  | cons n ns ih => rw [normalizeAll, ih, List.map_cons]

theorem normalizeFallback_eq (o : Option LootNode) : normalizeFallback o = o.map normalize := by
  cases o <;> rfl

theorem nodesOfAll_eq (ns : List LootNode) : nodesOfAll ns = ns.flatMap nodes := by
  induction ns with
  | nil => rfl
  | cons n ns ih => rw [nodesOfAll, ih, List.flatMap_cons]

theorem mem_nodes_self (n : LootNode) : n ∈ n.nodes := by
  cases n <;> simp [nodes]

theorem Child.nodes_subset {n m : LootNode} (h : n.Child m) : m.nodes ⊆ n.nodes := by
  intro x hx
  cases h with
  | entry listed =>
    rw [nodes, nodesOfAll_eq]
    exact .tail _ (List.mem_flatMap_of_mem listed hx)
  | target => exact .tail _ hx
  | fallback => exact .tail _ hx

/-- What holds of all nodes of a tree holds of all those below. -/
theorem Child.forall_nodes {n m : LootNode} (h : n.Child m) {P : LootNode → Prop}
    (all : ∀ k ∈ n.nodes, P k) : ∀ k ∈ m.nodes, P k :=
  fun k hk => all k (h.nodes_subset hk)

theorem inTree_of_mem_nodes {m n : LootNode} (h : m ∈ n.nodes) : n.InTree m := by
  induction n with
  | table head spec entries ih =>
    rw [nodes, nodesOfAll_eq] at h
    rcases List.mem_cons.mp h with rfl | below
    · exact .refl
    · obtain ⟨k, listed, inside⟩ := List.mem_flatMap.mp below
      exact .head (.entry listed) (ih k listed inside)
  | reference head id times =>
    rw [List.mem_singleton.mp h]
    exact .refl
  | action head kind key target ih =>
    rcases List.mem_cons.mp h with rfl | below
    · exact .refl
    · exact .head .target (ih below)
  | token head parent filter fallback ih =>
    rcases List.mem_cons.mp h with rfl | below
    · exact .refl
    · cases fallback with
      | none => cases below
      | some k => exact .head .fallback (ih k rfl below)
  | drop head d =>
    rw [List.mem_singleton.mp h]
    exact .refl

/-- The nodes that are listed are those in the tree. -/
theorem mem_nodes_iff {n m : LootNode} : m ∈ n.nodes ↔ n.InTree m := by
  refine ⟨inTree_of_mem_nodes, fun path => ?_⟩
  induction path using Relation.ReflTransGen.head_induction_on with
  | refl => exact mem_nodes_self m
  | head child _ ih => exact child.nodes_subset ih

theorem mem_referencedTables_iff {n : LootNode} {id : PrototypeId} :
    id ∈ n.referencedTables ↔ ∃ head times, n.InTree (.reference head id times) := by
  simp only [referencedTables, List.mem_filterMap, mem_nodes_iff]
  constructor
  · rintro ⟨m, inside, named⟩
    cases m with
    | reference head id times =>
      cases named
      exact ⟨head, times, inside⟩
    | _ => cases named
  · rintro ⟨head, times, inside⟩
    exact ⟨_, inside, rfl⟩

/-- Normalization brings every node into normal form at its place. -/
theorem nodes_normalize (n : LootNode) : n.normalize.nodes = n.nodes.map normalize := by
  induction n with
  | table head spec entries ih =>
    have below : (entries.map normalize).flatMap nodes = (entries.flatMap nodes).map normalize := by
      rw [List.flatMap_map, List.map_flatMap]
      exact List.flatMap_congr ih
    simp only [normalize, nodes, normalizeAll_eq, nodesOfAll_eq, below, List.map_cons]
  | reference | drop => simp only [normalize, nodes, List.map_cons, List.map_nil]
  | action head kind key target ih => simp only [normalize, nodes, ih, List.map_cons]
  | token head parent filter fallback ih =>
    cases fallback with
    | none => rfl
    | some n =>
      simp only [normalize, nodes, normalizeFallback, nodesOfFallback, ih n rfl, List.map_cons]

end LootNode

end Spoils
