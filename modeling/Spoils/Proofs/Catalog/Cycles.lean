import Mathlib.Data.List.Perm.Subperm
import Mathlib.Logic.Relation
import Spoils.Catalog.Issues
import Spoils.Proofs.SortedMap

/-! Graphs by their edges: the search finds what can be reached, and every cycle is reported. -/
namespace Spoils

namespace Edges
variable {g : Edges} {a b start : PrototypeId}

/-- A path of one or more edges leads from one node to the other. -/
def Reaches (g : Edges) : PrototypeId → PrototypeId → Prop :=
  Relation.TransGen fun a b => (a, b) ∈ g

private theorem mem_successors : b ∈ g.successors a ↔ (a, b) ∈ g := by
  simp only [successors, List.mem_map, List.mem_filter, beq_iff_eq]
  constructor
  · rintro ⟨e, ⟨edge, rfl⟩, rfl⟩
    exact edge
  · intro edge
    exact ⟨(a, b), ⟨edge, rfl⟩, rfl⟩

private theorem Reaches.mem_targets (h : g.Reaches a b) : b ∈ g.map (·.2) := by
  cases h with
  | single edge => exact List.mem_map_of_mem edge
  | tail _ edge => exact List.mem_map_of_mem edge

/-- A search that goes on: what is met can be reached, and all that one edge leads to is met, unless
the edge begins at the frontier. -/
structure Searching (g : Edges) (start : PrototypeId) (met : SortedSet PrototypeId)
    (frontier : List PrototypeId) : Prop where
  reached : ∀ b ∈ met.toList, g.Reaches start b
  known : ∀ a ∈ frontier, a = start ∨ a ∈ met.toList
  followed : ∀ a b, a = start ∨ a ∈ met.toList → a ∉ frontier → (a, b) ∈ g → b ∈ met.toList

namespace Searching
variable {met : SortedSet PrototypeId} {frontier : List PrototypeId}

private theorem begins (g : Edges) (start : PrototypeId) : g.Searching start .empty [start] where
  reached b hb := by cases hb
  known a ha := .inl (List.mem_singleton.mp ha)
  followed a b ha outside _ := by
    rcases ha with rfl | ha
    · exact (outside (List.mem_singleton_self a)).elim
    · cases ha

/-- The nodes that the frontier leads to for the first time. -/
def next (g : Edges) (met : SortedSet PrototypeId) (frontier : List PrototypeId) :
    SortedSet PrototypeId :=
  (SortedSet.ofList (frontier.flatMap g.successors)).without met

theorem mem_next : b ∈ (next g met frontier).toList ↔
    (∃ a ∈ frontier, (a, b) ∈ g) ∧ b ∉ met.toList := by
  rw [next, SortedSet.mem_without, SortedSet.mem_ofList, List.mem_flatMap]
  simp only [mem_successors]

variable (h : g.Searching start met frontier)
include h

/-- A node that is met or is the start leads to nodes that are met, or first met now. -/
theorem meets (ha : a = start ∨ a ∈ met.toList) (edge : (a, b) ∈ g) :
    b ∈ (next g met frontier).toList ∨ b ∈ met.toList := by
  by_cases seen : b ∈ met.toList
  · exact .inr seen
  · by_cases inside : a ∈ frontier
    · exact .inl (mem_next.mpr ⟨⟨a, inside, edge⟩, seen⟩)
    · exact .inr (h.followed a b ha inside edge)

private theorem spreads : g.Searching start ((next g met frontier).toList.foldl SortedSet.add met)
    (next g met frontier).toList where
  reached b hb := by
    rcases SortedSet.mem_addAll.mp hb with new | old
    · obtain ⟨⟨a, ha, edge⟩, -⟩ := mem_next.mp new
      rcases h.known a ha with rfl | met
      · exact .single edge
      · exact (h.reached a met).tail edge
    · exact h.reached b old
  known a ha := .inr (SortedSet.mem_addAll.mpr (.inl ha))
  followed a b ha outside edge := by
    have before : a = start ∨ a ∈ met.toList :=
      ha.imp_right fun ha => (SortedSet.mem_addAll.mp ha).resolve_left outside
    exact SortedSet.mem_addAll.mpr (h.meets before edge)

/-- A search that meets nothing new has met all that can be reached. -/
theorem ends (nothing : (next g met frontier).toList = []) :
    b ∈ met.toList ↔ g.Reaches start b := by
  have closed {a b} (ha : a = start ∨ a ∈ met.toList) (edge : (a, b) ∈ g) : b ∈ met.toList := by
    have met := h.meets ha edge
    rw [nothing] at met
    exact met.resolve_left List.not_mem_nil
  refine ⟨h.reached b, fun path => ?_⟩
  induction path with
  | single edge => exact closed (.inl rfl) edge
  | tail _ edge ih => exact closed (.inr ih) edge

theorem length_le : met.toList.length ≤ g.length := by
  have distinct : met.toList.Nodup := (SortedMap.keys_pairwise met).imp SortedMap.ne_of_lt
  have within : met.toList ⊆ g.map (·.2) := fun b hb => (h.reached b hb).mem_targets
  have fewer := (List.subperm_of_subset distinct within).length_le
  rwa [List.length_map] at fewer

omit h in
theorem length_lt {new : SortedSet PrototypeId} (some : b ∈ new.toList) (fresh : b ∉ met.toList) :
    met.toList.length < (new.toList.foldl SortedSet.add met).toList.length := by
  have distinct : met.toList.Nodup := (SortedMap.keys_pairwise met).imp SortedMap.ne_of_lt
  have within : b :: met.toList ⊆ (new.toList.foldl SortedSet.add met).toList := by
    intro c hc
    rcases List.mem_cons.mp hc with rfl | old
    · exact SortedSet.mem_addAll.mpr (.inl some)
    · exact SortedSet.mem_addAll.mpr (.inr old)
  exact (List.subperm_of_subset (List.nodup_cons.mpr ⟨fresh, distinct⟩) within).length_le

end Searching

/-- With more rounds than edges left a search meets all that can be reached: every round but the
last meets a node at the end of another edge. -/
theorem mem_spread {fuel : Nat} {met : SortedSet PrototypeId} {frontier : List PrototypeId}
    (h : g.Searching start met frontier) (enough : g.length < fuel + met.toList.length) :
    b ∈ (g.spread fuel met frontier).toList ↔ g.Reaches start b := by
  induction fuel generalizing met frontier with
  | zero =>
    have := h.length_le
    omega
  | succ fuel ih =>
    rw [spread]
    split
    · rename_i nothing
      refine h.ends ?_
      rw [SortedSet.toList, SortedMap.keys, Searching.next, List.isEmpty_iff.mp nothing]
      rfl
    · rename_i something
      have new : (Searching.next g met frontier).toList ≠ [] := by
        intro none
        rw [SortedSet.toList, SortedMap.keys, List.map_eq_nil_iff] at none
        exact something (List.isEmpty_iff.mpr none)
      obtain ⟨c, some⟩ := List.exists_mem_of_ne_nil _ new
      have larger := Searching.length_lt some (Searching.mem_next.mp some).2
      have left : g.length < fuel +
          ((Searching.next g met frontier).toList.foldl SortedSet.add met).toList.length := by
        omega
      exact ih h.spreads left

theorem mem_reach : b ∈ (g.reach a).toList ↔ g.Reaches a b :=
  mem_spread (.begins g a) (by omega)

theorem mem_cycleOf : b ∈ g.cycleOf a ↔ g.Reaches a b ∧ g.Reaches b a := by
  rw [cycleOf, List.mem_filter, SortedSet.contains_iff, mem_reach, mem_reach]

/-- Nodes that lie on a cycle have it in common. -/
theorem cycleOf_eq (there : g.Reaches a b) (back : g.Reaches b a) : g.cycleOf a = g.cycleOf b := by
  refine eq_of_ascending ((SortedMap.keys_pairwise _).filter _)
    ((SortedMap.keys_pairwise _).filter _) fun c => ?_
  rw [mem_cycleOf, mem_cycleOf]
  exact ⟨fun h => ⟨back.trans h.1, h.2.trans there⟩, fun h => ⟨there.trans h.1, h.2.trans back⟩⟩

/-- Of every cycle the least node is reported, with all of its nodes. -/
theorem mem_cycles {relation : Relation} {i : Issue} :
    i ∈ g.cycles relation ↔ ∃ a rest, g.Reaches a a ∧ g.cycleOf a = i.subject :: rest ∧
      i.flaw = .cycle relation (g.cycleOf a) := by
  simp only [cycles, List.mem_filterMap, SortedSet.mem_ofList]
  constructor
  · rintro ⟨a, -, found⟩
    split at found
    · cases found
    · rename_i first rest cycle
      split at found
      · rename_i least
        cases found
        have same : first = a := by simpa using least
        subst same
        have onCycle : first ∈ g.cycleOf first := by simp [cycle]
        exact ⟨first, rest, (mem_cycleOf.mp onCycle).1, cycle, by rw [cycle]⟩
      · cases found
  · rintro ⟨a, rest, -, cycle, flaw⟩
    have onCycle : i.subject ∈ g.cycleOf a := by simp [cycle]
    obtain ⟨there, back⟩ := mem_cycleOf.mp onCycle
    have same : g.cycleOf i.subject = i.subject :: rest := by rw [← cycleOf_eq there back, cycle]
    refine ⟨i.subject, ?_, ?_⟩
    · obtain ⟨c, edge, -⟩ := Relation.TransGen.head'_iff.mp back
      exact List.mem_map_of_mem edge
    · rw [same]
      simp only [beq_self_eq_true, if_true, Option.some.injEq]
      rw [← cycle, ← flaw]

/-- A cycle is reported exactly if some node reaches itself. -/
theorem cycles_eq_nil_iff {relation : Relation} :
    g.cycles relation = [] ↔ ∀ a, ¬ g.Reaches a a := by
  rw [List.eq_nil_iff_forall_not_mem]
  constructor
  · intro none a loop
    have onCycle : a ∈ g.cycleOf a := mem_cycleOf.mpr ⟨loop, loop⟩
    cases cycle : g.cycleOf a with
    | nil =>
      rw [cycle] at onCycle
      cases onCycle
    | cons first rest =>
      exact none ⟨first, .cycle relation (g.cycleOf a)⟩ (mem_cycles.mpr ⟨a, rest, loop, cycle, rfl⟩)
  · intro acyclic i reported
    obtain ⟨a, -, loop, -⟩ := mem_cycles.mp reported
    exact acyclic a loop

end Edges

theorem Edges.flaw_of_cycles {g : Edges} {relation : Relation} {i : Issue}
    (h : i ∈ g.cycles relation) : ∃ members, i.flaw = .cycle relation members := by
  obtain ⟨a, -, -, -, flaw⟩ := mem_cycles.mp h
  exact ⟨g.cycleOf a, flaw⟩

namespace Catalog
variable {c : Catalog} {relation : Relation}

/-- The graph of a relation whose cycles are issues. -/
def edges (c : Catalog) : Relation → Edges
  | .downgrade => c.downgrades
  | .parent => c.itemParents
  | .reference => c.references

def ReportsCycle (c : Catalog) (relation : Relation) : Prop :=
  ∃ i ∈ c.issues, ∃ members, i.flaw = .cycle relation members

/-- The kinds of flaws that a node can have by itself. -/
theorem nodeFlaws_cases {n : LootNode} {f : Flaw} (h : f ∈ c.nodeFlaws n) :
    (∃ modifier, f = .misplaced modifier n.kindName) ∨ ∃ curve, f = .noCurve n.kindName curve := by
  have missing {p : Prop} [Decidable p] {curve : CurveId}
      (h : f ∈ if p then [Flaw.noCurve n.kindName curve] else []) :
      ∃ curve, f = .noCurve n.kindName curve := by
    split at h
    · exact ⟨curve, List.mem_singleton.mp h⟩
    · cases h
  rcases List.mem_append.mp h with placed | curve
  · obtain ⟨m, -, rfl⟩ := List.mem_map.mp placed
    exact .inl ⟨m.name, rfl⟩
  · split at curve
    · exact .inr (missing curve)
    · exact .inr (missing curve)
    · cases curve

private theorem kind_of_nodeFlaws {n : LootNode} {f : Flaw} (h : f ∈ c.nodeFlaws n) :
    f.kind ≠ .cycle := by
  rcases nodeFlaws_cases h with ⟨modifier, rfl⟩ | ⟨curve, rfl⟩
  · nofun
  · nofun

/-- The issues of a table: tables and items that its tree refers to and that are none, and the
flaws of its nodes. -/
theorem mem_tableIssues {t : LootTable} {i : Issue} : i ∈ c.tableIssues t ↔ t.id = i.subject ∧
    ((∃ id ∈ t.root.referencedTables, c.lootTable? id = none ∧ i.flaw = .noTable id) ∨
      (∃ id ∈ t.root.referencedItems, c.item? id = none ∧ i.flaw = .noItem id) ∨
      ∃ n ∈ t.root.nodes, i.flaw ∈ c.nodeFlaws n) := by
  obtain ⟨subject, flaw⟩ := i
  simp only [tableIssues, List.mem_map, List.mem_append, List.mem_filter, List.mem_flatMap,
    Option.isNone_iff_eq_none, Issue.mk.injEq]
  constructor
  · rintro ⟨f, (⟨id, ⟨named, absent⟩, rfl⟩ | ⟨id, ⟨named, absent⟩, rfl⟩) | node, rfl, rfl⟩
    · exact ⟨rfl, .inl ⟨id, named, absent, rfl⟩⟩
    · exact ⟨rfl, .inr (.inl ⟨id, named, absent, rfl⟩)⟩
    · exact ⟨rfl, .inr (.inr node)⟩
  · rintro ⟨rfl, ⟨id, named, absent, rfl⟩ | ⟨id, named, absent, rfl⟩ | node⟩
    · exact ⟨_, .inl (.inl ⟨id, ⟨named, absent⟩, rfl⟩), rfl, rfl⟩
    · exact ⟨_, .inl (.inr ⟨id, ⟨named, absent⟩, rfl⟩), rfl, rfl⟩
    · exact ⟨_, .inr node, rfl, rfl⟩

private theorem kind_of_tableIssues {t : LootTable} {i : Issue} (h : i ∈ c.tableIssues t) :
    i.flaw.kind ≠ .cycle := by
  obtain ⟨-, ⟨id, -, -, flaw⟩ | ⟨id, -, -, flaw⟩ | ⟨n, -, flaw⟩⟩ := mem_tableIssues.mp h
  · rw [flaw]
    nofun
  · rw [flaw]
    nofun
  · exact kind_of_nodeFlaws flaw

/-- An issue is a cycle of the graph of its relation, or no cycle. -/
theorem mem_issues {i : Issue} (h : i ∈ c.issues) :
    i.flaw.kind ≠ .cycle ∨ ∃ relation, i ∈ (c.edges relation).cycles relation := by
  simp only [issues, List.mem_append] at h
  rcases h with ((((rarity | downgrade) | item) | parent) | table) | reference
  · obtain ⟨r, -, rfl⟩ := List.mem_map.mp rarity
    exact .inl nofun
  · exact .inr ⟨.downgrade, downgrade⟩
  · obtain ⟨j, -, rfl⟩ := List.mem_map.mp item
    exact .inl nofun
  · exact .inr ⟨.parent, parent⟩
  · obtain ⟨t, -, flaw⟩ := List.mem_flatMap.mp table
    exact .inl (kind_of_tableIssues flaw)
  · exact .inr ⟨.reference, reference⟩

/-- A relation has a cycle among the issues exactly if some prototype reaches itself by it. -/
theorem reportsCycle_iff : c.ReportsCycle relation ↔ ∃ a, (c.edges relation).Reaches a a := by
  have listed {i} (h : i ∈ (c.edges relation).cycles relation) : i ∈ c.issues := by
    simp only [issues, List.mem_append]
    cases relation <;> simp_all only [edges, true_or, or_true]
  constructor
  · rintro ⟨i, found, members, flaw⟩
    rcases mem_issues found with other | ⟨r, cycle⟩
    · exact (other (congrArg Flaw.kind flaw)).elim
    · obtain ⟨_, same⟩ := Edges.flaw_of_cycles cycle
      cases flaw.symm.trans same
      obtain ⟨a, -, loop, -⟩ := Edges.mem_cycles.mp cycle
      exact ⟨a, loop⟩
  · rintro ⟨a, loop⟩
    have some : (c.edges relation).cycles relation ≠ [] := by
      rw [ne_eq, Edges.cycles_eq_nil_iff]
      exact fun acyclic => acyclic a loop
    obtain ⟨i, cycle⟩ := List.exists_mem_of_ne_nil _ some
    exact ⟨i, listed cycle, Edges.flaw_of_cycles cycle⟩

end Catalog

end Spoils
