import Spoils.Proofs.Catalog.Cycles
import Spoils.Proofs.Catalog.Tiers
import Spoils.Proofs.Table.Node

/-! The issues of downgrades and of references between tables tell exactly what is wrong with their
graphs. -/
namespace Spoils

/-- Only what leads on can lie on a cycle. -/
theorem transGen_onward {α : Type} {r : α → α → Prop} {a : α} (loop : Relation.TransGen r a a) :
    Relation.TransGen (fun b c => r b c ∧ ∃ d, r c d) a a := by
  have onward {b} (path : Relation.TransGen r a b) (more : ∃ d, r b d) :
      Relation.TransGen (fun b c => r b c ∧ ∃ d, r c d) a b := by
    induction path with
    | single step => exact .single ⟨step, more⟩
    | tail _ step ih => exact .tail (ih ⟨_, step⟩) ⟨step, more⟩
  obtain ⟨b, first, -⟩ := Relation.TransGen.head'_iff.mp loop
  exact onward loop ⟨b, first⟩

namespace Catalog
variable {c : Catalog} {a b : PrototypeId}

def Refers (c : Catalog) (a b : PrototypeId) : Prop :=
  ∃ t, c.lootTable? a = some t ∧ ∃ head times, t.root.InTree (.reference head b times)

/-- A graph that keeps the steps to registered identifiers has the cycles of all steps. -/
theorem reaches_self_iff {g : Edges} {r : PrototypeId → PrototypeId → Prop}
    {known : PrototypeId → Prop} (edges : ∀ a b, (a, b) ∈ g ↔ r a b ∧ known b)
    (source : ∀ {a b}, r a b → known a) : g.Reaches a a ↔ Relation.TransGen r a a := by
  constructor
  · intro loop
    exact Relation.TransGen.mono (fun a b edge => ((edges a b).mp edge).1) _ _ loop
  · intro loop
    refine Relation.TransGen.mono (fun a b step => ?_) _ _ (transGen_onward loop)
    obtain ⟨step, d, next⟩ := step
    exact (edges a b).mpr ⟨step, source next⟩

section
variable (index : IsIndex c.prototypes)
include index

theorem refers_iff :
    c.Refers a b ↔ ∃ t ∈ c.lootTables, t.id = a ∧ b ∈ t.root.referencedTables := by
  simp only [Refers, lootTable?_eq_some_iff_mem_lootTables index,
    LootNode.mem_referencedTables_iff, and_assoc]

private theorem mem_references :
    (a, b) ∈ c.references ↔ c.Refers a b ∧ (c.lootTable? b).isSome = true := by
  simp only [refers_iff index, references, List.mem_flatMap, List.mem_map, List.mem_filter,
    Prod.mk.injEq]
  constructor
  · rintro ⟨t, listed, _, ⟨named, known⟩, rfl, rfl⟩
    exact ⟨⟨t, listed, rfl, named⟩, known⟩
  · rintro ⟨⟨t, listed, rfl, named⟩, known⟩
    exact ⟨t, listed, b, ⟨named, known⟩, rfl, rfl⟩

end

/-- A table lacks what its tree refers to and the catalog does not have. -/
theorem noTable_mem_tableIssues {t : LootTable} {target : PrototypeId} :
    ⟨a, .noTable target⟩ ∈ c.tableIssues t ↔
      t.id = a ∧ target ∈ t.root.referencedTables ∧ c.lootTable? target = none := by
  rw [mem_tableIssues]
  constructor
  · rintro ⟨rfl, ⟨id, named, absent, same⟩ | ⟨id, -, -, same⟩ | ⟨n, -, flaw⟩⟩
    · cases same
      exact ⟨rfl, named, absent⟩
    · cases same
    · rcases nodeFlaws_cases flaw with ⟨_, same⟩ | ⟨_, same⟩ <;> cases same
  · rintro ⟨rfl, named, absent⟩
    exact ⟨rfl, .inl ⟨target, named, absent, rfl⟩⟩

private theorem noRarity_notMem_tableIssues {t : LootTable} {target : PrototypeId} :
    ⟨a, .noRarity target⟩ ∉ c.tableIssues t := by
  rw [mem_tableIssues]
  rintro ⟨-, ⟨id, -, -, same⟩ | ⟨id, -, -, same⟩ | ⟨n, -, flaw⟩⟩
  · cases same
  · cases same
  · rcases nodeFlaws_cases flaw with ⟨_, same⟩ | ⟨_, same⟩ <;> cases same

theorem notMem_cycles {g : Edges} {relation : Relation} {f : Flaw} (other : f.kind ≠ .cycle) :
    ⟨a, f⟩ ∉ g.cycles relation := by
  intro h
  obtain ⟨members, rfl⟩ := Edges.flaw_of_cycles h
  exact other rfl

theorem notMem_itemIssues {f : Flaw} (other : ∀ parent, f ≠ .noParent parent) :
    ⟨a, f⟩ ∉ c.itemIssues := by
  intro h
  obtain ⟨i, -, same⟩ := List.mem_map.mp h
  cases same
  exact other i.parent rfl

private theorem noRarity_mem_issues {target : PrototypeId} :
    ⟨a, .noRarity target⟩ ∈ c.issues ↔ ⟨a, .noRarity target⟩ ∈ c.rarityIssues := by
  have cycle {g : Edges} {relation} : ⟨a, .noRarity target⟩ ∉ g.cycles relation :=
    notMem_cycles (by rw [Flaw.kind]; decide)
  have item : ⟨a, .noRarity target⟩ ∉ c.itemIssues := notMem_itemIssues fun _ same => by cases same
  simp only [issues, List.mem_append, List.mem_flatMap, cycle, item, noRarity_notMem_tableIssues,
    and_false, exists_false, or_false]

private theorem noTable_mem_issues {target : PrototypeId} :
    ⟨a, .noTable target⟩ ∈ c.issues ↔
      ∃ t ∈ c.lootTables, ⟨a, .noTable target⟩ ∈ c.tableIssues t := by
  have cycle {g : Edges} {relation} : ⟨a, .noTable target⟩ ∉ g.cycles relation :=
    notMem_cycles (by rw [Flaw.kind]; decide)
  have item : ⟨a, .noTable target⟩ ∉ c.itemIssues := notMem_itemIssues fun _ same => by cases same
  have rarity : ⟨a, .noTable target⟩ ∉ c.rarityIssues := by
    intro h
    obtain ⟨r, -, same⟩ := List.mem_map.mp h
    cases same
  simp only [issues, List.mem_append, List.mem_flatMap, cycle, item, rarity, false_or, or_false]

section
variable {content : Content} (registered : ofContent content = .ok c)
include registered

private theorem mem_downgrades :
    (a, b) ∈ c.downgrades ↔ c.Downgrades a b ∧ (c.rarity? b).isSome = true := by
  have index := ofContent_isIndex registered
  simp only [Downgrades, rarity?_eq_some_iff_mem_rarities index, downgrades, List.mem_map,
    List.mem_filter, Prod.mk.injEq]
  constructor
  · rintro ⟨r, ⟨listed, known⟩, rfl, rfl⟩
    obtain ⟨below, found⟩ := Option.isSome_iff_exists.mp known
    have valid := isValid_of_find? registered (rarity?_eq_some_iff.mp found)
    exact ⟨⟨⟨r, ⟨listed, rfl⟩, rfl⟩, valid⟩, known⟩
  · rintro ⟨⟨⟨r, ⟨listed, rfl⟩, rfl⟩, -⟩, known⟩
    exact ⟨r, ⟨listed, known⟩, rfl, rfl⟩

theorem reportsCycle_downgrade_iff :
    c.ReportsCycle .downgrade ↔ ∃ id, Relation.TransGen c.Downgrades id id := by
  rw [reportsCycle_iff]
  refine exists_congr fun id => reaches_self_iff (fun a b => mem_downgrades registered) ?_
  rintro a b ⟨⟨r, found, -⟩, -⟩
  rw [found, Option.isSome_some]

private theorem reportsCycle_reference_iff :
    c.ReportsCycle .reference ↔ ∃ id, Relation.TransGen c.Refers id id := by
  have index := ofContent_isIndex registered
  rw [reportsCycle_iff]
  refine exists_congr fun id => reaches_self_iff (fun a b => mem_references index) ?_
  rintro a b ⟨t, found, -⟩
  rw [found, Option.isSome_some]

theorem noRarity_mem_issues_iff {target : PrototypeId} :
    ⟨a, .noRarity target⟩ ∈ c.issues ↔ c.Downgrades a target ∧ c.rarity? target = none := by
  have index := ofContent_isIndex registered
  simp only [noRarity_mem_issues, Downgrades, rarity?_eq_some_iff_mem_rarities index, rarityIssues,
    List.mem_map, List.mem_filter, Issue.mk.injEq, Flaw.noRarity.injEq, Bool.and_eq_true,
    Option.isNone_iff_eq_none]
  constructor
  · rintro ⟨r, ⟨listed, valid, absent⟩, rfl, rfl⟩
    exact ⟨⟨⟨r, ⟨listed, rfl⟩, rfl⟩, valid⟩, absent⟩
  · rintro ⟨⟨⟨r, ⟨listed, rfl⟩, rfl⟩, valid⟩, absent⟩
    exact ⟨r, ⟨listed, valid, absent⟩, rfl, rfl⟩

private theorem noTable_mem_issues_iff {target : PrototypeId} :
    ⟨a, .noTable target⟩ ∈ c.issues ↔ c.Refers a target ∧ c.lootTable? target = none := by
  simp only [noTable_mem_issues, noTable_mem_tableIssues, refers_iff (ofContent_isIndex registered)]
  constructor
  · rintro ⟨t, listed, rfl, named, absent⟩
    exact ⟨⟨t, listed, rfl, named⟩, absent⟩
  · rintro ⟨⟨t, listed, rfl, named⟩, absent⟩
    exact ⟨t, listed, rfl, named, absent⟩

/-- The issues tell what is wrong with downgrades and references. A cycle is among them exactly if
some rarity, or some table, comes back to itself, and a loose end exactly if a target is not of
its kind. Without such issues of rarities every rarity is one tier above the one it is downgraded
to. -/
theorem issues_iff_graph :
    (c.ReportsCycle .downgrade ↔ ∃ id, Relation.TransGen c.Downgrades id id) ∧
    (c.ReportsCycle .reference ↔ ∃ id, Relation.TransGen c.Refers id id) ∧
    (∀ id target, ⟨id, .noRarity target⟩ ∈ c.issues ↔
      c.Downgrades id target ∧ c.rarity? target = none) ∧
    (∀ id target, ⟨id, .noTable target⟩ ∈ c.issues ↔
      c.Refers id target ∧ c.lootTable? target = none) ∧
    (¬ c.ReportsCycle .downgrade → (∀ id target, ⟨id, .noRarity target⟩ ∉ c.issues) →
      ∀ id r, c.rarity? id = some r → r.downgradeTo.isValid = true →
        ∃ below, c.rarity? r.downgradeTo = some below ∧ c.tier r = c.tier below + 1) := by
  refine ⟨reportsCycle_downgrade_iff registered, reportsCycle_reference_iff registered,
    fun _ _ => noRarity_mem_issues_iff registered, fun _ _ => noTable_mem_issues_iff registered,
    fun quiet known id r found valid => ?_⟩
  have acyclic : ∀ id, ¬ Relation.TransGen c.Downgrades id id := fun id loop =>
    quiet ((reportsCycle_downgrade_iff registered).mpr ⟨id, loop⟩)
  obtain ⟨below, below?⟩ : ∃ below, c.rarity? r.downgradeTo = some below := by
    refine Option.ne_none_iff_exists'.mp fun absent => known id r.downgradeTo ?_
    exact (noRarity_mem_issues_iff registered).mpr ⟨⟨⟨r, found, rfl⟩, valid⟩, absent⟩
  exact ⟨below, below?, tier_eq_succ registered acyclic found below? valid⟩

end

/-- Two tables refer to each other, past the fallback of a token and the target of an action, and
the first one also to no table; the rarities stand in a chain. -/
theorem issues_iff_graph_mutual :
    let content : Content := {
      rarities := [{ id := ⟨1⟩ }, { id := ⟨2⟩, downgradeTo := ⟨1⟩ },
        { id := ⟨3⟩, downgradeTo := ⟨2⟩ }]
      lootTables := [
        { id := ⟨11⟩, root := .token {} ⟨5⟩ .none (some
          (.table {} {} [.reference {} ⟨12⟩ {}, .reference {} ⟨97⟩ {}])) },
        { id := ⟨12⟩, root := .action {} .firstTime ⟨9⟩ (.reference {} ⟨11⟩ {}) }] }
    ∃ c, ofContent content = .ok c ∧
      (∃ id, Relation.TransGen c.Refers id id) ∧ c.Refers ⟨11⟩ ⟨97⟩ ∧
      (∀ id, ¬ Relation.TransGen c.Downgrades id id) ∧
      ∀ id r, c.rarity? id = some r → r.downgradeTo.isValid = true →
        ∃ below, c.rarity? r.downgradeTo = some below ∧ c.tier r = c.tier below + 1 := by
  intro content
  have told {c : Catalog} (registered : ofContent content = .ok c)
      (reported : c.issues =
        [⟨⟨11⟩, .noTable ⟨97⟩⟩, ⟨⟨11⟩, .cycle .reference [⟨11⟩, ⟨12⟩]⟩]) :
      (∃ id, Relation.TransGen c.Refers id id) ∧ c.Refers ⟨11⟩ ⟨97⟩ ∧
      (∀ id, ¬ Relation.TransGen c.Downgrades id id) ∧
      ∀ id r, c.rarity? id = some r → r.downgradeTo.isValid = true →
        ∃ below, c.rarity? r.downgradeTo = some below ∧ c.tier r = c.tier below + 1 := by
    obtain ⟨downgrade, reference, -, loose, tiers⟩ := issues_iff_graph registered
    have quiet : ¬ c.ReportsCycle .downgrade := by
      rintro ⟨i, found, members, flaw⟩
      rw [reported] at found
      rcases List.mem_pair.mp found with rfl | rfl <;> cases flaw
    have known : ∀ id target, ⟨id, .noRarity target⟩ ∉ c.issues := by
      intro id target found
      rw [reported] at found
      rcases List.mem_pair.mp found with same | same <;> cases same
    refine ⟨reference.mp ⟨⟨⟨11⟩, .cycle .reference [⟨11⟩, ⟨12⟩]⟩, ?cycle, _, rfl⟩,
      ((loose _ _).mp ?loose).1, fun id loop => quiet (downgrade.mpr ⟨id, loop⟩),
      tiers quiet known⟩
    case cycle =>
      rw [reported]
      exact .tail _ (.head _)
    case loose =>
      rw [reported]
      exact .head _
  have registered : ofContent content = .ok _ := rfl
  refine ⟨_, registered, told registered ?reported⟩
  case reported => decide +kernel

end Catalog

end Spoils
