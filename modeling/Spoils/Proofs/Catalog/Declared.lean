import Spoils.Proofs.Catalog.Index

/-! A catalog has what its content declares: which prototypes it finds, and what it lists of each
kind. -/
namespace Spoils

/-- The list of content in which prototypes of a kind are looked up. -/
def Content.shelf (content : Content) : PrototypeKind → List Prototype
  | .rarity => content.rarities.map .rarity
  | .affix => content.affixes.map .affix
  | .item => content.items.map .item
  | .affixTable => content.affixTables.map .affixTable
  | .lootTable => content.lootTables.map .lootTable
  | .difficultyTier => content.difficultyTiers.map .difficultyTier
  | _ => content.prototypes.map .named

namespace Prototype

theorem kind_normalize (p : Prototype) : p.normalize.kind = p.kind := by
  cases p <;> rfl

theorem normalize_eq_named_iff {p : Prototype} {n : NamedPrototype} :
    p.normalize = .named n ↔ p = .named n := by
  cases p <;> simp [normalize]

/-- Only a named prototype can claim a kind that is looked up in another list. -/
theorem mem_shelf_iff {content : Content} {p : Prototype} (declared : p ∈ content.declared) :
    p ∈ content.shelf p.kind ↔ ∀ n, p = .named n → n.kind.isDetailed = false := by
  cases p with
  | named n =>
    have listed : Prototype.named n ∈ content.prototypes.map .named := by
      simpa [Content.declared] using declared
    simp only [named.injEq, forall_eq', kind]
    cases n.kind <;> simp [Content.shelf, PrototypeKind.isDetailed, listed]
  | _ => simpa [Content.declared, Content.shelf, kind] using declared

end Prototype

namespace Catalog
variable {content : Content} {c : Catalog}

theorem resolve?_eq_some_iff {id : PrototypeId} {p : Prototype} :
    c.resolve? id = some p ↔
      c.prototypes.find? id = some p ∧ ∀ n, p = .named n → n.kind.isDetailed = false := by
  rw [resolve?]
  split
  · rename_i n found
    rw [found]
    split
    · rename_i detailed
      constructor
      · nofun
      · rintro ⟨same, plain⟩
        cases same
        cases detailed.symm.trans (plain n rfl)
    · rename_i plain
      rw [iff_self_and]
      intro same m named
      cases same
      cases named
      exact Bool.eq_false_iff.mpr plain
  · rename_i unnamed
    rw [iff_self_and]
    rintro found n rfl
    exact (unnamed n found).elim

variable (registered : ofContent content = .ok c)
include registered

/-- A declared prototype is found, normalized, exactly if it stands in the list for its kind. -/
theorem resolve?_eq_some_iff_shelf {q p : Prototype} (declared : q ∈ content.declared) :
    c.resolve? q.id = some p ↔ q ∈ content.shelf q.kind ∧ q.normalize = p := by
  have found : c.prototypes.find? q.id = some q.normalize :=
    (find?_eq_some_iff registered).mpr ⟨q, declared, rfl, rfl⟩
  rw [resolve?_eq_some_iff, found, Prototype.mem_shelf_iff declared, Option.some.injEq]
  constructor
  · rintro ⟨rfl, plain⟩
    exact ⟨fun n named => plain n (Prototype.normalize_eq_named_iff.mpr named), rfl⟩
  · rintro ⟨plain, rfl⟩
    exact ⟨rfl, fun n named => plain n (Prototype.normalize_eq_named_iff.mp named)⟩

theorem contains_iff_declared {id : PrototypeId} :
    c.contains id = true ↔ ∃ q ∈ content.declared, q.id = id := by
  rw [contains, SortedMap.contains, Option.isSome_iff_exists]
  simp only [find?_eq_some_iff registered]
  constructor
  · rintro ⟨p, q, declared, named, -⟩
    exact ⟨q, declared, named⟩
  · rintro ⟨q, declared, named⟩
    exact ⟨q.normalize, q, declared, named, rfl⟩

omit registered in
private theorem idsOfKind_ascending (c : Catalog) (kind : PrototypeKind) :
    (c.idsOfKind kind).Pairwise fun a b => compare a b = .lt :=
  List.pairwise_map.mpr (c.prototypes.sorted.filter _)

private theorem mem_idsOfKind {kind : PrototypeKind} {id : PrototypeId} :
    id ∈ c.idsOfKind kind ↔ ∃ q ∈ content.declared, q.kind = kind ∧ q.id = id := by
  simp only [idsOfKind, List.mem_map, List.mem_filter, beq_iff_eq]
  constructor
  · rintro ⟨⟨key, p⟩, ⟨entry, kinds⟩, rfl⟩
    obtain ⟨q, declared, named, rfl⟩ :=
      (find?_eq_some_iff registered).mp (SortedMap.find?_eq_some_iff.mpr entry)
    exact ⟨q, declared, q.kind_normalize.symm.trans kinds, named⟩
  · rintro ⟨q, declared, kinds, rfl⟩
    have found := (find?_eq_some_iff registered).mpr ⟨q, declared, rfl, rfl⟩
    exact ⟨(q.id, q.normalize), ⟨SortedMap.find?_eq_some_iff.mp found, q.kind_normalize.trans kinds⟩,
      rfl⟩

/-- A catalog finds every prototype that its content declares in the list for its kind, normalized and
with that kind, and nothing else. It contains every identifier that is declared, so the two agree
exactly if every prototype stands in the list for its kind. Of each kind it lists the declared
identifiers in ascending order. -/
theorem resolve?_declared :
    (∀ id p, c.resolve? id = some p ↔ ∃ q ∈ content.declared,
      q ∈ content.shelf q.kind ∧ q.id = id ∧ q.normalize = p ∧ p.kind = q.kind) ∧
    (∀ id, c.contains id = true ↔ ∃ q ∈ content.declared, q.id = id) ∧
    ((∀ id, c.contains id = (c.resolve? id).isSome) ↔
      ∀ q ∈ content.declared, q ∈ content.shelf q.kind) ∧
    ∀ kind, (c.idsOfKind kind).Pairwise (fun a b => compare a b = .lt) ∧
      ∀ id, id ∈ c.idsOfKind kind ↔ ∃ q ∈ content.declared, q.kind = kind ∧ q.id = id := by
  have known {id p} (found : c.resolve? id = some p) : ∃ q ∈ content.declared, q.id = id := by
    obtain ⟨q, declared, named, -⟩ :=
      (find?_eq_some_iff registered).mp (resolve?_eq_some_iff.mp found).1
    exact ⟨q, declared, named⟩
  have finds {q p} := resolve?_eq_some_iff_shelf registered (q := q) (p := p)
  refine ⟨fun id p => ⟨fun found => ?found, ?shelved⟩, fun id => contains_iff_declared registered,
    ⟨fun agree q declared => ?agree, fun shelved id => ?apart⟩,
    fun kind => ⟨idsOfKind_ascending c kind, fun id => mem_idsOfKind registered⟩⟩
  case found =>
    obtain ⟨q, declared, rfl⟩ := known found
    obtain ⟨shelved, rfl⟩ := (finds declared).mp found
    exact ⟨q, declared, shelved, rfl, rfl, q.kind_normalize⟩
  case shelved =>
    rintro ⟨q, declared, shelved, rfl, normal, -⟩
    exact (finds declared).mpr ⟨shelved, normal⟩
  case agree =>
    have some : (c.resolve? q.id).isSome = true := by
      rw [← agree, contains_iff_declared registered]
      exact ⟨q, declared, rfl⟩
    obtain ⟨p, found⟩ := Option.isSome_iff_exists.mp some
    exact ((finds declared).mp found).1
  case apart =>
    rw [Bool.eq_iff_iff, contains_iff_declared registered, Option.isSome_iff_exists]
    constructor
    · rintro ⟨q, declared, rfl⟩
      exact ⟨q.normalize, (finds declared).mpr ⟨shelved q declared, rfl⟩⟩
    · rintro ⟨p, found⟩
      exact known found

omit registered

/-- A range of levels is brought into order before its item can be found. -/
theorem resolve?_declared_normalized :
    let content : Content := {
      rarities := [{ id := ⟨10⟩ }]
      items := [{ id := ⟨100⟩, restrictions := [.level 0 (-5)] }]
      prototypes := [{ id := ⟨50⟩, kind := .keyword }] }
    ∃ c, ofContent content = .ok c ∧
      c.resolve? ⟨100⟩ = some (.item { id := ⟨100⟩, restrictions := [.level 1 (-1)] }) ∧
      c.idsOfKind .item = [⟨100⟩] ∧ ∀ id, c.contains id = (c.resolve? id).isSome := by
  intro content
  have registered : ofContent content = .ok _ := rfl
  obtain ⟨resolves, -, agrees, lists⟩ := resolve?_declared registered
  have item : Prototype.item { id := ⟨100⟩, restrictions := [.level 0 (-5)] } ∈ content.declared :=
    List.mem_of_getElem? (i := 1) rfl
  refine ⟨_, registered, ?found, ?listed, agrees.mpr ?shelved⟩
  case found => exact (resolves _ _).mpr ⟨_, item, List.mem_singleton_self _, rfl, rfl, rfl⟩
  case listed =>
    refine eq_of_ascending (lists .item).1 (List.pairwise_singleton _ _) fun id => ?_
    rw [(lists .item).2, List.mem_singleton]
    simp [content, Content.declared, Prototype.kind, Prototype.id, eq_comm]
  case shelved => simp [content, Content.declared, Content.shelf, Prototype.kind]

/-- A prototype that only has a name and claims to be an item is counted as one and not found. -/
theorem resolve?_mislabelled :
    ∃ c, ofContent { prototypes := [{ id := ⟨5⟩, kind := .item }] } = .ok c ∧
      c.contains ⟨5⟩ = true ∧ c.resolve? ⟨5⟩ = none ∧ c.idsOfKind .item = [⟨5⟩] :=
  ⟨_, rfl, rfl, rfl, rfl⟩

end Catalog

end Spoils
