import Mathlib.Data.List.Perm.Subperm
import Mathlib.Logic.Relation
import Spoils.Catalog.Lineage
import Spoils.Proofs.Catalog.Index

/-! Walks that stop where they would come back, and the tiers of rarities: without cycles and loose
ends every rarity is one tier above the one that it is downgraded to. -/
namespace Spoils

section
variable {next : PrototypeId → PrototypeId} {fuel : Nat} {met met' : List PrototypeId}
  {id other : PrototypeId}

/-- A walk goes on from an identifier that is valid and new to it. -/
theorem trail_of_new (new : id.isValid = true ∧ id ∉ met) :
    trail next (fuel + 1) met id = id :: trail next fuel (id :: met) (next id) := by
  rw [trail, new.1, Bool.true_and, List.contains_eq_mem, decide_eq_false new.2, Bool.not_false,
    if_pos rfl]

theorem trail_of_not_new (stop : ¬ (id.isValid = true ∧ id ∉ met)) :
    trail next (fuel + 1) met id = [] := by
  rw [trail, if_neg]
  simpa using stop

theorem trail_nodup (next : PrototypeId → PrototypeId) (fuel : Nat) (met : List PrototypeId)
    (id : PrototypeId) :
    (trail next fuel met id).Nodup ∧ ∀ x ∈ trail next fuel met id, x ∉ met := by
  induction fuel generalizing met id with
  | zero => exact ⟨.nil, nofun⟩
  | succ fuel ih =>
    by_cases new : id.isValid = true ∧ id ∉ met
    · rw [trail_of_new new]
      obtain ⟨distinct, fresh⟩ := ih (id :: met) (next id)
      refine ⟨List.nodup_cons.mpr ⟨fun again => fresh id again (.head met), distinct⟩, ?_⟩
      rintro x (_ | ⟨_, later⟩)
      · exact new.2
      · exact fun seen => fresh x later (.tail id seen)
    · rw [trail_of_not_new new]
      exact ⟨.nil, nofun⟩

/-- What a walk meets lies behind its start, past valid identifiers only. -/
theorem path_of_mem_trail (mem : other ∈ trail next fuel met id) : id.isValid = true ∧
    Relation.ReflTransGen (fun a b => next a = b ∧ b.isValid = true) id other := by
  induction fuel generalizing met id with
  | zero => cases mem
  | succ fuel ih =>
    by_cases new : id.isValid = true ∧ id ∉ met
    · rw [trail_of_new new] at mem
      rcases List.mem_cons.mp mem with rfl | later
      · exact ⟨new.1, .refl⟩
      · obtain ⟨valid, path⟩ := ih later
        exact ⟨new.1, .head ⟨rfl, valid⟩ path⟩
    · rw [trail_of_not_new new] at mem
      cases mem

theorem trail_add (ends : (trail next fuel met id).length < fuel) (more : Nat) :
    trail next (fuel + more) met id = trail next fuel met id := by
  induction fuel generalizing met id with
  | zero => cases ends
  | succ fuel ih =>
    rw [Nat.add_right_comm]
    by_cases new : id.isValid = true ∧ id ∉ met
    · rw [trail_of_new new] at ends ⊢
      rw [trail_of_new new, ih (Nat.lt_of_succ_lt_succ ends)]
    · rw [trail_of_not_new new, trail_of_not_new new]

theorem trail_congr (sub : met ⊆ met')
    (aside : ∀ x ∈ met', x ∈ trail next fuel met id → x ∈ met) :
    trail next fuel met' id = trail next fuel met id := by
  induction fuel generalizing met met' id with
  | zero => rfl
  | succ fuel ih =>
    by_cases new : id.isValid = true ∧ id ∉ met
    · rw [trail_of_new new] at aside ⊢
      rw [trail_of_new ⟨new.1, fun seen => new.2 (aside id seen (.head _))⟩]
      congr 1
      refine ih (List.cons_subset_cons id sub) fun x seen later => ?_
      rcases List.mem_cons.mp seen with rfl | before
      · exact .head met
      · exact .tail id (aside x before (.tail id later))
    · rw [trail_of_not_new new, trail_of_not_new]
      exact fun still => new ⟨still.1, fun seen => still.2 (sub seen)⟩

/-- A walk that ended before its steps ran out leads nowhere else. -/
theorem next_mem_trail (ends : (trail next fuel met id).length < fuel)
    (mem : other ∈ trail next fuel met id) (valid : (next other).isValid = true) :
    next other ∈ trail next fuel met id ∨ next other ∈ met := by
  induction fuel generalizing met id with
  | zero => cases ends
  | succ fuel ih =>
    by_cases new : id.isValid = true ∧ id ∉ met
    · rw [trail_of_new new] at ends mem ⊢
      have short := Nat.lt_of_succ_lt_succ ends
      have later : next other ∈ trail next fuel (id :: met) (next id) ∨ next other ∈ id :: met := by
        rcases List.mem_cons.mp mem with rfl | behind
        · refine (Classical.em _).symm.imp_left fun fresh => ?_
          obtain ⟨left, rfl⟩ := Nat.exists_eq_succ_of_ne_zero (Nat.ne_zero_of_lt short)
          rw [trail_of_new ⟨valid, fresh⟩]
          exact .head _
        · exact ih short behind
      rcases later with later | _ | ⟨_, before⟩
      · exact .inl (.tail _ later)
      · exact .inl (.head _)
      · exact .inr before
    · rw [trail_of_not_new new] at mem
      cases mem

/-- A walk that ended before its steps ran out has met everything behind its start. -/
theorem mem_trail_of_path (ends : (trail next fuel [] id).length < fuel)
    (valid : id.isValid = true)
    (path : Relation.ReflTransGen (fun a b => next a = b ∧ b.isValid = true) id other) :
    other ∈ trail next fuel [] id := by
  induction path with
  | refl =>
    obtain ⟨left, rfl⟩ := Nat.exists_eq_succ_of_ne_zero (Nat.ne_zero_of_lt ends)
    rw [trail_of_new ⟨valid, List.not_mem_nil⟩]
    exact .head _
  | tail _ step met =>
    obtain ⟨rfl, valid⟩ := step
    exact (next_mem_trail ends met valid).resolve_right List.not_mem_nil

end

namespace Catalog
variable {c : Catalog} {a b id : PrototypeId} {r below : Rarity}

def Downgrades (c : Catalog) (a b : PrototypeId) : Prop :=
  (∃ r, c.rarity? a = some r ∧ r.downgradeTo = b) ∧ b.isValid = true

theorem rarityBelow_eq (found : c.rarity? id = some r) : c.rarityBelow id =
    if (c.rarity? r.downgradeTo).isSome then r.downgradeTo else .none := by
  rw [rarityBelow, downgradeOf, found]

/-- The rarity below another is a rarity, if it is any. -/
theorem isSome_of_rarityBelow (valid : (c.rarityBelow a).isValid = true) :
    (c.rarity? (c.rarityBelow a)).isSome = true := by
  simp only [rarityBelow] at valid ⊢
  split
  · assumption
  · rename_i loose
    rw [if_neg loose] at valid
    cases valid

theorem downgradeOf_isValid (valid : (c.downgradeOf a).isValid = true) :
    c.Downgrades a (c.downgradeOf a) := by
  rw [downgradeOf] at valid ⊢
  split at valid
  · rename_i r found
    exact ⟨⟨r, found, rfl⟩, valid⟩
  · cases valid

theorem downgrades_rarityBelow (valid : (c.rarityBelow a).isValid = true) :
    c.Downgrades a (c.rarityBelow a) := by
  simp only [rarityBelow] at valid ⊢
  split
  · rename_i known
    rw [if_pos known] at valid
    exact downgradeOf_isValid valid
  · rename_i loose
    rw [if_neg loose] at valid
    cases valid

/-- A walk downwards from a rarity meets rarities only, and so fewer than the catalog has
prototypes. -/
theorem length_trail_rarityBelow_le (fuel : Nat) (met : List PrototypeId)
    (first : id.isValid = true → (c.rarity? id).isSome = true) :
    (trail c.rarityBelow fuel met id).length ≤ c.size := by
  have within : trail c.rarityBelow fuel met id ⊆ c.prototypes.keys := by
    intro x hx
    obtain ⟨valid, path⟩ := path_of_mem_trail hx
    have known : (c.rarity? x).isSome = true := by
      rcases path.cases_tail with rfl | ⟨y, -, rfl, valid⟩
      · exact first valid
      · exact isSome_of_rarityBelow valid
    obtain ⟨r, found⟩ := Option.isSome_iff_exists.mp known
    exact List.mem_map_of_mem (SortedMap.find?_eq_some_iff.mp (rarity?_eq_some_iff.mp found))
  have fewer := (List.subperm_of_subset (trail_nodup ..).1 within).length_le
  rwa [SortedMap.keys, List.length_map] at fewer

theorem path_rarityBelow (path : Relation.ReflTransGen c.Downgrades a b)
    (known : (c.rarity? b).isSome = true) :
    Relation.ReflTransGen (fun a b => c.rarityBelow a = b ∧ b.isValid = true) a b := by
  induction path using Relation.ReflTransGen.head_induction_on with
  | refl => exact .refl
  | @head x y step rest ih =>
    obtain ⟨⟨r, found, rfl⟩, valid⟩ := step
    have onward : (c.rarity? r.downgradeTo).isSome = true := by
      rcases rest.cases_head with same | ⟨z, ⟨⟨r', found', -⟩, -⟩, -⟩
      · rw [same]
        exact known
      · rw [found', Option.isSome_some]
    exact .head ⟨by rw [rarityBelow_eq found, if_pos onward], valid⟩ ih

section
variable {content : Content} (registered : ofContent content = .ok c)
include registered

theorem rarity?_isValid (found : c.rarity? id = some r) : id.isValid = true :=
  isValid_of_find? registered (rarity?_eq_some_iff.mp found)

/-- The tier of a rarity is how many rarities a walk downwards meets, begun at itself. -/
theorem tier_eq_length (found : c.rarity? id = some r) :
    c.tier r = (trail c.rarityBelow (c.walkLength + 1) [] id).length := by
  have index := ofContent_isIndex registered
  have named : r.id = id :=
    ((find?_eq_some_iff_mem_values index).mp (rarity?_eq_some_iff.mp found)).2
  rw [trail_of_new ⟨rarity?_isValid registered found, List.not_mem_nil⟩, List.length_cons, tier,
    named, ← rarityBelow_eq found]

/-- No rarity below a rarity has a higher tier, on cycles neither. -/
theorem tier_le (found : c.rarity? a = some r) (path : Relation.ReflTransGen c.Downgrades a b)
    (known : c.rarity? b = some below) : c.tier below ≤ c.tier r := by
  rw [tier_eq_length registered found, tier_eq_length registered known]
  have short := length_trail_rarityBelow_le (c.walkLength + 1) [] fun _ =>
    Option.isSome_of_eq_some found
  have down := path_rarityBelow path (Option.isSome_of_eq_some known)
  refine (List.subperm_of_subset (trail_nodup ..).1 fun x met => ?_).length_le
  refine mem_trail_of_path ?_ (rarity?_isValid registered found)
    (down.trans (path_of_mem_trail met).2)
  rw [walkLength] at short ⊢
  omega

/-- Where no rarity comes back to itself a rarity is one tier above the one below it. -/
theorem tier_eq_succ (acyclic : ∀ id, ¬ Relation.TransGen c.Downgrades id id)
    (found : c.rarity? id = some r) (known : c.rarity? r.downgradeTo = some below)
    (valid : r.downgradeTo.isValid = true) : c.tier r = c.tier below + 1 := by
  have down : c.Downgrades id r.downgradeTo := ⟨⟨r, found, rfl⟩, valid⟩
  have aside : id ∉ trail c.rarityBelow c.walkLength [] r.downgradeTo := by
    intro back
    obtain ⟨-, path⟩ := path_of_mem_trail back
    have behind : Relation.ReflTransGen c.Downgrades r.downgradeTo id := by
      refine Relation.ReflTransGen.mono ?_ _ _ path
      rintro a _ ⟨rfl, valid⟩
      exact downgrades_rarityBelow valid
    exact acyclic id (.head' down behind)
  have short := length_trail_rarityBelow_le c.walkLength [] fun _ => Option.isSome_of_eq_some known
  -- To have met the rarity itself makes no difference on the way down from the one below it.
  have past : trail c.rarityBelow c.walkLength [id] r.downgradeTo =
      trail c.rarityBelow c.walkLength [] r.downgradeTo := by
    refine trail_congr (List.nil_subset _) fun x seen way => ?_
    rw [List.mem_singleton.mp seen] at way
    exact (aside way).elim
  rw [tier_eq_length registered found, tier_eq_length registered known,
    trail_of_new ⟨rarity?_isValid registered found, List.not_mem_nil⟩, rarityBelow_eq found,
    if_pos (Option.isSome_of_eq_some known), List.length_cons, past, trail_add ?_ 1]
  rw [walkLength] at short ⊢
  omega

end

end Catalog

end Spoils
