import Mathlib.Data.Set.Card
import Mathlib.Order.Bounds.Defs
import Spoils.Proofs.Catalog.Ancestry
import Spoils.Proofs.Catalog.Tiers

/-! Walks along parents and downgrades find whatever repeated steps lead to, and tiers count the
rarities on the way down, whether the steps run into a loose end or around a cycle. -/
namespace Spoils

section
variable {next : PrototypeId → PrototypeId} {fuel n : Nat} {met : List PrototypeId}
  {id other : PrototypeId}

/-- A walk takes one step after the other. -/
theorem trail_eq_map (next : PrototypeId → PrototypeId) (fuel : Nat) (met : List PrototypeId)
    (id : PrototypeId) : trail next fuel met id =
      (List.range (trail next fuel met id).length).map fun n => next^[n] id := by
  induction fuel generalizing met id with
  | zero => rfl
  | succ fuel ih =>
    by_cases new : id.isValid = true ∧ id ∉ met
    · rw [trail_of_new new, List.length_cons, List.range_succ_eq_map, List.map_cons, List.map_map]
      exact congrArg (id :: ·) (ih (id :: met) (next id))
    · rw [trail_of_not_new new]
      rfl

/-- A walk that ended before its steps ran out is at none, or where it has been. -/
theorem iterate_of_ends (ends : (trail next fuel met id).length < fuel) :
    let last := next^[(trail next fuel met id).length] id
    last.isValid = true → last ∈ trail next fuel met id ∨ last ∈ met := by
  induction fuel generalizing met id with
  | zero => cases ends
  | succ fuel ih =>
    by_cases new : id.isValid = true ∧ id ∉ met
    · rw [trail_of_new new] at ends ⊢
      intro last valid
      rcases ih (Nat.lt_of_succ_lt_succ ends) valid with later | seen
      · exact .inl (.tail id later)
      · exact (List.mem_cons.mp seen).imp_left fun here => List.mem_cons.mpr (.inl here)
    · rw [trail_of_not_new new] at ends ⊢
      intro last valid
      exact .inr (Classical.not_not.mp fun fresh => new ⟨valid, fresh⟩)

theorem isValid_next_of_mem_dropLast (mem : other ∈ (trail next fuel met id).dropLast) :
    (next other).isValid = true := by
  induction fuel generalizing met id with
  | zero => cases mem
  | succ fuel ih =>
    by_cases new : id.isValid = true ∧ id ∉ met
    · rw [trail_of_new new] at mem
      rcases later : trail next fuel (id :: met) (next id) with _ | ⟨x, xs⟩
      · rw [later] at mem
        cases mem
      · rw [later, List.dropLast_cons_cons] at mem
        rcases List.mem_cons.mp mem with rfl | behind
        · exact (path_of_mem_trail (later ▸ List.mem_cons_self)).1
        · exact ih (later ▸ behind)
    · rw [trail_of_not_new new] at mem
      cases mem

/-- Where only known identifiers lead on, a walk meets one more than these at most. -/
theorem length_trail_le {known : List PrototypeId}
    (source : ∀ a, (next a).isValid = true → a ∈ known) :
    (trail next fuel met id).length ≤ known.length + 1 := by
  have distinct := (trail_nodup next fuel met id).1.sublist (List.dropLast_sublist _)
  have fewer := (List.subperm_of_subset distinct fun a onward =>
    source a (isValid_next_of_mem_dropLast onward)).length_le
  rw [List.length_dropLast] at fewer
  omega

private theorem iterate_of_path
    (path : Relation.ReflTransGen (fun a b => next a = b ∧ b.isValid = true) id other) :
    ∃ n, next^[n] id = other := by
  induction path with
  | refl => exact ⟨0, rfl⟩
  | tail _ step ih =>
    obtain ⟨n, rfl⟩ := ih
    exact ⟨n + 1, (Function.iterate_succ_apply' next n id).trans step.1⟩

variable (back : ∀ a, (next a).isValid = true → a.isValid = true)
include back

private theorem path_of_iterate (valid : (next^[n] id).isValid = true) : id.isValid = true ∧
    Relation.ReflTransGen (fun a b => next a = b ∧ b.isValid = true) id (next^[n] id) := by
  induction n with
  | zero => exact ⟨valid, .refl⟩
  | succ n ih =>
    rw [Function.iterate_succ_apply'] at valid ⊢
    obtain ⟨first, path⟩ := ih (back _ valid)
    exact ⟨first, path.tail ⟨rfl, valid⟩⟩

omit back in
theorem isValid_of_mem_trail (mem : other ∈ trail next fuel met id) : other.isValid = true := by
  obtain ⟨first, path⟩ := path_of_mem_trail mem
  rcases path.cases_tail with rfl | ⟨_, -, -, valid⟩
  · exact first
  · exact valid

/-- A walk that has steps enough meets what its steps lead to, and nothing else. -/
theorem mem_trail_iff (ends : (trail next fuel [] id).length < fuel) :
    other ∈ trail next fuel [] id ↔ other.isValid = true ∧ ∃ n, next^[n] id = other := by
  constructor
  · intro mem
    exact ⟨isValid_of_mem_trail mem, iterate_of_path (path_of_mem_trail mem).2⟩
  · rintro ⟨valid, n, rfl⟩
    obtain ⟨first, path⟩ := path_of_iterate back valid
    exact mem_trail_of_path ends first path

end

namespace Catalog
variable {c : Catalog} {a b id parent other : PrototypeId} {r : Rarity} {n k : Nat}

/-- Where so many downgrades lead, the identifier itself at zero. -/
def downgraded (c : Catalog) (id : PrototypeId) (n : Nat) : PrototypeId := c.downgradeOf^[n] id

theorem downgraded_succ : c.downgraded id (n + 1) = c.downgradeOf (c.downgraded id n) :=
  Function.iterate_succ_apply' c.downgradeOf n id

private theorem downgradeOf_eq (found : c.rarity? id = some r) :
    c.downgradeOf id = r.downgradeTo := by
  rw [downgradeOf, found]

theorem isSome_of_downgradeOf (valid : (c.downgradeOf a).isValid = true) :
    (c.rarity? a).isSome = true := by
  obtain ⟨⟨r, found, -⟩, -⟩ := downgradeOf_isValid valid
  exact Option.isSome_of_eq_some found

theorem length_trail_lt {next : PrototypeId → PrototypeId} {met : List PrototypeId}
    (source : ∀ a, (next a).isValid = true → ∃ p, c.prototypes.find? a = some p) :
    (trail next c.walkLength met id).length < c.walkLength := by
  have short : (trail next c.walkLength met id).length ≤ c.prototypes.keys.length + 1 :=
    length_trail_le fun a onward => by
      obtain ⟨p, found⟩ := source a onward
      exact List.mem_map_of_mem (SortedMap.find?_eq_some_iff.mp found)
  rw [SortedMap.keys, List.length_map] at short
  exact Nat.lt_succ_of_le short

theorem found_of_downgradeOf (valid : (c.downgradeOf a).isValid = true) :
    ∃ p, c.prototypes.find? a = some p := by
  obtain ⟨r, found⟩ := Option.isSome_iff_exists.mp (isSome_of_downgradeOf valid)
  exact ⟨.rarity r, rarity?_eq_some_iff.mp found⟩

/-- The rarities on the way down from a rarity, itself first. -/
def chain (c : Catalog) (id : PrototypeId) : List PrototypeId :=
  trail c.rarityBelow (c.walkLength + 1) [] id

theorem chain_nodup (c : Catalog) (id : PrototypeId) : (c.chain id).Nodup := (trail_nodup ..).1

/-- So many downgrades lead to no rarity, or to one that is on the way there. -/
def ChainEnds (c : Catalog) (id : PrototypeId) (n : Nat) : Prop :=
  c.rarity? (c.downgraded id n) = none ∨ ∃ k < n, c.downgraded id k = c.downgraded id n

theorem length_chain_lt (known : (c.rarity? id).isSome = true) :
    (c.chain id).length < c.walkLength + 1 := by
  have short := length_trail_rarityBelow_le (c.walkLength + 1) [] fun _ => known
  rw [← chain] at short
  rw [walkLength]
  omega

section
variable {content : Content} (registered : ofContent content = .ok c)
include registered

theorem isChildOf_iff : c.isChildOf id parent = true ↔
    id.isValid = true ∧ parent.isValid = true ∧ ∃ n, c.ancestor id n = parent := by
  have back (a : PrototypeId) (valid : (c.parentOf a).isValid = true) : a.isValid = true := by
    obtain ⟨p, found⟩ := found_of_parentOf valid
    exact isValid_of_find? registered found
  have ends : (c.lineage id).length < c.walkLength := length_trail_lt fun _ => found_of_parentOf
  simp only [isChildOf, Bool.and_eq_true, List.contains_iff_mem, and_assoc]
  refine and_congr_right fun _ => and_congr_right fun valid => ?_
  exact (mem_trail_iff back ends).trans (and_iff_right valid)

private theorem isChildOf_self (valid : id.isValid = true) : c.isChildOf id id = true :=
  (isChildOf_iff registered).mpr ⟨valid, valid, 0, rfl⟩

private theorem isChildOf_trans (h : c.isChildOf id parent = true)
    (h' : c.isChildOf parent other = true) : c.isChildOf id other = true := by
  obtain ⟨first, -, m, rfl⟩ := (isChildOf_iff registered).mp h
  obtain ⟨-, last, n, rfl⟩ := (isChildOf_iff registered).mp h'
  exact (isChildOf_iff registered).mpr ⟨first, last, m + n, ancestor_add.symm⟩

theorem isValid_of_downgradeOf (valid : (c.downgradeOf a).isValid = true) : a.isValid = true := by
  obtain ⟨p, found⟩ := found_of_downgradeOf valid
  exact isValid_of_find? registered found

theorem isSome_of_lt (valid : (c.downgraded id n).isValid = true) (before : k < n) :
    (c.rarity? (c.downgraded id k)).isSome = true := by
  induction n with
  | zero => cases before
  | succ n ih =>
    rw [downgraded_succ] at valid
    rcases Nat.lt_succ_iff_lt_or_eq.mp before with earlier | rfl
    · exact ih (isValid_of_downgradeOf registered valid) earlier
    · exact isSome_of_downgradeOf valid

/-- A rarity is downgraded to whatever one or more downgrades of rarities lead to. -/
theorem downgradesTo_iff (found : c.rarity? id = some r) : c.downgradesTo r other = true ↔
    other.isValid = true ∧ ∃ n, 0 < n ∧ c.downgraded id n = other ∧
      ∀ k < n, (c.rarity? (c.downgraded id k)).isSome = true := by
  have ends : (trail c.downgradeOf c.walkLength [] r.downgradeTo).length < c.walkLength :=
    length_trail_lt fun _ => found_of_downgradeOf
  have steps (n : Nat) : c.downgradeOf^[n] r.downgradeTo = c.downgraded id (n + 1) := by
    rw [downgraded, Function.iterate_succ_apply, downgradeOf_eq found]
  rw [downgradesTo, List.contains_iff_mem,
    mem_trail_iff (fun _ => isValid_of_downgradeOf registered) ends]
  refine and_congr_right fun valid => ⟨?_, ?_⟩
  · rintro ⟨n, rfl⟩
    rw [steps] at valid ⊢
    exact ⟨n + 1, Nat.succ_pos n, rfl, fun k => isSome_of_lt registered valid⟩
  · rintro ⟨_ | n, some, rfl, -⟩
    · cases some
    · exact ⟨n, steps n⟩

/-- Steps from rarity to rarity are downgrades, up to the first that does not lead to a rarity. -/
theorem iterate_rarityBelow (known : (c.rarity? id).isSome = true) (n : Nat) :
    c.rarityBelow^[n] id =
      if (c.rarity? (c.downgraded id n)).isSome then c.downgraded id n else .none := by
  have nothing : c.downgradeOf .none = .none := by
    cases found : c.rarity? .none with
    | some r => cases rarity?_isValid registered found
    | none => rw [downgradeOf, found]
  induction n with
  | zero => exact (if_pos known).symm
  | succ n ih =>
    rw [Function.iterate_succ_apply', ih, downgraded_succ]
    split
    · rfl
    · rename_i loose
      have ended : c.downgradeOf (c.downgraded id n) = .none := by
        rw [downgradeOf, Option.not_isSome_iff_eq_none.mp loose]
      rw [rarityBelow, nothing, ended]

section
variable (known : (c.rarity? id).isSome = true)
include known

theorem mem_chain_iff :
    a ∈ c.chain id ↔ (c.rarity? a).isSome = true ∧ ∃ n, c.downgraded id n = a := by
  have back (b : PrototypeId) (valid : (c.rarityBelow b).isValid = true) : b.isValid = true := by
    obtain ⟨⟨r, found, -⟩, -⟩ := downgrades_rarityBelow valid
    exact rarity?_isValid registered found
  rw [chain, mem_trail_iff back (length_chain_lt known)]
  constructor
  · rintro ⟨valid, n, rfl⟩
    rw [iterate_rarityBelow registered known] at valid ⊢
    split at valid
    · rename_i rarity
      rw [if_pos rarity]
      exact ⟨rarity, n, rfl⟩
    · cases valid
  · rintro ⟨rarity, n, rfl⟩
    obtain ⟨r, found⟩ := Option.isSome_iff_exists.mp rarity
    refine ⟨rarity?_isValid registered found, n, ?_⟩
    rw [iterate_rarityBelow registered known, if_pos rarity]

theorem chain_eq_map :
    c.chain id = (List.range (c.chain id).length).map fun n => c.downgraded id n := by
  have steps := trail_eq_map c.rarityBelow (c.walkLength + 1) [] id
  rw [← chain] at steps
  refine steps.trans (List.map_congr_left fun n listed => ?_)
  have mem : c.rarityBelow^[n] id ∈ c.chain id := by
    rw [steps]
    exact List.mem_map_of_mem listed
  have valid := isValid_of_mem_trail mem
  rw [iterate_rarityBelow registered known] at valid ⊢
  split
  · rfl
  · rename_i loose
    rw [if_neg loose] at valid
    cases valid

theorem mem_chain_iff_lt : a ∈ c.chain id ↔ ∃ n < (c.chain id).length, c.downgraded id n = a := by
  conv_lhs => rw [chain_eq_map registered known]
  simp only [List.mem_map, List.mem_range]

/-- The chain is as long as it takes to come to its end. -/
theorem isLeast_length_chain : IsLeast {n | c.ChainEnds id n} (c.chain id).length := by
  constructor
  · refine or_iff_not_imp_left.mpr fun rarity => ?_
    rw [← Ne, Option.ne_none_iff_isSome] at rarity
    obtain ⟨r, found⟩ := Option.isSome_iff_exists.mp rarity
    have again := iterate_of_ends (length_chain_lt known)
    rw [← chain, iterate_rarityBelow registered known, if_pos rarity] at again
    have mem := (again (rarity?_isValid registered found)).resolve_right List.not_mem_nil
    exact (mem_chain_iff_lt registered known).mp mem
  · intro n ends
    by_contra sooner
    have before := Nat.lt_of_not_le sooner
    have mem := (mem_chain_iff_lt registered known).mpr ⟨n, before, rfl⟩
    obtain loose | ⟨k, earlier, same⟩ := ends
    · rw [mem_chain_iff registered known, loose] at mem
      cases mem.1
    · have distinct := c.chain_nodup id
      rw [chain_eq_map registered known] at distinct
      have apart := List.inj_on_of_nodup_map distinct
        (List.mem_range.mpr (earlier.trans before)) (List.mem_range.mpr before) same
      exact Nat.ne_of_lt earlier apart

end

/-- The tier of a rarity is how many downgrades it takes until there is no further rarity, or one
that was met before, and it always comes to that. It is the number of rarities that downgrades lead
to, the rarity itself included, all of which are met before that. -/
theorem tier_counts (found : c.rarity? id = some r) :
    IsLeast {n | c.ChainEnds id n} (c.tier r) ∧
    {a | (c.rarity? a).isSome = true ∧ ∃ n, c.downgraded id n = a}.ncard = c.tier r ∧
    ∀ a, ((c.rarity? a).isSome = true ∧ ∃ n, c.downgraded id n = a) ↔
      ∃ n < c.tier r, c.downgraded id n = a := by
  have known := Option.isSome_of_eq_some found
  have length : c.tier r = (c.chain id).length := tier_eq_length registered found
  rw [length]
  refine ⟨isLeast_length_chain registered known, ?_, fun a => ?_⟩
  · have met : {a | (c.rarity? a).isSome = true ∧ ∃ n, c.downgraded id n = a} =
        (c.chain id).toFinset := by
      ext a
      rw [List.coe_toFinset]
      exact (mem_chain_iff registered known).symm
    rw [met, Set.ncard_coe_finset, List.toFinset_card_of_nodup (c.chain_nodup id)]
  · rw [← mem_chain_iff registered known, mem_chain_iff_lt registered known]

omit registered in
/-- A chain that enters a cycle after two rarities, and one that ends at an identifier that is not
registered. -/
theorem tier_counts_tailed :
    let content : Content := {
      rarities := [
        { id := ⟨1⟩, downgradeTo := ⟨2⟩ }, { id := ⟨2⟩, downgradeTo := ⟨3⟩ },
        { id := ⟨3⟩, downgradeTo := ⟨4⟩ }, { id := ⟨4⟩, downgradeTo := ⟨3⟩ },
        { id := ⟨5⟩, downgradeTo := ⟨6⟩ }] }
    ∃ c r r', ofContent content = .ok c ∧
      (c.rarity? ⟨1⟩ = some r ∧ c.tier r = 4 ∧ c.downgraded ⟨1⟩ 4 = c.downgraded ⟨1⟩ 2 ∧
        IsLeast {n | c.ChainEnds ⟨1⟩ n} (c.tier r) ∧
        {a | (c.rarity? a).isSome = true ∧ ∃ n, c.downgraded ⟨1⟩ n = a}.ncard = c.tier r) ∧
      c.rarity? ⟨5⟩ = some r' ∧ c.tier r' = 1 ∧ c.downgraded ⟨5⟩ 1 = ⟨6⟩ ∧
        IsLeast {n | c.ChainEnds ⟨5⟩ n} (c.tier r') ∧
        {a | (c.rarity? a).isSome = true ∧ ∃ n, c.downgraded ⟨5⟩ n = a}.ncard = c.tier r' := by
  intro content
  have counts {c : Catalog} {id : PrototypeId} {r : Rarity} (registered : ofContent content = .ok c)
      (found : c.rarity? id = some r) : IsLeast {n | c.ChainEnds id n} (c.tier r) ∧
        {a | (c.rarity? a).isSome = true ∧ ∃ n, c.downgraded id n = a}.ncard = c.tier r := by
    obtain ⟨least, number, -⟩ := tier_counts registered found
    exact ⟨least, number⟩
  have registered : ofContent content = .ok _ := rfl
  refine ⟨_, { id := ⟨1⟩, downgradeTo := ⟨2⟩ }, { id := ⟨5⟩, downgradeTo := ⟨6⟩ }, registered,
    ⟨?tailed, ?four, ?back, counts registered ?tailed⟩, ?loose, ?one, rfl, counts registered ?loose⟩
  case tailed | loose => rfl
  case four | one | back => decide +kernel

/-- An identifier is a child of what its parents lead to in any number of steps, itself included, if
both are valid: this is reflexive and transitive. A rarity is downgraded to what one or more steps
from rarity to rarity lead to, whether that is a rarity or not, if it is valid. There may be cycles
and loose ends on the way. -/
theorem walks_reach :
    (∀ id parent, c.isChildOf id parent = true ↔
      id.isValid = true ∧ parent.isValid = true ∧ ∃ n, c.ancestor id n = parent) ∧
    (∀ id, id.isValid = true → c.isChildOf id id = true) ∧
    (∀ id parent other, c.isChildOf id parent = true → c.isChildOf parent other = true →
      c.isChildOf id other = true) ∧
    ∀ id r other, c.rarity? id = some r → (c.downgradesTo r other = true ↔
      other.isValid = true ∧ ∃ n, 0 < n ∧ c.downgraded id n = other ∧
        ∀ k < n, (c.rarity? (c.downgraded id k)).isSome = true) :=
  ⟨fun _ _ => isChildOf_iff registered, fun _ => isChildOf_self registered,
    fun _ _ _ => isChildOf_trans registered, fun _ _ _ => downgradesTo_iff registered⟩

omit registered in
/-- Below two keywords that are each other's parents, and below a rarity that is its own downgrade;
another rarity is downgraded to what is not registered. -/
theorem walks_reach_looped :
    let content : Content := {
      rarities := [
        { id := ⟨10⟩, downgradeTo := ⟨11⟩ }, { id := ⟨11⟩, downgradeTo := ⟨11⟩ },
        { id := ⟨12⟩, downgradeTo := ⟨13⟩ }]
      items := [{ id := ⟨1⟩, parent := ⟨2⟩ }]
      prototypes := [
        { id := ⟨2⟩, kind := .keyword, parent := ⟨3⟩ },
        { id := ⟨3⟩, kind := .keyword, parent := ⟨2⟩ }] }
    ∃ c r r', ofContent content = .ok c ∧
      ((⟨1⟩ : PrototypeId).isValid = true ∧ c.isChildOf ⟨1⟩ ⟨1⟩ = true) ∧
      (c.isChildOf ⟨1⟩ ⟨2⟩ = true ∧ c.isChildOf ⟨2⟩ ⟨3⟩ = true ∧ c.isChildOf ⟨1⟩ ⟨3⟩ = true) ∧
      c.isChildOf ⟨3⟩ ⟨1⟩ = false ∧
      (c.rarity? ⟨11⟩ = some r ∧ c.downgradesTo r ⟨11⟩ = true ∧ c.downgradesTo r ⟨10⟩ = false) ∧
      c.rarity? ⟨12⟩ = some r' ∧ c.downgradesTo r' ⟨13⟩ = true := by
  intro content
  have registered : ofContent content = .ok _ := rfl
  obtain ⟨-, self, trans, downgrades⟩ := walks_reach registered
  refine ⟨_, _, _, registered, ⟨rfl, self _ rfl⟩, ⟨?up, ?above, trans _ ⟨2⟩ _ ?up ?above⟩, ?not,
    ⟨rfl, (downgrades ⟨11⟩ _ ⟨11⟩ rfl).mpr ⟨rfl, 1, Nat.one_pos, rfl, ?_⟩, ?never⟩, rfl,
    (downgrades ⟨12⟩ _ ⟨13⟩ rfl).mpr ⟨rfl, 1, Nat.one_pos, rfl, ?_⟩⟩
  case up | above | not | never => decide +kernel
  all_goals
    intro k first
    obtain rfl := Nat.lt_one_iff.mp first
    rfl

end

end Catalog

end Spoils
