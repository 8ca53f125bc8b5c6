import Spoils.Proofs.Affix.Filling
import Spoils.Proofs.Affix.Keys

/-! How affixes are rolled from a pool: those drawn before one that is put on are refused, since the
draft has them, and nothing is rolled only when all of the pool was refused. So many are put on as
are asked for, except that a draw which overwrites counts and adds nothing. -/
namespace Spoils

namespace Affix

/-- The scopes that an affix may be put on with; one that has none of its own is general. -/
def allScopes (a : Affix) : List PrototypeId := if a.scopes.isEmpty then [.none] else a.scopes

theorem mem_allScopes {a : Affix} {scope : PrototypeId} :
    scope ∈ a.allScopes ↔ scope ∈ a.scopes ∨ a.scopes = [] ∧ scope = .none := by
  rw [allScopes]
  split
  · rename_i general
    simp [List.isEmpty_iff.mp general]
  · rename_i narrowed
    simp [List.isEmpty_eq_false_iff.mp (Bool.eq_false_iff.mpr narrowed)]

/-- A drawn scope is one that the affix may have, and it is taken only when all of them are. -/
theorem pickScope_cases (a : Affix) (taken : PrototypeId → Bool) (dice : Dice) :
    (a.pickScope taken dice).1 ∈ a.allScopes ∧
      (taken (a.pickScope taken dice).1 = true → ∀ scope ∈ a.allScopes, taken scope = true) := by
  rw [pickScope]
  split
  · rename_i scope dice' drawn
    have free := Picker.pickOne_mem (congrArg Prod.fst drawn)
    rw [Picker.items_uniform, List.mem_filter, Bool.not_eq_true'] at free
    refine ⟨mem_allScopes.mpr (.inl free.1), fun chosen => ?_⟩
    cases free.2.symm.trans chosen
  · rename_i dice' none
    have full := Picker.pickOne_uniform_eq_none (congrArg Prod.fst none)
    rw [List.filter_eq_nil_iff] at full
    have own (scope : PrototypeId) (listed : scope ∈ a.scopes) : taken scope = true := by
      simpa using full scope listed
    cases drawn : ((Picker.uniform a.scopes).pickOne dice').1 with
    | some scope =>
      have again := Picker.pickOne_mem drawn
      rw [Picker.items_uniform] at again
      simp only [drawn]
      refine ⟨mem_allScopes.mpr (.inl again), fun _ other among => ?_⟩
      rcases mem_allScopes.mp among with listed | ⟨general, -⟩
      · exact own other listed
      · rw [general] at again
        cases again
    | none =>
      have general := Picker.pickOne_uniform_eq_none drawn
      simp only [drawn]
      refine ⟨mem_allScopes.mpr (.inr ⟨general, rfl⟩), fun chosen other among => ?_⟩
      rcases mem_allScopes.mp among with listed | ⟨-, rfl⟩
      · exact own other listed
      · exact chosen

end Affix

namespace Draft
variable {p q : Picker Affix} {d e : Draft} {dice rest : Dice} {a : Affix} {scope : PrototypeId}

theorem putAffix_eq_some (h : d.putAffix a scope dice = some (e, rest)) :
    (∃ seed, e = d.attachAffix a scope seed) ∨
      a.duplicates = .overwrite ∧ (a.id, scope) ∈ d.affixKeys ∧
        ∃ seed, e = { d with affixes := reseed (a.id, scope) seed d.affixes } := by
  simp only [putAffix] at h
  split at h
  · rename_i present
    split at h
    · cases h
    · cases h
    · rename_i again
      simp only [Option.some.injEq, Prod.mk.injEq] at h
      exact .inr ⟨again, hasAffix_iff.mp present, _, h.1.symm⟩
    · simp only [Option.some.injEq, Prod.mk.injEq] at h
      exact .inl ⟨_, h.1.symm⟩
  · simp only [Option.some.injEq, Prod.mk.injEq] at h
    exact .inl ⟨_, h.1.symm⟩

theorem putAffix_eq_none (h : d.putAffix a scope dice = none) : a.id ∈ d.affixIds := by
  simp only [putAffix] at h
  split at h
  · rename_i present
    rw [affixIds_eq]
    exact List.mem_map_of_mem (hasAffix_iff.mp present)
  · cases h

/-- An affix that is rolled was drawn after others that the draft refused, and is put on with one of
its scopes, a free one if there is any. -/
theorem rollOneWith_eq_true {fuel : Nat} (h : rollOneWith fuel p d dice = (true, q, e, rest)) :
    ∃ a refused scope dice', p.items.Perm (refused ++ a :: q.items) ∧ q.entries ⊆ p.entries ∧
      (∀ b ∈ refused, b.id ∈ d.affixIds) ∧ (scope ∈ a.allScopes ∧
        (d.hasAffix a.id scope = true → ∀ scope ∈ a.allScopes, d.hasAffix a.id scope = true)) ∧
      d.putAffix a scope dice' = some (e, rest) := by
  induction fuel generalizing p dice with
  | zero => cases h
  | succ fuel ih =>
    rw [rollOneWith] at h
    split at h
    · cases h
    · rename_i a p' dice' picked
      obtain ⟨weight, -, drawn⟩ := Picker.pick_perm (congrArg Prod.fst picked)
      have items : p.items.Perm (a :: p'.items) := drawn.map Prod.fst
      have left : p'.entries ⊆ p.entries := fun entry he => drawn.mem_iff.mpr (.tail _ he)
      have own := a.pickScope_cases (d.hasAffix a.id) dice'
      rcases chosen : a.pickScope (d.hasAffix a.id) dice' with ⟨scope, next⟩
      rw [chosen] at own
      simp only [chosen] at h
      split at h
      · rename_i put
        cases h
        exact ⟨a, [], scope, next, items, left, List.forall_mem_nil _, own, put⟩
      · rename_i refuses
        obtain ⟨b, refused, scope', last, perm, left', all, own', put⟩ := ih h
        refine ⟨b, a :: refused, scope', last, items.trans (perm.cons a),
          List.Subset.trans left' left, ?_, own', put⟩
        exact List.forall_mem_cons.mpr ⟨putAffix_eq_none refuses, all⟩

/-- Nothing is rolled only when the draft has all of the pool. -/
theorem rollOneWith_eq_false {fuel : Nat} (heavy : ∀ entry ∈ p.entries, 0 < entry.2)
    (enough : p.size ≤ fuel) (h : (rollOneWith fuel p d dice).1 = false) :
    ∀ a ∈ p.items, a.id ∈ d.affixIds := by
  induction fuel generalizing p dice with
  | zero =>
    have empty : p.items = [] := List.eq_nil_of_length_eq_zero (by rw [p.length_items]; omega)
    rw [empty]
    exact fun a none => by cases none
  | succ fuel ih =>
    rw [rollOneWith] at h
    split at h
    · rename_i dice' picked
      intro a listed
      obtain ⟨entry, he, rfl⟩ := List.mem_map.mp listed
      obtain ⟨b, q, drawn⟩ := Picker.pick_isSome (Picker.totalWeight_pos he (heavy entry he)) dice
      rw [picked] at drawn
      cases drawn
    · rename_i a p' dice' picked
      obtain ⟨weight, -, drawn⟩ := Picker.pick_perm (congrArg Prod.fst picked)
      have items : p.items.Perm (a :: p'.items) := drawn.map Prod.fst
      have size : p.size = p'.size + 1 := drawn.length_eq
      rcases a.pickScope (d.hasAffix a.id) dice' with ⟨scope, next⟩
      simp only at h
      split at h
      · cases h
      · rename_i refuses
        have rest := ih (fun entry he => heavy entry (drawn.mem_iff.mpr (.tail _ he))) (by omega) h
        intro b listed
        rcases List.mem_cons.mp (items.mem_iff.mp listed) with rfl | later
        · exact putAffix_eq_none refuses
        · exact rest b later

/-- Whether to draw an affix would give a copy on the draft another seed: all copies that there may
be are there, and the affix is one to overwrite. -/
def overwrites (d : Draft) (a : Affix) : Bool :=
  a.duplicates == .overwrite && a.allScopes.all (d.hasAffix a.id)

theorem putAffix_cases {dice rest : Dice}
    (free : d.hasAffix a.id scope = true → ∀ scope ∈ a.allScopes, d.hasAffix a.id scope = true)
    (put : d.putAffix a scope dice = some (e, rest)) :
    e.affixKeys = d.affixKeys ++ [(a.id, scope)] ∨
      e.affixKeys = d.affixKeys ∧ d.overwrites a = true ∧ a.id ∈ d.affixIds := by
  rcases putAffix_eq_some put with ⟨seed, rfl⟩ | ⟨again, present, seed, rfl⟩
  · left
    simp only [affixKeys, attachAffix, List.map_append, List.map_cons, List.map_nil,
      AttachedAffix.key]
  · refine .inr ⟨reseed_keys .., ?_, ?_⟩
    · rw [overwrites, again, List.all_eq_true.mpr (free (hasAffix_iff.mpr present))]
      rfl
    · rw [affixIds_eq]
      exact List.mem_map_of_mem present

theorem overwrites_congr
    (same : ∀ scope, (a.id, scope) ∈ e.affixKeys ↔ (a.id, scope) ∈ d.affixKeys) :
    e.overwrites a = d.overwrites a := by
  have copies : e.hasAffix a.id = d.hasAffix a.id := by
    funext scope
    rw [Bool.eq_iff_iff, hasAffix_iff, hasAffix_iff, same]
  rw [overwrites, overwrites, copies]

/-- Everything in a pool may be drawn, and nothing is in it twice. -/
structure Drawable (p : Picker Affix) : Prop where
  heavy : ∀ entry ∈ p.entries, 0 < entry.2
  distinct : (p.items.map (·.id)).Nodup

theorem Drawable.pickerFor {c : Catalog} (index : Catalog.IsIndex c.prototypes) {pool : List Affix}
    (sub : pool.Sublist c.affixes) (item : PrototypeId) (f : AffixFilter) :
    Drawable (Affix.pickerFor c pool item f) :=
  ⟨c.pickerFor_heavy pool item f, Catalog.pickerFor_distinct index sub item f⟩

theorem rollOne_reaches {dice rest : Dice} (drawable : Drawable p)
    (rolled : rollOne p d dice = (true, q, e, rest)) :
    Drawable q ∧ q.items ⊆ p.items ∧ (∀ b ∈ p.items, b ∈ q.items ∨ b.id ∈ e.affixIds) ∧
      ∃ new : List Affix, new ⊆ p.items ∧ e.affixIds = d.affixIds ++ new.map (·.id) ∧
        q.items.countP e.overwrites + 1 ≤ new.length + p.items.countP d.overwrites := by
  obtain ⟨a, refused, scope, before, items, left, carried, ⟨-, free⟩, put⟩ :=
    rollOneWith_eq_true rolled
  have ids := (items.map (·.id)).nodup_iff.mp drawable.distinct
  rw [List.map_append, List.map_cons] at ids
  obtain ⟨drawn, distinct⟩ := List.nodup_cons.mp (List.nodup_append.mp ids).2.1
  have heavy := fun entry he => drawable.heavy entry (left he)
  have inside : a :: q.items ⊆ p.items := fun b hb =>
    items.mem_iff.mpr (List.mem_append_right _ hb)
  have count := items.countP_eq d.overwrites
  rw [List.countP_append, List.countP_cons] at count
  -- The affixes that are left were not touched by the one that was drawn.
  have untouched (keys : e.affixKeys = d.affixKeys ∨ e.affixKeys = d.affixKeys ++ [(a.id, scope)]) :
      q.items.countP e.overwrites = q.items.countP d.overwrites := by
    refine List.countP_congr fun b hb => ?_
    have other : b.id ≠ a.id := fun same => drawn (same ▸ List.mem_map_of_mem hb)
    rw [overwrites_congr fun scope => ?_]
    rcases keys with same | more
    · rw [same]
    · simp [more, other]
  have stays {ids : List PrototypeId} (grown : e.affixIds = d.affixIds ++ ids)
      (there : a.id ∈ e.affixIds) : ∀ b ∈ p.items, b ∈ q.items ∨ b.id ∈ e.affixIds := by
    intro b hb
    rcases List.mem_append.mp (items.mem_iff.mp hb) with passed | later
    · exact .inr (grown ▸ List.mem_append_left _ (carried b passed))
    · rcases List.mem_cons.mp later with rfl | later
      · exact .inr there
      · exact .inl later
  refine ⟨⟨heavy, distinct⟩, fun b hb => inside (.tail _ hb), ?_⟩
  rcases putAffix_cases free put with added | ⟨same, again, present⟩
  · have grown : e.affixIds = d.affixIds ++ [a.id] := by
      rw [affixIds_eq, added, List.map_append, ← affixIds_eq]
      rfl
    refine ⟨stays grown (grown ▸ List.mem_append_right _ (.head _)), [a], ?_, grown, ?_⟩
    · exact List.cons_subset.mpr ⟨inside (.head _), List.nil_subset _⟩
    · rw [untouched (.inr added), List.length_singleton]
      omega
  · have grown : e.affixIds = d.affixIds ++ [] := by
      rw [affixIds_eq, same, ← affixIds_eq, List.append_nil]
    refine ⟨stays grown (grown ▸ List.mem_append_left _ present), [], List.nil_subset _, grown, ?_⟩
    rw [untouched (.inl same), List.length_nil]
    rw [if_pos again] at count
    omega

/-- Rolling affixes puts on so many, less those that are drawn to be overwritten, or ends with
everything in the pool on the draft. -/
theorem rollMany_reaches (n : Nat) (drawable : Drawable p) (d : Draft) (dice : Dice) :
    ∃ new : List Affix, new ⊆ p.items ∧
      (rollMany n p d dice).2.1.affixIds = d.affixIds ++ new.map (·.id) ∧
      ((∀ a ∈ p.items, a.id ∈ (rollMany n p d dice).2.1.affixIds) ∨
        n ≤ new.length + p.items.countP d.overwrites) := by
  induction n generalizing p d dice with
  | zero => exact ⟨[], List.nil_subset _, (List.append_nil _).symm, .inr (Nat.zero_le _)⟩
  | succ n ih =>
    rw [rollMany]
    split
    · rename_i q e dice' stopped
      have one := rollOneWith_rollsOne p.size p d dice
      rw [← rollOne, stopped] at one
      rw [show e = d from one.same rfl]
      have all := rollOneWith_eq_false drawable.heavy (Nat.le_refl _) (congrArg Prod.fst stopped)
      exact ⟨[], List.nil_subset _, (List.append_nil _).symm, .inl all⟩
    · rename_i q e dice' rolled
      obtain ⟨left, sub, stays, new, listed, ids, enough⟩ := rollOne_reaches drawable rolled
      obtain ⟨more, listed', ids', reached⟩ := ih left e dice'
      refine ⟨new ++ more, ?_, ?_, ?_⟩
      · exact List.append_subset.mpr ⟨listed, List.Subset.trans listed' sub⟩
      · rw [ids', ids, List.append_assoc, List.map_append]
      · rcases reached with all | most
        · refine .inl fun a ha => ?_
          rcases stays a ha with later | there
          · exact all a later
          · exact ids' ▸ List.mem_append_left _ there
        · right
          rw [List.length_append]
          omega

end Draft

end Spoils
