import Mathlib.Data.List.Forall2
import Spoils.Proofs.Affix.Draws
import Spoils.Proofs.Affix.Numbers

/-! What adding affixes makes of those that a draft has: they stay in front, where a draw that
overwrites one gives it another seed, and at most so many come behind them. There are as many as
were asked for, unless draws were spent on overwriting or everything is on the draft. -/
namespace Spoils

namespace Catalog
variable {c : Catalog} {item : PrototypeId} {f : AffixFilter}

/-- Whether an affix may be added to an item: it weighs something, passes the filter and may be on
the item. -/
def mayAdd (c : Catalog) (item : PrototypeId) (f : AffixFilter) (a : Affix) : Bool :=
  decide (0 < a.weight) && f.accepts a && c.allowsAttachment a item

private theorem pickerFor_mayAdd (pool : List Affix) (item : PrototypeId) (f : AffixFilter) :
    (Affix.pickerFor c pool item f).items = pool.filter (c.mayAdd item f) := by
  rw [Affix.pickerFor, Picker.items, List.map_map]
  exact List.map_id' _

theorem affixesAt_mayAdd (asked : f.position ≠ .none) :
    (c.affixesAt f.position).filter (c.mayAdd item f) = c.affixes.filter (c.mayAdd item f) := by
  rw [affixesAt, List.filter_filter]
  refine List.filter_congr fun a _ => Bool.and_eq_left_iff_imp.mpr fun may => ?_
  simp only [mayAdd, AffixFilter.accepts, Bool.and_eq_true, Bool.or_eq_true] at may
  exact may.1.2.1.1.resolve_left fun anywhere => asked (eq_of_beq anywhere)

end Catalog

namespace AttachedAffix

/-- An affix stays on, with another seed at most, and that only if it is one to overwrite. -/
def Keeps (c : Catalog) (x y : AttachedAffix) : Prop :=
  y = x ∨ (∃ seed, y = { x with seed := seed }) ∧
    ∃ a, c.affix? x.affix = some a ∧ a.duplicates = .overwrite

/-- What is on a draft is a copy of a registered affix that satisfies a condition. -/
def IsOf (c : Catalog) (fits : Affix → Prop) (x : AttachedAffix) : Prop :=
  ∃ a, c.affix? x.affix = some a ∧ fits a ∧ x.scope ∈ a.allScopes ∧
    x.levelRequirement = a.levelRequirement

variable {c : Catalog} {fits : Affix → Prop} {x y z : AttachedAffix}
  {xs ys zs : List AttachedAffix}

theorem Keeps.refl (x : AttachedAffix) : Keeps c x x := .inl rfl

theorem Keeps.trans (h : Keeps c x y) (h' : Keeps c y z) : Keeps c x z := by
  rcases h with rfl | ⟨⟨seed, rfl⟩, again⟩
  · exact h'
  · rcases h' with rfl | ⟨⟨seed', rfl⟩, -⟩
    · exact .inr ⟨⟨seed, rfl⟩, again⟩
    · exact .inr ⟨⟨seed', rfl⟩, again⟩

private theorem Keeps.affix_eq (h : Keeps c x y) : y.affix = x.affix := by
  rcases h with rfl | ⟨⟨seed, rfl⟩, -⟩ <;> rfl

theorem IsOf.keeps (h : IsOf c fits x) (kept : Keeps c x y) : IsOf c fits y := by
  rcases kept with rfl | ⟨⟨seed, rfl⟩, -⟩
  · exact h
  · exact h

private theorem keeps_same (xs : List AttachedAffix) : List.Forall₂ (Keeps c) xs xs :=
  List.forall₂_same.mpr fun x _ => .refl x

private theorem keeps_trans (h : List.Forall₂ (Keeps c) xs ys) (h' : List.Forall₂ (Keeps c) ys zs) :
    List.Forall₂ (Keeps c) xs zs := by
  induction h generalizing zs with
  | nil => exact h'
  | cons kept _ ih =>
    cases h' with
    | cons kept' rest' => exact .cons (kept.trans kept') (ih rest')

private theorem isOf_keeps (h : List.Forall₂ (Keeps c) xs ys) (all : ∀ x ∈ xs, IsOf c fits x) :
    ∀ y ∈ ys, IsOf c fits y := by
  induction h with
  | nil => exact List.forall_mem_nil _
  | cons kept _ ih =>
    obtain ⟨first, rest⟩ := List.forall_mem_cons.mp all
    exact List.forall_mem_cons.mpr ⟨first.keeps kept, ih rest⟩

private theorem affixes_keeps (h : List.Forall₂ (Keeps c) xs ys) :
    ys.map (·.affix) = xs.map (·.affix) := by
  induction h with
  | nil => rfl
  | cons kept _ ih => rw [List.map_cons, List.map_cons, kept.affix_eq, ih]

theorem reseed_keeps {key : PrototypeId × PrototypeId} {a : Affix}
    (known : c.affix? key.1 = some a) (again : a.duplicates = .overwrite) (seed : Nat)
    (xs : List AttachedAffix) : List.Forall₂ (Keeps c) xs (Draft.reseed key seed xs) := by
  induction xs with
  | nil => exact .nil
  | cons x xs ih =>
    rw [Draft.reseed]
    split
    · rename_i same
      have named : x.affix = key.1 := congrArg Prod.fst (eq_of_beq same)
      exact .cons (.inr ⟨⟨seed, rfl⟩, a, named ▸ known, again⟩) (keeps_same xs)
    · exact .cons (.refl x) ih

end AttachedAffix

namespace Draft
variable {c : Catalog} {fits : Affix → Prop} {occasion : Occasion} {s : BranchSettings}
  {count : Int} {f : AffixFilter} {d e g : Draft} {m n : Nat} {dice : Dice}

open AttachedAffix

/-- A draft keeps its affixes and has at most so many more behind them, copies of registered ones
that satisfy a condition. -/
def Adds (c : Catalog) (fits : Affix → Prop) (n : Nat) (d e : Draft) : Prop :=
  ∃ old new, e = { d with affixes := old ++ new } ∧ List.Forall₂ (Keeps c) d.affixes old ∧
    new.length ≤ n ∧ ∀ x ∈ new, IsOf c fits x

theorem Adds.none (n : Nat) (d : Draft) : Adds c fits n d d :=
  ⟨d.affixes, [], by rw [List.append_nil], keeps_same _, Nat.zero_le n, List.forall_mem_nil _⟩

theorem Adds.trans (h : Adds c fits m d e) (h' : Adds c fits n e g) : Adds c fits (m + n) d g := by
  obtain ⟨old, new, rfl, kept, few, all⟩ := h
  obtain ⟨both, newer, rfl, kept', few', all'⟩ := h'
  -- What was added first may have been given another seed since.
  have front := List.forall₂_take old.length kept'
  have back := List.forall₂_drop old.length kept'
  rw [List.take_left] at front
  rw [List.drop_left] at back
  refine ⟨both.take old.length, both.drop old.length ++ newer, ?_, keeps_trans kept front, ?_, ?_⟩
  · rw [← List.append_assoc, List.take_append_drop]
  · rw [List.length_append, ← back.length_eq]
    omega
  · exact List.forall_mem_append.mpr ⟨isOf_keeps back all, all'⟩

/-- How many affixes satisfy a condition grows by no more than what is added. -/
theorem Adds.numberOf_le (h : Adds c fits n d e) (q : Affix → Bool) :
    e.numberOf c q ≤ d.numberOf c q + n := by
  obtain ⟨old, new, rfl, kept, few, -⟩ := h
  have same : ({ d with affixes := old } : Draft).numberOf c q = d.numberOf c q := by
    have ids := congrArg (·.countP fun id => (c.affix? id).any q) (affixes_keeps kept)
    simp only [List.countP_map] at ids
    exact ids
  have added := numberOf_append c { d with affixes := old } new q
  have most := List.countP_le_length (p := fun x : AttachedAffix => (c.affix? x.affix).any q)
    (l := new)
  simp only at added
  omega

/-- Putting on one affix adds it, or gives the copy that it overwrites another seed. -/
private theorem putAffix_adds {a : Affix} {scope : PrototypeId} {rest : Dice}
    (known : c.affix? a.id = some a) (fit : fits a) (own : scope ∈ a.allScopes)
    (put : d.putAffix a scope dice = some (e, rest)) : Adds c fits 1 d e := by
  rcases putAffix_eq_some put with ⟨seed, rfl⟩ | ⟨again, -, seed, rfl⟩
  · refine ⟨d.affixes, [⟨a.id, scope, a.levelRequirement, seed⟩], rfl, keeps_same _, Nat.le_refl 1,
      List.forall_mem_singleton.mpr ⟨a, known, fit, own, rfl⟩⟩
  · exact ⟨reseed (a.id, scope) seed d.affixes, [], by rw [List.append_nil],
      reseed_keeps known again seed _, Nat.zero_le 1, List.forall_mem_nil _⟩

private theorem rollMany_adds (n : Nat) {p : Picker Affix}
    (known : ∀ a ∈ p.items, c.affix? a.id = some a ∧ fits a) (d : Draft) (dice : Dice) :
    Adds c fits n d (rollMany n p d dice).2.1 := by
  induction n generalizing p d dice with
  | zero => exact .none 0 d
  | succ n ih =>
    rw [rollMany]
    split
    · rename_i p' e dice' stopped
      have one := rollOneWith_rollsOne p.size p d dice
      rw [← rollOne, stopped] at one
      rw [show e = d from one.same rfl]
      exact .none (n + 1) d
    · rename_i p' e dice' rolled
      obtain ⟨a, refused, scope, before, items, -, -, ⟨own, -⟩, put⟩ :=
        rollOneWith_eq_true rolled
      have listed : a ∈ p.items := items.mem_iff.mpr (List.mem_append_right _ (.head _))
      have one := putAffix_adds (known a listed).1 (known a listed).2 own put
      have rest := ih (p := p')
        (fun b hb => known b (items.mem_iff.mpr (List.mem_append_right _ (.tail _ hb)))) e dice'
      rw [Nat.add_comm]
      exact one.trans rest

/-- What adding a number of affixes makes of a draft. -/
structure Gathers (c : Catalog) (count : Int) (f : AffixFilter) (d e : Draft) : Prop where
  adds : Adds c (fun a => c.mayAdd d.item f a = true) count.toNat d e
  /-- So many are put on, less the draws that only overwrite, or all that may be added is there. -/
  enough : f ≠ {} → (∀ a ∈ c.affixes, c.mayAdd d.item f a = true → a.id ∈ e.affixIds) ∨
    (d.affixes.length : Int) + count ≤
      e.affixes.length + c.affixes.countP fun a => d.overwrites a && c.mayAdd d.item f a

theorem rollCount_gathers (index : Catalog.IsIndex c.prototypes) {pool : List Affix}
    (sub : pool.Sublist c.affixes)
    (whole : pool.filter (c.mayAdd d.item f) = c.affixes.filter (c.mayAdd d.item f)) :
    Gathers c count f d (d.rollCount count (Affix.pickerFor c pool d.item f) dice).draft := by
  have items : (Affix.pickerFor c pool d.item f).items = c.affixes.filter (c.mayAdd d.item f) :=
    (Catalog.pickerFor_mayAdd ..).trans whole
  refine ⟨rollMany_adds count.toNat (fun a ha => ?_) d dice, fun _ => ?_⟩
  · rw [items, List.mem_filter] at ha
    exact ⟨Catalog.affix?_of_mem index ha.1, ha.2⟩
  · obtain ⟨new, -, ids, reached⟩ :=
      rollMany_reaches count.toNat (.pickerFor index sub d.item f) d dice
    rw [items, List.countP_filter] at reached
    refine reached.imp (fun all a listed may => ?_) fun enough => ?_
    · exact all a (List.mem_filter.mpr ⟨listed, may⟩)
    · have length := congrArg List.length ids
      simp only [affixIds, List.length_append, List.length_map] at length
      rw [rollCount]
      simp only [length]
      omega

/-- Affixes are added without an error where there is room for all of them. -/
theorem addAffixes_gathers (index : Catalog.IsIndex c.prototypes)
    (clean : (d.addAffixes c occasion s count f dice).report.error = false) :
    0 < count ∧ Gathers c count f d (d.addAffixes c occasion s count f dice).draft ∧
      ∀ l, d.limits? c occasion = some l → RoomFor c s count f d l := by
  rcases addAffixes_cases c occasion s count f d dice with
    ⟨report, same, told⟩ | ⟨pool, rolled, asked, positive, room⟩
  · rw [same] at clean ⊢
    obtain ⟨positive, rfl⟩ := told clean
    refine ⟨positive, ⟨.none _ d, fun asks => (asks rfl).elim⟩, fun l _ => ?_⟩
    exact ⟨fun placed => (placed rfl).elim, fun _ => List.forall_mem_nil _⟩
  · rw [rolled]
    refine ⟨positive, ?_, room⟩
    rcases asked with ⟨placed, rfl⟩ | ⟨-, rfl⟩
    · exact rollCount_gathers index (c.affixesAt_sublist _) (Catalog.affixesAt_mayAdd placed)
    · exact rollCount_gathers index (List.Sublist.refl _) rfl

end Draft

end Spoils
