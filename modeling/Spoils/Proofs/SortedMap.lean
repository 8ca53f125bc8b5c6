import Spoils.SortedMap

/-! Lookup in sorted maps: an entry is found under its key, and nothing else is. Sorted sets by
their members. -/
namespace Spoils

namespace SortedMap
variable {α β : Type} [Ord α] [Std.LawfulEqOrd α]

theorem lookup_eq_some_iff {l : List (α × β)} {k : α} {v : β}
    (sorted : l.Pairwise fun a b => compare a.1 b.1 = .lt) :
    lookup k l = some v ↔ (k, v) ∈ l := by
  induction l with
  | nil => simp [lookup]
  | cons e es ih =>
    obtain ⟨least, sorted⟩ := List.pairwise_cons.mp sorted
    have self : compare k k = .eq := Std.ReflCmp.compare_self
    rw [lookup, List.mem_cons]
    by_cases hit : compare k e.1 = .eq
    · have same : k = e.1 := Std.LawfulEqCmp.eq_of_compare hit
      rw [if_pos hit, Option.some.injEq]
      constructor
      · rintro rfl
        exact .inl (Prod.ext same rfl)
      · rintro (rfl | later)
        · rfl
        · have before : compare k k = .lt := by
            have := least _ later
            rwa [← same] at this
          cases before.symm.trans self
    · rw [if_neg hit, ih sorted]
      refine ⟨.inr, ?_⟩
      rintro (rfl | later)
      · exact (hit self).elim
      · exact later

theorem find?_eq_some_iff {m : SortedMap α β} {k : α} {v : β} :
    m.find? k = some v ↔ (k, v) ∈ m.entries := lookup_eq_some_iff m.sorted

theorem mem_insert [Std.TransOrd α] {m : SortedMap α β} {k : α} {v : β} {e : α × β}
    (h : e ∈ (m.insert k v).entries) : e = (k, v) ∨ e ∈ m.entries := mem_place h

omit [Std.LawfulEqOrd α] in
theorem keys_pairwise (m : SortedMap α β) : m.keys.Pairwise fun a b => compare a b = .lt :=
  List.pairwise_map.mpr m.sorted

theorem ne_of_lt {a b : α} (h : compare a b = .lt) : a ≠ b := by
  rintro rfl
  have self : compare a a = .eq := Std.ReflCmp.compare_self
  cases self.symm.trans h

variable [Std.TransOrd α]

theorem mem_place_iff {k : α} {v : β} {l : List (α × β)} {x : α × β}
    (sorted : l.Pairwise fun a b => compare a.1 b.1 = .lt) :
    x ∈ place k v l ↔ x = (k, v) ∨ x ∈ l ∧ x.1 ≠ k := by
  induction l with
  | nil => simp [place]
  | cons e es ih =>
    obtain ⟨least, rest⟩ := List.pairwise_cons.mp sorted
    unfold place
    split
    · rename_i before
      have others : ∀ y ∈ e :: es, y.1 ≠ k := by
        intro y hy
        rcases List.mem_cons.mp hy with rfl | hy
        · exact (ne_of_lt before).symm
        · exact (ne_of_lt (Std.TransCmp.lt_trans before (least y hy))).symm
      rw [List.mem_cons, and_iff_left_of_imp (others x)]
    · rename_i hit
      have same : k = e.1 := Std.LawfulEqCmp.eq_of_compare hit
      have others : ∀ y ∈ es, y.1 ≠ k := fun y hy => same ▸ (ne_of_lt (least y hy)).symm
      rw [List.mem_cons, List.mem_cons]
      constructor
      · rintro (new | old)
        · exact .inl new
        · exact .inr ⟨.inr old, others x old⟩
      · rintro (new | ⟨rfl | old, other⟩)
        · exact .inl new
        · exact (other same.symm).elim
        · exact .inr old
    · rename_i after
      have other : e.1 ≠ k := ne_of_lt (Std.OrientedCmp.gt_iff_lt.mp after)
      rw [List.mem_cons, List.mem_cons, ih rest]
      constructor
      · rintro (rfl | new | ⟨old, differs⟩)
        · exact .inr ⟨.inl rfl, other⟩
        · exact .inl new
        · exact .inr ⟨.inr old, differs⟩
      · rintro (new | ⟨rfl | old, differs⟩)
        · exact .inr (.inl new)
        · exact .inl rfl
        · exact .inr (.inr ⟨old, differs⟩)

theorem mem_insert_iff {m : SortedMap α β} {k : α} {v : β} {e : α × β} :
    e ∈ (m.insert k v).entries ↔ e = (k, v) ∨ e ∈ m.entries ∧ e.1 ≠ k := mem_place_iff m.sorted

omit [Std.TransOrd α] in
theorem contains_iff {m : SortedMap α β} {k : α} : m.contains k = true ↔ ∃ v, (k, v) ∈ m.entries := by
  rw [contains, Option.isSome_iff_exists]
  exact exists_congr fun v => find?_eq_some_iff

theorem contains_insert_iff {m : SortedMap α β} {k k' : α} {v : β} :
    (m.insert k v).contains k' = true ↔ k' = k ∨ m.contains k' = true := by
  simp only [contains_iff, mem_insert_iff, Prod.mk.injEq]
  constructor
  · rintro ⟨x, ⟨rfl, -⟩ | ⟨old, -⟩⟩
    · exact .inl rfl
    · exact .inr ⟨x, old⟩
  · rintro (rfl | ⟨x, old⟩)
    · exact ⟨v, .inl ⟨rfl, rfl⟩⟩
    · by_cases same : k' = k
      · exact ⟨v, .inl ⟨same, rfl⟩⟩
      · exact ⟨x, .inr ⟨old, same⟩⟩

theorem place_of_mem {k : α} {v : β} {l : List (α × β)}
    (sorted : l.Pairwise fun a b => compare a.1 b.1 = .lt) (h : (k, v) ∈ l) : place k v l = l := by
  induction l with
  | nil => contradiction
  | cons e es ih =>
    obtain ⟨least, rest⟩ := List.pairwise_cons.mp sorted
    rcases List.mem_cons.mp h with rfl | later
    · have self : compare k k = .eq := Std.ReflCmp.compare_self
      simp only [place, self]
    · have after : compare k e.1 = .gt := Std.OrientedCmp.gt_iff_lt.mpr (least _ later)
      simp only [place, after, ih rest later]

theorem find?_insert_self {m : SortedMap α β} {k : α} {v : β} : (m.insert k v).find? k = some v :=
  find?_eq_some_iff.mpr (mem_insert_iff.mpr (.inl rfl))

/-- Inserting what is there changes nothing, and inserting anything else does. -/
theorem insert_eq_self_iff {m : SortedMap α β} {k : α} {v w : β} (h : m.find? k = some v) :
    m.insert k w = m ↔ w = v := by
  constructor
  · intro same
    have there : m.find? k = some w := by
      rw [← same]
      exact find?_insert_self
    exact Option.some.inj (there.symm.trans h)
  · rintro rfl
    exact ext_entries (place_of_mem m.sorted (find?_eq_some_iff.mp h))

theorem find?_insert_ne {m : SortedMap α β} {k k' : α} {v : β} (other : k' ≠ k) :
    (m.insert k v).find? k' = m.find? k' := by
  refine Option.ext fun x => ?_
  rw [find?_eq_some_iff, find?_eq_some_iff, mem_insert_iff, Prod.mk.injEq]
  exact ⟨fun h => (h.resolve_left fun new => other new.1).1, fun h => .inr ⟨h, other⟩⟩

omit [Std.TransOrd α] in
theorem mem_erase_iff {m : SortedMap α β} {k : α} {e : α × β} :
    e ∈ (m.erase k).entries ↔ e ∈ m.entries ∧ e.1 ≠ k := by
  rw [erase, List.mem_filter, bne_iff_ne, Ne, Std.LawfulEqCmp.compare_eq_iff_eq, eq_comm]

omit [Std.TransOrd α] in
theorem find?_erase_self {m : SortedMap α β} {k : α} : (m.erase k).find? k = none := by
  refine Option.eq_none_iff_forall_ne_some.mpr fun x there => ?_
  exact (mem_erase_iff.mp (find?_eq_some_iff.mp there)).2 rfl

omit [Std.TransOrd α] in
theorem find?_erase_ne {m : SortedMap α β} {k k' : α} (other : k' ≠ k) :
    (m.erase k).find? k' = m.find? k' := by
  refine Option.ext fun x => ?_
  rw [find?_eq_some_iff, find?_eq_some_iff, mem_erase_iff]
  exact and_iff_left other

end SortedMap

/-- Lists in strictly ascending order of keys that have the same members are the same list. -/
theorem eq_of_ascendingOn {α γ : Type} [Ord α] [Std.LawfulEqOrd α] [Std.TransOrd α] (key : γ → α)
    {l l' : List γ} (hl : l.Pairwise fun a b => compare (key a) (key b) = .lt)
    (hl' : l'.Pairwise fun a b => compare (key a) (key b) = .lt)
    (same : ∀ a, a ∈ l ↔ a ∈ l') : l = l' := by
  have apart {a b : γ} (h : compare (key a) (key b) = .lt) : a ≠ b :=
    fun same => SortedMap.ne_of_lt h (congrArg key same)
  have perm : l.Perm l' :=
    (List.perm_ext_iff_of_nodup (hl.imp apart) (hl'.imp apart)).mpr same
  have antisymm (a b : γ) (_ : a ∈ l) (_ : b ∈ l') (there : compare (key a) (key b) = .lt)
      (back : compare (key b) (key a) = .lt) : a = b :=
    (apart (a := a) (Std.TransCmp.lt_trans there back) rfl).elim
  exact perm.eq_of_pairwise antisymm hl hl'

theorem eq_of_ascending {α : Type} [Ord α] [Std.LawfulEqOrd α] [Std.TransOrd α] {l l' : List α}
    (hl : l.Pairwise fun a b => compare a b = .lt) (hl' : l'.Pairwise fun a b => compare a b = .lt)
    (same : ∀ a, a ∈ l ↔ a ∈ l') : l = l' := eq_of_ascendingOn id hl hl' same

/-- A map is known by what is found in it. -/
theorem SortedMap.ext_find? {α β : Type} [Ord α] [Std.LawfulEqOrd α] [Std.TransOrd α]
    {m n : SortedMap α β} (same : ∀ k, m.find? k = n.find? k) : m = n := by
  refine ext_entries (eq_of_ascendingOn Prod.fst m.sorted n.sorted fun e => ?_)
  rw [← find?_eq_some_iff (m := m), ← find?_eq_some_iff (m := n), same]

namespace SortedSet
variable {α : Type} [Ord α] [Std.LawfulEqOrd α] [Std.TransOrd α] {s t : SortedSet α} {a b : α}

omit [Std.TransOrd α] in
theorem contains_iff : SortedMap.contains s a = true ↔ a ∈ s.toList := by
  simp [SortedMap.contains_iff, toList, SortedMap.keys]

theorem mem_add : b ∈ (s.add a).toList ↔ b = a ∨ b ∈ s.toList := by
  simp only [toList, SortedMap.keys, add, List.mem_map, SortedMap.mem_insert_iff]
  constructor
  · rintro ⟨e, rfl | ⟨old, -⟩, rfl⟩
    · exact .inl rfl
    · exact .inr ⟨e, old, rfl⟩
  · rintro (rfl | ⟨e, old, rfl⟩)
    · exact ⟨(b, ()), .inl rfl, rfl⟩
    · by_cases same : e.1 = a
      · exact ⟨(a, ()), .inl rfl, same.symm⟩
      · exact ⟨e, .inr ⟨old, same⟩, rfl⟩

theorem mem_addAll {l : List α} : b ∈ (l.foldl add s).toList ↔ b ∈ l ∨ b ∈ s.toList := by
  induction l generalizing s with
  | nil => simp
  | cons a l ih => rw [List.foldl_cons, ih, mem_add, List.mem_cons, or_left_comm, or_assoc]

theorem mem_ofList {l : List α} : b ∈ (ofList l).toList ↔ b ∈ l := by
  rw [ofList, mem_addAll]
  exact or_iff_left List.not_mem_nil

omit [Std.TransOrd α] in
theorem mem_without : a ∈ (s.without t).toList ↔ a ∈ s.toList ∧ a ∉ t.toList := by
  have kept : (s.without t).toList = s.toList.filter fun a => !SortedMap.contains t a := by
    rw [toList, toList, SortedMap.keys, SortedMap.keys, List.filter_map]
    rfl
  rw [kept, List.mem_filter, Bool.not_eq_true', ← Bool.not_eq_true, contains_iff]

end SortedSet
end Spoils
