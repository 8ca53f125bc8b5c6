import Spoils.Picker
import Spoils.Proofs.Random.Dice

/-! What is drawn from a picker, and what is left of it. -/
namespace Spoils.Picker
variable {α : Type}

/-- A roll falls on an entry of positive weight. -/
theorem locate_eq_some {es : List (α × Int)} {roll : Int} {i : Nat}
    (h : locate es roll = some i) :
    ∃ before e after, es = before ++ e :: after ∧ before.length = i ∧ 0 < e.2 := by
  induction es generalizing roll i with
  | nil => cases h
  | cons e es ih =>
    have later {r : Int} (h : (locate es r).map (· + 1) = some i) :
        ∃ before e' after, e :: es = before ++ e' :: after ∧ before.length = i ∧ 0 < e'.2 := by
      obtain ⟨j, hj, rfl⟩ := Option.map_eq_some_iff.mp h
      obtain ⟨before, e', after, rfl, rfl, positive⟩ := ih hj
      exact ⟨e :: before, e', after, rfl, rfl, positive⟩
    rw [locate] at h
    by_cases light : e.2 ≤ 0
    · rw [if_pos light] at h
      exact later h
    · rw [if_neg light] at h
      by_cases hit : roll < e.2
      · rw [if_pos hit] at h
        cases h
        exact ⟨[], e, es, rfl, rfl, by omega⟩
      · rw [if_neg hit] at h
        exact later h

/-- A pick takes one entry of positive weight out and keeps the others in order. -/
theorem pick_eq_some {p q : Picker α} {s : Dice} {a : α} (h : (p.pick s).1 = some (a, q)) :
    ∃ before weight after, p.entries = before ++ (a, weight) :: after ∧
      q.entries = before ++ after ∧ 0 < weight := by
  simp only [pick, Option.bind_eq_some_iff, Option.map_eq_some_iff] at h
  obtain ⟨i, drawn, e, found, ⟨rfl, rfl⟩⟩ := h
  have located : locate p.entries (s.wideInt 0 p.totalWeight).1 = some i := by
    rw [drawIndex] at drawn
    split at drawn
    · cases drawn
    · exact drawn
  obtain ⟨before, e', after, he, rfl, positive⟩ := locate_eq_some located
  rw [he] at found ⊢
  rw [List.getElem?_append_right (Nat.le_refl _), Nat.sub_self] at found
  cases found
  refine ⟨before, e.2, after, rfl, ?_, positive⟩
  simp only [List.eraseIdx_append_of_length_le (Nat.le_refl _), Nat.sub_self,
    List.eraseIdx_cons_zero]

theorem pick_mem {p q : Picker α} {s : Dice} {a : α} (h : (p.pick s).1 = some (a, q)) :
    a ∈ p.items ∧ q.items ⊆ p.items := by
  obtain ⟨before, weight, after, hp, hq, -⟩ := pick_eq_some h
  rw [items, items, hp, hq]
  simp only [List.map_append, List.map_cons]
  exact ⟨by simp, List.append_subset.mpr ⟨by simp, by simp⟩⟩

theorem length_items (p : Picker α) : p.items.length = p.size := by
  rw [items, size, List.length_map]

/-- What is picked, which weighs something, and what is left are all entries again. -/
theorem pick_perm {p q : Picker α} {s : Dice} {a : α} (h : (p.pick s).1 = some (a, q)) :
    ∃ weight, 0 < weight ∧ p.entries.Perm ((a, weight) :: q.entries) := by
  obtain ⟨before, weight, after, hp, hq, heavy⟩ := pick_eq_some h
  rw [hp, hq]
  exact ⟨weight, heavy, List.perm_middle⟩

theorem totalWeight_cons (e : α × Int) (es : List (α × Int)) :
    (⟨e :: es⟩ : Picker α).totalWeight = max e.2 0 + (⟨es⟩ : Picker α).totalWeight := rfl

theorem totalWeight_nonneg (p : Picker α) : 0 ≤ p.totalWeight := by
  obtain ⟨es⟩ := p
  induction es with
  | nil => exact Int.le_refl 0
  | cons e es ih =>
    rw [totalWeight_cons]
    omega

theorem totalWeight_pos {p : Picker α} {e : α × Int} (listed : e ∈ p.entries) (heavy : 0 < e.2) :
    0 < p.totalWeight := by
  obtain ⟨es⟩ := p
  induction es with
  | nil => cases listed
  | cons f es ih =>
    rw [totalWeight_cons]
    rcases List.mem_cons.mp listed with rfl | later
    · have := totalWeight_nonneg (⟨es⟩ : Picker α)
      omega
    · have := ih later
      omega

theorem locate_isSome {es : List (α × Int)} {roll : Int} (least : 0 ≤ roll)
    (small : roll < (⟨es⟩ : Picker α).totalWeight) : (locate es roll).isSome = true := by
  induction es generalizing roll with
  | nil =>
    have : (⟨[]⟩ : Picker α).totalWeight = 0 := rfl
    omega
  | cons e es ih =>
    rw [totalWeight_cons] at small
    rw [locate]
    split
    · rw [Option.isSome_map]
      exact ih least (by omega)
    · split
      · rfl
      · rw [Option.isSome_map]
        exact ih (by omega) (by omega)

theorem pick_isSome {p : Picker α} (heavy : 0 < p.totalWeight) (s : Dice) :
    ∃ a q, (p.pick s).1 = some (a, q) := by
  obtain ⟨least, small⟩ := Dice.wideInt_mem heavy s
  obtain ⟨i, located⟩ := Option.isSome_iff_exists.mp (locate_isSome least small)
  obtain ⟨before, e, after, entries, length, -⟩ := locate_eq_some located
  have drawn : (p.drawIndex s).1 = some i := by
    rw [drawIndex, if_neg (by omega)]
    exact located
  have found : p.entries[i]? = some e := by
    rw [entries, ← length, List.getElem?_append_right (Nat.le_refl _), Nat.sub_self]
    rfl
  refine ⟨e.1, ⟨p.entries.eraseIdx i⟩, ?_⟩
  simp only [pick, drawn, Option.bind_some, found, Option.map_some]

theorem le_of_pick_eq_none {p : Picker α} {s : Dice} (h : (p.pick s).1 = none) :
    ∀ e ∈ p.entries, e.2 ≤ 0 := by
  intro e listed
  refine Int.not_lt.mp fun heavy => ?_
  obtain ⟨a, q, picked⟩ := pick_isSome (totalWeight_pos listed heavy) s
  cases h.symm.trans picked

theorem pick_eq_none {p : Picker α} {s : Dice} (heavy : ∀ e ∈ p.entries, 0 < e.2)
    (h : (p.pick s).1 = none) : p.items = [] := by
  obtain ⟨_ | ⟨e, es⟩⟩ := p
  · rfl
  · have := le_of_pick_eq_none h e (.head es)
    have := heavy e (.head es)
    omega

theorem sample_mem {p : Picker α} {s : Dice} {a : α} (h : (p.sample s).1 = some a) :
    a ∈ p.items := by
  simp only [sample, Option.bind_eq_some_iff, Option.map_eq_some_iff] at h
  obtain ⟨i, -, e, found, rfl⟩ := h
  exact List.mem_map_of_mem (List.mem_of_getElem? found)

theorem items_uniform (l : List α) : (uniform l).items = l := by
  simp [uniform, items, Function.comp_def]

theorem pickOne_mem {p : Picker α} {s : Dice} {a : α} (h : (p.pickOne s).1 = some a) :
    a ∈ p.items := by
  simp only [pickOne, Option.map_eq_some_iff] at h
  obtain ⟨drawn, picked, rfl⟩ := h
  exact (pick_mem picked).1

/-- One of some items of equal weight is always drawn. -/
theorem pickOne_uniform_eq_none {items : List α} {s : Dice}
    (h : ((uniform items).pickOne s).1 = none) : items = [] := by
  have heavy : ∀ e ∈ (uniform items).entries, 0 < e.2 := by simp [uniform]
  have nothing := pick_eq_none heavy (Option.map_eq_none_iff.mp h)
  rwa [items_uniform] at nothing

section Map
variable {β : Type}

def map (f : α → β) (p : Picker α) : Picker β := ⟨p.entries.map fun e => (f e.1, e.2)⟩

theorem locate_map (f : α → β) (es : List (α × Int)) (roll : Int) :
    locate (es.map fun e => (f e.1, e.2)) roll = locate es roll := by
  induction es generalizing roll with
  | nil => rfl
  | cons e es ih => simp only [List.map_cons, locate, ih]

theorem drawIndex_map (f : α → β) (p : Picker α) (s : Dice) :
    (p.map f).drawIndex s = p.drawIndex s := by
  have total : (p.map f).totalWeight = p.totalWeight := List.foldr_map
  simp only [drawIndex, total]
  rw [map, locate_map]

theorem sample_map (f : α → β) (p : Picker α) (s : Dice) :
    (p.map f).sample s = ((p.sample s).1.map f, (p.sample s).2) := by
  rw [sample, sample, drawIndex_map]
  rcases p.drawIndex s with ⟨_ | i, s⟩
  · rfl
  · simp only [map, Option.bind_some, List.getElem?_map, Option.map_map]
    rfl

theorem pick_map (f : α → β) (p : Picker α) (s : Dice) :
    (p.map f).pick s = ((p.pick s).1.map fun x => (f x.1, x.2.map f), (p.pick s).2) := by
  rw [pick, pick, drawIndex_map]
  rcases p.drawIndex s with ⟨_ | i, s⟩
  · rfl
  · have erased : (p.entries.map fun e => (f e.1, e.2)).eraseIdx i =
        (p.entries.eraseIdx i).map fun e => (f e.1, e.2) := by
      simp only [List.eraseIdx_eq_take_drop_succ, List.map_append, List.map_take, List.map_drop]
    simp only [map, Option.bind_some, List.getElem?_map, Option.map_map, erased]
    rfl

theorem uniform_map (f : α → β) (items : List α) :
    uniform (items.map f) = (uniform items).map f := by
  simp only [uniform, map, List.map_map]
  rfl

end Map

end Spoils.Picker
