import Spoils.Proofs.Picker

/-! Draws are exactly proportional: the rolled numbers fall on intervals side by side, each as long
as its entry weighs. -/
namespace Spoils.Picker
variable {α : Type} {es : List (α × Int)} {roll : Int} {i : Nat}

/-- How much the entries before a position weigh together. -/
def weightBefore (es : List (α × Int)) (i : Nat) : Int := (⟨es.take i⟩ : Picker α).totalWeight

theorem weightBefore_zero (es : List (α × Int)) : weightBefore es 0 = 0 := rfl

theorem weightBefore_succ (e : α × Int) (es : List (α × Int)) (i : Nat) :
    weightBefore (e :: es) (i + 1) = max e.2 0 + weightBefore es i := rfl

theorem weightBefore_nonneg (es : List (α × Int)) (i : Nat) : 0 ≤ weightBefore es i :=
  totalWeight_nonneg _

theorem weightBefore_add_le {e : α × Int} (found : es[i]? = some e) :
    weightBefore es i + max e.2 0 ≤ (⟨es⟩ : Picker α).totalWeight := by
  induction es generalizing i with
  | nil => cases found
  | cons f es ih =>
    rw [totalWeight_cons]
    cases i with
    | zero =>
      cases found
      have := totalWeight_nonneg (⟨es⟩ : Picker α)
      rw [weightBefore_zero]
      omega
    | succ i =>
      have := ih found
      rw [weightBefore_succ]
      omega

/-- A number falls on the entry whose interval it lies in. -/
theorem locate_eq_some_iff (least : 0 ≤ roll) : locate es roll = some i ↔
    ∃ e, es[i]? = some e ∧ weightBefore es i ≤ roll ∧ roll < weightBefore es i + e.2 := by
  induction es generalizing roll i with
  | nil => simp [locate]
  | cons e es ih =>
    -- the numbers of the first entry are taken off, so that those of the rest begin at zero
    have later (r : Int) (from_zero : 0 ≤ r) (rest : roll = max e.2 0 + r) :
        (locate es r).map (· + 1) = some i ↔ ∃ f, (e :: es)[i]? = some f ∧
          weightBefore (e :: es) i ≤ roll ∧ roll < weightBefore (e :: es) i + f.2 := by
      cases i with
      | zero =>
        simp only [Option.map_eq_some_iff, Nat.succ_ne_zero, and_false, exists_false,
          List.getElem?_cons_zero, Option.some.injEq, exists_eq_left', weightBefore_zero, false_iff]
        omega
      | succ i =>
        simp only [Option.map_eq_some_iff, Nat.succ.injEq, exists_eq_right, ih from_zero,
          List.getElem?_cons_succ, weightBefore_succ]
        refine exists_congr fun f => and_congr_right fun _ => ?_
        omega
    rw [locate]
    by_cases light : e.2 ≤ 0
    · rw [if_pos light]
      exact later roll least (by omega)
    · rw [if_neg light]
      by_cases hit : roll < e.2
      · rw [if_pos hit]
        cases i with
        | zero => simpa [weightBefore_zero] using And.intro least hit
        | succ i =>
          have := weightBefore_nonneg es i
          simp only [Option.some.injEq, (Nat.succ_ne_zero i).symm, weightBefore_succ, false_iff,
            not_exists, not_and]
          omega
      · rw [if_neg hit]
        exact later (roll - e.2) (by omega) (by omega)

/-- Of the numbers below a bound as many lie in an interval as it is long. -/
theorem countP_interval {least limit bound : Nat} (inside : limit ≤ bound) :
    (List.range bound).countP (fun n => least ≤ n ∧ n < limit) = limit - least := by
  have general (m : Nat) : (List.range m).countP (fun n => least ≤ n ∧ n < limit) =
      min m limit - min m least := by
    induction m with
    | zero => simp
    | succ m ih =>
      rw [List.range_succ, List.countP_append, ih, List.countP_singleton]
      split <;> simp only [decide_eq_true_eq] at * <;> omega
  rw [general]
  omega

/-- As many numbers fall on an entry as it weighs, and none if that is not positive. -/
theorem countP_locate (p : Picker α) (here : i < p.entries.length) :
    (((List.range p.totalWeight.toNat).countP fun roll : Nat =>
      locate p.entries roll = some i : Nat) : Int) = max p.entries[i].2 0 := by
  have found : p.entries[i]? = some p.entries[i] := List.getElem?_eq_getElem here
  have inside : weightBefore p.entries i + max p.entries[i].2 0 ≤ p.totalWeight :=
    weightBefore_add_le found
  have starts := weightBefore_nonneg p.entries i
  let least := (weightBefore p.entries i).toNat
  let limit := (weightBefore p.entries i + max p.entries[i].2 0).toNat
  have interval : ∀ roll ∈ List.range p.totalWeight.toNat,
      decide (locate p.entries roll = some i) = true ↔
        decide (least ≤ roll ∧ roll < limit) = true := by
    intro roll _
    rw [decide_eq_true_iff, decide_eq_true_iff, locate_eq_some_iff (Int.natCast_nonneg roll), found]
    simp only [Option.some.injEq, exists_eq_left', least, limit]
    omega
  rw [List.countP_congr interval, countP_interval (by omega)]
  omega

theorem totalWeight_le_iff (p : Picker α) : p.totalWeight ≤ 0 ↔ ∀ e ∈ p.entries, e.2 ≤ 0 := by
  constructor
  · intro light e listed
    refine Int.not_lt.mp fun heavy => ?_
    have := totalWeight_pos listed heavy
    omega
  · intro light
    obtain ⟨es⟩ := p
    induction es with
    | nil => exact Int.le_refl 0
    | cons e es ih =>
      have first := light e (.head es)
      have rest := ih fun f listed => light f (.tail e listed)
      rw [totalWeight_cons]
      omega

private theorem totalWeight_pos_iff (p : Picker α) :
    0 < p.totalWeight ↔ ∃ e ∈ p.entries, 0 < e.2 := by
  constructor
  · intro heavy
    refine Classical.byContradiction fun none => ?_
    have light : p.totalWeight ≤ 0 := (totalWeight_le_iff p).mpr fun e listed =>
      Int.not_lt.mp fun weighs => none ⟨e, listed, weighs⟩
    omega
  · rintro ⟨e, listed, weighs⟩
    exact totalWeight_pos listed weighs

/-- Where nothing weighs, no number is rolled; else the entry is drawn that the number falls on. -/
theorem drawIndex_eq (p : Picker α) (s : Dice) : (p.drawIndex s).1 =
    if p.totalWeight ≤ 0 then none else locate p.entries (s.wideInt 0 p.totalWeight).1 := by
  rw [drawIndex]
  split <;> rfl

private theorem draw_of_light {p : Picker α} (s : Dice) (light : p.totalWeight ≤ 0) :
    (p.sample s).1 = none ∧ (p.pick s).1 = none := by
  have index : (p.drawIndex s).1 = none := by rw [drawIndex_eq, if_pos light]
  simp only [sample, pick, index, Option.bind_none, and_self]

theorem draw_of_locate {p : Picker α} {s : Dice} (heavy : 0 < p.totalWeight)
    {i : Fin p.entries.length}
    (falls : locate p.entries (s.wideInt 0 p.totalWeight).1 = some i.val) :
    (p.sample s).1 = some (p.entries.get i).1 ∧
      (p.pick s).1 = some ((p.entries.get i).1, ⟨p.entries.eraseIdx i⟩) := by
  have index : (p.drawIndex s).1 = some i.val := by
    rw [drawIndex_eq, if_neg (by omega), falls]
  have found : p.entries[i.val]? = some (p.entries.get i) := List.getElem?_eq_getElem i.isLt
  simp only [sample, pick, index, Option.bind_some, found, Option.map_some, and_self]

/-- Every number that can be rolled falls on an entry of positive weight. -/
theorem exists_locate {p : Picker α} (least : 0 ≤ roll) (small : roll < p.totalWeight) :
    ∃ i : Fin p.entries.length, locate p.entries roll = some i.val ∧ 0 < (p.entries.get i).2 := by
  obtain ⟨i, falls⟩ := Option.isSome_iff_exists.mp (locate_isSome least small)
  obtain ⟨e, found, starts, ends⟩ := (locate_eq_some_iff least).mp falls
  obtain ⟨here, same⟩ := List.getElem?_eq_some_iff.mp found
  refine ⟨⟨i, here⟩, falls, ?_⟩
  rw [List.get_eq_getElem, same]
  omega

/-- Nothing is drawn exactly when no weight is positive. Otherwise the rolled number lies between
zero and the total weight, and the entry that it falls on is the one that is drawn. Each of these
numbers falls on an entry of positive weight, and on every entry fall as many of them as it weighs,
none if that is not positive. -/
theorem draws_proportional (p : Picker α) :
    (∀ s, ((p.sample s).1 = none ↔ ∀ e ∈ p.entries, e.2 ≤ 0) ∧
      ((p.pick s).1 = none ↔ ∀ e ∈ p.entries, e.2 ≤ 0)) ∧
    (∀ s, (∃ e ∈ p.entries, 0 < e.2) →
      let rolled := (s.wideInt 0 p.totalWeight).1
      (0 ≤ rolled ∧ rolled < p.totalWeight) ∧ ∀ i : Fin p.entries.length,
        locate p.entries rolled = some i.val →
          (p.sample s).1 = some (p.entries.get i).1 ∧
          (p.pick s).1 = some ((p.entries.get i).1, ⟨p.entries.eraseIdx i⟩)) ∧
    (∀ roll, 0 ≤ roll → roll < p.totalWeight → ∃ i : Fin p.entries.length,
      locate p.entries roll = some i.val ∧ 0 < (p.entries.get i).2) ∧
    ∀ i : Fin p.entries.length,
      (((List.range p.totalWeight.toNat).countP fun roll : Nat =>
        locate p.entries roll = some i.val : Nat) : Int) = max (p.entries.get i).2 0 := by
  refine ⟨fun s => ?_, fun s weighs => ?_, fun roll => exists_locate,
    fun i => countP_locate p i.isLt⟩
  · rw [← totalWeight_le_iff]
    by_cases light : p.totalWeight ≤ 0
    · have nothing := draw_of_light s light
      exact ⟨iff_of_true nothing.1 light, iff_of_true nothing.2 light⟩
    · have heavy : 0 < p.totalWeight := by omega
      obtain ⟨least, small⟩ := Dice.wideInt_mem heavy s
      obtain ⟨i, falls, -⟩ := exists_locate least small
      obtain ⟨sampled, picked⟩ := draw_of_locate heavy falls
      rw [sampled, picked]
      exact ⟨iff_of_false nofun light, iff_of_false nofun light⟩
  · have heavy := (totalWeight_pos_iff p).mpr weighs
    exact ⟨Dice.wideInt_mem heavy s, fun i falls => draw_of_locate heavy falls⟩

/-- The second entry and the last one share five numbers, past two entries that weigh nothing. -/
theorem draws_proportional_gaps :
    let p : Picker Nat := ⟨[(10, 0), (11, 2), (12, -4), (13, 3)]⟩
    let s : Dice := .ofSeed 1
    (∃ e ∈ p.entries, 0 < e.2) ∧ p.totalWeight = 5 ∧
      (∃ i : Fin 4, locate p.entries 2 = some i.val ∧ 0 < (p.entries.get i).2) ∧
      (s.wideInt 0 5).1 = 2 ∧ (p.sample s).1 = some 13 ∧
      (((List.range 5).countP fun roll : Nat => locate p.entries roll = some 3 : Nat) : Int) = 3 := by
  intro p s
  have weighs : ∃ e ∈ p.entries, 0 < e.2 := ⟨(11, 2), by decide, by decide⟩
  have total : p.totalWeight = 5 := by decide
  obtain ⟨-, draws, falls, shares⟩ := draws_proportional p
  have rolled : (s.wideInt 0 5).1 = 2 := by decide +kernel
  refine ⟨weighs, total, falls 2 (by decide) (by decide), rolled, ?_, shares 3⟩
  have third : locate p.entries (s.wideInt 0 p.totalWeight).1 = some (3 : Fin 4).val := by
    rw [total, rolled]
    decide
  exact ((draws s weighs).2 3 third).1

end Spoils.Picker
