import Spoils.Proofs.Item.Restriction

/-! Adjusting a draft to restrictions changes only fields that are checked, and notes every field
that it changes. -/
namespace Spoils

/-- Nothing but what restrictions may adjust tells the drafts apart. -/
def Draft.Adjusts (d e : Draft) : Prop :=
  e = { d with level := e.level, rarity := e.rarity, rank := e.rank, slot := e.slot }

namespace Draft.Adjusts
variable {d e f : Draft}

theorem trans (h : d.Adjusts e) (h' : e.Adjusts f) : d.Adjusts f := by
  rw [Adjusts, h] at h'
  exact h'

theorem item_eq (h : d.Adjusts e) : e.item = d.item :=
  (congrArg Draft.item h).trans rfl

theorem checks_eq (h : d.Adjusts e) : e.checks = d.checks :=
  (congrArg Draft.checks h).trans rfl

end Draft.Adjusts

/-- Besides level, rarity, rank and slot the drafts are the same, and each of these differs only
with its flag in the set. -/
structure Draft.DiffersIn (flags : Checks) (d e : Draft) : Prop where
  rest : d.Adjusts e
  level : e.level ≠ d.level → flags.level = true
  rarity : e.rarity ≠ d.rarity → flags.rarity = true
  rank : e.rank ≠ d.rank → flags.rank = true
  slot : e.slot ≠ d.slot → flags.slot = true

theorem Draft.DiffersIn.refl (flags : Checks) (d : Draft) : d.DiffersIn flags d where
  rest := rfl
  level moved := absurd rfl moved
  rarity moved := absurd rfl moved
  rank moved := absurd rfl moved
  slot moved := absurd rfl moved

/-- So far the draft differs from an earlier one only in what is checked, and in what was noted. -/
structure Adjustment.Accounts (i : Inspection) (d : Draft) (a : Adjustment) : Prop where
  permitted : d.DiffersIn i.checks a.draft
  noted : d.DiffersIn a.adjusted a.draft

namespace Adjustment.Accounts
variable {i : Inspection} {d : Draft} {a : Adjustment} {noted forced : Bool}

theorem refl (i : Inspection) (a : Adjustment) : a.Accounts i a.draft := ⟨.refl _ _, .refl _ _⟩

/-- One field is given a value, and it is noted where that differs from the earlier draft. -/
theorem level (h : a.Accounts i d) (checked : i.checks.level = true) {level : Int}
    (notes : level ≠ d.level → noted = true) : Accounts i d {
      draft := { a.draft with level := level }
      adjusted := { a.adjusted with level := noted, outputLevel := forced } } where
  permitted := { h.permitted with rest := h.permitted.rest.trans rfl, level := fun _ => checked }
  noted := { h.noted with rest := h.noted.rest.trans rfl, level := notes }

theorem rarity (h : a.Accounts i d) (checked : i.checks.rarity = true) {rarity : PrototypeId}
    (notes : rarity ≠ d.rarity → noted = true) : Accounts i d {
      draft := { a.draft with rarity := rarity }
      adjusted := { a.adjusted with rarity := noted, outputRarity := forced } } where
  permitted := { h.permitted with rest := h.permitted.rest.trans rfl, rarity := fun _ => checked }
  noted := { h.noted with rest := h.noted.rest.trans rfl, rarity := notes }

theorem rank (h : a.Accounts i d) (checked : i.checks.rank = true) {rank : Int}
    (notes : rank ≠ d.rank → noted = true) : Accounts i d {
      draft := { a.draft with rank := rank }
      adjusted := { a.adjusted with rank := noted, outputRank := forced } } where
  permitted := { h.permitted with rest := h.permitted.rest.trans rfl, rank := fun _ => checked }
  noted := { h.noted with rest := h.noted.rest.trans rfl, rank := notes }

theorem slot (h : a.Accounts i d) (checked : i.checks.slot = true) {slot : EquipmentSlot} :
    Accounts i d {
      draft := { a.draft with slot := slot }
      adjusted := { a.adjusted with slot := true } } where
  permitted := { h.permitted with rest := h.permitted.rest.trans rfl, slot := fun _ => checked }
  noted := { h.noted with rest := h.noted.rest.trans rfl, slot := fun _ => rfl }

end Adjustment.Accounts

namespace Restriction
variable {i : Inspection} {d : Draft}

/-- What does not meet a restriction is checked. -/
theorem checked_of_unmet {checked met forced output : Bool}
    (unmet : ¬(!checked || met || forced || output) = true) : checked = true := by
  cases checked with
  | true => rfl
  | false => exact absurd rfl unmet

/-- What is forced differs from an earlier value, if it does, since now or since it was noted. -/
theorem noted_of_forced {α : Type} [BEq α] [LawfulBEq α] {earlier now value : α} {noted : Bool}
    (notes : now ≠ earlier → noted = true) (differs : value ≠ earlier) :
    (noted || now != value) = true := by
  cases same : now == value with
  | true => rw [notes (eq_of_beq same ▸ differs), Bool.true_or]
  | false => rw [bne, same, Bool.not_false, Bool.or_true]

/-- Adjusting to a restriction changes what is checked, and notes it. -/
private theorem adjust_accounts (r : Restriction) {a : Adjustment} (h : a.Accounts i d) :
    (adjust i r a).2.Accounts i d := by
  induction r generalizing a with
  | level lo range =>
    rw [adjust]
    split
    · exact h
    · rename_i unmet
      rw [allows] at unmet
      exact h.level (checked_of_unmet unmet) fun _ => rfl
  | rarity allowed =>
    rw [adjust]
    split
    · exact h
    · rename_i unmet
      rw [allows] at unmet
      split
      · exact h.rarity (checked_of_unmet unmet) fun _ => rfl
      · exact h
  | rank allowed =>
    rw [adjust]
    split
    · exact h
    · split
      · exact h
      · rename_i checked
        split
        · exact h.rank (by simpa using checked) fun _ => rfl
        · exact h
  | slot allowed =>
    rw [adjust]
    split
    · exact h
    · split
      · exact h
      · rename_i checked
        split
        · exact h.slot (by simpa using checked)
        · exact h
  | outputLevel value filter =>
    rw [adjust]
    split
    · exact h
    · rename_i checked
      exact h.level (by simpa using checked) (noted_of_forced h.noted.level)
  | outputRarity value filter =>
    rw [adjust]
    split
    · exact h
    · rename_i checked
      exact h.rarity (by simpa using checked) (noted_of_forced h.noted.rarity)
  | outputRank value filter =>
    rw [adjust]
    split
    · exact h
    · rename_i checked
      exact h.rank (by simpa using checked) (noted_of_forced h.noted.rank)
  | conditional occasions inside outside here elsewhere =>
    rw [adjust]
    split
    · exact adjustAll_keeps (fun r listed _ => here r listed) h
    · exact adjustAll_keeps (fun r listed _ => elsewhere r listed) h
  | usableBy | itemParent | occasion => exact h

theorem adjustAll_accounts (rs : List Restriction) {a : Adjustment} (h : a.Accounts i d) :
    (adjustAll i rs a).2.Accounts i d :=
  adjustAll_keeps (fun r _ _ => adjust_accounts r) h

end Restriction

namespace Item

/-- What becomes of a draft of the item, and what is told about it, is an account of the draft. -/
theorem makeDroppable_accounts (item : Item) (i : Inspection) (d : Draft) :
    ∃ a : Adjustment, a.Accounts i d ∧ (item.makeDroppable i d).2 = a.draft ∧
      ∀ adjusted, (item.makeDroppable i d).1 = some adjusted → adjusted = a.adjusted := by
  have run := Restriction.adjustAll_accounts item.restrictions (.refl i ⟨d, .none⟩)
  rw [makeDroppable]
  split
  · exact ⟨⟨d, .none⟩, .refl i ⟨d, .none⟩, rfl, fun _ told => by cases told⟩
  · split
    · rename_i a stopped
      rw [stopped] at run
      exact ⟨a, run, rfl, fun _ told => by cases told⟩
    · rename_i a ended
      rw [ended] at run
      refine ⟨a, run, rfl, fun adjusted told => ?_⟩
      obtain ⟨-, ⟨⟩⟩ := Option.ite_none_right_eq_some.mp told
      rfl

/-- Whether or not a draft can be made to drop, only fields that are checked change; and when it
can, all that changed is told. -/
theorem makeDroppable_differs (item : Item) (i : Inspection) (d : Draft) :
    d.DiffersIn i.checks (item.makeDroppable i d).2 ∧
      ∀ adjusted, (item.makeDroppable i d).1 = some adjusted →
        d.DiffersIn adjusted (item.makeDroppable i d).2 := by
  obtain ⟨a, account, ended, told⟩ := item.makeDroppable_accounts i d
  rw [ended]
  refine ⟨account.permitted, fun adjusted told' => ?_⟩
  rw [told adjusted told']
  exact account.noted

/-- All four fields change, the rank because an output forces it, and all four are told. -/
theorem makeDroppable_differs_all :
    let item : Item := {
      id := ⟨100⟩
      restrictions := [.conditional .drop [.level 5 0, .outputRank 3 false] [], .rank [3, 4],
        .rarity [⟨7⟩], .slot [.ring]] }
    let i : Inspection := ⟨{}, .drop, .all⟩
    let d : Draft := { item := ⟨100⟩, level := 9 }
    let e : Draft := { item := ⟨100⟩, level := 5, rarity := ⟨7⟩, rank := 3, slot := .ring }
    let adjusted : Checks :=
      { level := true, rarity := true, rank := true, slot := true, outputRank := true }
    item.makeDroppable i d = (some adjusted, e) ∧ d.DiffersIn adjusted e := by
  intro item i d e adjusted
  have run : item.makeDroppable i d = (some adjusted, e) := by decide
  have told := (item.makeDroppable_differs i d).2 adjusted
  rw [run] at told
  exact ⟨run, told rfl⟩

end Item

end Spoils
