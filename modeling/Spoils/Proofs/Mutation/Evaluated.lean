import Spoils.Proofs.Mutation.Reports

/-! Drafts after a formula: the level that it leaves in the properties, and the level of the draft. -/
namespace Spoils

namespace Draft
variable {d : Draft} {left : Int}

/-- The level to which a draft is moved for a number in its properties: the nearest one of
thirty-two bits, which is one at least unless it is the level that the draft has. -/
def levelFor (d : Draft) (left : Int) : Int :=
  if Bounds.int32.clamp left = d.level then d.level
  else World.itemLevel (Bounds.int32.clamp left) true

/-- The draft is moved to the very number if that is its own level, or a level at all. -/
theorem levelFor_eq_self (fits : Bounds.int32.contains left = true)
    (level : left = d.level ∨ 1 ≤ left) : d.levelFor left = left := by
  have same : Bounds.int32.clamp left = left :=
    Bounds.clamp_eq_self (Bounds.contains_iff.mp fits)
  rw [levelFor, same, World.itemLevel, if_pos rfl, minItemLevel]
  split <;> omega

end Draft

namespace Workshop
variable {k : Workshop} {formula : Formula} {d e : Draft} {dice : Dice}

/-- A formula, evaluated over the properties of a draft. -/
def evaluated (k : Workshop) (formula : Formula) (d : Draft) (dice : Dice) : Value × Scope :=
  let scope : Scope := { catalog := some k.catalog, dice := some dice }
  formula.eval (scope.bind .default (.store ⟨.lent, d.formulaStore⟩))

def leftBy (k : Workshop) (formula : Formula) (d : Draft) (dice : Dice) : PropertyStore :=
  ((k.evaluated formula d dice).2.lentStore? .default).getD .empty

theorem setLevel_self (d : Draft) (dice : Dice) :
    k.setLevel d.level d dice = ⟨.none, d, dice⟩ := by
  rw [setLevel, beq_self_eq_true, if_pos rfl]

private theorem setLevel_properties (level : Int) (d : Draft) (dice : Dice) :
    (k.setLevel level d dice).draft.properties = d.properties := by
  rcases k.setLevel_cases level d dice with same | moved
  · rw [same]
  · rw [moved]
    exact (k.settled_adjusts { d with level := level, rank := 0 } dice).properties_eq

/-- Unless the formula fails, the draft gets the properties that it leaves, and moves to the level
that they ask for. -/
theorem evaluate_eq :
    let written : Draft := { d with properties := k.leftBy formula d dice }
    let later := (k.evaluated formula d dice).2.dice.getD dice
    k.evaluate formula d dice =
      if (k.evaluated formula d dice).1.isError then ⟨.failed, written, later⟩
      else (k.setLevel (d.levelFor (written.properties.int PropertyId.itemLevel)) written
        later).also { evalChange := true } := by
  intro written later
  change (if (k.evaluated formula d dice).1.isError then ⟨.failed, written, later⟩
    else if Bounds.int32.clamp (written.properties.int PropertyId.itemLevel) == d.level then
      ⟨{ evalChange := true }, written, later⟩
    else (k.setLevel (World.itemLevel (Bounds.int32.clamp
      (written.properties.int PropertyId.itemLevel)) true) written later).also
        { evalChange := true } : Change) = _
  congr 1
  rw [Draft.levelFor]
  by_cases stays : Bounds.int32.clamp (written.properties.int PropertyId.itemLevel) = d.level
  · rw [if_pos stays, if_pos (beq_iff_eq.mpr stays)]
    have same : k.setLevel d.level written later = ⟨.none, written, later⟩ := setLevel_self ..
    rw [same]
    rfl
  · rw [if_neg stays, if_neg (stays ∘ beq_iff_eq.mp)]

/-- Without an error the draft is adjusted at the level, unless that is the level it has. -/
theorem setLevel_draft {level : Int} (clean : (k.setLevel level d dice).report.error = false) :
    if level = d.level then (k.setLevel level d dice).draft = d
    else ∃ item adjusted, k.catalog.item? d.item = some item ∧
      item.makeDroppable (k.world.inspection d.checks) { d with level := level, rank := 0 } =
        (some adjusted, (k.setLevel level d dice).draft) := by
  split
  · rename_i same
    rw [same, setLevel_self]
  · rename_i moves
    rw [setLevel, if_neg fun same => moves (beq_iff_eq.mp same).symm] at clean ⊢
    obtain ⟨e, adjusted, -, settles⟩ := settled_cases (Bool.or_eq_false_iff.mp clean).1
    rw [settles]
    rw [World.adjust] at adjusted
    split at adjusted
    · cases adjusted
    · rename_i item found
      obtain ⟨told, rfl⟩ := Prod.mk.inj adjusted
      obtain ⟨noted, some⟩ := Option.isSome_iff_exists.mp told
      exact ⟨item, noted, found, Prod.ext some rfl⟩

private theorem evaluate_clean (clean : (k.evaluate formula d dice).report.error = false) :
    let written : Draft := { d with properties := k.leftBy formula d dice }
    let level := d.levelFor (written.properties.int PropertyId.itemLevel)
    ∃ later, (k.setLevel level written later).report.error = false ∧
      (k.evaluate formula d dice).draft = (k.setLevel level written later).draft := by
  have opened := @evaluate_eq k formula d dice
  simp only at opened
  rw [opened] at clean ⊢
  split at clean
  · cases clean
  · rw [if_neg ‹_›]
    exact ⟨_, (Bool.or_eq_false_iff.mp clean).1, rfl⟩

/-- A draft that a formula was evaluated over without an error has the properties that the formula
left. Unless they ask for its own level, it is moved to the level that they ask for, and adjusted
there. -/
theorem evaluate_draft (clean : (k.evaluate formula d dice).report.error = false) :
    let e := (k.evaluate formula d dice).draft
    let level := d.levelFor (e.properties.int PropertyId.itemLevel)
    e.properties = k.leftBy formula d dice ∧
      if level = d.level then e = { d with properties := e.properties }
      else ∃ item adjusted, k.catalog.item? d.item = some item ∧
        item.makeDroppable (k.world.inspection d.checks)
          { d with properties := e.properties, level := level, rank := 0 } =
            (some adjusted, e) := by
  obtain ⟨later, moves, drafted⟩ := evaluate_clean clean
  have kept : (k.evaluate formula d dice).draft.properties = k.leftBy formula d dice := by
    rw [drafted, setLevel_properties]
  simp only [kept]
  rw [drafted]
  exact ⟨trivial, setLevel_draft moves⟩

/-- The properties of a draft that a formula was evaluated over stay as the formula left them. If
the level that they ask for is the level of the draft, nothing else changes; otherwise the draft is
moved there without a rank, as the restrictions of its item adjust it. Both have the same level,
then, unless the number that was left does not fit in thirty-two bits, or is no level and not the
one that the draft had, or the draft is moved and a restriction adjusts the level. -/
theorem evaluate_level (clean : (k.evaluate formula d dice).report.error = false) :
    let e := (k.evaluate formula d dice).draft
    let left := e.properties.int PropertyId.itemLevel
    let moved : Draft :=
      { d with properties := e.properties, level := d.levelFor left, rank := 0 }
    let Adjusts (item : Item) (adjusted : Checks) : Prop := k.catalog.item? d.item = some item ∧
      item.makeDroppable (k.world.inspection d.checks) moved = (some adjusted, e)
    e.properties = k.leftBy formula d dice ∧
      (if d.levelFor left = d.level then e = { d with properties := e.properties }
        else ∃ item adjusted, Adjusts item adjusted) ∧
      (Bounds.int32.contains left = true → left = d.level ∨ 1 ≤ left →
        left = e.level ∨ left ≠ d.level ∧
          ∃ item adjusted, Adjusts item adjusted ∧ adjusted.level = true) := by
  intro e left moved Adjusts
  obtain ⟨properties, drafted⟩ := evaluate_draft clean
  refine ⟨properties, drafted, fun fits level => ?_⟩
  have asked : d.levelFor left = left := Draft.levelFor_eq_self fits level
  by_cases stays : d.levelFor left = d.level
  · rw [if_pos stays] at drafted
    exact .inl (asked.symm.trans (stays.trans (congrArg Draft.level drafted).symm))
  · rw [if_neg stays] at drafted
    obtain ⟨item, adjusted, found, made⟩ := drafted
    have differs : moved.DiffersIn adjusted e := by
      obtain ⟨a, account, ended, told⟩ :=
        item.makeDroppable_accounts (k.world.inspection d.checks) moved
      rw [made] at ended told
      have last : e = a.draft := ended
      rw [last, told adjusted rfl]
      exact account.noted
    by_cases same : e.level = moved.level
    · exact .inl (asked.symm.trans same.symm)
    · exact .inr ⟨asked ▸ stays, item, adjusted, ⟨found, made⟩, differs.level same⟩

/-- Four is a level, and nothing restricts the item. -/
theorem evaluate_level_written :
    let content : Content := { rarities := [{ id := ⟨10⟩ }], items := [{ id := ⟨100⟩ }] }
    let d : Draft := { item := ⟨100⟩, rarity := ⟨10⟩, level := 7, rank := 2 }
    let formula : Formula := .assign .default PropertyId.itemLevel (.int 4)
    ∃ c, Catalog.ofContent content = .ok c ∧
      let change := Workshop.evaluate ⟨{ catalog := c }, [], {}⟩ formula d (.ofSeed 1)
      change.report.error = false ∧ change.draft.properties.int PropertyId.itemLevel = 4 ∧
        change.draft.level = 4 := by
  intro content d formula
  refine ⟨_, rfl, ?_⟩
  intro change
  have clean : change.report.error = false := by decide +kernel
  have left : change.draft.properties.int PropertyId.itemLevel = 4 := by decide +kernel
  obtain ⟨-, -, agrees⟩ := evaluate_level clean
  rw [left] at agrees
  refine ⟨clean, left, ?_⟩
  rcases agrees (by decide) (.inr (by decide)) with
    same | ⟨-, item, adjusted, ⟨found, made⟩, level⟩
  · exact same.symm
  · cases found
    have told : some Checks.none = some adjusted := congrArg Prod.fst made
    cases told
    cases level

/-- A level below one is left in the properties, but raised for the draft. -/
theorem evaluate_level_raised :
    let content : Content := { rarities := [{ id := ⟨10⟩ }], items := [{ id := ⟨100⟩ }] }
    let d : Draft := { item := ⟨100⟩, rarity := ⟨10⟩, level := 7 }
    let formula : Formula := .assign .default PropertyId.itemLevel (.int (-5))
    ∃ c, Catalog.ofContent content = .ok c ∧
      let change := Workshop.evaluate ⟨{ catalog := c }, [], {}⟩ formula d (.ofSeed 1)
      change.report.error = false ∧ change.draft.properties.int PropertyId.itemLevel = -5 ∧
        change.draft.level = 1 :=
  ⟨_, rfl, by decide +kernel⟩

end Workshop

end Spoils
