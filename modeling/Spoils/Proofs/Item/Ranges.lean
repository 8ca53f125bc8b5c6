import Spoils.Proofs.Item.Droppable

/-! Items that restrict nothing but the level. Bringing a level into one range after the other leads
to the nearest level that the ranges have in common, in whichever order they come. -/
namespace Spoils

namespace Restriction

/-- The restriction is a range of levels, with an end that is a level or with none. -/
def IsRange : Restriction → Prop
  | .level lo range => EndFits lo range
  | _ => False

/-- The level lies in the range that begins at `lo`. A negative `range` has no end. -/
def InRange (lo range level : Int) : Prop := lo ≤ level ∧ (0 ≤ range → level ≤ lo + range)

def InRanges (rs : List Restriction) (level : Int) : Prop :=
  ∀ lo range, .level lo range ∈ rs → InRange lo range level

/-- Of the levels that lie in every range this one is the nearest to another. -/
structure Nearest (rs : List Restriction) (start level : Int) : Prop where
  inRanges : InRanges rs level
  least : ∀ other, InRanges rs other → (level - start).natAbs ≤ (other - start).natAbs

/-- The second level is on the way from the first to the third. -/
def OnWay (start level goal : Int) : Prop :=
  (start ≤ level ∧ level ≤ goal) ∨ (goal ≤ level ∧ level ≤ start)

variable {lo range level start goal : Int} {rs rs' : List Restriction}

theorem InRange.onWay (hs : InRange lo range start) (hg : InRange lo range goal)
    (h : OnWay start level goal) : InRange lo range level := by
  simp only [InRange, OnWay] at hs hg h ⊢
  omega

theorem clampLevel_inRange (fits : EndFits lo range) (level : Int) :
    InRange lo range (clampLevel lo range level) := by
  simp only [InRange, clampLevel_eq fits]
  split <;> omega

private theorem clampLevel_eq_self (fits : EndFits lo range) (h : InRange lo range level) :
    clampLevel lo range level = level := by
  simp only [InRange] at h
  rw [clampLevel_eq fits]
  split <;> omega

/-- A level is brought into a range without passing any level of the range. -/
theorem clampLevel_onWay (fits : EndFits lo range) (h : InRange lo range goal) (level : Int) :
    OnWay level (clampLevel lo range level) goal := by
  simp only [InRange] at h
  simp only [OnWay, clampLevel_eq fits]
  split <;> omega

theorem inRanges_cons :
    InRanges (.level lo range :: rs) level ↔ InRange lo range level ∧ InRanges rs level := by
  constructor
  · intro h
    exact ⟨h lo range (.head _), fun lo' range' mem => h lo' range' (.tail _ mem)⟩
  · rintro ⟨first, rest⟩ lo' range' (_ | ⟨_, mem⟩)
    · exact first
    · exact rest lo' range' mem

theorem InRanges.onWay (hs : InRanges rs start) (hg : InRanges rs goal)
    (h : OnWay start level goal) : InRanges rs level :=
  fun lo range mem => (hs lo range mem).onWay (hg lo range mem) h

theorem inRanges_perm (h : rs.Perm rs') : InRanges rs level ↔ InRanges rs' level :=
  forall₂_congr fun _ _ => imp_congr_left h.mem_iff

private theorem Nearest.of_perm (h : rs.Perm rs') (n : Nearest rs start level) :
    Nearest rs' start level :=
  ⟨(inRanges_perm h).mp n.inRanges, fun other ho => n.least other ((inRanges_perm h).mpr ho)⟩

theorem Nearest.of_onWay (h : InRanges rs level)
    (way : ∀ goal, InRanges rs goal → OnWay start level goal) : Nearest rs start level := by
  refine ⟨h, fun goal hg => ?_⟩
  have between := way goal hg
  simp only [OnWay] at between
  omega

/-- Two levels at the same distance on either side would have the start between them. -/
theorem Nearest.unique {other : Int} (h : Nearest rs start level) (h' : Nearest rs start other) :
    level = other := by
  have near := h.least other h'.inRanges
  have near' := h'.least level h.inRanges
  by_cases between : OnWay level start other
  · have closest := h.least start (h.inRanges.onWay h'.inRanges between)
    omega
  · simp only [OnWay] at between
    omega

end Restriction

/-- The adjustment with another level, which is noted if it differs. -/
def Adjustment.toLevel (a : Adjustment) (level : Int) : Adjustment where
  draft := { a.draft with level := level }
  adjusted := { a.adjusted with level := a.adjusted.level || a.draft.level != level }

namespace Restriction
variable {i : Inspection} {a : Adjustment} {d : Draft} {lo range : Int} {rs : List Restriction}

private theorem toLevel_toLevel {level level' goal : Int} (h : OnWay a.draft.level level goal)
    (h' : OnWay level level' goal) : (a.toLevel level).toLevel level' = a.toLevel level' := by
  have noted : (a.draft.level != level || level != level') = (a.draft.level != level') := by
    simp only [OnWay] at h h'
    rw [Bool.eq_iff_iff]
    simp only [Bool.or_eq_true, bne_iff_ne]
    omega
  simp only [Adjustment.toLevel, Bool.or_assoc, noted]

theorem allows_level_iff (fits : EndFits lo range) (checked : i.checks.level = true) :
    allows i (.level lo range) d = true ↔ InRange lo range d.level := by
  simp only [allows, checked, InRange, Bool.not_true, Bool.false_or, Bool.and_eq_true,
    Bool.or_eq_true, decide_eq_true_eq]
  by_cases bounded : 0 ≤ range
  · rw [Bounds.wrap_eq_self (fits bounded)]
    omega
  · omega

theorem allowsAll_ranges_iff (checked : i.checks.level = true) (ranges : ∀ r ∈ rs, r.IsRange) :
    allowsAll i rs d = true ↔ InRanges rs d.level := by
  induction rs with
  | nil => exact ⟨fun _ => nofun, fun _ => rfl⟩
  | cons r rs ih =>
    obtain ⟨first, rest⟩ := List.forall_mem_cons.mp ranges
    cases r with
    | level lo range =>
      rw [allowsAll, Bool.and_eq_true, allows_level_iff first checked, ih rest, inRanges_cons]
    | _ => cases first

/-- Where no output has a say in the level it is brought into the range. -/
theorem adjust_level (fits : EndFits lo range) (checked : i.checks.level = true)
    (free : i.checks.output = false) (unforced : a.adjusted.outputLevel = false) :
    adjust i (.level lo range) a = (true, a.toLevel (clampLevel lo range a.draft.level)) := by
  rw [adjust]
  split
  · rename_i met
    rw [unforced, free, Bool.or_false, Bool.or_false] at met
    rw [clampLevel_eq_self fits ((allows_level_iff fits checked).mp met), Adjustment.toLevel,
      bne_self_eq_false, Bool.or_false]
  · rename_i unmet
    rw [unforced, free, Bool.or_false, Bool.or_false] at unmet
    have moved : a.draft.level ≠ clampLevel lo range a.draft.level := by
      intro same
      rw [allows_level_iff fits checked, same] at unmet
      exact unmet (clampLevel_inRange fits _)
    rw [Adjustment.toLevel, bne_iff_ne.mpr moved, Bool.or_true]

/-- Where the ranges have a level in common, one range after the other leads to a common level, and
past none of them. -/
theorem adjustAll_ranges (checked : i.checks.level = true) (free : i.checks.output = false)
    (ranges : ∀ r ∈ rs, r.IsRange) {goal : Int} (common : InRanges rs goal)
    (unforced : a.adjusted.outputLevel = false) :
    ∃ level, adjustAll i rs a = (true, a.toLevel level) ∧ InRanges rs level ∧
      ∀ goal, InRanges rs goal → OnWay a.draft.level level goal := by
  induction rs generalizing a with
  | nil =>
    refine ⟨a.draft.level, ?_, nofun, fun goal _ => ?_⟩
    · rw [adjustAll, Adjustment.toLevel, bne_self_eq_false, Bool.or_false]
    · simp only [OnWay]
      omega
  | cons r rs ih =>
    obtain ⟨first, rest⟩ := List.forall_mem_cons.mp ranges
    cases r with
    | level lo range =>
      have brought := clampLevel_inRange first a.draft.level
      obtain ⟨level, run, reached, way⟩ :=
        ih (a := a.toLevel (clampLevel lo range a.draft.level)) rest (inRanges_cons.mp common).2
          unforced
      have step {goal} (hg : InRanges (.level lo range :: rs) goal) :=
        clampLevel_onWay first (inRanges_cons.mp hg).1 a.draft.level
      have onward {goal} (hg : InRanges (.level lo range :: rs) goal) :=
        way goal (inRanges_cons.mp hg).2
      refine ⟨level, ?_, inRanges_cons.mpr ⟨?_, reached⟩, fun goal hg => ?_⟩
      · rw [adjustAll, adjust_level first checked free unforced]
        exact run.trans (by rw [toLevel_toLevel (step common) (onward common)])
      · -- What lies in this range already is not led out of it on the way to a common level.
        exact brought.onWay (inRanges_cons.mp common).1 (onward common)
      · have before := step hg
        have after := onward hg
        simp only [OnWay, Adjustment.toLevel] at before after ⊢
        omega
    | _ => cases first

end Restriction

namespace Item
variable {item : Item} {i : Inspection} {d : Draft}

section
variable (item) (concrete : item.isAbstract = false)
  (usable : i.checks.usableBy = true → d.rollFor.isValid = true → item.isUsableBy d.rollFor = true)
  (placed : i.checks.slot = true → d.slot.isGear = true → item.slot.isGear = true →
    d.slot = item.slot)
  (checked : i.checks.level = true) (free : i.checks.output = false)
  (ranges : ∀ r ∈ item.restrictions, r.IsRange)
include concrete usable placed checked free ranges

/-- Ranges with a common level bring a draft to the nearest one, and change nothing else. -/
theorem makeDroppable_of_inRanges {goal : Int}
    (common : Restriction.InRanges item.restrictions goal) :
    ∃ level, Restriction.Nearest item.restrictions d.level level ∧
      item.makeDroppable i d =
        (some { level := d.level != level }, { d with level := level }) := by
  obtain ⟨level, run, reached, way⟩ :=
    Restriction.adjustAll_ranges (a := ⟨d, .none⟩) checked free ranges common rfl
  have drops : item.isDroppable i { d with level := level } = true :=
    isDroppable_iff.mpr ⟨concrete, usable, placed,
      (Restriction.allowsAll_ranges_iff checked ranges).mpr reached⟩
  exact ⟨level, .of_onWay reached way, makeDroppable_eq_some_iff.mpr ⟨run, drops⟩⟩

theorem makeDroppable_isSome_iff : (item.makeDroppable i d).1.isSome = true ↔
    ∃ level, Restriction.InRanges item.restrictions level := by
  constructor
  · intro h
    have drops := isDroppable_iff.mp (makeDroppable_isDroppable h)
    exact ⟨_, (Restriction.allowsAll_ranges_iff checked ranges).mp drops.2.2.2⟩
  · rintro ⟨goal, common⟩
    obtain ⟨level, -, run⟩ :=
      item.makeDroppable_of_inRanges concrete usable placed checked free ranges common
    rw [run]
    rfl

/-- In another order the ranges lead to the same answer and, where a draft can be made to drop, to
the same draft. -/
theorem makeDroppable_perm {rs : List Restriction} (perm : rs.Perm item.restrictions) :
    (({ item with restrictions := rs }).makeDroppable i d).1 = (item.makeDroppable i d).1 ∧
      ((item.makeDroppable i d).1.isSome = true →
        ({ item with restrictions := rs }).makeDroppable i d = item.makeDroppable i d) := by
  have ranges' : ∀ r ∈ rs, r.IsRange := fun r mem => ranges r (perm.subset mem)
  by_cases common : ∃ level, Restriction.InRanges item.restrictions level
  · obtain ⟨goal, common⟩ := common
    obtain ⟨level, nearest, brought⟩ :=
      item.makeDroppable_of_inRanges concrete usable placed checked free ranges common
    obtain ⟨level', nearest', brought'⟩ :=
      makeDroppable_of_inRanges { item with restrictions := rs } concrete usable placed checked free
        ranges' ((Restriction.inRanges_perm perm).mpr common)
    obtain rfl := nearest.unique (nearest'.of_perm perm)
    have same := brought'.trans brought.symm
    exact ⟨congrArg Prod.fst same, fun _ => same⟩
  · have drops := item.makeDroppable_isSome_iff concrete usable placed checked free ranges
    have drops' := makeDroppable_isSome_iff { item with restrictions := rs } concrete usable placed
      checked free ranges'
    simp only [Restriction.inRanges_perm perm] at drops'
    have refused := Option.not_isSome_iff_eq_none.mp fun h => common (drops.mp h)
    have refused' := Option.not_isSome_iff_eq_none.mp fun h => common (drops'.mp h)
    refine ⟨refused'.trans refused.symm, fun h => ?_⟩
    rw [refused] at h
    cases h

/-- An item that restricts nothing but the level can be made to drop exactly if its ranges of levels
have a level in common. The draft then gets the nearest common level and keeps everything else, and
another order of the ranges makes no difference. Without a common level the draft is refused in
every order, but the level that it is left with depends on the order. -/
theorem makeDroppable_ranges :
    ((item.makeDroppable i d).1.isSome = true ↔
      ∃ level, Restriction.InRanges item.restrictions level) ∧
    (∀ adjusted e, item.makeDroppable i d = (some adjusted, e) →
      Restriction.Nearest item.restrictions d.level e.level ∧ e = { d with level := e.level }) ∧
    ∀ rs, rs.Perm item.restrictions →
      (({ item with restrictions := rs }).makeDroppable i d).1 = (item.makeDroppable i d).1 ∧
      ((item.makeDroppable i d).1.isSome = true →
        ({ item with restrictions := rs }).makeDroppable i d = item.makeDroppable i d) := by
  have drops := item.makeDroppable_isSome_iff concrete usable placed checked free ranges
  refine ⟨drops, fun adjusted e run => ?_, fun rs perm =>
    item.makeDroppable_perm concrete usable placed checked free ranges perm⟩
  obtain ⟨goal, common⟩ := drops.mp (by rw [run]; rfl)
  obtain ⟨level, nearest, brought⟩ :=
    item.makeDroppable_of_inRanges concrete usable placed checked free ranges common
  cases brought.symm.trans run
  exact ⟨nearest, rfl⟩

end

/-- Level 30 is brought into three ranges, one of them open, in two orders. -/
theorem makeDroppable_ranges_reversed :
    let item : Item := {
      id := ⟨100⟩
      restrictions := [.level 5 10, .level 3 (-1), .level 8 2] }
    let i : Inspection := ⟨{}, .drop, .all⟩
    let d : Draft := { item := ⟨100⟩, level := 30 }
    item.makeDroppable i d = (some { level := true }, { d with level := 10 }) ∧
      Restriction.Nearest item.restrictions 30 10 ∧
      ({ item with restrictions := item.restrictions.reverse }).makeDroppable i d =
        item.makeDroppable i d := by
  intro item i d
  have run : item.makeDroppable i d = (some { level := true }, { d with level := 10 }) := by decide
  have ranges : ∀ r ∈ item.restrictions, r.IsRange := by
    simp only [item, List.forall_mem_cons]
    exact ⟨fun _ => rfl, fun _ => rfl, fun _ => rfl, List.forall_mem_nil _⟩
  obtain ⟨-, nearest, ordered⟩ :=
    item.makeDroppable_ranges (i := i) (d := d) rfl (by decide) (by decide) rfl rfl ranges
  exact ⟨run, (nearest _ _ run).1, (ordered _ (List.reverse_perm _)).2 (by rw [run]; rfl)⟩

end Item

end Spoils
