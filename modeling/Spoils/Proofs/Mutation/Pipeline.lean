import Spoils.Roll.State

/-! Pipelines of mutations: what each mutation keeps a pipeline keeps, an error leaves the draft
as it was, and a pipeline of two lists is the one pipeline after the other. -/
namespace Spoils

namespace Mutation
variable (k : Workshop)

@[simp] theorem applyNext_error (m : Mutation) (c : Change) :
    (applyNext k m c).report.error = ((apply k m c.draft c.dice).report.error || c.report.error) :=
  rfl

private theorem applyNext_also (m : Mutation) (c : Change) (r : MutationReport) :
    applyNext k m (c.also r) = (applyNext k m c).also r := by
  simp only [applyNext, Change.also, MutationReport.union_assoc]

theorem applyEach_cons (m : Mutation) (ms : List Mutation) (c : Change) :
    applyEach k (m :: ms) c =
      if (applyNext k m c).report.error then (1, applyNext k m c)
      else ((applyEach k ms (applyNext k m c)).1 + 1, (applyEach k ms (applyNext k m c)).2) := rfl

/-- What mutations without an error carry on, of a change and its report, holds after all. -/
theorem applyEach_carries (holds : Change → Prop) (ms : List Mutation)
    (step : ∀ m ∈ ms, ∀ c, holds c → (apply k m c.draft c.dice).report.error = false →
      holds (applyNext k m c))
    (c : Change) (hc : holds c) (clean : (applyEach k ms c).2.report.error = false) :
    holds (applyEach k ms c).2 := by
  induction ms generalizing c with
  | nil => exact hc
  | cons m ms ih =>
    obtain ⟨now, later⟩ := List.forall_mem_cons.mp step
    rw [applyEach_cons] at clean ⊢
    by_cases failed : (applyNext k m c).report.error = true
    · rw [if_pos failed] at clean
      cases failed.symm.trans clean
    · rw [if_neg failed] at clean ⊢
      have passed : (apply k m c.draft c.dice).report.error = false := by
        rw [applyNext_error, Bool.or_eq_true, not_or] at failed
        exact Bool.eq_false_iff.mpr failed.1
      exact ih later _ (now c hc passed) clean

theorem applyEach_keeps (holds : Draft → Prop) (ms : List Mutation)
    (step : ∀ m ∈ ms, ∀ d dice, holds d → (apply k m d dice).report.error = false →
      holds (apply k m d dice).draft)
    (c : Change) (hc : holds c.draft)
    (clean : (applyEach k ms c).2.report.error = false) : holds (applyEach k ms c).2.draft :=
  applyEach_carries k (fun c => holds c.draft) ms
    (fun m hm c hc passed => step m hm c.draft c.dice hc passed) c hc clean

theorem applyEach_also (ms : List Mutation) (c : Change) (r : MutationReport)
    (clean : r.error = false) :
    applyEach k ms (c.also r) = ((applyEach k ms c).1, (applyEach k ms c).2.also r) := by
  induction ms generalizing c with
  | nil => rfl
  | cons m ms ih =>
    have he : ((applyNext k m c).also r).report.error = (applyNext k m c).report.error := by
      simp only [Change.also, MutationReport.union_error, clean, Bool.or_false]
    rw [applyEach_cons, applyEach_cons, applyNext_also, he, ih]
    split <;> rfl

/-- Of two lists of mutations the second begins unless there was an error. -/
theorem applyEach_append (ms₁ ms₂ : List Mutation) (c : Change) (clean : c.report.error = false) :
    applyEach k (ms₁ ++ ms₂) c =
      if (applyEach k ms₁ c).2.report.error then applyEach k ms₁ c
      else
        ((applyEach k ms₁ c).1 + (applyEach k ms₂ (applyEach k ms₁ c).2).1,
          (applyEach k ms₂ (applyEach k ms₁ c).2).2) := by
  induction ms₁ generalizing c with
  | nil => simp [applyEach, clean]
  | cons m ms ih =>
    rw [List.cons_append, applyEach_cons, applyEach_cons]
    by_cases failed : (applyNext k m c).report.error = true
    · simp only [if_pos failed]
    · simp only [if_neg failed]
      rw [ih _ (Bool.eq_false_iff.mpr failed)]
      split
      · rfl
      · rw [Nat.add_right_comm]

/-- The run of a pipeline, and where its draft comes from. -/
theorem applyAll_eq (ms : List Mutation) (d : Draft) (dice : Dice) :
    applyAll k ms d dice =
      ((applyEach k ms ⟨.none, d, dice⟩).1, {
        report := (applyEach k ms ⟨.none, d, dice⟩).2.report
        draft :=
          if (applyEach k ms ⟨.none, d, dice⟩).2.report.error then d
          else (applyEach k ms ⟨.none, d, dice⟩).2.draft
        dice := (applyEach k ms ⟨.none, d, dice⟩).2.dice }) := by
  simp only [applyAll]
  split <;> rfl

/-- A pipeline that fails leaves the draft as it was. -/
theorem applyAll_restores (ms : List Mutation) (d : Draft) (dice : Dice)
    (failed : (applyAll k ms d dice).2.report.error = true) :
    (applyAll k ms d dice).2.draft = d := by
  rw [applyAll_eq] at failed ⊢
  exact if_pos failed

theorem applyAll_keeps (holds : Draft → Prop) (ms : List Mutation)
    (step : ∀ m ∈ ms, ∀ d dice, holds d → (apply k m d dice).report.error = false →
      holds (apply k m d dice).draft)
    (d : Draft) (dice : Dice) (hd : holds d)
    (clean : (applyAll k ms d dice).2.report.error = false) :
    holds (applyAll k ms d dice).2.draft := by
  rw [applyAll_eq] at clean ⊢
  have hrun := applyEach_keeps k holds ms step ⟨.none, d, dice⟩ hd clean
  simp only at clean ⊢
  rwa [if_neg (by rw [clean]; decide)]

/-- A pipeline of two lists. The second one begins where the first one ended, and its error takes
back both. -/
theorem applyAll_append (ms₁ ms₂ : List Mutation) (d : Draft) (dice : Dice) :
    applyAll k (ms₁ ++ ms₂) d dice =
      let first := applyAll k ms₁ d dice
      if first.2.report.error then first
      else
        let rest := applyAll k ms₂ first.2.draft first.2.dice
        (first.1 + rest.1, {
          report := first.2.report.union rest.2.report
          draft := if rest.2.report.error then d else rest.2.draft
          dice := rest.2.dice }) := by
  simp only [applyAll_eq]
  rw [applyEach_append k ms₁ ms₂ _ rfl]
  generalize applyEach k ms₁ ⟨.none, d, dice⟩ = first
  obtain ⟨n, a⟩ := first
  by_cases failed : a.report.error = true
  · simp only [if_pos failed]
  · simp only [if_neg failed]
    have clean : a.report.error = false := Bool.eq_false_iff.mpr failed
    have run := applyEach_also k ms₂ ⟨.none, a.draft, a.dice⟩ a.report clean
    have ha : Change.also ⟨.none, a.draft, a.dice⟩ a.report = a := by
      simp only [Change.also, MutationReport.union_comm .none, MutationReport.union_none]
    rw [ha] at run
    rw [run]
    generalize applyEach k ms₂ ⟨.none, a.draft, a.dice⟩ = rest
    obtain ⟨m, b⟩ := rest
    simp only [Change.also, MutationReport.union_error, clean, Bool.false_or,
      MutationReport.union_comm b.report]
    by_cases fails : b.report.error = true
    · simp only [if_pos fails]
    · simp only [if_neg fails]

end Mutation

namespace Roll
variable (w : World) (s : BranchSettings)

/-- Mutations move nothing of a roll but its dice, and are all or nothing for the draft. Those of
two lists are those of the first and, without an error, those of the second with the dice that are
left; an error of the second takes back the first too. -/
theorem mutate_append (ms₁ ms₂ : List Mutation) (d : Draft) (r : Roll) :
    (∀ ms, (r.mutate w s ms d).roll = { r with dice := (r.mutate w s ms d).roll.dice } ∧
      ((r.mutate w s ms d).report.error = true → (r.mutate w s ms d).draft = d)) ∧
    r.mutate w s (ms₁ ++ ms₂) d =
      let first := r.mutate w s ms₁ d
      if first.report.error then first
      else
        let rest := first.roll.mutate w s ms₂ first.draft
        { begun := first.begun + rest.begun
          report := first.report.union rest.report
          draft := if rest.report.error then d else rest.draft
          roll := rest.roll } := by
  refine ⟨fun ms => ⟨rfl, Mutation.applyAll_restores _ ms d r.dice⟩, ?_⟩
  simp only [mutate]
  rw [Mutation.applyAll_append]
  -- The second list finds the same granted items: the first one has moved the dice only.
  change _ = if (Mutation.applyAll (r.workshop w s) ms₁ d r.dice).2.report.error then _ else _
  by_cases failed : (Mutation.applyAll (r.workshop w s) ms₁ d r.dice).2.report.error = true
  · simp only [if_pos failed]
  · simp only [if_neg failed]
    rfl

/-- Two new seeds are taken back by an error in the second list. -/
theorem mutate_append_restores :
    let d : Draft := { item := ⟨5⟩, rarity := ⟨1⟩, level := 3, seed := 9 }
    let ran := (start 7).mutate {} {} ([.builtinSeed] ++ [.builtinSeed, .rank 0]) d
    ran.report.error = true ∧ ran.begun = 3 ∧ ran.draft = d :=
  ⟨by decide, by decide,
    ((mutate_append {} {} [.builtinSeed] [.builtinSeed, .rank 0] _ (start 7)).1 _).2 (by decide)⟩

end Roll

end Spoils
