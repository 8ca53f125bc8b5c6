import Spoils.Proofs.Mutation.Pipeline

/-! What becomes of the entries of the queue. -/
namespace Spoils.Roll
variable {w : World} {s : BranchSettings} {r : Roll}

/-- What an entry of the queue may become in a roll: other loot as it is, an item after its affixes
were rolled and its mutations went through. -/
inductive Becomes (w : World) (s : BranchSettings) (r : Roll) : Pending → Grant → Prop where
  | other (g : Grant) : Becomes w s r (.other g) g
  | item {d : Draft} {ms : List Mutation} {wanted : Bool} {m : Mutated}
      (run : (r.attach w s d wanted).2.mutate w s ms (r.attach w s d wanted).1 = m)
      (clean : m.report.error = false) : Becomes w s r (.item d ms wanted) (.item m.draft)

/-- To roll the affixes of a draft and to mutate it moves the dice only. -/
theorem attach_mutate_roll (d : Draft) (ms : List Mutation) (wanted : Bool) :
    let m := (r.attach w s d wanted).2.mutate w s ms (r.attach w s d wanted).1
    m.roll = { r with dice := m.roll.dice } := by
  have attached : (r.attach w s d wanted).2 =
      { r with dice := (r.attach w s d wanted).2.dice } := by
    rw [attach]
    split <;> rfl
  intro m
  have mutated : m.roll = { (r.attach w s d wanted).2 with dice := m.roll.dice } := rfl
  rw [mutated, attached]

/-- Granting an entry moves the dice and the traces, and either adds one grant or fails. -/
theorem grantEntry_cases (w : World) (s : BranchSettings) (r : Roll) (p : Pending) :
    ∃ dice traces, r.grantEntry w s p = (false, { r with dice := dice, traces := traces }) ∨
      ∃ g, Becomes w s r p g ∧ r.grantEntry w s p =
        (true, { r with dice := dice, traces := traces, grants := r.grants ++ [g] }) := by
  cases p with
  | other g => exact ⟨r.dice, r.traces, .inr ⟨g, .other g, rfl⟩⟩
  | item d ms wanted =>
    have moved := attach_mutate_roll (w := w) (s := s) (r := r) d ms wanted
    generalize hm : (r.attach w s d wanted).2.mutate w s ms (r.attach w s d wanted).1 = m at moved
    simp only [grantEntry, finishItem, hm]
    by_cases failed : m.report.error = true
    · rw [if_pos failed, moved]
      exact ⟨_, _, .inl rfl⟩
    · rw [if_neg failed, moved]
      exact ⟨_, _, .inr ⟨_, .item hm (Bool.eq_false_iff.mpr failed), rfl⟩⟩

@[simp] theorem grantEntry_queue (p : Pending) : (r.grantEntry w s p).2.queue = r.queue := by
  obtain ⟨dice, traces, h | ⟨g, -, h⟩⟩ := grantEntry_cases w s r p <;> rw [h]

@[simp] theorem grantAll_queue (ps : List Pending) : (grantAll w s ps r).2.queue = r.queue := by
  induction ps generalizing r with
  | nil => rfl
  | cons p ps ih => exact ih.trans (grantEntry_queue p)

@[simp] theorem grantEntry_effects (p : Pending) :
    (r.grantEntry w s p).2.effects = r.effects := by
  obtain ⟨dice, traces, h | ⟨g, -, h⟩⟩ := grantEntry_cases w s r p <;> rw [h]

@[simp] theorem grantAll_effects (ps : List Pending) :
    (grantAll w s ps r).2.effects = r.effects := by
  induction ps generalizing r with
  | nil => rfl
  | cons p ps ih => exact ih.trans (grantEntry_effects p)

/-- What is granted comes last, and every grant is what some entry became. -/
theorem grantAll_grants (ps : List Pending) :
    ∃ gs, (grantAll w s ps r).2.grants = r.grants ++ gs ∧
      ∀ g ∈ gs, ∃ p ∈ ps, ∃ before, Becomes w s before p g := by
  induction ps generalizing r with
  | nil => exact ⟨[], (List.append_nil _).symm, by simp⟩
  | cons p ps ih =>
    obtain ⟨gs, later, came⟩ := ih (r := (r.grantEntry w s p).2)
    have known : ∀ g ∈ gs, ∃ q ∈ p :: ps, ∃ before, Becomes w s before q g := by
      intro g hg
      obtain ⟨q, hq, became⟩ := came g hg
      exact ⟨q, .tail p hq, became⟩
    obtain ⟨dice, traces, h | ⟨g, became, h⟩⟩ := grantEntry_cases w s r p
    · exact ⟨gs, later.trans (by rw [h]), known⟩
    · refine ⟨g :: gs, later.trans (by rw [h, List.append_assoc]; rfl), fun g' hg' => ?_⟩
      rcases List.mem_cons.mp hg' with rfl | hg'
      · exact ⟨p, .head ps, r, became⟩
      · exact known g' hg'

theorem finish_eq (o : Outcome) : r.finish w s o =
    (if (grantAll w s r.queue r.clearQueue).1 then o else .failed,
      (grantAll w s r.queue r.clearQueue).2) := rfl

/-- Nothing waits when a step has finished. -/
@[simp] theorem finish_queue (o : Outcome) : (r.finish w s o).2.queue = [] :=
  grantAll_queue r.queue

@[simp] theorem finish_effects (o : Outcome) : (r.finish w s o).2.effects = r.effects :=
  grantAll_effects r.queue

theorem finish_idle (idle : r.queue = []) (o : Outcome) : r.finish w s o = (o, r) := by
  have unmoved : r.clearQueue = r := by rw [clearQueue, ← idle]
  rw [finish_eq, unmoved, idle]
  rfl

end Spoils.Roll
