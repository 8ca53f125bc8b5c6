import Spoils.Proofs.Item.Droppable

/-! A draft that was made droppable once is not adjusted any further. The second run is followed
beside the first one: what an output forces is forced in both, and everything else stays what was
accepted at the end of the first. -/
namespace Spoils

namespace Restriction

/-- What becomes of a value in the second run: where it was forced it is the one of the first run,
elsewhere the accepted one. -/
structure Follows {α : Type} (forced forced' : Bool) (first second accepted : α) : Prop where
  together : forced' = forced
  value : second = if forced then first else accepted

namespace Follows
variable {α : Type} {forced forced' : Bool} {first second accepted : α}

theorem start (first accepted : α) : Follows false false first accepted accepted := ⟨rfl, rfl⟩

theorem eq_accepted (h : Follows forced forced' first second accepted) (free : forced = false) :
    second = accepted := by
  rw [h.value, free]
  rfl

theorem moved (h : Follows forced forced' first second accepted) (free : forced = false)
    (other : α) : Follows forced forced' other second accepted := by
  refine ⟨h.together, ?_⟩
  rw [h.eq_accepted free, free]
  rfl

/-- Where a value was not forced, the second run meets what the accepted one meets. -/
theorem meets (h : Follows forced forced' first second accepted) (p : α → Bool)
    (met : p accepted = true) : (p second || forced') = true := by
  rw [h.together]
  cases free : forced with
  | true => exact Bool.or_true _
  | false =>
    rw [h.eq_accepted free, met]
    rfl

theorem output (value accepted : α) : Follows true true value value accepted := ⟨rfl, rfl⟩

theorem final (h : Follows forced forced' accepted second accepted) : second = accepted := by
  rw [h.value, ite_self]

end Follows

/-- What becomes of a rank. Where it was not forced it is the accepted one, but an accepted zero may
be raised on the way: it comes back to zero with the rank of the first run. -/
structure FollowsRank (checked forced forced' : Bool) (first second accepted : Int) : Prop where
  together : forced' = forced
  tied : checked = false ∨ forced = true → second = first
  free : forced = false → (accepted ≠ 0 → second = accepted) ∧
    (accepted = 0 → 0 ≤ second ∧ (first = 0 → second = 0))

namespace FollowsRank

theorem output (checked : Bool) (value accepted : Int) :
    FollowsRank checked true true value value accepted :=
  ⟨rfl, fun _ => rfl, fun free => by cases free⟩

/-- No output has a say in a rank that is checked. -/
theorem unforced {checked forced forced' : Bool} {first second accepted : Int}
    (together : forced' = forced) (made : checked = true) (free : forced = false)
    (kept : accepted ≠ 0 → second = accepted) (least : accepted = 0 → 0 ≤ second)
    (back : accepted = 0 → first = 0 → second = 0) :
    FollowsRank checked forced forced' first second accepted := by
  refine ⟨together, ?_, fun _ => ⟨kept, fun zero => ⟨least zero, back zero⟩⟩⟩
  rintro (unchecked | forced)
  · cases made.symm.trans unchecked
  · cases free.symm.trans forced

theorem final {checked forced forced' : Bool} {second accepted : Int}
    (h : FollowsRank checked forced forced' accepted second accepted) : second = accepted := by
  cases free : forced with
  | true => exact h.tied (.inr free)
  | false =>
    have := h.free free
    omega

end FollowsRank

/-- Where the second run stands when the first one stood at the same restriction. -/
structure Retraces (i : Inspection) (e : Draft) (a b : Adjustment) : Prop where
  level : Follows a.adjusted.outputLevel b.adjusted.outputLevel a.draft.level b.draft.level e.level
  rarity : Follows a.adjusted.outputRarity b.adjusted.outputRarity a.draft.rarity b.draft.rarity
    e.rarity
  rank : FollowsRank i.checks.rank a.adjusted.outputRank b.adjusted.outputRank a.draft.rank
    b.draft.rank e.rank
  slot : b.draft.slot = e.slot
  rollFor : b.draft.rollFor = e.rollFor
  item : b.draft.item = e.item

variable {i : Inspection} {e : Draft} {a a' b : Adjustment}

/-- The second run can take the step of the first one, and follows it. -/
def Retraceable (i : Inspection) (e : Draft) (a' : Adjustment) (step : Bool × Adjustment) : Prop :=
  ∃ b', step = (true, b') ∧ Retraces i e a' b'

theorem allows_rank_iff {allowed : List Int} {d : Draft} :
    allows i (.rank allowed) d = true ↔ (i.checks.rank = true → d.rank ∈ allowed) := by
  simp only [allows, Bool.or_eq_true, Bool.not_eq_true', List.contains_iff_mem]
  cases i.checks.rank <;> simp

def ranked (a : Adjustment) (rank : Int) : Adjustment where
  draft := { a.draft with rank := rank }
  adjusted := { a.adjusted with rank := true }

theorem adjust_rank_met {allowed : List Int} (met : allows i (.rank allowed) a.draft = true)
    (positive : a.draft.rank ≠ 0) : adjust i (.rank allowed) a = (true, a) := by
  rw [adjust, met, bne_iff_ne.mpr positive]
  rfl

private theorem adjust_rank_raised {allowed : List Int} {best : Int}
    (free : (a.adjusted.outputRank || i.checks.output) = false) (checked : i.checks.rank = true)
    (moves : ¬(allows i (.rank allowed) a.draft = true ∧ a.draft.rank ≠ 0))
    (greatest : allowed.max? = some best) : adjust i (.rank allowed) a = (true, ranked a best) := by
  rw [← bne_iff_ne, ← Bool.and_eq_true, Bool.not_eq_true] at moves
  simp only [adjust, Bool.or_assoc, free, moves, Bool.or_false, Bool.false_eq_true, if_false,
    checked, Bool.not_true, greatest]
  rfl

/-- Where no output has a say, a rank that does not stay becomes the greatest that is allowed. -/
theorem adjust_rank_cases {allowed : List Int}
    (free : (a.adjusted.outputRank || i.checks.output) = false)
    (run : adjust i (.rank allowed) a = (true, a')) :
    (a' = a ∧ a.draft.rank ≠ 0) ∨ (i.checks.rank = true ∧
      ∃ best, allowed.max? = some best ∧ a' = ranked a best) := by
  simp only [adjust, Bool.or_assoc, free, Bool.or_false] at run
  split at run
  · rename_i stays
    cases run
    exact .inl ⟨rfl, bne_iff_ne.mp (Bool.and_eq_true_iff.mp stays).2⟩
  · split at run
    · cases run
    · rename_i checked
      split at run
      · rename_i best greatest
        cases run
        exact .inr ⟨by simpa using checked, best, greatest, rfl⟩
      · cases run

section
variable (h : Retraces i e a b)
include h

private theorem level_retraces {lo range : Int} (accepted : allows i (.level lo range) e = true)
    (run : adjust i (.level lo range) a = (true, a')) :
    Retraceable i e a' (adjust i (.level lo range) b) := by
  have stays : (allows i (.level lo range) b.draft || b.adjusted.outputLevel) = true := by
    rw [allows] at accepted ⊢
    refine h.level.meets (fun level => !i.checks.level ||
      (decide (lo ≤ level) &&
        (decide (range < 0) || decide (level ≤ Bounds.int32.wrap (lo + range))))) accepted
  simp only [adjust, stays, Bool.true_or, if_true]
  simp only [adjust] at run
  split at run
  · cases run
    exact ⟨_, rfl, h⟩
  · rename_i refused
    simp only [Bool.or_eq_true, not_or, Bool.not_eq_true] at refused
    cases run
    exact ⟨_, rfl, { h with level := h.level.moved refused.1.2 _ }⟩

private theorem rarity_retraces {allowed : List PrototypeId}
    (accepted : allows i (.rarity allowed) e = true)
    (run : adjust i (.rarity allowed) a = (true, a')) :
    Retraceable i e a' (adjust i (.rarity allowed) b) := by
  have stays : (allows i (.rarity allowed) b.draft || b.adjusted.outputRarity) = true := by
    rw [allows] at accepted ⊢
    exact h.rarity.meets (fun rarity => !i.checks.rarity || allowed.contains rarity) accepted
  simp only [adjust, stays, Bool.true_or, if_true]
  simp only [adjust] at run
  split at run
  · cases run
    exact ⟨_, rfl, h⟩
  · rename_i refused
    simp only [Bool.or_eq_true, not_or, Bool.not_eq_true] at refused
    split at run
    · cases run
      exact ⟨_, rfl, { h with rarity := h.rarity.moved refused.1.2 _ }⟩
    · cases run

private theorem slot_retraces {allowed : List EquipmentSlot}
    (accepted : allows i (.slot allowed) e = true) (run : adjust i (.slot allowed) a = (true, a')) :
    Retraceable i e a' (adjust i (.slot allowed) b) := by
  have stays : allows i (.slot allowed) b.draft = true := by
    simpa only [allows, h.slot] using accepted
  simp only [adjust, stays, Bool.true_or, if_true]
  simp only [adjust] at run
  split at run
  · cases run
    exact ⟨_, rfl, h⟩
  · split at run
    · cases run
    · split at run
      · cases run
        exact ⟨_, rfl, { h with }⟩
      · cases run

/-- An accepted rank is not adjusted, unless it is zero: then it may be raised, as in the first run,
and is brought back like there. -/
private theorem rank_retraces {allowed : List Int} (accepted : allows i (.rank allowed) e = true)
    (run : adjust i (.rank allowed) a = (true, a')) :
    Retraceable i e a' (adjust i (.rank allowed) b) := by
  obtain ⟨together, tied, free⟩ := h.rank
  cases settled : a.adjusted.outputRank || i.checks.output with
  | true =>
    have settled' : (b.adjusted.outputRank || i.checks.output) = true := by rw [together, settled]
    simp only [adjust, Bool.or_assoc, settled, settled', Bool.or_true, if_true] at run ⊢
    cases run
    exact ⟨_, rfl, h⟩
  | false =>
    have settled' : (b.adjusted.outputRank || i.checks.output) = false := by rw [together, settled]
    have unforced := (Bool.or_eq_false_iff.mp settled).1
    rw [allows_rank_iff] at accepted
    have first := adjust_rank_cases settled run
    have unforced' := together.trans unforced
    by_cases stays : allows i (.rank allowed) b.draft = true ∧ b.draft.rank ≠ 0
    · refine ⟨b, adjust_rank_met stays.1 stays.2, ?_⟩
      rcases first with ⟨rfl, -⟩ | ⟨checked, best, greatest, rfl⟩
      · exact h
      · have most : b.draft.rank ≤ best :=
          (List.max?_eq_some_iff.mp greatest).2 _ (allows_rank_iff.mp stays.1 checked)
        have least := fun zero => ((free unforced).2 zero).1
        refine { h with rank := .unforced together checked unforced (free unforced).1 least ?_ }
        intro zero none
        have lowest := least zero
        have highest : b.draft.rank ≤ 0 := none ▸ most
        omega
    · cases checked : i.checks.rank with
      | false =>
        -- The first run stayed at another rank than zero, and the second is at the same one.
        have same : b.draft.rank = a.draft.rank := tied (.inl checked)
        rcases first with ⟨-, positive⟩ | ⟨yes, -⟩
        · have met : allows i (.rank allowed) b.draft = true :=
            allows_rank_iff.mpr fun yes => (Bool.false_ne_true (checked.symm.trans yes)).elim
          exact (stays ⟨met, same ▸ positive⟩).elim
        · cases checked.symm.trans yes
      | true =>
        have zero : e.rank = 0 := by
          refine Decidable.byContradiction fun other => stays ?_
          have same := (free unforced).1 other
          exact ⟨allows_rank_iff.mpr (same ▸ accepted), same ▸ other⟩
        have listed : 0 ∈ allowed := zero ▸ accepted checked
        obtain ⟨best, greatest⟩ := Option.isSome_iff_exists.mp (List.isSome_max?_of_mem listed)
        have least : 0 ≤ best := (List.max?_eq_some_iff.mp greatest).2 0 listed
        refine ⟨ranked b best, adjust_rank_raised settled' checked stays greatest, ?_⟩
        have follows (rank : Int) (back : rank = 0 → best = 0) :
            FollowsRank i.checks.rank a.adjusted.outputRank b.adjusted.outputRank rank best
              e.rank :=
          .unforced together checked unforced (fun other => absurd zero other) (fun _ => least)
            fun _ => back
        rcases first with ⟨rfl, positive⟩ | ⟨-, best', greatest', rfl⟩
        · exact { h with rank := follows _ fun none => absurd none positive }
        · cases greatest.symm.trans greatest'
          exact { h with rank := follows best id }

/-- What is forced in the first run is forced in the second. -/
private theorem forced_retraces {unchecked : Bool} {x y : Adjustment} (forced : Retraces i e x y)
    (run : (if unchecked then (true, a) else (true, x)) = (true, a')) :
    Retraceable i e a' (if unchecked then (true, b) else (true, y)) := by
  cases unchecked with
  | true =>
    cases run
    exact ⟨_, rfl, h⟩
  | false =>
    cases run
    exact ⟨_, rfl, forced⟩

private theorem outputLevel_retraces {value : Int} {filter : Bool}
    (run : adjust i (.outputLevel value filter) a = (true, a')) :
    Retraceable i e a' (adjust i (.outputLevel value filter) b) := by
  rw [adjust] at run ⊢
  refine forced_retraces h ?_ run
  exact { h with level := .output value _ }

private theorem outputRarity_retraces {value : PrototypeId} {filter : Bool}
    (run : adjust i (.outputRarity value filter) a = (true, a')) :
    Retraceable i e a' (adjust i (.outputRarity value filter) b) := by
  rw [adjust] at run ⊢
  refine forced_retraces h ?_ run
  exact { h with rarity := .output value _ }

private theorem outputRank_retraces {value : Int} {filter : Bool}
    (run : adjust i (.outputRank value filter) a = (true, a')) :
    Retraceable i e a' (adjust i (.outputRank value filter) b) := by
  rw [adjust] at run ⊢
  refine forced_retraces h ?_ run
  exact { h with rank := .output _ value _ }

/-- What adjusts nothing lets the second run pass where the draft meets it. -/
private theorem gate_retraces {r : Restriction}
    (gate : ∀ a, adjust i r a = (i.checks.output || allows i r a.draft, a))
    (accepted : allows i r b.draft = true) (run : adjust i r a = (true, a')) :
    Retraceable i e a' (adjust i r b) := by
  rw [gate, Prod.mk.injEq] at run
  rw [gate, accepted, Bool.or_true]
  exact ⟨b, rfl, run.2 ▸ h⟩

end

theorem adjustAll_cons_iff {r : Restriction} {rs : List Restriction} :
    adjustAll i (r :: rs) a = (true, b) ↔
      ∃ m, adjust i r a = (true, m) ∧ adjustAll i rs m = (true, b) := by
  rw [adjustAll]
  rcases adjust i r a with ⟨_ | _, m⟩ <;> simp

/-- Where every single restriction lets the second run take the step of the first one, all of them
do. -/
theorem adjustAll_retraces_of {rs : List Restriction} {a a' b : Adjustment}
    (each : ∀ r ∈ rs, ∀ {a a' b : Adjustment}, Retraces i e a b → adjust i r a = (true, a') →
      Retraceable i e a' (adjust i r b))
    (h : Retraces i e a b) (run : adjustAll i rs a = (true, a')) :
    Retraceable i e a' (adjustAll i rs b) := by
  induction rs generalizing a b with
  | nil =>
    cases run
    exact ⟨_, rfl, h⟩
  | cons r rs ih =>
    obtain ⟨m, first, rest⟩ := adjustAll_cons_iff.mp run
    obtain ⟨m', first', hm⟩ := each r (.head rs) h first
    obtain ⟨b', rest', hb⟩ := ih (fun r listed => each r (.tail _ listed)) hm rest
    exact ⟨b', adjustAll_cons_iff.mpr ⟨m', first', rest'⟩, hb⟩

/-- A restriction that is met in the end lets the second run take the step of the first one. -/
private theorem adjust_retraces (r : Restriction) {a a' b : Adjustment}
    (accepted : allows i r e = true) (h : Retraces i e a b) (run : adjust i r a = (true, a')) :
    Retraceable i e a' (adjust i r b) := by
  induction r generalizing a a' b with
  | level => exact level_retraces h accepted run
  | rarity => exact rarity_retraces h accepted run
  | rank => exact rank_retraces h accepted run
  | slot => exact slot_retraces h accepted run
  | outputLevel => exact outputLevel_retraces h run
  | outputRarity => exact outputRarity_retraces h run
  | outputRank => exact outputRank_retraces h run
  | usableBy =>
    exact gate_retraces h (fun _ => rfl) (by simpa only [allows, h.rollFor] using accepted) run
  | itemParent =>
    exact gate_retraces h (fun _ => rfl) (by simpa only [allows, h.item] using accepted) run
  | occasion => exact gate_retraces h (fun _ => rfl) accepted run
  | conditional occasions inside outside here elsewhere =>
    simp only [adjust, allows] at accepted run ⊢
    split at run
    · rename_i hit
      rw [if_pos hit] at accepted ⊢
      have met := allowsAll_iff.mp accepted
      exact adjustAll_retraces_of (fun r listed => here r listed (met r listed)) h run
    · rename_i miss
      rw [if_neg miss] at accepted ⊢
      have met := allowsAll_iff.mp accepted
      exact adjustAll_retraces_of (fun r listed => elsewhere r listed (met r listed)) h run

private theorem adjustAll_retraces (rs : List Restriction) {a a' b : Adjustment}
    (accepted : allowsAll i rs e = true) (h : Retraces i e a b)
    (run : adjustAll i rs a = (true, a')) : Retraceable i e a' (adjustAll i rs b) :=
  adjustAll_retraces_of
    (fun r listed => adjust_retraces r (allowsAll_iff.mp accepted r listed)) h run

theorem adjustAll_rank_unchecked (unchecked : i.checks.rank = false) (rs : List Restriction)
    (a : Adjustment) : (adjustAll i rs a).2.draft.rank = a.draft.rank := by
  have account := adjustAll_accounts rs (.refl i a)
  refine Decidable.byContradiction fun moved => ?_
  cases unchecked.symm.trans (account.permitted.rank moved)

end Restriction

namespace Item
variable {item : Item} {i : Inspection} {d e : Draft} {adjusted : Checks}

/-- A draft that was made droppable is droppable again, as it is. -/
theorem makeDroppable_idempotent (h : item.makeDroppable i d = (some adjusted, e)) :
    ∃ again, item.makeDroppable i e = (some again, e) := by
  obtain ⟨run, drops⟩ := makeDroppable_eq_some_iff.mp h
  have accepted : Restriction.allowsAll i item.restrictions e = true := by
    simp only [isDroppable, Bool.and_eq_true] at drops
    exact drops.2
  have start : Restriction.Retraces i e ⟨d, .none⟩ ⟨e, .none⟩ := by
    refine ⟨.start _ _, .start _ _, ⟨rfl, ?_, ?_⟩, rfl, rfl, rfl⟩
    · rintro (unchecked | forced)
      · have same := Restriction.adjustAll_rank_unchecked unchecked item.restrictions ⟨d, .none⟩
        rwa [run] at same
      · cases forced
    · exact fun _ => ⟨fun _ => rfl, fun zero => ⟨Int.le_of_eq zero.symm, fun _ => zero⟩⟩
  obtain ⟨⟨f, noted⟩, rerun, traced⟩ :=
    Restriction.adjustAll_retraces item.restrictions accepted start run
  have adjusts := Restriction.adjustAll_adjusts i item.restrictions ⟨e, .none⟩
  rw [rerun] at adjusts
  have same : f = e := by
    rw [Draft.Adjusts, traced.level.final, traced.rarity.final, traced.rank.final,
      traced.slot] at adjusts
    exact adjusts
  subst same
  exact ⟨noted, makeDroppable_eq_some_iff.mpr ⟨rerun, drops⟩⟩

/-- The level is forced twice, and the rank is raised and brought back, in both runs. -/
theorem makeDroppable_idempotent_forced :
    let item : Item := {
      id := ⟨100⟩
      restrictions := [.level 5 0, .rank [0, 4],
        .conditional .drop [.outputLevel 9 false, .outputLevel 5 true] [], .rank [0],
        .slot [.ring]] }
    let i : Inspection := ⟨{}, .drop, .all⟩
    let d : Draft := { item := ⟨100⟩, level := 3 }
    let e : Draft := { item := ⟨100⟩, level := 5, slot := .ring }
    let adjusted : Checks := { level := true, rank := true, slot := true, outputLevel := true }
    item.makeDroppable i d = (some adjusted, e) ∧
      ∃ again, item.makeDroppable i e = (some again, e) := by
  intro item i d e adjusted
  have first : item.makeDroppable i d = (some adjusted, e) := by decide
  exact ⟨first, makeDroppable_idempotent first⟩

end Item

end Spoils
