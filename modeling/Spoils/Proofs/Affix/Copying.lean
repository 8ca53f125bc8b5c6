import Spoils.Proofs.Affix.Keys
import Spoils.Proofs.Affix.Numbers

/-! Copying affixes where it ends without an error: which ones are copied, which ones are passed
over, and how many there are afterwards. -/
namespace Spoils

namespace AttachedAffix

def passing (c : Catalog) (f : AffixFilter) (as : List AttachedAffix) : List AttachedAffix :=
  as.filter fun a => (c.affix? a.affix).any f.accepts

/-- Those of a list that are new beside others: the first under each key. -/
def newTo (others as : List AttachedAffix) : List AttachedAffix :=
  (as.filter fun a => !others.any fun b => b.key == a.key).eraseDupsBy fun a b => a.key == b.key

variable {c : Catalog} {f : AffixFilter} {others as : List AttachedAffix} {a : AttachedAffix}

theorem passing_cons_of_pos {p : Affix} (known : c.affix? a.affix = some p)
    (passes : f.accepts p = true) (as : List AttachedAffix) :
    passing c f (a :: as) = a :: passing c f as :=
  List.filter_cons_of_pos (by rw [known]; exact passes)

theorem passing_cons_of_neg {p : Affix} (known : c.affix? a.affix = some p)
    (refused : f.accepts p = false) (as : List AttachedAffix) :
    passing c f (a :: as) = passing c f as :=
  List.filter_cons_of_neg (by rw [known, Option.any_some, refused]; decide)

theorem newTo_cons_of_mem (present : a.key ∈ others.map (·.key)) :
    newTo others (a :: as) = newTo others as := by
  obtain ⟨b, carried, same⟩ := List.mem_map.mp present
  have found : (others.any fun b => b.key == a.key) = true :=
    List.any_eq_true.mpr ⟨b, carried, beq_iff_eq.mpr same⟩
  rw [newTo, List.filter_cons_of_neg (by rw [found]; decide), newTo]

theorem newTo_cons_of_notMem (absent : a.key ∉ others.map (·.key)) :
    newTo others (a :: as) = a :: newTo (others ++ [a]) as := by
  have missing : (others.any fun b => b.key == a.key) = false := by
    rw [List.any_eq_false]
    intro b carried same
    exact absent (List.mem_map.mpr ⟨b, carried, beq_iff_eq.mp same⟩)
  have apart : (as.filter fun b => !others.any fun o => o.key == b.key).filter
      (fun b => (b.key == a.key) = false) =
      as.filter fun b => !(others ++ [a]).any fun o => o.key == b.key := by
    rw [List.filter_filter]
    refine List.filter_congr fun b _ => ?_
    rw [List.any_append, List.any_cons, List.any_nil, Bool.or_false, Bool.not_or, Bool.and_comm,
      BEq.comm (a := b.key)]
    cases a.key == b.key <;> rfl
  rw [newTo, List.filter_cons_of_pos (by rw [missing]; decide), List.eraseDupsBy_cons, apart, newTo]

private theorem newTo_subset (others as : List AttachedAffix) : newTo others as ⊆ as := by
  induction as generalizing others with
  | nil => exact List.Subset.refl []
  | cons a as ih =>
    by_cases present : a.key ∈ others.map (·.key)
    · rw [newTo_cons_of_mem present]
      exact List.subset_cons_of_subset a (ih others)
    · rw [newTo_cons_of_notMem present]
      exact List.cons_subset_cons a (ih _)

end AttachedAffix

namespace Draft
open AttachedAffix
variable {c : Catalog} {f : AffixFilter} {limits : Option AffixLimits} {d e : Draft}
  {source : List AttachedAffix}

/-- The ways of copying without an error: an affix does not pass the filter, is passed over since
the draft has it, or comes last on the draft. -/
inductive Copies (c : Catalog) (f : AffixFilter) (limits : Option AffixLimits) :
    List AttachedAffix → Draft → Draft → Prop where
  | done (d : Draft) : Copies c f limits [] d d
  | filtered {x : AttachedAffix} {a : Affix} {xs : List AttachedAffix} {d e : Draft}
      (known : c.affix? x.affix = some a) (refused : f.accepts a = false)
      (rest : Copies c f limits xs d e) : Copies c f limits (x :: xs) d e
  | repeated {x : AttachedAffix} {a : Affix} {xs : List AttachedAffix} {d e : Draft}
      (known : c.affix? x.affix = some a) (passes : f.accepts a = true)
      (present : x.key ∈ d.affixKeys) (ignored : a.duplicates = .ignore)
      (rest : Copies c f limits xs d e) : Copies c f limits (x :: xs) d e
  | copied {x : AttachedAffix} {a : Affix} {xs : List AttachedAffix} {d e : Draft}
      (known : c.affix? x.affix = some a) (passes : f.accepts a = true)
      (absent : x.key ∉ d.affixKeys) (room : ∀ l, limits = some l → d.hasRoom c a l = true)
      (rest : Copies c f limits xs { d with affixes := d.affixes ++ [x] } e) :
      Copies c f limits (x :: xs) d e

theorem hasRoom_iff {a : Affix} {l : AffixLimits} : d.hasRoom c a l = true ↔
    (a.position.isCounted = true → d.countAtPosition c a.position < l.maxCount a.position none) ∧
      ∀ category ∈ a.categories, d.countInCategory c category < l.categoryMax category none := by
  simp only [hasRoom, Bool.and_eq_true, Bool.not_eq_true', Bool.and_eq_false_imp,
    decide_eq_false_iff_not, Int.not_le, List.all_eq_true, decide_eq_true_eq]

theorem copyEach_copies {report report' : MutationReport}
    (ran : copyEach c f limits source report d = (report', e)) (clean : report'.error = false) :
    Copies c f limits source d e := by
  induction source generalizing report d with
  | nil =>
    cases ran
    exact .done _
  | cons x xs ih =>
    rw [copyEach] at ran
    split at ran
    · cases ran
      cases clean
    · rename_i a known
      split at ran
      · rename_i refused
        exact .filtered known (by simpa using refused) (ih ran)
      · rename_i passes
        split at ran
        · rename_i fault
          cases ran
          cases clean.symm.trans fault
        · split at ran
          · rename_i present
            split at ran
            · rename_i ignored
              have there := hasAffix_iff.mp present
              exact .repeated known (by simpa using passes) there ignored (ih ran)
            all_goals
              cases ran
              cases clean
          · rename_i absent
            split at ran
            · cases ran
              cases clean
            · rename_i room
              refine .copied known (by simpa using passes) (fun present => ?_) ?_ (ih ran)
              · exact absent (hasAffix_iff.mpr present)
              · rintro l rfl
                simpa using room

namespace Copies

theorem known (h : Copies c f limits source d e) :
    ∀ x ∈ source, (c.affix? x.affix).isSome = true := by
  induction h with
  | done d => exact fun x none => by cases none
  | filtered known _ _ ih | repeated known _ _ _ _ ih | copied known _ _ _ _ ih =>
    exact List.forall_mem_cons.mpr ⟨Option.isSome_of_eq_some known, ih⟩

/-- What is copied comes last, in order: whatever passes and is new. -/
theorem draft_eq (h : Copies c f limits source d e) :
    e = { d with affixes := d.affixes ++ newTo d.affixes (passing c f source) } := by
  induction h with
  | done d => exact (congrArg (fun as => { d with affixes := as }) (List.append_nil _)).symm
  | filtered known refused _ ih => rw [passing_cons_of_neg known refused, ← ih]
  | repeated known passes present _ _ ih =>
    rw [passing_cons_of_pos known passes, newTo_cons_of_mem present, ← ih]
  | copied known passes absent _ _ ih =>
    rw [passing_cons_of_pos known passes, newTo_cons_of_notMem absent, List.append_cons]
    exact ih

/-- What passes and is not copied was there already, and its affix ignores that. -/
theorem ignores (h : Copies c f limits source d e) {before after : List AttachedAffix}
    {x : AttachedAffix} (split : passing c f source = before ++ x :: after)
    (present : x.key ∈ (d.affixes ++ before).map (·.key)) :
    ∃ a, c.affix? x.affix = some a ∧ a.duplicates = .ignore := by
  induction h generalizing before with
  | done d => simp [passing] at split
  | filtered known refused _ ih =>
    rw [passing_cons_of_neg known refused] at split
    exact ih split present
  | repeated known passes there ignored _ ih =>
    rw [passing_cons_of_pos known passes] at split
    cases before with
    | nil =>
      cases split
      exact ⟨_, known, ignored⟩
    | cons y ys =>
      obtain ⟨rfl, rest⟩ := List.cons.inj split
      refine ih rest ?_
      rw [List.map_append, List.mem_append, List.map_cons, List.mem_cons] at present
      rw [List.map_append, List.mem_append]
      rcases present with before | same | between
      · exact .inl before
      · exact .inl (same ▸ there)
      · exact .inr between
  | copied known passes absent _ _ ih =>
    rw [passing_cons_of_pos known passes] at split
    cases before with
    | nil =>
      cases split
      rw [List.append_nil] at present
      exact (absent present).elim
    | cons y ys =>
      obtain ⟨rfl, rest⟩ := List.cons.inj split
      exact ih rest (by rwa [List.append_cons] at present)

/-- Where a copy with some property needs its number below a bound, the number stays as it was or
ends within the bound. -/
theorem numberOf_le (h : Copies c f limits source d e) {q : Affix → Bool}
    (few : d.numberOf c q < 32768) {most : Int} (small : most ≤ 32767)
    (guarded : ∀ (d : Draft) (a : Affix),
      (∀ l, limits = some l → d.hasRoom c a l = true) → q a = true → d.countAffixes c q < most) :
    e.numberOf c q = d.numberOf c q ∨ (e.numberOf c q : Int) ≤ most := by
  induction h with
  | done d => exact .inl rfl
  | filtered _ _ _ ih | repeated _ _ _ _ _ ih => exact ih few
  | copied known passes absent room rest ih =>
    rename_i x a xs d e
    have one := numberOf_append c d [x] q
    rw [List.countP_singleton, known, Option.any_some] at one
    cases counts : q a with
    | false =>
      rw [counts, if_neg (by decide), Nat.add_zero] at one
      rw [one] at ih
      exact ih few
    | true =>
      have below := guarded d a room counts
      rw [countAffixes_eq few] at below
      rw [counts, if_pos rfl] at one
      rcases ih (by omega) with same | within
      · right
        omega
      · exact .inr within

/-- What is copied under limits stays within them, at its position and in its categories. -/
theorem within {l : AffixLimits} (h : Copies c f (some l) source d e)
    (few : d.affixes.length < 32768) {x : AttachedAffix} {a : Affix}
    (copied : x ∈ newTo d.affixes (passing c f source)) (known : c.affix? x.affix = some a) :
    (a.position.isCounted = true → (e.numberAt c a.position : Int) ≤ l.maxCount a.position none) ∧
      ∀ category ∈ a.categories, (e.numberIn c category : Int) ≤ l.categoryMax category none := by
  have more {q : Affix → Bool} (counts : q a = true) : e.numberOf c q ≠ d.numberOf c q := by
    have added := numberOf_append c d (newTo d.affixes (passing c f source)) q
    rw [← h.draft_eq] at added
    have some : 0 < (newTo d.affixes (passing c f source)).countP
        fun a => (c.affix? a.affix).any q :=
      List.countP_pos_iff.mpr ⟨x, copied, by rw [known]; exact counts⟩
    omega
  have exactly (q : Affix → Bool) : d.numberOf c q < 32768 :=
    Nat.lt_of_le_of_lt (numberOf_le_length c d q) few
  constructor
  · intro counted
    rw [numberAt_eq]
    refine (h.numberOf_le (exactly _) (l.maxCount_mem a.position none).2
      fun d b room here => ?_).resolve_left (more (beq_iff_eq.mpr rfl))
    rw [← beq_iff_eq.mp here] at counted ⊢
    exact (hasRoom_iff.mp (room l rfl)).1 counted
  · intro category listed
    refine (h.numberOf_le (exactly _) (l.categoryMax_le none category)
      fun d b room here => ?_).resolve_left (more (List.contains_iff_mem.mpr listed))
    exact (hasRoom_iff.mp (room l rfl)).2 category (List.contains_iff_mem.mp here)

end Copies

/-- What copying from a source without an error makes of a draft. -/
structure Receives (c : Catalog) (occasion : Occasion) (f : AffixFilter) (enforce : Bool)
    (source : List AttachedAffix) (d e : Draft) : Prop where
  /-- All affixes of the source are known. -/
  known : ∀ x ∈ source, (c.affix? x.affix).isSome = true
  /-- Those that pass the filter and are new come last, in order and as they are. -/
  draft_eq : e = { d with affixes := d.affixes ++ newTo d.affixes (passing c f source) }
  /-- Those that pass but are not new have an affix that ignores a second copy. -/
  ignores : ∀ before x after, passing c f source = before ++ x :: after →
    x.key ∈ (d.affixes ++ before).map (·.key) →
    ∃ a, c.affix? x.affix = some a ∧ a.duplicates = .ignore
  /-- Limits that are enforced hold where anything was copied. -/
  within : enforce = true → d.affixes.length < 32768 → ∃ l, d.limits? c occasion = some l ∧
    ∀ x ∈ newTo d.affixes (passing c f source),
      ∃ a, c.affix? x.affix = some a ∧
        (a.position.isCounted = true →
          (e.numberAt c a.position : Int) ≤ l.maxCount a.position none) ∧
        ∀ category ∈ a.categories, (e.numberIn c category : Int) ≤ l.categoryMax category none

theorem copyAffixes_receives {occasion : Occasion} {enforce : Bool}
    (clean : (d.copyAffixes c occasion source f enforce).1.error = false) :
    Receives c occasion f enforce source d (d.copyAffixes c occasion source f enforce).2 := by
  generalize ran : d.copyAffixes c occasion source f enforce = out at clean ⊢
  rw [copyAffixes] at ran
  split at ran
  · subst ran
    cases clean
  · split at ran
    · rename_i free
      have copies := copyEach_copies ran clean
      refine ⟨copies.known, copies.draft_eq, fun _ _ _ => copies.ignores, fun enforced => ?_⟩
      rw [enforced] at free
      cases free
    · split at ran
      · subst ran
        cases clean
      · rename_i l limited
        have copies := copyEach_copies ran clean
        refine ⟨copies.known, copies.draft_eq, fun _ _ _ => copies.ignores, fun _ few => ?_⟩
        refine ⟨l, limited, fun x copied => ?_⟩
        have passes := (List.mem_filter.mp (newTo_subset _ _ copied)).2
        obtain ⟨a, known, -⟩ := (Option.any_eq_true ..).mp passes
        exact ⟨a, known, copies.within few copied known⟩

end Draft

end Spoils
