import Spoils.Affix.Roll
import Spoils.Proofs.Affix.Limits
import Spoils.Proofs.Picker

/-! What rolling affixes can do to a draft: it puts on affixes of a pool one after the other, at
most as many as it was asked for. -/
namespace Spoils

namespace Draft

/-- One affix of a pool is put on a draft: another copy, or a new seed for the copy it has. -/
inductive Puts (pool : List Affix) (d : Draft) : Draft → Prop where
  | append (a : Affix) (scope : PrototypeId) (seed : Nat) (drawn : a ∈ pool)
      (free : d.hasAffix a.id scope = false ∨ a.duplicates = .append) :
      Puts pool d (d.attachAffix a scope seed)
  | overwrite (a : Affix) (scope : PrototypeId) (seed : Nat) (drawn : a ∈ pool)
      (taken : d.hasAffix a.id scope = true) (again : a.duplicates = .overwrite) :
      Puts pool d { d with affixes := reseed (a.id, scope) seed d.affixes }

/-- At most so many affixes of a pool are put on a draft. -/
inductive PutsUpTo (pool : List Affix) : Nat → Draft → Draft → Prop where
  | stay (n : Nat) (d : Draft) : PutsUpTo pool n d d
  | more {n : Nat} {d e f : Draft} (first : Puts pool d e) (rest : PutsUpTo pool n e f) :
      PutsUpTo pool (n + 1) d f

variable {pool pool' : List Affix} {d e : Draft}

theorem Puts.mono (h : Puts pool d e) (sub : pool ⊆ pool') : Puts pool' d e := by
  cases h with
  | append a scope seed drawn free => exact .append a scope seed (sub drawn) free
  | overwrite a scope seed drawn taken again =>
    exact .overwrite a scope seed (sub drawn) taken again

theorem PutsUpTo.mono {n : Nat} (h : PutsUpTo pool n d e) (sub : pool ⊆ pool') :
    PutsUpTo pool' n d e := by
  induction h with
  | stay n d => exact .stay n d
  | more first rest ih => exact .more (first.mono sub) ih

/-- What rolling one affix gives: one of the pool is put on, or the draft stays as it was. -/
structure RollsOne (p : Picker Affix) (d : Draft) (r : Bool × Picker Affix × Draft × Dice) :
    Prop where
  left : r.2.1.items ⊆ p.items
  put : r.1 = true → Puts p.items d r.2.2.1
  same : r.1 = false → r.2.2.1 = d

private theorem putAffix_puts {a : Affix} {scope : PrototypeId} {dice dice' : Dice}
    (drawn : a ∈ pool) (h : d.putAffix a scope dice = some (e, dice')) : Puts pool d e := by
  simp only [putAffix] at h
  by_cases taken : d.hasAffix a.id scope = true
  · rw [if_pos taken] at h
    cases again : a.duplicates with
    | fail => simp [again] at h
    | ignore => simp [again] at h
    | overwrite =>
      simp only [again, Option.some.injEq, Prod.mk.injEq] at h
      exact h.1 ▸ .overwrite a scope _ drawn taken again
    | append =>
      simp only [again, Option.some.injEq, Prod.mk.injEq] at h
      exact h.1 ▸ .append a scope _ drawn (.inr again)
  · rw [if_neg taken, Option.some.injEq, Prod.mk.injEq] at h
    exact h.1 ▸ .append a scope _ drawn (.inl (Bool.eq_false_iff.mpr taken))

theorem rollOneWith_rollsOne (fuel : Nat) (p : Picker Affix) (d : Draft) (dice : Dice) :
    RollsOne p d (rollOneWith fuel p d dice) := by
  induction fuel generalizing p dice with
  | zero => exact ⟨fun _ h => h, fun h => (Bool.false_ne_true h).elim, fun _ => rfl⟩
  | succ fuel ih =>
    rw [rollOneWith]
    split
    · exact ⟨fun _ h => h, fun h => (Bool.false_ne_true h).elim, fun _ => rfl⟩
    · rename_i a q dice' hp
      obtain ⟨drawn, sub⟩ := Picker.pick_mem (congrArg Prod.fst hp)
      rcases a.pickScope (d.hasAffix a.id) dice' with ⟨scope, dice⟩
      simp only
      split
      · rename_i put
        exact ⟨sub, fun _ => putAffix_puts drawn put, fun h => (Bool.false_ne_true h.symm).elim⟩
      · have retry := ih q dice
        exact ⟨fun x hx => sub (retry.left hx), fun h => (retry.put h).mono sub, retry.same⟩

private theorem rollMany_puts (n : Nat) (p : Picker Affix) (d : Draft) (dice : Dice) :
    PutsUpTo p.items n d (rollMany n p d dice).2.1 := by
  induction n generalizing p d dice with
  | zero => exact .stay 0 d
  | succ n ih =>
    have one := rollOneWith_rollsOne p.size p d dice
    rw [rollMany, rollOne]
    rcases hr : rollOneWith p.size p d dice with ⟨_ | _, q, e, dice'⟩
    · rw [hr] at one
      rw [show e = d from one.same rfl]
      exact .stay (n + 1) d
    · rw [hr] at one
      exact .more (one.put rfl) ((ih q e dice').mono one.left)

theorem rollCount_puts (count : Int) (p : Picker Affix) (d : Draft) (dice : Dice) :
    PutsUpTo p.items count.toNat d (d.rollCount count p dice).draft :=
  rollMany_puts count.toNat p d dice

/-- All that filling a position can do: nothing where there is no room, or it rolls what is missing
to a target within the limits. -/
theorem fillPosition_cases (c : Catalog) (s : Option BranchSettings) (l : AffixLimits)
    (change : Change) (p : AffixPosition) :
    (l.maxCount p s ≤ 0 ∧ fillPosition c s l change p = change) ∨
    ∃ target next, 0 < l.maxCount p s ∧ (l.minCount p s ≤ target ∧ target ≤ l.maxCount p s) ∧
      fillPosition c s l change p =
        (change.draft.rollCount (target - change.draft.countAtPosition c p)
          (Affix.pickerFor c (c.affixesAt p) change.draft.item { position := p }) next).also
            change.report := by
  simp only [fillPosition]
  split
  · rename_i full
    exact .inl ⟨full, rfl⟩
  · rename_i room
    have range := Dice.int_mem (Int.lt_add_one_of_le (l.minCount_le_maxCount p s)) change.dice
    exact .inr ⟨_, _, Int.not_le.mp room, ⟨range.1, Int.lt_add_one_iff.mp range.2⟩, rfl⟩

/-- All that rolling the affixes of a draft can do: it leaves the draft alone, without an error only
where no limits apply to a sound draft, or fills the categories and then the positions. -/
theorem rollAffixes_cases (c : Catalog) (occasion : Occasion) (s : Option BranchSettings)
    (d : Draft) (dice : Dice) :
    (∃ report, d.rollAffixes c occasion s dice = ⟨report, d, dice⟩ ∧
      (report.error = false → (d.fault c).error = false ∧ d.limits? c occasion = none)) ∨
    (d.fault c).error = false ∧ ∃ l, d.limits? c occasion = some l ∧
      d.rollAffixes c occasion s dice = fillPositions c s l (d.fillCategories c s l dice) := by
  simp only [rollAffixes]
  split
  · rename_i faulty
    exact .inl ⟨_, rfl, fun clean => (Bool.false_ne_true (clean.symm.trans faulty)).elim⟩
  · rename_i sound
    have sound := Bool.eq_false_iff.mpr sound
    split
    · exact .inl ⟨_, rfl, fun clean => by cases clean⟩
    · rename_i item found
      split
      · rename_i free
        exact .inl ⟨_, rfl, fun _ => ⟨sound, by rw [limits?, found]; exact free⟩⟩
      · rename_i l applies
        exact .inr ⟨sound, l, by rw [limits?, found]; exact applies, rfl⟩

/-- A draft whose affixes are rolled without an error was sound before. -/
theorem fault_of_rollAffixes {c : Catalog} {occasion : Occasion} {s : Option BranchSettings}
    {dice : Dice} (clean : (d.rollAffixes c occasion s dice).report.error = false) :
    (d.fault c).error = false := by
  rcases rollAffixes_cases c occasion s d dice with ⟨report, same, told⟩ | ⟨sound, -⟩
  · rw [same] at clean
    exact (told clean).1
  · exact sound

/-- Under some limits there is room for a number of affixes: at the position that a filter asks
for, or else in all of its categories. -/
def RoomFor (c : Catalog) (s : BranchSettings) (count : Int) (f : AffixFilter) (d : Draft)
    (l : AffixLimits) : Prop :=
  (f.position ≠ .none → Bounds.int16.clamp (d.countAtPosition c f.position + count) ≤
    l.maxCount f.position (some s)) ∧
  (f.position = .none → ∀ category ∈ f.categories,
    Bounds.int16.clamp (d.countInCategory c category + count) ≤ l.categoryMax category (some s))

/-- All that adding affixes can do: it leaves the draft alone, without an error only for a filter
that asks for nothing, or rolls from the affixes at the position that is asked for, or from all,
where there is room. -/
theorem addAffixes_cases (c : Catalog) (occasion : Occasion) (s : BranchSettings) (count : Int)
    (f : AffixFilter) (d : Draft) (dice : Dice) :
    (∃ report, d.addAffixes c occasion s count f dice = ⟨report, d, dice⟩ ∧
      (report.error = false → 0 < count ∧ f = {})) ∨
    ∃ pool, d.addAffixes c occasion s count f dice =
        d.rollCount count (Affix.pickerFor c pool d.item f) dice ∧
      (f.position ≠ .none ∧ pool = c.affixesAt f.position ∨
        f.position = .none ∧ pool = c.affixes) ∧
      0 < count ∧ ∀ l, d.limits? c occasion = some l → RoomFor c s count f d l := by
  generalize ran : d.addAffixes c occasion s count f dice = x
  have refused {report : MutationReport} (failed : report.error = true)
      (ends : (⟨report, d, dice⟩ : Change) = x) : ∃ report, x = ⟨report, d, dice⟩ ∧
        (report.error = false → 0 < count ∧ f = {}) :=
    ⟨report, ends.symm, fun clean => (Bool.false_ne_true (clean.symm.trans failed)).elim⟩
  simp only [addAffixes] at ran
  split at ran
  · exact .inl (refused rfl ran)
  · rename_i usable
    simp only [Bool.or_eq_true, decide_eq_true_eq, not_or, Int.not_le] at usable
    have positive := usable.1.1
    split at ran
    · exact .inl (refused rfl ran)
    · split at ran
      · rename_i placed
        have asked := bne_iff_ne.mp placed
        split at ran
        · rename_i room
          refine .inr ⟨_, ran.symm, .inl ⟨asked, rfl⟩, positive,
            fun l limited => ⟨fun _ => ?_, fun anywhere => (asked anywhere).elim⟩⟩
          rw [limited, Option.all_some] at room
          exact of_decide_eq_true room
        · exact .inl (refused rfl ran)
      · rename_i anywhere
        have asked : f.position = .none := by simpa using anywhere
        split at ran
        · split at ran
          · rename_i room
            refine .inr ⟨_, ran.symm, .inr ⟨asked, rfl⟩, positive,
              fun l limited => ⟨fun placed => (placed asked).elim, fun _ category listed => ?_⟩⟩
            rw [limited, Option.all_some, List.all_eq_true] at room
            exact of_decide_eq_true (room category listed)
          · exact .inl (refused rfl ran)
        · rename_i bare
          have uncategorized : f.categories = [] := by simpa using bare
          split at ran
          · exact .inr ⟨_, ran.symm, .inr ⟨asked, rfl⟩, positive, fun l _ =>
              ⟨fun placed => (placed asked).elim, fun _ => uncategorized ▸ List.forall_mem_nil _⟩⟩
          · rename_i blank
            have silent : f.keywords = [] := by simpa using blank
            refine .inl ⟨_, ran.symm, fun _ => ⟨positive, ?_⟩⟩
            obtain ⟨position, keywords, categories⟩ := f
            cases asked
            cases uncategorized
            cases silent
            rfl

/-- All that adding one affix can do: it fails and leaves the draft as it was, or puts on a known
affix that the item may have. -/
theorem addAffix_cases (c : Catalog) (occasion : Occasion) (s : BranchSettings)
    (affix : PrototypeId) (d : Draft) (dice : Dice) :
    (∃ report dice', d.addAffix c occasion s affix dice = ⟨report, d, dice'⟩ ∧
      report.error = true) ∨
    ∃ a e dice', d.addAffix c occasion s affix dice = ⟨{ affixChange := true }, e, dice'⟩ ∧
      c.affix? affix = some a ∧ c.allowsAttachment a d.item = true ∧ Puts [a] d e := by
  simp only [addAffix]
  split
  · exact .inl ⟨_, _, rfl, rfl⟩
  · rename_i a found
    have one := rollOneWith_rollsOne (Picker.uniform [a]).size (.uniform [a]) d dice
    rw [← rollOne] at one
    split
    · exact .inl ⟨_, _, rfl, rfl⟩
    · rename_i fits
      simp only [Bool.or_eq_true, Bool.not_eq_true', not_or, Bool.not_eq_false] at fits
      split
      · exact .inl ⟨_, _, rfl, rfl⟩
      · split
        · exact .inl ⟨_, _, rfl, rfl⟩
        · rcases rolled : rollOne (.uniform [a]) d dice with ⟨_ | _, q, e, dice'⟩
          · rw [rolled] at one
            exact .inl ⟨_, _, congrArg (Change.mk .failed · dice') (one.same rfl), rfl⟩
          · rw [rolled] at one
            have put := one.put rfl
            rw [Picker.items_uniform] at put
            exact .inr ⟨a, e, dice', rfl, found, fits.2, put⟩

end Draft

end Spoils
