import Mathlib.Data.List.Forall2
import Spoils.Proofs.Formula.Hygiene

/-! Rounds over conditions that write no properties: every condition comes back in its place, and
with its properties unless something in the rounds binds its slot to something else. -/
namespace Spoils

namespace Formula

/-- Whether evaluating the formula itself can write a property. -/
def writesProperty : Formula → Bool
  | .assign .. | .assignWith .. | .swap .. => true
  | _ => false

/-- Whether evaluating the formula itself can bind the slot to an entity or to conditions. -/
def binds (slot : Slot) : Formula → Bool
  | .bindEntity _ bound | .bindConditions _ bound => bound == slot
  | _ => false

end Formula

/-- The condition came back as it was, or for a reason without its properties. -/
def Condition.Returns (reason : Prop) (c c' : Condition) : Prop :=
  c' = c ∨ c' = { c with properties := .empty } ∧ reason

namespace Scope
variable {s t : Scope}

/-- The properties of the condition that is in its slot. -/
def held (s : Scope) : Option PropertyStore := (s.takeOwned .condition).1

theorem held_congr (same : t.binding? .condition = s.binding? .condition) : t.held = s.held := by
  rw [held, held, takeOwned, takeOwned, same]
  split <;> rfl

theorem held_eq_none {b : SlotBinding} (bound : s.binding? .condition = some b)
    (other : ∀ p, b ≠ .store ⟨.owned, p⟩) : s.held = none := by
  rw [held, takeOwned, bound]
  split
  · rename_i p same
    exact absurd (Option.some.inj same) (other p)
  · rfl

theorem held_conditions {list : List Condition}
    (bound : s.binding? .condition = some (.conditions list)) : s.held = none :=
  held_eq_none bound fun _ same => by cases same

@[simp] theorem held_pushFrame (s : Scope) : s.pushFrame.held = s.held := held_congr rfl

@[simp] theorem held_popFrame (s : Scope) : s.popFrame.held = s.held := by
  refine held_congr ?_
  rw [popFrame]
  split <;> rfl

theorem binding?_bind (s : Scope) (slot slot' : Slot) (b : SlotBinding) :
    (s.bind slot b).binding? slot' = (s.rebind slot b).binding? slot' := by
  rw [bind]
  split <;> rfl

theorem index?_ne_of_ne {slot : Slot} (h : slot ≠ .condition) :
    slot.index? ≠ Slot.condition.index? := by
  cases slot <;> first | exact absurd rfl h | decide

theorem held_rebind_ne {slot : Slot} (h : slot ≠ .condition) (s : Scope) (b : SlotBinding) :
    (s.rebind slot b).held = s.held := held_congr (binding?_rebind_ne (index?_ne_of_ne h) s b)

theorem binding?_rebind_condition (s : Scope) (b : SlotBinding) :
    (s.rebind .condition b).binding? .condition = some b := binding?_rebind_self (s := s) rfl b

/-- A slot that is bound to anything else than the properties of a condition holds none. -/
theorem held_bind_condition (s : Scope) {b : SlotBinding} (other : ∀ p, b ≠ .store ⟨.owned, p⟩) :
    (s.bind .condition b).held = none :=
  held_eq_none ((binding?_bind ..).trans (binding?_rebind_condition s b)) other

private theorem held_bind_ne {slot : Slot} (h : slot ≠ .condition) (s : Scope) (b : SlotBinding) :
    (s.bind slot b).held = s.held :=
  held_congr ((binding?_bind ..).trans (binding?_rebind_ne (index?_ne_of_ne h) s b))

private theorem held_enterCondition (s : Scope) (c : Condition) :
    (s.enterCondition c).held = some c.properties := by
  have apart : Slot.conditionKeywords.index? ≠ Slot.condition.index? := by decide
  rw [held, takeOwned, enterCondition, binding?_rebind_ne apart, binding?_rebind_condition]

private theorem held_leaveCondition (t before : Scope) (c : Condition) :
    (t.leaveCondition before c).2.held = before.held := by
  have apart : Slot.conditionKeywords.index? ≠ Slot.condition.index? := by decide
  refine held_congr ?_
  change ((Scope.rebind _ .condition _).rebind .conditionKeywords _).binding? .condition = _
  rw [binding?_rebind_ne apart, binding?_rebind_condition]
  rfl

end Scope

/-- What was held is held still, or it is held no more for a reason. -/
def keepsHeld (reason : Prop) : Scope.Law := fun s _ t _ =>
  t.held = s.held ∨ t.held = none ∧ reason

namespace keepsHeld
variable {reason : Prop} {s t : Scope} {failed : Prop} {round : Step (Option Value)}

theorem same {visits : List Visit} (h : t.binding? .condition = s.binding? .condition) :
    keepsHeld reason s failed t visits := .inl (Scope.held_congr h)

theorem composes : (keepsHeld reason).Composes where
  stay _ _ := .inl rfl
  trans := by
    rintro s t u a b l m - first (same | lost)
    · rw [keepsHeld, same]
      exact first
    · exact .inr lost
  framed h := by
    rw [keepsHeld, Scope.held_pushFrame] at h
    rw [keepsHeld, Scope.held_popFrame]
    exact h

/-- A slot is bound to something that is no property store of its own. -/
theorem bind {slot : Slot} {b : SlotBinding} (other : ∀ p, b ≠ .store ⟨.owned, p⟩)
    (allowed : slot = .condition → reason) (s : Scope) :
    keepsHeld reason s failed (s.bind slot b) [] := by
  by_cases here : slot = .condition
  · subst here
    exact .inr ⟨s.held_bind_condition other, allowed rfl⟩
  · exact .inl (s.held_bind_ne here b)

theorem draw (s : Scope) (f : Dice → Value × Dice) : keepsHeld reason s failed (s.draw f).2 [] := by
  refine .same ?_
  rw [Scope.draw]
  split <;> rfl

section
variable (hr : ∀ s, keepsHeld reason s True (round s).2 [])
include hr

/-- A condition comes back from a round with its properties, or without them for the reason. -/
private theorem runCondition_returns (c : Condition) (s : Scope) :
    c.Returns reason (runCondition round c s).1.2 := by
  have kept := hr (s.enterCondition c)
  rw [keepsHeld, s.held_enterCondition] at kept
  change c.Returns reason
    { c with properties := (round (s.enterCondition c)).2.held.getD .empty }
  rcases kept with same | ⟨lost, why⟩
  · rw [same]
    exact .inl rfl
  · rw [lost]
    exact .inr ⟨rfl, why⟩

private theorem runConditions_returns (list : List Condition) (s : Scope) :
    List.Forall₂ (Condition.Returns reason) list (runConditions round list s).1.2 := by
  induction list generalizing s with
  | nil => exact .nil
  | cons c cs ih =>
    have first := runCondition_returns hr c s
    rw [runConditions]
    generalize runCondition round c s = r at first ⊢
    obtain ⟨⟨_ | v, c'⟩, t⟩ := r
    · exact .cons first (ih t)
    · -- No round is begun over the conditions behind the one that ended it.
      exact .cons first (List.forall₂_same.mpr fun _ _ => .inl rfl)

private theorem overConditions_returns {source : Slot} {list : List Condition}
    (bound : s.binding? source = some (.conditions list)) :
    ∃ list', (overConditions source round s).2.binding? source = some (.conditions list') ∧
      List.Forall₂ (Condition.Returns reason) list list' := by
  obtain ⟨i, place, -⟩ := Option.map_eq_some_iff.mp bound
  have back (t : Scope) (list : List Condition) :
      (t.rebind source (.conditions list)).binding? source = some (.conditions list) :=
    Scope.binding?_rebind_self (b := t.slots[i]) (by rw [Scope.binding?, place]; rfl) _
  rw [overConditions, bound]
  exact ⟨_, back _ _, runConditions_returns hr list _⟩

end

theorem held_runConditions (round : Step (Option Value)) (list : List Condition) (s : Scope) :
    (runConditions round list s).2.held = s.held := by
  induction list generalizing s with
  | nil => rfl
  | cons c cs ih =>
    have back : (runCondition round c s).2.held = s.held := Scope.held_leaveCondition _ s c
    rw [runConditions]
    generalize runCondition round c s = r at back ⊢
    obtain ⟨⟨_ | v, c'⟩, t⟩ := r
    · exact (ih t).trans back
    · exact back

/-- Rounds over conditions lose nothing of a condition that is in its slot around them. -/
theorem held_overConditions (source : Slot) (round : Step (Option Value)) (s : Scope) :
    (overConditions source round s).2.held = s.held := by
  rw [overConditions]
  split
  · rename_i list bound
    change (Scope.rebind (framed _ _).2 source _).held = s.held
    by_cases here : source = .condition
    · subst here
      exact (Scope.held_conditions (Scope.binding?_rebind_condition _ _)).trans
        (Scope.held_conditions bound).symm
    · rw [Scope.held_rebind_ne here, framed]
      simp only [Scope.held_popFrame, held_runConditions, Scope.held_pushFrame,
        Scope.held_rebind_ne here]
  · rfl

theorem holds (reason : Prop) : (keepsHeld reason).Holds fun g =>
    g.writesProperty = false ∧ (g.binds .condition = true → reason) where
  toComposes := composes
  visit h := h
  assign allowed := by cases allowed.1
  assignWith allowed := by cases allowed.1
  swap allowed := by cases allowed.1
  bindEntity allowed s id _ :=
    bind (fun _ h => by cases h) (fun here => allowed.2 (beq_iff_eq.mpr here)) s
  bindConditions allowed s _ := by
    rw [Formula.eval]
    split
    · exact bind (fun _ h => by cases h) (fun here => allowed.2 (beq_iff_eq.mpr here)) s
    · exact .inl rfl
  randomSingle _ s _ := draw s _
  randomInt _ s _ := draw s _
  overPrototypes hr := composes.eachPrototype (fun _ _ _ => .same rfl) hr _
  overConditions hr s := by
    rw [Recorded.run_overConditions]
    exact .inl (held_overConditions _ _ s)

end keepsHeld

namespace Formula
variable {source : Slot} {pre post : Option Formula} {body : List Formula} {s : Scope}
  {list : List Condition}

private theorem eval_forConditions_returns {reason : Prop}
    (bound : s.binding? source = some (.conditions list))
    (allowed : ∀ g ∈ (forConditions source pre post body).inner,
      g.writesProperty = false ∧ (g.binds .condition = true → reason)) :
    ∃ list', ((forConditions source pre post body).eval s).2.binding? source =
        some (.conditions list') ∧ List.Forall₂ (Condition.Returns reason) list list' := by
  have hL := keepsHeld.holds reason
  rw [inner, List.forall_mem_append, List.forall_mem_append] at allowed
  obtain ⟨hpre, hpost, hbody⟩ := allowed
  have rounds := hL.round (hL.guard pre true hpre) (hL.body body .undefined hbody)
    (hL.guard post false hpost)
  rw [← run_record, record, Recorded.run_overConditions]
  exact keepsHeld.overConditions_returns (fun s => rounds s) bound

/-- Rounds over conditions that write no properties give every condition back in its place, with its
identifier and keywords. Its properties are as before or all gone, and none are gone if nothing in
the rounds binds the slot of the condition to something else. -/
theorem eval_forConditions (bound : s.binding? source = some (.conditions list))
    (plain : ∀ g ∈ (forConditions source pre post body).inner, g.writesProperty = false) :
    ∃ list', ((forConditions source pre post body).eval s).2.binding? source =
        some (.conditions list') ∧
      List.Forall₂ (fun c c' => c' = c ∨ c' = { c with properties := .empty }) list list' ∧
      ((∀ g ∈ (forConditions source pre post body).inner, g.binds .condition = false) →
        list' = list) := by
  have allowed : ∀ g ∈ (forConditions source pre post body).inner, g.writesProperty = false ∧
      (g.binds .condition = true →
        ∃ g ∈ (forConditions source pre post body).inner, g.binds .condition = true) :=
    fun g here => ⟨plain g here, fun binds => ⟨g, here, binds⟩⟩
  obtain ⟨list', back, returned⟩ := eval_forConditions_returns bound allowed
  refine ⟨list', back, returned.imp fun c c' h => h.imp_right And.left, fun unbound => ?_⟩
  have same : List.Forall₂ Eq list list' := by
    refine returned.imp fun c c' h => ?_
    rcases h with same | ⟨-, g, here, binds⟩
    · exact same.symm
    · cases (unbound g here).symm.trans binds
  exact (List.forall₂_eq_eq_eq ▸ same : list = list').symm

/-- Two rounds over conditions inside each other, and an entity is bound to another slot. -/
theorem eval_forConditions_nested :
    let key : PropertyKey := (⟨2000⟩ : PropertyId)
    let list : List Condition :=
      [{ id := 1, keywords := [⟨50⟩], properties := .ofList [(key, .integer 1)] },
        { id := 2, properties := .ofList [(key, .integer 2)] }]
    let rounds : Formula := .forConditions .var1 (some (.has .condition key)) none
      [.bindEntity (.int 5) .var3, .bindConditions .var3 .var2,
        .forConditions .var2 none none [.bindEntity (.int 6) .var4]]
    let s := Scope.rebind { host := some { conditions := fun _ => list } } .var1 (.conditions list)
    (rounds.eval s).1 = .undefined ∧
      (rounds.eval s).2.binding? .var1 = some (.conditions list) := by
  intro key list rounds s
  have plain : ∀ g ∈ rounds.inner, g.writesProperty = false := by decide
  have unbound : ∀ g ∈ rounds.inner, g.binds .condition = false := by decide
  have bound : s.binding? .var1 = some (.conditions list) := rfl
  obtain ⟨list', back, -, same⟩ := eval_forConditions bound plain
  rw [same unbound] at back
  exact ⟨by decide +kernel, back⟩

/-- A round binds the slot of its condition to an entity, and the properties of the condition are
gone. -/
theorem eval_forConditions_gone :
    let key : PropertyKey := (⟨2000⟩ : PropertyId)
    let c : Condition :=
      { id := 1, keywords := [⟨50⟩], properties := .ofList [(key, .integer 1)] }
    let rounds : Formula := .forConditions .var1 none none [.bindEntity (.int 5) .condition]
    let s := Scope.rebind {} .var1 (.conditions [c])
    (∀ g ∈ rounds.inner, g.writesProperty = false) ∧ (rounds.eval s).1 = .undefined ∧
      (rounds.eval s).2.binding? .var1 = some (.conditions [{ c with properties := .empty }]) ∧
      { c with properties := .empty } ≠ c := by
  decide +kernel

end Formula

end Spoils
