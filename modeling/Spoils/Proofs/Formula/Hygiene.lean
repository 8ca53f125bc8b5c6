import Spoils.Proofs.Formula.Law

/-! Hygiene of scopes: a formula that writes to the local frame only leaves everything else as it
was, and a formula that does not write leaves everything as it was. -/
namespace Spoils

namespace Formula

/-- Whether evaluating the formula can change the scope in more than the formulas inside do. -/
def writes : Formula → Bool
  | .assign .. | .assignWith .. | .swap .. | .bindEntity .. | .bindConditions ..
  | .randomSingle .. | .randomInt .. => true
  | _ => false

/-- Whether the formula writes to the local frame if it writes at all. -/
def isLocal : Formula → Bool
  | .assign slot .. | .assignWith slot .. => slot == .localStack
  | f => !f.writes

/-- Whether the formula runs in a frame of its own. -/
def isBlock : Formula → Bool
  | .scope _ | .loop .. | .forConditions .. | .forPrototypes .. => true
  | _ => false

end Formula

namespace Scope
variable {s t u : Scope}

theorem binding?_rebind_self {slot : Slot} {b : SlotBinding} (h : s.binding? slot = some b)
    (b' : SlotBinding) : (s.rebind slot b').binding? slot = some b' := by
  obtain ⟨i, hi, -⟩ := Option.map_eq_some_iff.mp h
  simp [binding?, rebind, hi]

theorem rebind_rebind (s : Scope) (slot : Slot) (b b' : SlotBinding) :
    (s.rebind slot b).rebind slot b' = s.rebind slot b' := by
  rcases hi : slot.index? with _ | i <;> simp [rebind, hi]

theorem rebind_self {slot : Slot} {b : SlotBinding} (h : s.binding? slot = some b) :
    s.rebind slot b = s := by
  obtain ⟨i, hi, rfl⟩ := Option.map_eq_some_iff.mp h
  simp [rebind, hi]

theorem binding?_rebind_ne {slot slot' : Slot} (h : slot.index? ≠ slot'.index?) (s : Scope)
    (b : SlotBinding) : (s.rebind slot b).binding? slot' = s.binding? slot' := by
  rcases hi : slot.index? with _ | i
  · simp [rebind, hi]
  · rcases hj : slot'.index? with _ | j
    · simp [binding?, hj]
    · have apart : (i : Nat) ≠ j := fun same => h (by rw [hi, hj, Fin.ext same])
      simp [rebind, binding?, hi, hj, Vector.getElem_set_ne _ _ apart]

private theorem rebind_comm {slot slot' : Slot} (h : slot.index? ≠ slot'.index?) (s : Scope)
    (b b' : SlotBinding) :
    (s.rebind slot b).rebind slot' b' = (s.rebind slot' b').rebind slot b := by
  rcases hi : slot.index? with _ | i
  · simp [rebind, hi]
  · rcases hj : slot'.index? with _ | j
    · simp [rebind, hi, hj]
    · have apart : (i : Nat) ≠ j := fun same => h (by rw [hi, hj, Fin.ext same])
      simp [rebind, hi, hj, Vector.set_comm _ _ apart]

/-- Nothing but the innermost frame differs. -/
def OnlyFrame (s t : Scope) : Prop := t = { s with frame := t.frame }

theorem OnlyFrame.refl (s : Scope) : s.OnlyFrame s := rfl

theorem OnlyFrame.trans (h : s.OnlyFrame t) (h' : t.OnlyFrame u) : s.OnlyFrame u := by
  rw [OnlyFrame, h] at h'
  exact h'

theorem OnlyFrame.rebind (h : s.OnlyFrame t) (slot : Slot) (b : SlotBinding) :
    (s.rebind slot b).OnlyFrame (t.rebind slot b) := by
  rw [h]
  rcases hi : slot.index? with _ | i <;> simp [Scope.rebind, hi, OnlyFrame]

theorem OnlyFrame.popFrame (h : s.pushFrame.OnlyFrame t) : t.popFrame = s := by
  rw [h]
  rfl

private theorem put_onlyFrame (s : Scope) (key : PropertyKey) (v : Option PropertyValue) :
    s.OnlyFrame (s.put .localStack key v) := rfl

private theorem write_onlyFrame (s : Scope) (key : PropertyKey) (v : Value) :
    s.OnlyFrame (s.write .localStack key v).2 := by
  unfold write
  split
  · exact .refl s
  · split <;> rfl
  · exact .refl s

/-- A condition whose bindings nobody touched is given back as it was, and so are the bindings. -/
private theorem leaveCondition_kept {c : Condition} (h : (s.enterCondition c).OnlyFrame t) :
    (t.leaveCondition s c).1 = c ∧ s.OnlyFrame (t.leaveCondition s c).2 := by
  have apart : Slot.conditionKeywords.index? ≠ Slot.condition.index? := by decide
  have bound : t.binding? .condition = some (.store ⟨.owned, c.properties⟩) := by
    rw [h]
    exact (binding?_rebind_ne apart _ _).trans (binding?_rebind_self (s := s) rfl _)
  -- The last binding of a slot counts, and then it is the one from before.
  have back : ((((s.enterCondition c).rebind .condition .unbound).rebind .condition
      ((s.binding? .condition).getD .unbound)).rebind .conditionKeywords
      ((s.binding? .conditionKeywords).getD .unbound)) = s := by
    have same : s.rebind .condition ((s.binding? .condition).getD .unbound) = s :=
      rebind_self rfl
    rw [rebind_rebind, enterCondition, rebind_comm apart, rebind_rebind, rebind_rebind, same]
    exact rebind_self rfl
  rw [leaveCondition, takeOwned, bound]
  refine ⟨rfl, ?_⟩
  have kept := ((h.rebind .condition .unbound).rebind .condition
    ((s.binding? .condition).getD .unbound)).rebind .conditionKeywords
    ((s.binding? .conditionKeywords).getD .unbound)
  rwa [back] at kept

end Scope

section Steps
variable {α : Type} {step : Step α} {round : Step (Option Value)}

/-- The step touches nothing but the innermost frame. -/
def StaysLocal (step : Step α) : Prop := ∀ s : Scope, s.OnlyFrame (step s).2

/-- What a step does to its own frame is gone with the frame. -/
private theorem framed_still (h : StaysLocal step) (s : Scope) : (framed step s).2 = s :=
  (h s.pushFrame).popFrame

private theorem runPrototypes_onlyFrame (hr : StaysLocal round) (list : List PrototypeId) :
    StaysLocal (runPrototypes round list) := by
  intro s
  induction list generalizing s with
  | nil => exact .refl s
  | cons p ps ih =>
    have ran := (s.put_onlyFrame PropertyId.loopPrototype (some (.prototype p))).trans (hr _)
    rw [runPrototypes]
    generalize round _ = r at ran ⊢
    obtain ⟨_ | v, t⟩ := r
    · exact ran.trans (ih t)
    · exact ran

private theorem overPrototypes_still (hr : StaysLocal round) (source : Slot) (s : Scope) :
    (overPrototypes source round s).2 = s := by
  unfold overPrototypes
  split
  · exact framed_still (runPrototypes_onlyFrame hr _) s
  · rfl

private theorem runCondition_kept (hr : StaysLocal round) (c : Condition) (s : Scope) :
    (runCondition round c s).1.2 = c ∧ s.OnlyFrame (runCondition round c s).2 :=
  Scope.leaveCondition_kept (hr (s.enterCondition c))

private theorem runConditions_kept (hr : StaysLocal round) (list : List Condition)
    (s : Scope) :
    (runConditions round list s).1.2 = list ∧ s.OnlyFrame (runConditions round list s).2 := by
  induction list generalizing s with
  | nil => exact ⟨rfl, .refl s⟩
  | cons c cs ih =>
    obtain ⟨same, ran⟩ := runCondition_kept hr c s
    rw [runConditions]
    generalize runCondition round c s = r at same ran ⊢
    obtain ⟨⟨_ | v, c'⟩, t⟩ := r
    · obtain ⟨rest, followed⟩ := ih t
      exact ⟨congr (congrArg List.cons same) rest, ran.trans followed⟩
    · exact ⟨congrArg (· :: cs) same, ran⟩

private theorem overConditions_still (hr : StaysLocal round) (source : Slot) (s : Scope) :
    (overConditions source round s).2 = s := by
  unfold overConditions
  split
  · rename_i list bound
    obtain ⟨same, ran⟩ := runConditions_kept hr list (s.rebind source .unbound).pushFrame
    -- The list comes back as it was, into the slot it was taken from.
    have put : (framed (runConditions round list) (s.rebind source .unbound)).2.rebind source
        (.conditions (framed (runConditions round list) (s.rebind source .unbound)).1.2) = s := by
      rw [framed_still fun t => (runConditions_kept hr list t).2]
      rw [show (framed (runConditions round list) (s.rebind source .unbound)).1.2 = list from same]
      rw [Scope.rebind_rebind, Scope.rebind_self bound]
    exact put
  · rfl

end Steps

open Recorded

def onlyFrame : Scope.Law := fun s _ t _ => s.OnlyFrame t

theorem onlyFrame_holds : onlyFrame.Holds fun g => g.isLocal = true where
  stay s _ := .refl s
  trans _ h h' := h.trans h'
  framed {s t _ _} h := by
    rw [onlyFrame, Scope.OnlyFrame.popFrame h]
    exact .refl s
  visit h := h
  assign {slot key _} allowed s v _ := by
    obtain rfl : slot = .localStack := LawfulBEq.eq_of_beq allowed
    exact s.write_onlyFrame key v
  assignWith {slot prop _ _} allowed s words v _ := by
    obtain rfl : slot = .localStack := LawfulBEq.eq_of_beq allowed
    exact s.write_onlyFrame (.ofList prop words) v
  swap := nofun
  bindEntity := nofun
  bindConditions := nofun
  randomSingle := nofun
  randomInt := nofun
  overPrototypes hr s := by
    rw [run_overPrototypes, onlyFrame, overPrototypes_still hr]
    exact .refl s
  overConditions hr s := by
    rw [run_overConditions, onlyFrame, overConditions_still hr]
    exact .refl s

def nothingMoves : Scope.Law := fun s _ t _ => t = s

theorem StaysLocal.of_nothingMoves {round : Recorded (Option Value)} {failed : Option Value → Prop}
    (hr : round.Obeys nothingMoves failed) : StaysLocal round.run := by
  intro s
  rw [show (round.run s).2 = s from hr s]
  exact .refl s

private theorem nothingMoves_holds : nothingMoves.Holds fun g => g.writes = false where
  stay _ _ := rfl
  trans _ h h' := Eq.trans h' h
  framed h := by
    rw [nothingMoves, h]
    rfl
  visit h := h
  assign := nofun
  assignWith := nofun
  swap := nofun
  bindEntity := nofun
  bindConditions := nofun
  randomSingle := nofun
  randomInt := nofun
  overPrototypes hr s := by
    rw [run_overPrototypes]
    exact overPrototypes_still (.of_nothingMoves hr) _ s
  overConditions hr s := by
    rw [run_overConditions]
    exact overConditions_still (.of_nothingMoves hr) _ s

namespace Formula

/-- A block of formulas that stay in its frame leaves no trace. -/
theorem eval_block {f : Formula} (hf : ∀ g ∈ f.parts, g.isLocal = true) (block : f.isBlock = true)
    (s : Scope) : (f.eval s).2 = s := by
  have hL := onlyFrame_holds
  rw [parts, List.forall_mem_cons] at hf
  rw [← run_record]
  cases f with
  | scope inside =>
    rw [inner] at hf
    rw [record, run_framed]
    exact framed_still (hL.body inside .undefined hf.2) s
  | loop pre condition post inside =>
    rw [inner, List.forall_mem_append, List.forall_mem_append, List.forall_mem_append] at hf
    obtain ⟨-, hpre, hcondition, hpost, hinside⟩ := hf
    have rounds := hL.loop (hL.visiting (hL.record condition hcondition))
      (hL.body inside .undefined hinside) (hL.option post hpost) maxRounds
    rw [record, run_framed]
    exact framed_still (hL.unlessError (hL.option pre hpre) fun _ => rounds) s
  | forConditions source pre post inside =>
    rw [inner, List.forall_mem_append, List.forall_mem_append] at hf
    obtain ⟨-, hpre, hpost, hinside⟩ := hf
    rw [record, run_overConditions]
    exact overConditions_still (hL.round (hL.guard pre true hpre)
      (hL.body inside .undefined hinside) (hL.guard post false hpost)) source s
  | forPrototypes source pre post inside =>
    rw [inner, List.forall_mem_append, List.forall_mem_append] at hf
    obtain ⟨-, hpre, hpost, hinside⟩ := hf
    rw [record, run_overPrototypes]
    exact overPrototypes_still (hL.round (hL.guard pre true hpre)
      (hL.body inside .undefined hinside) (hL.guard post false hpost)) source s
  | _ => cases block

/-- A formula that writes to the local frame only changes nothing but the innermost frame, and not
even that when it has a frame of its own; and a formula that does not write changes nothing. -/
theorem eval_scope (f : Formula) (s : Scope) :
    ((∀ g ∈ f.parts, g.isLocal = true) →
      (f.eval s).2 = { s with frame := (f.eval s).2.frame } ∧
        (f.isBlock = true → (f.eval s).2 = s)) ∧
    ((∀ g ∈ f.parts, g.writes = false) → (f.eval s).2 = s) := by
  rw [← run_record]
  refine ⟨fun hf => ⟨onlyFrame_holds.record f hf s, fun block => ?_⟩, fun hf =>
    nothingMoves_holds.record f hf s⟩
  rw [run_record]
  exact eval_block hf block s

/-- Rounds over two conditions that write to their frame, and a look at an unbound slot. -/
theorem eval_scope_rounds :
    let write : Formula := .assign .localStack (⟨2000⟩ : PropertyId) (.int 1)
    let rounds : Formula := .forConditions .var1 none none [write]
    let look : Formula := .load .var2 (⟨2000⟩ : PropertyId)
    let s := Scope.rebind {} .var1 (.conditions [{}, {}])
    (rounds.eval s).1 = .undefined ∧ (rounds.eval s).2 = s ∧ (look.eval s).2 = s := by
  intro write rounds look s
  have local_rounds : ∀ g ∈ rounds.parts, g.isLocal = true := by decide
  have reading : ∀ g ∈ look.parts, g.writes = false := by decide
  exact ⟨by decide +kernel, ((eval_scope rounds s).1 local_rounds).2 rfl,
    (eval_scope look s).2 reading⟩

end Formula

end Spoils
