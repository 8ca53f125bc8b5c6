import Spoils.Proofs.Formula.Law

/-! Frames: evaluation ends with as many frames as it began with, and nothing beyond the frame of
the caller is ever touched. -/
namespace Spoils

namespace Scope
variable (s : Scope)

@[simp] theorem outer_rebind (slot : Slot) (b : SlotBinding) : (s.rebind slot b).outer = s.outer := by
  unfold rebind
  split <;> rfl

@[simp] theorem outer_bind (slot : Slot) (b : SlotBinding) : (s.bind slot b).outer = s.outer := by
  unfold bind
  split <;> exact outer_rebind ..

@[simp] theorem outer_draw (f : Dice → Value × Dice) : (s.draw f).2.outer = s.outer := by
  unfold draw
  split <;> rfl

@[simp] theorem outer_enterCondition (c : Condition) : (s.enterCondition c).outer = s.outer := by
  simp only [enterCondition, outer_rebind]

@[simp] theorem outer_leaveCondition (before : Scope) (c : Condition) :
    (s.leaveCondition before c).2.outer = s.outer := by
  have taken : (s.takeOwned .condition).2.outer = s.outer := by
    unfold takeOwned
    split
    · exact outer_rebind ..
    · rfl
  simp only [leaveCondition, outer_rebind, taken]

/-- There are as many frames, and those beyond the caller's are the same. -/
structure SameBeyond (s t : Scope) : Prop where
  depth_eq : t.depth = s.depth
  beyond : t.outer.tail = s.outer.tail

/-- There are no fewer frames, and at the bottom are those beyond the caller's. -/
structure Covers (s t : Scope) : Prop where
  depth_le : s.depth ≤ t.depth
  beyond : s.outer.tail <:+ t.outer

namespace SameBeyond
variable {s : Scope} {t u : Scope}

theorem of_outer_eq (h : t.outer = s.outer) : s.SameBeyond t := by
  refine ⟨?_, congrArg List.tail h⟩
  rw [depth, depth, h]

theorem trans (h : s.SameBeyond t) (h' : t.SameBeyond u) : s.SameBeyond u :=
  ⟨h'.depth_eq.trans h.depth_eq, h'.beyond.trans h.beyond⟩

theorem covers (h : s.SameBeyond t) (h' : t.Covers u) : s.Covers u :=
  ⟨h.depth_eq ▸ h'.depth_le, h.beyond ▸ h'.beyond⟩

theorem setStore (s : Scope) (slot : Slot) (p : PropertyStore) :
    s.SameBeyond (s.setStore slot p) := by
  unfold Scope.setStore
  split
  · exact of_outer_eq rfl
  · refine ⟨congrArg (· + 1) List.length_set, ?_⟩
    change (s.outer.set 0 p).tail = s.outer.tail
    cases s.outer <;> rfl
  · exact of_outer_eq rfl
  · split
    · exact of_outer_eq (outer_rebind ..)
    · exact of_outer_eq rfl

theorem put (s : Scope) (slot : Slot) (k : PropertyKey) (v : Option PropertyValue) :
    s.SameBeyond (s.put slot k v) := by
  unfold Scope.put
  split
  · exact setStore ..
  · exact of_outer_eq rfl

theorem write (s : Scope) (slot : Slot) (k : PropertyKey) (v : Value) :
    s.SameBeyond (s.write slot k v).2 := by
  unfold Scope.write
  split
  · exact of_outer_eq rfl
  · split
    · exact setStore ..
    · exact of_outer_eq rfl
  · exact of_outer_eq rfl

theorem exchange (s : Scope) (left right : Slot) (k : PropertyKey) :
    s.SameBeyond (s.exchange left right k).2 := by
  unfold Scope.exchange
  split
  · split
    · exact (put ..).trans (put ..)
    · exact of_outer_eq rfl
  · exact of_outer_eq rfl

theorem popFrame (h : s.pushFrame.SameBeyond t) : s.SameBeyond t.popFrame := by
  have beyond : t.outer.tail = s.outer := h.beyond
  unfold Scope.popFrame
  split
  · rename_i f fs around
    rw [around] at beyond
    exact of_outer_eq beyond
  · rename_i around
    have depth : t.outer.length + 1 = s.outer.length + 2 := h.depth_eq
    rw [around, List.length_nil] at depth
    omega

end SameBeyond

theorem Covers.refl (s : Scope) : s.Covers s := ⟨Nat.le_refl _, List.tail_suffix _⟩

private theorem Covers.of_pushFrame {t : Scope} (h : s.pushFrame.Covers t) : s.Covers t :=
  ⟨Nat.le_trans (Nat.le_succ _) h.depth_le, (List.tail_suffix _).trans h.beyond⟩

end Scope

/-- In the end the frames are as before but for the innermost two, and all along those beyond
are there. -/
def keepsFrames : Scope.Law := fun s _ t visits =>
  s.SameBeyond t ∧ ∀ v ∈ visits, s.Covers v.scope

namespace keepsFrames
open Scope
variable {s t : Scope} {failed : Prop}

theorem unvisited (h : s.SameBeyond t) : keepsFrames s failed t [] :=
  ⟨h, fun _ hv => absurd hv List.not_mem_nil⟩

theorem of_outer_eq (h : t.outer = s.outer) : keepsFrames s failed t [] :=
  unvisited (.of_outer_eq h)

theorem composes : keepsFrames.Composes where
  stay _ _ := of_outer_eq rfl
  trans := by
    rintro s t u a b l m - ⟨same, visited⟩ ⟨same', visited'⟩
    refine ⟨same.trans same', fun v hv => ?_⟩
    rcases List.mem_append.mp hv with before | behind
    · exact visited v before
    · exact same.covers (visited' v behind)
  framed := by
    rintro s t a l ⟨same, visited⟩
    exact ⟨same.popFrame, fun v hv => (visited v hv).of_pushFrame⟩

theorem holds : keepsFrames.Holds fun _ => True where
  toComposes := composes
  visit := by
    rintro f s l ⟨same, visited⟩
    exact ⟨same, List.forall_mem_cons.mpr ⟨.refl s, visited⟩⟩
  assign _ _ _ _ := unvisited (.write ..)
  assignWith _ _ _ _ _ := unvisited (.write ..)
  swap _ _ _ := unvisited (.exchange ..)
  bindEntity _ s _ _ := of_outer_eq (s.outer_bind ..)
  bindConditions _ s _ := by
    rw [Formula.eval]
    split
    · exact of_outer_eq (s.outer_bind ..)
    · exact of_outer_eq rfl
  randomSingle _ s _ := of_outer_eq (s.outer_draw _)
  randomInt _ s _ := of_outer_eq (s.outer_draw _)
  overPrototypes hr := composes.eachPrototype (fun _ _ _ => unvisited (.put ..)) hr _
  overConditions hr :=
    composes.eachCondition (fun s _ _ => of_outer_eq (s.outer_enterCondition _))
      (fun s _ _ _ => of_outer_eq (s.outer_leaveCondition ..)) hr
      (fun s _ _ _ => of_outer_eq (s.outer_rebind ..)) _

end keepsFrames

namespace Formula

/-- Evaluation ends with as many frames as it began with, and those beyond the caller's are as they
were. They are there all along: none is missing or changed when a formula is evaluated on the way. -/
theorem eval_frames (f : Formula) (s : Scope) :
    (f.eval s).2.depth = s.depth ∧ (f.eval s).2.outer.tail = s.outer.tail ∧
      ∀ v ∈ f.visits s, s.depth ≤ v.scope.depth ∧ s.outer.tail <:+ v.scope.outer := by
  have obeyed := keepsFrames.holds.record f fun _ _ => trivial
  obtain ⟨same, visited⟩ := keepsFrames.holds.visiting obeyed s
  rw [Recorded.run_visiting, run_record] at same
  exact ⟨same.depth_eq, same.beyond, fun v hv => ⟨(visited v hv).depth_le, (visited v hv).beyond⟩⟩

/-- The frame of the caller itself is within reach. -/
example :
    let k : PropertyKey := (⟨2000⟩ : PropertyId)
    let block : Formula := .scope [.assign .callerStack k (.int 1)]
    (block.eval { outer := [.empty] }).2.frame = .ofList [(k, .integer 1)] := by decide +kernel

end Formula

end Spoils
