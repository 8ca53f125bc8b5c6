import Spoils.Proofs.Formula.Law

/-! No error is swallowed: when a formula has a value, so has every formula that was evaluated on
the way. -/
namespace Spoils
open Recorded

/-- An error on the way is a failure. -/
def errorsShow : Scope.Law := fun _ failed _ visits =>
  (∃ v ∈ visits, v.value = .error) → failed

namespace errorsShow

theorem unvisited {s t : Scope} {failed : Prop} : errorsShow s failed t [] := by
  rintro ⟨v, hv, -⟩
  cases hv

theorem composes : errorsShow.Composes where
  stay _ _ := unvisited
  trans := by
    rintro s t u a b l m passes first rest ⟨v, hv, bad⟩
    rcases List.mem_append.mp hv with before | after
    · exact passes (first ⟨v, before, bad⟩)
    · exact rest ⟨v, after, bad⟩
  framed := id

theorem holds : errorsShow.Holds fun _ => True where
  toComposes := composes
  visit := by
    rintro f s l inside ⟨v, hv, bad⟩
    rcases List.mem_cons.mp hv with rfl | below
    · exact bad
    · exact inside ⟨v, below, bad⟩
  assign _ _ _ _ := unvisited
  assignWith _ _ _ _ _ := unvisited
  swap _ _ _ := unvisited
  bindEntity _ _ _ _ := unvisited
  bindConditions _ _ _ := unvisited
  randomSingle _ _ _ := unvisited
  randomInt _ _ _ := unvisited
  overPrototypes hr := composes.eachPrototype (fun _ _ _ => unvisited) hr _
  overConditions hr :=
    composes.eachCondition (fun _ _ _ => unvisited) (fun _ _ _ _ => unvisited) hr
      (fun _ _ _ _ => unvisited) _

end errorsShow

namespace Formula

/-- The record is that of the evaluation itself, and when the formula has a value other than an
error, then so has every formula that was evaluated on the way. -/
theorem visits_valued (f : Formula) (s : Scope) :
    f.record.run s = f.eval s ∧
      ((f.eval s).1 ≠ .error → ∀ v ∈ f.visits s, v.value ≠ .error) := by
  refine ⟨congrFun (run_record f) s, fun valued v hv bad => valued ?_⟩
  have obeyed := errorsShow.holds.record f fun _ _ => trivial
  have shown := errorsShow.holds.visiting obeyed s ⟨v, hv, bad⟩
  rwa [run_visiting, run_record] at shown

/-- Counts to two in a property, in three looks at the condition. -/
theorem visits_valued_counting :
    let count : Formula := .load .localStack (⟨2000⟩ : PropertyId)
    let loop : Formula :=
      .loop (some (.assign .localStack (⟨2000⟩ : PropertyId) (.int 0)))
        (.compare .less count (.int 2))
        (some (.assign .localStack (⟨2000⟩ : PropertyId) (.arith .add count (.int 1)))) []
    (loop.eval {}).1 = .undefined ∧ (loop.visits {}).length = 20 ∧
      ∀ v ∈ loop.visits {}, v.value ≠ .error := by
  intro count loop
  have ended : (loop.eval {}).1 = .undefined := by decide +kernel
  have listed : (loop.visits {}).length = 20 := by decide +kernel
  refine ⟨ended, listed, (visits_valued loop {}).2 ?_⟩
  rw [ended]
  decide

end Formula

end Spoils
