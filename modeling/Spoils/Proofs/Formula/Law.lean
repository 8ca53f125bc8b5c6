import Spoils.Proofs.Formula.Record

/-! Laws of evaluation: what a law has to say of the single steps, to be obeyed by every formula. -/
namespace Spoils

namespace Formula

mutual

/-- The formulas inside a formula, at every depth. -/
def inner : Formula → List Formula
  | .curve _ a | .assign _ _ a | .bindEntity a _ | .negate a => a :: inner a
  | .loadWith _ _ params => innerOfList params
  | .assignWith _ _ params a => innerOfList params ++ a :: inner a
  | .arith _ a b | .div a b | .compare _ a b | .equals a b _ | .both a b | .either a b =>
    (a :: inner a) ++ (b :: inner b)
  | .ifElse condition yes no =>
    (condition :: inner condition) ++ ((yes :: inner yes) ++ innerOfOption no)
  | .scope body => innerOfList body
  | .loop pre condition post body =>
    innerOfOption pre ++ ((condition :: inner condition) ++ (innerOfOption post ++ innerOfList body))
  | .forConditions _ pre post body | .forPrototypes _ pre post body =>
    innerOfOption pre ++ (innerOfOption post ++ innerOfList body)
  | .damageReduction _ _ level => innerOfOption level
  | _ => []

def innerOfList : List Formula → List Formula
  | [] => []
  | f :: fs => (f :: inner f) ++ innerOfList fs

def innerOfOption : Option Formula → List Formula
  | none => []
  | some f => f :: inner f

end

/-- A formula and the formulas inside it. -/
def parts (f : Formula) : List Formula := f :: f.inner

end Formula

/-- Relates the scope before an evaluation, whether it failed, the scope after it, and what was
visited on the way. -/
abbrev Scope.Law := Scope → Prop → Scope → List Visit → Prop

/-- A step obeys a law from every scope. Which results are failures goes by the kind of step. -/
def Recorded.Obeys {α : Type} (L : Scope.Law) (failed : α → Prop) (x : Recorded α) : Prop :=
  ∀ s, L s (failed (x.run s).1) (x.run s).2 (x s).2

/-- Steps that obey the law obey it one after the other, and in a frame of their own. -/
structure Scope.Law.Composes (L : Scope.Law) : Prop where
  stay : ∀ s failed, L s failed s []
  /-- What follows a failure has to fail too. -/
  trans : ∀ {s t u a b l m}, (a → b) → L s a t l → L t b u m → L s b u (l ++ m)
  framed : ∀ {s t a l}, L s.pushFrame a t l → L s a t.popFrame l

/-- What a law has to say of the single steps, when only certain formulas may occur. -/
structure Scope.Law.Holds (allowed : Formula → Prop) (L : Scope.Law) : Prop extends
    L.Composes where
  visit : ∀ {f s l}, L s ((f.eval s).1 = .error) (f.eval s).2 l →
    L s ((f.eval s).1 = .error) (f.eval s).2 (⟨f, s⟩ :: l)
  assign : ∀ {slot key value}, allowed (.assign slot key value) →
    ∀ s v a, L s a (s.write slot key v).2 []
  assignWith : ∀ {slot prop params value}, allowed (.assignWith slot prop params value) →
    ∀ s words v a, L s a (s.write slot (.ofList prop words) v).2 []
  swap : ∀ {left right key}, allowed (.swap left right key) →
    ∀ s a, L s a (s.exchange left right key).2 []
  bindEntity : ∀ {entity slot}, allowed (.bindEntity entity slot) →
    ∀ s id a, L s a (s.bindEntity slot id) []
  bindConditions : ∀ {source slot}, allowed (.bindConditions source slot) →
    ∀ s a, L s a ((Formula.bindConditions source slot).eval s).2 []
  randomSingle : ∀ {lo hi}, allowed (.randomSingle lo hi) →
    ∀ s a, L s a ((Formula.randomSingle lo hi).eval s).2 []
  randomInt : ∀ {lo hi}, allowed (.randomInt lo hi) →
    ∀ s a, L s a ((Formula.randomInt lo hi).eval s).2 []
  overPrototypes : ∀ {round source}, Recorded.Obeys L (· = some .error) round →
    (Recorded.overPrototypes source round).Obeys L (· = .error)
  overConditions : ∀ {round source}, Recorded.Obeys L (· = some .error) round →
    (Recorded.overConditions source round).Obeys L (· = .error)

namespace Scope.Law.Composes
open Recorded
variable {α β : Type} {L : Scope.Law} {failed : α → Prop}
  {failed' : β → Prop} {x y : Recorded Value}

theorem plain {f : Step α} (hf : ∀ s a, L s a (f s).2 []) : (plain f).Obeys L failed :=
  fun s => hf s _

theorem still (hL : L.Composes) {f : Step α} (hf : ∀ s, (f s).2 = s) :
    (Recorded.plain f).Obeys L failed := by
  refine plain fun s a => ?_
  rw [hf]
  exact hL.stay s a

theorem pure (hL : L.Composes) (a : α) : (pure a : Recorded α).Obeys L failed :=
  hL.still (f := fun s => (a, s)) fun _ => rfl

theorem look (hL : L.Composes) (f : Scope → α) : (look f).Obeys L failed :=
  hL.still fun _ => rfl

theorem bind (hL : L.Composes) {x : Recorded α} {f : α → Recorded β} (hx : x.Obeys L failed)
    (passes : ∀ a, failed a → ∀ s, failed' ((f a).run s).1)
    (hf : ∀ a, (f a).Obeys L failed') : (x >>= f).Obeys L failed' :=
  fun s => hL.trans (fun bad => passes _ bad _) (hx s) (hf _ _)

/-- What follows the one failing result has to fail too. -/
theorem next (hL : L.Composes) {x : Recorded α} {bad : α} {f : α → Recorded β}
    (hx : x.Obeys L (· = bad)) (fails : ∀ s, failed' ((f bad).run s).1)
    (hf : ∀ a, (f a).Obeys L failed') : (x >>= f).Obeys L failed' := by
  refine hL.bind hx ?_ hf
  rintro a rfl s
  exact fails s

theorem after (hL : L.Composes) {f : Step α} {next : α → Recorded β}
    (hf : ∀ s a, L s a (f s).2 []) (hn : ∀ a, (next a).Obeys L failed') :
    (Recorded.plain f >>= next).Obeys L failed' := by
  have sure : (Recorded.plain f).Obeys L fun _ => False := plain hf
  exact hL.bind sure (fun _ h => h.elim) hn

theorem afterLook (hL : L.Composes) (f : Scope → α) {next : α → Recorded β}
    (hn : ∀ a, (next a).Obeys L failed') : (Recorded.look f >>= next).Obeys L failed' :=
  hL.after (fun s a => hL.stay s a) hn

theorem inFrame (hL : L.Composes) {x : Recorded α} (hx : x.Obeys L failed) :
    (Recorded.framed x).Obeys L failed := by
  intro s
  have whole : L s (failed (x.run s.pushFrame).1) (x.run s.pushFrame).2.popFrame (x s.pushFrame).2 :=
    hL.framed (hx s.pushFrame)
  have listed : (Recorded.framed x s).2 = (x s.pushFrame).2 :=
    (List.nil_append _).trans (List.append_nil _)
  rw [listed, run_framed]
  exact whole

theorem numbers (hL : L.Composes) (hx : x.Obeys L (· = .error))
    (hy : y.Obeys L (· = .error)) (f : Value → Value → Value) :
    (numbers x y f).Obeys L (· = .error) := by
  refine hL.next hx (fun _ => rfl) fun a => ?_
  split
  · exact hL.pure _
  · refine hL.next hy (fun _ => rfl) fun b => ?_
    split <;> exact hL.pure _

theorem truths (hL : L.Composes) (hx : x.Obeys L (· = .error))
    (hy : y.Obeys L (· = .error)) (decisive : Bool) :
    (truths x y decisive).Obeys L (· = .error) := by
  refine hL.next hx (fun _ => rfl) fun a => ?_
  split
  · split
    · exact hL.pure _
    · refine hL.next hy (fun _ => rfl) fun b => ?_
      split <;> exact hL.pure _
  · exact hL.pure _

theorem unlessError (hL : L.Composes) (hx : x.Obeys L (· = .error))
    {next : Value → Recorded Value} (hn : ∀ v, (next v).Obeys L (· = .error)) :
    (unlessError x next).Obeys L (· = .error) := by
  refine hL.next hx (fun _ => rfl) fun v => ?_
  split
  · exact hL.pure _
  · exact hn v

theorem given (hL : L.Composes) {yes no : Recorded Value} (hx : x.Obeys L (· = .error))
    (hyes : yes.Obeys L (· = .error)) (hno : no.Obeys L (· = .error)) :
    (given x yes no).Obeys L (· = .error) := by
  refine hL.next hx (fun _ => rfl) fun v => ?_
  split
  · exact hyes
  · exact hno
  · exact hL.pure _

theorem loop (hL : L.Composes) {condition body post : Recorded Value}
    (hc : condition.Obeys L (· = .error)) (hb : body.Obeys L (· = .error))
    (hp : post.Obeys L (· = .error)) (fuel : Nat) :
    (loop condition body post fuel).Obeys L (· = .error) := by
  induction fuel with
  | zero => exact hL.given hc (hL.pure _) (hL.pure _)
  | succ fuel ih =>
    have again := hL.unlessError hb fun _ => hL.unlessError hp fun _ => ih
    exact hL.given hc again (hL.pure _)

theorem finish (hL : L.Composes) {post : Recorded (Option Bool)}
    (hpost : post.Obeys L (· = none)) : (finish post).Obeys L (· = some .error) := by
  refine hL.next hpost (fun _ => rfl) fun v => ?_
  split <;> exact hL.pure _

theorem round (hL : L.Composes) {pre post : Recorded (Option Bool)} {body : Recorded Value}
    (hpre : pre.Obeys L (· = none)) (hb : body.Obeys L (· = .error))
    (hpost : post.Obeys L (· = none)) : (round pre body post).Obeys L (· = some .error) := by
  refine hL.next hpre (fun _ => rfl) fun v => ?_
  split
  · exact hL.pure _
  · exact hL.finish hpost
  · refine hL.next hb (fun _ => rfl) fun v => ?_
    split
    · exact hL.pure _
    · exact hL.finish hpost

/-- Rounds over prototypes obey the law when putting the loop variable does. -/
theorem prototypes (hL : L.Composes)
    (put : ∀ s p a, L s a (s.put .localStack PropertyId.loopPrototype (some (.prototype p))) [])
    {round : Recorded (Option Value)} (hr : round.Obeys L (· = some .error))
    (list : List PrototypeId) : (prototypes round list).Obeys L (· = .error) := by
  induction list with
  | nil => exact hL.pure _
  | cons p ps ih =>
    refine hL.after (fun s => put s p) fun _ => hL.next hr (fun _ => rfl) fun v => ?_
    split
    · exact hL.pure _
    · exact ih

theorem eachPrototype (hL : L.Composes)
    (put : ∀ s p a, L s a (s.put .localStack PropertyId.loopPrototype (some (.prototype p))) [])
    {round : Recorded (Option Value)} (hr : round.Obeys L (· = some .error)) (source : Slot) :
    (Recorded.overPrototypes source round).Obeys L (· = .error) := by
  refine hL.afterLook _ fun bound => ?_
  split
  · exact hL.inFrame (hL.prototypes put hr _)
  · exact hL.pure _

section Conditions
variable (hL : L.Composes) (enter : ∀ s c a, L s a (s.enterCondition c) [])
  (leave : ∀ s before c a, L s a (s.leaveCondition before c).2 [])
  {round : Recorded (Option Value)} (hr : round.Obeys L (· = some .error))
include hL enter leave hr

private theorem oneCondition (c : Condition) : (condition round c).Obeys L (·.1 = some .error) := by
  refine hL.afterLook _ fun before => hL.after (fun s => enter s c) fun _ => ?_
  refine hL.next hr (fun _ => rfl) fun ended => ?_
  exact hL.after (fun s => leave s before c) fun _ => hL.pure _

/-- Rounds over conditions obey the law when a condition may be bound and taken back. -/
theorem conditions (list : List Condition) : (conditions round list).Obeys L (·.1 = .error) := by
  induction list with
  | nil => exact hL.pure _
  | cons c cs ih =>
    refine hL.bind (hL.oneCondition enter leave hr c) ?_ fun r => ?_
    · rintro ⟨ended, c⟩ rfl s
      rfl
    · split
      · exact hL.pure _
      · exact hL.bind ih (fun _ bad _ => bad) fun _ => hL.pure _

theorem eachCondition (rebind : ∀ s slot b a, L s a (s.rebind slot b) []) (source : Slot) :
    (Recorded.overConditions source round).Obeys L (· = .error) := by
  refine hL.afterLook _ fun bound => ?_
  split
  · refine hL.after (fun s => rebind s source .unbound) fun _ => ?_
    refine hL.bind (hL.inFrame (hL.conditions enter leave hr _)) ?_ fun r => ?_
    · rintro ⟨v, list⟩ rfl s
      rfl
    · exact hL.after (fun s => rebind s source _) fun _ => hL.pure _
  · exact hL.pure _

end Conditions

end Scope.Law.Composes

namespace Scope.Law.Holds
open Recorded Composes
variable {allowed : Formula → Prop} {L : Scope.Law}

theorem visiting (hL : L.Holds allowed) {f : Formula} (hf : f.record.Obeys L (· = .error)) :
    (visiting f f.record).Obeys L (· = .error) := by
  intro s
  have inside := hf s
  rw [Formula.run_record] at inside
  rw [run_visiting, Formula.run_record]
  exact hL.visit inside

mutual

/-- Every formula obeys a law that holds of the single steps and allows the formulas inside. -/
theorem record (hL : L.Holds allowed) : ∀ f : Formula, (∀ g ∈ f.parts, allowed g) →
    f.record.Obeys L (· = .error)
  | .curve id index, hf => by
    rw [Formula.parts, List.forall_mem_cons, Formula.inner] at hf
    rw [Formula.record]
    exact hL.next (hL.visiting (record hL index hf.2)) (fun _ => rfl) fun _ => hL.look _
  | .loadWith slot prop params, hf => by
    rw [Formula.parts, List.forall_mem_cons, Formula.inner] at hf
    rw [Formula.record]
    refine hL.next (parameters hL 4 params hf.2) (fun _ => rfl) fun words => ?_
    split
    · exact hL.look _
    · exact hL.pure _
  | .assign slot key value, hf => by
    rw [Formula.parts, List.forall_mem_cons, Formula.inner] at hf
    rw [Formula.record]
    exact hL.next (hL.visiting (record hL value hf.2)) (fun _ => rfl) fun v =>
      plain fun s => hL.assign hf.1 s v
  | .assignWith slot prop params value, hf => by
    rw [Formula.parts, List.forall_mem_cons, Formula.inner, List.forall_mem_append] at hf
    rw [Formula.record]
    refine hL.next (parameters hL 4 params hf.2.1) (fun _ => rfl) fun words => ?_
    split
    · exact hL.pure _
    · exact hL.next (hL.visiting (record hL value hf.2.2)) (fun _ => rfl) fun v =>
        plain fun s => hL.assignWith hf.1 s _ v
  | .bindEntity entity slot, hf => by
    rw [Formula.parts, List.forall_mem_cons, Formula.inner] at hf
    rw [Formula.record]
    refine hL.next (hL.visiting (record hL entity hf.2)) (fun _ => rfl) fun v => ?_
    split
    · exact plain fun s => hL.bindEntity hf.1 s _
    · exact hL.pure _
  | .arith _ a b, hf | .div a b, hf | .compare _ a b, hf => by
    rw [Formula.parts, List.forall_mem_cons, Formula.inner, List.forall_mem_append] at hf
    rw [Formula.record]
    exact hL.numbers (hL.visiting (record hL a hf.2.1)) (hL.visiting (record hL b hf.2.2)) _
  | .equals a b epsilon, hf => by
    rw [Formula.parts, List.forall_mem_cons, Formula.inner, List.forall_mem_append] at hf
    rw [Formula.record]
    exact hL.unlessError (hL.visiting (record hL a hf.2.1)) fun _ =>
      hL.unlessError (hL.visiting (record hL b hf.2.2)) fun _ => hL.pure _
  | .both a b, hf | .either a b, hf => by
    rw [Formula.parts, List.forall_mem_cons, Formula.inner, List.forall_mem_append] at hf
    rw [Formula.record]
    exact hL.truths (hL.visiting (record hL a hf.2.1)) (hL.visiting (record hL b hf.2.2)) _
  | .negate a, hf => by
    rw [Formula.parts, List.forall_mem_cons, Formula.inner] at hf
    rw [Formula.record]
    refine hL.next (hL.visiting (record hL a hf.2)) (fun _ => rfl) fun v => ?_
    split <;> exact hL.pure _
  | .ifElse condition yes no, hf => by
    rw [Formula.parts, List.forall_mem_cons, Formula.inner, List.forall_mem_append,
      List.forall_mem_append] at hf
    rw [Formula.record]
    exact hL.given (hL.visiting (record hL condition hf.2.1))
      (hL.visiting (record hL yes hf.2.2.1)) (option hL no hf.2.2.2)
  | .scope inside, hf => by
    rw [Formula.parts, List.forall_mem_cons, Formula.inner] at hf
    rw [Formula.record]
    exact hL.inFrame (body hL inside .undefined hf.2)
  | .loop pre condition post inside, hf => by
    rw [Formula.parts, List.forall_mem_cons, Formula.inner, List.forall_mem_append,
      List.forall_mem_append, List.forall_mem_append] at hf
    obtain ⟨-, hpre, hcondition, hpost, hinside⟩ := hf
    rw [Formula.record]
    refine hL.inFrame (hL.unlessError (option hL pre hpre) fun _ => ?_)
    exact hL.loop (hL.visiting (record hL condition hcondition))
      (body hL inside .undefined hinside) (option hL post hpost) _
  | .forConditions source pre post inside, hf => by
    rw [Formula.parts, List.forall_mem_cons, Formula.inner, List.forall_mem_append,
      List.forall_mem_append] at hf
    obtain ⟨-, hpre, hpost, hinside⟩ := hf
    rw [Formula.record]
    exact hL.overConditions (hL.round (guard hL pre true hpre)
      (body hL inside .undefined hinside) (guard hL post false hpost))
  | .forPrototypes source pre post inside, hf => by
    rw [Formula.parts, List.forall_mem_cons, Formula.inner, List.forall_mem_append,
      List.forall_mem_append] at hf
    obtain ⟨-, hpre, hpost, hinside⟩ := hf
    rw [Formula.record]
    exact hL.overPrototypes (hL.round (guard hL pre true hpre)
      (body hL inside .undefined hinside) (guard hL post false hpost))
  | .damageReduction slot kind (some level), hf => by
    rw [Formula.parts, List.forall_mem_cons, Formula.inner, Formula.innerOfOption] at hf
    rw [Formula.record]
    refine hL.next (hL.visiting (record hL level hf.2)) (fun _ => rfl) fun v => ?_
    split
    · exact hL.look _
    · exact hL.pure _
  | .swap left right key, hf => plain (hL.swap (hf _ (.head _)))
  | .bindConditions source slot, hf => plain (hL.bindConditions (hf _ (.head _)))
  | .randomSingle lo hi, hf => plain (hL.randomSingle (hf _ (.head _)))
  | .randomInt lo hi, hf => plain (hL.randomInt (hf _ (.head _)))
  | .contextInt _, _ | .contextProto _, _ | .loadBound .., _ | .has .., _ | .distance .., _
  | .inInventory .., _ | .missionActive .., _ | .missionComplete .., _ => hL.still fun s => by
    rw [Formula.eval]
    split <;> rfl
  | .damageReduction slot kind none, _ => hL.still fun _ => rfl
  | .bool _, _ | .int _, _ | .single _, _ | .asset _, _ | .proto _, _ | .load .., _
  | .isNull _, _ | .query .., _ | .tierInRange .., _ | .dynamicLevel, _ | .failure, _ =>
    hL.still fun _ => rfl

theorem body (hL : L.Holds allowed) : ∀ (fs : List Formula) (last : Value),
    (∀ g ∈ Formula.innerOfList fs, allowed g) → (Formula.recordBody fs last).Obeys L (· = .error)
  | [], last, _ => hL.pure last
  | f :: fs, last, hf => by
    rw [Formula.innerOfList, List.forall_mem_append] at hf
    rw [Formula.recordBody]
    exact hL.unlessError (hL.visiting (record hL f hf.1)) fun v => body hL fs v hf.2

theorem parameters (hL : L.Holds allowed) : ∀ (n : Nat) (fs : List Formula),
    (∀ g ∈ Formula.innerOfList fs, allowed g) → (Formula.recordParams n fs).Obeys L (· = none)
  | 0, fs, _ => by
    rw [Formula.recordParams]
    exact hL.pure _
  | n + 1, [], _ => hL.pure _
  | n + 1, f :: fs, hf => by
    rw [Formula.innerOfList, List.forall_mem_append] at hf
    rw [Formula.recordParams]
    refine hL.next (hL.visiting (record hL f hf.1)) (fun _ => rfl) fun v => ?_
    split
    · exact hL.pure _
    · exact hL.next (parameters hL n fs hf.2) (fun _ => rfl) fun _ => hL.pure _

theorem option (hL : L.Holds allowed) : ∀ f : Option Formula,
    (∀ g ∈ Formula.innerOfOption f, allowed g) → (Formula.recordOption f).Obeys L (· = .error)
  | none, _ => hL.pure _
  | some f, hf => hL.visiting (record hL f hf)

theorem guard (hL : L.Holds allowed) : ∀ (f : Option Formula) (default : Bool),
    (∀ g ∈ Formula.innerOfOption f, allowed g) →
      (Formula.recordGuard f default).Obeys L (· = none)
  | none, default, _ => hL.pure _
  | some f, default, hf => by
    rw [Formula.recordGuard]
    exact hL.next (hL.visiting (record hL f hf)) (fun _ => rfl) fun _ => hL.pure _

end

end Scope.Law.Holds

end Spoils
