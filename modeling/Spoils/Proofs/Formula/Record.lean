import Spoils.Formula.Eval

/-! Evaluation on record: the evaluator once more, which also lists every formula that it evaluates
on the way. Without the record it is `Formula.eval`. -/
namespace Spoils

/-- An evaluation on the way: of a formula, in the scope as it was then. -/
structure Visit where
  formula : Formula
  scope : Scope

def Visit.value (v : Visit) : Value := (v.formula.eval v.scope).1

/-- A step that lists what was visited. -/
def Recorded (α : Type) : Type := Scope → (α × Scope) × List Visit

namespace Recorded
variable {α β : Type}

instance : Monad Recorded where
  pure a := fun s => ((a, s), [])
  bind x f := fun s =>
    let first := x s
    let rest := f first.1.1 first.1.2
    (rest.1, first.2 ++ rest.2)

def plain (f : Step α) : Recorded α := fun s => (f s, [])

/-- The step without its record. -/
def run (x : Recorded α) : Step α := fun s => (x s).1

def look (f : Scope → α) : Recorded α := plain fun s => (f s, s)

def change (f : Scope → Scope) : Recorded Unit := plain fun s => ((), f s)

/-- Puts the evaluation of a formula on record. -/
def visiting (f : Formula) (x : Recorded Value) : Recorded Value := fun s =>
  ((x s).1, ⟨f, s⟩ :: (x s).2)

def framed (x : Recorded α) : Recorded α := do
  change Scope.pushFrame
  let a ← x
  change Scope.popFrame
  pure a

/-- Combines two numbers; the second is not asked for when the first is none. -/
def numbers (x y : Recorded Value) (f : Value → Value → Value) : Recorded Value := do
  let a ← x
  if !a.isNumeric then pure .error
  else
    let b ← y
    if !b.isNumeric then pure .error else pure (f a b)

/-- Combines two truth values; the second is not asked for when the first is decisive. -/
def truths (x y : Recorded Value) (decisive : Bool) : Recorded Value := do
  match ← x with
  | .bool v =>
    if v == decisive then pure (.bool v)
    else
      match ← y with
      | .bool v => pure (.bool v)
      | _ => pure .error
  | _ => pure .error

/-- Goes on with what a value asks for, unless it is an error. -/
def unlessError (x : Recorded Value) (next : Value → Recorded Value) : Recorded Value := do
  let v ← x
  if v.isError then pure .error else next v

def given (condition yes no : Recorded Value) : Recorded Value := do
  match (← condition).toBool? with
  | some true => yes
  | some false => no
  | none => pure .error

def loop (condition body post : Recorded Value) : Nat → Recorded Value
  | 0 => given condition (pure .error) (pure .undefined)
  | fuel + 1 =>
    given condition (unlessError body fun _ => unlessError post fun _ =>
      loop condition body post fuel) (pure .undefined)

def finish (post : Recorded (Option Bool)) : Recorded (Option Value) := do
  match ← post with
  | some true => pure (some .undefined)
  | some false => pure none
  | none => pure (some .error)

def round (pre : Recorded (Option Bool)) (body : Recorded Value) (post : Recorded (Option Bool)) :
    Recorded (Option Value) := do
  match ← pre with
  | none => pure (some .error)
  | some false => finish post
  | some true => do
    let v ← body
    if v.isError then pure (some .error) else finish post

def prototypes (round : Recorded (Option Value)) : List PrototypeId → Recorded Value
  | [] => pure .undefined
  | p :: ps => do
    change fun s => s.put .localStack PropertyId.loopPrototype (some (.prototype p))
    match ← round with
    | some v => pure v
    | none => prototypes round ps

def overPrototypes (source : Slot) (round : Recorded (Option Value)) : Recorded Value := do
  match ← look fun s => s.binding? source with
  | some (.prototypes list) => Recorded.framed (prototypes round list)
  | _ => pure .error

def condition (round : Recorded (Option Value)) (c : Condition) :
    Recorded (Option Value × Condition) := do
  let before ← look id
  change fun s => s.enterCondition c
  let ended ← round
  let c ← plain fun s => s.leaveCondition before c
  pure (ended, c)

def conditions (round : Recorded (Option Value)) :
    List Condition → Recorded (Value × List Condition)
  | [] => pure (.undefined, [])
  | c :: cs => do
    match ← condition round c with
    | (some v, c) => pure (v, c :: cs)
    | (none, c) => do
      let (v, cs) ← conditions round cs
      pure (v, c :: cs)

def overConditions (source : Slot) (round : Recorded (Option Value)) : Recorded Value := do
  match ← look fun s => s.binding? source with
  | some (.conditions list) => do
    change fun s => s.rebind source .unbound
    let (v, list) ← Recorded.framed (conditions round list)
    change fun s => s.rebind source (.conditions list)
    pure v
  | _ => pure .error

end Recorded

open Recorded

namespace Formula

mutual

/-- Evaluates a formula and lists what is evaluated on the way. -/
def record : Formula → Recorded Value
  | .curve id index => do
    let position ← visiting index index.record
    look fun s => s.curveAt id position
  | .loadWith slot prop params => do
    match ← recordParams 4 params with
    | some words => look fun s => s.read slot (.ofList prop words)
    | none => pure .error
  | .assign slot key value => do
    let v ← visiting value value.record
    plain fun s => s.write slot key v
  | .assignWith slot prop params value => do
    match ← recordParams 4 params with
    | none => pure .error
    | some words => do
      let v ← visiting value value.record
      plain fun s => s.write slot (.ofList prop words) v
  | .bindEntity entity slot => do
    let v ← visiting entity entity.record
    match v.toEntity? with
    | some id => plain fun s => (.entity id, s.bindEntity slot id)
    | none => pure .error
  | .arith op a b => numbers (visiting a a.record) (visiting b b.record) op.onValues
  | .div a b => numbers (visiting a a.record) (visiting b b.record) Value.divide
  | .compare op a b => numbers (visiting a a.record) (visiting b b.record) op.onValues
  | .equals a b epsilon =>
    unlessError (visiting a a.record) fun x =>
      unlessError (visiting b b.record) fun y => pure (x.equals epsilon y)
  | .both a b => truths (visiting a a.record) (visiting b b.record) false
  | .either a b => truths (visiting a a.record) (visiting b b.record) true
  | .negate a => do
    match ← visiting a a.record with
    | .bool v => pure (.bool !v)
    | _ => pure .error
  | .ifElse condition yes no =>
    given (visiting condition condition.record) (visiting yes yes.record) (recordOption no)
  | .scope body => Recorded.framed (recordBody body .undefined)
  | .loop pre condition post body =>
    Recorded.framed (unlessError (recordOption pre) fun _ =>
      Recorded.loop (visiting condition condition.record) (recordBody body .undefined)
        (recordOption post) maxRounds)
  | .forConditions source pre post body =>
    Recorded.overConditions source
      (Recorded.round (recordGuard pre true) (recordBody body .undefined) (recordGuard post false))
  | .forPrototypes source pre post body =>
    Recorded.overPrototypes source
      (Recorded.round (recordGuard pre true) (recordBody body .undefined) (recordGuard post false))
  | .damageReduction slot kind (some level) => do
    let v ← visiting level level.record
    match v.toInt? with
    | some level =>
      look fun s => s.ask slot fun host id => .single (host.damageReduction id kind level)
    | none => pure .error
  -- The other formulas have no parts.
  | f => plain f.eval

def recordBody : List Formula → Value → Recorded Value
  | [], last => pure last
  | f :: fs, _ => unlessError (visiting f f.record) fun v => recordBody fs v

def recordParams : Nat → List Formula → Recorded (Option (List Nat))
  | 0, _ => pure (some [])
  | _ + 1, [] => pure (some [])
  | n + 1, f :: fs => do
    let v ← visiting f f.record
    match v.toParam? with
    | none => pure none
    | some w => do
      let words ← recordParams n fs
      pure (words.map (w :: ·))

def recordOption : Option Formula → Recorded Value
  | none => pure .undefined
  | some f => visiting f f.record

def recordGuard : Option Formula → Bool → Recorded (Option Bool)
  | none, default => pure (some default)
  | some f, _ => do
    let v ← visiting f f.record
    pure v.toBool?

end

/-- Everything that is evaluated when a formula is evaluated in a scope, itself first. -/
def visits (f : Formula) (s : Scope) : List Visit := (visiting f f.record s).2

end Formula

namespace Recorded
variable {α β : Type} (s : Scope)

@[simp] theorem run_pure (a : α) : (pure a : Recorded α).run s = (a, s) := rfl

@[simp] theorem run_bind (x : Recorded α) (f : α → Recorded β) :
    (x >>= f).run s = (f (x.run s).1).run (x.run s).2 := rfl

@[simp] theorem run_plain (f : Step α) : (plain f).run s = f s := rfl

@[simp] theorem run_look (f : Scope → α) : (look f).run s = (f s, s) := rfl

@[simp] theorem run_change (f : Scope → Scope) : (change f).run s = ((), f s) := rfl

@[simp] theorem run_visiting (f : Formula) (x : Recorded Value) :
    (visiting f x).run = x.run := rfl

@[simp] theorem run_framed (x : Recorded α) :
    (Recorded.framed x).run = Spoils.framed x.run := rfl

private theorem run_numbers (x y : Recorded Value) (f : Value → Value → Value) :
    (numbers x y f).run s =
      match x.run s with
      | (a, s) =>
        if !a.isNumeric then (.error, s)
        else
          match y.run s with
          | (b, s) => if !b.isNumeric then (.error, s) else (f a b, s) := by
  rw [numbers, run_bind]
  generalize x.run s = first
  obtain ⟨a, t⟩ := first
  simp only
  split
  · rfl
  · rw [run_bind]
    generalize y.run t = second
    obtain ⟨b, t⟩ := second
    simp only
    split <;> rfl

private theorem run_truths (x y : Recorded Value) (decisive : Bool) :
    (truths x y decisive).run s =
      match x.run s with
      | (.bool v, s) =>
        if v == decisive then (.bool v, s)
        else
          match y.run s with
          | (.bool v, s) => (.bool v, s)
          | (_, s) => (.error, s)
      | (_, s) => (.error, s) := by
  rw [truths, run_bind]
  generalize x.run s = first
  obtain ⟨v, t⟩ := first
  cases v with
  | bool v =>
    simp only
    split
    · rfl
    · rw [run_bind]
      generalize y.run t = second
      obtain ⟨v, t⟩ := second
      cases v <;> rfl
  | _ => rfl

theorem run_unlessError (x : Recorded Value) (next : Value → Recorded Value) :
    (unlessError x next).run s =
      match x.run s with
      | (v, s) => if v.isError then (.error, s) else (next v).run s := by
  rw [unlessError, run_bind]
  generalize x.run s = first
  obtain ⟨v, t⟩ := first
  simp only
  split <;> rfl

theorem run_given (condition yes no : Recorded Value) :
    (given condition yes no).run s =
      match condition.run s with
      | (v, s) =>
        match v.toBool? with
        | some true => yes.run s
        | some false => no.run s
        | none => (.error, s) := by
  rw [given, run_bind]
  generalize condition.run s = first
  obtain ⟨v, t⟩ := first
  simp only
  split <;> rfl

private theorem run_loop (condition body post : Recorded Value) (fuel : Nat) :
    (Recorded.loop condition body post fuel).run s =
      runLoop condition.run body.run post.run fuel s := by
  induction fuel generalizing s with
  | zero =>
    rw [Recorded.loop, run_given, runLoop]
    generalize condition.run s = first
    obtain ⟨v, t⟩ := first
    simp only
    rcases v.toBool? with _ | _ | _ <;> rfl
  | succ fuel ih =>
    rw [Recorded.loop, run_given, runLoop]
    generalize condition.run s = first
    obtain ⟨v, t⟩ := first
    simp only [run_unlessError, ih]
    rcases v.toBool? with _ | _ | _ <;> rfl

theorem run_finish (post : Recorded (Option Bool)) :
    (finish post).run = finishRound post.run := by
  funext s
  rw [finish, finishRound, run_bind]
  generalize post.run s = last
  obtain ⟨_ | _ | _, t⟩ := last <;> rfl

theorem run_round (pre : Recorded (Option Bool)) (body : Recorded Value)
    (post : Recorded (Option Bool)) :
    (Recorded.round pre body post).run = runRound pre.run body.run post.run := by
  funext s
  rw [Recorded.round, runRound, run_bind]
  generalize pre.run s = first
  obtain ⟨_ | _ | _, t⟩ := first
  · rfl
  · simp only [run_finish]
  · simp only [run_bind]
    generalize body.run t = second
    obtain ⟨v, t⟩ := second
    simp only
    split
    · rfl
    · rw [run_finish]

private theorem run_prototypes (round : Recorded (Option Value)) (list : List PrototypeId) :
    (prototypes round list).run = runPrototypes round.run list := by
  induction list with
  | nil => rfl
  | cons p ps ih =>
    funext s
    rw [prototypes, runPrototypes, run_bind, run_change, run_bind]
    generalize round.run _ = ran
    obtain ⟨_ | v, t⟩ := ran
    · exact congrFun ih t
    · rfl

theorem run_overPrototypes (source : Slot) (round : Recorded (Option Value)) :
    (Recorded.overPrototypes source round).run s = Spoils.overPrototypes source round.run s := by
  rw [Recorded.overPrototypes, Spoils.overPrototypes, run_bind, run_look]
  simp only
  generalize s.binding? source = bound
  split
  · rw [run_framed, run_prototypes]
  · simp only [run_pure]

private theorem run_condition (round : Recorded (Option Value)) (c : Condition) :
    (condition round c).run s = runCondition round.run c s := rfl

private theorem run_conditions (round : Recorded (Option Value)) (list : List Condition) :
    (conditions round list).run = runConditions round.run list := by
  induction list with
  | nil => rfl
  | cons c cs ih =>
    funext s
    rw [conditions, runConditions, run_bind, run_condition]
    generalize runCondition round.run c s = ran
    obtain ⟨⟨_ | v, c⟩, t⟩ := ran
    · simp only [run_bind, run_pure, ih]
    · rfl

theorem run_overConditions (source : Slot) (round : Recorded (Option Value)) :
    (Recorded.overConditions source round).run s = Spoils.overConditions source round.run s := by
  rw [Recorded.overConditions, Spoils.overConditions, run_bind, run_look]
  simp only
  generalize s.binding? source = bound
  split
  · simp only [run_bind, run_change, run_framed, run_pure, run_conditions]
  · simp only [run_pure]

end Recorded

namespace Formula

mutual

theorem run_record : ∀ f : Formula, f.record.run = f.eval
  | .curve id index => by
    funext s
    simp only [record, eval, run_bind, run_visiting, run_look, run_record index]
  | .loadWith slot prop params => by
    funext s
    simp only [record, eval, run_bind, run_params 4 params]
    rcases evalParams 4 params s with ⟨_ | words, t⟩ <;> rfl
  | .assign slot key value => by
    funext s
    simp only [record, eval, run_bind, run_visiting, run_plain, run_record value]
  | .assignWith slot prop params value => by
    funext s
    simp only [record, eval, run_bind, run_params 4 params]
    rcases evalParams 4 params s with ⟨_ | words, t⟩
    · rfl
    · simp only [run_bind, run_visiting, run_plain, run_record value]
  | .bindEntity entity slot => by
    funext s
    simp only [record, eval, run_bind, run_visiting, run_record entity]
    rcases (eval entity s).1.toEntity? with _ | id <;> rfl
  | .arith _ a b | .div a b | .compare _ a b => by
    funext s
    simp only [record, eval, run_numbers, run_visiting, run_record a, run_record b]
  | .equals a b epsilon => by
    funext s
    simp only [record, eval, run_unlessError, run_visiting, run_pure, run_record a, run_record b]
  | .both a b | .either a b => by
    funext s
    simp only [record, eval, run_truths, run_visiting, run_record a, run_record b]
    generalize eval a s = first
    obtain ⟨v, t⟩ := first
    cases v with
    | bool v => cases v <;> rfl
    | _ => rfl
  | .negate a => by
    funext s
    simp only [record, eval, run_bind, run_visiting, run_record a]
    rcases eval a s with ⟨v, t⟩
    cases v <;> rfl
  | .ifElse condition yes no => by
    funext s
    rcases tested : (eval condition s).1.toBool? with _ | _ | _ <;>
      simp only [record, eval, run_given, run_visiting, run_record condition, run_record yes,
        run_option no, tested]
  | .scope body => by
    funext s
    simp only [record, eval, run_framed, run_body body]
  | .loop pre condition post body => by
    funext s
    simp only [record, eval, run_framed]
    congr 1
    funext s
    simp only [run_unlessError, run_loop, run_visiting, run_option pre, run_record condition,
      run_body body, run_option post]
  | .forConditions source pre post body => by
    funext s
    simp only [record, eval, run_overConditions, run_round, run_guard pre, run_body body,
      run_guard post]
  | .forPrototypes source pre post body => by
    funext s
    simp only [record, eval, run_overPrototypes, run_round, run_guard pre, run_body body,
      run_guard post]
  | .damageReduction slot kind (some level) => by
    funext s
    simp only [record, eval, run_bind, run_visiting, run_record level]
    rcases (eval level s).1.toInt? with _ | n <;> rfl
  | .damageReduction slot kind none => rfl
  | .bool _ | .int _ | .single _ | .asset _ | .proto _ | .contextInt _ | .contextProto _
  | .load .. | .loadBound .. | .has .. | .swap .. | .bindConditions .. | .isNull _
  | .randomSingle .. | .randomInt .. | .query .. | .distance .. | .inInventory ..
  | .tierInRange .. | .missionActive .. | .missionComplete .. | .dynamicLevel | .failure => rfl

theorem run_body : ∀ (fs : List Formula) (last : Value),
    (recordBody fs last).run = evalBody fs last
  | [], last => rfl
  | f :: fs, last => by
    funext s
    simp only [recordBody, evalBody, run_unlessError, run_visiting, run_record f, run_body fs]

theorem run_params : ∀ (n : Nat) (fs : List Formula), (recordParams n fs).run = evalParams n fs
  | 0, _ => by
    funext s
    simp only [recordParams, evalParams, run_pure]
  | _ + 1, [] => rfl
  | n + 1, f :: fs => by
    funext s
    simp only [recordParams, evalParams, run_bind, run_visiting, run_record f]
    rcases eval f s with ⟨v, t⟩
    rcases v.toParam? with _ | w
    · rfl
    · simp only [run_bind, run_pure, run_params n fs]

theorem run_option : ∀ f : Option Formula, (recordOption f).run = evalOption f
  | none => rfl
  | some f => by
    funext s
    simp only [recordOption, evalOption, run_visiting, run_record f]

theorem run_guard : ∀ (f : Option Formula) (default : Bool),
    (recordGuard f default).run = evalGuard f default
  | none, default => rfl
  | some f, default => by
    funext s
    simp only [recordGuard, evalGuard, run_bind, run_visiting, run_pure, run_record f]

end

end Formula

end Spoils
