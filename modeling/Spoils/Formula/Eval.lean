import Spoils.Formula.Arith
import Spoils.Formula.Scope

/-! Evaluation of formulas. A part that cannot be evaluated makes the whole an error; writes
made before it stay. -/
namespace Spoils

namespace Scope

/-- The type a property is declared with: none without a catalog, and an error for a property
that the catalog does not declare. -/
def declared (s : Scope) (p : PropertyId) : Option (Option DataType) :=
  match s.catalog with
  | none => some none
  | some c => (c.property? p).map fun info => some info.dataType

/-- Reads a property; a missing one reads as the default of its declared type. -/
def read (s : Scope) (slot : Slot) (k : PropertyKey) : Value :=
  match s.declared k.prop, s.store? slot with
  | some type, some store =>
    match store.get? k, type with
    | some v, _ => .ofProperty v
    | none, some type => .ofProperty type.default
    | none, none => .int 0
  | _, _ => .error

/-- The type a value is stored as: the declared one, else that of the present value, else its
own. -/
def storageType (s : Scope) (slot : Slot) (k : PropertyKey) (v : Value) : Option DataType :=
  match s.declared k.prop with
  | none => none
  | some (some type) => some type
  | some none =>
    (((s.store? slot).bind fun store => store.get? k).map (·.dataType)).or v.naturalType?

def write (s : Scope) (slot : Slot) (k : PropertyKey) (v : Value) : Value × Scope :=
  match v, (s.storageType slot k v).bind v.store?, s.store? slot with
  | .error, _, _ => (.error, s)
  | v, some stored, some store =>
    if s.isWritable slot then (v, s.setStore slot (store.insert k stored)) else (.error, s)
  | _, _, _ => (.error, s)

def putOrErase (store : PropertyStore) (k : PropertyKey) : Option PropertyValue → PropertyStore
  | some v => store.insert k v
  | none => store.erase k

def put (s : Scope) (slot : Slot) (k : PropertyKey) (v : Option PropertyValue) : Scope :=
  match s.store? slot with
  | some store => s.setStore slot (putOrErase store k v)
  | none => s

def exchange (s : Scope) (left right : Slot) (k : PropertyKey) : Value × Scope :=
  match s.store? left, s.store? right with
  | some l, some r =>
    if s.isWritable left && s.isWritable right then
      (.bool true, (s.put left k (r.get? k)).put right k (l.get? k))
    else (.error, s)
  | _, _ => (.error, s)

/-- Whether a slot holds nothing; values are not asked that. -/
def null (s : Scope) : Slot → Value
  | .localStack => .bool (s.store? .localStack).isNone
  | .callerStack => .bool (s.store? .callerStack).isNone
  | .globals => .bool (s.store? .globals).isNone
  | slot =>
    match s.binding? slot with
    | some .unbound => if slot.isVariable then .bool true else .error
    | some (.store _) | some (.entity ..) | some (.conditions _) | some (.prototypes _) =>
      .bool false
    | _ => .error

def ask (s : Scope) (slot : Slot) (question : Host → Nat → Value) : Value :=
  match s.entity? slot, s.host with
  | some id, some host => question host id
  | _, _ => .error

def difficultyTier (s : Scope) (slot : Slot) : PrototypeId :=
  let asked :=
    match s.binding? slot, s.host with
    | some (.entity id _), some host => host.difficultyTier id
    | _, _ => .none
  if asked.isValid then asked
  else ((s.store? slot).map fun p => p.prototype PropertyId.difficultyTier).getD .none

/-- Whether the tier of a slot lies in a range; no tier lies in every range. -/
def tierInRange (s : Scope) (slot : Slot) (lo hi : PrototypeId) : Value :=
  let tier := s.difficultyTier slot
  if !tier.isValid then .bool true
  else
    match s.catalog with
    | some c => .bool (c.tierInRange tier lo hi)
    | none => .error

def draw (s : Scope) (f : Dice → Value × Dice) : Value × Scope :=
  match s.dice with
  | some dice =>
    let (v, dice) := f dice
    (v, { s with dice := some dice })
  | none => (.error, s)

/-- The value of a curve at a position, which is brought into 32 bits. -/
def curveAt (s : Scope) (id : CurveId) (position : Value) : Value :=
  match position.toInt?, s.catalog.bind fun c => c.curve? id with
  | some p, some curve => .single (curve.valueAt (Bounds.int32.clamp p))
  | _, _ => .error

end Scope

def EntityQuery.answer (question : EntityQuery) (host : Host) (id : Nat) : Value :=
  match question with
  | .hasKeyword keyword => .bool (host.hasKeyword id keyword)
  | .hasTalent talent => .bool (host.hasTalent id talent)
  | .combatLevel => .int (host.combatLevel id)
  | .powerRank power => .int (host.powerRank id power)
  | .freshPowerRank power => .int (host.freshPowerRank id power)
  | .inParty => .bool (host.inParty id)

abbrev Step (α : Type) := Scope → α × Scope

/-- Runs a step in a frame of its own. -/
def framed {α : Type} (step : Step α) : Step α := fun s =>
  match step s.pushFrame with
  | (a, s) => (a, s.popFrame)

/-- How many rounds a loop may run. Nothing is to be unfolded that many times. -/
@[irreducible]
def maxRounds : Nat := 10000

/-- Runs rounds while the condition holds; too many rounds are an error. -/
def runLoop (condition body post : Step Value) : Nat → Step Value
  | fuel, s =>
    match condition s with
    | (v, s) =>
      match v.toBool?, fuel with
      | none, _ => (.error, s)
      | some false, _ => (.undefined, s)
      | some true, 0 => (.error, s)
      | some true, fuel + 1 =>
        match body s with
        | (v, s) =>
          if v.isError then (.error, s)
          else
            match post s with
            | (v, s) => if v.isError then (.error, s) else runLoop condition body post fuel s

/-- Tells whether the rounds end after this one, which is no value or an error. -/
def finishRound (post : Step (Option Bool)) : Step (Option Value) := fun s =>
  match post s with
  | (some true, s) => (some .undefined, s)
  | (some false, s) => (none, s)
  | (none, s) => (some .error, s)

/-- One round over a list: the body runs if `pre` allows it, and `post` may end the rounds.
Gives whether the rounds end, and how. -/
def runRound (pre : Step (Option Bool)) (body : Step Value) (post : Step (Option Bool)) :
    Step (Option Value) := fun s =>
  match pre s with
  | (none, s) => (some .error, s)
  | (some false, s) => finishRound post s
  | (some true, s) =>
    match body s with
    | (v, s) => if v.isError then (some .error, s) else finishRound post s

/-- Runs a round for each prototype, which is found in the local frame. -/
def runPrototypes (round : Step (Option Value)) : List PrototypeId → Step Value
  | [], s => (.undefined, s)
  | p :: ps, s =>
    match round (s.put .localStack PropertyId.loopPrototype (some (.prototype p))) with
    | (some v, s) => (v, s)
    | (none, s) => runPrototypes round ps s

def overPrototypes (source : Slot) (round : Step (Option Value)) : Step Value := fun s =>
  match s.binding? source with
  | some (.prototypes list) => framed (runPrototypes round list) s
  | _ => (.error, s)

def runCondition (round : Step (Option Value)) (c : Condition) :
    Step (Option Value × Condition) := fun s =>
  match round (s.enterCondition c) with
  | (ended, t) =>
    match t.leaveCondition s c with
    | (c, t) => ((ended, c), t)

def runConditions (round : Step (Option Value)) : List Condition → Step (Value × List Condition)
  | [], s => ((.undefined, []), s)
  | c :: cs, s =>
    match runCondition round c s with
    | ((some v, c), s) => ((v, c :: cs), s)
    | ((none, c), s) =>
      match runConditions round cs s with
      | ((v, cs), s) => ((v, c :: cs), s)

/-- Runs a round in a frame of its own for each condition of the list in a slot, which is unbound
meanwhile. -/
def overConditions (source : Slot) (round : Step (Option Value)) : Step Value := fun s =>
  match s.binding? source with
  | some (.conditions list) =>
    match framed (runConditions round list) (s.rebind source .unbound) with
    | ((v, list), s) => (v, s.rebind source (.conditions list))
  | _ => (.error, s)

namespace Formula

mutual

def eval : Formula → Scope → Value × Scope
  | .bool v, s => (.bool v, s)
  | .int v, s => (.int v, s)
  | .single v, s => (.single v, s)
  | .asset id, s => (.asset id, s)
  | .proto id, s => (.proto id, s)
  | .curve id index, s =>
    match eval index s with
    | (position, s) => (s.curveAt id position, s)
  | .contextInt slot, s =>
    match s.value? slot with
    | some v => ((v.toInt?.map Value.int).getD .error, s)
    | none => (.error, s)
  | .contextProto slot, s =>
    match slot.index? with
    | some _ => (.proto (((s.value? slot).bind Value.toProto?).getD .none), s)
    | none => (.error, s)
  | .load slot key, s => (s.read slot key, s)
  | .loadBound slot prop param, s =>
    let word :=
      match s.binding? param with
      | some (.value v) => v.toParam?
      | some (.entity id _) => some id
      | _ => none
    match word with
    | some w => (s.read slot (.ofList prop [w]), s)
    | none => (.error, s)
  | .loadWith slot prop params, s =>
    match evalParams 4 params s with
    | (some words, s) => (s.read slot (.ofList prop words), s)
    | (none, s) => (.error, s)
  | .assign slot key value, s =>
    match eval value s with
    | (v, s) => s.write slot key v
  | .assignWith slot prop params value, s =>
    match evalParams 4 params s with
    | (none, s) => (.error, s)
    | (some words, s) =>
      match eval value s with
      | (v, s) => s.write slot (.ofList prop words) v
  | .has slot key, s =>
    match s.store? slot with
    | some store => (.bool (store.contains key), s)
    | none => (.error, s)
  | .swap left right key, s => s.exchange left right key
  | .bindEntity entity slot, s =>
    match eval entity s with
    | (v, s) =>
      match v.toEntity? with
      | some id => (.entity id, s.bindEntity slot id)
      | none => (.error, s)
  | .bindConditions source slot, s =>
    match s.entity? source, s.host with
    | some id, some host => (.undefined, s.bind slot (.conditions (host.conditions id)))
    | _, _ => (.error, s)
  | .isNull slot, s => (s.null slot, s)
  | .arith op a b, s =>
    match eval a s with
    | (x, s) =>
      if !x.isNumeric then (.error, s)
      else
        match eval b s with
        | (y, s) => if !y.isNumeric then (.error, s) else (op.onValues x y, s)
  | .div a b, s =>
    match eval a s with
    | (x, s) =>
      if !x.isNumeric then (.error, s)
      else
        match eval b s with
        | (y, s) => if !y.isNumeric then (.error, s) else (x.divide y, s)
  | .compare op a b, s =>
    match eval a s with
    | (x, s) =>
      if !x.isNumeric then (.error, s)
      else
        match eval b s with
        | (y, s) => if !y.isNumeric then (.error, s) else (op.onValues x y, s)
  | .equals a b epsilon, s =>
    match eval a s with
    | (x, s) =>
      if x.isError then (.error, s)
      else
        match eval b s with
        | (y, s) => if y.isError then (.error, s) else (x.equals epsilon y, s)
  | .both a b, s =>
    match eval a s with
    | (.bool false, s) => (.bool false, s)
    | (.bool true, s) =>
      match eval b s with
      | (.bool v, s) => (.bool v, s)
      | (_, s) => (.error, s)
    | (_, s) => (.error, s)
  | .either a b, s =>
    match eval a s with
    | (.bool true, s) => (.bool true, s)
    | (.bool false, s) =>
      match eval b s with
      | (.bool v, s) => (.bool v, s)
      | (_, s) => (.error, s)
    | (_, s) => (.error, s)
  | .negate a, s =>
    match eval a s with
    | (.bool v, s) => (.bool !v, s)
    | (_, s) => (.error, s)
  | .ifElse condition yes no, s =>
    match eval condition s with
    | (v, s) =>
      match v.toBool? with
      | some true => eval yes s
      | some false => evalOption no s
      | none => (.error, s)
  | .scope body, s => framed (fun s => evalBody body .undefined s) s
  | .loop pre condition post body, s =>
    framed (fun s =>
      match evalOption pre s with
      | (v, s) =>
        if v.isError then (.error, s)
        else
          runLoop (fun s => eval condition s) (fun s => evalBody body .undefined s)
            (fun s => evalOption post s) maxRounds s) s
  | .forConditions source pre post body, s =>
    overConditions source (runRound (fun s => evalGuard pre true s)
      (fun s => evalBody body .undefined s) (fun s => evalGuard post false s)) s
  | .forPrototypes source pre post body, s =>
    overPrototypes source (runRound (fun s => evalGuard pre true s)
      (fun s => evalBody body .undefined s) (fun s => evalGuard post false s)) s
  | .randomSingle lo hi, s =>
    s.draw fun dice =>
      let (x, dice) := dice.single lo hi
      (.single x, dice)
  | .randomInt lo hi, s =>
    s.draw fun dice =>
      if hi < lo then (.int lo, dice)
      else
        let (n, dice) := dice.int lo (Min.min (hi + 1) Bounds.int32.hi)
        (.int n, dice)
  | .query slot question, s => (s.ask slot question.answer, s)
  | .damageReduction slot kind none, s =>
    (s.ask slot fun host id => .single (host.damageReduction id kind (host.combatLevel id)), s)
  | .damageReduction slot kind (some level), s =>
    match eval level s with
    | (v, s) =>
      match v.toInt? with
      | some level => (s.ask slot fun host id => .single (host.damageReduction id kind level), s)
      | none => (.error, s)
  | .distance source target edge, s =>
    match s.entity? target with
    | some target =>
      (s.ask source fun host id =>
        ((host.distance id target edge).map Value.single).getD .error, s)
    | none => (.error, s)
  | .inInventory slot entity inventory, s =>
    if inventory.isValid then
      (s.ask slot fun host id => .bool (host.inInventory id entity inventory), s)
    else (.error, s)
  | .tierInRange slot lo hi, s => (s.tierInRange slot lo hi, s)
  | .missionActive slot mission, s =>
    if mission.isValid then (s.ask slot fun host id => .bool (host.missionActive id mission), s)
    else (.error, s)
  | .missionComplete slot mission, s =>
    if mission.isValid then (s.ask slot fun host id => .bool (host.missionComplete id mission), s)
    else (.error, s)
  | .dynamicLevel, s => (.bool true, s)
  | .failure, s => (.error, s)

/-- Evaluates statements in order up to the first error; the last value counts. -/
def evalBody : List Formula → Value → Scope → Value × Scope
  | [], last, s => (last, s)
  | f :: fs, _, s =>
    match eval f s with
    | (v, s) => if v.isError then (.error, s) else evalBody fs v s

def evalParams : Nat → List Formula → Scope → Option (List Nat) × Scope
  | 0, _, s => (some [], s)
  | _ + 1, [], s => (some [], s)
  | n + 1, f :: fs, s =>
    match eval f s with
    | (v, s) =>
      match v.toParam? with
      | none => (none, s)
      | some w =>
        match evalParams n fs s with
        | (words, s) => (words.map (w :: ·), s)

def evalOption : Option Formula → Scope → Value × Scope
  | none, s => (.undefined, s)
  | some f, s => eval f s

/-- A guard as a truth value, with a default for a missing one. -/
def evalGuard : Option Formula → Bool → Scope → Option Bool × Scope
  | none, default, s => (some default, s)
  | some f, _, s =>
    match eval f s with
    | (v, s) => (v.toBool?, s)

end

end Formula

end Spoils
