import Spoils.Item.Draft
import Spoils.Table.Node

/-! What a roll gives: its outcome, what it grants, and the traces of its items. -/
namespace Spoils

/-- How a roll went. Nothing at all is the outcome of a branch that was not rolled. -/
structure Outcome where
  success : Bool := false
  failure : Bool := false
  part : Bool := false
deriving DecidableEq, Repr, Inhabited

namespace Outcome

def noRoll : Outcome := {}

def succeeded : Outcome := { success := true }

def failed : Outcome := { failure := true }

def union (a b : Outcome) : Outcome :=
  { success := a.success || b.success
    failure := a.failure || b.failure
    part := a.part || b.part }

/-- Success and failure together are a success in part. -/
def normalize (o : Outcome) : Outcome :=
  if o.success && o.failure then { success := true, part := true } else o

def toNat (o : Outcome) : Nat := bitsToNat [o.success, o.failure, o.part]

def ofNat (n : Nat) : Outcome :=
  { success := n.testBit 0, failure := n.testBit 1, part := n.testBit 2 }

end Outcome

inductive Grant where
  | item (draft : Draft)
  | agent (agent : PrototypeId) (level : Int)
  | credits (amount : Int)
  | experience (curve : CurveId) (amount : Int)
  | powerPoints (amount : Int)
  | health (amount : Int)
  | endurance (amount : Int)
  | realMoney (coupon transaction : String) (amount : Int)
  | vanityTitle (title : PrototypeId)
  | vendorXp (vendor : PrototypeId) (amount : Int)
deriving DecidableEq

def Grant.draft? : Grant → Option Draft
  | .item d => some d
  | _ => none

/-- Something that the caller has to do after a roll. -/
inductive Effect where
  | useCooldown (gate : CooldownGate)
  /-- Records that the reward under a key was received. -/
  | markReceived (key : PrototypeId)
  | callback (callback : Callback)
deriving DecidableEq

inductive Stage where
  | selecting | drafting | mutating | finalized | discarded
deriving DecidableEq, Repr

namespace Stage

def order : Stage → Nat
  | .selecting => 0
  | .drafting => 1
  | .mutating => 2
  | .finalized | .discarded => 3

def isTerminal : Stage → Bool
  | .finalized | .discarded => true
  | _ => false

/-- Stages go forwards only, but an item may be mutated again. -/
def canMoveTo (a b : Stage) : Bool :=
  !a.isTerminal && (a.order < b.order || (a == .mutating && b == .mutating))

end Stage

structure Trace where
  item : PrototypeId
  stages : List Stage
deriving DecidableEq

namespace Trace

def start (item : PrototypeId) : Trace := ⟨item, [.selecting]⟩

def current (t : Trace) : Stage := t.stages.getLast?.getD .selecting

def move (t : Trace) (s : Stage) : Trace :=
  if t.current.canMoveTo s then { t with stages := t.stages ++ [s] } else t

/-- Moves to the stage of mutations, once for each that was begun. -/
def mutated (t : Trace) (begun : Nat) : Trace := (List.replicate begun Stage.mutating).foldl move t

end Trace

structure Results where
  outcome : Outcome := .noRoll
  grants : List Grant := []
  effects : List Effect := []
  traces : List Trace := []
deriving DecidableEq

namespace Results

def drafts (r : Results) : List Draft := r.grants.filterMap (·.draft?)

def credits (r : Results) : Int :=
  r.grants.foldr (fun g total =>
    match g with
    | .credits amount => amount + total
    | _ => total) 0

def isEmpty (r : Results) : Bool := r.grants.isEmpty

end Results

end Spoils
