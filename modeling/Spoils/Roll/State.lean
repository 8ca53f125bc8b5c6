import Spoils.Mutation.Apply
import Spoils.Roll.Results

/-! The state of a roll: the dice, the loot that waits, and what was granted. -/
namespace Spoils

/-- Loot that waits to be granted. -/
inductive Pending where
  | item (draft : Draft) (mutations : List Mutation) (rollAffixes : Bool)
  | other (grant : Grant)

structure Roll where
  dice : Dice
  queue : List Pending := []
  grants : List Grant := []
  effects : List Effect := []
  traces : List Trace := []

namespace Roll

def start (seed : UInt64) : Roll := { dice := .ofSeed seed }

/-- The granted items, in order. Mutations and copies take their sources from them. -/
def drafts (r : Roll) : List Draft := r.grants.filterMap (·.draft?)

def results (r : Roll) (outcome : Outcome) : Results :=
  { outcome := outcome, grants := r.grants, effects := r.effects, traces := r.traces }

def push (r : Roll) (p : Pending) : Roll := { r with queue := r.queue ++ [p] }

def clearQueue (r : Roll) : Roll := { r with queue := [] }

def addEffect (r : Roll) (e : Effect) : Roll := { r with effects := r.effects ++ [e] }

/-- Queues a draft with a seed of its own if it may drop. -/
def pushItem (w : World) (d : Draft) (checks : Checks) (mutations : List Mutation) (r : Roll) :
    Outcome × Roll :=
  if w.accepts checks d then
    let drawn := r.dice.seed
    let d := { d with seed := drawn.1, checks := checks }
    (.succeeded, { r with dice := drawn.2 }.push (.item d mutations true))
  else (.noRoll, r)

def pushCopy (d : Draft) (r : Roll) : Outcome × Roll :=
  (.succeeded, r.push (.item d [] false))

def pushGrant (g : Grant) (r : Roll) : Outcome × Roll :=
  (.succeeded, r.push (.other g))

def workshop (w : World) (s : BranchSettings) (r : Roll) : Workshop := ⟨w, r.drafts, s⟩

/-- A draft after mutations in a roll: how many were begun, what they report, and the roll with the
dice they left. -/
structure Mutated where
  begun : Nat
  report : MutationReport
  draft : Draft
  roll : Roll

def mutate (w : World) (s : BranchSettings) (mutations : List Mutation) (d : Draft) (r : Roll) :
    Mutated :=
  let (begun, change) := Mutation.applyAll (r.workshop w s) mutations d r.dice
  { begun := begun
    report := change.report
    draft := change.draft
    roll := { r with dice := change.dice } }

/-- Rolls the affixes of a draft with the dice of the roll, if they are wanted. -/
def attach (w : World) (s : BranchSettings) (d : Draft) (wanted : Bool) (r : Roll) :
    Draft × Roll :=
  if wanted then
    let change := d.rollAffixes w.catalog w.occasion (some s) r.dice
    (change.draft, { r with dice := change.dice })
  else (d, r)

/-- Rolls the affixes of a draft, applies its mutations, and grants it unless they fail. -/
def finishItem (w : World) (s : BranchSettings) (d : Draft) (mutations : List Mutation)
    (rollAffixes : Bool) (r : Roll) : Bool × Roll :=
  let (rolled, r) := r.attach w s d rollAffixes
  let m := r.mutate w s mutations rolled
  let trace := ((Trace.start d.item).move .drafting).mutated m.begun
  if m.report.error then
    (false, { m.roll with traces := m.roll.traces ++ [trace.move .discarded] })
  else
    (true, { m.roll with
      traces := m.roll.traces ++ [trace.move .finalized]
      grants := m.roll.grants ++ [.item m.draft] })

/-- Grants one entry of the queue; false when its item is discarded. -/
def grantEntry (w : World) (s : BranchSettings) (r : Roll) : Pending → Bool × Roll
  | .other g => (true, { r with grants := r.grants ++ [g] })
  | .item d mutations rollAffixes => r.finishItem w s d mutations rollAffixes

/-- Grants entries in order; false when any item is discarded. -/
def grantAll (w : World) (s : BranchSettings) : List Pending → Roll → Bool × Roll
  | [], r => (true, r)
  | p :: ps, r =>
    let (ok, r) := r.grantEntry w s p
    let (rest, r) := grantAll w s ps r
    (ok && rest, r)

def processQueue (w : World) (s : BranchSettings) (r : Roll) : Bool × Roll :=
  grantAll w s r.queue { r with queue := [] }

/-- Grants everything that waits; a discarded item makes the outcome a failure. -/
def finish (w : World) (s : BranchSettings) (outcome : Outcome) (r : Roll) : Outcome × Roll :=
  let (ok, r) := r.processQueue w s
  (if ok then outcome else .failed, r)

end Roll

end Spoils
