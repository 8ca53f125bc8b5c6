import Spoils.Catalog.Lineage
import Spoils.Formula.Value
import Spoils.Random.Dice

/-! Scopes: what a formula sees and changes while it is evaluated. -/
namespace Spoils

/-- What a formula may do with a bound property store. -/
inductive Access where
  | readOnly
  /-- Writable; the caller keeps it and gets it back. -/
  | lent
  /-- Writable and part of the scope. -/
  | owned
deriving DecidableEq, Repr

structure BoundStore where
  access : Access
  properties : PropertyStore
deriving DecidableEq

structure Condition where
  id : Nat := 0
  keywords : List PrototypeId := []
  properties : PropertyStore := .empty
deriving DecidableEq

inductive SlotBinding where
  | unbound
  | value (v : Value)
  | store (s : BoundStore)
  | entity (id : Nat) (s : Option BoundStore)
  | conditions (list : List Condition)
  | prototypes (list : List PrototypeId)
deriving DecidableEq, Inhabited

/-- Answers of the game about entities. The defaults know nothing. -/
structure Host where
  properties : Nat → Option PropertyStore := fun _ => none
  conditions : Nat → List Condition := fun _ => []
  hasKeyword : Nat → PrototypeId → Bool := fun _ _ => false
  hasTalent : Nat → PrototypeId → Bool := fun _ _ => false
  combatLevel : Nat → Int := fun _ => 0
  powerRank : Nat → PrototypeId → Int := fun _ _ => 0
  freshPowerRank : Nat → PrototypeId → Int := powerRank
  inParty : Nat → Bool := fun _ => false
  damageReduction : Nat → Int → Int → Single := fun _ _ _ => 0
  distance : Nat → Nat → Bool → Option Single := fun _ _ _ => none
  /-- No entity asks for any. -/
  inInventory : Nat → PrototypeId → PrototypeId → Bool := fun _ _ _ => false
  difficultyTier : Nat → PrototypeId := fun _ => .none
  missionActive : Nat → PrototypeId → Bool := fun _ _ => false
  missionComplete : Nat → PrototypeId → Bool := fun _ _ => false

structure Scope where
  slots : Vector SlotBinding 12 := Vector.replicate 12 .unbound
  /-- The innermost frame of local properties. There always is one. -/
  frame : PropertyStore := .empty
  /-- The frames around it, from the inside out. -/
  outer : List PropertyStore := []
  catalog : Option Catalog := none
  host : Option Host := none
  dice : Option Dice := none
  /-- A lent store whose slot was bound to something else. -/
  returned : Option PropertyStore := none

namespace Scope

/-- The binding of a slot, if it can have one. -/
def binding? (s : Scope) (slot : Slot) : Option SlotBinding :=
  slot.index?.map fun i => s.slots[i]

/-- Changes a binding; slots that cannot be bound stay as they are. -/
def rebind (s : Scope) (slot : Slot) (b : SlotBinding) : Scope :=
  match slot.index? with
  | some i => { s with slots := s.slots.set i b }
  | none => s

/-- Binds a slot; a lent store that loses its slot goes back to the caller. -/
def bind (s : Scope) (slot : Slot) (b : SlotBinding) : Scope :=
  match s.binding? slot with
  | some (.store ⟨.lent, p⟩) => { s.rebind slot b with returned := some p }
  | _ => s.rebind slot b

/-- Binds an entity with the properties the host knows of it. -/
def bindEntity (s : Scope) (slot : Slot) (id : Nat) : Scope :=
  let store := (s.host.bind fun h => h.properties id).map (⟨.readOnly, ·⟩)
  s.bind slot (.entity id store)

def boundStore? : SlotBinding → Option BoundStore
  | .store b => some b
  | .entity _ b => b
  | _ => none

theorem boundStore?_eq_some {b : SlotBinding} {bound : BoundStore}
    (h : boundStore? b = some bound) : b = .store bound ∨ ∃ id, b = .entity id (some bound) := by
  unfold boundStore? at h
  split at h
  · cases h
    exact .inl rfl
  · cases h
    exact .inr ⟨_, rfl⟩
  · cases h

def store? (s : Scope) : Slot → Option PropertyStore
  | .localStack => some s.frame
  | .callerStack => s.outer[0]?
  | .globals => s.catalog.map (·.globals)
  | slot => ((s.binding? slot).bind boundStore?).map (·.properties)

def isWritable (s : Scope) : Slot → Bool
  | .localStack => true
  | .callerStack => (s.outer[0]?).isSome
  | .globals => false
  | slot => ((s.binding? slot).bind boundStore?).any fun b => b.access != .readOnly

def withStore (b : SlotBinding) (p : PropertyStore) : SlotBinding :=
  match b with
  | .store old => .store { old with properties := p }
  | .entity id (some old) => .entity id (some { old with properties := p })
  | b => b

def setStore (s : Scope) (slot : Slot) (p : PropertyStore) : Scope :=
  match slot with
  | .localStack => { s with frame := p }
  | .callerStack => { s with outer := s.outer.set 0 p }
  | .globals => s
  | slot =>
    match s.binding? slot with
    | some b => s.rebind slot (withStore b p)
    | none => s

def takeOwned (s : Scope) (slot : Slot) : Option PropertyStore × Scope :=
  match s.binding? slot with
  | some (.store ⟨.owned, p⟩) => (some p, s.rebind slot .unbound)
  | _ => (none, s)

/-- Binds a condition with its keywords; its properties are in the scope meanwhile. -/
def enterCondition (s : Scope) (c : Condition) : Scope :=
  (s.rebind .condition (.store ⟨.owned, c.properties⟩)).rebind .conditionKeywords
    (.prototypes c.keywords)

/-- Takes the properties of a condition back, and returns to the bindings of an earlier scope. -/
def leaveCondition (s before : Scope) (c : Condition) : Condition × Scope :=
  let (kept, s) := s.takeOwned .condition
  ({ c with properties := kept.getD .empty },
    (s.rebind .condition ((before.binding? .condition).getD .unbound)).rebind .conditionKeywords
      ((before.binding? .conditionKeywords).getD .unbound))

/-- The entity of a slot, bound directly or as a value. -/
def entity? (s : Scope) (slot : Slot) : Option Nat :=
  match s.binding? slot with
  | some (.entity id _) => some id
  | some (.value v) => v.toEntity?
  | _ => none

def value? (s : Scope) (slot : Slot) : Option Value :=
  match s.binding? slot with
  | some (.value v) => some v
  | _ => none

def pushFrame (s : Scope) : Scope := { s with frame := .empty, outer := s.frame :: s.outer }

/-- Drops the innermost frame; the last one stays. -/
def popFrame (s : Scope) : Scope :=
  match s.outer with
  | f :: fs => { s with frame := f, outer := fs }
  | [] => s

def depth (s : Scope) : Nat := s.outer.length + 1

/-- The store lent to the scope in a slot, wherever it is by now. -/
def lentStore? (s : Scope) (slot : Slot) : Option PropertyStore :=
  match s.binding? slot with
  | some (.store ⟨.lent, p⟩) => some p
  | _ => s.returned

end Scope

end Spoils
