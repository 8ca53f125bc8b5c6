import Spoils.Proofs.Roll.Downgrades

/-! Leaves, turn by turn: each turn comes to nothing, or a draft is handed on to be queued. -/
namespace Spoils

namespace Roll
variable {w : World} {s : BranchSettings} {r : Roll}

/-- What a leaf hands on to be queued. -/
structure Offer where
  draft : Draft
  checks : Checks
  mutations : List Mutation
  before : Roll

namespace Offer

def answer (w : World) (o : Offer) : Outcome × Roll :=
  o.before.pushItem w o.draft o.checks o.mutations

/-- The entry of the queue that it is meant to become. -/
def pending (o : Offer) : Pending :=
  .item { o.draft with seed := o.before.dice.seed.1, checks := o.checks } o.mutations true

def queued (o : Offer) : Roll := { o.before with dice := o.before.dice.seed.2 }.push o.pending

/-- The draft may drop under the checks that are handed on with it. -/
def Fits (w : World) (o : Offer) : Prop := w.accepts o.checks o.draft = true

theorem Fits.answer_eq {o : Offer} (fits : o.Fits w) : o.answer w = (.succeeded, o.queued) :=
  if_pos fits

end Offer

/-- One turn of a leaf, up to where it hands something on. -/
inductive Turn
  /-- There is nothing to pick from, or no rarity: the leaf ends and what waits is dropped. -/
  | ends (r : Roll)
  /-- No candidate fits. -/
  | misses (r : Roll)
  | picks (o : Offer)

namespace Turn

def ofDrawn {α : Type} (r : Roll) (checks : Checks) (mutations : List Mutation)
    (draft : α → Draft) : Option α × Dice → Turn
  | (none, dice) => .misses { r with dice := dice }
  | (some drawn, dice) => .picks ⟨draft drawn, checks, mutations, { r with dice := dice }⟩

def isEnd : Turn → Bool
  | .ends _ => true
  | .misses _ | .picks _ => false

def offers : Turn → List Offer
  | .ends _ | .misses _ => []
  | .picks o => [o]

def after (w : World) : Turn → Roll
  | .ends r | .misses r => r
  | .picks o => (o.answer w).2

/-- The end of a leaf that has only this turn. -/
def settle (w : World) (s : BranchSettings) : Turn → Outcome × Roll
  | .ends r => r.abandon
  | .misses r => (.failed, r)
  | .picks o => (o.answer w).2.finish w s (o.answer w).1

/-- Before a turn hands something on it changes nothing but the dice of the roll. -/
def From (r : Roll) : Turn → Prop
  | .ends later | .misses later => ∃ dice, later = { r with dice := dice }
  | .picks o => ∃ dice, o.before = { r with dice := dice }

theorem ofDrawn_from {α : Type} (checks : Checks) (ms : List Mutation) (draft : α → Draft)
    (drawn : Option α × Dice) : (ofDrawn r checks ms draft drawn).From r := by
  rcases drawn with ⟨_ | a, dice⟩ <;> exact ⟨dice, rfl⟩

/-- What comes of turns, unless one of them ends the leaf: all answers together. -/
def play (w : World) : List Turn → Outcome → Roll → Option Outcome × Roll
  | [], outcome, r => (some outcome, r)
  | .ends r :: _, _, _ => (none, r)
  | .misses r :: turns, outcome, _ => play w turns outcome r
  | .picks o :: turns, outcome, _ => play w turns (outcome.union (o.answer w).1) (o.answer w).2

/-- The end of a leaf with such turns. -/
def close (w : World) (s : BranchSettings) : Option Outcome × Roll → Outcome × Roll
  | (some outcome, r) => r.finish w s outcome
  | (none, r) => r.abandon

end Turn

/-- The turn of an item. For an abstract one a concrete descendant is picked. -/
def itemTurn (w : World) (s : BranchSettings) (item : Item) (mutations : List Mutation)
    (r : Roll) : Turn :=
  let avatar := w.rollAvatar s r.dice
  let rarity := w.rollRarity s.rarities (level s) (if item.isAbstract then none else some item)
    avatar.2
  if rarity.1.isValid then
    if item.isAbstract then
      .ofDrawn r s.checks mutations (fun found => World.draftOf found.1 avatar.1 found.2)
        (standIn w s item r)
    else
      .picks ⟨World.draftOf item avatar.1 { rarity := rarity.1, level := level s }, s.checks,
        mutations, { r with dice := rarity.2 }⟩
  else .ends { r with dice := rarity.2 }

/-- One turn of a leaf for the items of a slot. -/
def anyTurn (w : World) (s : BranchSettings) (slot : EquipmentSlot) (rank : Int) (r : Roll) :
    Turn :=
  let avatar := w.rollAvatar s r.dice
  let candidates := w.catalog.concreteForSlot slot avatar.1
  let rarity := w.rollRarity s.rarities (level s) none avatar.2
  let draft : Draft := {
    rarity := rarity.1, level := level s, rank := rank, slot := slot, rollFor := avatar.1 }
  if candidates.isEmpty then .ends { r with dice := avatar.2 }
  else if rarity.1.isValid then
    .ofDrawn r s.checks []
      (fun item => { draft with item := item.id, rollFor := item.rollFor avatar.1 })
      (w.pickItem s.checks candidates draft avatar.1 rarity.2)
  else .ends { r with dice := rarity.2 }

/-- The turns of such a leaf, until one of them ends it. -/
def anyTurns (w : World) (s : BranchSettings) (slot : EquipmentSlot) (rank : Int) :
    Nat → Roll → List Turn
  | 0, _ => []
  | n + 1, r =>
    let turn := anyTurn w s slot rank r
    turn :: if turn.isEnd then [] else anyTurns w s slot rank n (turn.after w)

def tokenTurn (w : World) (s : BranchSettings) (candidates : List Item) (r : Roll) : Turn :=
  let avatar := w.rollAvatar s r.dice
  let rarity := w.rollRarity s.rarities (level s) none avatar.2
  let checks := { s.checks with usableBy := false }
  let draft : Draft := { rarity := rarity.1, level := level s }
  if rarity.1.isValid then
    .ofDrawn r checks [] (fun token => World.draftOf token avatar.1 draft)
      (w.pickItem checks candidates draft avatar.1 rarity.2)
  else .ends { r with dice := rarity.2 }

theorem itemTurn_from (item : Item) (ms : List Mutation) : (itemTurn w s item ms r).From r := by
  by_cases abstract : item.isAbstract = true
  · simp only [itemTurn, abstract, if_true]
    split
    · exact Turn.ofDrawn_from ..
    · exact ⟨_, rfl⟩
  · simp only [itemTurn, abstract, Bool.false_eq_true, if_false]
    split <;> exact ⟨_, rfl⟩

theorem anyTurn_from (slot : EquipmentSlot) (rank : Int) : (anyTurn w s slot rank r).From r := by
  rw [anyTurn]
  split
  · exact ⟨_, rfl⟩
  · split
    · exact Turn.ofDrawn_from ..
    · exact ⟨_, rfl⟩

theorem tokenTurn_from (candidates : List Item) : (tokenTurn w s candidates r).From r := by
  rw [tokenTurn]
  split
  · exact Turn.ofDrawn_from ..
  · exact ⟨_, rfl⟩

theorem rollItem_eq_settle (item : Item) (ms : List Mutation) :
    rollItem w s item ms r = (itemTurn w s item ms r).settle w s := by
  by_cases abstract : item.isAbstract = true
  · simp only [rollItem_eq ms abstract, itemTurn, abstract, if_true]
    split
    · rcases standIn w s item r with ⟨_ | found, dice⟩ <;> rfl
    · rfl
  · simp only [rollItem, itemTurn, abstract, Bool.false_eq_true, if_false]
    rcases w.rollRarity s.rarities (level s) (some item) (w.rollAvatar s r.dice).2 with
      ⟨rarity, dice⟩
    by_cases valid : rarity.isValid = true
    · simp only [valid]
      rfl
    · simp only [valid]
      rfl

theorem rollToken_eq_settle (candidates : List Item) :
    rollToken w s candidates r = (tokenTurn w s candidates r).settle w s := by
  simp only [rollToken, tokenTurn]
  rcases w.rollRarity s.rarities (level s) none (w.rollAvatar s r.dice).2 with ⟨rarity, dice⟩
  by_cases valid : rarity.isValid = true
  · simp only [valid]
    generalize w.pickItem _ candidates _ _ _ = drawn
    rcases drawn with ⟨_ | token, dice⟩ <;> rfl
  · simp only [valid]
    rfl

private theorem queueAny_succ (slot : EquipmentSlot) (rank : Int) (n : Nat) (outcome : Outcome) :
    queueAny w s slot rank (n + 1) outcome r =
      match anyTurn w s slot rank r with
      | .ends r => (none, r)
      | .misses r => queueAny w s slot rank n outcome r
      | .picks o => queueAny w s slot rank n (outcome.union (o.answer w).1) (o.answer w).2 := by
  simp only [queueAny, anyTurn]
  split
  · rfl
  rcases w.rollRarity s.rarities (level s) none (w.rollAvatar s r.dice).2 with ⟨rarity, dice⟩
  by_cases valid : rarity.isValid = true
  · simp only [valid]
    generalize w.pickItem _ _ _ _ _ = drawn
    rcases drawn with ⟨_ | item, dice⟩ <;> rfl
  · simp only [valid]
    rfl

private theorem queueAny_eq_play (slot : EquipmentSlot) (rank : Int) (n : Nat) (outcome : Outcome) :
    queueAny w s slot rank n outcome r =
      Turn.play w (anyTurns w s slot rank n r) outcome r := by
  induction n generalizing r outcome with
  | zero => rfl
  | succ n ih =>
    rw [queueAny_succ, anyTurns]
    cases anyTurn w s slot rank r with
    | ends stopped => rfl
    | misses later => exact ih outcome
    | picks o => exact ih _

theorem rollAny_eq_close {slot : EquipmentSlot} {rank : Int} {count : Repeat}
    (asked : ¬(count.min < 1 ∨ rank < 0 ∨ slot = .invalid)) :
    let counted := count.roll r.dice
    let start : Roll := { r with dice := counted.2 }
    r.rollAny w s slot rank count = Turn.close w s
      (Turn.play w (anyTurns w s slot rank counted.1.toNat start) .noRoll start) := by
  intro counted start
  rw [rollAny, if_neg asked, ← queueAny_eq_play]
  simp only [counted, start]
  rcases queueAny w s slot rank _ _ _ with ⟨_ | outcome, last⟩ <;> rfl

end Roll

end Spoils
