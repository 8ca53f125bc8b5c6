import Spoils.Proofs.Roll.Turns

/-! Offers: the draft that a leaf hands on for an item that it picked is always queued. -/
namespace Spoils

namespace Roll
variable {w : World} {s : BranchSettings} {r : Roll}

private theorem Offer.queued_eq (o : Offer) :
    ∃ drawn, o.queued = { o.before with dice := drawn }.push o.pending :=
  ⟨o.before.dice.seed.2, rfl⟩

def Turn.Fits (w : World) (t : Turn) : Prop := ∀ o ∈ t.offers, o.Fits w

private theorem Turn.ofDrawn_fits {α : Type} {checks : Checks} {ms : List Mutation}
    {draft : α → Draft} {drawn : Option α × Dice}
    (fits : ∀ a, drawn.1 = some a → w.accepts checks (draft a) = true) :
    (ofDrawn r checks ms draft drawn).Fits w := by
  rcases drawn with ⟨_ | a, dice⟩
  · exact List.forall_mem_nil _
  · exact List.forall_mem_singleton.mpr (fits a rfl)

/-- What is drawn is a candidate that fits. -/
theorem mem_of_pickItem {checks : Checks} {candidates : List Item} {d : Draft}
    {avatar : PrototypeId} {dice : Dice} {item : Item}
    (drawn : (w.pickItem checks candidates d avatar dice).1 = some item) :
    item ∈ candidates ∧ w.accepts checks (World.draftOf item avatar d) = true := by
  rcases pickItem_cases w checks candidates avatar d dice with ⟨-, nothing⟩ | ⟨found, fit, same⟩
  · rw [nothing] at drawn
    cases drawn
  · rw [same] at drawn
    cases drawn
    exact List.mem_filter.mp fit

/-- An abstract item is checked at the rarity at which it is handed on. -/
private theorem itemTurn_fits (item : Item) (ms : List Mutation)
    (abstract : item.isAbstract = true) : (itemTurn w s item ms r).Fits w := by
  let avatar := w.rollAvatar s r.dice
  let rarity := w.rollRarity s.rarities (level s) none avatar.2
  simp only [itemTurn, abstract, if_true]
  by_cases valid : rarity.1.isValid = true
  · rw [if_pos valid]
    refine Turn.ofDrawn_fits fun picked drawn => ?_
    rcases pickLowered_cases w s.checks (w.catalog.concreteUnder item.id) avatar.1 maxDowngrades
      (d := World.draftOf item avatar.1 { rarity := rarity.1, level := level s }) valid rarity.2 with
      ⟨_, -, _, -, -, other, fit, lowered⟩ | ⟨-, missed⟩
    · cases drawn.symm.trans lowered
      exact (List.mem_filter.mp fit).2
    · cases drawn.symm.trans missed
  · rw [if_neg valid]
    exact List.forall_mem_nil _

/-- The candidates for a slot have it themselves, so the slot that is handed on is the one that was
checked. -/
private theorem anyTurn_fits (slot : EquipmentSlot) (rank : Int) :
    (anyTurn w s slot rank r).Fits w := by
  rw [anyTurn]
  split
  · exact List.forall_mem_nil _
  split
  · refine Turn.ofDrawn_fits fun item drawn => ?_
    obtain ⟨candidate, fits⟩ := mem_of_pickItem drawn
    have passes := (List.mem_filter.mp candidate).2
    simp only [Bool.and_eq_true, beq_iff_eq] at passes
    obtain ⟨⟨-, rfl⟩, -⟩ := passes
    exact fits
  · exact List.forall_mem_nil _

private theorem tokenTurn_fits (candidates : List Item) : (tokenTurn w s candidates r).Fits w := by
  rw [tokenTurn]
  split
  · exact Turn.ofDrawn_fits fun token drawn => (mem_of_pickItem drawn).2
  · exact List.forall_mem_nil _

/-- The roll with other dice, once the offers wait behind what waited before. -/
def awaiting (r : Roll) (os : List Offer) (dice : Dice) : Roll :=
  { r with dice := dice, queue := r.queue ++ os.map (·.pending) }

theorem awaiting_nil (r : Roll) (dice : Dice) : r.awaiting [] dice = { r with dice := dice } := by
  rw [awaiting, List.map_nil, List.append_nil]

theorem awaiting_self (r : Roll) : r.awaiting [] r.dice = r := by
  rw [awaiting_nil]

/-- What is handed on next waits before what is handed on later. -/
theorem awaiting_cons {o : Offer} {first : Dice} (before : o.before = { r with dice := first })
    (os : List Offer) (last : Dice) : o.queued.awaiting os last = r.awaiting (o :: os) last := by
  obtain ⟨drawn, queued⟩ := o.queued_eq
  rw [queued, before]
  simp only [awaiting, push, List.map_cons, List.append_assoc, List.singleton_append]

/-- An outcome once the offers are answered: every answer is a success. -/
def answered (outcome : Outcome) (os : List Offer) : Outcome :=
  if os.isEmpty then outcome else outcome.union .succeeded

private theorem answered_cons (outcome : Outcome) (o : Offer) (os : List Offer) :
    answered (outcome.union .succeeded) os = answered outcome (o :: os) := by
  cases os <;> simp [answered, Outcome.union, Outcome.succeeded]

/-- Turn by turn, everything that is handed on waits behind what waited before. -/
theorem play_anyTurns (slot : EquipmentSlot) (rank : Int) (n : Nat) (outcome : Outcome) :
    let turns := anyTurns w s slot rank n r
    let offers := turns.flatMap (·.offers)
    (∀ o ∈ offers, o.Fits w) ∧ ∃ dice, Turn.play w turns outcome r =
      (if turns.any (·.isEnd) then none else some (answered outcome offers),
        r.awaiting offers dice) := by
  induction n generalizing r outcome with
  | zero => exact ⟨List.forall_mem_nil _, r.dice, congrArg (Prod.mk _) (awaiting_self r).symm⟩
  | succ n ih =>
    have moved := anyTurn_from (w := w) (s := s) (r := r) slot rank
    have fit := anyTurn_fits (w := w) (s := s) (r := r) slot rank
    rw [anyTurns]
    cases turn : anyTurn w s slot rank r with
    | ends stopped =>
      rw [turn] at moved
      obtain ⟨dice, rfl⟩ := moved
      refine ⟨List.forall_mem_nil _, dice, ?_⟩
      exact congrArg (Prod.mk none) (awaiting_nil r dice).symm
    | misses later =>
      rw [turn] at moved
      obtain ⟨dice, rfl⟩ := moved
      exact ih outcome
    | picks o =>
      rw [turn] at moved fit
      obtain ⟨dice, before⟩ := moved
      have fits : o.Fits w := fit o (.head _)
      obtain ⟨later, last, played⟩ := ih (r := o.queued) (outcome.union .succeeded)
      have goesOn : Turn.after w (.picks o) = o.queued := congrArg Prod.snd fits.answer_eq
      simp only [goesOn]
      refine ⟨List.forall_mem_cons.mpr ⟨fits, later⟩, last, ?_⟩
      rw [Turn.play, fits.answer_eq]
      refine played.trans ?_
      rw [awaiting_cons before, answered_cons outcome o]
      rfl

/-- The leaves that pick an item and hand it on. -/
inductive Leaf
  | item (i : Item) (mutations : List Mutation) (abstract : i.isAbstract = true)
  | any (slot : EquipmentSlot) (rank : Int) (count : Repeat)
  | token (candidates : List Item)

namespace Leaf

def run (w : World) (s : BranchSettings) (r : Roll) : Leaf → Outcome × Roll
  | .item i mutations _ => r.rollItem w s i mutations
  | .any slot rank count => r.rollAny w s slot rank count
  | .token candidates => r.rollToken w s candidates

def turns (w : World) (s : BranchSettings) (r : Roll) : Leaf → List Turn
  | .item i mutations _ => [itemTurn w s i mutations r]
  | .any slot rank count =>
    if count.min < 1 ∨ rank < 0 ∨ slot = .invalid then []
    else
      let counted := count.roll r.dice
      anyTurns w s slot rank counted.1.toNat { r with dice := counted.2 }
  | .token candidates => [tokenTurn w s candidates r]

/-- Everything that the leaf hands on, in order. -/
def offers (w : World) (s : BranchSettings) (r : Roll) (l : Leaf) : List Offer :=
  (l.turns w s r).flatMap (·.offers)

/-- What the leaf comes to by its turns. -/
def play (w : World) (s : BranchSettings) (r : Roll) : Leaf → Outcome × Roll
  | .item i mutations _ => (itemTurn w s i mutations r).settle w s
  | .any slot rank count =>
    if count.min < 1 ∨ rank < 0 ∨ slot = .invalid then (.noRoll, r)
    else
      let counted := count.roll r.dice
      let start : Roll := { r with dice := counted.2 }
      Turn.close w s (Turn.play w (anyTurns w s slot rank counted.1.toNat start) .noRoll start)
  | .token candidates => (tokenTurn w s candidates r).settle w s

private theorem run_eq_play (l : Leaf) : l.run w s r = l.play w s r := by
  cases l with
  | item i ms abstract => exact rollItem_eq_settle i ms
  | any slot rank count =>
    rw [run, play]
    split
    · rw [rollAny, if_pos ‹_›]
    · exact rollAny_eq_close ‹_›
  | token candidates => exact rollToken_eq_settle candidates

end Leaf

/-- How a roll ends after some turns. What they handed on waits behind what waited before, and all of
it is granted at once; it is dropped only if a turn ended the leaf. -/
def Queues (w : World) (s : BranchSettings) (r : Roll) (turns : List Turn)
    (ended : Outcome × Roll) : Prop :=
  ∃ dice, let offers := turns.flatMap (·.offers)
    let last := r.awaiting offers dice
    if turns.any (·.isEnd) then ended = last.abandon
    else if offers.isEmpty then
      ended = last.finish w s .noRoll ∨ ended = (.noRoll, last) ∨ ended = (.failed, last)
    else ended = last.finish w s .succeeded

theorem queues_settle {t : Turn} (moved : t.From r) (fit : t.Fits w) :
    Queues w s r [t] (t.settle w s) := by
  cases t with
  | ends stopped =>
    obtain ⟨dice, rfl⟩ := moved
    exact ⟨dice, congrArg abandon (awaiting_nil r dice).symm⟩
  | misses later =>
    obtain ⟨dice, rfl⟩ := moved
    exact ⟨dice, .inr (.inr (congrArg (Prod.mk Outcome.failed) (awaiting_nil r dice).symm))⟩
  | picks o =>
    obtain ⟨dice, before⟩ := moved
    refine ⟨o.queued.dice, ?_⟩
    have waits : r.awaiting [o] o.queued.dice = o.queued := by
      rw [← awaiting_cons before, awaiting_self]
    rw [Turn.settle, (fit o (.head _)).answer_eq]
    exact congrArg (finish w s .succeeded) waits.symm

theorem queues_close (turns : List Turn) (first last : Dice) :
    let offers := turns.flatMap (·.offers)
    let start : Roll := { r with dice := first }
    Queues w s r turns (Turn.close w s
      (if turns.any (·.isEnd) then none else some (answered .noRoll offers),
        start.awaiting offers last)) := by
  refine ⟨last, ?_⟩
  simp only
  split
  · rfl
  · rw [answered]
    split
    · exact .inl rfl
    · rfl

/-- An abstract item, the items of a slot and tokens are rolled turn by turn. Whatever a turn picks,
the draft that is handed on passes the checks that are handed on with it: the answer is a success,
and the draft waits, behind what waited before and in the order in which the items were picked, until
all of it is granted or a turn ends the leaf. -/
theorem offers_queued (w : World) (s : BranchSettings) (l : Leaf) (r : Roll) :
    l.run w s r = l.play w s r ∧
    (∀ o ∈ l.offers w s r,
      w.accepts o.checks o.draft = true ∧ o.answer w = (.succeeded, o.queued)) ∧
    Queues w s r (l.turns w s r) (l.run w s r) := by
  suffices sound : (∀ o ∈ l.offers w s r, o.Fits w) ∧
      Queues w s r (l.turns w s r) (l.play w s r) by
    rw [l.run_eq_play]
    exact ⟨rfl, fun o listed => ⟨sound.1 o listed, (sound.1 o listed).answer_eq⟩, sound.2⟩
  cases l with
  | item i ms abstract =>
    rw [Leaf.offers, Leaf.turns, List.flatMap_singleton]
    have fit := itemTurn_fits (w := w) (s := s) (r := r) i ms abstract
    exact ⟨fit, queues_settle (itemTurn_from i ms) fit⟩
  | any slot rank count =>
    simp only [Leaf.offers, Leaf.turns, Leaf.play]
    split
    · exact ⟨List.forall_mem_nil _, r.dice, .inr (.inl (by rw [List.flatMap_nil, awaiting_self]))⟩
    · obtain ⟨fits, last, played⟩ := play_anyTurns (w := w) (s := s)
        (r := { r with dice := (count.roll r.dice).2 }) slot rank (count.roll r.dice).1.toNat .noRoll
      rw [played]
      exact ⟨fits, queues_close _ _ last⟩
  | token candidates =>
    rw [Leaf.offers, Leaf.turns, List.flatMap_singleton]
    have fit := tokenTurn_fits (w := w) (s := s) (r := r) candidates
    exact ⟨fit, queues_settle (tokenTurn_from candidates) fit⟩

/-- One of the two items of the slot may only drop at a rarity that there is not. -/
theorem offers_queued_slot :
    let w : World := { catalog := {
      prototypes := .ofList [
        (⟨5⟩, .item { id := ⟨5⟩, slot := .gear1, restrictions := [.rarity [⟨7⟩]] }),
        (⟨6⟩, .item { id := ⟨6⟩, slot := .gear1, restrictions := [.rarity [⟨9⟩]] }),
        (⟨7⟩, .rarity { id := ⟨7⟩, weightCurve := ⟨2⟩ })]
      curves := .ofList [(⟨2⟩, .ofValues ⟨2⟩ 1 [1])] } }
    let l : Leaf := .any .gear1 3 ⟨2, 2⟩
    let r : Roll := .start 3
    (w.catalog.concreteForSlot .gear1 .none).map (·.id) = [⟨5⟩, ⟨6⟩] ∧
      (l.offers w {} r).map (·.draft.item) = [⟨5⟩, ⟨5⟩] ∧
      (l.turns w {} r).any (·.isEnd) = false ∧
      (∀ o ∈ l.offers w {} r, o.answer w = (.succeeded, o.queued)) ∧
      Queues w {} r (l.turns w {} r) (l.run w {} r) := by
  intro w l r
  obtain ⟨-, answers, queued⟩ := offers_queued w {} l r
  exact ⟨by decide +kernel, by decide +kernel, by decide +kernel,
    fun o listed => (answers o listed).2, queued⟩

end Roll

end Spoils
