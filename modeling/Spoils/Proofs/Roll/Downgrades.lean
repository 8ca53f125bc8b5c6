import Spoils.Proofs.Affix.Body
import Spoils.Proofs.Picker
import Spoils.Proofs.Roll.Failure

/-! Abstract items: the rarity is lowered until one of the items that they stand for fits. -/
namespace Spoils

namespace Catalog
variable {c : Catalog} {first : PrototypeId}

/-- The rarity after a number of downgrades, as long as each of them leads somewhere. -/
def lowered (c : Catalog) (first : PrototypeId) : Nat → Option PrototypeId
  | 0 => if first.isValid then some first else none
  | k + 1 =>
    (c.lowered first k).bind fun rarity =>
      if (c.downgradeOf rarity).isValid then some (c.downgradeOf rarity) else none

theorem lowered_invalid (missing : first.isValid = false) (k : Nat) : c.lowered first k = none := by
  induction k with
  | zero => simp [lowered, missing]
  | succ k ih => rw [lowered, ih, Option.bind_none]

theorem lowered_succ (valid : first.isValid = true) (k : Nat) :
    c.lowered first (k + 1) = c.lowered (c.downgradeOf first) k := by
  induction k with
  | zero => simp [lowered, valid]
  | succ k ih => rw [lowered, ih, lowered]

end Catalog

namespace Roll
variable {w : World} {s : BranchSettings} {checks : Checks} {candidates : List Item}
  {avatar : PrototypeId} {d : Draft} {r : Roll}

def fitting (w : World) (checks : Checks) (candidates : List Item) (avatar : PrototypeId)
    (d : Draft) : List Item :=
  candidates.filter fun item => w.accepts checks (World.draftOf item avatar d)

/-- No candidate fits while the rarity of the draft was lowered less often than some number. -/
def Misses (w : World) (checks : Checks) (candidates : List Item) (avatar : PrototypeId)
    (d : Draft) (n : Nat) : Prop :=
  ∀ k < n, ∀ rarity ∈ w.catalog.lowered d.rarity k,
    fitting w checks candidates avatar { d with rarity := rarity } = []

/-- The draft misses once more than it does with the rarity below its own. -/
theorem Misses.succ {n : Nat} (valid : d.rarity.isValid = true)
    (here : fitting w checks candidates avatar d = [])
    (below : Misses w checks candidates avatar
      { d with rarity := w.catalog.downgradeOf d.rarity } n) :
    Misses w checks candidates avatar d (n + 1) := by
  intro k small rarity reached
  cases k with
  | zero =>
    rw [Catalog.lowered, if_pos valid] at reached
    cases reached
    exact here
  | succ k =>
    rw [Catalog.lowered_succ valid] at reached
    exact below k (Nat.lt_of_succ_lt_succ small) rarity reached

/-- Some candidate that fits is drawn, if there is any. -/
theorem pickItem_cases (w : World) (checks : Checks) (candidates : List Item)
    (avatar : PrototypeId) (d : Draft) (dice : Dice) :
    fitting w checks candidates avatar d = [] ∧
        (w.pickItem checks candidates d avatar dice).1 = none ∨
      ∃ found ∈ fitting w checks candidates avatar d,
        (w.pickItem checks candidates d avatar dice).1 = some found := by
  rcases drawn : (w.pickItem checks candidates d avatar dice).1 with _ | found
  · exact .inl ⟨Picker.pickOne_uniform_eq_none drawn, rfl⟩
  · have member := Picker.pickOne_mem drawn
    rw [Picker.items_uniform] at member
    exact .inr ⟨found, member, rfl⟩

/-- Either a candidate is drawn that fits at the first rarity where any does, or none fits within
the attempts. -/
theorem pickLowered_cases (w : World) (checks : Checks) (candidates : List Item)
    (avatar : PrototypeId) (attempts : Nat) (valid : d.rarity.isValid = true) (dice : Dice) :
    (∃ k < attempts, ∃ rarity, w.catalog.lowered d.rarity k = some rarity ∧
      Misses w checks candidates avatar d k ∧
      ∃ found ∈ fitting w checks candidates avatar { d with rarity := rarity },
        (pickLowered w checks candidates avatar attempts d dice).1 =
          some (found, { d with rarity := rarity })) ∨
    Misses w checks candidates avatar d attempts ∧
      (pickLowered w checks candidates avatar attempts d dice).1 = none := by
  induction attempts generalizing d dice with
  | zero => exact .inr ⟨fun k small => absurd small (Nat.not_lt_zero k), rfl⟩
  | succ attempts ih =>
    rw [pickLowered]
    have drawn := pickItem_cases w checks candidates avatar d dice
    rcases hp : w.pickItem checks candidates d avatar dice with ⟨picked, dice'⟩
    rw [hp] at drawn
    rcases drawn with ⟨nothing, rfl⟩ | ⟨found, fits, rfl⟩
    · simp only
      by_cases below : (w.catalog.downgradeOf d.rarity).isValid = true
      · simp only [if_pos below]
        let lower : Draft := { d with rarity := w.catalog.downgradeOf d.rarity }
        rcases ih (d := lower) below dice' with
          ⟨k, small, rarity, reached, before, picked⟩ | ⟨missed, failed⟩
        · exact .inl ⟨k + 1, Nat.succ_lt_succ small, rarity,
            (Catalog.lowered_succ valid k).trans reached, before.succ valid nothing, picked⟩
        · exact .inr ⟨missed.succ valid nothing, failed⟩
      · simp only [if_neg below]
        have ends := Catalog.lowered_invalid (c := w.catalog) (Bool.eq_false_iff.mpr below)
        refine .inr ⟨.succ valid nothing fun k _ rarity reached => ?_, trivial⟩
        rw [ends] at reached
        cases reached
    · refine .inl ⟨0, Nat.succ_pos attempts, d.rarity, if_pos valid, ?_, found, fits, rfl⟩
      exact fun k small => absurd small (Nat.not_lt_zero k)

theorem Becomes.sameBody {wanted : Bool} {g : Grant} (h : Becomes w s r (.item d [] wanted) g) :
    ∃ e, g = .item e ∧ d.SameBody e := by
  cases h with
  | item run clean =>
    refine ⟨_, rfl, ?_⟩
    rw [← run]
    change d.SameBody (r.attach w s d wanted).1
    rw [attach]
    split
    · exact Draft.rollAffixes_sameBody d r.dice
    · exact .refl d

theorem push_finish {p : Pending} (sure : p.IsSure) (idle : r.queue = []) (o : Outcome) :
    ∃ g dice traces, Becomes w s r p g ∧ (r.push p).finish w s o =
      (o, { r with dice := dice, traces := traces, grants := r.grants ++ [g] }) := by
  have waiting : (r.push p).queue = [p] := by rw [push, idle, List.nil_append]
  have cleared : (r.push p).clearQueue = r := by rw [clearQueue, push, ← idle]
  rw [finish_eq, waiting, cleared]
  simp only [grantAll, Bool.and_true]
  obtain ⟨dice, traces, h | ⟨g, became, h⟩⟩ := grantEntry_cases w s r p
  · have granted : (r.grantEntry w s p).1 = true := grantEntry_sure sure
    rw [h] at granted
    cases granted
  · refine ⟨g, dice, traces, became, ?_⟩
    rw [h, if_pos rfl]

theorem pushItem_finish (fits : w.accepts checks d = true) (idle : r.queue = []) :
    ∃ seed e dice traces, Draft.SameBody { d with seed := seed, checks := checks } e ∧
      (pushItem w d checks [] r).2.finish w s (pushItem w d checks [] r).1 = (.succeeded,
        { r with dice := dice, traces := traces, grants := r.grants ++ [.item e] }) := by
  rw [pushItem, if_pos fits]
  generalize r.dice.seed = drawn
  obtain ⟨g, dice, traces, became, finished⟩ := push_finish (w := w) (s := s)
    (r := { r with dice := drawn.2 })
    (p := .item { d with seed := drawn.1, checks := checks } [] true) rfl idle .succeeded
  obtain ⟨e, rfl, body⟩ := became.sameBody
  exact ⟨drawn.1, e, dice, traces, body, finished⟩

/-- What is drawn for an abstract item: one of its concrete descendants, with its draft. -/
def standIn (w : World) (s : BranchSettings) (item : Item) (r : Roll) :
    Option (Item × Draft) × Dice :=
  let avatar := w.rollAvatar s r.dice
  let rarity := w.rollRarity s.rarities (level s) none avatar.2
  pickLowered w s.checks (w.catalog.concreteUnder item.id) avatar.1 maxDowngrades
    (World.draftOf item avatar.1 { rarity := rarity.1, level := level s }) rarity.2

theorem rollItem_eq (ms : List Mutation) (abstract : item.isAbstract = true) :
    rollItem w s item ms r =
      let avatar := w.rollAvatar s r.dice
      let rarity := w.rollRarity s.rarities (level s) none avatar.2
      if rarity.1.isValid then
        match (standIn w s item r).1 with
        | none => (.failed, { r with dice := (standIn w s item r).2 })
        | some (found, d) =>
          let pushed := pushItem w (World.draftOf found avatar.1 d) s.checks ms
            { r with dice := (standIn w s item r).2 }
          pushed.2.finish w s pushed.1
      else abandon { r with dice := rarity.2 } := by
  simp only [rollItem, abstract, if_true, Bool.not_true, Bool.false_eq_true, if_false]
  by_cases valid :
      (w.rollRarity s.rarities (level s) none (w.rollAvatar s r.dice).2).1.isValid = true
  · rw [if_pos valid, valid, Bool.not_true, if_neg Bool.false_ne_true, standIn]
    generalize pickLowered w s.checks _ _ _ _ _ = lowered
    obtain ⟨_ | ⟨found, d⟩, dice⟩ := lowered
    · rfl
    · rfl
  · rw [if_neg valid, Bool.eq_false_iff.mpr valid]
    rfl

/-- An abstract item that is rolled without mutations while nothing waits is granted as one of its
concrete descendants, of the first rarity at which any of them passes the checks: the one that was
drawn, or one that it is lowered to in fewer than eight steps. Where none passes nothing is
granted. -/
theorem rollItem_abstract (w : World) (s : BranchSettings) (item : Item) (r : Roll)
    (abstract : item.isAbstract = true) (idle : r.queue = []) :
    let avatar := w.rollAvatar s r.dice
    let first := (w.rollRarity s.rarities (level s) none avatar.2).1
    let fits (rarity : PrototypeId) : List Item :=
      fitting w s.checks (w.catalog.concreteUnder item.id) avatar.1
        { rarity := rarity, level := level s }
    (∃ k < 8, ∃ rarity, w.catalog.lowered first k = some rarity ∧
      (∀ j < k, ∀ better ∈ w.catalog.lowered first j, fits better = []) ∧
      ∃ found ∈ fits rarity, ∃ e dice traces,
        e.item = found.id ∧ e.rarity = rarity ∧ e.level = level s ∧ e.slot = found.slot ∧
        e.rollFor = found.rollFor avatar.1 ∧
        rollItem w s item [] r = (.succeeded,
          { r with dice := dice, traces := traces, grants := r.grants ++ [.item e] })) ∨
    (∀ k < 8, ∀ rarity ∈ w.catalog.lowered first k, fits rarity = []) ∧
      ∃ dice, rollItem w s item [] r = (.failed, { r with dice := dice }) := by
  intro avatar first fits
  have opened := rollItem_eq (w := w) (s := s) (r := r) [] abstract
  by_cases valid : first.isValid = true
  · rw [if_pos valid] at opened
    rcases pickLowered_cases w s.checks (w.catalog.concreteUnder item.id) avatar.1 maxDowngrades
      (d := World.draftOf item avatar.1 { rarity := first, level := level s }) valid
      (w.rollRarity s.rarities (level s) none avatar.2).2 with
      ⟨k, small, rarity, reached, before, found, fit, picked⟩ | ⟨missed, nothing⟩
    · rw [show (standIn w s item r).1 = _ from picked] at opened
      obtain ⟨seed, e, dice, traces, body, finished⟩ := pushItem_finish (s := s)
        (r := { r with dice := (standIn w s item r).2 }) (List.mem_filter.mp fit).2 idle
      exact .inl ⟨k, small, rarity, reached, before, found, fit, e, dice, traces,
        body.item_eq, body.rarity_eq, body.level_eq, body.slot_eq, body.rollFor_eq,
        opened.trans finished⟩
    · rw [show (standIn w s item r).1 = _ from nothing] at opened
      exact .inr ⟨missed, _, opened⟩
  · rw [if_neg valid, abandon, clearQueue, ← idle] at opened
    refine .inr ⟨fun k _ rarity reached => ?_, _, opened⟩
    rw [Catalog.lowered_invalid (Bool.eq_false_iff.mpr valid)] at reached
    cases reached

/-- The only item there is has the rarity below the one that is drawn; no rarity is registered below
that. -/
theorem rollItem_abstract_second :
    let w : World := { catalog := {
      prototypes := .ofList [
        (⟨5⟩, .item { id := ⟨5⟩, isAbstract := true }),
        (⟨6⟩, .item { id := ⟨6⟩, parent := ⟨5⟩, restrictions := [.rarity [⟨8⟩]] }),
        (⟨7⟩, .rarity { id := ⟨7⟩, downgradeTo := ⟨8⟩, weightCurve := ⟨2⟩ }),
        (⟨8⟩, .rarity { id := ⟨8⟩, downgradeTo := ⟨9⟩ })]
      curves := .ofList [(⟨2⟩, .ofValues ⟨2⟩ 1 [1])] } }
    let item : Item := { id := ⟨5⟩, isAbstract := true }
    let r : Roll := .start 3
    (w.rollRarity .empty (level {}) none (w.rollAvatar {} r.dice).2).1 = ⟨7⟩ ∧
      ∃ e dice traces, e.item = ⟨6⟩ ∧ e.rarity = ⟨8⟩ ∧ rollItem w {} item [] r =
        (.succeeded, { r with dice := dice, traces := traces, grants := [.item e] }) := by
  intro w item r
  have drawn : (w.rollRarity .empty (level {}) none (w.rollAvatar {} r.dice).2).1 = ⟨7⟩ := by
    decide +kernel
  let fits (rarity : PrototypeId) : List Item :=
    fitting w (BranchSettings.checks {}) (w.catalog.concreteUnder item.id)
      (w.rollAvatar {} r.dice).1 { rarity := rarity, level := level {} }
  have drawnFits : (fits ⟨7⟩).map (·.id) = [] := by decide +kernel
  have belowFits : (fits ⟨8⟩).map (·.id) = [⟨6⟩] := by decide +kernel
  refine ⟨drawn, ?_⟩
  have rolled := rollItem_abstract w {} item r rfl rfl
  simp only at rolled
  rw [drawn] at rolled
  rcases rolled with
    ⟨k, -, rarity, reached, before, found, fit, e, dice, traces, item_eq, rarity_eq, -, -, -, run⟩ |
      ⟨missed, -⟩
  · rcases k with _ | _ | k
    · cases reached
      have none : found.id ∈ (fits ⟨7⟩).map (·.id) := List.mem_map_of_mem fit
      rw [drawnFits] at none
      cases none
    · cases reached
      have only : found.id ∈ (fits ⟨8⟩).map (·.id) := List.mem_map_of_mem fit
      rw [belowFits] at only
      exact ⟨e, dice, traces, item_eq.trans (List.mem_singleton.mp only), rarity_eq, run⟩
    · have nothing : fits ⟨8⟩ = [] := before 1 (by omega) ⟨8⟩ rfl
      rw [nothing] at belowFits
      cases belowFits
  · have nothing : fits ⟨8⟩ = [] := missed 1 (by decide) ⟨8⟩ rfl
    rw [nothing] at belowFits
    cases belowFits

end Roll

end Spoils
