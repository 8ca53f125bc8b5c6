import Mathlib.Data.List.FinRange
import Spoils.Proofs.Roll.Nesting

/-! Tables that try their entries at equal odds until one succeeds: what is tried in a draw, and
what the attempts leave behind. -/
namespace Spoils

/-- The walk after some draws of the dice. -/
def Walk.redrawn (walk : Walk) (dice : Dice) : Walk :=
  { walk with roll := { walk.roll with dice := dice } }

/-- An attempt at an entry of a table, with the walk that it begins with. -/
structure Attempt (w : World) (entries : List LootNode) where
  entry : Fin entries.length
  before : Walk

namespace Attempt
variable {w : World} {entries : List LootNode} {a : Attempt w entries}
  {draw : List (Attempt w entries)} {left among : List (Fin entries.length)}

def outcome (a : Attempt w entries) : Outcome := ((entries.get a.entry).select w a.before).1

def after (a : Attempt w entries) : Walk := ((entries.get a.entry).select w a.before).2

/-- The attempts lead in order from one walk to another: before each of them, and after the last
one, nothing but the dice moves. -/
def Lead : List (Attempt w entries) → Walk → Walk → Prop
  | [], walk, last => ∃ dice, last = walk.redrawn dice
  | a :: later, walk, last => (∃ dice, a.before = walk.redrawn dice) ∧ Lead later a.after last

theorem Lead.redrawn {walk last : Walk} (dice : Dice) (h : Lead draw (walk.redrawn dice) last) :
    Lead draw walk last := by
  cases draw with
  | nil => exact h
  | cons a draw => exact h

theorem Lead.append {more : List (Attempt w entries)} {walk middle last : Walk}
    (h : Lead draw walk middle) (h' : Lead more middle last) : Lead (draw ++ more) walk last := by
  induction draw generalizing walk with
  | nil =>
    obtain ⟨dice, rfl⟩ := h
    exact h'.redrawn dice
  | cons a draw ih => exact ⟨h.1, ih h.2⟩

/-- The attempts of a draw are made as they should be: no entry is tried twice, none after a
success, a failure leaves nothing behind, and without a success no entry is left out. -/
structure Thorough (among : List (Fin entries.length)) (draw : List (Attempt w entries)) :
    Prop where
  listed : ∀ a ∈ draw, a.entry ∈ among
  different : (draw.map (·.entry)).Nodup
  stops : ∀ a ∈ draw.dropLast, a.outcome.success = false
  clean : ∀ a ∈ draw, a.outcome.success = false → a.before.roll.OnlyTraced a.after.roll
  exhausts : (∀ a ∈ draw, a.outcome.success = false) → ∀ i ∈ among, ∃ a ∈ draw, a.entry = i

theorem Thorough.nil : Thorough [] ([] : List (Attempt w entries)) where
  listed _ h := nomatch h
  different := .nil
  stops _ h := nomatch h
  clean _ h := nomatch h
  exhausts _ _ h := nomatch h

theorem Thorough.single (listed : a.entry ∈ among) (success : a.outcome.success = true) :
    Thorough among [a] where
  listed _ h := List.mem_singleton.mp h ▸ listed
  different := List.nodup_singleton _
  stops _ h := nomatch h
  clean b h failed := by
    rw [List.mem_singleton.mp h, success] at failed
    cases failed
  exhausts failed := by
    rw [failed a (.head [])] at success
    cases success

theorem Thorough.cons (fresh : among.Nodup) (picked : among.Perm (a.entry :: left))
    (failed : a.outcome.success = false) (clean : a.before.roll.OnlyTraced a.after.roll)
    (later : Thorough left draw) : Thorough among (a :: draw) where
  listed b h := by
    refine picked.mem_iff.mpr ?_
    rcases List.mem_cons.mp h with rfl | h
    · exact .head left
    · exact .tail _ (later.listed b h)
  different := by
    have unused : a.entry ∉ left := (List.nodup_cons.mp (picked.nodup_iff.mp fresh)).1
    refine List.nodup_cons.mpr ⟨fun again => unused ?_, later.different⟩
    obtain ⟨b, hb, (same : b.entry = a.entry)⟩ := List.mem_map.mp again
    exact same ▸ later.listed b hb
  stops b h := by
    cases draw with
    | nil => cases h
    | cons c draw =>
      rcases List.mem_cons.mp h with rfl | h
      · exact failed
      · exact later.stops b h
  clean b h missed := by
    rcases List.mem_cons.mp h with rfl | h
    · exact clean
    · exact later.clean b h missed
  exhausts missed i hi := by
    rcases List.mem_cons.mp (picked.mem_iff.mp hi) with rfl | hi
    · exact ⟨a, .head draw, rfl⟩
    · obtain ⟨b, hb, same⟩ := later.exhausts (fun b hb => missed b (.tail a hb)) i hi
      exact ⟨b, .tail a hb, same⟩

end Attempt

namespace Branch
variable {w : World} {entries : List LootNode} {outcome : Outcome} {walk : Walk}

/-- A branch makes attempts at the entries, and succeeds if and only if one of them does. -/
structure Makes (attempts : List (Attempt w entries)) (walk : Walk) (result : Outcome × Walk) :
    Prop where
  lead : Attempt.Lead attempts walk result.2
  succeeds : result.1.success = true ↔ ∃ a ∈ attempts, a.outcome.success = true

theorem Makes.none (failed : outcome.success = false) (dice : Dice) :
    Makes ([] : List (Attempt w entries)) walk (outcome, walk.redrawn dice) where
  lead := ⟨dice, rfl⟩
  succeeds := by simp [failed]

open Attempt in
/-- As long as entries are left one of them is tried, and after a failure the others are. -/
theorem tryUntil_makes (p : Picker (Fin entries.length)) (heavy : ∀ e ∈ p.entries, 0 < e.2)
    (fresh : p.items.Nodup) (fuel : Nat) (enough : p.size ≤ fuel)
    (failures : outcome.success = false) (idle : walk.roll.queue = []) :
    ∃ draw : List (Attempt w entries), Thorough p.items draw ∧
      Makes draw walk
        (tryUntil fuel (p.map fun i => (entries.get i).select w) outcome walk) := by
  induction fuel generalizing p outcome walk with
  | zero =>
    have nothing : p.items = [] :=
      List.length_eq_zero_iff.mp (p.length_items.trans (Nat.le_zero.mp enough))
    exact ⟨[], nothing ▸ .nil, .none failures walk.roll.dice⟩
  | succ fuel ih =>
    rw [tryUntil]
    simp only [Walk.draw, Picker.pick_map]
    rcases hs : p.pick walk.roll.dice with ⟨_ | ⟨i, q⟩, dice⟩
    · exact ⟨[], Picker.pick_eq_none heavy (congrArg Prod.fst hs) ▸ .nil, .none failures dice⟩
    · obtain ⟨weight, -, perm⟩ := Picker.pick_perm (congrArg Prod.fst hs)
      have picked : p.items.Perm (i :: q.items) := perm.map _
      let a : Attempt w entries := ⟨i, walk.redrawn dice⟩
      have drawn : a.before = walk.redrawn dice := rfl
      have law : a.after.roll.queue = [] ∧
          (a.outcome.success = false → a.before.roll.OnlyTraced a.after.roll) :=
        (LootNode.select_obeys (Roll.failure_law w) (entries.get i) a.before).law idle
      change ∃ draw, Thorough p.items draw ∧ Makes draw walk
        (if a.outcome.success then (a.outcome, a.after)
          else tryUntil fuel (q.map _) (outcome.union a.outcome) a.after)
      split
      · rename_i success
        exact ⟨[a], .single (picked.mem_iff.mpr (.head q.items)) success,
          ⟨⟨_, drawn⟩, ⟨a.after.roll.dice, rfl⟩⟩, by simp [success]⟩
      · rename_i missed
        have failed : a.outcome.success = false := Bool.eq_false_iff.mpr missed
        have fewer : p.size = q.size + 1 := perm.length_eq
        have failing : (outcome.union a.outcome).success = false := by
          rw [Outcome.union, failures, failed, Bool.or_self]
        obtain ⟨draw, later, made⟩ := ih q (fun e he => heavy e (perm.mem_iff.mpr (.tail _ he)))
          (List.nodup_cons.mp (picked.nodup_iff.mp fresh)).2 (by omega) failing law.1
        refine ⟨a :: draw, .cons fresh picked failed (law.2 failed) later,
          ⟨⟨_, drawn⟩, made.lead⟩, ?_⟩
        rw [made.succeeds]
        simp [failed]

open Attempt in
private theorem tryAll_makes (idle : walk.roll.queue = []) :
    ∃ draw : List (Attempt w entries), Thorough (List.finRange entries.length) draw ∧
      Makes draw walk (tryAll (entries.map fun n => n.select w) walk) := by
  have listed : entries.map (fun n => n.select w) =
      (List.finRange entries.length).map fun i => (entries.get i).select w := by
    calc entries.map (fun n => n.select w)
        = ((List.finRange entries.length).map entries.get).map fun n => n.select w := by
          rw [List.map_get_finRange]
      _ = _ := List.map_map
  have items := Picker.items_uniform (List.finRange entries.length)
  rw [tryAll, List.length_map, listed, Picker.uniform_map]
  have made := tryUntil_makes (w := w) (Picker.uniform (List.finRange entries.length))
    (by simp [Picker.uniform]) (items.symm ▸ List.nodup_finRange _) entries.length
    (by simp [Picker.uniform, Picker.size]) (show Outcome.noRoll.success = false from rfl) idle
  rwa [items] at made

open Attempt in
theorem repeated_makes {branch : Branch} {fine : List (Attempt w entries) → Prop}
    (stays : branch.Obeys (Law.keeping fun r => r.queue = []))
    (makes : ∀ walk, walk.roll.queue = [] →
      ∃ draw : List (Attempt w entries), fine draw ∧ Makes draw walk (branch walk))
    (n : Nat) (outcome : Outcome) (idle : walk.roll.queue = []) :
    ∃ draws : List (List (Attempt w entries)), draws.length = n ∧ (∀ draw ∈ draws, fine draw) ∧
      Lead draws.flatten walk (repeated branch n outcome walk).2 ∧
      ((repeated branch n outcome walk).1.success = true ↔
        outcome.success = true ∨ ∃ a ∈ draws.flatten, a.outcome.success = true) := by
  induction n generalizing outcome walk with
  | zero => exact ⟨[], rfl, List.forall_mem_nil _, ⟨walk.roll.dice, rfl⟩, by simp [repeated]⟩
  | succ n ih =>
    obtain ⟨draw, good, here⟩ := makes walk idle
    obtain ⟨draws, rfl, allGood, lead, succeeds⟩ :=
      ih (outcome.union (branch walk).1) ((stays walk).law idle)
    refine ⟨draw :: draws, rfl, List.forall_mem_cons.mpr ⟨good, allGood⟩,
      here.lead.append lead, ?_⟩
    rw [repeated, succeeds, Outcome.union, Bool.or_eq_true, here.succeeds, List.flatten_cons]
    simp only [List.mem_append, or_and_right, exists_or, or_assoc]

end Branch

namespace LootNode
variable {w : World}

def rollTable (w : World) (spec : TableSpec) (entries : List LootNode) : Branch :=
  Branch.table w spec (entries.map fun n => (n.select w, n.weight))

private theorem select_table (head : NodeHead) (spec : TableSpec) (entries : List LootNode)
    (walk : Walk) :
    (LootNode.table head spec entries).select w walk =
      Branch.modified w head.modifiers (rollTable w spec entries) walk := by
  rw [select_eq_branch, branch, rollTable]

open Branch in
/-- Past its gates a table that tries all does so in each of its draws. -/
theorem rollTable_eq (spec : TableSpec) (entries : List LootNode) (walk : Walk)
    (tries : spec.method = .tryAll) (count : 1 ≤ spec.times.min) (listed : entries ≠ [])
    (shallow : walk.settings.depth ≤ w.maxDepth)
    (drops : (w.rollsDrop walk.settings spec.noDrop walk.roll.dice).1 = true) :
    rollTable w spec entries walk =
      Walk.deeper (fun walk =>
        repeated (tryAll (entries.map fun n => n.select w))
          (walk.draw spec.times.roll).1.toNat .noRoll (walk.draw spec.times.roll).2)
        (walk.draw (w.rollsDrop walk.settings spec.noDrop)).2 := by
  have gate : (decide (spec.times.min < 1) ||
      (entries.map fun n => (n.select w, n.weight)).isEmpty) = false := by
    simp [listed, count]
  have dropped : (walk.draw (w.rollsDrop walk.settings spec.noDrop)).1 = true := drops
  rw [rollTable, Branch.table, if_neg (by rw [gate]; exact Bool.false_ne_true), if_neg (by omega)]
  simp only [dropped, tries, Bool.not_true, Bool.false_eq_true, if_false, List.map_map]
  rfl

open Attempt Branch in
/-- A table that tries all, once it is not empty, not too deep and has passed its chance to drop,
makes the attempts of as many draws as were rolled, one draw after the other. In each of them the
entries are different whatever they weigh, an attempt that fails leaves nothing behind, and either
the last attempt is the first to succeed or every entry was tried. The table succeeds if and only if
one of the attempts does. -/
theorem rollTable_tries (spec : TableSpec) (entries : List LootNode) (walk : Walk)
    (tries : spec.method = .tryAll) (idle : walk.roll.queue = []) (count : 1 ≤ spec.times.min)
    (listed : entries ≠ []) (shallow : walk.settings.depth ≤ w.maxDepth)
    (drops : (w.rollsDrop walk.settings spec.noDrop walk.roll.dice).1 = true) :
    ∃ (draws : List (List (Attempt w entries))) (last : Walk),
      draws.length = (spec.times.roll
        (w.rollsDrop walk.settings spec.noDrop walk.roll.dice).2).1.toNat ∧
      (∀ draw ∈ draws, Thorough (List.finRange entries.length) draw) ∧
      Lead draws.flatten
        { walk with settings := { walk.settings with depth := walk.settings.depth + 1 } } last ∧
      (rollTable w spec entries walk).2 = { last with settings := walk.settings } ∧
      ((rollTable w spec entries walk).1.success = true ↔
        ∃ a ∈ draws.flatten, a.outcome.success = true) := by
  let entered : Walk :=
    { walk with settings := { walk.settings with depth := walk.settings.depth + 1 } }
  let rolled := spec.times.roll (w.rollsDrop walk.settings spec.noDrop walk.roll.dice).2
  let inside := repeated (tryAll (entries.map fun n => n.select w)) rolled.1.toNat .noRoll
    (entered.redrawn rolled.2)
  have opened : rollTable w spec entries walk =
      (inside.1, { inside.2 with settings :=
        { inside.2.settings with depth := inside.2.settings.depth - 1 } }) :=
    rollTable_eq spec entries walk tries count listed shallow drops
  have obeys (L : Law) (hL : L.Holds w) :
      ∀ b ∈ entries.map (fun n => n.select w), Branch.Obeys L b := by
    intro b hb
    obtain ⟨n, -, rfl⟩ := List.mem_map.mp hb
    exact select_obeys hL n
  obtain ⟨draws, length, good, lead, succeeds⟩ := repeated_makes
    (tryAll_obeys (Roll.idle_law w) (obeys _ (Roll.idle_law w)))
    (fun _ => tryAll_makes) rolled.1.toNat .noRoll
    (show (entered.redrawn rolled.2).roll.queue = [] from idle)
  have settled : (rollTable w spec entries walk).2.settings = walk.settings := by
    refine (table_obeys (Roll.any_law w) spec ?_ walk).settings
    rw [List.map_map]
    exact obeys _ (Roll.any_law w)
  refine ⟨draws, inside.2, length, good, lead.redrawn _, ?_, ?_⟩
  · rw [opened] at settled ⊢
    rw [← settled]
  · rw [opened]
    exact succeeds.trans (by simp [Outcome.noRoll])

open Attempt in
/-- The second entry weighs less than nothing, and the first one fails where no item was granted. -/
theorem rollTable_tries_weightless :
    let w : World := {}
    let spec : TableSpec := { method := .tryAll, times := ⟨2, 2⟩ }
    let entries : List LootNode :=
      [.drop { weight := 5 } (.copy 0 []), .drop { weight := -1 } (.vanityTitle ⟨3⟩)]
    let walk : Walk := ⟨{}, .start 7⟩
    ((LootNode.table {} spec entries).select w walk).1 = .succeeded ∧
      ∃ draws : List (List (Attempt w entries)), draws.length = 2 ∧
        (∀ draw ∈ draws, Thorough (List.finRange entries.length) draw) ∧
        ∃ a ∈ draws.flatten, a.outcome.success = true := by
  intro w spec entries walk
  have succeeds : ((LootNode.table {} spec entries).select w walk).1 = .succeeded := by
    decide +kernel
  obtain ⟨draws, last, length, thorough, -, -, made⟩ := rollTable_tries (w := w) spec entries walk
    rfl rfl (by decide) (by decide) (by decide) (by decide +kernel)
  refine ⟨succeeds, draws, length.trans (by decide +kernel), thorough, made.mp ?_⟩
  rw [select_table] at succeeds
  exact congrArg Outcome.success succeeds

end LootNode

end Spoils
