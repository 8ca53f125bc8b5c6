import Spoils.Proofs.Roll.Traces
import Spoils.Proofs.Roll.Turns

/-! What leaves draft: the items that wait whenever a leaf grants what waits. -/
namespace Spoils

namespace Roll
variable {w : World} {s : BranchSettings} {r r' : Roll} {log log' : List (Draft × List Mutation)}

def Turn.waiting (w : World) : Turn → List (Draft × List Mutation)
  | .ends _ | .misses _ => []
  | .picks o => (o.answer w).2.waiting

/-- The items that wait at the end of each of the turns of an item. -/
def itemsDrafted (w : World) (s : BranchSettings) (item : Item) (mutations : List Mutation) :
    Nat → Roll → List (Draft × List Mutation)
  | 0, _ => []
  | n + 1, r =>
    (itemTurn w s item mutations r).waiting w ++
      itemsDrafted w s item mutations n (r.rollItem w s item mutations).2

/-- The items that wait whenever a drop grants what waits. Other loot is no item. -/
def dropDrafted (w : World) (s : BranchSettings) (d : Drop) (r : Roll) :
    List (Draft × List Mutation) :=
  match d with
  | .item id count mutations =>
    match w.catalog.item? id with
    | none => []
    | some item =>
      let counted := count.roll r.dice
      itemsDrafted w s item mutations counted.1.toNat { r with dice := counted.2 }
  | .anyItem slot rank count =>
    if count.min < 1 ∨ rank < 0 ∨ slot = .invalid then []
    else
      let counted := count.roll r.dice
      match queueAny w s slot rank counted.1.toNat .noRoll { r with dice := counted.2 } with
      | (some _, r) => r.waiting
      | (none, _) => []
  | .copy source mutations =>
    match (r.workshop w s).source? source with
    | none => []
    | some d =>
      let m := r.mutate w s mutations { d with checks := d.copyChecks }
      if m.report.error then [] else (m.roll.pushCopy m.draft).2.waiting
  | _ => []

/-- Nothing waits in either roll, and between them the items of a log were drafted. -/
structure Logs (log : List (Draft × List Mutation)) (r r' : Roll) : Prop where
  accounts : Accounts log r r'
  idle : r'.queue = []

namespace Logs

/-- A step that grants nothing and leaves no trace. -/
theorem still (grants : r'.grants = r.grants) (traces : r'.traces = r.traces)
    (idle : r'.queue = []) : Logs [] r r' :=
  ⟨.of_eq traces (congrArg (List.filterMap _) grants), idle⟩

theorem refl (idle : r.queue = []) : Logs [] r r := .still rfl rfl idle

theorem trans {r'' : Roll} (h : Logs log r r') (h' : Logs log' r' r'') :
    Logs (log ++ log') r r'' :=
  ⟨h.accounts.trans h'.accounts, h'.idle⟩

/-- Only the grants and the traces of the first roll count. -/
theorem of_start {start : Roll} (h : Logs log start r') (grants : start.grants = r.grants)
    (traces : start.traces = r.traces) : Logs log r r' :=
  ⟨(Accounts.of_eq traces (congrArg (List.filterMap _) grants)).trans h.accounts, h.idle⟩

theorem finish (o : Outcome) (plain : ∀ g, Pending.other g ∈ r.queue → g.IsPlain) :
    Logs r.waiting r (r.finish w s o).2 :=
  ⟨finish_accounts s o plain, finish_queue o⟩

theorem finish_others {gs : List Grant} (plain : ∀ g ∈ gs, g.IsPlain)
    (waits : r.queue = gs.map .other) (o : Outcome) : Logs [] r (r.finish w s o).2 := by
  have none : r.waiting = [] := by
    rw [Roll.waiting, waits, List.filterMap_map]
    exact List.filterMap_eq_nil_iff.mpr fun _ _ => rfl
  refine none ▸ finish o fun g listed => ?_
  rw [waits] at listed
  obtain ⟨_, member, same⟩ := List.mem_map.mp listed
  cases same
  exact plain g member

theorem give {g : Grant} (plain : g.IsPlain) (idle : r.queue = []) :
    Logs [] r (r.give w s g).2 := by
  have waits : (r.push (.other g)).queue = [g].map .other := by
    rw [push, idle]
    rfl
  exact (finish_others (List.forall_mem_singleton.mpr plain) waits .succeeded).of_start rfl rfl

theorem giveAmount {make : Int → Grant} {amount : Int} (plain : (make amount).IsPlain)
    (idle : r.queue = []) : Logs [] r (r.giveAmount w s make amount).2 := by
  rw [Roll.giveAmount]
  split
  · exact refl idle
  · exact give plain idle

end Logs

private theorem Offer.answer_cases (w : World) (o : Offer) :
    (o.answer w).2 = o.before ∨ (o.answer w).2 = o.queued := by
  rw [answer, pushItem]
  split
  · exact .inr rfl
  · exact .inl rfl

private theorem Turn.settle_logs (t : Turn) (moved : t.From r) (idle : r.queue = []) :
    Logs (t.waiting w) r (t.settle w s).2 := by
  cases t with
  | ends stopped =>
    obtain ⟨dice, rfl⟩ := moved
    exact .still rfl rfl rfl
  | misses later =>
    obtain ⟨dice, rfl⟩ := moved
    exact .still rfl rfl idle
  | picks o =>
    obtain ⟨dice, before⟩ := moved
    rw [Turn.waiting, Turn.settle]
    rcases o.answer_cases w with refused | queued
    · refine (Logs.finish _ fun g listed => ?_).of_start ?_ ?_
      · rw [refused, before, idle] at listed
        cases listed
      · rw [refused, before]
      · rw [refused, before]
    · refine (Logs.finish _ fun g listed => ?_).of_start ?_ ?_
      · rw [queued, Offer.queued, push, before, idle] at listed
        cases List.mem_singleton.mp listed
      · rw [queued, Offer.queued, push, before]
      · rw [queued, Offer.queued, push, before]

private theorem times_rollItem_logs (item : Item) (ms : List Mutation) (n : Nat) (o : Outcome)
    (idle : r.queue = []) :
    Logs (itemsDrafted w s item ms n r) r (times (rollItem w s item ms) n o r).2 := by
  induction n generalizing o r with
  | zero => exact .refl idle
  | succ n ih =>
    have first : Logs _ r ((itemTurn w s item ms r).settle w s).2 :=
      (itemTurn w s item ms r).settle_logs (itemTurn_from item ms) idle
    rw [← rollItem_eq_settle] at first
    exact first.trans (ih _ first.idle)

theorem rollToken_logs (candidates : List Item) (idle : r.queue = []) :
    Logs ((tokenTurn w s candidates r).waiting w) r (r.rollToken w s candidates).2 := by
  rw [rollToken_eq_settle]
  exact Turn.settle_logs _ (tokenTurn_from candidates) idle

private theorem rollAny_logs (slot : EquipmentSlot) (rank : Int) (count : Repeat)
    (idle : r.queue = []) :
    Logs (dropDrafted w s (.anyItem slot rank count) r) r (r.rollAny w s slot rank count).2 := by
  by_cases nothing : count.min < 1 ∨ rank < 0 ∨ slot = .invalid
  · rw [dropDrafted, rollAny, if_pos nothing, if_pos nothing]
    exact .refl idle
  · let counted := count.roll r.dice
    rw [dropDrafted, rollAny, if_neg nothing, if_neg nothing]
    obtain ⟨last, ps, queued, -, ran⟩ := queueAny_queues (w := w) (s := s)
      (fun _ => Grant.IsPlain) (fun _ => True) slot rank counted.1.toNat .noRoll
      { r with dice := counted.2 }
    simp only
    generalize queueAny w s slot rank counted.1.toNat .noRoll { r with dice := counted.2 } = q at ran
    obtain ⟨_ | outcome, later⟩ := q
    · simp only at ran
      rw [ran]
      exact .still rfl rfl rfl
    · simp only at ran
      rw [ran]
      refine (Logs.finish outcome fun g listed => ?_).of_start rfl rfl
      simp only [idle, List.nil_append] at listed
      cases (queued _ listed).1 with
      | other plain => exact plain

private theorem rollCopy_logs (source : Int) (ms : List Mutation) (idle : r.queue = []) :
    Logs (dropDrafted w s (.copy source ms) r) r (r.rollCopy w s source ms).2 := by
  simp only [dropDrafted, rollCopy]
  cases (r.workshop w s).source? source with
  | none => exact .refl idle
  | some d =>
    simp only
    split
    · exact .still rfl rfl rfl
    · refine (Logs.finish _ fun g listed => ?_).of_start rfl rfl
      have waits : (r.mutate w s ms { d with checks := d.copyChecks }).roll.queue = [] := idle
      simp only [pushCopy, push, waits, List.nil_append, List.mem_singleton] at listed
      cases listed

theorem rollDrop_logs (d : Drop) (idle : r.queue = []) :
    Logs (dropDrafted w s d r) r (r.rollDrop w s d).2 := by
  cases d with
  | item id count ms =>
    simp only [dropDrafted, rollDrop]
    cases w.catalog.item? id with
    | none => exact .refl idle
    | some item =>
      have rolled := times_rollItem_logs (w := w) (s := s) item ms (count.roll r.dice).1.toNat .noRoll
        (r := { r with dice := (count.roll r.dice).2 }) idle
      exact rolled.of_start rfl rfl
  | anyItem slot rank count => exact rollAny_logs slot rank count idle
  | agent id count =>
    change Logs [] r (r.rollDrop w s (.agent id count)).2
    rw [rollDrop]
    split
    · exact .refl idle
    · let agent : Grant := .agent id (World.itemLevel s.level true)
      have plain : ∀ g ∈ List.replicate (count.roll r.dice).1.toNat agent, g.IsPlain := by
        intro g listed
        rw [List.eq_of_mem_replicate listed]
        rfl
      simp only [(times_pushGrant ..).2, idle, List.nil_append]
      exact .of_start (.finish_others plain List.map_replicate.symm _) rfl rfl
  | credits curve =>
    change Logs [] r (r.rollCredits w s curve).2
    rw [rollCredits]
    split
    · exact .refl idle
    · simp only
      split
      · exact .refl idle
      · refine .of_start (.give ?_ idle) rfl rfl
        rfl
  | experience curve =>
    change Logs [] r (r.giveExperience w s curve).2
    rw [giveExperience]
    split
    · exact .refl idle
    · exact .giveAmount rfl idle
  | powerPoints amount => exact .giveAmount rfl idle
  | health amount => exact .giveAmount rfl idle
  | endurance amount => exact .giveAmount rfl idle
  | realMoney coupon transaction amount => exact .giveAmount rfl idle
  | vanityTitle title =>
    change Logs [] r (r.rollDrop w s (.vanityTitle title)).2
    rw [rollDrop]
    split
    · exact .give rfl idle
    · exact .refl idle
  | vendorXp vendor amount => exact .giveAmount rfl idle
  | copy source ms => exact rollCopy_logs source ms idle
  | callback c =>
    change Logs [] r (r.rollDrop w s (.callback c)).2
    rw [rollDrop]
    split
    · exact .refl idle
    · exact .still rfl rfl idle

end Roll

end Spoils
