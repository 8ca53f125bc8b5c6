import Mathlib.Data.List.Forall2
import Spoils.Proofs.Roll.Granting
import Spoils.Proofs.Roll.Law

/-! Traces account for every item that is granted or discarded: each goes through its stages in
order, once for every mutation that was begun, and the granted items are those that were
finalized. -/
namespace Spoils

/-- One stage stands before another in a trace: nothing follows an end, nothing goes back, and
nothing comes twice but a mutation. -/
structure Stage.Precedes (a b : Stage) : Prop where
  going : a.isTerminal = false
  forwards : a.order ≤ b.order
  again : a = b → a = .mutating

namespace Stage
variable {a b c : Stage}

private theorem precedes_of_canMoveTo (h : a.canMoveTo b = true) : a.Precedes b := by
  simp only [canMoveTo, Bool.and_eq_true, Bool.or_eq_true, Bool.not_eq_true', decide_eq_true_eq,
    beq_iff_eq] at h
  obtain ⟨going, further | ⟨rfl, rfl⟩⟩ := h
  · exact ⟨going, Nat.le_of_lt further, fun same => absurd (same ▸ further) (Nat.lt_irrefl _)⟩
  · exact ⟨going, Nat.le_refl _, fun _ => rfl⟩

private theorem eq_of_order_eq (ha : a.isTerminal = false) (hb : b.isTerminal = false)
    (same : a.order = b.order) : a = b := by
  cases a <;> cases b <;> simp_all [isTerminal, order]

theorem Precedes.trans (h : a.Precedes b) (h' : b.Precedes c) : a.Precedes c := by
  refine ⟨h.going, Nat.le_trans h.forwards h'.forwards, ?_⟩
  rintro rfl
  -- There and back again: both have one order, and neither is an end.
  have level : a.order = b.order := Nat.le_antisymm h.forwards h'.forwards
  exact h.again (eq_of_order_eq h.going h'.going level)

end Stage

namespace Trace

theorem current_append (item : PrototypeId) (stages : List Stage) (s : Stage) :
    current ⟨item, stages ++ [s]⟩ = s := by
  rw [current, List.getLast?_concat, Option.getD_some]

private theorem move_eq (t : Trace) (s : Stage) :
    t.move s = t ∨ t.current.Precedes s ∧ t.move s = { t with stages := t.stages ++ [s] } := by
  rw [move]
  split
  · rename_i allowed
    exact .inr ⟨Stage.precedes_of_canMoveTo allowed, rfl⟩
  · exact .inl rfl

/-- Whatever stages are asked for, those that a trace takes on stand in order behind its current
one. -/
theorem foldl_move (t : Trace) (requests : List Stage) :
    ∃ added, requests.foldl move t = { t with stages := t.stages ++ added } ∧
      (t.current :: added).Pairwise Stage.Precedes := by
  induction requests generalizing t with
  | nil => exact ⟨[], by simp, List.pairwise_singleton ..⟩
  | cons s requests ih =>
    obtain ⟨added, ends, ordered⟩ := ih (t.move s)
    rcases t.move_eq s with stays | ⟨before, moves⟩
    · rw [stays] at ends ordered
      exact ⟨added, by rw [List.foldl_cons, stays, ends], ordered⟩
    · rw [moves] at ends ordered
      rw [current_append] at ordered
      refine ⟨s :: added, ?_, List.pairwise_cons.mpr ⟨?_, ordered⟩⟩
      · rw [List.foldl_cons, moves, ends, List.append_assoc]
        rfl
      · intro later hl
        rcases List.mem_cons.mp hl with rfl | hl
        · exact before
        · exact before.trans (List.rel_of_pairwise_cons ordered hl)

/-- The trace of a queued item: it is selected and drafted, its mutations are begun one by one, and
it is finalized after all of them or discarded after the first or a later one. -/
def Records (t : Trace) (d : Draft) (ms : List Mutation) : Prop :=
  t.item = d.item ∧ ∃ begun last,
    t.stages = [.selecting, .drafting] ++ List.replicate begun .mutating ++ [last] ∧
      (last = .finalized ∧ begun = ms.length ∨
        last = .discarded ∧ 1 ≤ begun ∧ begun ≤ ms.length)

private theorem mutated_start (item : PrototypeId) (begun : Nat) :
    ((start item).move .drafting).mutated begun =
      ⟨item, [.selecting, .drafting] ++ List.replicate begun .mutating⟩ := by
  induction begun with
  | zero => rfl
  | succ begun ih =>
    rw [mutated, List.replicate_succ', List.foldl_append, ← mutated, ih, ← List.append_assoc]
    -- The last stage is the draft or a mutation before, and a mutation may follow either.
    cases begun with
    | zero => rfl
    | succ begun =>
      rw [List.replicate_succ', ← List.append_assoc, List.foldl_cons, List.foldl_nil, move,
        current_append]
      rfl

theorem move_mutated (item : PrototypeId) (begun : Nat) {last : Stage}
    (ends : last.isTerminal = true) :
    (((start item).move .drafting).mutated begun).move last =
      ⟨item, [.selecting, .drafting] ++ List.replicate begun .mutating ++ [last]⟩ := by
  rw [mutated_start]
  cases begun with
  | zero => cases last <;> first | rfl | cases ends
  | succ begun =>
    rw [List.replicate_succ', ← List.append_assoc, move, current_append]
    cases last <;> first | rfl | cases ends

end Trace

namespace Mutation
variable (k : Workshop)

/-- Without an error all mutations were begun; otherwise at least one was, and no more than there
are. -/
theorem applyEach_begun (ms : List Mutation) (c : Change) (clean : c.report.error = false) :
    if (applyEach k ms c).2.report.error then
      1 ≤ (applyEach k ms c).1 ∧ (applyEach k ms c).1 ≤ ms.length
    else (applyEach k ms c).1 = ms.length := by
  induction ms generalizing c with
  | nil => rw [applyEach, if_neg (by rw [clean]; decide)]; rfl
  | cons m ms ih =>
    rw [applyEach_cons]
    by_cases failed : (applyNext k m c).report.error = true
    · rw [if_pos failed, if_pos failed]
      exact ⟨Nat.le_refl 1, Nat.le_add_left ..⟩
    · rw [if_neg failed]
      have rest := ih _ (Bool.eq_false_iff.mpr failed)
      simp only [List.length_cons]
      split at rest
      · rw [if_pos ‹_›]
        omega
      · rw [if_neg ‹_›, rest]

end Mutation

/-- The item that an entry of the queue drafts, with the mutations that it waits for. -/
def Pending.drafted? : Pending → Option (Draft × List Mutation)
  | .item d ms _ => some (d, ms)
  | .other _ => none

namespace Roll
variable {w : World}

/-- From one roll to another the items of a log were drafted: there is a trace for each of them in
order, and as many items were granted as traces were finalized. -/
def Accounts (log : List (Draft × List Mutation)) (r r' : Roll) : Prop :=
  ∃ ts ds, r'.traces = r.traces ++ ts ∧ r'.drafts = r.drafts ++ ds ∧
    List.Forall₂ (fun e t => t.Records e.1 e.2) log ts ∧
    ts.countP (fun t => t.current == .finalized) = ds.length

namespace Accounts
variable {log log' : List (Draft × List Mutation)} {r r' r'' : Roll}

theorem of_eq (traces : r'.traces = r.traces) (drafts : r'.drafts = r.drafts) :
    Accounts [] r r' :=
  ⟨[], [], traces.trans (List.append_nil _).symm, drafts.trans (List.append_nil _).symm, .nil, rfl⟩

theorem trans (h : Accounts log r r') (h' : Accounts log' r' r'') :
    Accounts (log ++ log') r r'' := by
  obtain ⟨ts, ds, traces, drafts, records, count⟩ := h
  obtain ⟨ts', ds', traces', drafts', records', count'⟩ := h'
  refine ⟨ts ++ ts', ds ++ ds', ?_, ?_, List.rel_append records records', ?_⟩
  · rw [traces', traces, List.append_assoc]
  · rw [drafts', drafts, List.append_assoc]
  · rw [List.countP_append, List.length_append, count, count']

end Accounts

private theorem mutate_begun (s : BranchSettings) (ms : List Mutation) (d : Draft) (r : Roll) :
    if (r.mutate w s ms d).report.error then
      1 ≤ (r.mutate w s ms d).begun ∧ (r.mutate w s ms d).begun ≤ ms.length
    else (r.mutate w s ms d).begun = ms.length := by
  simp only [mutate, Mutation.applyAll_eq]
  exact Mutation.applyEach_begun _ ms ⟨.none, d, r.dice⟩ rfl

/-- A drafted item leaves its trace, and a grant unless it is discarded. -/
theorem finishItem_accounts (s : BranchSettings) (d : Draft) (ms : List Mutation)
    (wanted : Bool) (r : Roll) : Accounts [(d, ms)] r (r.finishItem w s d ms wanted).2 := by
  have moved := attach_mutate_roll (w := w) (s := s) (r := r) d ms wanted
  have begun := mutate_begun (w := w) s ms (r.attach w s d wanted).1 (r.attach w s d wanted).2
  generalize hm : (r.attach w s d wanted).2.mutate w s ms (r.attach w s d wanted).1 = m
    at moved begun
  simp only [finishItem, hm]
  by_cases failed : m.report.error = true
  · rw [if_pos failed] at begun ⊢
    rw [Trace.move_mutated _ _ rfl, moved]
    refine ⟨[_], [], rfl, (List.append_nil _).symm, .cons ?_ .nil, ?_⟩
    · exact ⟨rfl, m.begun, _, rfl, .inr ⟨rfl, begun⟩⟩
    · rw [List.countP_singleton, Trace.current_append]
      rfl
  · rw [if_neg failed] at begun ⊢
    rw [Trace.move_mutated _ _ rfl, moved]
    refine ⟨[_], [m.draft], rfl, List.filterMap_append, .cons ?_ .nil, ?_⟩
    · exact ⟨rfl, m.begun, _, rfl, .inl ⟨rfl, begun⟩⟩
    · rw [List.countP_singleton, Trace.current_append]
      rfl

theorem grantAll_accounts (s : BranchSettings) {ps : List Pending}
    (plain : ∀ g, Pending.other g ∈ ps → g.IsPlain) (r : Roll) :
    Accounts (ps.filterMap (·.drafted?)) r (grantAll w s ps r).2 := by
  induction ps generalizing r with
  | nil => exact .of_eq rfl rfl
  | cons p ps ih =>
    have rest := ih (fun g listed => plain g (.tail p listed)) (r.grantEntry w s p).2
    cases p with
    | item d ms wanted => exact (finishItem_accounts s d ms wanted r).trans rest
    | other g =>
      have kept : (r.grantEntry w s (.other g)).2.drafts = r.drafts := by
        have undrafted : g.draft? = none := plain g (.head ps)
        simp only [grantEntry, drafts, List.filterMap_append, List.filterMap_cons, undrafted,
          List.filterMap_nil, List.append_nil]
      have passed : Accounts [] r (r.grantEntry w s (.other g)).2 := .of_eq rfl kept
      exact passed.trans rest

/-- The items that wait, with their mutations. -/
def waiting (r : Roll) : List (Draft × List Mutation) := r.queue.filterMap (·.drafted?)

/-- Whatever waits, to grant it leaves one trace for each item. -/
theorem finish_accounts (s : BranchSettings) (o : Outcome) {r : Roll}
    (plain : ∀ g, Pending.other g ∈ r.queue → g.IsPlain) :
    Accounts r.waiting r (r.finish w s o).2 :=
  grantAll_accounts s plain r.clearQueue

end Roll

end Spoils
