import Spoils.Proofs.Picker
import Spoils.Proofs.Roll.Drops
import Spoils.Proofs.Table.Node

/-! Walks through trees: a law that holds of the single steps is obeyed by every tree. -/
namespace Spoils

/-- The avatars that a target goes to: the party, or the avatar of the branch where there is none. -/
def World.avatarsFor (w : World) (s : BranchSettings) : List PrototypeId :=
  if w.oracle.party.isEmpty && s.avatar.isValid then [s.avatar] else w.oracle.party

theorem World.length_avatarsFor_le (w : World) (s : BranchSettings) :
    (w.avatarsFor s).length ≤ max 1 w.oracle.party.length := by
  rw [avatarsFor]
  split
  · exact Nat.le_max_left ..
  · exact Nat.le_max_right ..

/-- A walk leads to another with an outcome: the law holds of the rolls, and the settings are
what they were. -/
structure Walk.Leads (L : Law) (walk : Walk) (outcome : Outcome) (walk' : Walk) : Prop where
  settings : walk'.settings = walk.settings
  law : L walk.settings outcome.success walk.roll walk'.roll

def LootNode.mutations : LootNode → List Mutation
  | .drop _ d => d.mutations
  | _ => []

/-- The tree applies allowed mutations only. -/
def LootNode.Applies (allowed : Mutation → Prop) (n : LootNode) : Prop :=
  ∀ m ∈ n.nodes, ∀ x ∈ m.mutations, allowed x

theorem LootNode.applies_all (n : LootNode) : n.Applies fun _ => True := fun _ _ _ _ => trivial

/-- Wherever the branch begins, the law holds of what it does. -/
def Branch.Obeys (L : Law) (b : Branch) : Prop := ∀ walk : Walk, walk.Leads L (b walk).1 (b walk).2

namespace Walk.Leads
variable {w : World} {L : Law} {allowed : Mutation → Prop} {gives : BranchSettings → Grant → Prop}
  {a b c : Walk} {o p : Outcome}

theorem trans (hL : L.Holds w allowed gives) (h : a.Leads L o b) (h' : b.Leads L p c) :
    a.Leads L (o.union p) c :=
  ⟨h'.settings.trans h.settings, hL.trans h.law (h.settings ▸ h'.law)⟩

theorem draw (hL : L.Holds w allowed gives) {α : Type} (f : Dice → α × Dice) (walk : Walk)
    (failed : o.success = false) : walk.Leads L o (walk.draw f).2 :=
  ⟨rfl, failed ▸ hL.draw walk.settings walk.roll _⟩

theorem stay (hL : L.Holds w allowed gives) (walk : Walk) (failed : o.success = false) : walk.Leads L o walk :=
  ⟨rfl, failed ▸ hL.draw walk.settings walk.roll walk.roll.dice⟩

theorem drawing (hL : L.Holds w allowed gives) {α : Type} (f : Dice → α × Dice) (h : a.Leads L o b) :
    a.Leads L o (b.draw f).2 := by
  have whole := h.trans hL (draw (o := .noRoll) hL f b rfl)
  refine ⟨whole.settings, ?_⟩
  have law := whole.law
  rwa [Outcome.union, Outcome.noRoll, Bool.or_false] at law

/-- A step that succeeds makes a success of failures before it. -/
theorem of_failed (hL : L.Holds w allowed gives) (h : a.Leads L o b) (failed : o.success = false)
    (h' : b.Leads L p c) : a.Leads L p c := by
  have whole := h.trans hL h'
  refine ⟨whole.settings, ?_⟩
  have law := whole.law
  rwa [Outcome.union, failed, Bool.false_or] at law

/-- What was drawn before does not count for the outcome. -/
theorem after (hL : L.Holds w allowed gives) {α : Type} {f : Dice → α × Dice} {x : α}
    (drawn : a.draw f = (x, b)) (h : b.Leads L o c) : a.Leads L o c := by
  have first := draw (o := .noRoll) hL f a rfl
  rw [drawn] at first
  exact first.of_failed hL rfl h

/-- An effect that the law allows may be left behind by a success. -/
theorem recording (hL : L.Holds w allowed gives) (h : a.Leads L o b) (granted : o.success = true) {e : Effect}
    (he : L a.settings true b.roll (b.roll.addEffect e)) : a.Leads L o (b.addEffect e) := by
  have whole := hL.trans h.law he
  rw [Bool.or_true] at whole
  exact ⟨h.settings, granted ▸ whole⟩

theorem under (walk : Walk) (settings : BranchSettings) {branch : Branch} (hb : branch.Obeys L)
    (lift : ∀ {ok r r'}, L settings ok r r' → L walk.settings ok r r') :
    walk.Leads L (walk.under settings branch).1 (walk.under settings branch).2 :=
  ⟨rfl, lift (hb { walk with settings := settings }).law⟩

theorem deeper (hL : L.Holds w allowed gives) {branch : Branch} (walk : Walk) (hb : branch.Obeys L) :
    walk.Leads L (Walk.deeper branch walk).1 (Walk.deeper branch walk).2 := by
  have inner := hb { walk with settings := { walk.settings with depth := walk.settings.depth + 1 } }
  refine ⟨?_, hL.deeper inner.law⟩
  simp only [Walk.deeper, inner.settings, Nat.add_sub_cancel]

end Walk.Leads

namespace Branch
variable {w : World} {L : Law} {allowed : Mutation → Prop} {gives : BranchSettings → Grant → Prop}
  {branch : Branch} {start walk : Walk} {outcome : Outcome}

private theorem repeated_leads (hL : L.Holds w allowed gives) (hb : branch.Obeys L) (n : Nat)
    (h : start.Leads L outcome walk) :
    start.Leads L (repeated branch n outcome walk).1 (repeated branch n outcome walk).2 := by
  induction n generalizing outcome walk with
  | zero => exact h
  | succ n ih => exact ih (h.trans hL (hb walk))

theorem every_leads (hL : L.Holds w allowed gives) (bs : List Branch) (hbs : ∀ b ∈ bs, b.Obeys L)
    (h : start.Leads L outcome walk) :
    start.Leads L (every bs outcome walk).1 (every bs outcome walk).2 := by
  induction bs generalizing outcome walk with
  | nil => exact h
  | cons b bs ih =>
    exact ih (fun b' hb' => hbs b' (.tail b hb')) (h.trans hL (hbs b (.head bs) walk))

private theorem weighted_leads (hL : L.Holds w allowed gives) (picker : Picker Branch)
    (hp : ∀ b ∈ picker.items, b.Obeys L) (n : Nat) (h : start.Leads L outcome walk) :
    start.Leads L (weighted picker n outcome walk).1 (weighted picker n outcome walk).2 := by
  induction n generalizing outcome walk with
  | zero => exact h
  | succ n ih =>
    have drawn := h.drawing hL picker.sample
    rw [weighted]
    split
    · rename_i next hd
      rw [hd] at drawn
      exact drawn
    · rename_i b next hd
      have sampled : (picker.sample walk.roll.dice).1 = some b := congrArg Prod.fst hd
      rw [hd] at drawn
      exact ih (drawn.trans hL (hp b (Picker.sample_mem sampled) next))

private theorem tryUntil_leads (hL : L.Holds w allowed gives) (fuel : Nat) (picker : Picker Branch)
    (hp : ∀ b ∈ picker.items, b.Obeys L) (failed : outcome.success = false)
    (h : start.Leads L outcome walk) :
    start.Leads L (tryUntil fuel picker outcome walk).1 (tryUntil fuel picker outcome walk).2 := by
  induction fuel generalizing picker outcome walk with
  | zero => exact h
  | succ fuel ih =>
    have drawn := h.drawing hL picker.pick
    rw [tryUntil]
    split
    · rename_i next hd
      rw [hd] at drawn
      exact drawn
    · rename_i b rest next hd
      have picked : (picker.pick walk.roll.dice).1 = some (b, rest) := congrArg Prod.fst hd
      obtain ⟨hb, left⟩ := Picker.pick_mem picked
      rw [hd] at drawn
      have tried := hp b hb next
      simp only
      -- Only failures are gathered: a success is the outcome alone.
      split
      · exact drawn.of_failed hL failed tried
      · rename_i missed
        refine ih rest (fun b' hb' => hp b' (left hb')) ?_ (drawn.trans hL tried)
        rw [Outcome.union, failed, Bool.eq_false_iff.mpr missed, Bool.or_false]

private theorem forAvatars_leads (hL : L.Holds w allowed gives) (hb : branch.Obeys L)
    (avatars : List PrototypeId) (h : start.Leads L outcome walk) :
    start.Leads L (forAvatars branch avatars outcome walk).1
      (forAvatars branch avatars outcome walk).2 := by
  induction avatars generalizing outcome walk with
  | nil => exact h
  | cons avatar avatars ih => exact ih (h.trans hL (.under walk _ hb (hL.forced avatar)))

theorem run_obeys {step : BranchSettings → Roll → Outcome × Roll}
    (h : ∀ s r, L s (step s r).1.success r (step s r).2) : Obeys L fun walk => walk.run step :=
  fun walk => ⟨rfl, h walk.settings walk.roll⟩

theorem firstTime_obeys (hL : L.Holds w allowed gives) (key : PrototypeId) (hb : branch.Obeys L) :
    Obeys L (firstTime w key branch) := by
  intro walk
  have target := hb walk
  simp only [firstTime]
  split
  · exact .stay hL walk rfl
  · rename_i unknown
    split
    · rename_i granted
      simp only [Bool.and_eq_true, Bool.not_eq_true', target.settings] at granted
      exact target.recording hL granted.1.1
        (hL.received _ _ key (Bool.eq_false_iff.mpr unknown) granted.1.2 granted.2)
    · exact target

theorem everyAvatar_eq (walk : Walk) : everyAvatar w branch walk =
    if (w.avatarsFor walk.settings).isEmpty then branch walk
    else forAvatars branch (w.avatarsFor walk.settings) .noRoll walk := rfl

theorem everyAvatar_obeys (hL : L.Holds w allowed gives) (hb : branch.Obeys L) :
    Obeys L (everyAvatar w branch) := by
  intro walk
  rw [everyAvatar_eq]
  split
  · exact hb walk
  · exact forAvatars_leads hL hb _ (.stay hL walk rfl)

theorem tryAll_obeys (hL : L.Holds w allowed gives) {branches : List Branch} (hbs : ∀ b ∈ branches, b.Obeys L) :
    Obeys L (tryAll branches) := by
  intro walk
  refine tryUntil_leads hL _ _ (fun b hb => hbs b ?_) rfl (.stay hL walk rfl)
  rwa [Picker.items_uniform] at hb

theorem table_obeys (hL : L.Holds w allowed gives) (spec : TableSpec) {branches : List (Branch × Int)}
    (hbs : ∀ b ∈ branches.map (·.1), b.Obeys L) : Obeys L (table w spec branches) := by
  intro walk
  rw [table]
  split
  · exact .stay hL walk rfl
  · split
    · exact .stay hL walk rfl
    · rcases hd : walk.draw (w.rollsDrop walk.settings spec.noDrop) with ⟨drops, next⟩
      refine .after hL hd ?_
      simp only
      split
      · exact run_obeys (fun s r => hL.finish_law s r .succeeded) next
      · refine .deeper hL next fun walk => ?_
        rcases hn : walk.draw spec.times.roll with ⟨n, next⟩
        refine .after hL hn ?_
        simp only
        split
        · exact weighted_leads hL _ hbs _ (.stay hL next rfl)
        · exact repeated_leads hL (tryAll_obeys hL hbs) _ (.stay hL next rfl)
        · refine repeated_leads hL (fun walk => ?_) _ (.stay hL next rfl)
          exact every_leads hL _ hbs (.stay hL walk rfl)

theorem reference_obeys (hL : L.Holds w allowed gives) (id : PrototypeId) (times : Repeat)
    {follow : LootNode → Branch}
    (hf : ∀ t, w.catalog.lootTable? id = some t → (follow t.root).Obeys L) :
    Obeys L (reference w id times follow) := by
  intro walk
  rw [reference]
  split
  · exact .stay hL walk rfl
  · rename_i t found
    split
    · exact .stay hL walk rfl
    · refine .deeper hL walk fun walk => ?_
      rcases hn : walk.draw times.roll with ⟨n, next⟩
      exact .after hL hn (repeated_leads hL (hf t found) _ (.stay hL next rfl))

theorem token_obeys (hL : L.Holds w allowed gives) (parent : PrototypeId) (filter : TokenFilter)
    {fallback : Option Branch} (hb : ∀ b ∈ fallback, b.Obeys L) :
    Obeys L (token w parent filter fallback) := by
  intro walk
  simp only [token]
  split
  · split
    · exact hb _ rfl walk
    · exact .stay hL walk rfl
  · exact run_obeys (fun s r => Roll.rollToken_law hL.toEnds s _ r) walk

theorem modified_obeys (hL : L.Holds w allowed gives) (modifiers : List Modifier) (hb : branch.Obeys L) :
    Obeys L (modified w modifiers branch) := by
  intro walk
  rw [modified]
  split
  · exact hb walk
  · rcases hd : walk.draw (Modifier.applyAll w modifiers walk.settings) with ⟨settings, next⟩
    have applied : (Modifier.applyAll w modifiers walk.settings walk.roll.dice).1 = settings :=
      congrArg Prod.fst hd
    have same : next.settings = walk.settings := (congrArg (·.2.settings) hd).symm
    refine .after hL hd ?_
    -- The branch runs under the settings that the modifiers leave with the dice before the draw.
    have lift {ok r r'} : L { settings with cooldown := none } ok r r' →
        L next.settings ok r r' := by
      rw [← applied, same]
      exact hL.modified modifiers walk.roll.dice
    have inner := Walk.Leads.under next { settings with cooldown := none } hb lift
    simp only
    split
    · exact .stay hL next rfl
    · rcases gate : settings.enforcedGate? with _ | g
      · simp only [Option.any_none, Bool.false_eq_true, if_false]
        exact inner
      · simp only [Option.any_some]
        split
        · exact .stay hL next rfl
        · rename_i ready
          split
          · rename_i granted
            have used r := hL.cooled walk.settings r modifiers walk.roll.dice g (applied ▸ gate)
              (Bool.eq_false_iff.mpr ready)
            exact inner.recording hL granted (same ▸ used _)
          · exact inner

end Branch

namespace LootNode
variable {w : World} {L : Law} {allowed : Mutation → Prop} {gives : BranchSettings → Grant → Prop}
  {follow : LootNode → Branch}

/-- Every node is a branch behind its modifiers. -/
theorem selectWith_eq_modified (w : World) (follow : LootNode → Branch) (n : LootNode) :
    ∃ b, selectWith w follow n = Branch.modified w n.modifiers b := by
  cases n with
  | action head kind key target => cases kind <;> exact ⟨_, by rw [selectWith]; rfl⟩
  | _ => exact ⟨_, by rw [selectWith]; rfl⟩

theorem select_eq_selectWith (w : World) (n : LootNode) (walk : Walk) :
    ∃ follow, n.select w walk = selectWith w follow n walk := by
  rw [select]
  cases w.maxDepth + 1 - walk.settings.depth with
  | zero => exact ⟨_, rfl⟩
  | succ fuel => exact ⟨_, rfl⟩

theorem branchesWith_eq_map (ns : List LootNode) :
    branchesWith w follow ns = ns.map fun n => (selectWith w follow n, n.weight) := by
  induction ns with
  | nil => rfl
  | cons n ns ih => rw [branchesWith, ih, List.map_cons]

theorem fallbackWith_eq (n : Option LootNode) :
    fallbackWith w follow n = n.map (selectWith w follow) := by
  cases n <;> rfl

theorem forall_mem_branchesWith {P : Branch → Prop} {ns : List LootNode}
    (h : ∀ n ∈ ns, P (selectWith w follow n)) : ∀ b ∈ (branchesWith w follow ns).map (·.1), P b := by
  rw [branchesWith_eq_map, List.map_map]
  exact List.forall_mem_map.mpr h

theorem forall_mem_fallbackWith {P : Branch → Prop} {n : Option LootNode}
    (h : ∀ m ∈ n, P (selectWith w follow m)) : ∀ b ∈ fallbackWith w follow n, P b := by
  intro b hb
  rw [fallbackWith_eq] at hb
  obtain ⟨m, instead, rfl⟩ := Option.map_eq_some_iff.mp hb
  exact h m instead

theorem selectWith_obeys (hL : L.Holds w allowed gives)
    (given : ∀ {s d g}, Drop.Gives w s d g → gives s g)
    (hf : ∀ id t, w.catalog.lootTable? id = some t → Branch.Obeys L (follow t.root))
    (n : LootNode) (applies : n.Applies allowed) : Branch.Obeys L (selectWith w follow n) := by
  induction n with
  | table head spec entries ih =>
    rw [selectWith]
    have entered := forall_mem_branchesWith fun n listed =>
      ih n listed (Child.forall_nodes (.entry listed) applies)
    exact Branch.modified_obeys hL _ (Branch.table_obeys hL spec entered)
  | reference head id times =>
    rw [selectWith]
    exact Branch.modified_obeys hL _ (Branch.reference_obeys hL id times (hf id))
  | action head kind key target ih =>
    have ht := ih (Child.forall_nodes .target applies)
    cases kind with
    | firstTime =>
      rw [selectWith]
      exact Branch.modified_obeys hL _ (Branch.firstTime_obeys hL key ht)
    | everyAvatar =>
      rw [selectWith]
      exact Branch.modified_obeys hL _ (Branch.everyAvatar_obeys hL ht)
  | token head parent filter fallback ih =>
    rw [selectWith]
    refine Branch.modified_obeys hL _ (Branch.token_obeys hL parent filter ?_)
    refine forall_mem_fallbackWith fun n instead => ih n instead ?_
    cases instead
    exact Child.forall_nodes .fallback applies
  | drop head d =>
    rw [selectWith]
    have listed : ∀ m ∈ d.mutations, allowed m := applies _ (mem_nodes_self (.drop head d))
    exact Branch.modified_obeys hL _ (Branch.run_obeys fun s =>
      Roll.rollDrop_law hL.toEnds s (fun _ => given) listed
        fun c r _ => hL.called s r c)

section
variable (hL : L.Holds w allowed gives) (given : ∀ {s d g}, Drop.Gives w s d g → gives s g)
  (known : ∀ id t, w.catalog.lootTable? id = some t → t.root.Applies allowed)
include hL given known

theorem selectAt_obeys_of (fuel : Nat) (n : LootNode) (applies : n.Applies allowed) :
    Branch.Obeys L (selectAt w fuel n) := by
  induction fuel generalizing n with
  | zero => exact selectWith_obeys hL given (fun _ _ _ walk => .stay hL walk rfl) n applies
  | succ fuel ih =>
    exact selectWith_obeys hL given (fun id t found => ih t.root (known id t found)) n applies

/-- A tree that applies allowed mutations, with tables that do, obeys the laws that hold of the
single steps. -/
theorem select_obeys_of (n : LootNode) (applies : n.Applies allowed) :
    Branch.Obeys L (n.select w) :=
  fun walk => selectAt_obeys_of hL given known _ n applies walk

end

theorem selectAt_obeys (hL : L.Holds w) (fuel : Nat) (n : LootNode) :
    Branch.Obeys L (selectAt w fuel n) :=
  selectAt_obeys_of hL Drop.Gives.isPlain (fun _ t _ => t.root.applies_all) fuel n n.applies_all

theorem select_obeys (hL : L.Holds w) (n : LootNode) : Branch.Obeys L (n.select w) :=
  fun walk => selectAt_obeys hL _ n walk

end LootNode

end Spoils
