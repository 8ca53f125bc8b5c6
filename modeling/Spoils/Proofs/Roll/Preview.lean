import Spoils.Proofs.Roll.Modifiers
import Spoils.Proofs.Roll.Overlooked
import Spoils.Proofs.Roll.Trees

/-! Previews: they leave no effects, and roll what the same roll in earnest would. -/
namespace Spoils

theorem BranchSettings.enforcedGate?_of_isPreview {s : BranchSettings}
    (preview : s.isPreview = true) : s.enforcedGate? = none := by
  have marked : s.flags.intersects (Flags.union DropFlags.ignoreCooldown DropFlags.previewOnly) =
      true := by
    refine Bool.not_eq_false _ ▸ fun apart => ?_
    exact absurd (Flags.apart_of_contains preview apart) (by decide)
  rw [enforcedGate?, enforcesCooldown, marked, Bool.not_true, Bool.and_false, if_neg (by decide)]

private theorem Roll.preview_law (w : World) :
    Law.Holds w fun s _ r r' => s.isPreview = true → r'.effects = r.effects where
  draw _ _ _ _ := rfl
  trans h h' preview := (h' preview).trans (h preview)
  granted _ _ _ o _ _ _ _ := finish_effects o
  abandoned _ _ _ := rfl
  deeper := id
  forced _ := id
  modified modifiers dice h preview := h ((Modifier.applyAll_isPreview modifiers).trans preview)
  called s r c preview := by rw [if_pos preview]
  received _ _ _ _ _ earnest preview := by cases earnest.symm.trans preview
  cooled s r modifiers dice gate asked _ preview := by
    have still : (Modifier.applyAll w modifiers s dice).1.isPreview = true :=
      (Modifier.applyAll_isPreview modifiers).trans preview
    cases asked.symm.trans (BranchSettings.enforcedGate?_of_isPreview still)

/-- Two walks differ in whether they are previews and in their effects at most. -/
structure Walk.Twins (a b : Walk) : Prop where
  settings : a.settings.earnest = b.settings.earnest
  roll : a.roll.silent = b.roll.silent

/-- Two steps ended with one outcome, at twins. -/
structure Walk.EndTwins (x y : Outcome × Walk) : Prop where
  outcome : x.1 = y.1
  walks : x.2.Twins y.2

/-- From twins a branch leads to twins. -/
def Branch.KeepsTwins (branch : Branch) : Prop :=
  ∀ ⦃a b : Walk⦄, a.Twins b → Walk.EndTwins (branch a) (branch b)

namespace Walk.Twins
variable {a b : Walk}

theorem dice (h : a.Twins b) : a.roll.dice = b.roll.dice := by
  have same : a.roll.silent.dice = b.roll.silent.dice := by rw [h.roll]
  exact same

theorem draw (h : a.Twins b) {α : Type} (f : Dice → α × Dice) :
    ∃ x a' b', a.draw f = (x, a') ∧ b.draw f = (x, b') ∧ a'.Twins b' := by
  have same : f a.roll.dice = f b.roll.dice := congrArg f h.dice
  refine ⟨(f a.roll.dice).1, (a.draw f).2, (b.draw f).2, rfl, ?_, h.settings, ?_⟩
  · rw [same]
    rfl
  · have moved : { a.roll.silent with dice := (f a.roll.dice).2 } =
        { b.roll.silent with dice := (f b.roll.dice).2 } := by rw [h.roll, same]
    exact moved

/-- What overlooks previews reads the same from the settings of twins. -/
theorem reads (h : a.Twins b) {α : Type} (f : BranchSettings → α) (blind : ∀ s, f s.earnest = f s) :
    f a.settings = f b.settings := by
  rw [← blind, h.settings, blind]

theorem changing (h : a.Twins b) (f : BranchSettings → BranchSettings)
    (commutes : ∀ s, (f s).earnest = f s.earnest) :
    Twins { a with settings := f a.settings } { b with settings := f b.settings } := by
  refine ⟨?_, h.roll⟩
  rw [commutes, h.settings, ← commutes]

theorem apply (h : a.Twins b) (w : World) (ms : List Modifier) :
    ∃ s s' a' b', a.draw (Modifier.applyAll w ms a.settings) = (s, a') ∧
      b.draw (Modifier.applyAll w ms b.settings) = (s', b') ∧ s.earnest = s'.earnest ∧
      a'.Twins b' := by
  have ha := Modifier.applyAll_earnest w a.settings a.roll.dice ms
  have hb := Modifier.applyAll_earnest w b.settings b.roll.dice ms
  rw [h.settings, h.dice, hb, ← h.dice] at ha
  obtain ⟨settings, left⟩ := Prod.mk.inj ha
  refine ⟨_, _, _, _, rfl, rfl, ?_, h.settings, ?_⟩
  · rw [← h.dice]
    exact settings.symm
  · have moved : { a.roll.silent with dice := (Modifier.applyAll w ms a.settings a.roll.dice).2 } =
        { b.roll.silent with dice := (Modifier.applyAll w ms b.settings b.roll.dice).2 } := by
      rw [h.roll, ← left, h.dice]
    exact moved

end Walk.Twins

namespace Walk.EndTwins
variable {x y z : Outcome × Walk}

theorem symm (h : EndTwins x y) : EndTwins y x :=
  ⟨h.outcome.symm, h.walks.settings.symm, h.walks.roll.symm⟩

theorem trans (h : EndTwins x y) (h' : EndTwins y z) : EndTwins x z :=
  ⟨h.outcome.trans h'.outcome, h.walks.settings.trans h'.walks.settings,
    h.walks.roll.trans h'.walks.roll⟩

/-- An effect more or less makes no difference. -/
theorem adding (x : Outcome × Walk) (e : Effect) : EndTwins (x.1, x.2.addEffect e) x :=
  ⟨rfl, rfl, rfl⟩

end Walk.EndTwins

namespace Branch
variable {w : World} {branch : Branch} {a b : Walk}

private theorem run_twins {step : BranchSettings → Roll → Outcome × Roll}
    (h : Roll.Overlooks step) : KeepsTwins fun walk => walk.run step := by
  intro a b twins
  have same := (h a.settings a.roll).symm.trans
    ((congr (congrArg step twins.settings) twins.roll).trans (h b.settings b.roll))
  obtain ⟨outcome, roll⟩ := Prod.mk.inj same
  exact ⟨outcome, twins.settings, roll⟩

private theorem deeper_twins (hb : branch.KeepsTwins) : KeepsTwins (Walk.deeper branch) := by
  intro a b twins
  have inner := hb (twins.changing (fun s => { s with depth := s.depth + 1 }) fun _ => rfl)
  exact ⟨inner.outcome,
    inner.walks.changing (fun s => { s with depth := s.depth - 1 }) fun _ => rfl⟩

private theorem under_twins (hb : branch.KeepsTwins) (twins : a.Twins b) {s s' : BranchSettings}
    (same : s.earnest = s'.earnest) : Walk.EndTwins (a.under s branch) (b.under s' branch) := by
  have within : Walk.Twins { a with settings := s } { b with settings := s' } := ⟨same, twins.roll⟩
  have inner := hb within
  exact ⟨inner.outcome, twins.settings, inner.walks.roll⟩

private theorem repeated_twins (hb : branch.KeepsTwins) (n : Nat) (o : Outcome) :
    KeepsTwins (repeated branch n o) := by
  induction n generalizing o with
  | zero => exact fun _ _ twins => ⟨rfl, twins⟩
  | succ n ih =>
    intro a b twins
    obtain ⟨same, next⟩ := hb twins
    simp only [repeated, same]
    exact ih _ next

private theorem every_twins (bs : List Branch) (hbs : ∀ b ∈ bs, b.KeepsTwins) (o : Outcome) :
    KeepsTwins (every bs o) := by
  induction bs generalizing o with
  | nil => exact fun _ _ twins => ⟨rfl, twins⟩
  | cons b bs ih =>
    intro _ _ twins
    obtain ⟨same, next⟩ := hbs b (.head bs) twins
    simp only [every, same]
    exact ih (fun b' hb' => hbs b' (.tail b hb')) _ next

private theorem weighted_twins (picker : Picker Branch) (hp : ∀ b ∈ picker.items, b.KeepsTwins)
    (n : Nat) (o : Outcome) : KeepsTwins (weighted picker n o) := by
  induction n generalizing o with
  | zero => exact fun _ _ twins => ⟨rfl, twins⟩
  | succ n ih =>
    intro a b twins
    obtain ⟨drawn, a', b', ha, hb, next⟩ := twins.draw picker.sample
    rw [weighted, weighted, ha, hb]
    cases drawn with
    | none => exact ⟨rfl, next⟩
    | some br =>
      obtain ⟨same, later⟩ := hp br (Picker.sample_mem (congrArg Prod.fst ha)) next
      simp only [same]
      exact ih _ later

private theorem tryUntil_twins (fuel : Nat) (picker : Picker Branch)
    (hp : ∀ b ∈ picker.items, b.KeepsTwins) (o : Outcome) :
    KeepsTwins (tryUntil fuel picker o) := by
  induction fuel generalizing picker o with
  | zero => exact fun _ _ twins => ⟨rfl, twins⟩
  | succ fuel ih =>
    intro a b twins
    obtain ⟨drawn, a', b', ha, hb, next⟩ := twins.draw picker.pick
    rw [tryUntil, tryUntil, ha, hb]
    cases drawn with
    | none => exact ⟨rfl, next⟩
    | some x =>
      obtain ⟨mem, left⟩ := Picker.pick_mem (congrArg Prod.fst ha)
      obtain ⟨same, later⟩ := hp x.1 mem next
      simp only [same]
      split
      · exact ⟨rfl, later⟩
      · exact ih x.2 (fun b' hb' => hp b' (left hb')) _ later

private theorem tryAll_twins {bs : List Branch} (hbs : ∀ b ∈ bs, b.KeepsTwins) :
    KeepsTwins (tryAll bs) := by
  refine tryUntil_twins _ _ (fun b hb => hbs b ?_) .noRoll
  rwa [Picker.items_uniform] at hb

private theorem forAvatars_twins (hb : branch.KeepsTwins) (avatars : List PrototypeId)
    (o : Outcome) : KeepsTwins (forAvatars branch avatars o) := by
  induction avatars generalizing o with
  | nil => exact fun _ _ twins => ⟨rfl, twins⟩
  | cons avatar avatars ih =>
    intro a b twins
    have forced := twins.changing
      (fun s => { s with avatar := avatar, forceUsable := true }) fun _ => rfl
    obtain ⟨same, next⟩ := under_twins hb twins forced.settings
    simp only [forAvatars, same]
    exact ih _ next

private theorem firstTime_twins (key : PrototypeId) (hb : branch.KeepsTwins) :
    KeepsTwins (firstTime w key branch) := by
  intro a b twins
  have target := hb twins
  simp only [firstTime]
  split
  · exact ⟨rfl, twins⟩
  · have marked (x : Outcome × Walk) (due : Bool) : Walk.EndTwins
        (if due = true then (x.1, x.2.addEffect (.markReceived key)) else x) x := by
      cases due with
      | false => exact ⟨rfl, rfl, rfl⟩
      | true => exact .adding x _
    exact ((marked _ _).trans target).trans (marked _ _).symm

private theorem everyAvatar_twins (hb : branch.KeepsTwins) : KeepsTwins (everyAvatar w branch) := by
  intro a b twins
  have avatars := twins.reads w.avatarsFor fun _ => rfl
  rw [everyAvatar_eq, everyAvatar_eq, avatars]
  split
  · exact hb twins
  · exact forAvatars_twins hb _ .noRoll twins

private theorem table_twins (spec : TableSpec) {branches : List (Branch × Int)}
    (hbs : ∀ b ∈ branches.map (·.1), b.KeepsTwins) : KeepsTwins (table w spec branches) := by
  intro a b twins
  have depth : a.settings.depth = b.settings.depth := twins.reads (·.depth) fun _ => rfl
  have drops := twins.reads w.rollsDrop w.rollsDrop_earnest
  rw [table, table, depth, drops]
  split
  · exact ⟨rfl, twins⟩
  · split
    · exact ⟨rfl, twins⟩
    · obtain ⟨dropped, a', b', ha, hb, next⟩ := twins.draw (w.rollsDrop b.settings spec.noDrop)
      rw [ha, hb]
      simp only
      split
      · exact run_twins (Roll.finish_overlooks .succeeded) next
      · refine deeper_twins (fun a b twins => ?_) next
        obtain ⟨n, a', b', ha, hb, next⟩ := twins.draw spec.times.roll
        rw [ha, hb]
        simp only
        split
        · exact weighted_twins ⟨branches⟩ hbs _ _ next
        · exact repeated_twins (tryAll_twins hbs) _ _ next
        · exact repeated_twins (every_twins _ hbs _) _ _ next

private theorem reference_twins (id : PrototypeId) (times : Repeat) {follow : LootNode → Branch}
    (hf : ∀ n, (follow n).KeepsTwins) : KeepsTwins (reference w id times follow) := by
  intro a b twins
  have depth : a.settings.depth = b.settings.depth := twins.reads (·.depth) fun _ => rfl
  rw [reference, reference, depth]
  split
  · exact ⟨rfl, twins⟩
  · rename_i t _
    split
    · exact ⟨rfl, twins⟩
    · refine deeper_twins (fun a b twins => ?_) twins
      obtain ⟨n, a', b', ha, hb, next⟩ := twins.draw times.roll
      rw [ha, hb]
      exact repeated_twins (hf t.root) _ _ next

private theorem token_twins (parent : PrototypeId) (filter : TokenFilter) {fallback : Option Branch}
    (hb : ∀ b ∈ fallback, b.KeepsTwins) : KeepsTwins (token w parent filter fallback) := by
  intro a b twins
  have tokens := twins.reads (fun s => Roll.tokens w s parent filter) fun _ => rfl
  simp only [token, tokens]
  split
  · split
    · exact hb _ rfl twins
    · exact ⟨rfl, twins⟩
  · exact run_twins (Roll.rollToken_overlooks _) twins

private theorem drop_twins (d : Drop) :
    KeepsTwins fun walk => walk.run fun s r => r.rollDrop w s d := by
  by_cases called : ∃ c, d = .callback c
  · obtain ⟨c, rfl⟩ := called
    have silent (s : BranchSettings) (r : Roll) :
        (r.rollDrop w s (.callback c)).2.silent = r.silent := by
      rw [Roll.rollDrop]
      split <;> rfl
    exact fun _ _ twins =>
      ⟨rfl, twins.settings, (silent _ _).trans (twins.roll.trans (silent _ _).symm)⟩
  · exact run_twins (Roll.rollDrop_overlooks fun c h => called ⟨c, h⟩)

/-- Where no gate is on cooldown, a gate does no more than leave an effect. -/
private theorem modified_twins (ready : ∀ gate, w.oracle.isOnCooldown gate = false)
    (ms : List Modifier) (hb : branch.KeepsTwins) : KeepsTwins (modified w ms branch) := by
  intro a b twins
  rw [modified, modified]
  split
  · exact hb twins
  · obtain ⟨s, s', a', b', ha, hb', same, next⟩ := twins.apply w ms
    rw [ha, hb']
    have restricted : s.isRestricted = s'.isRestricted := by
      rw [← s.isRestricted_earnest, same, s'.isRestricted_earnest]
    have passes (gate : Option CooldownGate) : gate.any w.oracle.isOnCooldown = false := by
      cases gate with
      | none => rfl
      | some g => exact ready g
    have uncooled : ({ s with cooldown := none } : BranchSettings).earnest =
        ({ s' with cooldown := none } : BranchSettings).earnest := by
      have both := congrArg
        (fun t : BranchSettings => ({ t with cooldown := none } : BranchSettings)) same
      exact both
    have inner := under_twins hb next uncooled
    simp only [restricted, passes, Bool.false_eq_true, if_false]
    split
    · exact ⟨rfl, next⟩
    · have used (g : CooldownGate) (x : Outcome × Walk) : Walk.EndTwins
          (x.1, if x.1.success then x.2.addEffect (.useCooldown g) else x.2) x := by
        split
        · exact .adding x (.useCooldown g)
        · exact ⟨rfl, rfl, rfl⟩
      cases s.enforcedGate? with
      | none =>
        cases s'.enforcedGate? with
        | none => exact inner
        | some g' => exact inner.trans (used g' _).symm
      | some g =>
        cases s'.enforcedGate? with
        | none => exact (used g _).trans inner
        | some g' => exact ((used g _).trans inner).trans (used g' _).symm

end Branch

namespace LootNode
variable {w : World} {follow : LootNode → Branch}

private theorem selectWith_twins (ready : ∀ gate, w.oracle.isOnCooldown gate = false)
    (hf : ∀ n, (follow n).KeepsTwins) (n : LootNode) : (selectWith w follow n).KeepsTwins := by
  induction n with
  | table head spec entries ih =>
    rw [selectWith]
    exact Branch.modified_twins ready _ (Branch.table_twins spec (forall_mem_branchesWith ih))
  | reference head id times =>
    rw [selectWith]
    exact Branch.modified_twins ready _ (Branch.reference_twins id times hf)
  | action head kind key target ih =>
    cases kind with
    | firstTime =>
      rw [selectWith]
      exact Branch.modified_twins ready _ (Branch.firstTime_twins key ih)
    | everyAvatar =>
      rw [selectWith]
      exact Branch.modified_twins ready _ (Branch.everyAvatar_twins ih)
  | token head parent filter fallback ih =>
    rw [selectWith]
    exact Branch.modified_twins ready _
      (Branch.token_twins parent filter (forall_mem_fallbackWith ih))
  | drop head d =>
    rw [selectWith]
    exact Branch.modified_twins ready _ (Branch.drop_twins d)

private theorem selectAt_twins (ready : ∀ gate, w.oracle.isOnCooldown gate = false) (fuel : Nat)
    (n : LootNode) : (selectAt w fuel n).KeepsTwins := by
  induction fuel generalizing n with
  | zero => exact selectWith_twins ready (fun _ _ _ twins => ⟨rfl, twins⟩) n
  | succ fuel ih => exact selectWith_twins ready ih n

/-- A preview leaves no effects, and where no gate is on cooldown it is the roll in earnest: the
outcome, the grants and the traces are the same. -/
theorem roll_preview (n : LootNode) (q : Request) (preview : q.settings.isPreview = true) :
    (n.roll q).effects = [] ∧
      ((∀ gate, q.world.oracle.isOnCooldown gate = false) →
        let plain := n.roll { q with settings := q.settings.earnest }
        (n.roll q).outcome = plain.outcome ∧ (n.roll q).grants = plain.grants ∧
          (n.roll q).traces = plain.traces) := by
  constructor
  · exact (select_obeys (Roll.preview_law q.world) n ⟨q.settings, .start q.seed⟩).law preview
  · intro ready plain
    have twins : Walk.Twins ⟨q.settings, .start q.seed⟩ ⟨q.settings.earnest, .start q.seed⟩ :=
      ⟨q.settings.earnest_earnest.symm, rfl⟩
    obtain ⟨outcome, walks⟩ :=
      selectAt_twins ready (q.world.maxDepth + 1 - q.settings.depth) n twins
    obtain ⟨-, -, grants, -, traces⟩ := Roll.mk.inj walks.roll
    exact ⟨congrArg Outcome.normalize outcome, grants, traces⟩

/-- A reward behind a cooldown is previewed as it is paid, and asks for nothing yet. -/
theorem roll_preview_reward :
    let n : LootNode := .table ⟨1, [.cooldown .channel ⟨4⟩ false]⟩ { method := .every }
      [.action {} .firstTime ⟨3⟩ (.drop {} (.powerPoints 5))]
    let q : Request := { world := {}, settings := { flags := DropFlags.previewOnly }, seed := 1 }
    let plain := n.roll { q with settings := q.settings.earnest }
    (n.roll q).effects = [] ∧ (n.roll q).grants = plain.grants ∧ plain.effects ≠ [] := by
  intro n q plain
  obtain ⟨quiet, same⟩ := roll_preview n q (by decide)
  exact ⟨quiet, (same fun _ => rfl).2.1, by decide +kernel⟩

end LootNode

end Spoils
