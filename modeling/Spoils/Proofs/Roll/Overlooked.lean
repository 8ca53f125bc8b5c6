import Spoils.Proofs.Flags
import Spoils.Proofs.Roll.Granting
import Spoils.Roll.Select

/-! What the ends of trees and the modifiers overlook: whether a branch is a preview, and the
effects that were left behind. -/
namespace Spoils

namespace BranchSettings
variable (s : BranchSettings)

/-- The settings in earnest: without the mark of a preview. -/
def earnest : BranchSettings := s.removeFlags DropFlags.previewOnly

theorem earnest_earnest : s.earnest.earnest = s.earnest := by
  simp only [earnest, removeFlags, Flags.minus_minus_self]

@[simp] theorem isRestricted_earnest : s.earnest.isRestricted = s.isRestricted :=
  Flags.intersects_minus (by decide)

@[simp] theorem checks_earnest : s.earnest.checks = s.checks := by
  have same : s.earnest.hasCooldown = s.hasCooldown := Flags.intersects_minus (by decide)
  rw [checks, checks, same]

private theorem addFlags_earnest {f : DropFlags}
    (apart : DropFlags.previewOnly.intersects f = false) :
    s.earnest.addFlags f = (s.addFlags f).earnest := by
  simp only [earnest, addFlags, removeFlags, Flags.union_minus apart]

private theorem removeFlags_earnest (f : DropFlags) :
    s.earnest.removeFlags f = (s.removeFlags f).earnest := by
  simp only [earnest, removeFlags, Flags.minus_right_comm]

private theorem require_earnest (met : Bool) {f : DropFlags}
    (apart : DropFlags.previewOnly.intersects f = false) :
    s.earnest.require met f = (s.require met f).earnest := by
  cases met with
  | true => rfl
  | false => exact s.addFlags_earnest apart

end BranchSettings

namespace World
variable (w : World) (s : BranchSettings)

@[simp] theorem rollsDrop_earnest : w.rollsDrop s.earnest = w.rollsDrop s := by
  have same : s.earnest.flags.contains DropFlags.tierModified =
      s.flags.contains DropFlags.tierModified := Flags.contains_minus (by decide)
  funext noDrop dice
  rw [rollsDrop, rollsDrop, same, s.isRestricted_earnest]
  rfl

end World

namespace Modifier
variable (w : World) (s : BranchSettings) (dice : Dice)

private theorem apply_earnest (m : Modifier) :
    m.apply w s.earnest dice = ((m.apply w s dice).1.earnest, (m.apply w s dice).2) := by
  cases m with
  | requireLevel | requireTier | requireCondition | forbidCondition | requireDropper
  | forbidDropper | requireRegion | forbidRegion | requireRegionRarity | requireWeekday
  | requireMissions | evalChance => exact Prod.ext (s.require_earnest _ (by decide)) rfl
  | markSpecial | markRare | ignoreCooldown | ignoreVendorCap | currencyBonus =>
    exact Prod.ext (s.addFlags_earnest (by decide)) rfl
  | unmarkSpecial | unmarkRare => exact Prod.ext (s.removeFlags_earnest _) rfl
  | offsetLevel | setLevel | setUsable | levelVerbatim => rfl
  | setAvatar | setRarity | setRegionAffixTable =>
    simp only [apply, adjust]
    split <;> rfl
  | clampLevel lo hi =>
    simp only [apply, adjust]
    rw [show s.earnest.level = s.level from rfl]
    split
    · rfl
    · split <;> rfl
  | affixLimits =>
    simp only [apply, adjust]
    split
    · rfl
    · split <;> rfl
  | requireKills kills =>
    refine Prod.ext ?_ rfl
    simp only [apply, adjust]
    rw [show s.earnest.kills = s.kills from rfl]
    split
    · rfl
    · split
      · exact s.addFlags_earnest (by decide)
      · exact s.addFlags_earnest (by decide)
  | dropByTier curve =>
    refine Prod.ext ?_ rfl
    simp only [apply, adjust, BranchSettings.scaleDrop]
    rw [show s.earnest.difficultyTier = s.difficultyTier from rfl]
    split
    · rename_i tier values _ _
      split
      · exact BranchSettings.addFlags_earnest
          { s with dropFactor := s.dropFactor * values.valueAt tier.tier }
          (f := DropFlags.tierModified) (by decide)
      · rfl
    · rfl
  | cooldown kind channel perAccount =>
    have kept : DropFlags.previewOnly.intersects kind.flag = false := by
      cases kind <;> decide
    refine Prod.ext ?_ rfl
    simp only [apply, adjust, BranchSettings.addCooldown, s.addFlags_earnest kept]
    cases perAccount with
    | false => rfl
    | true =>
      rw [if_pos rfl, if_pos rfl, BranchSettings.addFlags_earnest _ (by decide)]
      rfl

theorem applyAll_earnest (ms : List Modifier) :
    applyAll w ms s.earnest dice =
      ((applyAll w ms s dice).1.earnest, (applyAll w ms s dice).2) := by
  induction ms generalizing s dice with
  | nil => rfl
  | cons m ms ih =>
    rw [applyAll, apply_earnest]
    exact ih _ _

end Modifier

namespace Mutation
variable (w : World) (granted : List Draft) (s : BranchSettings)

private theorem reseedEach_earnest (f : AffixFilter) (as : List AttachedAffix) (dice : Dice) :
    Workshop.reseedEach ⟨w, granted, s.earnest⟩ f as dice =
      Workshop.reseedEach ⟨w, granted, s⟩ f as dice := by
  induction as generalizing dice with
  | nil => rfl
  | cons a as ih => simp only [Workshop.reseedEach, ih, Workshop.catalog]

/-- Mutations read the limits, the rarities and the level of their branch, and no flags. -/
private theorem apply_earnest (m : Mutation) (d : Draft) (dice : Dice) :
    m.apply ⟨w, granted, s.earnest⟩ d dice = m.apply ⟨w, granted, s⟩ d dice := by
  cases m with
  | affixSeed f =>
    simp only [apply, Workshop.reseed, reseedEach_earnest]
  | _ => rfl

@[simp] theorem applyAll_earnest (ms : List Mutation) (d : Draft) (dice : Dice) :
    applyAll ⟨w, granted, s.earnest⟩ ms d dice = applyAll ⟨w, granted, s⟩ ms d dice := by
  have same (c : Change) :
      applyEach ⟨w, granted, s.earnest⟩ ms c = applyEach ⟨w, granted, s⟩ ms c := by
    induction ms generalizing c with
    | nil => rfl
    | cons m ms ih =>
      have next : m.applyNext ⟨w, granted, s.earnest⟩ c = m.applyNext ⟨w, granted, s⟩ c := by
        rw [applyNext, applyNext, apply_earnest]
      rw [applyEach, applyEach, next, ih]
  rw [applyAll, applyAll, same]

end Mutation

namespace Roll
variable {w : World} {s : BranchSettings} {r : Roll}

def silent (r : Roll) : Roll := { r with effects := [] }

theorem silent_dice : r.silent.dice = r.dice := rfl

/-- For any seed that is drawn: no seed has to be computed to see it. -/
private theorem push_drawn_silent (drawn : Nat × Dice) (p : Nat → Pending) :
    { r.silent with dice := drawn.2 }.push (p drawn.1) =
      ({ r with dice := drawn.2 }.push (p drawn.1)).silent := rfl

private theorem silent_queue : r.silent.queue = r.queue := rfl

private theorem silent_drafts : r.silent.drafts = r.drafts := rfl

/-- A step does the same in earnest, and whatever effects there are. -/
def Overlooks {α : Type} (step : BranchSettings → Roll → α × Roll) : Prop :=
  ∀ s r, step s.earnest r.silent = ((step s r).1, (step s r).2.silent)

private theorem rarities_earnest : s.earnest.rarities = s.rarities := rfl

@[simp] theorem level_earnest : level s.earnest = level s := rfl

@[simp] theorem rollAvatar_earnest : w.rollAvatar s.earnest = w.rollAvatar s := rfl

private theorem pushItem_silent (d : Draft) (checks : Checks) (ms : List Mutation) :
    pushItem w d checks ms r.silent =
      ((pushItem w d checks ms r).1, (pushItem w d checks ms r).2.silent) := by
  rw [pushItem, pushItem, silent_dice]
  split
  · exact congrArg (Prod.mk Outcome.succeeded) (push_drawn_silent r.dice.seed fun seed =>
      .item { d with seed := seed, checks := checks } ms true)
  · rfl

private theorem mutate_earnest (ms : List Mutation) (d : Draft) :
    r.silent.mutate w s.earnest ms d =
      { r.mutate w s ms d with roll := (r.mutate w s ms d).roll.silent } := by
  have same := Mutation.applyAll_earnest w r.drafts s ms d r.dice
  simp only [mutate, workshop, silent_drafts, silent_dice, same]
  rfl

private theorem finishItem_overlooks (d : Draft) (ms : List Mutation) (wanted : Bool) :
    Overlooks fun s r => r.finishItem w s d ms wanted := by
  intro s r
  have attached : r.silent.attach w s.earnest d wanted =
      ((r.attach w s d wanted).1, (r.attach w s d wanted).2.silent) := by
    rw [attach, attach]
    split <;> rfl
  simp only [finishItem, attached, mutate_earnest]
  split <;> rfl

private theorem grantAll_overlooks (ps : List Pending) :
    Overlooks fun s r => grantAll w s ps r := by
  intro s r
  induction ps generalizing r with
  | nil => rfl
  | cons p ps ih =>
    have first : r.silent.grantEntry w s.earnest p =
        ((r.grantEntry w s p).1, (r.grantEntry w s p).2.silent) := by
      cases p with
      | other g => rfl
      | item d ms wanted => exact finishItem_overlooks d ms wanted s r
    simp only at ih
    simp only [grantAll, first, ih]

theorem finish_overlooks (o : Outcome) : Overlooks fun s r => r.finish w s o := by
  intro s r
  have granted := grantAll_overlooks (w := w) r.queue s r.clearQueue
  have same : r.silent.clearQueue = r.clearQueue.silent := rfl
  simp only at granted
  simp only [finish_eq]
  rw [silent_queue, same, granted]

private theorem give_overlooks (g : Grant) : Overlooks fun s r => r.give w s g :=
  fun s r => finish_overlooks .succeeded s (r.push (.other g))

private theorem giveAmount_overlooks (make : Int → Grant) (amount : Int) :
    Overlooks fun s r => r.giveAmount w s make amount := by
  intro s r
  simp only [giveAmount]
  split
  · rfl
  · exact give_overlooks (make amount) s r

private theorem times_overlooks {step : BranchSettings → Roll → Outcome × Roll} (h : Overlooks step)
    (n : Nat) (o : Outcome) : Overlooks fun s r => times (step s) n o r := by
  intro s r
  induction n generalizing o r with
  | zero => rfl
  | succ n ih =>
    simp only at ih
    simp only [times, h s r, ih]

/-- What a push leaves is finished in earnest as it is in a preview. -/
private theorem pushItem_finish_overlooks (d : Draft) (checks : Checks) (ms : List Mutation) :
    Overlooks fun s r => (pushItem w d checks ms r).2.finish w s (pushItem w d checks ms r).1 := by
  intro s r
  simp only [pushItem_silent]
  exact finish_overlooks _ s _

private theorem rollItem_overlooks (item : Item) (ms : List Mutation) :
    Overlooks fun s r => rollItem w s item ms r := by
  intro s r
  simp only [rollItem, rollAvatar_earnest, level_earnest, silent_dice, rarities_earnest,
    BranchSettings.checks_earnest]
  rcases w.rollAvatar s r.dice with ⟨avatar, dice⟩
  simp only
  rcases w.rollRarity s.rarities (level s) (if item.isAbstract then none else some item) dice
    with ⟨rarity, dice⟩
  simp only
  split
  · rfl
  · split
    · exact pushItem_finish_overlooks _ s.checks ms s { r with dice := dice }
    · split
      · rfl
      · rename_i found d dice' _
        exact pushItem_finish_overlooks (World.draftOf found avatar d) s.checks ms s
          { r with dice := dice' }

private theorem queueAny_overlooks (slot : EquipmentSlot) (rank : Int) (n : Nat) (o : Outcome) :
    Overlooks fun s r => queueAny w s slot rank n o r := by
  intro s r
  induction n generalizing o r with
  | zero => rfl
  | succ n ih =>
    simp only at ih
    simp only [queueAny, rollAvatar_earnest, level_earnest, silent_dice, rarities_earnest,
      BranchSettings.checks_earnest]
    rcases w.rollAvatar s r.dice with ⟨avatar, dice⟩
    simp only
    split
    · rfl
    · rcases w.rollRarity s.rarities (level s) none dice with ⟨rarity, dice⟩
      simp only
      split
      · rfl
      · split
        · rename_i dice' _
          exact ih o { r with dice := dice' }
        · rename_i item dice' _
          have pushed (d : Draft) := pushItem_silent (w := w) (r := { r with dice := dice' }) d
            s.checks []
          have later (first : Outcome × Roll) := ih (o.union first.1) first.2
          refine Eq.trans ?_ (later _)
          exact congrArg (fun first : Outcome × Roll =>
            queueAny w s.earnest slot rank n (o.union first.1) first.2) (pushed _)

private theorem rollAny_overlooks (slot : EquipmentSlot) (rank : Int) (count : Repeat) :
    Overlooks fun s r => r.rollAny w s slot rank count := by
  intro s r
  simp only [rollAny, silent_dice]
  split
  · rfl
  · rcases count.roll r.dice with ⟨n, dice⟩
    have queued := queueAny_overlooks (w := w) slot rank n.toNat .noRoll s { r with dice := dice }
    simp only
    rcases hq : queueAny w s slot rank n.toNat .noRoll { r with dice := dice } with ⟨o?, r'⟩
    simp only [hq] at queued
    have same : queueAny w s.earnest slot rank n.toNat .noRoll { r.silent with dice := dice } =
      (o?, r'.silent) := queued
    rw [same]
    cases o? with
    | none => rfl
    | some o => exact finish_overlooks o s r'

theorem rollToken_overlooks (candidates : List Item) :
    Overlooks fun s r => r.rollToken w s candidates := by
  intro s r
  simp only [rollToken, rollAvatar_earnest, level_earnest, silent_dice, rarities_earnest,
    BranchSettings.checks_earnest]
  rcases w.rollAvatar s r.dice with ⟨avatar, dice⟩
  simp only
  rcases w.rollRarity s.rarities (level s) none dice with ⟨rarity, dice⟩
  simp only
  split
  · rfl
  · split
    · rfl
    · rename_i token dice' _
      exact pushItem_finish_overlooks _ { s.checks with usableBy := false } [] s
        { r with dice := dice' }

private theorem rollCopy_overlooks (source : Int) (ms : List Mutation) :
    Overlooks fun s r => r.rollCopy w s source ms := by
  intro s r
  have found : (r.silent.workshop w s.earnest).source? source = (r.workshop w s).source? source :=
    rfl
  simp only [rollCopy, found, mutate_earnest]
  split
  · rfl
  · rename_i d _
    generalize r.mutate w s ms { d with checks := d.copyChecks } = m
    split
    · rfl
    · exact finish_overlooks .succeeded s (m.roll.push (.item m.draft [] false))

private theorem rollCredits_overlooks (curve : CurveId) :
    Overlooks fun s r => r.rollCredits w s curve := by
  intro s r
  simp only
  rw [rollCredits, rollCredits, level_earnest, silent_dice]
  split
  · rfl
  · simp only
    split
    · rfl
    · exact give_overlooks _ s { r with dice := _ }

private theorem giveExperience_overlooks (curve : CurveId) :
    Overlooks fun s r => r.giveExperience w s curve := by
  intro s r
  simp only [giveExperience, level_earnest]
  split
  · rfl
  · exact giveAmount_overlooks _ _ s r

private theorem vendorAmount_earnest (vendor : PrototypeId) (amount : Int) :
    vendorAmount w s.earnest vendor amount = vendorAmount w s vendor amount := by
  have same : s.earnest.flags.contains DropFlags.ignoreCap =
      s.flags.contains DropFlags.ignoreCap := Flags.contains_minus (by decide)
  rw [vendorAmount, vendorAmount, same]

private theorem times_pushGrant_silent (g : Grant) (n : Nat) (o : Outcome) :
    times (pushGrant g) n o r.silent =
      ((times (pushGrant g) n o r).1, (times (pushGrant g) n o r).2.silent) := by
  induction n generalizing o r with
  | zero => rfl
  | succ n ih => exact ih (r := r.push (.other g)) (o.union .succeeded)

/-- Every drop but a callback overlooks previews and effects. -/
theorem rollDrop_overlooks {d : Drop} (quiet : ∀ c, d ≠ .callback c) :
    Overlooks fun s r => r.rollDrop w s d := by
  intro s r
  cases d with
  | item id count ms =>
    simp only [rollDrop, silent_dice]
    split
    · rfl
    · rename_i item _
      rcases count.roll r.dice with ⟨n, dice⟩
      exact times_overlooks (rollItem_overlooks item ms) n.toNat .noRoll s { r with dice := dice }
  | anyItem slot rank count => exact rollAny_overlooks slot rank count s r
  | agent id count =>
    simp only [rollDrop, silent_dice]
    split
    · rfl
    · rcases count.roll r.dice with ⟨n, dice⟩
      have queued := times_pushGrant_silent (r := { r with dice := dice })
        (.agent id (World.itemLevel s.level true)) n.toNat .noRoll
      exact (congrArg (fun x : Outcome × Roll => x.2.finish w s.earnest x.1) queued).trans
        (finish_overlooks _ s (times (pushGrant (.agent id (World.itemLevel s.level true))) n.toNat
          .noRoll { r with dice := dice }).2)
  | credits curve => exact rollCredits_overlooks curve s r
  | experience curve => exact giveExperience_overlooks curve s r
  | powerPoints amount => exact giveAmount_overlooks _ _ s r
  | health amount => exact giveAmount_overlooks _ _ s r
  | endurance amount => exact giveAmount_overlooks _ _ s r
  | realMoney coupon transaction amount => exact giveAmount_overlooks _ _ s r
  | vanityTitle title =>
    simp only [rollDrop]
    split
    · exact give_overlooks _ s r
    · rfl
  | vendorXp vendor amount =>
    simp only [rollDrop, vendorAmount_earnest]
    exact giveAmount_overlooks _ _ s r
  | copy source ms => exact rollCopy_overlooks source ms s r
  | callback c => exact (quiet c rfl).elim

end Roll

end Spoils
