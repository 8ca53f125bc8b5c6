import Spoils.Proofs.Roll.Law

/-! The ends of trees obey every law that holds of the single steps. -/
namespace Spoils

theorem World.le_itemLevel (level : Int) (verbatim : Bool) :
    minItemLevel ≤ World.itemLevel level verbatim := by
  rw [itemLevel]
  split
  · exact Int.le_max_right ..
  · exact Int.le_max_left ..

theorem Draft.IsNew.draftOf {d : Draft} (h : d.IsNew) (item : Item) (avatar : PrototypeId) :
    (World.draftOf item avatar d).IsNew :=
  ⟨h.level, h.rarity, h.affixes, h.properties, h.binding, h.equippableBy⟩

/-- The loot besides items that a drop may give. -/
inductive Drop.Gives (w : World) (s : BranchSettings) : Drop → Grant → Prop where
  | agent {id : PrototypeId} {count : Repeat} :
      Gives w s (.agent id count) (.agent id (World.itemLevel s.level true))
  | credits {curve : CurveId} (amount : Int) : Gives w s (.credits curve) (.credits amount)
  | experience {curve : CurveId} (amount : Int) :
      Gives w s (.experience curve) (.experience curve amount)
  | powerPoints {amount : Int} : Gives w s (.powerPoints amount) (.powerPoints amount)
  | health {amount : Int} : Gives w s (.health amount) (.health amount)
  | endurance {amount : Int} : Gives w s (.endurance amount) (.endurance amount)
  | realMoney {coupon transaction : String} {amount : Int} :
      Gives w s (.realMoney coupon transaction amount) (.realMoney coupon transaction amount)
  | vanityTitle {title : PrototypeId} : Gives w s (.vanityTitle title) (.vanityTitle title)
  | vendorXp {vendor : PrototypeId} {amount : Int} :
      Gives w s (.vendorXp vendor amount)
        (.vendorXp vendor (Roll.vendorAmount w s vendor amount))

theorem Drop.Gives.isPlain {w : World} {s : BranchSettings} {d : Drop} {g : Grant}
    (h : d.Gives w s g) : g.IsPlain := by
  cases h <;> rfl

def Drop.mutations : Drop → List Mutation
  | .item _ _ mutations | .copy _ mutations => mutations
  | _ => []

namespace Roll
variable {w : World} {gives : BranchSettings → Grant → Prop} {allowed : Mutation → Prop} {L : Law}
  {s : BranchSettings}

theorem isNew_atLevel (s : BranchSettings) {rarity : PrototypeId}
    (valid : rarity.isValid = true) : Draft.IsNew { rarity := rarity, level := level s } :=
  ⟨World.le_itemLevel .., valid, rfl, rfl, rfl, rfl⟩

variable (gives) in
/-- What is queued by a push, and what the outcome says of it. -/
theorem pushItem_queues {d : Draft} (new : d.IsNew) (checks : Checks) {ms : List Mutation}
    (listed : ∀ m ∈ ms, allowed m) (r : Roll) :
    ∃ dice ps, (∀ p ∈ ps, p.Queued w s (gives s) allowed r.drafts) ∧ ps.length ≤ 1 ∧
      (ms = [] → ∀ p ∈ ps, p.IsSure) ∧
      (pushItem w d checks ms r).1.success = !ps.isEmpty ∧
      (pushItem w d checks ms r).2 = { r with dice := dice, queue := r.queue ++ ps } := by
  rw [pushItem]
  split
  · rename_i fits
    refine ⟨_, [_], ?_, Nat.le_refl 1, ?_, rfl, rfl⟩
    · intro p hp
      rw [List.mem_singleton.mp hp]
      exact .item _ ms new fits listed
    · intro plain p hp
      rw [List.mem_singleton.mp hp]
      exact plain
  · exact ⟨r.dice, [], by simp, by simp, by simp, rfl, by simp⟩

variable (hL : L.Ends w gives allowed)
include hL

private theorem pushItem_finish_law {d : Draft} (new : d.IsNew) (s : BranchSettings)
    (checks : Checks) {ms : List Mutation} (listed : ∀ m ∈ ms, allowed m) (r : Roll) :
    L s ((pushItem w d checks ms r).2.finish w s (pushItem w d checks ms r).1).1.success r
      ((pushItem w d checks ms r).2.finish w s (pushItem w d checks ms r).1).2 := by
  obtain ⟨dice, ps, queued, few, -, ho, hr⟩ := pushItem_queues gives new checks listed r
  rw [hr]
  refine hL.draw_before (hL.granted s { r with dice := dice } ps _ queued (.inl few) ?_)
  rw [ho]
  simp

private theorem give_law (s : BranchSettings) {g : Grant} (given : gives s g) (r : Roll) :
    L s (r.give w s g).1.success r (r.give w s g).2 := by
  refine hL.granted s r [.other g] .succeeded ?_ (.inl (Nat.le_refl 1))
    (by simp [Outcome.succeeded])
  intro p hp
  rw [List.mem_singleton.mp hp]
  exact .other given

private theorem giveAmount_law (s : BranchSettings) {make : Int → Grant} {amount : Int}
    (given : gives s (make amount)) (r : Roll) :
    L s (r.giveAmount w s make amount).1.success r (r.giveAmount w s make amount).2 := by
  rw [giveAmount]
  split
  · exact hL.stay s r
  · exact give_law hL s given r

private theorem times_law {step : Roll → Outcome × Roll}
    (h : ∀ r, L s (step r).1.success r (step r).2) (n : Nat) {start r : Roll} {o : Outcome}
    (hr : L s o.success start r) :
    L s (times step n o r).1.success start (times step n o r).2 := by
  induction n generalizing o r with
  | zero => exact hr
  | succ n ih => exact ih (hL.trans hr (h r))

omit hL in
private theorem pickLowered_draft {checks : Checks} {candidates : List Item} {avatar : PrototypeId}
    {attempts : Nat} {d e : Draft} {item : Item} {dice dice' : Dice}
    (h : pickLowered w checks candidates avatar attempts d dice = (some (item, e), dice'))
    (valid : d.rarity.isValid = true) :
    ∃ rarity, rarity.isValid = true ∧ e = { d with rarity := rarity } := by
  induction attempts generalizing d dice with
  | zero => cases h
  | succ attempts ih =>
    rw [pickLowered] at h
    split at h
    · cases h
      exact ⟨_, valid, rfl⟩
    · simp only at h
      split at h
      · rename_i below
        obtain ⟨rarity, lower, rfl⟩ := ih h below
        exact ⟨rarity, lower, rfl⟩
      · cases h

private theorem rollItem_law (s : BranchSettings) (item : Item) {ms : List Mutation}
    (listed : ∀ m ∈ ms, allowed m) (r : Roll) :
    L s (rollItem w s item ms r).1.success r (rollItem w s item ms r).2 := by
  simp only [rollItem]
  rcases w.rollAvatar s r.dice with ⟨avatar, dice⟩
  simp only
  rcases w.rollRarity s.rarities (level s) (if item.isAbstract then none else some item) dice
    with ⟨rarity, dice⟩
  simp only
  split
  · exact hL.draw_before (hL.abandoned s { r with dice := dice })
  · rename_i some
    have valid : rarity.isValid = true := by simpa using some
    split
    · have new := (isNew_atLevel s valid).draftOf item avatar
      exact hL.draw_before (pushItem_finish_law hL new s s.checks listed { r with dice := dice })
    · split
      · exact hL.draw s r _
      · rename_i found e dice' picked
        obtain ⟨lowered, valid, rfl⟩ := pickLowered_draft picked valid
        have new := ((isNew_atLevel s valid).draftOf item avatar).draftOf found avatar
        exact hL.draw_before
          (pushItem_finish_law hL new s s.checks listed { r with dice := dice' })

omit hL in
variable (gives allowed) in
/-- What a run of unmodified drafts queues, and what the outcome says of it. -/
theorem queueAny_queues (slot : EquipmentSlot) (rank : Int) (n : Nat) (o : Outcome) (r : Roll) :
    ∃ dice ps, (∀ p ∈ ps, p.Queued w s (gives s) allowed r.drafts ∧ p.IsSure) ∧
      (∀ o' ∈ (queueAny w s slot rank n o r).1, o'.success = (o.success || !ps.isEmpty)) ∧
      (queueAny w s slot rank n o r).2 = { r with dice := dice, queue := r.queue ++ ps } := by
  induction n generalizing o r with
  | zero => exact ⟨r.dice, [], by simp, by simp [queueAny], by simp [queueAny]⟩
  | succ n ih =>
    have pushed {d : Draft} (new : d.IsNew) (r : Roll) :
        let first := pushItem w d s.checks [] r
        ∃ dice ps, (∀ p ∈ ps, p.Queued w s (gives s) allowed r.drafts ∧ p.IsSure) ∧
          (∀ o' ∈ (queueAny w s slot rank n (o.union first.1) first.2).1,
            o'.success = (o.success || !ps.isEmpty)) ∧
          (queueAny w s slot rank n (o.union first.1) first.2).2 =
            { r with dice := dice, queue := r.queue ++ ps } := by
      intro first
      obtain ⟨dice, ps, queued, -, sure, ho, hr⟩ :=
        pushItem_queues gives new s.checks (List.forall_mem_nil _) r
      obtain ⟨dice', rest, later, hrest, hlast⟩ := ih (o.union first.1) first.2
      rw [show first.2 = _ from hr] at later hlast
      refine ⟨dice', ps ++ rest, ?_, ?_, ?_⟩
      · intro p hp
        rcases List.mem_append.mp hp with hp | hp
        · exact ⟨queued p hp, sure rfl p hp⟩
        · exact later p hp
      · intro o' ho'
        rw [hrest o' ho', Outcome.union, show first.1.success = _ from ho]
        cases ps <;> simp
      · rw [show first.2 = _ from hr, hlast, List.append_assoc]
    rw [queueAny]
    rcases w.rollAvatar s r.dice with ⟨avatar, dice⟩
    simp only
    split
    · exact ⟨dice, [], by simp, by simp, by simp⟩
    · rcases w.rollRarity s.rarities (level s) none dice with ⟨rarity, dice⟩
      simp only
      split
      · exact ⟨dice, [], by simp, by simp, by simp⟩
      · rename_i some
        have valid : rarity.isValid = true := by simpa using some
        split
        · rename_i dice' _
          exact ih o { r with dice := dice' }
        · rename_i item dice' _
          exact pushed ⟨World.le_itemLevel .., valid, rfl, rfl, rfl, rfl⟩ { r with dice := dice' }

private theorem rollAny_law (s : BranchSettings) (slot : EquipmentSlot) (rank : Int)
    (count : Repeat) (r : Roll) :
    L s (r.rollAny w s slot rank count).1.success r (r.rollAny w s slot rank count).2 := by
  rw [rollAny]
  split
  · exact hL.stay s r
  · rcases count.roll r.dice with ⟨n, dice⟩
    obtain ⟨dice', ps, queued, ho, hr⟩ :=
      queueAny_queues gives allowed slot rank n.toNat .noRoll { r with dice := dice }
    simp only
    rcases hq : queueAny w s slot rank n.toNat .noRoll { r with dice := dice } with ⟨_ | o, r'⟩
    · rw [hq] at hr
      rw [show r' = _ from hr]
      -- What was queued up to here is dropped with the rest.
      exact hL.draw_before (hL.abandoned s { r with dice := dice' })
    · rw [hq] at ho hr
      rw [show r' = _ from hr]
      refine hL.draw_before (hL.granted s { r with dice := dice' } ps o
        (fun p hp => (queued p hp).1) (.inr fun p hp => (queued p hp).2) ?_)
      rw [ho o rfl]
      simp [Outcome.noRoll]

theorem rollToken_law (s : BranchSettings) (candidates : List Item) (r : Roll) :
    L s (rollToken w s candidates r).1.success r (rollToken w s candidates r).2 := by
  simp only [rollToken]
  rcases w.rollAvatar s r.dice with ⟨avatar, dice⟩
  simp only
  rcases w.rollRarity s.rarities (level s) none dice with ⟨rarity, dice⟩
  simp only
  split
  · exact hL.draw_before (hL.abandoned s { r with dice := dice })
  · rename_i some
    have valid : rarity.isValid = true := by simpa using some
    split
    · rename_i dice' _
      exact hL.draw s r dice'
    · rename_i token dice' _
      have new := (isNew_atLevel s valid).draftOf token avatar
      exact hL.draw_before
        (pushItem_finish_law hL new s { s.checks with usableBy := false } (List.forall_mem_nil _)
          { r with dice := dice' })

private theorem rollCopy_law (s : BranchSettings) (source : Int) {ms : List Mutation}
    (listed : ∀ m ∈ ms, allowed m) (r : Roll) :
    L s (rollCopy w s source ms r).1.success r (rollCopy w s source ms r).2 := by
  simp only [rollCopy]
  split
  · exact hL.stay s r
  · rename_i d found
    have known : d ∈ r.drafts := by
      simp only [Workshop.source?] at found
      split at found
      · cases found
      · exact List.mem_of_getElem? found
    split
    · exact hL.draw_before (hL.abandoned s (r.mutate w s ms { d with checks := d.copyChecks }).roll)
    · rename_i clean
      refine hL.draw_before (hL.granted s (r.mutate w s ms { d with checks := d.copyChecks }).roll
        [.item (r.mutate w s ms { d with checks := d.copyChecks }).draft [] false] .succeeded
        ?_ (.inl (Nat.le_refl 1)) (by simp [Outcome.succeeded]))
      intro p hp
      rw [List.mem_singleton.mp hp]
      exact .copy known (Bool.eq_false_iff.mpr clean) listed

private theorem rollCredits_law (s : BranchSettings) (curve : CurveId)
    (given : ∀ amount, gives s (.credits amount)) (r : Roll) :
    L s (rollCredits w s curve r).1.success r (rollCredits w s curve r).2 := by
  rw [rollCredits]
  split
  · exact hL.stay s r
  · simp only
    split
    · exact hL.stay s r
    · exact hL.draw_before (give_law hL s (given _) _)

private theorem giveExperience_law (s : BranchSettings) (curve : CurveId)
    (given : ∀ amount, gives s (.experience curve amount)) (r : Roll) :
    L s (giveExperience w s curve r).1.success r (giveExperience w s curve r).2 := by
  rw [giveExperience]
  split
  · exact hL.stay s r
  · exact giveAmount_law hL s (given _) r

omit hL in
theorem times_pushGrant (g : Grant) (n : Nat) (o : Outcome) (r : Roll) :
    (times (pushGrant g) n o r).1.success = (o.success || decide (0 < n)) ∧
      (times (pushGrant g) n o r).2 =
        { r with queue := r.queue ++ List.replicate n (.other g) } := by
  induction n generalizing o r with
  | zero => simp [times]
  | succ n ih =>
    obtain ⟨ho, hr⟩ := ih (o.union (pushGrant g r).1) (pushGrant g r).2
    rw [times]
    refine ⟨ho.trans ?_, hr.trans ?_⟩
    · simp [pushGrant, Outcome.union, Outcome.succeeded]
    · simp [pushGrant, push, List.replicate_succ]

/-- Of drops the law has to allow what they give and how they mutate it, and that a callback is
left behind. -/
theorem rollDrop_law (s : BranchSettings) {d : Drop} (given : ∀ g, d.Gives w s g → gives s g)
    (listed : ∀ m ∈ d.mutations, allowed m) (called : ∀ c r, d = .callback c →
      L s true r (if s.isPreview then r else r.addEffect (.callback c))) (r : Roll) :
    L s (r.rollDrop w s d).1.success r (r.rollDrop w s d).2 := by
  cases d with
  | item id count ms =>
    rw [rollDrop]
    split
    · exact hL.stay s r
    · rename_i item _
      rcases count.roll r.dice with ⟨n, dice⟩
      exact hL.draw_before (times_law hL (rollItem_law hL s item listed) n.toNat (hL.stay s _))
  | anyItem slot rank count => exact rollAny_law hL s slot rank count r
  | agent id count =>
    rw [rollDrop]
    split
    · exact hL.stay s r
    · rcases count.roll r.dice with ⟨n, dice⟩
      simp only
      obtain ⟨ho, hr⟩ := times_pushGrant (.agent id (World.itemLevel s.level true)) n.toNat .noRoll
        { r with dice := dice }
      rw [hr]
      refine hL.draw_before (hL.granted s { r with dice := dice } _ _ ?_ (.inr ?_) ?_)
      · intro p hp
        rw [List.eq_of_mem_replicate hp]
        exact .other (given _ .agent)
      · intro p hp
        rw [List.eq_of_mem_replicate hp]
        trivial
      · rw [ho]
        intro empty
        have : n.toNat = 0 := by simpa [Outcome.noRoll] using empty
        rw [this, List.replicate_zero]
  | credits curve => exact rollCredits_law hL s curve (fun amount => given _ (.credits amount)) r
  | experience curve =>
    exact giveExperience_law hL s curve (fun amount => given _ (.experience amount)) r
  | powerPoints amount => exact giveAmount_law hL s (given _ .powerPoints) r
  | health amount => exact giveAmount_law hL s (given _ .health) r
  | endurance amount => exact giveAmount_law hL s (given _ .endurance) r
  | realMoney coupon transaction amount => exact giveAmount_law hL s (given _ .realMoney) r
  | vanityTitle title =>
    rw [rollDrop]
    split
    · exact give_law hL s (given _ .vanityTitle) r
    · exact hL.stay s r
  | vendorXp vendor amount => exact giveAmount_law hL s (given _ .vendorXp) r
  | copy source ms => exact rollCopy_law hL s source listed r
  | callback c => exact called c r rfl

end Roll

end Spoils
