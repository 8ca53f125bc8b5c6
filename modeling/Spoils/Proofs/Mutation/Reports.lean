import Spoils.Proofs.Affix.Reports
import Spoils.Proofs.Mutation.Acceptance

/-! What mutations report: every difference between the draft before and after is on the report of
a pipeline without an error, but for the affixes that a new rarity strips. -/
namespace Spoils

namespace Draft
variable {c : Catalog} {strips strips' : Prop} {d e f : Draft} {report report' : MutationReport}

/-- The report accounts for the differences between two drafts. Where affixes may be stripped, a
change may be all that is reported of it. -/
structure Accounts (c : Catalog) (strips : Prop) (d : Draft) (report : MutationReport)
    (e : Draft) : Prop where
  affixes : report.affixChange = false → e.affixes = d.affixes ∨
    strips ∧ report.changed = true ∧ e.affixes = AttachedAffix.uncounted c d.affixes
  item : report.itemChange = false → e.item = d.item
  properties : report.evalChange = false → e.properties = d.properties
  rest : report.changed = false →
    e = { d with item := e.item, affixes := e.affixes, properties := e.properties }

namespace Accounts

theorem refl (c : Catalog) (strips : Prop) (d : Draft) (report : MutationReport) :
    d.Accounts c strips report d :=
  ⟨fun _ => .inl rfl, fun _ => rfl, fun _ => rfl, fun _ => rfl⟩

theorem mono (h : d.Accounts c strips report e) (sub : strips → strips') :
    d.Accounts c strips' report e :=
  { h with affixes := fun silent => (h.affixes silent).imp_right fun g => ⟨sub g.1, g.2⟩ }

/-- One change after the other. What is stripped twice is stripped once. -/
theorem trans (h : d.Accounts c strips report e) (h' : e.Accounts c strips report' f) :
    d.Accounts c strips (report'.union report) f where
  affixes silent := by
    obtain ⟨later, earlier⟩ := Bool.or_eq_false_iff.mp silent
    rcases h.affixes earlier with same | ⟨may, changed, stripped⟩
    · rcases h'.affixes later with same' | ⟨may, changed, stripped⟩
      · exact .inl (same'.trans same)
      · exact .inr ⟨may, Bool.or_eq_true_iff.mpr (.inl changed), by rw [stripped, same]⟩
    · refine .inr ⟨may, Bool.or_eq_true_iff.mpr (.inr changed), ?_⟩
      rcases h'.affixes later with same' | ⟨-, -, stripped'⟩
      · exact same'.trans stripped
      · rw [stripped', stripped, AttachedAffix.uncounted, AttachedAffix.uncounted,
          List.filter_filter]
        simp only [Bool.and_self]
  item silent := by
    obtain ⟨later, earlier⟩ := Bool.or_eq_false_iff.mp silent
    exact (h'.item later).trans (h.item earlier)
  properties silent := by
    obtain ⟨later, earlier⟩ := Bool.or_eq_false_iff.mp silent
    exact (h'.properties later).trans (h.properties earlier)
  rest silent := by
    obtain ⟨later, earlier⟩ := Bool.or_eq_false_iff.mp silent
    have last := h'.rest later
    rw [h.rest earlier] at last
    exact last

theorem also (h : d.Accounts c strips report e) (more : MutationReport) :
    d.Accounts c strips (report.union more) e := by
  have whole := h.trans (refl c strips e more)
  rwa [MutationReport.union_comm] at whole

private theorem of_announces (body : d.SameBody e) (h : d.Announces report e) :
    d.Accounts c strips report e where
  affixes silent := .inl (congrArg Draft.affixes (h silent))
  item _ := body.item_eq
  properties _ := (congrArg Draft.properties body).trans rfl
  rest _ := by
    rw [SameBody] at body
    rw [body]

/-- Whatever is said to have changed may have, apart from what has a report of its own. -/
theorem of_changed (changed : report.changed = true) (affixes : e.affixes = d.affixes)
    (item : report.itemChange = false → e.item = d.item)
    (properties : e.properties = d.properties) : d.Accounts c strips report e where
  affixes _ := .inl affixes
  item := item
  properties _ := properties
  rest silent := (Bool.false_ne_true (silent.symm.trans changed)).elim

end Accounts

theorem Adjusts.affixes_eq (h : d.Adjusts e) : e.affixes = d.affixes :=
  (congrArg Draft.affixes h).trans rfl

theorem Adjusts.properties_eq (h : d.Adjusts e) : e.properties = d.properties :=
  (congrArg Draft.properties h).trans rfl

private theorem set_bound_same :
    ∀ b : Binding, ∀ on, (Flags.contains b Binding.bound != on) = false → b.set .bound on = b := by
  decide

private theorem set_tradeRestricted_same : ∀ b : Binding, ∀ on,
    (Flags.contains b Binding.tradeRestricted != on) = false → b.set .tradeRestricted on = b := by
  decide

private theorem bind_same {on : Bool} {avatar : PrototypeId} (none : (d.bind on avatar).1 = false) :
    (d.bind on avatar).2 = d := by
  obtain ⟨flag, owner⟩ := Bool.or_eq_false_iff.mp none
  rw [bind, set_bound_same _ _ flag, ← bne_eq_false_iff_eq.mp owner]

private theorem restrictTrade_same {on unbind : Bool}
    (none : (d.restrictTrade on unbind).1 = false) : (d.restrictTrade on unbind).2 = d := by
  cases unbind with
  | false =>
    change { d with binding := d.binding.set .tradeRestricted on } = d
    rw [set_tradeRestricted_same _ _ none]
  | true =>
    obtain ⟨flag, unbound⟩ := Bool.or_eq_false_iff.mp none
    have freed := bind_same unbound
    exact freed.trans (by rw [set_tradeRestricted_same _ _ flag])

private theorem rebind_same {change : BindingChange} {dice : Dice}
    (none : (d.rebind change dice).report.changed = false) :
    (d.rebind change dice).draft = d := by
  cases change with
  | none =>
    change (d.bind false .none).1 = false at none
    simp only [rebind, none, Bool.false_eq_true, if_false]
    exact bind_same none
  | tradeRestricted =>
    change (d.restrictTrade true false).1 = false at none
    exact restrictTrade_same none
  | tradeRestrictedUnbind =>
    change (d.restrictTrade true true).1 = false at none
    simp only [rebind, none, Bool.false_eq_true, if_false]
    exact restrictTrade_same none
  | avatar => exact bind_same none

end Draft

namespace Workshop
open Draft
variable (k : Workshop) {strips : Prop} {d : Draft} {dice : Dice}

private theorem validated_accounts {change : Change}
    (h : d.Accounts k.catalog strips change.report change.draft) :
    d.Accounts k.catalog strips (k.validated change).report (k.validated change).draft := by
  rw [validated]
  split
  · exact h
  · exact h.also _

theorem validated_clean {change : Change}
    (clean : (k.validated change).report.error = false) : change.report.error = false := by
  rwa [← validated_report clean]

theorem settled_adjusts (d : Draft) (dice : Dice) :
    d.Adjusts (k.settled d dice).draft := by
  have adjusted := k.world.adjust_adjusts d.checks d
  rw [settled]
  split <;> rename_i found <;> rw [found] at adjusted <;> exact adjusted

private theorem setLevel_accounts (level : Int) (d : Draft) (dice : Dice) :
    d.Accounts k.catalog strips (k.setLevel level d dice).report
      (k.setLevel level d dice).draft := by
  rcases k.setLevel_cases level d dice with same | moved
  · rw [same]
    exact .refl _ _ d _
  · have settles := k.settled_adjusts { d with level := level, rank := 0 } dice
    rw [moved]
    exact .of_changed (Bool.or_true _) settles.affixes_eq (fun _ => settles.item_eq)
      settles.properties_eq

private theorem evaluate_accounts {formula : Formula}
    (clean : (k.evaluate formula d dice).report.error = false) :
    d.Accounts k.catalog strips (k.evaluate formula d dice).report
      (k.evaluate formula d dice).draft := by
  have written (p : PropertyStore) :
      d.Accounts k.catalog strips { evalChange := true } { d with properties := p } :=
    ⟨fun _ => .inl rfl, fun _ => rfl, fun silent => Bool.noConfusion silent, fun _ => rfl⟩
  obtain ⟨p, dice', stays | ⟨level, moved⟩⟩ := evaluate_cases clean
  · rw [stays]
    exact written p
  · rw [moved]
    exact (written p).trans (k.setLevel_accounts level _ dice')

private theorem become_accounts {item : Item} {candidate : Draft}
    (affixes : candidate.affixes = d.affixes) (properties : candidate.properties = d.properties)
    (clean : (k.become item candidate d dice).report.error = false) :
    d.Accounts k.catalog strips (k.become item candidate d dice).report
      (k.become item candidate d dice).draft := by
  obtain ⟨e, adjusted, became⟩ := become_cases clean
  have adjusts := k.world.adjust_adjusts { level := true }
    { candidate with item := item.id, slot := item.slot }
  rw [adjusted] at adjusts
  have settles := k.settled_adjusts e dice
  rw [became]
  refine .of_changed (Bool.or_true _) ?_ (fun silent => ?_) ?_
  · exact settles.affixes_eq.trans (adjusts.affixes_eq.trans affixes)
  · have same := bne_eq_false_iff_eq.mp (Bool.or_eq_false_iff.mp silent).2
    exact settles.item_eq.trans (adjusts.item_eq.trans same)
  · exact settles.properties_eq.trans (adjusts.properties_eq.trans properties)

private theorem setRank_accounts {rank : Int}
    (clean : (k.setRank rank d dice).report.error = false) :
    d.Accounts k.catalog strips (k.setRank rank d dice).report (k.setRank rank d dice).draft := by
  rcases setRank_cases clean with same | ⟨item, dice', became⟩
  · rw [same]
    exact .refl _ _ d _
  · rw [became] at clean ⊢
    exact k.become_accounts rfl rfl clean

private theorem setSlot_accounts {slot : EquipmentSlot}
    (clean : (k.setSlot slot d dice).report.error = false) :
    d.Accounts k.catalog strips (k.setSlot slot d dice).report (k.setSlot slot d dice).draft := by
  rcases setSlot_cases clean with same | ⟨item, dice', became⟩
  · rw [same]
    exact .refl _ _ d _
  · rw [became] at clean ⊢
    exact k.become_accounts rfl rfl clean

/-- A new rarity is a change. Only the affixes that are rolled again are reported, not those that
had to go for them. -/
private theorem rerollRarity_accounts {affixes : Bool}
    (clean : (k.rerollRarity affixes d dice).report.error = false) :
    d.Accounts k.catalog (affixes = true) (k.rerollRarity affixes d dice).report
      (k.rerollRarity affixes d dice).draft := by
  rcases rerollRarity_cases clean with ⟨dice', same⟩ | ⟨rarity, e, dice', adjusted, -, rolled⟩
  · rw [same]
    exact .refl _ _ d _
  · have adjusts := k.world.adjust_adjusts d.checks { d with rarity := rarity }
    rw [adjusted] at adjusts
    rw [rolled]
    cases affixes with
    | false =>
      exact .of_changed rfl adjusts.affixes_eq (fun _ => adjusts.item_eq) adjusts.properties_eq
    | true =>
      have strip : d.Accounts k.catalog (true = true) { changed := true }
          { e with affixes := AttachedAffix.uncounted k.catalog e.affixes } :=
        ⟨fun _ => .inr ⟨rfl, rfl, congrArg _ adjusts.affixes_eq⟩, fun _ => adjusts.item_eq,
          fun _ => adjusts.properties_eq, fun silent => Bool.noConfusion silent⟩
      exact strip.trans (.of_announces (rollAffixes_sameBody _ _) (rollAffixes_announces _ _))

private theorem reseedEach_same {f : AffixFilter} {affixes : List AttachedAffix}
    (none : (k.reseedEach f affixes dice).1.2 = false) :
    (k.reseedEach f affixes dice).2.1 = affixes := by
  induction affixes generalizing dice with
  | nil => rfl
  | cons a as ih =>
    rcases known : k.catalog.affix? a.affix with _ | p
    · simp only [reseedEach, known]
    · by_cases skipped : (p.position == .metadata || !f.accepts p) = true
      · simp only [reseedEach, known, if_pos skipped] at none ⊢
        rw [ih none]
      · simp only [reseedEach, known, if_neg skipped, Bool.true_eq_false] at none

private theorem reseed_announces {f : AffixFilter}
    (clean : (k.reseed f d dice).report.error = false) :
    d.Announces (k.reseed f d dice).report (k.reseed f d dice).draft := by
  have same : (k.reseedEach f d.affixes dice).1.2 = false →
      (k.reseedEach f d.affixes dice).2.1 = d.affixes := k.reseedEach_same
  simp only [reseed] at clean ⊢
  generalize k.reseedEach f d.affixes dice = r at same clean ⊢
  obtain ⟨⟨known, changed⟩, affixes, dice'⟩ := r
  cases known with
  | false => cases clean
  | true =>
    intro silent
    change ({ d with affixes := affixes } : Draft) = d
    rw [show affixes = d.affixes from same silent]

end Workshop

namespace Mutation
open Draft

/-- The report of a mutation without an error accounts for what it did to the draft. -/
private theorem apply_accounts (k : Workshop) (m : Mutation) (d : Draft) (dice : Dice)
    (clean : (m.apply k d dice).report.error = false) :
    d.Accounts k.catalog (m = .rarity true) (m.apply k d dice).report
      (m.apply k d dice).draft := by
  have reseeded (seed : Nat) :
      d.Accounts k.catalog (m = .rarity true) { changed := true } { d with seed := seed } :=
    .of_changed rfl rfl (fun _ => rfl) rfl
  have copied {source : List AttachedAffix} {f : AffixFilter} {enforce : Bool} {e : Draft}
      (clean : (k.copy source f enforce e dice).report.error = false) :
      e.Accounts k.catalog (m = .rarity true) (k.copy source f enforce e dice).report
        (k.copy source f enforce e dice).draft :=
    .of_announces (copyAffixes_sameBody ..) (copyAffixes_announces clean)
  have dropped (f : AffixFilter) : d.Accounts k.catalog (m = .rarity true)
      (d.dropAffixes k.catalog f).1 (d.dropAffixes k.catalog f).2 :=
    .of_announces rfl (dropAffixes_announces f d)
  cases m with
  | addAffixes count filter =>
    exact k.validated_accounts (.of_announces (addAffixes_sameBody ..)
      (addAffixes_announces _ _ _ _ _))
  | addAffix affix =>
    exact k.validated_accounts (.of_announces (addAffix_sameBody ..) (addAffix_announces _ _ _ _))
  | noVisuals =>
    exact .of_announces (hideVisuals_sameBody d) fun silent => hideVisuals_same d silent
  | clampLevel lo hi => exact k.setLevel_accounts _ d dice
  | cloneAffixes position filter enforce =>
    obtain ⟨s, -, copies⟩ := cloneAffixes_cases clean
    rw [copies] at clean ⊢
    exact k.validated_accounts (copied (k.validated_clean clean))
  | cloneBuiltinAffixes position filter enforce =>
    obtain ⟨s, item, -, -, copies⟩ := cloneBuiltinAffixes_cases clean
    rw [copies] at clean ⊢
    exact k.validated_accounts (copied (k.validated_clean clean))
  | cloneLevel position =>
    obtain ⟨s, -, moved⟩ := cloneLevel_cases clean
    rw [moved]
    exact k.setLevel_accounts _ d dice
  | cloneSeed position =>
    obtain ⟨s, -, other⟩ := cloneSeed_cases clean
    rw [other]
    exact reseeded _
  | dropAffixes filter => exact k.validated_accounts (dropped filter)
  | eval formula => exact k.evaluate_accounts clean
  | binding change =>
    obtain ⟨owner, binding, checks, rebound, -⟩ := rebind_draft change d dice
    simp only [apply]
    refine ⟨fun _ => .inl ?_, fun _ => ?_, fun _ => ?_, fun silent => ?_⟩
    · rw [rebound]
    · rw [rebound]
    · rw [rebound]
    · rw [rebind_same silent]
  | level => exact k.setLevel_accounts _ d dice
  | rank rank => exact k.setRank_accounts clean
  | rarity affixes => exact (k.rerollRarity_accounts clean).mono (congrArg Mutation.rarity)
  | slot slot => exact k.setSlot_accounts clean
  | affixSeed filter =>
    refine .of_announces ?_ (k.reseed_announces clean)
    simp only [apply, Workshop.reseed_draft]
    rfl
  | builtinSeed => exact reseeded _
  | offsetLevel offset => exact k.setLevel_accounts _ d dice
  | replaceAffixes position filter enforce =>
    obtain ⟨s, -, replaced⟩ := replaceAffixes_cases clean
    rw [replaced] at clean ⊢
    have passed := k.validated_clean clean
    have copying := copied (Bool.or_eq_false_iff.mp passed).1
    exact k.validated_accounts ((dropped filter).trans copying)

private theorem applyAll_accounts (k : Workshop) (ms : List Mutation) (d : Draft) (dice : Dice)
    (clean : (applyAll k ms d dice).2.report.error = false) :
    d.Accounts k.catalog (.rarity true ∈ ms) (applyAll k ms d dice).2.report
      (applyAll k ms d dice).2.draft := by
  rw [applyAll_eq] at clean ⊢
  have next (m : Mutation) (hm : m ∈ ms) (c : Change)
      (hc : d.Accounts k.catalog (.rarity true ∈ ms) c.report c.draft)
      (passed : (apply k m c.draft c.dice).report.error = false) :
      d.Accounts k.catalog (.rarity true ∈ ms) (applyNext k m c).report (applyNext k m c).draft :=
    hc.trans ((apply_accounts k m c.draft c.dice passed).mono fun strips => strips ▸ hm)
  have run := applyEach_carries k
    (fun c => d.Accounts k.catalog (.rarity true ∈ ms) c.report c.draft) ms next
    ⟨.none, d, dice⟩ (.refl _ _ d _) clean
  simp only at clean ⊢
  rwa [if_neg (by rw [clean]; decide)]

end Mutation

namespace Roll
variable (w : World) (s : BranchSettings)

/-- Every difference that mutations without an error make is on their report, with one exception: a
new rarity that rolls affixes again strips the counted ones, and when none follow it reports a
change only. In particular an empty report means that the draft is as it was. -/
theorem mutate_reports (ms : List Mutation) (d : Draft) (r : Roll)
    (clean : (r.mutate w s ms d).report.error = false) :
    let ran := r.mutate w s ms d
    (ran.report.affixChange = false → ran.draft.affixes = d.affixes ∨
      .rarity true ∈ ms ∧ ran.report.changed = true ∧
        ran.draft.affixes = AttachedAffix.uncounted w.catalog d.affixes) ∧
    (ran.report.itemChange = false → ran.draft.item = d.item) ∧
    (ran.report.evalChange = false → ran.draft.properties = d.properties) ∧
    (ran.report.changed = false →
      ran.draft.level = d.level ∧ ran.draft.rank = d.rank ∧ ran.draft.rarity = d.rarity ∧
        ran.draft.slot = d.slot ∧ ran.draft.seed = d.seed ∧ ran.draft.binding = d.binding ∧
        ran.draft.equippableBy = d.equippableBy ∧ ran.draft.checks = d.checks) ∧
    (ran.report = .none → ran.draft = d) := by
  intro ran
  have accounts : d.Accounts w.catalog (.rarity true ∈ ms) ran.report ran.draft :=
    Mutation.applyAll_accounts (r.workshop w s) ms d r.dice clean
  refine ⟨accounts.affixes, accounts.item, accounts.properties, fun silent => ?_, fun empty => ?_⟩
  · rw [accounts.rest silent]
    exact ⟨rfl, rfl, rfl, rfl, rfl, rfl, rfl, rfl⟩
  · generalize ran.draft = e at accounts ⊢
    rw [empty] at accounts
    have rest := accounts.rest rfl
    rw [accounts.item rfl, accounts.properties rfl] at rest
    rcases accounts.affixes rfl with same | ⟨-, changed, -⟩
    · rw [same] at rest
      exact rest
    · cases changed

/-- A binding and a new seed leave the affixes alone. -/
theorem mutate_reports_seed :
    let d : Draft := { item := ⟨100⟩, rarity := ⟨10⟩, level := 1, affixes := [{ affix := ⟨1⟩ }] }
    let ran := (start 1).mutate {} {} [.binding .avatar, .builtinSeed] d
    ran.report = { changed := true } ∧ ran.draft.affixes = d.affixes := by
  intro d ran
  have reported : ran.report = { changed := true } := by decide +kernel
  have clean : ran.report.error = false := by rw [reported]
  have silent : ran.report.affixChange = false := by rw [reported]
  refine ⟨reported, ?_⟩
  rcases (mutate_reports {} {} [.binding .avatar, .builtinSeed] d (start 1) clean).1 silent with
    same | ⟨again, -, -⟩
  · exact same
  · simp at again

/-- A new rarity strips the one prefix, no other follows, and no affix change is reported. -/
theorem mutate_reports_stripped :
    let content : Content := {
      rarities := [{ id := ⟨10⟩ }, { id := ⟨12⟩, weightCurve := ⟨5⟩ }]
      curves := [{ id := ⟨5⟩, min := 1, max := 1, values := [1] }]
      affixes := [{ id := ⟨1⟩, position := .prefixed }]
      items := [{ id := ⟨100⟩ }] }
    let d : Draft := {
      item := ⟨100⟩, rarity := ⟨10⟩, level := 1, affixes := [{ affix := ⟨1⟩, seed := 7 }] }
    ∃ c, Catalog.ofContent content = .ok c ∧
      let ran := (start 1).mutate { catalog := c } { level := 1 } [.rarity true] d
      ran.report = { changed := true } ∧ ran.draft.affixes ≠ d.affixes := by
  refine ⟨_, rfl, ?_⟩
  decide +kernel

end Roll

end Spoils
