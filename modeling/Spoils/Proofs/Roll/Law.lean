import Spoils.Roll.Select

/-! Laws of rolls: what a law has to say of the single steps, to be obeyed by every tree. -/
namespace Spoils

/-- Relates the settings of a branch, whether it succeeded, and the roll before and after it. -/
abbrev Law := BranchSettings → Bool → Roll → Roll → Prop

/-- A draft as a roll makes it: it has a rarity, and nothing was put on it yet. -/
structure Draft.IsNew (d : Draft) : Prop where
  level : minItemLevel ≤ d.level
  rarity : d.rarity.isValid = true
  affixes : d.affixes = []
  properties : d.properties = .empty
  binding : d.binding = 0#8
  equippableBy : d.equippableBy = .none

/-- Loot that is no item. -/
def Grant.IsPlain (g : Grant) : Prop := g.draft? = none

/-- What a branch may queue when these drafts are granted: a new draft that passed the checks it
keeps, a copy of a granted one after mutations, or other loot of the kinds it gives. Its mutations
are among those allowed. -/
inductive Pending.Queued (w : World) (s : BranchSettings) (gives : Grant → Prop)
    (allowed : Mutation → Prop) (granted : List Draft) : Pending → Prop where
  | item {d : Draft} {checks : Checks} (seed : Nat) (mutations : List Mutation) (new : d.IsNew)
      (fits : w.accepts checks d = true) (listed : ∀ m ∈ mutations, allowed m) :
      Queued w s gives allowed granted
        (.item { d with seed := seed, checks := checks } mutations true)
  | copy {d : Draft} {dice : Dice} {mutations : List Mutation} (source : d ∈ granted)
      (clean : (Mutation.applyAll ⟨w, granted, s⟩ mutations { d with checks := d.copyChecks }
        dice).2.report.error = false) (listed : ∀ m ∈ mutations, allowed m) :
      Queued w s gives allowed granted (.item (Mutation.applyAll ⟨w, granted, s⟩ mutations
        { d with checks := d.copyChecks } dice).2.draft [] false)
  | other {g : Grant} (given : gives g) : Queued w s gives allowed granted (.other g)

/-- Nothing can discard the entry. -/
def Pending.IsSure : Pending → Prop
  | .item _ mutations _ => mutations = []
  | .other _ => True

/-- What a law has to say of the steps at the ends of trees, which give loot of some kinds besides
items, and apply mutations that are allowed. They draw, follow each other, grant what they queued,
and drop what waits. -/
structure Law.Ends (w : World) (gives : BranchSettings → Grant → Prop) (L : Law)
    (allowed : Mutation → Prop := fun _ => True) : Prop where
  draw : ∀ s r dice, L s false r { r with dice := dice }
  trans : ∀ {s a b r r' r''}, L s a r r' → L s b r' r'' → L s (a || b) r r''
  granted : ∀ s r ps (o : Outcome), (∀ p ∈ ps, p.Queued w s (gives s) allowed r.drafts) →
    (ps.length ≤ 1 ∨ ∀ p ∈ ps, p.IsSure) → (o.success = false → ps = []) →
    L s (Roll.finish w s o { r with queue := r.queue ++ ps }).1.success r
      (Roll.finish w s o { r with queue := r.queue ++ ps }).2
  abandoned : ∀ s r, L s false r r.clearQueue

/-- What a law has to say of all single steps in a world. Besides what happens at the ends,
branches run under settings of their own and leave effects behind. -/
structure Law.Holds (w : World) (L : Law) (allowed : Mutation → Prop := fun _ => True)
    (gives : BranchSettings → Grant → Prop := fun _ => Grant.IsPlain) : Prop
    extends L.Ends w gives allowed where
  deeper : ∀ {s ok r r'}, L { s with depth := s.depth + 1 } ok r r' → L s ok r r'
  forced : ∀ {s ok r r'} avatar,
    L { s with avatar := avatar, forceUsable := true } ok r r' → L s ok r r'
  modified : ∀ {s ok r r'} modifiers dice,
    L { (Modifier.applyAll w modifiers s dice).1 with cooldown := none } ok r r' → L s ok r r'
  called : ∀ s r c, L s true r (if s.isPreview then r else r.addEffect (.callback c))
  received : ∀ s r key, w.oracle.hasReceived key = false → key.isValid = true →
    s.isPreview = false → L s true r (r.addEffect (.markReceived key))
  cooled : ∀ s r modifiers dice gate,
    (Modifier.applyAll w modifiers s dice).1.enforcedGate? = some gate →
    w.oracle.isOnCooldown gate = false → L s true r (r.addEffect (.useCooldown gate))

namespace Law.Ends
variable {w : World} {gives : BranchSettings → Grant → Prop} {L : Law} {s : BranchSettings}
  {allowed : Mutation → Prop} {r r' : Roll} {ok : Bool}

theorem stay (hL : L.Ends w gives allowed) (s : BranchSettings) (r : Roll) : L s false r r :=
  hL.draw s r r.dice

/-- What is drawn before or after a step does not count for its success. -/
theorem draw_before (hL : L.Ends w gives allowed) {dice : Dice} (h : L s ok { r with dice := dice } r') :
    L s ok r r' := by
  have whole := hL.trans (hL.draw s r dice) h
  rwa [Bool.false_or] at whole

theorem finish_law (hL : L.Ends w gives allowed) (s : BranchSettings) (r : Roll) (o : Outcome) :
    L s (r.finish w s o).1.success r (r.finish w s o).2 := by
  have step := hL.granted s r [] o (by simp) (.inl (by simp)) (fun _ => rfl)
  rwa [List.append_nil] at step

end Law.Ends

end Spoils
