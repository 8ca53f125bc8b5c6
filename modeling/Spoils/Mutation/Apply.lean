import Spoils.Affix.Roll
import Spoils.Formula.Eval
import Spoils.Roll.World

/-! Mutations at work on drafts. -/
namespace Spoils

namespace Draft

/-- Changes how the draft is bound. Without a binding it need not be usable any more. -/
def rebind (d : Draft) (change : BindingChange) (dice : Dice) : Change :=
  let freed (found : Bool × Draft) : Bool × Draft :=
    (found.1, if found.1 then
      { found.2 with checks := { found.2.checks with usableBy := false } } else found.2)
  let (changed, d) :=
    match change with
    | .none => freed (d.bind false .none)
    | .tradeRestricted => d.restrictTrade true false
    | .tradeRestrictedUnbind => freed (d.restrictTrade true true)
    | .avatar => d.bind true (if d.equippableBy.isValid then d.equippableBy else d.rollFor)
  ⟨{ changed := changed }, d, dice⟩

def formulaStore (d : Draft) : PropertyStore :=
  ((d.properties.insert PropertyId.itemLevel (.integer d.level)).insert PropertyId.itemRarity
    (.prototype d.rarity)).insert PropertyId.itemSeed (.integer d.seed)

end Draft

/-- What a mutation reads: the world, the items granted so far and the settings in force. -/
structure Workshop where
  world : World
  granted : List Draft
  settings : BranchSettings

namespace Workshop

variable (k : Workshop)

def catalog : Catalog := k.world.catalog

def source? (position : Int) : Option Draft :=
  if position < 0 then none else k.granted[position.toNat]?

/-- Adds what is wrong with the draft, unless the change failed already. -/
def validated (c : Change) : Change :=
  if c.report.error then c else c.also (c.draft.fault k.catalog)

/-- Adjusts the draft by its own checks and validates it. -/
def settled (d : Draft) (dice : Dice) : Change :=
  match k.world.adjust d.checks d with
  | (false, d) => ⟨.failed, d, dice⟩
  | (true, d) => ⟨d.fault k.catalog, d, dice⟩

/-- Moves the draft to a level, which takes its rank away. -/
def setLevel (level : Int) (d : Draft) (dice : Dice) : Change :=
  if d.level == level then ⟨.none, d, dice⟩
  else (k.settled { d with level := level, rank := 0 } dice).also { changed := true }

/-- Evaluates a formula over the properties of the draft, and moves the draft to the level that
it leaves there. -/
def evaluate (formula : Formula) (d : Draft) (dice : Dice) : Change :=
  let scope : Scope := { catalog := some k.catalog, dice := some dice }
  let (v, scope) := formula.eval (scope.bind .default (.store ⟨.lent, d.formulaStore⟩))
  let d := { d with properties := (scope.lentStore? .default).getD .empty }
  let dice := scope.dice.getD dice
  if v.isError then ⟨.failed, d, dice⟩
  else
    let level := Bounds.int32.clamp (d.properties.int PropertyId.itemLevel)
    if level == d.level then ⟨{ evalChange := true }, d, dice⟩
    else (k.setLevel (World.itemLevel level true) d dice).also { evalChange := true }

def become (item : Item) (candidate d : Draft) (dice : Dice) : Change :=
  match k.world.adjust { level := true } { candidate with item := item.id, slot := item.slot } with
  | (false, _) => ⟨.failed, d, dice⟩
  | (true, candidate) =>
    (k.settled candidate dice).also { changed := true, itemChange := item.id != d.item }

def setRank (rank : Int) (d : Draft) (dice : Dice) : Change :=
  if rank == 0 then ⟨.failed, d, dice⟩
  else if d.rank == rank then ⟨.none, d, dice⟩
  else
    let parent := k.catalog.parentOf d.item
    let candidates :=
      if d.slot.isGear then k.catalog.concreteForSlot d.slot d.rollFor
      else if parent.isValid then k.catalog.concreteUnder parent
      else (k.catalog.item? d.item).toList
    let candidate := { d with rank := rank }
    let checks := { Checks.all with level := false }
    match k.world.pickItem checks candidates candidate d.rollFor dice with
    | (none, dice) => ⟨.failed, d, dice⟩
    | (some item, dice) => k.become item candidate d dice

/-- Rolls another rarity, and the counted affixes with it if they are asked for. -/
def rerollRarity (affixes : Bool) (d : Draft) (dice : Dice) : Change :=
  let s := k.settings
  match k.world.rollRarity s.rarities d.level (k.catalog.item? d.item) dice with
  | (rarity, dice) =>
    if !rarity.isValid then ⟨.failed, d, dice⟩
    else if rarity == d.rarity then ⟨.none, d, dice⟩
    else
      match k.world.adjust d.checks { d with rarity := rarity } with
      | (false, d) => ⟨.failed, d, dice⟩
      | (true, d) =>
        if affixes then
          let d := { d with affixes := AttachedAffix.uncounted k.catalog d.affixes }
          (d.rollAffixes k.catalog k.world.occasion (some s) dice).also { changed := true }
        else Change.also ⟨d.fault k.catalog, d, dice⟩ { changed := true }

def setSlot (slot : EquipmentSlot) (d : Draft) (dice : Dice) : Change :=
  if d.slot == slot then ⟨.none, d, dice⟩
  else
    let parent := k.catalog.parentOf d.item
    let candidates := (k.catalog.concreteForSlot slot d.rollFor).filter fun item =>
      !parent.isValid || k.catalog.isChildOf item.id parent
    let candidate := { d with slot := slot }
    let checks := { d.checks with level := false }
    match k.world.pickItem checks candidates candidate d.rollFor dice with
    | (none, dice) => ⟨.failed, d, dice⟩
    | (some item, dice) => k.become item candidate d dice

/-- Draws new seeds for the affixes that pass a filter, up to the first unknown affix. Tells
whether all are known, and whether any has changed. -/
def reseedEach (f : AffixFilter) :
    List AttachedAffix → Dice → (Bool × Bool) × List AttachedAffix × Dice
  | [], dice => ((true, false), [], dice)
  | a :: as, dice =>
    match k.catalog.affix? a.affix with
    | none => ((false, false), a :: as, dice)
    | some p =>
      if p.position == .metadata || !f.accepts p then
        let (told, as, dice) := reseedEach f as dice
        (told, a :: as, dice)
      else
        let drawn := dice.seed
        let rest := reseedEach f as drawn.2
        ((rest.1.1, true), { a with seed := drawn.1 } :: rest.2.1, rest.2.2)

def reseed (f : AffixFilter) (d : Draft) (dice : Dice) : Change :=
  let ((known, changed), affixes, dice) := k.reseedEach f d.affixes dice
  let d := { d with affixes := affixes }
  if known then ⟨{ changed := changed, affixChange := changed }, d, dice⟩
  else ⟨.badAffix, d, dice⟩

/-- The affixes that an item has from the start, as they stand on a draft. -/
def builtins (item : Item) : List AttachedAffix :=
  item.builtinAffixes.map fun b =>
    { affix := b.affix
      scope := b.scope
      levelRequirement := ((k.catalog.affix? b.affix).map (·.levelRequirement)).getD 0
      seed := b.seed }

def copy (source : List AttachedAffix) (f : AffixFilter) (enforce : Bool) (d : Draft)
    (dice : Dice) : Change :=
  let (report, d) := d.copyAffixes k.catalog k.world.occasion source f enforce
  ⟨report, d, dice⟩

end Workshop

namespace Mutation

/-- Applies a mutation to a draft. After an error the draft may be changed in part. -/
def apply (k : Workshop) (m : Mutation) (d : Draft) (dice : Dice) : Change :=
  let c := k.catalog
  let occasion := k.world.occasion
  let withSource (position : Int) (f : Draft → Change) : Change :=
    match k.source? position with
    | some source => f source
    | none => ⟨.failed, d, dice⟩
  match m with
  | .addAffixes count filter => k.validated (d.addAffixes c occasion k.settings count filter dice)
  | .addAffix id => k.validated (d.addAffix c occasion k.settings id dice)
  | .noVisuals =>
    let (changed, d) := d.hideVisuals c
    ⟨{ changed := changed, affixChange := changed }, d, dice⟩
  | .clampLevel lo hi =>
    k.setLevel (if hi = 0 then max d.level lo else max lo (min d.level (max hi lo))) d dice
  | .cloneAffixes source filter enforce =>
    withSource source fun s => k.validated (k.copy s.affixes filter enforce d dice)
  | .cloneBuiltinAffixes source filter enforce =>
    withSource source fun s =>
      match c.item? s.item with
      | some item => k.validated (k.copy (k.builtins item) filter enforce d dice)
      | none => ⟨.failed, d, dice⟩
  | .cloneLevel source => withSource source fun s => k.setLevel s.level d dice
  | .cloneSeed source =>
    withSource source fun s => ⟨{ changed := true }, { d with seed := s.seed }, dice⟩
  | .dropAffixes filter =>
    let (report, d) := d.dropAffixes c filter
    k.validated ⟨report, d, dice⟩
  | .eval formula => k.evaluate formula d dice
  | .binding change => d.rebind change dice
  | .level => k.setLevel (World.itemLevel k.settings.level k.settings.levelVerbatim) d dice
  | .rank value => k.setRank value d dice
  | .rarity affixes => k.rerollRarity affixes d dice
  | .slot value => k.setSlot value d dice
  | .affixSeed filter => k.reseed filter d dice
  | .builtinSeed =>
    let (seed, dice) := dice.seed
    ⟨{ changed := true }, { d with seed := seed }, dice⟩
  | .offsetLevel offset =>
    let level := Bounds.int32.clamp (d.level + offset)
    k.setLevel (World.itemLevel level true) d dice
  | .replaceAffixes source filter enforce =>
    withSource source fun s =>
      let (dropped, d) := d.dropAffixes c filter
      k.validated ((k.copy s.affixes filter enforce d dice).also dropped)

def applyNext (k : Workshop) (m : Mutation) (c : Change) : Change :=
  (m.apply k c.draft c.dice).also c.report

/-- Applies mutations in order up to the first error; tells how many were begun. -/
def applyEach (k : Workshop) : List Mutation → Change → Nat × Change
  | [], c => (0, c)
  | m :: ms, c =>
    let next := m.applyNext k c
    if next.report.error then (1, next)
    else
      let (begun, last) := applyEach k ms next
      (begun + 1, last)

/-- Applies mutations as one: after an error the draft is what it was before the first. Tells how
many were begun. -/
def applyAll (k : Workshop) (ms : List Mutation) (d : Draft) (dice : Dice) : Nat × Change :=
  let (begun, last) := applyEach k ms ⟨.none, d, dice⟩
  (begun, if last.report.error then { last with draft := d } else last)

end Mutation

end Spoils
