import Spoils.Catalog.Lineage
import Spoils.Picker

/-! Rolling affixes onto drafts, copying them between drafts, and dropping them. -/
namespace Spoils

/-- A draft after a change, what the change reports, and the dice for the next one. -/
structure Change where
  report : MutationReport := .none
  draft : Draft
  dice : Dice

def Change.also (c : Change) (r : MutationReport) : Change :=
  { c with report := c.report.union r }

namespace Affix

/-- Draws a scope, one that is not taken if there is any. An affix without scopes is general. -/
def pickScope (a : Affix) (taken : PrototypeId → Bool) (dice : Dice) : PrototypeId × Dice :=
  match (Picker.uniform (a.scopes.filter fun s => !taken s)).pickOne dice with
  | (some scope, dice) => (scope, dice)
  | (none, dice) =>
    let (scope, dice) := (Picker.uniform a.scopes).pickOne dice
    (scope.getD .none, dice)

def pickerFor (c : Catalog) (pool : List Affix) (item : PrototypeId) (f : AffixFilter) :
    Picker Affix :=
  ⟨(pool.filter fun a => decide (0 < a.weight) && f.accepts a && c.allowsAttachment a item).map
    fun a => (a, a.weight)⟩

end Affix

/-- The affixes that no limit counts, unknown ones among them. -/
def AttachedAffix.uncounted (c : Catalog) (affixes : List AttachedAffix) : List AttachedAffix :=
  affixes.filter fun a => (c.affix? a.affix).all fun p => !p.position.isCounted

namespace Draft

def hasAffix (d : Draft) (affix scope : PrototypeId) : Bool :=
  d.affixes.any fun a => a.key == (affix, scope)

/-- Gives the first affix with a key another seed. -/
def reseed (key : PrototypeId × PrototypeId) (seed : Nat) : List AttachedAffix → List AttachedAffix
  | [] => []
  | a :: as => if a.key == key then { a with seed := seed } :: as else a :: reseed key seed as

/-- Whether all affixes are known, and no visual one stands beside the one that hides visuals. -/
def hasSoundAffixes (c : Catalog) (d : Draft) : Bool :=
  (d.affixes.all fun a => (c.affix? a.affix).isSome) &&
    !((d.affixes.any fun a => (c.affix? a.affix).any fun p => p.position == .visual) &&
      c.noVisualsAffix.isValid && d.affixes.any fun a => a.affix == c.noVisualsAffix)

def limits? (c : Catalog) (occasion : Occasion) (d : Draft) : Option AffixLimits :=
  (c.item? d.item).bind fun item => item.limitsFor? d.rarity occasion

def fault (c : Catalog) (d : Draft) : MutationReport :=
  if !d.isValid then .failed
  else if !d.hasSoundAffixes c then .badAffix
  else .none

def attachAffix (a : Affix) (scope : PrototypeId) (seed : Nat) (d : Draft) : Draft :=
  { d with affixes := d.affixes ++ [{
      affix := a.id, scope := scope, levelRequirement := a.levelRequirement, seed := seed }] }

/-- Puts an affix with a scope on, with a new seed. A copy that the draft has may refuse it, or
take the seed. -/
def putAffix (a : Affix) (scope : PrototypeId) (d : Draft) (dice : Dice) : Option (Draft × Dice) :=
  let draw (put : Nat → Draft) : Option (Draft × Dice) := some (put dice.seed.1, dice.seed.2)
  if d.hasAffix a.id scope then
    match a.duplicates with
    | .fail | .ignore => none
    | .overwrite => draw fun seed => { d with affixes := reseed (a.id, scope) seed d.affixes }
    | .append => draw fun seed => d.attachAffix a scope seed
  else draw fun seed => d.attachAffix a scope seed

/-- Draws affixes until one can be put on; each is drawn at most once. Tells whether one was put
on, and what is left to draw from. -/
def rollOneWith : Nat → Picker Affix → Draft → Dice → Bool × Picker Affix × Draft × Dice
  | 0, p, d, dice => (false, p, d, dice)
  | fuel + 1, p, d, dice =>
    match p.pick dice with
    | (none, dice) => (false, p, d, dice)
    | (some (a, p), dice) =>
      let (scope, dice) := a.pickScope (d.hasAffix a.id) dice
      match d.putAffix a scope dice with
      | some (d, dice) => (true, p, d, dice)
      | none => rollOneWith fuel p d dice

def rollOne (p : Picker Affix) (d : Draft) (dice : Dice) : Bool × Picker Affix × Draft × Dice :=
  rollOneWith p.size p d dice

/-- Puts on a number of affixes, or as many as can be drawn. Tells whether there was any. -/
def rollMany : Nat → Picker Affix → Draft → Dice → Bool × Draft × Dice
  | 0, _, d, dice => (false, d, dice)
  | n + 1, p, d, dice =>
    match rollOne p d dice with
    | (false, _, d, dice) => (false, d, dice)
    | (true, p, d, dice) =>
      let (_, d, dice) := rollMany n p d dice
      (true, d, dice)

def rollCount (count : Int) (p : Picker Affix) (d : Draft) (dice : Dice) : Change :=
  let (added, d, dice) := rollMany count.toNat p d dice
  { report := { affixChange := added }, draft := d, dice := dice }

/-- Fills a category up to the count that the limits want. -/
def fillCategory (c : Catalog) (s : Option BranchSettings) (change : Change)
    (e : CategoryLimit) : Change :=
  let d := change.draft
  let needed := AffixLimits.categoryCount e s - d.countInCategory c e.category
  let pool := Affix.pickerFor c c.affixes d.item { categories := [e.category] }
  (d.rollCount needed pool change.dice).also change.report

/-- Fills a position up to a rolled count within its limits. -/
def fillPosition (c : Catalog) (s : Option BranchSettings) (l : AffixLimits) (change : Change)
    (p : AffixPosition) : Change :=
  if l.maxCount p s ≤ 0 then change
  else
    let d := change.draft
    let (target, dice) := change.dice.int (l.minCount p s) (l.maxCount p s + 1)
    let pool := Affix.pickerFor c (c.affixesAt p) d.item { position := p }
    (d.rollCount (target - d.countAtPosition c p) pool dice).also change.report

def fillCategories (c : Catalog) (s : Option BranchSettings) (l : AffixLimits) (d : Draft)
    (dice : Dice) : Change :=
  l.categories.foldl (fillCategory c s) ⟨.none, d, dice⟩

def fillPositions (c : Catalog) (s : Option BranchSettings) (l : AffixLimits) (change : Change) :
    Change :=
  (AffixPosition.all.filter (·.isCounted)).foldl (fillPosition c s l) change

/-- Rolls the affixes that the limits of the draft ask for: the categories first, then every
counted position. -/
def rollAffixes (c : Catalog) (occasion : Occasion) (s : Option BranchSettings) (d : Draft)
    (dice : Dice) : Change :=
  let report := d.fault c
  if report.error then ⟨report, d, dice⟩
  else
    match c.item? d.item with
    | none => ⟨.failed, d, dice⟩
    | some item =>
      match item.limitsFor? d.rarity occasion with
      | none => ⟨.none, d, dice⟩
      | some l =>
        fillPositions c s l (fillCategories c s l d dice)

/-- Adds affixes that pass a filter. The limits of the position or else of the categories must
leave room for all of them; a filter that asks for nothing adds nothing. -/
def addAffixes (c : Catalog) (occasion : Occasion) (s : BranchSettings) (count : Int)
    (f : AffixFilter) (d : Draft) (dice : Dice) : Change :=
  let unchanged (report : MutationReport) : Change := ⟨report, d, dice⟩
  let limits := d.limits? c occasion
  if count ≤ 0 || !d.isValid || (c.item? d.item).isNone then unchanged .failed
  else if !d.hasSoundAffixes c then unchanged .badAffix
  else if f.position != .none then
    let room := limits.all fun l =>
      Bounds.int16.clamp (d.countAtPosition c f.position + count) ≤ l.maxCount f.position (some s)
    if room then d.rollCount count (Affix.pickerFor c (c.affixesAt f.position) d.item f) dice
    else unchanged .failed
  else if !f.categories.isEmpty then
    let room := limits.all fun l => f.categories.all fun category =>
      Bounds.int16.clamp (d.countInCategory c category + count) ≤ l.categoryMax category (some s)
    if room then d.rollCount count (Affix.pickerFor c c.affixes d.item f) dice
    else unchanged .failed
  else if !f.keywords.isEmpty then
    d.rollCount count (Affix.pickerFor c c.affixes d.item f) dice
  else unchanged .none

/-- Adds one given affix, within the limit of its position. -/
def addAffix (c : Catalog) (occasion : Occasion) (s : BranchSettings) (affix : PrototypeId)
    (d : Draft) (dice : Dice) : Change :=
  let unchanged (report : MutationReport) : Change := ⟨report, d, dice⟩
  match c.affix? affix with
  | none => unchanged .failed
  | some a =>
    let full := (d.limits? c occasion).any fun l =>
      a.position.isCounted && l.maxCount a.position (some s) ≤ d.countAtPosition c a.position
    if !d.isValid || !c.allowsAttachment a d.item then unchanged .failed
    else if !d.hasSoundAffixes c then unchanged .badAffix
    else if full then unchanged .failed
    else
      match rollOne (Picker.uniform [a]) d dice with
      | (true, _, d, dice) => ⟨{ affixChange := true }, d, dice⟩
      | (false, _, d, dice) => ⟨.failed, d, dice⟩

/-- What is wrong with a scope of an affix: it is unknown, or none that the affix allows. -/
def scopeFault (c : Catalog) (a : Affix) (scope : PrototypeId) : MutationReport :=
  if !scope.isValid || a.scopes.isEmpty then .none
  else if (c.resolve? scope).isNone then { error := true, scopeUnknown := true }
  else if !a.scopes.any (c.isChildOf scope) then { error := true, scopeRefused := true }
  else .none

def hasRoom (c : Catalog) (d : Draft) (a : Affix) (l : AffixLimits) : Bool :=
  !(a.position.isCounted && l.maxCount a.position none ≤ d.countAtPosition c a.position) &&
    a.categories.all fun category =>
      d.countInCategory c category < l.categoryMax category none

/-- Copies affixes one after the other; the first that cannot be copied ends it with an error. -/
def copyEach (c : Catalog) (f : AffixFilter) (limits : Option AffixLimits) :
    List AttachedAffix → MutationReport → Draft → MutationReport × Draft
  | [], report, d => (report, d)
  | copy :: rest, report, d =>
    match c.affix? copy.affix with
    | none => (.badAffix, d)
    | some a =>
      if !f.accepts a then copyEach c f limits rest report d
      else if (scopeFault c a copy.scope).error then (scopeFault c a copy.scope, d)
      else if d.hasAffix copy.affix copy.scope then
        match a.duplicates with
        | .ignore => copyEach c f limits rest report d
        | .fail | .overwrite | .append => (.failed, d)
      else if !limits.all (d.hasRoom c a) then (.failed, d)
      else
        copyEach c f limits rest (report.union { affixChange := true })
          { d with affixes := d.affixes ++ [copy] }

/-- Copies the affixes that pass a filter, within the limits of the draft if they are to hold. -/
def copyAffixes (c : Catalog) (occasion : Occasion) (source : List AttachedAffix)
    (f : AffixFilter) (enforce : Bool) (d : Draft) : MutationReport × Draft :=
  if !d.hasSoundAffixes c then (.badAffix, d)
  else if !enforce then copyEach c f none source .none d
  else
    match d.limits? c occasion with
    | none => (.failed, d)
    | some l => copyEach c f (some l) source .none d

/-- Drops the affixes that pass a filter, except metadata and unknown ones. -/
def dropAffixes (c : Catalog) (f : AffixFilter) (d : Draft) : MutationReport × Draft :=
  let kept := d.affixes.filter fun a =>
    (c.affix? a.affix).all fun p => p.position == .metadata || !f.accepts p
  ({ affixChange := kept.length != d.affixes.length }, { d with affixes := kept })

end Draft

end Spoils
