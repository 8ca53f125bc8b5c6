import Spoils.Affix.Basic
import Spoils.Formula.Basic
import Spoils.Item.Draft

/-! The changes that a drafted item goes through before it is granted. -/
namespace Spoils

inductive BindingChange where
  | none | tradeRestricted | tradeRestrictedUnbind | avatar
deriving DecidableEq, Repr, Inhabited

/-- Mutations that copy take their source from the items granted so far, by position. -/
inductive Mutation where
  | addAffixes (count : Int) (filter : AffixFilter)
  | addAffix (affix : PrototypeId)
  | noVisuals
  | clampLevel (min max : Int)
  | cloneAffixes (source : Int) (filter : AffixFilter) (enforceLimits : Bool)
  | cloneBuiltinAffixes (source : Int) (filter : AffixFilter) (enforceLimits : Bool)
  | cloneLevel (source : Int)
  | cloneSeed (source : Int)
  | dropAffixes (filter : AffixFilter)
  /-- A formula over the properties of the item; the level it writes becomes the item's. -/
  | eval (formula : Formula)
  | binding (change : BindingChange)
  | level
  | rank (rank : Int)
  | rarity (rerollAffixes : Bool)
  | slot (slot : EquipmentSlot)
  | affixSeed (filter : AffixFilter)
  | builtinSeed
  | offsetLevel (offset : Int)
  | replaceAffixes (source : Int) (filter : AffixFilter) (enforceLimits : Bool)

namespace Mutation

def name : Mutation → String
  | .addAffixes .. => "AddAffixes"
  | .addAffix _ => "AddAffix"
  | .noVisuals => "ApplyNoVisualsOverride"
  | .clampLevel .. => "ClampLevel"
  | .cloneAffixes .. => "CloneAffixes"
  | .cloneBuiltinAffixes .. => "CloneBuiltinAffixes"
  | .cloneLevel _ => "CloneLevel"
  | .cloneSeed _ => "CloneSeed"
  | .dropAffixes _ => "DropAffixes"
  | .eval _ => "Eval"
  | .binding _ => "MutateBinding"
  | .level => "MutateLevel"
  | .rank _ => "MutateRank"
  | .rarity _ => "MutateRarity"
  | .slot _ => "MutateSlot"
  | .affixSeed _ => "MutateAffixSeed"
  | .builtinSeed => "MutateBuiltinSeed"
  | .offsetLevel _ => "OffsetLootLevel"
  | .replaceAffixes .. => "ReplaceAffixes"

/-- A clamp starts at zero at least, and an upper end is not below the lower one. -/
def normalize : Mutation → Mutation
  | .clampLevel lo hi =>
    let lo := max lo 0
    .clampLevel lo (if hi = 0 then 0 else max hi lo)
  | m => m

end Mutation

structure MutationReport where
  error : Bool := false
  changed : Bool := false
  itemChange : Bool := false
  affixChange : Bool := false
  evalChange : Bool := false
  affixUnknown : Bool := false
  scopeUnknown : Bool := false
  scopeRefused : Bool := false
deriving DecidableEq, Repr, Inhabited

namespace MutationReport

def none : MutationReport := {}

def failed : MutationReport := { error := true }

/-- An affix of the draft is unknown, or contradicts another. -/
def badAffix : MutationReport := { error := true, affixUnknown := true }

def union (a b : MutationReport) : MutationReport :=
  { error := a.error || b.error
    changed := a.changed || b.changed
    itemChange := a.itemChange || b.itemChange
    affixChange := a.affixChange || b.affixChange
    evalChange := a.evalChange || b.evalChange
    affixUnknown := a.affixUnknown || b.affixUnknown
    scopeUnknown := a.scopeUnknown || b.scopeUnknown
    scopeRefused := a.scopeRefused || b.scopeRefused }

@[simp] theorem union_error (a b : MutationReport) : (a.union b).error = (a.error || b.error) := rfl

@[simp] theorem union_none (a : MutationReport) : a.union none = a := by
  simp [union, none]

theorem union_comm (a b : MutationReport) : a.union b = b.union a := by
  simp [union, Bool.or_comm]

theorem union_assoc (a b c : MutationReport) : (a.union b).union c = a.union (b.union c) := by
  simp [union, Bool.or_assoc]

def toNat (r : MutationReport) : Nat :=
  bitsToNat [r.error, r.changed, r.itemChange, r.affixChange, r.evalChange, r.affixUnknown,
    r.scopeUnknown, r.scopeRefused]

end MutationReport

end Spoils
