/-! Identifiers of content. Zero stands for "none". -/
namespace Spoils

/-- The order of a type that is ordered by a number it is determined by. -/
theorem transOrd_of_key {α : Type} [Ord α] (key : α → Nat)
    (h : ∀ a b, compare a b = compare (key a) (key b)) : Std.TransOrd α where
  eq_swap := by intro a b; rw [h, h]; exact Std.OrientedCmp.eq_swap
  isLE_trans := by
    intro a b c hab hbc
    rw [h] at hab hbc ⊢
    exact Std.TransCmp.isLE_trans hab hbc

theorem lawfulEqOrd_of_key {α : Type} [Ord α] (key : α → Nat)
    (h : ∀ a b, compare a b = compare (key a) (key b)) (inj : ∀ a b, key a = key b → a = b) :
    Std.LawfulEqOrd α where
  compare_self := by intro a; rw [h]; exact Std.ReflCmp.compare_self
  eq_of_compare := by
    intro a b hab
    rw [h] at hab
    exact inj a b (Std.LawfulEqCmp.eq_of_compare hab)

/-- Refers to a prototype of any kind. -/
structure PrototypeId where
  val : Nat
deriving DecidableEq, Repr, Inhabited

/-- Refers to a name or a piece of art. -/
structure AssetId where
  val : Nat
deriving DecidableEq, Repr, Inhabited

structure CurveId where
  val : Nat
deriving DecidableEq, Repr, Inhabited

structure PropertyId where
  val : Nat
deriving DecidableEq, Repr, Inhabited

namespace PrototypeId

def none : PrototypeId := ⟨0⟩

def isValid (id : PrototypeId) : Bool := id.val != 0

instance : Ord PrototypeId := ⟨fun a b => compare a.val b.val⟩
instance : Std.TransOrd PrototypeId := transOrd_of_key val fun _ _ => rfl
instance : Std.LawfulEqOrd PrototypeId :=
  lawfulEqOrd_of_key val (fun _ _ => rfl) fun a b h => by cases a; cases b; cases h; rfl

end PrototypeId

namespace AssetId

def none : AssetId := ⟨0⟩

instance : Ord AssetId := ⟨fun a b => compare a.val b.val⟩
instance : Std.TransOrd AssetId := transOrd_of_key val fun _ _ => rfl
instance : Std.LawfulEqOrd AssetId :=
  lawfulEqOrd_of_key val (fun _ _ => rfl) fun a b h => by cases a; cases b; cases h; rfl

end AssetId

namespace CurveId

def none : CurveId := ⟨0⟩

instance : Ord CurveId := ⟨fun a b => compare a.val b.val⟩
instance : Std.TransOrd CurveId := transOrd_of_key val fun _ _ => rfl
instance : Std.LawfulEqOrd CurveId :=
  lawfulEqOrd_of_key val (fun _ _ => rfl) fun a b h => by cases a; cases b; cases h; rfl

end CurveId

namespace PropertyId

def none : PropertyId := ⟨0⟩

def difficultyTier : PropertyId := ⟨1⟩

/-- Holds the current prototype inside a loop over prototypes. -/
def loopPrototype : PropertyId := ⟨2⟩

def showNextRank : PropertyId := ⟨3⟩

def itemLevel : PropertyId := ⟨4⟩

def itemRarity : PropertyId := ⟨5⟩

def itemSeed : PropertyId := ⟨6⟩

def characterLevel : PropertyId := ⟨7⟩

def isValid (id : PropertyId) : Bool := id.val != 0

instance : Ord PropertyId := ⟨fun a b => compare a.val b.val⟩
instance : Std.TransOrd PropertyId := transOrd_of_key val fun _ _ => rfl
instance : Std.LawfulEqOrd PropertyId :=
  lawfulEqOrd_of_key val (fun _ _ => rfl) fun a b h => by cases a; cases b; cases h; rfl

end PropertyId

end Spoils
