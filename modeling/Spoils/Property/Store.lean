import Spoils.SortedMap
import Spoils.Property.Value

/-! Property stores: the values that formulas read and write, in key order. -/
namespace Spoils

structure Params where
  p0 : Nat
  p1 : Nat
  p2 : Nat
  p3 : Nat
deriving DecidableEq, Repr, Inhabited

namespace Params

def zero : Params := ⟨0, 0, 0, 0⟩

/-- Missing parameters are zero and those beyond the fourth are dropped. -/
def ofList (l : List Nat) : Params :=
  ⟨l.getD 0 0, l.getD 1 0, l.getD 2 0, l.getD 3 0⟩

def toList (p : Params) : List Nat := [p.p0, p.p1, p.p2, p.p3]

abbrev order : Params → Params → Ordering :=
  compareLex (compareOn p0) (compareLex (compareOn p1) (compareLex (compareOn p2) (compareOn p3)))

instance : Ord Params := ⟨order⟩

instance : Std.TransOrd Params := inferInstanceAs (Std.TransCmp order)

instance : Std.LawfulEqOrd Params where
  eq_of_compare := by
    intro a b h
    obtain ⟨a0, a1, a2, a3⟩ := a
    obtain ⟨b0, b1, b2, b3⟩ := b
    have h : (compare a0 b0).then ((compare a1 b1).then ((compare a2 b2).then (compare a3 b3)))
        = .eq := h
    obtain ⟨h0, h⟩ := Ordering.then_eq_eq.1 h
    obtain ⟨h1, h⟩ := Ordering.then_eq_eq.1 h
    obtain ⟨h2, h3⟩ := Ordering.then_eq_eq.1 h
    rw [Nat.compare_eq_eq.1 h0, Nat.compare_eq_eq.1 h1, Nat.compare_eq_eq.1 h2,
      Nat.compare_eq_eq.1 h3]

end Params

structure PropertyKey where
  prop : PropertyId
  params : Params := .zero
deriving DecidableEq, Repr, Inhabited

namespace PropertyKey

instance : Coe PropertyId PropertyKey := ⟨fun p => ⟨p, .zero⟩⟩

def ofList (prop : PropertyId) (params : List Nat) : PropertyKey := ⟨prop, .ofList params⟩

def isValid (k : PropertyKey) : Bool := k.prop.isValid

abbrev order : PropertyKey → PropertyKey → Ordering :=
  compareLex (compareOn prop) (compareOn params)

instance : Ord PropertyKey := ⟨order⟩

instance : Std.TransOrd PropertyKey := inferInstanceAs (Std.TransCmp order)

instance : Std.LawfulEqOrd PropertyKey where
  eq_of_compare := by
    intro a b h
    obtain ⟨a0, a1⟩ := a
    obtain ⟨b0, b1⟩ := b
    have h : (compare a0 b0).then (compare a1 b1) = .eq := h
    obtain ⟨h0, h1⟩ := Ordering.then_eq_eq.1 h
    rw [Std.LawfulEqCmp.eq_of_compare h0, Std.LawfulEqCmp.eq_of_compare h1]

end PropertyKey

/-- Property values by key. -/
abbrev PropertyStore := SortedMap PropertyKey PropertyValue

namespace PropertyStore

def get? (s : PropertyStore) (k : PropertyKey) : Option PropertyValue := s.find? k

/-- All entries of one property, in parameter order. -/
def ofProperty (s : PropertyStore) (p : PropertyId) : List (PropertyKey × PropertyValue) :=
  s.entries.filter fun e => e.1.prop == p

def int (s : PropertyStore) (k : PropertyKey) : Int :=
  ((s.get? k).map (·.toInt)).getD 0

def single (s : PropertyStore) (k : PropertyKey) : Single :=
  ((s.get? k).map (·.toSingle)).getD 0

def bool (s : PropertyStore) (k : PropertyKey) : Bool :=
  ((s.get? k).map (·.toBool)).getD false

def prototype (s : PropertyStore) (k : PropertyKey) : PrototypeId :=
  ((s.get? k).map (·.toPrototype)).getD .none

def asset (s : PropertyStore) (k : PropertyKey) : AssetId :=
  ((s.get? k).map (·.toAsset)).getD .none

end PropertyStore

end Spoils
