import Spoils.Proofs.Formula.Hygiene
import Spoils.Proofs.SortedMap

/-! Storing what was loaded: the stores stay as they were, except that a curve whose identifier is
negative as a signed integer becomes none. -/
namespace Spoils

/-- The upper half of the words is negative as integers. -/
theorem toNat_signed64_iff (n : Nat) : (max (signed64 n) 0).toNat = n ↔ n < 0x8000000000000000 := by
  unfold signed64
  have reading := Int.bmod_def n 0x10000000000000000
  generalize Int.bmod n 0x10000000000000000 = v at reading ⊢
  split at reading <;> omega

/-- Whether the value comes back when it is read and stored again. -/
def PropertyValue.survives : PropertyValue → Bool
  | .curve id => id.val < 0x8000000000000000
  | _ => true

namespace Value

theorem exists_store?_ofProperty (v : PropertyValue) :
    ∃ stored, (ofProperty v).store? v.dataType = some stored ∧
      (stored = v ↔ v.survives = true) := by
  cases v with
  | curve id =>
    refine ⟨_, rfl, ?_⟩
    rw [PropertyValue.survives, decide_eq_true_iff, ← toNat_signed64_iff, PropertyValue.curve.injEq,
      CurveId.mk.injEq]
  | _ => exact ⟨_, rfl, iff_of_true rfl rfl⟩

theorem ofProperty_ne_error (v : PropertyValue) : ofProperty v ≠ .error := by
  cases v <;> exact Value.noConfusion

end Value

namespace Scope
variable {s : Scope} {slot : Slot} {k : PropertyKey} {store p : PropertyStore} {v : PropertyValue}
  {b : SlotBinding} {bound : BoundStore}

private theorem withStore_self (h : boundStore? b = some bound) :
    withStore b bound.properties = b := by
  obtain rfl | ⟨id, rfl⟩ := boundStore?_eq_some h <;> rfl

private theorem boundStore?_withStore (h : boundStore? b = some bound) (p : PropertyStore) :
    boundStore? (withStore b p) = some { bound with properties := p } := by
  obtain rfl | ⟨id, rfl⟩ := boundStore?_eq_some h <;> rfl

/-- The store of a slot that can be bound is that of its binding. -/
theorem binding_of_store? (bindable : slot.index?.isSome = true)
    (found : s.store? slot = some store) :
    ∃ b bound, s.binding? slot = some b ∧ boundStore? b = some bound ∧ bound.properties = store ∧
      ∀ p, s.setStore slot p = s.rebind slot (withStore b p) := by
  have visible : ((s.binding? slot).bind boundStore?).map (·.properties) = some store := by
    cases slot <;> first | exact found | contradiction
  obtain ⟨bound, here, same⟩ := Option.map_eq_some_iff.mp visible
  obtain ⟨b, hb, inside⟩ := Option.bind_eq_some_iff.mp here
  refine ⟨b, bound, hb, inside, same, fun p => ?_⟩
  cases slot <;> first | contradiction | simp only [setStore, hb]

theorem outer_of_store? (found : s.store? .callerStack = some store) :
    ∃ rest, s.outer = store :: rest := by
  change s.outer[0]? = some store at found
  rcases around : s.outer with _ | ⟨f, rest⟩
  · rw [around] at found
    cases found
  · rw [around] at found
    cases found
    exact ⟨rest, rfl⟩

theorem setStore_self (found : s.store? slot = some store) : s.setStore slot store = s := by
  by_cases bindable : slot.index?.isSome = true
  · obtain ⟨b, bound, hb, inside, rfl, put⟩ := binding_of_store? bindable found
    rw [put, withStore_self inside, rebind_self hb]
  · cases slot with
    | localStack =>
      cases found
      rfl
    | callerStack =>
      have same : s.outer.set 0 store = s.outer := by
        obtain ⟨rest, around⟩ := outer_of_store? found
        rw [around, List.set_cons_zero]
      change { s with outer := s.outer.set 0 store } = s
      rw [same]
    | globals => rfl
    | _ => exact absurd rfl bindable

theorem store?_setStore (found : s.store? slot = some store) (own : slot ≠ .globals)
    (p : PropertyStore) : (s.setStore slot p).store? slot = some p := by
  by_cases bindable : slot.index?.isSome = true
  · obtain ⟨b, bound, hb, inside, -, put⟩ := binding_of_store? bindable found
    have there := binding?_rebind_self hb (withStore b p)
    have seen : (((s.setStore slot p).binding? slot).bind boundStore?).map (·.properties) =
        some p := by
      rw [put, there, Option.bind_some, boundStore?_withStore inside, Option.map_some]
    cases slot <;> first | exact seen | contradiction
  · cases slot with
    | localStack => rfl
    | callerStack =>
      obtain ⟨rest, around⟩ := outer_of_store? found
      change (s.outer.set 0 p)[0]? = some p
      rw [around, List.set_cons_zero, List.getElem?_cons_zero]
    | globals => exact absurd rfl own
    | _ => exact absurd rfl bindable

theorem exists_declared
    (typed : ∀ c ∈ s.catalog, ∃ info ∈ c.property? k.prop, info.dataType = v.dataType) :
    ∃ type, s.declared k.prop = some type ∧ ∀ t ∈ type, t = v.dataType := by
  unfold declared
  split
  · exact ⟨none, rfl, fun _ h => by cases h⟩
  · rename_i c here
    obtain ⟨info, known, same⟩ := typed c here
    refine ⟨some info.dataType, ?_, ?_⟩
    · rw [Option.mem_def.mp known, Option.map_some]
    · rintro t ⟨⟩
      exact same

private theorem read_of_get? {type : Option DataType} (declared : s.declared k.prop = some type)
    (found : s.store? slot = some store) (here : store.get? k = some v) :
    s.read slot k = .ofProperty v := by
  simp only [read, declared, found, here]

private theorem storageType_of_get? {type : Option DataType}
    (declared : s.declared k.prop = some type) (fits : ∀ t ∈ type, t = v.dataType)
    (found : s.store? slot = some store) (here : store.get? k = some v) (x : Value) :
    s.storageType slot k x = some v.dataType := by
  cases type with
  | none => simp only [storageType, declared, found, Option.bind_some, here, Option.map_some,
      Option.some_or]
  | some t => simp only [storageType, declared, fits t rfl]

private theorem write_of_store? {x : Value} {stored : PropertyValue} (valued : x ≠ .error)
    (converts : (s.storageType slot k x).bind x.store? = some stored)
    (found : s.store? slot = some store) (writable : s.isWritable slot = true) :
    s.write slot k x = (x, s.setStore slot (store.insert k stored)) := by
  unfold write
  rw [converts, found]
  cases x with
  | error => contradiction
  | _ => exact if_pos writable

/-- Writing what was read puts the value back as it is after both conversions. -/
theorem write_read {stored : PropertyValue} (writable : s.isWritable slot = true)
    (found : s.store? slot = some store) (here : store.get? k = some v)
    (typed : ∀ c ∈ s.catalog, ∃ info ∈ c.property? k.prop, info.dataType = v.dataType)
    (converts : (Value.ofProperty v).store? v.dataType = some stored) :
    s.write slot k (s.read slot k) = (.ofProperty v, s.setStore slot (store.insert k stored)) := by
  obtain ⟨type, declared, fits⟩ := exists_declared typed
  have chosen : (s.storageType slot k (.ofProperty v)).bind (Value.ofProperty v).store? =
      some stored := by
    rw [storageType_of_get? declared fits found here, Option.bind_some, converts]
  rw [read_of_get? declared found here]
  exact write_of_store? (Value.ofProperty_ne_error v) chosen found writable

end Scope

namespace Formula

/-- Storing what was loaded gives the value that was loaded. It leaves everything as it was, exactly
if the value survives being read and stored. -/
theorem eval_assign_load {s : Scope} {slot : Slot} {k : PropertyKey} {store : PropertyStore}
    {v : PropertyValue} (writable : s.isWritable slot = true) (found : s.store? slot = some store)
    (here : store.get? k = some v)
    (typed : ∀ c ∈ s.catalog, ∃ info ∈ c.property? k.prop, info.dataType = v.dataType) :
    let ran := (assign slot k (.load slot k)).eval s
    ((Value.ofProperty v).store? v.dataType = some v ↔ v.survives = true) ∧
      ran.1 = .ofProperty v ∧ ran.1 ≠ .error ∧
      (ran.2.store? slot = some store ↔ v.survives = true) ∧ (v.survives = true → ran.2 = s) := by
  intro ran
  obtain ⟨stored, converts, kept⟩ := Value.exists_store?_ofProperty v
  have ends : ran = (.ofProperty v, s.setStore slot (SortedMap.insert store k stored)) :=
    Scope.write_read writable found here typed converts
  have own : slot ≠ .globals := by
    rintro rfl
    cases writable
  have unmoved : SortedMap.insert store k stored = store ↔ v.survives = true :=
    (SortedMap.insert_eq_self_iff here).trans kept
  rw [ends]
  refine ⟨?_, rfl, Value.ofProperty_ne_error v, ?_, fun survives => ?_⟩
  · rw [converts, Option.some.injEq]
    exact kept
  · rw [Scope.store?_setStore found own, Option.some.injEq]
    exact unmoved
  · change s.setStore slot (SortedMap.insert store k stored) = s
    rw [unmoved.mpr survives]
    exact Scope.setStore_self found

/-- The greatest identifier of a curve that comes back, under a declared property. -/
theorem eval_assign_load_curve :
    let k : PropertyKey := (⟨2000⟩ : PropertyId)
    let info : PropertyInfo := { prop := ⟨2000⟩, name := "Tint", dataType := .curve }
    let store : PropertyStore := .ofList [(k, .curve ⟨0x7fffffffffffffff⟩)]
    let s := Scope.rebind { catalog := some { properties := .ofList [(info.prop, info)] } } .var1
      (.store ⟨.lent, store⟩)
    (s.isWritable .var1 = true ∧ store.get? k = some (.curve ⟨0x7fffffffffffffff⟩)) ∧
      ((assign .var1 k (.load .var1 k)).eval s).1 = .int 0x7fffffffffffffff ∧
      ((assign .var1 k (.load .var1 k)).eval s).2 = s := by
  intro k info store s
  have writable : s.isWritable .var1 = true := rfl
  have here : store.get? k = some (.curve ⟨0x7fffffffffffffff⟩) := by decide
  have typed : ∀ c ∈ s.catalog, ∃ i ∈ c.property? k.prop,
      i.dataType = (PropertyValue.curve ⟨0x7fffffffffffffff⟩).dataType := by
    rintro c ⟨⟩
    exact ⟨info, rfl, rfl⟩
  obtain ⟨-, loaded, -, -, same⟩ := eval_assign_load writable rfl here typed
  exact ⟨⟨writable, here⟩, loaded, same rfl⟩

/-- The next identifier is negative as an integer, and storing it makes it none. -/
theorem eval_assign_load_lost :
    let k : PropertyKey := (⟨2000⟩ : PropertyId)
    let bound (id : CurveId) : SlotBinding := .store ⟨.owned, .ofList [(k, .curve id)]⟩
    let s := Scope.rebind {} .var1 (bound ⟨0x8000000000000000⟩)
    s.isWritable .var1 = true ∧
      ((assign .var1 k (.load .var1 k)).eval s).1 = .int (-0x8000000000000000) ∧
      ((assign .var1 k (.load .var1 k)).eval s).2.binding? .var1 = some (bound .none) ∧
      bound .none ≠ bound ⟨0x8000000000000000⟩ := by
  decide +kernel

end Formula

end Spoils
