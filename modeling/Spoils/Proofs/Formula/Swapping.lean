import Spoils.Proofs.Formula.Frames
import Spoils.Proofs.Formula.Storing

/-! Swapping: two slots exchange what they have under a key, or nothing changes at all. -/
namespace Spoils

theorem Slot.getElem?_all {slot : Slot} {i : Fin 12} (h : slot.index? = some i) :
    Slot.all[(i : Nat)]? = some slot := by
  cases slot <;> cases h <;> rfl

theorem Slot.index?_ne {slot slot' : Slot} {i j : Fin 12} (other : slot ≠ slot')
    (hi : slot.index? = some i) (hj : slot'.index? = some j) : (i : Nat) ≠ j := by
  intro same
  have listed : Slot.all[(j : Nat)]? = some slot := same ▸ getElem?_all hi
  exact other (Option.some.inj (listed.symm.trans (getElem?_all hj)))

namespace Scope
variable {s t u : Scope} {slot slot' left right : Slot} {k j : PropertyKey}
  {l r p q : PropertyStore} {b : SlotBinding}

section
variable (store : PropertyStore) (k : PropertyKey) (v : Option PropertyValue)

@[simp] theorem get?_putOrErase_self : (putOrErase store k v).get? k = v := by
  cases v with
  | none => exact SortedMap.find?_erase_self
  | some v => exact SortedMap.find?_insert_self

theorem get?_putOrErase_ne (other : j ≠ k) : (putOrErase store k v).get? j = store.get? j := by
  cases v with
  | none => exact SortedMap.find?_erase_ne other
  | some v => exact SortedMap.find?_insert_ne other

/-- A store is restored by what it had under the key. -/
@[simp] theorem putOrErase_restores :
    putOrErase (putOrErase store k v) k (store.get? k) = store := by
  refine SortedMap.ext_find? fun j => ?_
  by_cases same : j = k
  · exact same ▸ get?_putOrErase_self ..
  · exact (get?_putOrErase_ne _ _ _ same).trans (get?_putOrErase_ne _ _ _ same)

@[simp] theorem putOrErase_same : putOrErase store k (store.get? k) = store := by
  refine SortedMap.ext_find? fun j => ?_
  by_cases same : j = k
  · exact same ▸ get?_putOrErase_self ..
  · exact get?_putOrErase_ne _ _ _ same

end

@[simp] theorem withStore_withStore (b : SlotBinding) (p q : PropertyStore) :
    withStore (withStore b p) q = withStore b q := by
  cases b with
  | entity id store => cases store <;> rfl
  | _ => rfl

/-- The store of a slot is part of its binding, or the frame, or the frame of the caller. -/
theorem setStore_eq (s : Scope) (slot : Slot) (p : PropertyStore) : s.setStore slot p = { s with
    slots := ((s.binding? slot).elim s fun b => s.rebind slot (withStore b p)).slots
    frame := if slot = .localStack then p else s.frame
    outer := if slot = .callerStack then s.outer.set 0 p else s.outer } := by
  cases slot <;> rfl

theorem setStore_setStore (s : Scope) (slot : Slot) (p q : PropertyStore) :
    (s.setStore slot p).setStore slot q = s.setStore slot q := by
  simp only [setStore_eq, Scope.mk.injEq, and_true]
  refine ⟨?slots, ?frame, ?outer⟩
  case slots => rcases hi : slot.index? with _ | i <;> simp [binding?, rebind, hi]
  case frame => split <;> rfl
  case outer => split <;> simp

/-- Stores of different slots are independent. -/
theorem setStore_comm (other : slot ≠ slot') (s : Scope) (p q : PropertyStore) :
    (s.setStore slot p).setStore slot' q = (s.setStore slot' q).setStore slot p := by
  simp only [setStore_eq, Scope.mk.injEq, and_true]
  refine ⟨?slots, ?frame, ?outer⟩
  case slots =>
    rcases hi : slot.index? with _ | i <;> rcases hj : slot'.index? with _ | j
    · simp [binding?, hi, hj]
    · simp [binding?, rebind, hi, hj]
    · simp [binding?, rebind, hi, hj]
    · have apart := Slot.index?_ne other hi hj
      simp [binding?, rebind, hi, hj, Vector.getElem_set_ne _ _ apart,
        Vector.getElem_set_ne _ _ apart.symm, Vector.set_comm _ _ apart]
  case frame => grind
  case outer => grind

theorem binding?_setStore_ne (other : slot ≠ slot') :
    (s.setStore slot p).binding? slot' = s.binding? slot' := by
  rw [setStore_eq]
  rcases hi : slot.index? with _ | i
  · simp [binding?, hi]
  · rcases hj : slot'.index? with _ | j
    · simp [binding?, hj]
    · have apart := Slot.index?_ne other hi hj
      simp [binding?, rebind, hi, hj, Vector.getElem_set_ne _ _ apart]

private theorem store?_bound (bindable : slot.index?.isSome = true) :
    s.store? slot = ((s.binding? slot).bind boundStore?).map (·.properties) := by
  cases slot <;> first | rfl | contradiction

theorem store?_setStore_ne (other : slot ≠ slot') :
    (s.setStore slot p).store? slot' = s.store? slot' := by
  by_cases bindable : slot'.index?.isSome = true
  · rw [store?_bound bindable, store?_bound bindable, binding?_setStore_ne other]
  · rw [setStore_eq]
    cases slot' with
    | localStack => simp only [store?, if_neg other]
    | callerStack => simp only [store?, if_neg other]
    | globals => rfl
    | _ => exact absurd rfl bindable

theorem kind_setStore (s : Scope) (slot slot' : Slot) (p q : PropertyStore) :
    ((s.setStore slot p).binding? slot').map (withStore · q) =
      (s.binding? slot').map (withStore · q) := by
  by_cases other : slot = slot'
  · subst other
    rw [setStore_eq]
    rcases hi : slot.index? with _ | i <;> simp [binding?, rebind, hi]
  · rw [binding?_setStore_ne other]

private theorem isWritable_bound (bindable : slot.index?.isSome = true) :
    s.isWritable slot =
      ((s.binding? slot).bind boundStore?).any fun b => b.access != .readOnly := by
  cases slot <;> first | rfl | contradiction

theorem exists_store? (writable : s.isWritable slot = true) :
    ∃ store, s.store? slot = some store := by
  by_cases bindable : slot.index?.isSome = true
  · rw [isWritable_bound bindable, Option.any_eq_true] at writable
    obtain ⟨bound, here, -⟩ := writable
    exact ⟨bound.properties, by rw [store?_bound bindable, here, Option.map_some]⟩
  · cases slot with
    | localStack => exact ⟨s.frame, rfl⟩
    | callerStack => exact Option.isSome_iff_exists.mp writable
    | globals => cases writable
    | _ => exact absurd rfl bindable

theorem any_access_eq {o o' : Option SlotBinding}
    (kinds : o'.map (withStore · .empty) = o.map (withStore · .empty)) (p : Access → Bool) :
    ((o'.bind boundStore?).any fun b => p b.access) =
      (o.bind boundStore?).any fun b => p b.access := by
  have emptied (o : Option SlotBinding) : ((o.bind boundStore?).any fun b => p b.access) =
      ((o.map (withStore · .empty)).bind boundStore?).any fun b => p b.access := by
    rcases o with _ | _ | _ | _ | ⟨_, _ | _⟩ | _ | _ <;> rfl
  rw [emptied, kinds, ← emptied]

/-- Nothing differs but what is in the stores of two slots: bindings stay, and what kind of store is
bound stays everywhere. -/
structure SameBesides (left right : Slot) (s t : Scope) : Prop where
  stores : ∀ slot, slot ≠ left → slot ≠ right → t.store? slot = s.store? slot
  bindings : ∀ slot, slot ≠ left → slot ≠ right → t.binding? slot = s.binding? slot
  kinds : ∀ slot p, (t.binding? slot).map (withStore · p) = (s.binding? slot).map (withStore · p)
  frames : s.SameBeyond t
  catalog : t.catalog = s.catalog
  host : t.host = s.host
  dice : t.dice = s.dice
  returned : t.returned = s.returned

namespace SameBesides

theorem trans (h : s.SameBesides left right t) (h' : t.SameBesides left right u) :
    s.SameBesides left right u where
  stores slot hl hr := (h'.stores slot hl hr).trans (h.stores slot hl hr)
  bindings slot hl hr := (h'.bindings slot hl hr).trans (h.bindings slot hl hr)
  kinds slot p := (h'.kinds slot p).trans (h.kinds slot p)
  frames := h.frames.trans h'.frames
  catalog := h'.catalog.trans h.catalog
  host := h'.host.trans h.host
  dice := h'.dice.trans h.dice
  returned := h'.returned.trans h.returned

theorem setStore (s : Scope) (p : PropertyStore) (among : slot = left ∨ slot = right) :
    s.SameBesides left right (s.setStore slot p) := by
  have apart {slot'} (hl : slot' ≠ left) (hr : slot' ≠ right) : slot ≠ slot' := by
    rintro rfl
    exact among.elim hl hr
  refine ⟨fun _ hl hr => store?_setStore_ne (apart hl hr),
    fun _ hl hr => binding?_setStore_ne (apart hl hr), fun _ q => kind_setStore s slot _ p q,
    .setStore .., ?_, ?_, ?_, ?_⟩
  all_goals rw [setStore_eq]

private theorem pair (s : Scope) (left right : Slot) (p q : PropertyStore) :
    s.SameBesides left right ((s.setStore left p).setStore right q) :=
  (setStore s p (.inl rfl)).trans (setStore _ q (.inr rfl))

/-- What can be written goes by the kinds of stores and the number of frames. -/
theorem isWritable_eq (h : s.SameBesides left right t) (slot : Slot) :
    t.isWritable slot = s.isWritable slot := by
  by_cases bindable : slot.index?.isSome = true
  · rw [isWritable_bound bindable, isWritable_bound bindable]
    exact any_access_eq (h.kinds slot .empty) (· != .readOnly)
  · have counted : t.outer.length = s.outer.length := Nat.succ.inj h.frames.depth_eq
    cases slot with
    | localStack => rfl
    | callerStack =>
      change t.outer[0]?.isSome = s.outer[0]?.isSome
      rw [Bool.eq_iff_iff, isSome_getElem?, isSome_getElem?, counted]
    | globals => rfl
    | _ => exact absurd rfl bindable

end SameBesides

theorem put_of_store? (found : s.store? slot = some l) (v : Option PropertyValue) :
    s.put slot k v = s.setStore slot (putOrErase l k v) := by
  simp only [put, found]

/-- Writable slots exchange what they have, be they the same or not. -/
theorem exchange_eq (hl : s.store? left = some l) (hr : s.store? right = some r)
    (wl : s.isWritable left = true) (wr : s.isWritable right = true) :
    s.exchange left right k = (.bool true,
      (s.setStore left (putOrErase l k (r.get? k))).setStore right
        (putOrErase r k (l.get? k))) := by
  have put : (s.put left k (r.get? k)).put right k (l.get? k) =
      (s.setStore left (putOrErase l k (r.get? k))).setStore right (putOrErase r k (l.get? k)) := by
    rw [put_of_store? hl]
    by_cases same : left = right
    · subst same
      cases hl.symm.trans hr
      rw [putOrErase_same, setStore_self hl, put_of_store? hl, putOrErase_same]
    · exact put_of_store? ((store?_setStore_ne same).trans hr) _
  simp only [exchange, hl, hr, wl, wr, Bool.and_self, if_true, put]

/-- Without a writable store on either side nothing is done. -/
theorem exchange_error (h : ¬(s.isWritable left = true ∧ s.isWritable right = true)) :
    s.exchange left right k = (.error, s) := by
  unfold exchange
  split
  · rw [if_neg (by rwa [Bool.and_eq_true])]
  · rfl

theorem own_of_isWritable (writable : s.isWritable slot = true) : slot ≠ .globals := by
  rintro rfl
  cases writable

theorem store?_setStore_pair (hl : s.store? left = some l) (hr : s.store? right = some r)
    (ownl : left ≠ .globals) (ownr : right ≠ .globals) (alike : left = right → p = q) :
    ((s.setStore left p).setStore right q).store? left = some p ∧
      ((s.setStore left p).setStore right q).store? right = some q := by
  have put := store?_setStore hl ownl p
  by_cases same : left = right
  · subst same
    cases alike rfl
    exact ⟨store?_setStore put ownl p, store?_setStore put ownl p⟩
  · have there : (s.setStore left p).store? right = some r := (store?_setStore_ne same).trans hr
    exact ⟨(store?_setStore_ne (Ne.symm same)).trans put, store?_setStore there ownr q⟩

theorem setStore_back (hl : s.store? left = some l) (hr : s.store? right = some r)
    (p q : PropertyStore) :
    (((s.setStore left p).setStore right q).setStore left l).setStore right r = s := by
  by_cases same : left = right
  · subst same
    rw [setStore_setStore, setStore_setStore, setStore_setStore, setStore_self hr]
  · calc (((s.setStore left p).setStore right q).setStore left l).setStore right r
        = (((s.setStore left p).setStore left l).setStore right q).setStore right r := by
          rw [setStore_comm (Ne.symm same)]
      _ = (s.setStore left l).setStore right r := by rw [setStore_setStore, setStore_setStore]
      _ = s := by rw [setStore_self hl, setStore_self hr]

/-- Writable slots exchange what they have under the key, and a second exchange undoes it. -/
theorem exchange_swaps (wl : s.isWritable left = true) (wr : s.isWritable right = true) :
    ∃ t, s.exchange left right k = (.bool true, t) ∧ ∃ l r l' r',
      s.store? left = some l ∧ s.store? right = some r ∧
      t.store? left = some l' ∧ t.store? right = some r' ∧
      l'.get? k = r.get? k ∧ r'.get? k = l.get? k ∧
      (∀ j ≠ k, l'.get? j = l.get? j ∧ r'.get? j = r.get? j) ∧
      s.SameBesides left right t ∧ t.exchange left right k = (.bool true, s) := by
  obtain ⟨l, hl⟩ := exists_store? wl
  obtain ⟨r, hr⟩ := exists_store? wr
  have alike : left = right → putOrErase l k (r.get? k) = putOrErase r k (l.get? k) := by
    rintro rfl
    cases hl.symm.trans hr
    rfl
  obtain ⟨hl', hr'⟩ :=
    store?_setStore_pair hl hr (own_of_isWritable wl) (own_of_isWritable wr) alike
  have besides := SameBesides.pair s left right (putOrErase l k (r.get? k))
    (putOrErase r k (l.get? k))
  have again := exchange_eq (k := k) hl' hr' ((besides.isWritable_eq left).trans wl)
    ((besides.isWritable_eq right).trans wr)
  simp only [get?_putOrErase_self, putOrErase_restores, setStore_back hl hr] at again
  exact ⟨_, exchange_eq hl hr wl wr, l, r, _, _, hl, hr, hl', hr', get?_putOrErase_self ..,
    get?_putOrErase_self ..,
    fun j other => ⟨get?_putOrErase_ne _ _ _ other, get?_putOrErase_ne _ _ _ other⟩, besides, again⟩

end Scope

namespace Formula

/-- Swapping gives true exactly if both slots are writable, and else an error, which changes
nothing. A swap that gives true leaves behind each slot, under the key, what was behind the other,
be it nothing; all else stays, and a second swap brings the scope back. -/
theorem eval_swap (left right : Slot) (k : PropertyKey) (s : Scope) :
    let ran := (swap left right k).eval s
    (ran.1 = .bool true ∨ ran.1 = .error) ∧
      (ran.1 = .bool true ↔ s.isWritable left = true ∧ s.isWritable right = true) ∧
      (ran.1 = .bool true → ∃ l r l' r',
        s.store? left = some l ∧ s.store? right = some r ∧
        ran.2.store? left = some l' ∧ ran.2.store? right = some r' ∧
        l'.get? k = r.get? k ∧ r'.get? k = l.get? k ∧
        (∀ j ≠ k, l'.get? j = l.get? j ∧ r'.get? j = r.get? j) ∧
        s.SameBesides left right ran.2 ∧ (swap left right k).eval ran.2 = (.bool true, s)) ∧
      (ran.1 = .error → ran.2 = s) := by
  intro ran
  by_cases writable : s.isWritable left = true ∧ s.isWritable right = true
  · obtain ⟨t, (ends : ran = (.bool true, t)), swapped⟩ :=
      Scope.exchange_swaps (k := k) writable.1 writable.2
    rw [ends]
    exact ⟨.inl rfl, iff_of_true rfl writable, fun _ => swapped, nofun⟩
  · have ends : ran = (.error, s) := Scope.exchange_error writable
    rw [ends]
    exact ⟨.inr rfl, iff_of_false nofun writable, nofun, fun _ => rfl⟩

/-- What is missing on one side is missing on the other afterwards. -/
example :
    let k : PropertyKey := (⟨2000⟩ : PropertyId)
    let s : Scope := { frame := .ofList [(k, .integer 4)], outer := [.empty] }
    let t := ((swap .localStack .callerStack k).eval s).2
    t.frame = .empty ∧ t.outer = [.ofList [(k, .integer 4)]] := by decide +kernel

end Formula

end Spoils
