import Spoils.Proofs.Formula.Law
import Spoils.Proofs.SortedMap

/-! Types of stored values: evaluation keeps every store well typed, and what a formula loads from
well-typed stores is of the kind that the declared type is read as. -/
namespace Spoils

namespace DataType

/-- Whether stored values of the type are read as values of this kind. -/
def readsAs : DataType → Value → Bool
  | .integer, .int _ | .time, .int _ | .curve, .int _ | .real, .single _ | .boolean, .bool _
  | .entity, .entity _ | .prototype, .proto _ | .asset, .asset _ => true
  | _, _ => false

private theorem dataType_default (type : DataType) : type.default.dataType = type := by
  cases type <;> rfl

end DataType

theorem PropertyValue.readsAs_ofProperty (v : PropertyValue) :
    v.dataType.readsAs (.ofProperty v) = true := by
  cases v <;> rfl

private theorem Value.dataType_store? {v : Value} {type : DataType} {stored : PropertyValue}
    (h : v.store? type = some stored) : stored.dataType = type := by
  cases type <;> obtain ⟨x, -, rfl⟩ := Option.map_eq_some_iff.mp h <;> rfl

namespace Catalog
variable {c : Catalog} {p : PropertyStore} {k : PropertyKey} {v : PropertyValue}

/-- If the property is declared, then with the type of the value. -/
def Fits (c : Catalog) (k : PropertyKey) (v : PropertyValue) : Prop :=
  ∀ info, c.property? k.prop = some info → v.dataType = info.dataType

/-- The store is well typed: every entry of a declared property has a value of its type. -/
def Types (c : Catalog) (p : PropertyStore) : Prop := ∀ e ∈ p.entries, c.Fits e.1 e.2

theorem types_empty (c : Catalog) : c.Types .empty := nofun

theorem Types.fits (h : c.Types p) (found : p.get? k = some v) : c.Fits k v :=
  h _ (SortedMap.find?_eq_some_iff.mp found)

theorem Types.insert (h : c.Types p) (hv : c.Fits k v) : c.Types (p.insert k v) := by
  intro e he
  rcases SortedMap.mem_insert he with rfl | old
  · exact hv
  · exact h e old

theorem Types.erase (h : c.Types p) : c.Types (p.erase k) :=
  fun e he => h e (List.mem_filter.mp he).1

theorem Types.putOrErase (h : c.Types p) {v : Option PropertyValue} (hv : ∀ x ∈ v, c.Fits k x) :
    c.Types (Scope.putOrErase p k v) := by
  cases v with
  | none => exact h.erase
  | some x => exact h.insert (hv x rfl)

end Catalog

def SlotBinding.stores : SlotBinding → List PropertyStore
  | .store b | .entity _ (some b) => [b.properties]
  | .conditions list => list.map (·.properties)
  | .unbound | .value _ | .entity _ none | .prototypes _ => []

/-- Every store that a formula can get at is well typed, those of the host included. -/
structure Scope.WellTyped (c : Catalog) (s : Scope) : Prop where
  catalog : s.catalog = some c
  globals : c.Types c.globals
  frame : c.Types s.frame
  outer : ∀ p ∈ s.outer, c.Types p
  bindings : ∀ b ∈ s.slots, ∀ p ∈ b.stores, c.Types p
  returned : ∀ p ∈ s.returned, c.Types p
  host : ∀ h ∈ s.host, (∀ id, ∀ p ∈ h.properties id, c.Types p) ∧
    ∀ id, ∀ x ∈ h.conditions id, c.Types x.properties

/-- A scope in which nothing is bound yet. -/
theorem Scope.wellTyped_new {c : Catalog} (globals : c.Types c.globals) :
    Scope.WellTyped c { catalog := some c } where
  catalog := rfl
  globals := globals
  frame := c.types_empty
  outer p hp := absurd hp List.not_mem_nil
  bindings b hb p hp := by
    rw [Vector.eq_of_mem_replicate hb] at hp
    exact absurd hp List.not_mem_nil
  returned p hp := absurd hp (Option.not_mem_none p)
  host h hh := absurd hh (Option.not_mem_none h)

namespace Scope.WellTyped
variable {c : Catalog} {s t : Scope} {slot : Slot} {b : SlotBinding} {p : PropertyStore}
  {k : PropertyKey}

theorem binding (h : s.WellTyped c) (bound : s.binding? slot = some b) :
    ∀ p ∈ b.stores, c.Types p := by
  obtain ⟨i, -, rfl⟩ := Option.map_eq_some_iff.mp bound
  exact h.bindings _ (Vector.getElem_mem i.isLt)

theorem rebind (h : s.WellTyped c) (slot : Slot) (hb : ∀ p ∈ b.stores, c.Types p) :
    (s.rebind slot b).WellTyped c := by
  unfold Scope.rebind
  split
  · rename_i i _
    refine { h with bindings := fun b' hb' => ?_ }
    change b' ∈ s.slots.set i b at hb'
    rcases Vector.mem_or_eq_of_mem_set hb' with old | rfl
    · exact h.bindings b' old
    · exact hb
  · exact h

theorem unbind (h : s.WellTyped c) (slot : Slot) : (s.rebind slot .unbound).WellTyped c :=
  h.rebind slot nofun

theorem bind (h : s.WellTyped c) (slot : Slot) (hb : ∀ p ∈ b.stores, c.Types p) :
    (s.bind slot b).WellTyped c := by
  have rebound := h.rebind slot hb
  unfold Scope.bind
  split
  · rename_i p lent
    refine { rebound with returned := ?_ }
    rintro q ⟨⟩
    exact h.binding lent p (.head _)
  · exact rebound

private theorem mem_stores {store : BoundStore} (h : boundStore? b = some store) :
    store.properties ∈ b.stores := by
  obtain rfl | ⟨id, rfl⟩ := boundStore?_eq_some h <;> exact .head _

private theorem stores_withStore (hb : ∀ q ∈ b.stores, c.Types q) (hp : c.Types p) :
    ∀ q ∈ (withStore b p).stores, c.Types q := by
  unfold withStore
  split
  · rintro q (_ | _)
    · exact hp
    · contradiction
  · rintro q (_ | _)
    · exact hp
    · contradiction
  · exact hb

theorem store (h : s.WellTyped c) (found : s.store? slot = some p) : c.Types p := by
  unfold Scope.store? at found
  split at found
  · cases found
    exact h.frame
  · exact h.outer p (List.mem_of_getElem? found)
  · rw [h.catalog] at found
    cases found
    exact h.globals
  · obtain ⟨store, bound, rfl⟩ := Option.map_eq_some_iff.mp found
    obtain ⟨b, hb, here⟩ := Option.bind_eq_some_iff.mp bound
    exact h.binding hb _ (mem_stores here)

theorem setStore (h : s.WellTyped c) (slot : Slot) (hp : c.Types p) :
    (s.setStore slot p).WellTyped c := by
  unfold Scope.setStore
  split
  · exact { h with frame := hp }
  · refine { h with outer := fun q hq => ?_ }
    rcases List.mem_or_eq_of_mem_set hq with old | rfl
    · exact h.outer q old
    · exact hp
  · exact h
  · split
    · rename_i b bound
      exact h.rebind _ (stores_withStore (h.binding bound) hp)
    · exact h

theorem put (h : s.WellTyped c) (slot : Slot) {v : Option PropertyValue}
    (hv : ∀ x ∈ v, c.Fits k x) : (s.put slot k v).WellTyped c := by
  unfold Scope.put
  split
  · rename_i store found
    exact h.setStore slot ((h.store found).putOrErase hv)
  · exact h

private theorem fits_stored (h : s.WellTyped c) {v : Value} {x : PropertyValue}
    (stored : (s.storageType slot k v).bind v.store? = some x) : c.Fits k x := by
  intro info declared
  obtain ⟨type, chosen, converted⟩ := Option.bind_eq_some_iff.mp stored
  rw [storageType, Scope.declared, h.catalog] at chosen
  simp only [declared, Option.map_some, Option.some.injEq] at chosen
  rw [Value.dataType_store? converted, chosen]

theorem write (h : s.WellTyped c) (slot : Slot) (k : PropertyKey) (v : Value) :
    (s.write slot k v).2.WellTyped c := by
  unfold Scope.write
  split
  · exact h
  · rename_i found stored
    split
    · exact h.setStore slot ((h.store found).insert (h.fits_stored stored))
    · exact h
  · exact h

theorem exchange (h : s.WellTyped c) (left right : Slot) (k : PropertyKey) :
    (s.exchange left right k).2.WellTyped c := by
  unfold Scope.exchange
  split
  · rename_i l r hl hr
    split
    · refine (h.put left fun x hx => ?_).put right fun x hx => ?_
      · exact (h.store hr).fits hx
      · exact (h.store hl).fits hx
    · exact h
  · exact h

theorem draw (h : s.WellTyped c) (f : Dice → Value × Dice) : (s.draw f).2.WellTyped c := by
  unfold Scope.draw
  split
  · exact { h with }
  · exact h

theorem pushFrame (h : s.WellTyped c) : s.pushFrame.WellTyped c := by
  refine { h with frame := c.types_empty, outer := ?_ }
  rintro p (_ | ⟨_, hp⟩)
  · exact h.frame
  · exact h.outer p hp

theorem popFrame (h : s.WellTyped c) : s.popFrame.WellTyped c := by
  unfold Scope.popFrame
  split
  · rename_i f fs around
    have outer := h.outer
    rw [around] at outer
    exact { h with frame := outer f (.head _), outer := fun p hp => outer p (.tail _ hp) }
  · exact h

theorem bindEntity (h : s.WellTyped c) (slot : Slot) (id : Nat) :
    (s.bindEntity slot id).WellTyped c := by
  refine h.bind slot ?_
  rcases known : s.host.bind fun host => host.properties id with _ | p
  · nofun
  · obtain ⟨host, here, knows⟩ := Option.bind_eq_some_iff.mp known
    rintro q (_ | _)
    · exact (h.host host here).1 id p knows
    · contradiction

theorem bindConditions (h : s.WellTyped c) (source slot : Slot) :
    ((Formula.bindConditions source slot).eval s).2.WellTyped c := by
  rw [Formula.eval]
  split
  · rename_i id host _ here
    refine h.bind slot fun p hp => ?_
    obtain ⟨x, hx, rfl⟩ := List.mem_map.mp hp
    exact (h.host host here).2 id x hx
  · exact h

theorem enterCondition (h : s.WellTyped c) {x : Condition} (hx : c.Types x.properties) :
    (s.enterCondition x).WellTyped c := by
  refine (h.rebind .condition ?_).rebind .conditionKeywords nofun
  rintro q (_ | _)
  · exact hx
  · contradiction

theorem boundBefore (h : s.WellTyped c) (slot : Slot) :
    ∀ p ∈ ((s.binding? slot).getD .unbound).stores, c.Types p := by
  rcases bound : s.binding? slot with _ | b
  · nofun
  · exact h.binding bound

theorem leaveCondition (h : t.WellTyped c) (hs : s.WellTyped c) (x : Condition) :
    c.Types (t.leaveCondition s x).1.properties ∧ (t.leaveCondition s x).2.WellTyped c := by
  have taken : (∀ p ∈ (t.takeOwned .condition).1, c.Types p) ∧
      (t.takeOwned .condition).2.WellTyped c := by
    unfold Scope.takeOwned
    split
    · rename_i p bound
      refine ⟨?_, h.unbind .condition⟩
      rintro q ⟨⟩
      exact h.binding bound p (.head _)
    · exact ⟨nofun, h⟩
  obtain ⟨kept, rest⟩ := taken
  refine ⟨?_, (rest.rebind .condition (hs.boundBefore _)).rebind .conditionKeywords
    (hs.boundBefore _)⟩
  change c.Types ((t.takeOwned .condition).1.getD .empty)
  rcases found : (t.takeOwned .condition).1 with _ | p
  · exact c.types_empty
  · exact kept p found

end Scope.WellTyped

open Recorded

/-- The scopes that an evaluation comes by are well typed when the first one is. -/
def keepsTypes (c : Catalog) : Scope.Law := fun s _ t visits =>
  s.WellTyped c → t.WellTyped c ∧ ∀ v ∈ visits, v.scope.WellTyped c

namespace keepsTypes
variable {c : Catalog}

theorem composes (c : Catalog) : (keepsTypes c).Composes where
  stay _ _ hs := ⟨hs, nofun⟩
  trans := by
    intro s t u a b l m _ first rest hs
    obtain ⟨between, visited⟩ := first hs
    obtain ⟨after, later⟩ := rest between
    refine ⟨after, fun v hv => ?_⟩
    rcases List.mem_append.mp hv with before | behind
    · exact visited v before
    · exact later v behind
  framed h hs := by
    obtain ⟨inside, visited⟩ := h hs.pushFrame
    exact ⟨inside.popFrame, visited⟩

end keepsTypes

/-- From a well-typed scope the step leads to well-typed scopes only, and to such a result. -/
def Recorded.Keeps {α : Type} (c : Catalog) (Q : α → Prop) (x : Recorded α) : Prop :=
  ∀ s : Scope, s.WellTyped c →
    Q (x.run s).1 ∧ (x.run s).2.WellTyped c ∧ ∀ v ∈ (x s).2, v.scope.WellTyped c

namespace Recorded.Keeps
variable {α β : Type} {c : Catalog} {Q : α → Prop} {Q' : β → Prop}

theorem plain {f : Step α} (hf : ∀ s : Scope, s.WellTyped c → Q (f s).1 ∧ (f s).2.WellTyped c) :
    (plain f).Keeps c Q := by
  intro s hs
  obtain ⟨result, scope⟩ := hf s hs
  exact ⟨result, scope, nofun⟩

theorem pure {a : α} (ha : Q a) : (pure a : Recorded α).Keeps c Q := plain fun _ hs => ⟨ha, hs⟩

theorem bind {x : Recorded α} {f : α → Recorded β} (hx : x.Keeps c Q)
    (hf : ∀ a, Q a → (f a).Keeps c Q') : (x >>= f).Keeps c Q' := by
  intro s hs
  obtain ⟨first, between⟩ := hx s hs
  obtain ⟨result, after⟩ := hf _ first _ between.1
  have now : keepsTypes c s True (x.run s).2 (x s).2 := fun _ => between
  have later : keepsTypes c (x.run s).2 True _ _ := fun _ => after
  exact ⟨result, (keepsTypes.composes c).trans id now later hs⟩

theorem look {f : Scope → α} (hf : ∀ s : Scope, s.WellTyped c → Q (f s)) :
    (look f).Keeps c Q := plain fun s hs => ⟨hf s hs, hs⟩

theorem change {f : Scope → Scope} (hf : ∀ s : Scope, s.WellTyped c → (f s).WellTyped c) :
    (change f).Keeps c fun _ => True := plain fun s hs => ⟨trivial, hf s hs⟩

theorem framed {x : Recorded α} (hx : x.Keeps c Q) : (Recorded.framed x).Keeps c Q :=
  (change fun _ hs => hs.pushFrame).bind fun _ _ => hx.bind fun _ ha =>
    (change fun _ hs => hs.popFrame).bind fun _ _ => pure ha

variable {round : Recorded (Option Value)}

theorem condition (hr : round.Keeps c fun _ => True) {x : Condition}
    (hx : c.Types x.properties) :
    (condition round x).Keeps c fun r => c.Types r.2.properties := by
  have before : (Recorded.look id).Keeps c (Scope.WellTyped c) := look fun _ hs => hs
  refine before.bind fun s hs => (change fun _ ht => ht.enterCondition hx).bind fun _ _ => ?_
  refine hr.bind fun ended _ => ?_
  have left : (Recorded.plain fun t => t.leaveCondition s x).Keeps c
      fun y => c.Types y.properties := plain fun _ ht => ht.leaveCondition hs x
  exact left.bind fun y hy => pure hy

theorem conditions (hr : round.Keeps c fun _ => True) {list : List Condition}
    (hl : ∀ x ∈ list, c.Types x.properties) :
    (conditions round list).Keeps c fun r => ∀ x ∈ r.2, c.Types x.properties := by
  induction list with
  | nil => exact pure nofun
  | cons x xs ih =>
    obtain ⟨first, rest⟩ := List.forall_mem_cons.mp hl
    refine (hr.condition first).bind fun r typed => ?_
    split
    · exact pure (List.forall_mem_cons.mpr ⟨typed, rest⟩)
    · exact (ih rest).bind fun r later => pure (List.forall_mem_cons.mpr ⟨typed, later⟩)

theorem overConditions (hr : round.Keeps c fun _ => True) (source : Slot) :
    (Recorded.overConditions source round).Keeps c fun _ => True := by
  have found : (Recorded.look fun s => s.binding? source).Keeps c
      fun bound => ∀ b ∈ bound, ∀ p ∈ b.stores, c.Types p :=
    look fun s hs b bound => hs.binding bound
  refine found.bind fun bound typed => ?_
  split
  · rename_i list
    have listed : ∀ x ∈ list, c.Types x.properties :=
      List.forall_mem_map.mp (typed _ rfl)
    refine (change fun _ hs => hs.unbind source).bind fun _ _ => ?_
    refine (hr.conditions listed).framed.bind fun r kept => ?_
    have back : ∀ p ∈ (SlotBinding.conditions r.2).stores, c.Types p :=
      List.forall_mem_map.mpr kept
    exact (change fun _ hs => hs.rebind source back).bind fun _ _ => pure trivial
  · exact pure trivial

end Recorded.Keeps

namespace keepsTypes
variable {c : Catalog}

theorem holds (loop : ∀ info, c.property? .loopPrototype = some info → info.dataType = .prototype) :
    (keepsTypes c).Holds fun _ => True where
  toComposes := composes c
  visit inside hs := by
    obtain ⟨after, visited⟩ := inside hs
    exact ⟨after, List.forall_mem_cons.mpr ⟨hs, visited⟩⟩
  assign _ _ v _ hs := ⟨hs.write _ _ v, nofun⟩
  assignWith _ _ words v _ hs := ⟨hs.write _ _ v, nofun⟩
  swap _ _ _ hs := ⟨hs.exchange _ _ _, nofun⟩
  bindEntity _ _ id _ hs := ⟨hs.bindEntity _ id, nofun⟩
  bindConditions _ _ _ hs := ⟨hs.bindConditions _ _, nofun⟩
  randomSingle _ _ _ hs := ⟨hs.draw _, nofun⟩
  randomInt _ _ _ hs := ⟨hs.draw _, nofun⟩
  overPrototypes hr := by
    refine (composes c).eachPrototype (fun s p _ hs => ⟨hs.put _ ?_, nofun⟩) hr _
    rintro x ⟨⟩ info declared
    exact (loop info declared).symm
  overConditions hr s hs :=
    have kept := Recorded.Keeps.overConditions (fun t ht => ⟨trivial, hr t ht⟩) _ s hs
    kept.2

end keepsTypes

theorem Scope.WellTyped.read {c : Catalog} {s : Scope} (h : s.WellTyped c) {slot : Slot}
    {k : PropertyKey} (valued : s.read slot k ≠ .error) :
    ∃ info, c.property? k.prop = some info ∧ info.dataType.readsAs (s.read slot k) = true := by
  rcases declared : c.property? k.prop with _ | info
  · refine (valued ?_).elim
    simp [Scope.read, Scope.declared, h.catalog, declared]
  refine ⟨info, rfl, ?_⟩
  rcases found : s.store? slot with _ | store
  · refine (valued ?_).elim
    simp [Scope.read, found]
  rcases here : store.get? k with _ | v
  · have missing : s.read slot k = .ofProperty info.dataType.default := by
      simp [Scope.read, Scope.declared, h.catalog, declared, found, here]
    have kind := PropertyValue.readsAs_ofProperty info.dataType.default
    rwa [DataType.dataType_default, ← missing] at kind
  · have present : s.read slot k = .ofProperty v := by
      simp [Scope.read, Scope.declared, h.catalog, declared, found, here]
    have kind := PropertyValue.readsAs_ofProperty v
    rwa [(h.store found).fits here info declared, ← present] at kind

namespace Formula

def loaded? : Formula → Option PropertyId
  | .load _ key => some key.prop
  | .loadBound _ prop _ | .loadWith _ prop _ => some prop
  | _ => none

variable {c : Catalog}
  (loop : ∀ info, c.property? .loopPrototype = some info → info.dataType = .prototype)
include loop

private theorem eval_loaded {f : Formula} {prop : PropertyId} (loads : f.loaded? = some prop)
    {s : Scope} (hs : s.WellTyped c) (valued : (f.eval s).1 ≠ .error) :
    ∃ info, c.property? prop = some info ∧ info.dataType.readsAs (f.eval s).1 = true := by
  unfold loaded? at loads
  split at loads
  · cases loads
    exact hs.read valued
  · rename_i slot prop param
    cases loads
    have outcome : (eval (.loadBound slot prop param) s).1 = .error ∨
        ∃ w, (eval (.loadBound slot prop param) s).1 = s.read slot (.ofList prop [w]) := by
      rw [eval]
      split
      · exact .inr ⟨_, rfl⟩
      · exact .inl rfl
    rcases outcome with failed | ⟨w, same⟩
    · exact (valued failed).elim
    · rw [same] at valued ⊢
      exact hs.read valued
  · rename_i slot prop params
    cases loads
    have obeyed := (keepsTypes.holds loop).parameters 4 params (fun _ _ => trivial) s hs
    rw [run_params] at obeyed
    rw [eval] at valued ⊢
    generalize evalParams 4 params s = r at obeyed valued ⊢
    obtain ⟨_ | words, t⟩ := r
    · exact (valued rfl).elim
    · exact obeyed.1.read valued
  · cases loads

/-- Evaluation keeps every store well typed, and whatever is loaded on the way without an error is
of the kind of the declared type. -/
theorem eval_typed (f : Formula) {s : Scope} (hs : s.WellTyped c) :
    (f.eval s).2.WellTyped c ∧
      ∀ v ∈ f.visits s, ∀ prop, v.formula.loaded? = some prop → v.value ≠ .error →
        ∃ info, c.property? prop = some info ∧ info.dataType.readsAs v.value = true := by
  have hL := keepsTypes.holds loop
  have obeyed := hL.visiting (hL.record f fun _ _ => trivial) s hs
  rw [run_visiting, run_record] at obeyed
  obtain ⟨after, visited⟩ := obeyed
  exact ⟨after, fun v hv prop loads valued => eval_loaded loop loads (visited v hv) valued⟩

omit loop in
/-- A look at the loop variable in a round over one prototype. -/
theorem eval_typed_rounds :
    let c : Catalog := { properties := .ofList (PropertyInfo.builtins.map fun i => (i.prop, i)) }
    let rounds : Formula :=
      .forPrototypes .var1 none none [.load .localStack PropertyId.loopPrototype]
    let s := Scope.rebind { catalog := some c } .var1 (.prototypes [⟨9⟩])
    (rounds.eval s).2.WellTyped c ∧ ∃ v ∈ rounds.visits s, v.value = .proto ⟨9⟩ ∧
      ∃ info, c.property? .loopPrototype = some info ∧ info.dataType.readsAs v.value = true := by
  intro c rounds s
  have declared : (c.property? .loopPrototype).map (·.dataType) = some .prototype := by
    decide +kernel
  have loop : ∀ info, c.property? .loopPrototype = some info → info.dataType = .prototype := by
    intro info h
    rw [h] at declared
    exact Option.some.inj declared
  have typed : s.WellTyped c :=
    (Scope.wellTyped_new c.types_empty).rebind .var1 fun p hp => absurd hp List.not_mem_nil
  have visited : ∃ v ∈ rounds.visits s, v.value = .proto ⟨9⟩ ∧
      v.formula.loaded? = some .loopPrototype := by decide +kernel
  obtain ⟨after, kinds⟩ := eval_typed loop rounds typed
  obtain ⟨v, hv, value, loads⟩ := visited
  have valued : v.value ≠ .error := by
    rw [value]
    exact Value.noConfusion
  exact ⟨after, v, hv, value, kinds v hv _ loads valued⟩

end Formula

end Spoils
