import Mathlib.Data.Finset.Card
import Spoils.Affix.RankRoll
import Spoils.Proofs.Catalog.Index
import Spoils.Proofs.Picker

/-! Rolling the affixes of an enemy, slot by slot. No affix comes twice on one enemy, and what its
group has already is used before anything new. -/
namespace Spoils

namespace Affix
variable {pool : List PrototypeId} {before excluded : SortedSet PrototypeId} {dice : Dice}
  {id : PrototypeId}

/-- What is drawn from a pool was rolled before, or nothing in the pool was and it is not
excluded. -/
theorem mem_of_pickPreferred (h : (pickPreferred pool before excluded dice).1 = some id) :
    id ∈ pool ∧ (id ∈ before.toList ∨
      (∀ other ∈ pool, other ∉ before.toList) ∧ id ∉ excluded.toList) := by
  rw [pickPreferred] at h
  split at h
  · rename_i reused next drawn
    cases h
    have listed := Picker.pickOne_mem (congrArg Prod.fst drawn)
    rw [Picker.items_uniform, List.mem_filter, List.contains_iff_mem] at listed
    exact ⟨listed.2, .inl listed.1⟩
  · rename_i next missed
    have unknown := Picker.pickOne_uniform_eq_none (congrArg Prod.fst missed)
    have listed := Picker.pickOne_mem h
    rw [Picker.items_uniform, List.mem_filter, Bool.not_eq_true', ← Bool.not_eq_true,
      SortedSet.contains_iff] at listed
    refine ⟨listed.1, .inr ⟨fun other here known => ?_, listed.2⟩⟩
    exact List.filter_eq_nil_iff.mp unknown other known (List.contains_iff_mem.mpr here)

/-- Nothing is drawn only if all of the pool is excluded and none of it was rolled before. -/
theorem pickPreferred_eq_none (h : (pickPreferred pool before excluded dice).1 = none) :
    ∀ id ∈ pool, id ∉ before.toList ∧ id ∈ excluded.toList := by
  rw [pickPreferred] at h
  split at h
  · cases h
  · rename_i next missed
    have unknown := Picker.pickOne_uniform_eq_none (congrArg Prod.fst missed)
    have spent := Picker.pickOne_uniform_eq_none h
    refine fun id here => ⟨fun known => ?_, ?_⟩
    · exact List.filter_eq_nil_iff.mp unknown id known (List.contains_iff_mem.mpr here)
    · have := List.filter_eq_nil_iff.mp spent id here
      rwa [Bool.not_eq_true', Bool.not_eq_false, SortedSet.contains_iff] at this

end Affix

namespace RankSlot

/-- The chance of the slot comes up, and this is the table that it draws from. -/
structure Opens (slot : RankSlot) (c : Catalog) (dice : Dice) (t : AffixTable) : Prop where
  table : c.affixTable? slot.table = some t
  chance : (dice.chance slot.chance).1 = true

def Offers (slot : RankSlot) (c : Catalog) (id : PrototypeId) : Prop :=
  ∃ t, c.affixTable? slot.table = some t ∧ id ∈ t.affixes

def IsValid (slot : RankSlot) (c : Catalog) : Prop := ∀ id, slot.Offers c id → id.isValid = true

/-- A slot that does not open gives no affix, and one that opens draws from its table. -/
theorem roll_cases (slot : RankSlot) (c : Catalog) (before excluded : SortedSet PrototypeId)
    (dice : Dice) :
    ((∀ t, ¬slot.Opens c dice t) ∧ (slot.roll c before excluded dice).1 = .none) ∨
    ∃ t next, slot.Opens c dice t ∧ (slot.roll c before excluded dice).1 =
      (Affix.pickPreferred t.affixes before excluded next).1.getD .none := by
  rw [roll]
  split
  · rename_i missing
    refine .inl ⟨fun t opens => ?_, rfl⟩
    cases missing.symm.trans opens.table
  · rename_i t found
    rcases drawn : dice.chance slot.chance with ⟨_ | _, next⟩
    · refine .inl ⟨fun t opens => ?_, rfl⟩
      cases (congrArg Prod.fst drawn).symm.trans opens.chance
    · exact .inr ⟨t, next, ⟨found, congrArg Prod.fst drawn⟩, rfl⟩

end RankSlot

/-- What holds of a roll at every slot: the enemy's set is what was rolled for it, without
repetition, and the group has its affixes from before and these. -/
structure RankRoll.Sound (group : SortedSet PrototypeId) (r : RankRoll) : Prop where
  nodup : r.rolled.Nodup
  own : ∀ id, id ∈ r.own.toList ↔ id ∈ r.rolled
  group : ∀ id, id ∈ r.group.toList ↔ id ∈ group.toList ∨ id ∈ r.rolled

theorem RankRoll.Sound.start (group : SortedSet PrototypeId) :
    RankRoll.Sound group { group := group } where
  nodup := .nil
  own _ := Iff.rfl
  group _ := (or_iff_left List.not_mem_nil).symm

namespace RankEntry
variable {c : Catalog} {slot : RankSlot} {slots : List RankSlot} {r r' : RankRoll} {dice : Dice}
  {group : SortedSet PrototypeId}

theorem rollSlots_append (c : Catalog) (slots later : List RankSlot) (r : RankRoll) (dice : Dice) :
    rollSlots c (slots ++ later) r dice =
      rollSlots c later (rollSlots c slots r dice).1 (rollSlots c slots r dice).2 := by
  induction slots generalizing r dice with
  | nil => rfl
  | cons slot slots ih =>
    simp only [List.cons_append, rollSlots]
    split <;> exact ih _ _

/-- All that a slot can do to a roll: it adds nothing, if it does not open or the enemy has all of
its table, or one affix that the enemy lacks, from the group if this has any. -/
inductive Adds (c : Catalog) (slot : RankSlot) (dice : Dice) (r : RankRoll) : RankRoll → Prop
  | nothing (spent : ∀ t, slot.Opens c dice t → ∀ id ∈ t.affixes, id ∈ r.rolled) :
    Adds c slot dice r r
  | affix {t : AffixTable} {id : PrototypeId} (opens : slot.Opens c dice t)
      (listed : id ∈ t.affixes) (fresh : id ∉ r.rolled)
      (reused : (∃ other ∈ t.affixes, other ∈ r.group.toList ∧ other ∉ r.rolled) →
        id ∈ r.group.toList) :
    Adds c slot dice r
      { rolled := r.rolled ++ [id], own := r.own.add id, group := r.group.add id }

private theorem rollSlots_adds (valid : slot.IsValid c) (sound : r.Sound group) (dice : Dice) :
    Adds c slot dice r (rollSlots c [slot] r dice).1 := by
  -- What is offered for reuse is what the group has and the enemy lacks, so that no slot is spent
  -- on an affix that the enemy has.
  have reusable (id : PrototypeId) :
      id ∈ (r.group.without r.own).toList ↔ id ∈ r.group.toList ∧ id ∉ r.rolled := by
    rw [SortedSet.mem_without, sound.own]
  simp only [rollSlots]
  rcases slot.roll_cases c (r.group.without r.own) r.own dice with
    ⟨closed, none⟩ | ⟨t, next, opens, drawn⟩
  · rw [none]
    exact .nothing fun t opens => (closed t opens).elim
  · rcases picked : (Affix.pickPreferred t.affixes (r.group.without r.own) r.own next).1 with
      _ | id
    · rw [drawn, picked]
      refine .nothing fun t' opens' id listed => ?_
      cases opens.table.symm.trans opens'.table
      exact (sound.own id).mp (Affix.pickPreferred_eq_none picked id listed).2
    · obtain ⟨listed, preferred⟩ := Affix.mem_of_pickPreferred picked
      have fresh : id ∉ r.rolled := by
        rcases preferred with known | ⟨-, new⟩
        · exact ((reusable id).mp known).2
        · exact fun mine => new ((sound.own id).mpr mine)
      have free : (!id.isValid || SortedMap.contains r.own id) = false := by
        rw [valid id ⟨t, opens.table, listed⟩, Bool.not_true, Bool.false_or,
          ← Bool.not_eq_true, SortedSet.contains_iff, sound.own]
        exact fresh
      rw [drawn, picked, Option.getD_some, if_neg (Bool.not_eq_true _ ▸ free)]
      refine .affix opens listed fresh fun ⟨other, here, shared, missing⟩ => ?_
      rcases preferred with known | ⟨unknown, -⟩
      · exact ((reusable id).mp known).1
      · exact (unknown other here ((reusable other).mpr ⟨shared, missing⟩)).elim

theorem Adds.sound (h : Adds c slot dice r r') (sound : r.Sound group) : r'.Sound group := by
  cases h with
  | nothing spent => exact sound
  | affix opens listed fresh reused =>
    refine ⟨?_, fun other => ?_, fun other => ?_⟩
    · exact List.nodup_append.mpr ⟨sound.nodup, List.nodup_singleton _, by grind⟩
    · rw [SortedSet.mem_add, sound.own, List.mem_append, List.mem_singleton, or_comm]
    · rw [SortedSet.mem_add, sound.group, List.mem_append, List.mem_singleton]
      grind

theorem rollSlots_cons (c : Catalog) (slot : RankSlot) (slots : List RankSlot) (r : RankRoll)
    (dice : Dice) : rollSlots c (slot :: slots) r dice =
      rollSlots c slots (rollSlots c [slot] r dice).1 (rollSlots c [slot] r dice).2 :=
  rollSlots_append c [slot] slots r dice

theorem rollSlots_sound (valid : ∀ slot ∈ slots, slot.IsValid c) (sound : r.Sound group)
    (dice : Dice) : (rollSlots c slots r dice).1.Sound group := by
  induction slots generalizing r dice with
  | nil => exact sound
  | cons slot slots ih =>
    obtain ⟨first, others⟩ := List.forall_mem_cons.mp valid
    rw [rollSlots_cons]
    exact ih others ((rollSlots_adds first sound dice).sound sound) _

/-- What is rolled comes from some of the slots in order, one affix from each. -/
theorem rollSlots_chosen (valid : ∀ slot ∈ slots, slot.IsValid c) (sound : r.Sound group)
    (dice : Dice) : ∃ chosen new, chosen.Sublist slots ∧
      List.Forall₂ (fun id slot => slot.Offers c id) new chosen ∧
      (rollSlots c slots r dice).1.rolled = r.rolled ++ new := by
  induction slots generalizing r dice with
  | nil => exact ⟨[], [], .slnil, .nil, (List.append_nil _).symm⟩
  | cons slot slots ih =>
    obtain ⟨first, others⟩ := List.forall_mem_cons.mp valid
    have step := rollSlots_adds first sound dice
    obtain ⟨chosen, new, listed, offered, rolled⟩ :=
      ih others (step.sound sound) (rollSlots c [slot] r dice).2
    rw [← rollSlots_cons] at rolled
    generalize (rollSlots c [slot] r dice).1 = r' at step rolled
    cases step with
    | nothing spent => exact ⟨chosen, new, listed.cons slot, offered, rolled⟩
    | @affix t id opens here =>
      refine ⟨slot :: chosen, id :: new, listed.cons_cons slot,
        .cons ⟨t, opens.table, here⟩ offered, ?_⟩
      rw [rolled, List.append_assoc]
      rfl

/-- Where the roll of an enemy stands after so many slots. -/
def standing (e : RankEntry) (c : Catalog) (group : SortedSet PrototypeId) (dice : Dice)
    (i : Nat) : RankRoll × Dice :=
  rollSlots c (e.slots.take i) { group := group } dice

private theorem standing_succ (e : RankEntry) (c : Catalog) (group : SortedSet PrototypeId)
    (dice : Dice) (i : Fin e.slots.length) :
    e.standing c group dice (i + 1) =
      rollSlots c [e.slots.get i] (e.standing c group dice i).1 (e.standing c group dice i).2 := by
  rw [standing, ← List.take_append_getElem i.isLt, rollSlots_append]
  rfl

theorem standing_sound (e : RankEntry) (valid : ∀ slot ∈ e.slots, slot.IsValid c)
    (group : SortedSet PrototypeId) (dice : Dice) (i : Nat) :
    (e.standing c group dice i).1.Sound group :=
  rollSlots_sound (fun slot listed => valid slot (List.mem_of_mem_take listed)) (.start group) dice

/-- What was rolled up to a slot stays at the front of what is rolled. -/
theorem standing_prefix (e : RankEntry) (valid : ∀ slot ∈ e.slots, slot.IsValid c)
    (group : SortedSet PrototypeId) (dice : Dice) (i : Nat) :
    (e.standing c group dice i).1.rolled <+: (e.roll c group dice).1 := by
  obtain ⟨-, new, -, -, rolled⟩ := rollSlots_chosen
    (fun slot listed => valid slot (List.mem_of_mem_drop listed))
    (e.standing_sound valid group dice i) (e.standing c group dice i).2
  refine ⟨new, rolled.symm.trans ?_⟩
  rw [standing, ← rollSlots_append, List.take_append_drop]
  rfl

/-- No affix comes twice on one enemy; the affixes are from the tables of different slots, in the
order of these, and the group has them afterwards besides those that it had. A slot that opens with
a table in which the group has an affix that the enemy lacks adds such an affix. -/
theorem roll_reuses (e : RankEntry) (c : Catalog) (group : SortedSet PrototypeId) (dice : Dice)
    (valid : ∀ id t, c.affixTable? id = some t → ∀ affix ∈ t.affixes, affix.isValid = true) :
    (e.roll c group dice).1.Nodup ∧
    (∃ chosen : List RankSlot, chosen.Sublist e.slots ∧
      List.Forall₂ (fun id slot => ∃ t, c.affixTable? slot.table = some t ∧ id ∈ t.affixes)
        (e.roll c group dice).1 chosen) ∧
    (∀ id, id ∈ (e.roll c group dice).2.1.toList ↔
      id ∈ group.toList ∨ id ∈ (e.roll c group dice).1) ∧
    ∀ (i : Fin e.slots.length) (t : AffixTable),
      let before := e.standing c group dice i
      (e.slots.get i).Opens c before.2 t →
      (∃ other ∈ t.affixes, other ∈ before.1.group.toList ∧ other ∉ before.1.rolled) →
      ∃ id ∈ t.affixes, id ∈ before.1.group.toList ∧ id ∉ before.1.rolled ∧
        (e.standing c group dice (i + 1)).1.rolled = before.1.rolled ++ [id] ∧
        (e.standing c group dice (i + 1)).1.rolled <+: (e.roll c group dice).1 := by
  have valid : ∀ slot ∈ e.slots, slot.IsValid c := fun slot _ id ⟨t, found, listed⟩ =>
    valid slot.table t found id listed
  have sound : (rollSlots c e.slots { group := group } dice).1.Sound group :=
    rollSlots_sound valid (.start group) dice
  obtain ⟨chosen, new, listed, offered, (rolled : (e.roll c group dice).1 = new)⟩ :=
    rollSlots_chosen valid (.start group) dice
  refine ⟨sound.nodup, ⟨chosen, listed, rolled ▸ offered⟩, sound.group, ?_⟩
  intro i t before opens ⟨other, here, shared, missing⟩
  have step := rollSlots_adds (valid _ (List.get_mem e.slots i))
    (e.standing_sound valid group dice i) before.2
  have kept := e.standing_prefix valid group dice (i + 1)
  rw [standing_succ] at kept ⊢
  generalize (rollSlots c [e.slots.get i] before.1 before.2).1 = after at step kept ⊢
  cases step with
  | nothing spent => exact (missing (spent t opens other here)).elim
  | affix opens' listed fresh reused =>
    cases opens.table.symm.trans opens'.table
    exact ⟨_, listed, reused ⟨other, here, shared, missing⟩, fresh, rfl, kept⟩

/-- The group has an affix of the table, which the first slot reuses; the second slot has no table,
and the third one adds something new. -/
theorem roll_reuses_known :
    let t : AffixTable := { id := ⟨500⟩, affixes := [⟨1⟩, ⟨2⟩, ⟨3⟩, ⟨2⟩] }
    let c : Catalog := { prototypes := .ofList [(⟨500⟩, .affixTable t)] }
    let e : RankEntry := { rank := .elite, slots := [⟨⟨500⟩, 100⟩, ⟨⟨9⟩, 100⟩, ⟨⟨500⟩, 100⟩] }
    let group : SortedSet PrototypeId := .ofList [⟨77⟩, ⟨2⟩]
    let dice : Dice := .ofSeed 21
    (∀ id t, c.affixTable? id = some t → ∀ affix ∈ t.affixes, affix.isValid = true) ∧
      (e.slots.get 0).Opens c (e.standing c group dice 0).2 t ∧
      (∃ id ∈ t.affixes, id ∈ group.toList ∧ id ∉ (e.standing c group dice 0).1.rolled ∧
        (e.standing c group dice 1).1.rolled = [id] ∧ [id] <+: (e.roll c group dice).1) ∧
      (e.roll c group dice).1 = [⟨2⟩, ⟨1⟩] := by
  intro t c e group dice
  have valid : ∀ id t, c.affixTable? id = some t → ∀ affix ∈ t.affixes, affix.isValid = true := by
    intro id t' found
    have listed := SortedMap.find?_eq_some_iff.mp (Catalog.affixTable?_eq_some_iff.mp found)
    cases List.mem_singleton.mp listed
    decide
  have opens : (e.slots.get 0).Opens c (e.standing c group dice 0).2 t :=
    ⟨rfl, Dice.chance_of_le (Int.le_refl _) _⟩
  obtain ⟨-, -, -, reuse⟩ := e.roll_reuses c group dice valid
  obtain ⟨id, listed, known, missing, rolled, kept⟩ :=
    reuse 0 t opens ⟨⟨2⟩, by decide, by decide, List.not_mem_nil⟩
  rw [rolled] at kept
  exact ⟨valid, opens, ⟨id, listed, known, missing, rolled, kept⟩, by decide +kernel⟩

/-- Slots that always come up go on adding affixes of their table until the enemy has all of it. -/
theorem rollSlots_length {table : PrototypeId} {t : AffixTable}
    (found : c.affixTable? table = some t) (valid : ∀ id ∈ t.affixes, id.isValid = true)
    (shared : ∀ slot ∈ slots, slot.table = table ∧ 100 ≤ slot.chance) (sound : r.Sound group)
    (within : r.rolled ⊆ t.affixes) (dice : Dice) :
    (rollSlots c slots r dice).1.rolled.length =
      min (r.rolled.length + slots.length) t.affixes.toFinset.card := by
  -- A slot that adds nothing finds all of the table on the enemy, and then the later ones add
  -- nothing either.
  induction slots generalizing r dice with
  | nil =>
    have few : r.rolled.length ≤ t.affixes.toFinset.card := by
      rw [← List.toFinset_card_of_nodup sound.nodup]
      exact Finset.card_le_card fun id mine => List.mem_toFinset.mpr
        (within (List.mem_toFinset.mp mine))
    exact (Nat.min_eq_left few).symm
  | cons slot slots ih =>
    obtain ⟨⟨rfl, sure⟩, others⟩ := List.forall_mem_cons.mp shared
    have opens : slot.Opens c dice t := ⟨found, dice.chance_of_le sure⟩
    have clean : slot.IsValid c := fun id ⟨t', found', listed⟩ =>
      valid id (Option.some.inj (found'.symm.trans found) ▸ listed)
    have step := rollSlots_adds clean sound dice
    have sound' := step.sound sound
    rw [rollSlots_cons, List.length_cons]
    generalize (rollSlots c [slot] r dice).1 = after at step sound' ⊢
    cases step with
    | nothing spent =>
      have full : t.affixes.toFinset.card ≤ r.rolled.length :=
        (Finset.card_le_card fun id listed => List.mem_toFinset.mpr
          (spent t opens id (List.mem_toFinset.mp listed))).trans (List.toFinset_card_le _)
      rw [ih others sound within]
      omega
    | affix opens' listed fresh reused =>
      cases opens.table.symm.trans opens'.table
      have within' : r.rolled ++ [_] ⊆ t.affixes :=
        List.append_subset.mpr ⟨within, List.cons_subset.mpr ⟨listed, List.nil_subset _⟩⟩
      rw [ih others sound' within', List.length_append, List.length_singleton]
      omega

/-- Slots that share a table of valid affixes, and always come up, give the enemy as many affixes as
there are slots, or all different ones of the table if these are fewer. -/
theorem roll_fills (e : RankEntry) (c : Catalog) (group : SortedSet PrototypeId) (dice : Dice)
    {table : PrototypeId} {t : AffixTable} (found : c.affixTable? table = some t)
    (valid : ∀ id ∈ t.affixes, id.isValid = true)
    (shared : ∀ slot ∈ e.slots, slot.table = table ∧ 100 ≤ slot.chance) :
    (e.roll c group dice).1.length = min e.slots.length t.affixes.toFinset.card := by
  have drawn := rollSlots_length found valid shared (.start group) (List.nil_subset _) dice
  rw [List.length_nil, Nat.zero_add] at drawn
  exact drawn

/-- Five slots share a table in which one of three affixes stands twice. -/
theorem roll_fills_repeated :
    let t : AffixTable := { id := ⟨500⟩, affixes := [⟨1⟩, ⟨2⟩, ⟨3⟩, ⟨2⟩] }
    let c : Catalog := { prototypes := .ofList [(⟨500⟩, .affixTable t)] }
    let e : RankEntry := { rank := .elite, slots := .replicate 5 ⟨⟨500⟩, 100⟩ }
    c.affixTable? ⟨500⟩ = some t ∧ (∀ id ∈ t.affixes, id.isValid = true) ∧
      (∀ slot ∈ e.slots, slot.table = ⟨500⟩ ∧ 100 ≤ slot.chance) ∧
      (e.roll c (.ofList [⟨77⟩, ⟨2⟩]) (.ofSeed 21)).1.length = 3 := by
  intro t c e
  have found : c.affixTable? ⟨500⟩ = some t := rfl
  have valid : ∀ id ∈ t.affixes, id.isValid = true := by decide
  have shared : ∀ slot ∈ e.slots, slot.table = ⟨500⟩ ∧ 100 ≤ slot.chance := by decide
  exact ⟨found, valid, shared, e.roll_fills c (.ofList [⟨77⟩, ⟨2⟩]) (.ofSeed 21) found valid shared⟩

end RankEntry
end Spoils
