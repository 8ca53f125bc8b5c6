import Mathlib.Data.List.FinRange
import Spoils.Proofs.Picker

/-! Picking until nothing is picked takes every entry of positive weight out once, and leaves the
other entries as they were. -/
namespace Spoils.Picker
variable {α β : Type} {p left left' : Picker α} {s t t' : Dice} {drawn drawn' : List α}

/-- Picks follow each other until nothing is picked: what they draw in order and what they leave. -/
inductive Drains : Picker α → Dice → List α → Picker α → Dice → Prop
  | stop {p : Picker α} {s t : Dice} (picked : p.pick s = (none, t)) : Drains p s [] p t
  | pick {p q left : Picker α} {s t u : Dice} {a : α} {drawn : List α}
      (picked : p.pick s = (some (a, q), t)) (later : Drains q t drawn left u) :
      Drains p s (a :: drawn) left u

theorem Drains.unique (h : Drains p s drawn left t) (h' : Drains p s drawn' left' t') :
    drawn = drawn' ∧ left = left' ∧ t = t' := by
  induction h generalizing drawn' with
  | stop picked =>
    cases h' with
    | stop picked' => exact ⟨rfl, rfl, congrArg Prod.snd (picked.symm.trans picked')⟩
    | pick picked' later' => cases picked.symm.trans picked'
  | pick picked later ih =>
    cases h' with
    | stop picked' => cases picked.symm.trans picked'
    | pick picked' later' =>
      cases picked.symm.trans picked'
      obtain ⟨rfl, rfl, rfl⟩ := ih later'
      exact ⟨rfl, rfl, rfl⟩

/-- There are at most as many picks as entries. -/
theorem drains_drainWith (fuel : Nat) (p : Picker α) (s : Dice) (enough : p.size ≤ fuel) :
    Drains p s (drainWith fuel p s).1 (drainWith fuel p s).2.1 (drainWith fuel p s).2.2 := by
  induction fuel generalizing p s with
  | zero =>
    obtain ⟨_ | ⟨e, es⟩⟩ := p
    · exact .stop rfl
    · cases enough
  | succ fuel ih =>
    rw [drainWith]
    rcases picked : p.pick s with ⟨_ | ⟨a, q⟩, t⟩
    · exact .stop picked
    · obtain ⟨weight, -, perm⟩ := pick_perm (congrArg Prod.fst picked)
      have fewer : p.size = q.size + 1 := perm.length_eq
      exact .pick picked (ih q t (by omega))

theorem drains_iff : Drains p s drawn left t ↔ p.drain s = (drawn, left, t) := by
  have drains := drains_drainWith p.size p s (Nat.le_refl _)
  constructor
  · intro h
    obtain ⟨rfl, rfl, rfl⟩ := h.unique drains
    rfl
  · intro h
    rw [← drain, h] at drains
    exact drains

theorem Drains.entries_eq (h : Drains p s drawn left t) :
    left.entries = p.entries.filter fun e => e.2 ≤ 0 := by
  induction h with
  | stop picked =>
    have light := le_of_pick_eq_none (congrArg Prod.fst picked)
    exact (List.filter_eq_self.mpr fun e listed => decide_eq_true (light e listed)).symm
  | pick picked later ih =>
    obtain ⟨before, weight, after, hp, hq, heavy⟩ := pick_eq_some (congrArg Prod.fst picked)
    have drawable : decide (weight ≤ 0) = false := decide_eq_false (by omega)
    rw [ih, hp, hq, List.filter_append, List.filter_append, List.filter_cons, drawable]
    rfl

theorem Drains.perm (h : Drains p s drawn left t) :
    drawn.Perm ((p.entries.filter fun e => 0 < e.2).map (·.1)) := by
  induction h with
  | stop picked =>
    have light := le_of_pick_eq_none (congrArg Prod.fst picked)
    rw [List.filter_eq_nil_iff.mpr fun e listed => by simpa using light e listed]
    exact .refl []
  | @pick p q _ _ _ _ a _ picked later ih =>
    obtain ⟨weight, heavy, taken⟩ := pick_perm (congrArg Prod.fst picked)
    refine (ih.cons a).trans (List.Perm.symm ?_)
    have kept := (taken.filter fun e => 0 < e.2).map (·.1)
    rwa [List.filter_cons, if_pos (decide_eq_true heavy)] at kept

theorem Drains.map (f : α → β) (h : Drains p s drawn left t) :
    Drains (p.map f) s (drawn.map f) (left.map f) t := by
  induction h with
  | stop picked => exact .stop (by rw [pick_map, picked]; rfl)
  | pick picked later ih => exact .pick (by rw [pick_map, picked]; rfl) ih

/-- The same weights on the positions of the entries. -/
def numbered (p : Picker α) : Picker (Fin p.entries.length) :=
  ⟨(List.finRange p.entries.length).map fun i => (i, (p.entries.get i).2)⟩

theorem map_numbered (p : Picker α) : p.numbered.map (fun i => (p.entries.get i).1) = p := by
  simp only [map, numbered, List.map_map, Function.comp_def, Prod.mk.eta]
  rw [List.map_get_finRange]

private theorem items_numbered (p : Picker α) :
    ((p.numbered.entries.filter fun e => 0 < e.2).map (·.1)) =
      (List.finRange p.entries.length).filter fun i => 0 < (p.entries.get i).2 := by
  rw [numbered, List.filter_map, List.map_map]
  exact List.map_id _

theorem pick_numbered (p : Picker α) (s : Dice) :
    (p.pick s).1 = (p.numbered.pick s).1.map fun x =>
      ((p.entries.get x.1).1, ⟨p.entries.eraseIdx x.1⟩) := by
  have index : p.numbered.drawIndex s = p.drawIndex s := by
    rw [← drawIndex_map (fun i => (p.entries.get i).1) p.numbered, map_numbered]
  rw [pick, pick, index]
  rcases p.drawIndex s with ⟨_ | i, s⟩
  · rfl
  · simp only [Option.bind_some, numbered, List.getElem?_map, Option.map_map]
    by_cases here : i < p.entries.length
    · simp [here]
    · simp [here]

private theorem sample_eq_pick (p : Picker α) (s : Dice) :
    p.sample s = ((p.pick s).1.map (·.1), (p.pick s).2) := by
  rw [sample, pick]
  rcases p.drawIndex s with ⟨_ | i, s⟩
  · rfl
  · simp only [Option.bind_some, Option.map_map, Function.comp_def]

/-- Picking until nothing is picked always ends, and it is what `drain` does. The positions that are
drawn are those of positive weight, each of them once, whichever items are equal; what is left are
the other entries in their order. A single pick takes out the entry at the position that is drawn
and no other, and a sample with the same dice gives the item of that entry, with no other picker. -/
theorem drain_exhausts (p : Picker α) (s : Dice) :
    (∀ drawn left t, Drains p s drawn left t ↔ p.drain s = (drawn, left, t)) ∧
    (p.numbered.drain s).1.Perm
      ((List.finRange p.entries.length).filter fun i => 0 < (p.entries.get i).2) ∧
    (p.drain s).1 = ((p.numbered.drain s).1.map fun i => (p.entries.get i).1) ∧
    (p.drain s).2.1.entries = p.entries.filter (fun e => e.2 ≤ 0) ∧
    ((p.pick s).1 = (p.numbered.pick s).1.map fun x =>
      ((p.entries.get x.1).1, ⟨p.entries.eraseIdx x.1⟩)) ∧
    p.sample s = ((p.pick s).1.map (·.1), (p.pick s).2) := by
  have drains : Drains p s _ _ _ := drains_iff.mpr rfl
  have positions : Drains p.numbered s _ _ _ := drains_iff.mpr rfl
  have items := positions.map fun i => (p.entries.get i).1
  rw [map_numbered] at items
  refine ⟨fun _ _ _ => drains_iff, ?_, (drains.unique items).1, drains.entries_eq,
    pick_numbered p s, sample_eq_pick p s⟩
  rw [← items_numbered]
  exact positions.perm

/-- Both entries of the item 7 are drawn, and the later one first. -/
example :
    let p : Picker Nat := ⟨[(7, 2), (5, 0), (7, 3), (6, -4), (8, 1)]⟩
    (p.numbered.drain (.ofSeed 2)).1 = [2, 4, 0] ∧
      (p.drain (.ofSeed 2)).1 = [7, 8, 7] ∧ (p.drain (.ofSeed 2)).2.1.items = [5, 6] := by
  decide +kernel

end Spoils.Picker
