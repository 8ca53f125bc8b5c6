import Spoils.Proofs.Roll.Trees

/-! Rolls with something put around every node of the tree. Where a condition of the roll is kept by
every step, what makes no difference to a single node makes none to the whole roll. -/
namespace Spoils

/-- The law that a condition of the roll is kept. -/
def Law.keeping (P : Roll → Prop) : Law := fun _ _ r r' => P r → P r'

/-- Where the condition holds two branches do the same, and the second keeps it. -/
structure Branch.Agrees (P : Roll → Prop) (b c : Branch) : Prop where
  keeps : c.Obeys (Law.keeping P)
  same : ∀ {walk : Walk}, P walk.roll → b walk = c walk

namespace LootNode

mutual

/-- Rolls a node with something put around it and every node below; `follow` rolls the root of a
table that is referred to. -/
def selectAroundWith (w : World) (around : LootNode → Branch → Branch)
    (follow : LootNode → Branch) : LootNode → Branch
  | .table head spec entries =>
    around (.table head spec entries) <| Branch.modified w head.modifiers
      (Branch.table w spec (branchesAround w around follow entries))
  | .reference head id times =>
    around (.reference head id times) <|
      Branch.modified w head.modifiers (Branch.reference w id times follow)
  | .action head kind key target =>
    let branch := selectAroundWith w around follow target
    around (.action head kind key target) <| Branch.modified w head.modifiers <|
      match kind with
      | .firstTime => Branch.firstTime w key branch
      | .everyAvatar => Branch.everyAvatar w branch
  | .token head parent filter fallback =>
    around (.token head parent filter fallback) <| Branch.modified w head.modifiers
      (Branch.token w parent filter (fallbackAround w around follow fallback))
  | .drop head d =>
    around (.drop head d) <| Branch.modified w head.modifiers fun walk =>
      walk.run fun s r => r.rollDrop w s d

def branchesAround (w : World) (around : LootNode → Branch → Branch) (follow : LootNode → Branch) :
    List LootNode → List (Branch × Int)
  | [] => []
  | n :: ns => (selectAroundWith w around follow n, n.weight) :: branchesAround w around follow ns

def fallbackAround (w : World) (around : LootNode → Branch → Branch) (follow : LootNode → Branch) :
    Option LootNode → Option Branch
  | none => none
  | some n => some (selectAroundWith w around follow n)

end

/-- The same with references at most `fuel` deep. -/
def selectAroundAt (w : World) (around : LootNode → Branch → Branch) : Nat → LootNode → Branch
  | 0 => selectAroundWith w around fun _ walk => (.failed, walk)
  | fuel + 1 => selectAroundWith w around (selectAroundAt w around fuel)

/-- Rolls a node with something put around it and every node that is rolled below. -/
def selectAround (w : World) (around : LootNode → Branch → Branch) (n : LootNode) (walk : Walk) :
    Outcome × Walk :=
  selectAroundAt w around (w.maxDepth + 1 - walk.settings.depth) n walk

end LootNode

namespace Branch
variable {w : World} {P : Roll → Prop} (hL : (Law.keeping P).Holds w) {b c : Branch}
  {ι : Type} {f g : ι → Branch}

private theorem repeated_same (h : b.Agrees P c) (n : Nat) (o : Outcome) {walk : Walk}
    (hw : P walk.roll) : repeated b n o walk = repeated c n o walk := by
  induction n generalizing o walk with
  | zero => rfl
  | succ n ih =>
    simp only [repeated, h.same hw]
    exact ih _ ((h.keeps walk).law hw)

private theorem every_same {l : List ι} (h : ∀ i ∈ l, (f i).Agrees P (g i)) (o : Outcome)
    {walk : Walk} (hw : P walk.roll) : every (l.map f) o walk = every (l.map g) o walk := by
  induction l generalizing o walk with
  | nil => rfl
  | cons i l ih =>
    have now := h i (.head l)
    simp only [List.map_cons, every, now.same hw]
    exact ih (fun j hj => h j (.tail i hj)) _ ((now.keeps walk).law hw)

private theorem under_same (h : b.Agrees P c) (settings : BranchSettings) {walk : Walk}
    (hw : P walk.roll) : walk.under settings b = walk.under settings c := by
  have within : P ({ walk with settings := settings } : Walk).roll := hw
  rw [Walk.under, Walk.under, h.same within]

private theorem forAvatars_same (h : b.Agrees P c) (avatars : List PrototypeId) (o : Outcome)
    {walk : Walk} (hw : P walk.roll) :
    forAvatars b avatars o walk = forAvatars c avatars o walk := by
  induction avatars generalizing o walk with
  | nil => rfl
  | cons avatar avatars ih =>
    simp only [forAvatars, under_same h _ hw]
    exact ih _ ((h.keeps { walk with settings := _ }).law hw)

include hL

private theorem dice_kept {walk : Walk} (hw : P walk.roll) (dice : Dice) :
    P ({ walk with roll := { walk.roll with dice := dice } } : Walk).roll :=
  hL.draw walk.settings _ _ hw

private theorem firstTime_agrees (key : PrototypeId) (h : b.Agrees P c) :
    Agrees P (firstTime w key b) (firstTime w key c) :=
  ⟨firstTime_obeys hL key h.keeps, fun hw => by simp only [firstTime, h.same hw]⟩

private theorem everyAvatar_agrees (h : b.Agrees P c) :
    Agrees P (everyAvatar w b) (everyAvatar w c) :=
  ⟨everyAvatar_obeys hL h.keeps, fun hw => by
    rw [everyAvatar_eq, everyAvatar_eq, h.same hw, forAvatars_same h _ _ hw]⟩

private theorem weighted_same {p : Picker ι} (h : ∀ i ∈ p.items, (f i).Agrees P (g i)) (n : Nat)
    (o : Outcome) {walk : Walk} (hw : P walk.roll) :
    weighted (p.map f) n o walk = weighted (p.map g) n o walk := by
  induction n generalizing o walk with
  | zero => rfl
  | succ n ih =>
    simp only [weighted, Walk.draw, Picker.sample_map]
    rcases hs : p.sample walk.roll.dice with ⟨_ | i, dice⟩
    · rfl
    · have now := h i (Picker.sample_mem (congrArg Prod.fst hs))
      simp only [Option.map_some, now.same (dice_kept hL hw dice)]
      exact ih _ ((now.keeps _).law (dice_kept hL hw dice))

private theorem tryUntil_same {p : Picker ι} (h : ∀ i ∈ p.items, (f i).Agrees P (g i)) (fuel : Nat)
    (o : Outcome) {walk : Walk} (hw : P walk.roll) :
    tryUntil fuel (p.map f) o walk = tryUntil fuel (p.map g) o walk := by
  induction fuel generalizing p o walk with
  | zero => rfl
  | succ fuel ih =>
    simp only [tryUntil, Walk.draw, Picker.pick_map]
    rcases hs : p.pick walk.roll.dice with ⟨_ | ⟨i, q⟩, dice⟩
    · rfl
    · obtain ⟨mem, left⟩ := Picker.pick_mem (congrArg Prod.fst hs)
      have now := h i mem
      simp only [Option.map_some, now.same (dice_kept hL hw dice)]
      rw [ih (fun j hj => h j (left hj)) _ ((now.keeps _).law (dice_kept hL hw dice))]

private theorem tryAll_agrees {l : List ι} (h : ∀ i ∈ l, (f i).Agrees P (g i)) :
    Agrees P (tryAll (l.map f)) (tryAll (l.map g)) := by
  refine ⟨tryAll_obeys hL fun b hb => ?_, fun hw => ?_⟩
  · obtain ⟨i, hi, rfl⟩ := List.mem_map.mp hb
    exact (h i hi).keeps
  · simp only [tryAll, List.length_map, Picker.uniform_map]
    exact tryUntil_same hL (fun i hi => h i (by rwa [Picker.items_uniform] at hi)) _ _ hw

private theorem every_agrees {l : List ι} (h : ∀ i ∈ l, (f i).Agrees P (g i)) :
    Agrees P (every (l.map f) .noRoll) (every (l.map g) .noRoll) := by
  refine ⟨fun walk => every_leads hL _ (fun b hb => ?_) (.stay hL walk rfl), every_same h _⟩
  obtain ⟨i, hi, rfl⟩ := List.mem_map.mp hb
  exact (h i hi).keeps

omit hL in
private theorem deeper_same {walk : Walk} (hw : P walk.roll)
    (same : ∀ {walk : Walk}, P walk.roll → b walk = c walk) :
    Walk.deeper b walk = Walk.deeper c walk := by
  have within : P ({ walk with
    settings := { walk.settings with depth := walk.settings.depth + 1 } } : Walk).roll := hw
  rw [Walk.deeper, Walk.deeper, same within]

private theorem table_agrees (spec : TableSpec) {p : Picker ι}
    (h : ∀ i ∈ p.items, (f i).Agrees P (g i)) :
    Agrees P (table w spec (p.map f).entries) (table w spec (p.map g).entries) := by
  have first (f : ι → Branch) : (p.map f).entries.map (·.1) = p.items.map f := by
    simp only [Picker.map, Picker.items, List.map_map]
    rfl
  have empty (f : ι → Branch) : (p.map f).entries.isEmpty = p.entries.isEmpty := List.isEmpty_map
  refine ⟨table_obeys hL spec fun b hb => ?_, fun {walk} hw => ?_⟩
  · rw [first] at hb
    obtain ⟨i, hi, rfl⟩ := List.mem_map.mp hb
    exact (h i hi).keeps
  · simp only [table, empty]
    split
    · rfl
    · split
      · rfl
      · split
        · rfl
        · refine deeper_same (dice_kept hL hw _) fun {walk} hw => ?_
          simp only [first, Walk.draw]
          split
          · exact weighted_same hL h _ _ (dice_kept hL hw _)
          · exact repeated_same (tryAll_agrees hL h) _ _ (dice_kept hL hw _)
          · exact repeated_same (every_agrees hL h) _ _ (dice_kept hL hw _)

private theorem reference_agrees (id : PrototypeId) (times : Repeat)
    {follow follow' : LootNode → Branch} (h : ∀ n, (follow n).Agrees P (follow' n)) :
    Agrees P (reference w id times follow) (reference w id times follow') := by
  refine ⟨reference_obeys hL id times fun t _ => (h t.root).keeps, fun {walk} hw => ?_⟩
  rw [reference, reference]
  split
  · rfl
  · split
    · rfl
    · refine deeper_same hw fun {walk} hw => ?_
      exact repeated_same (h _) _ _ (hL.draw walk.settings _ _ hw)

private theorem token_agrees (parent : PrototypeId) (filter : TokenFilter) {o : Option ι}
    (h : ∀ i ∈ o, (f i).Agrees P (g i)) :
    Agrees P (token w parent filter (o.map f)) (token w parent filter (o.map g)) := by
  refine ⟨token_obeys hL parent filter fun b hb => ?_, fun hw => ?_⟩
  · obtain ⟨i, hi, rfl⟩ := Option.map_eq_some_iff.mp hb
    exact (h i hi).keeps
  · simp only [token]
    split
    · cases o with
      | none => rfl
      | some i => exact (h i rfl).same hw
    · rfl

private theorem modified_agrees (ms : List Modifier) (h : b.Agrees P c) :
    Agrees P (modified w ms b) (modified w ms c) := by
  refine ⟨modified_obeys hL ms h.keeps, fun {walk} hw => ?_⟩
  have drawn : P (walk.draw (Modifier.applyAll w ms walk.settings)).2.roll :=
    hL.draw walk.settings _ _ hw
  rw [modified, modified, h.same hw]
  generalize walk.draw (Modifier.applyAll w ms walk.settings) = applied at drawn ⊢
  simp only [under_same h _ drawn]

end Branch

namespace LootNode
variable {w : World} {P : Roll → Prop} {around : LootNode → Branch → Branch}
  {follow follow' : LootNode → Branch}

/-- Put around a single node it makes no difference where the condition holds. -/
def Harmless (P : Roll → Prop) (around : LootNode → Branch → Branch) : Prop :=
  ∀ (n : LootNode) {b c : Branch}, b.Agrees P c → (around n b).Agrees P c

private theorem branchesAround_eq (ns : List LootNode) :
    branchesAround w around follow ns =
      ((⟨ns.map fun n => (n, n.weight)⟩ : Picker LootNode).map
        (selectAroundWith w around follow)).entries := by
  induction ns with
  | nil => rfl
  | cons n ns ih =>
    rw [branchesAround, ih]
    rfl

private theorem branchesWith_eq (ns : List LootNode) :
    branchesWith w follow ns =
      ((⟨ns.map fun n => (n, n.weight)⟩ : Picker LootNode).map (selectWith w follow)).entries := by
  rw [branchesWith_eq_map, Picker.map, List.map_map]
  rfl

private theorem fallbackAround_eq (n : Option LootNode) :
    fallbackAround w around follow n = n.map (selectAroundWith w around follow) := by
  cases n <;> rfl

private theorem selectAroundWith_agrees (hL : (Law.keeping P).Holds w)
    (harmless : Harmless P around) (hf : ∀ n, (follow n).Agrees P (follow' n)) (n : LootNode) :
    (selectAroundWith w around follow n).Agrees P (selectWith w follow' n) := by
  induction n with
  | table head spec entries ih =>
    rw [selectAroundWith, selectWith, branchesAround_eq, branchesWith_eq]
    refine harmless _ (Branch.modified_agrees hL _ (Branch.table_agrees hL spec fun n hn => ?_))
    exact ih n (by simpa [Picker.items] using hn)
  | reference head id times =>
    rw [selectAroundWith, selectWith]
    exact harmless _ (Branch.modified_agrees hL _ (Branch.reference_agrees hL id times hf))
  | action head kind key target ih =>
    cases kind with
    | firstTime =>
      rw [selectAroundWith, selectWith]
      exact harmless _ (Branch.modified_agrees hL _ (Branch.firstTime_agrees hL key ih))
    | everyAvatar =>
      rw [selectAroundWith, selectWith]
      exact harmless _ (Branch.modified_agrees hL _ (Branch.everyAvatar_agrees hL ih))
  | token head parent filter fallback ih =>
    rw [selectAroundWith, selectWith, fallbackAround_eq, fallbackWith_eq]
    exact harmless _ (Branch.modified_agrees hL _ (Branch.token_agrees hL parent filter ih))
  | drop head d =>
    rw [selectAroundWith, selectWith]
    refine harmless _ (Branch.modified_agrees hL _ ⟨?_, fun _ => rfl⟩)
    exact Branch.run_obeys fun s => Roll.rollDrop_law hL.toEnds s (fun _ => Drop.Gives.isPlain)
      (fun _ _ => trivial) fun c r _ => hL.called s r c

section
variable (hL : (Law.keeping P).Holds w) (harmless : Harmless P around)
include hL harmless

private theorem selectAroundAt_agrees (fuel : Nat) (n : LootNode) :
    (selectAroundAt w around fuel n).Agrees P (selectAt w fuel n) := by
  induction fuel generalizing n with
  | zero =>
    refine selectAroundWith_agrees hL harmless (fun _ => ?_) n
    exact ⟨fun walk => .stay hL walk rfl, fun _ => rfl⟩
  | succ fuel ih => exact selectAroundWith_agrees hL harmless ih n

theorem selectAround_eq (n : LootNode) {walk : Walk} (hw : P walk.roll) :
    n.selectAround w around walk = n.select w walk :=
  (selectAroundAt_agrees hL harmless _ n).same hw

end

end LootNode

end Spoils
