import Mathlib.Algebra.GroupWithZero.Nat
import Mathlib.Data.List.Forall2
import Mathlib.Data.List.MinMax
import Spoils.Proofs.Random.Dice
import Spoils.Proofs.Roll.Failure
import Spoils.Proofs.Roll.Gains
import Spoils.Proofs.Roll.Modifiers

/-! The most that a roll of a tree can count for, when its steps are counted by a tally. -/
namespace Spoils

def Repeat.most (t : Repeat) : Nat := (Max.max t.min t.max).toNat

/-- What the steps of a roll count for: its drops, the keys it has recorded, the gates it uses
up. -/
structure Tally where
  drop : Drop → Nat := fun _ => 0
  received : PrototypeId → Nat := fun _ => 0
  cooled : CooldownGate → Nat := fun _ => 0

/-- The gate that a branch has to pass, with one held around it. -/
def NodeHead.gate? (head : NodeHead) (held : Option CooldownGate) : Option CooldownGate :=
  if head.modifiers.isEmpty then none else Modifier.gateAfter head.modifiers held

/-- The gate that is held behind the modifiers: they use it up. -/
def NodeHead.heldBehind (head : NodeHead) (held : Option CooldownGate) : Option CooldownGate :=
  if head.modifiers.isEmpty then held else none

def Tally.gate (t : Tally) (gate? : Option CooldownGate) : Nat := gate?.elim 0 t.cooled

/-- The most that a table can count for, by what its entries can. A draw by weight comes down on
one entry, and of entries tried in turn only the last leaves something behind. -/
def TableSpec.most (spec : TableSpec) (entries : List Nat) : Nat :=
  spec.times.most *
    match spec.method with
    | .weighted | .tryAll => entries.foldr max 0
    | .every => entries.sum

namespace LootNode

mutual

/-- The most that a node can count for with a gate held around it; `follow` says it of the roots of
tables that are referred to. -/
def mostWith (w : World) (t : Tally) (follow : LootNode → Option CooldownGate → Nat) :
    LootNode → Option CooldownGate → Nat
  | .table head spec entries, held =>
    t.gate (head.gate? held) + spec.most (mostOfAll w t follow entries (head.heldBehind held))
  | .reference head id times, held =>
    t.gate (head.gate? held) + match w.catalog.lootTable? id with
      | none => 0
      | some found => times.most * follow found.root (head.heldBehind held)
  | .action head kind key target, held =>
    let once := mostWith w t follow target (head.heldBehind held)
    t.gate (head.gate? held) + match kind with
      | .firstTime => if w.oracle.hasReceived key then 0 else t.received key + once
      | .everyAvatar => max 1 w.oracle.party.length * once
  | .token head _ _ fallback, held =>
    t.gate (head.gate? held) + mostOfFallback w t follow fallback (head.heldBehind held)
  | .drop head d, held => t.gate (head.gate? held) + t.drop d

def mostOfAll (w : World) (t : Tally) (follow : LootNode → Option CooldownGate → Nat) :
    List LootNode → Option CooldownGate → List Nat
  | [], _ => []
  | n :: ns, held => mostWith w t follow n held :: mostOfAll w t follow ns held

def mostOfFallback (w : World) (t : Tally) (follow : LootNode → Option CooldownGate → Nat) :
    Option LootNode → Option CooldownGate → Nat
  | none, _ => 0
  | some n, held => mostWith w t follow n held

end

/-- The most that a node can count for with references at most `fuel` deep. -/
def mostAt (w : World) (t : Tally) : Nat → LootNode → Option CooldownGate → Nat
  | 0 => mostWith w t fun _ _ => 0
  | fuel + 1 => mostWith w t (mostAt w t fuel)

/-- The most that a roll of the tree can count for under settings: what each way to a step counts
for, as often as the roll can take that way. -/
def most (n : LootNode) (w : World) (t : Tally) (s : BranchSettings) : Nat :=
  mostAt w t (w.maxDepth + 1 - s.depth) n s.cooldown

end LootNode

/-- The tally bounds what steps add to a measure of rolls in branches with such flags. -/
structure Tally.Bounds (w : World) (t : Tally) (allowed : DropFlags → Prop)
    (measure : Roll → Int) : Prop where
  traced : ∀ {r r'}, r.OnlyTraced r' → measure r' = measure r
  drop : ∀ s d r, allowed s.flags → r.queue = [] →
    measure (r.rollDrop w s d).2 ≤ measure r + t.drop d
  token : ∀ s candidates r, r.queue = [] → measure (r.rollToken w s candidates).2 ≤ measure r
  received : ∀ r key, w.oracle.hasReceived key = false → key.isValid = true →
    measure (r.addEffect (.markReceived key)) ≤ measure r + t.received key
  cooled : ∀ r gate, w.oracle.isOnCooldown gate = false →
    measure (r.addEffect (.useCooldown gate)) ≤ measure r + t.cooled gate

/-- The modifiers keep the flags among the allowed ones. -/
def Modifier.Keeps (w : World) (allowed : DropFlags → Prop) (ms : List Modifier) : Prop :=
  ∀ (s : BranchSettings) (dice : Dice), allowed s.flags →
    allowed (Modifier.applyAll w ms s dice).1.flags

/-- A branch may begin here: nothing waits, the flags are allowed, and this gate is held. -/
structure Walk.Stands (allowed : DropFlags → Prop) (held : Option CooldownGate) (walk : Walk) :
    Prop where
  idle : walk.roll.queue = []
  flags : allowed walk.settings.flags
  gate : walk.settings.cooldown = held

theorem Walk.Stands.deeper {allowed : DropFlags → Prop} {held : Option CooldownGate} {walk : Walk}
    (stands : walk.Stands allowed held) : Walk.Stands allowed held
      { walk with settings := { walk.settings with depth := walk.settings.depth + 1 } } :=
  ⟨stands.idle, stands.flags, stands.gate⟩

/-- A branch leaves nothing behind when it fails, and adds at most so much to a measure. -/
structure Branch.Adds (allowed : DropFlags → Prop) (measure : Roll → Int)
    (held : Option CooldownGate) (n : Nat) (b : Branch) : Prop where
  fails : b.Obeys Roll.FailsClean
  bound : ∀ {walk : Walk}, walk.Stands allowed held →
    measure (b walk).2.roll ≤ measure walk.roll + n

theorem Repeat.roll_le_most (t : Repeat) (dice : Dice) : (t.roll dice).1.toNat ≤ t.most := by
  rw [roll, most]
  split
  · exact Int.toNat_le_toNat (Int.le_max_left ..)
  · by_cases range : t.min < Min.min (t.max + 1) Bounds.int32.hi
    · have drawn := Dice.int_mem range dice
      exact Int.toNat_le_toNat (by omega)
    · rw [Dice.int, if_pos (by omega)]
      exact Int.toNat_le_toNat (Int.le_max_left ..)

namespace Branch
variable {w : World} {t : Tally} {allowed : DropFlags → Prop} {measure : Roll → Int}
  {held : Option CooldownGate} {n m : Nat} {b : Branch} {walk : Walk} {outcome : Outcome}

theorem Adds.mono (h : b.Adds allowed measure held n) (le : n ≤ m) :
    b.Adds allowed measure held m :=
  ⟨h.fails, fun stands => (h.bound stands).trans (by omega)⟩

theorem Adds.stands (h : b.Adds allowed measure held n) (stands : walk.Stands allowed held) :
    (b walk).2.Stands allowed held := by
  obtain ⟨same, clean⟩ := h.fails walk
  exact ⟨(clean stands.idle).1, same ▸ stands.flags, same ▸ stands.gate⟩

/-- Of branches that add at most what is listed, the entries of a picker add the greatest at
most. -/
theorem adds_greatest {counts : List Nat} {bs : List Branch}
    (h : List.Forall₂ (fun n b => Adds allowed measure held n b) counts bs) :
    ∀ b ∈ bs, b.Adds allowed measure held (counts.foldr max 0) := by
  induction h with
  | nil => simp
  | cons first _ ih =>
    intro b hb
    rcases List.mem_cons.mp hb with rfl | hb
    · exact first.mono (Nat.le_max_left ..)
    · exact (ih b hb).mono (Nat.le_max_right ..)

private theorem repeated_bound (hb : b.Adds allowed measure held n) (times : Nat)
    (stands : walk.Stands allowed held) :
    measure (repeated b times outcome walk).2.roll ≤ measure walk.roll + (times * n : Nat) := by
  induction times generalizing outcome walk with
  | zero => simp [repeated]
  | succ times ih =>
    have first := hb.bound stands
    refine (ih (hb.stands stands)).trans ?_
    rw [Nat.succ_mul]
    omega

private theorem every_bound {counts : List Nat} {bs : List Branch}
    (h : List.Forall₂ (fun n b => Adds allowed measure held n b) counts bs)
    (stands : walk.Stands allowed held) :
    measure (every bs outcome walk).2.roll ≤ measure walk.roll + counts.sum := by
  induction h generalizing outcome walk with
  | nil => simp [every]
  | cons hb _ ih =>
    have first := hb.bound stands
    refine (ih (hb.stands stands)).trans ?_
    rw [List.sum_cons]
    omega

theorem Adds.under {inner : Option CooldownGate} (hb : b.Adds allowed measure inner n)
    (stands : walk.Stands allowed held) (settings : BranchSettings)
    (flags : allowed settings.flags) (gate : settings.cooldown = inner) :
    (walk.under settings b).2.Stands allowed held ∧
      measure (walk.under settings b).2.roll ≤ measure walk.roll + n := by
  have within : Walk.Stands allowed inner { walk with settings := settings } :=
    ⟨stands.idle, flags, gate⟩
  exact ⟨⟨(hb.stands within).idle, stands.flags, stands.gate⟩, hb.bound within⟩

private theorem forAvatars_bound (hb : b.Adds allowed measure held n) (avatars : List PrototypeId)
    (stands : walk.Stands allowed held) :
    measure (forAvatars b avatars outcome walk).2.roll ≤
      measure walk.roll + (avatars.length * n : Nat) := by
  induction avatars generalizing outcome walk with
  | nil => simp [forAvatars]
  | cons avatar avatars ih =>
    obtain ⟨left, first⟩ := hb.under stands
      { walk.settings with avatar := avatar, forceUsable := true } stands.flags stands.gate
    refine (ih left).trans ?_
    rw [List.length_cons, Nat.succ_mul]
    omega

private theorem everyAvatar_adds (hb : b.Adds allowed measure held n) :
    Adds allowed measure held (max 1 w.oracle.party.length * n) (everyAvatar w b) := by
  refine ⟨everyAvatar_obeys (Roll.failure_law w) hb.fails, fun {walk} stands => ?_⟩
  rw [everyAvatar_eq]
  split
  · have once : n ≤ max 1 w.oracle.party.length * n := Nat.le_mul_of_pos_left n (by omega)
    have target := hb.bound stands
    omega
  · have each := Nat.mul_le_mul_right n (w.length_avatarsFor_le walk.settings)
    refine (forAvatars_bound hb _ stands).trans ?_
    omega

variable (hT : t.Bounds w allowed measure)
include hT

private theorem drawn_bound {α : Type} (f : Dice → α × Dice) (stands : walk.Stands allowed held) :
    (walk.draw f).2.Stands allowed held ∧ measure (walk.draw f).2.roll = measure walk.roll :=
  ⟨⟨stands.idle, stands.flags, stands.gate⟩, hT.traced rfl⟩

private theorem weighted_bound (picker : Picker Branch)
    (hp : ∀ b ∈ picker.items, b.Adds allowed measure held n) (times : Nat)
    (stands : walk.Stands allowed held) :
    measure (weighted picker times outcome walk).2.roll ≤
      measure walk.roll + (times * n : Nat) := by
  induction times generalizing outcome walk with
  | zero => simp [weighted]
  | succ times ih =>
    obtain ⟨drawn, same⟩ := drawn_bound hT picker.sample stands
    rw [weighted]
    split
    · rename_i next hd
      rw [hd] at same
      rw [same]
      omega
    · rename_i b next hd
      have sampled : (picker.sample walk.roll.dice).1 = some b := congrArg Prod.fst hd
      have hb := hp b (Picker.sample_mem sampled)
      rw [hd] at drawn same
      have first := hb.bound drawn
      refine (ih (hb.stands drawn)).trans ?_
      rw [Nat.succ_mul, ← same]
      omega

/-- What was tried without success counts for nothing. -/
private theorem tryUntil_bound (fuel : Nat) (picker : Picker Branch)
    (hp : ∀ b ∈ picker.items, b.Adds allowed measure held n) (stands : walk.Stands allowed held) :
    measure (tryUntil fuel picker outcome walk).2.roll ≤ measure walk.roll + n := by
  induction fuel generalizing picker outcome walk with
  | zero => exact Int.le_add_of_nonneg_right (Int.natCast_nonneg n)
  | succ fuel ih =>
    obtain ⟨drawn, same⟩ := drawn_bound hT picker.pick stands
    rw [tryUntil]
    split
    · rename_i next hd
      rw [hd] at same
      rw [same]
      omega
    · rename_i b rest next hd
      have picked : (picker.pick walk.roll.dice).1 = some (b, rest) := congrArg Prod.fst hd
      obtain ⟨mem, left⟩ := Picker.pick_mem picked
      have hb := hp b mem
      rw [hd] at drawn same
      simp only
      split
      · exact same ▸ hb.bound drawn
      · rename_i missed
        have traced := ((hb.fails next).law drawn.idle).2 (Bool.eq_false_iff.mpr missed)
        rw [← same, ← hT.traced traced]
        exact ih rest (fun b' hb' => hp b' (left hb')) (hb.stands drawn)

private theorem tryAll_adds {bs : List Branch} (hbs : ∀ b ∈ bs, b.Adds allowed measure held n) :
    (tryAll bs).Adds allowed measure held n := by
  refine ⟨tryAll_obeys (Roll.failure_law w) fun b hb => (hbs b hb).fails, fun stands => ?_⟩
  refine tryUntil_bound hT _ _ (fun b hb => hbs b ?_) stands
  rwa [Picker.items_uniform] at hb

private theorem firstTime_adds (key : PrototypeId) (hb : b.Adds allowed measure held n) :
    Adds allowed measure held (if w.oracle.hasReceived key then 0 else t.received key + n)
      (firstTime w key b) := by
  refine ⟨firstTime_obeys (Roll.failure_law w) key hb.fails, fun {walk} stands => ?_⟩
  have target := hb.bound stands
  simp only [firstTime]
  split
  · simp
  · rename_i unknown
    split
    · rename_i granted
      simp only [Bool.and_eq_true] at granted
      refine (hT.received (b walk).2.roll key (Bool.eq_false_iff.mpr unknown)
        granted.1.2).trans ?_
      omega
    · simp only
      omega

/-- What a table does with the number of times it has drawn. -/
private theorem picks_bound (spec : TableSpec) {counts : List Nat} {branches : List (Branch × Int)}
    (h : List.Forall₂ (fun n b => Adds allowed measure held n b) counts (branches.map (·.1)))
    {times : Nat} (few : times ≤ spec.times.most) (stands : walk.Stands allowed held) :
    measure (match spec.method with
      | .weighted => weighted ⟨branches⟩ times .noRoll walk
      | .tryAll => repeated (tryAll (branches.map Prod.fst)) times .noRoll walk
      | .every => repeated (every (branches.map Prod.fst) .noRoll) times .noRoll walk).2.roll ≤
      measure walk.roll + spec.most counts := by
  have greatest := adds_greatest h
  have each := fun n => Nat.mul_le_mul_right n few
  rw [TableSpec.most]
  split
  · refine (weighted_bound hT ⟨branches⟩ greatest times stands).trans ?_
    have := each (counts.foldr max 0)
    omega
  · refine (repeated_bound (tryAll_adds hT greatest) times stands).trans ?_
    have := each (counts.foldr max 0)
    omega
  · have all : Adds allowed measure held counts.sum (every (branches.map (·.1)) .noRoll) := by
      refine ⟨fun walk => ?_, every_bound h⟩
      exact every_leads (Roll.failure_law w) _ (fun b hb => (greatest b hb).fails)
        (.stay (Roll.failure_law w) walk rfl)
    refine (repeated_bound all times stands).trans ?_
    have := each counts.sum
    omega

private theorem table_adds (spec : TableSpec) {counts : List Nat} {branches : List (Branch × Int)}
    (h : List.Forall₂ (fun n b => Adds allowed measure held n b) counts (branches.map (·.1))) :
    Adds allowed measure held (spec.most counts) (table w spec branches) := by
  refine ⟨table_obeys (Roll.failure_law w) spec fun b hb => (adds_greatest h b hb).fails,
    fun {walk} stands => ?_⟩
  have still : measure walk.roll ≤ measure walk.roll + spec.most counts := by omega
  rw [table]
  split
  · exact still
  · split
    · exact still
    · obtain ⟨drawn, same⟩ := drawn_bound hT (w.rollsDrop walk.settings spec.noDrop) stands
      rcases hd : walk.draw (w.rollsDrop walk.settings spec.noDrop) with ⟨drops, next⟩
      rw [hd] at drawn same
      rw [← same] at still ⊢
      simp only
      split
      · rw [Walk.run, Roll.finish_idle drawn.idle]
        exact still
      · obtain ⟨ready, unmoved⟩ := drawn_bound hT spec.times.roll drawn.deeper
        refine (picks_bound hT spec h ?_ ready).trans_eq (by rw [unmoved])
        exact spec.times.roll_le_most next.roll.dice

private theorem reference_adds (id : PrototypeId) (times : Repeat) {follow : LootNode → Branch}
    (most : LootNode → Nat) (fails : ∀ n, (follow n).Obeys Roll.FailsClean)
    (hf : ∀ found, w.catalog.lootTable? id = some found →
      (follow found.root).Adds allowed measure held (most found.root)) :
    Adds allowed measure held (match w.catalog.lootTable? id with
      | none => 0
      | some found => times.most * most found.root) (reference w id times follow) := by
  refine ⟨reference_obeys (Roll.failure_law w) id times fun t _ => fails t.root, fun {walk} stands => ?_⟩
  rw [reference]
  rcases found : w.catalog.lootTable? id with _ | table
  · simp
  · simp only
    split
    · exact Int.le_add_of_nonneg_right (Int.natCast_nonneg _)
    · obtain ⟨ready, still⟩ := drawn_bound hT times.roll stands.deeper
      have few := Nat.mul_le_mul_right (most table.root) (times.roll_le_most walk.roll.dice)
      refine (repeated_bound (hf table found) _ ready).trans ?_
      rw [still]
      exact Int.add_le_add_left (Int.ofNat_le.mpr few) _

private theorem token_adds (parent : PrototypeId) (filter : TokenFilter) {fallback : Option Branch}
    (hb : ∀ b ∈ fallback, b.Adds allowed measure held n) :
    Adds allowed measure held n (token w parent filter fallback) := by
  refine ⟨token_obeys (Roll.failure_law w) parent filter fun b h => (hb b h).fails,
    fun {walk} stands => ?_⟩
  simp only [token]
  split
  · split
    · exact (hb _ rfl).bound stands
    · exact Int.le_add_of_nonneg_right (Int.natCast_nonneg n)
  · have rolled := hT.token walk.settings (Roll.tokens w walk.settings parent filter) walk.roll
      stands.idle
    exact rolled.trans (by omega)

private theorem drop_adds (d : Drop) :
    Adds allowed measure held (t.drop d) fun walk => walk.run fun s r => r.rollDrop w s d := by
  refine ⟨run_obeys fun s => ?_, fun {walk} stands => ?_⟩
  · exact Roll.rollDrop_law (Roll.failure_law w).toEnds s (fun _ => Drop.Gives.isPlain)
      (fun _ _ => trivial) fun c r _ => (Roll.failure_law w).called s r c
  · exact hT.drop walk.settings d walk.roll stands.flags stands.idle

private theorem modified_adds (head : NodeHead) (keeps : Modifier.Keeps w allowed head.modifiers)
    (hb : b.Adds allowed measure (head.heldBehind held) n) :
    Adds allowed measure held (t.gate (head.gate? held) + n) (modified w head.modifiers b) := by
  refine ⟨modified_obeys (Roll.failure_law w) head.modifiers hb.fails, fun {walk} stands => ?_⟩
  rw [modified]
  by_cases plain : head.modifiers.isEmpty
  · rw [NodeHead.heldBehind, if_pos plain] at hb
    rw [if_pos plain]
    have inner := hb.bound stands
    omega
  · rw [NodeHead.heldBehind, if_neg plain] at hb
    rw [if_neg plain, NodeHead.gate?, if_neg plain]
    obtain ⟨drawn, same⟩ :=
      drawn_bound hT (Modifier.applyAll w head.modifiers walk.settings) stands
    have flags := keeps walk.settings walk.roll.dice stands.flags
    have gate : (Modifier.applyAll w head.modifiers walk.settings walk.roll.dice).1.cooldown = _ :=
      Modifier.applyAll_cooldown head.modifiers
    rcases hd : walk.draw (Modifier.applyAll w head.modifiers walk.settings) with ⟨settings, next⟩
    have applied : (Modifier.applyAll w head.modifiers walk.settings walk.roll.dice).1 = settings :=
      congrArg Prod.fst hd
    rw [hd] at drawn same
    rw [applied] at flags gate
    rw [stands.gate] at gate
    rw [← same]
    have inner : measure (next.under { settings with cooldown := none } b).2.roll ≤
        measure next.roll + n :=
      (hb.under drawn { settings with cooldown := none } flags rfl).2
    simp only
    generalize next.under { settings with cooldown := none } b = after at inner ⊢
    split
    · simp only
      omega
    · rcases passed : settings.enforcedGate? with _ | g
      · simp only [Option.any_none, Bool.false_eq_true, if_false]
        omega
      · have asked : settings.cooldown = some g := by
          rw [BranchSettings.enforcedGate?] at passed
          split at passed
          · exact passed
          · cases passed
        rw [← gate, asked]
        simp only [Option.any_some, Tally.gate, Option.elim_some]
        split
        · simp only
          omega
        · rename_i ready
          split
          · refine (hT.cooled _ g (Bool.eq_false_iff.mpr ready)).trans ?_
            omega
          · simp only
            omega

end Branch

namespace LootNode
variable {w : World} {t : Tally} {allowed : DropFlags → Prop} {measure : Roll → Int}
  {follow : LootNode → Branch} {counts : LootNode → Option CooldownGate → Nat}

/-- The modifiers of all nodes of a tree keep the flags among the allowed ones. -/
def Keeps (w : World) (allowed : DropFlags → Prop) (n : LootNode) : Prop :=
  ∀ m ∈ n.nodes, Modifier.Keeps w allowed m.modifiers

/-- What is known of the trees behind references when they are followed. -/
structure Follows (w : World) (allowed : DropFlags → Prop) (measure : Roll → Int)
    (follow : LootNode → Branch) (counts : LootNode → Option CooldownGate → Nat) : Prop where
  fails : ∀ n, (follow n).Obeys Roll.FailsClean
  adds : ∀ id found, w.catalog.lootTable? id = some found → ∀ held,
    (follow found.root).Adds allowed measure held (counts found.root held)

private theorem mostOfAll_eq (ns : List LootNode) (held : Option CooldownGate) :
    mostOfAll w t counts ns held = ns.map fun n => mostWith w t counts n held := by
  induction ns with
  | nil => rfl
  | cons n ns ih => rw [mostOfAll, ih, List.map_cons]

private theorem selectWith_adds (hT : t.Bounds w allowed measure)
    (hf : Follows w allowed measure follow counts) (n : LootNode) (held : Option CooldownGate)
    (keeps : Keeps w allowed n) :
    (selectWith w follow n).Adds allowed measure held (mostWith w t counts n held) := by
  have own := keeps n (mem_nodes_self n)
  induction n generalizing held with
  | table head spec entries ih =>
    rw [selectWith, mostWith]
    refine Branch.modified_adds hT head own (Branch.table_adds hT spec ?_)
    rw [mostOfAll_eq, branchesWith_eq_map, List.map_map, List.forall₂_map_left_iff,
      List.forall₂_map_right_iff, List.forall₂_same]
    intro n listed
    have below := Child.forall_nodes (.entry listed) keeps
    exact ih n listed _ below (below n (mem_nodes_self n))
  | reference head id times =>
    rw [selectWith, mostWith]
    refine Branch.modified_adds hT head own ?_
    exact Branch.reference_adds hT id times (fun n => counts n (head.heldBehind held))
      hf.fails fun found h => hf.adds id found h _
  | action head kind key target ih =>
    have below := Child.forall_nodes .target keeps
    have ht := ih (head.heldBehind held) below (below target (mem_nodes_self target))
    cases kind with
    | firstTime =>
      rw [selectWith, mostWith]
      exact Branch.modified_adds hT head own (Branch.firstTime_adds hT key ht)
    | everyAvatar =>
      rw [selectWith, mostWith]
      exact Branch.modified_adds hT head own (Branch.everyAvatar_adds ht)
  | token head parent filter fallback ih =>
    rw [selectWith, mostWith]
    refine Branch.modified_adds hT head own (Branch.token_adds hT parent filter ?_)
    intro b instead
    cases fallback with
    | none => cases instead
    | some n =>
      cases instead
      have below := Child.forall_nodes .fallback keeps
      exact ih n rfl _ below (below n (mem_nodes_self n))
  | drop head d =>
    rw [selectWith, mostWith]
    exact Branch.modified_adds hT head own (Branch.drop_adds hT d)

section
variable (hT : t.Bounds w allowed measure)
  (known : ∀ id found, w.catalog.lootTable? id = some found → found.root.Keeps w allowed)
include hT known

private theorem selectAt_adds (fuel : Nat) (n : LootNode) (held : Option CooldownGate)
    (keeps : n.Keeps w allowed) :
    (selectAt w fuel n).Adds allowed measure held (mostAt w t fuel n held) := by
  induction fuel generalizing n held with
  | zero =>
    -- No reference is followed: it fails, and nothing is counted for it.
    have stays : Branch.Obeys Roll.FailsClean fun walk => (Outcome.failed, walk) :=
      fun walk => .stay (Roll.failure_law w) walk rfl
    exact selectWith_adds hT ⟨fun _ => stays, fun _ _ _ _ => ⟨stays, fun _ => by simp⟩⟩ n held
      keeps
  | succ fuel ih =>
    exact selectWith_adds hT ⟨fun n => selectAt_obeys (Roll.failure_law w) fuel n,
      fun id found h held => ih found.root held (known id found h)⟩ n held keeps

/-- A measure of rolls grows by no more than the tally counts for the tree. -/
theorem select_adds {n : LootNode} (keeps : n.Keeps w allowed) (walk : Walk)
    (idle : walk.roll.queue = []) (flags : allowed walk.settings.flags) :
    measure (n.select w walk).2.roll ≤ measure walk.roll + n.most w t walk.settings :=
  (selectAt_adds hT known _ n walk.settings.cooldown keeps).bound ⟨idle, flags, rfl⟩

end

end LootNode

end Spoils
