import Spoils.Proofs.Item.Levels
import Spoils.Proofs.Mutation.Changes
import Spoils.Proofs.Roll.Gains
import Spoils.Proofs.Roll.Granted

/-! No item and no agent is granted below the least level, whatever moves its level. -/
namespace Spoils

namespace Mutation
variable {k : Workshop} {m : Mutation} {d e : Draft}

/-- The mutation is the normal form of some mutation. -/
def IsNormal (m : Mutation) : Prop := ∃ raw : Mutation, raw.normalize = m

/-- A clamp in normal form has no upper end, or one at the lower end or above. -/
theorem IsNormal.bounds {lo hi : Int} (h : (clampLevel lo hi).IsNormal) :
    0 ≤ lo ∧ (hi = 0 ∨ lo ≤ hi) := by
  obtain ⟨raw, normal⟩ := h
  cases raw with
  | clampLevel a b =>
    simp only [normalize, clampLevel.injEq] at normal
    obtain ⟨rfl, rfl⟩ := normal
    split <;> omega
  | _ => cases normal

/-- A mutation in normal form asks for no level below the least. -/
theorem le_of_asks {level : Int} (normal : m.IsNormal)
    (granted : ∀ source ∈ k.granted, minItemLevel ≤ source.level) (hd : minItemLevel ≤ d.level)
    (asked : m.Asks k d level) : minItemLevel ≤ level := by
  cases m with
  | clampLevel lo hi =>
    obtain ⟨low, high⟩ := normal.bounds
    rw [asked]
    rw [minItemLevel] at hd ⊢
    split <;> omega
  | cloneLevel source =>
    obtain ⟨s, known, rfl⟩ := asked
    exact granted s known
  | eval | level | offsetLevel =>
    obtain ⟨wanted, verbatim, rfl⟩ := asked
    exact World.le_itemLevel wanted verbatim
  | _ => exact asked.elim

variable (keeps : ∀ id item, k.world.catalog.item? id = some item →
    ∀ r ∈ Restriction.partsOfAll item.restrictions, r.KeepsLeast)
  (normal : m.IsNormal) (granted : ∀ source ∈ k.granted, minItemLevel ≤ source.level)
include keeps normal granted

theorem Step.le_level (h : m.Step k d e) (hd : minItemLevel ≤ d.level) : minItemLevel ≤ e.level := by
  cases h with
  | written | turned => exact hd
  | adjusted checks => exact World.le_adjust keeps checks hd
  | moved asked => exact le_of_asks normal granted hd asked
  | @rebound change _ dice =>
    obtain ⟨owner, binding, checks, rebound, -⟩ := Draft.rebind_draft change d dice
    rw [rebound]
    exact hd

theorem Steps.le_level (h : m.Steps k d e) (hd : minItemLevel ≤ d.level) :
    minItemLevel ≤ e.level := by
  induction h with
  | refl => exact hd
  | tail _ step ih => exact step.le_level keeps normal granted ih

end Mutation

/-- Drafts begin at the least level or above, and nothing that a roll does takes them below. -/
theorem World.leastLevel_invariant (w : World)
    (keeps : ∀ id item, w.catalog.item? id = some item →
      ∀ r ∈ Restriction.partsOfAll item.restrictions, r.KeepsLeast) :
    Draft.Invariant w (fun d => minItemLevel ≤ d.level) Mutation.IsNormal where
  queued _ new _ := new.level
  rolled s d dice _ h := by
    have same : d.SameBody (d.rollAffixes w.catalog w.occasion s dice).draft :=
      Draft.rollAffixes_sameBody d dice
    rwa [same.level_eq]
  mutated granted s m d dice normal hg hd _ :=
    (Mutation.apply_steps ⟨w, granted, s⟩ m d dice).le_level keeps normal hg hd
  copied _ h := h

namespace LootNode

private theorem mutations_normalize (n : LootNode) :
    n.normalize.mutations = n.mutations.map (·.normalize) := by
  cases n with
  | drop head d => cases d <;> rfl
  | _ => rfl

theorem applies_normalize (n : LootNode) : n.normalize.Applies Mutation.IsNormal := by
  intro m hm x hx
  rw [nodes_normalize] at hm
  obtain ⟨raw, -, rfl⟩ := List.mem_map.mp hm
  rw [mutations_normalize] at hx
  obtain ⟨y, -, rfl⟩ := List.mem_map.mp hx
  exact ⟨y, rfl⟩

end LootNode

def Grant.level? : Grant → Option Int
  | .item d => some d.level
  | .agent _ level => some level
  | _ => none

/-- By itself the restriction forces no level below the least, and its range of levels does not run
over. -/
def Restriction.fitsLevels : Restriction → Bool
  | .level min range => Bounds.int32.contains (min + range)
  | .outputLevel value _ => minItemLevel ≤ value
  | _ => true

theorem Drop.Gives.le_level {w : World} {s : BranchSettings} {d : Drop} {g : Grant}
    (h : d.Gives w s g) : ∀ level ∈ g.level?, minItemLevel ≤ level := by
  intro level known
  cases h with
  | agent =>
    cases known
    exact World.le_itemLevel s.level true
  | _ => cases known

namespace LootNode

/-- Loot tables of a catalog grant no item and no agent below the least level, whatever the settings
are, if no restriction forces such a level. -/
theorem roll_leastLevel {content : Content} {w : World}
    (registered : Catalog.ofContent content = .ok w.catalog)
    (fits : ∀ item ∈ w.catalog.items,
      ∀ r ∈ Restriction.partsOfAll item.restrictions, r.fitsLevels = true)
    {t : LootTable} (listed : t ∈ w.catalog.lootTables) {q : Request} (same : q.world = w) :
    ∀ g ∈ (t.root.roll q).grants, ∀ level ∈ g.level?, minItemLevel ≤ level := by
  have normal {u : LootTable} (listed : u ∈ w.catalog.lootTables) :
      u.root.Applies Mutation.IsNormal := by
    obtain ⟨raw, normal⟩ := Catalog.exists_normalize_of_mem_lootTables registered listed
    exact normal ▸ raw.applies_normalize
  have keeps (id : PrototypeId) (item : Item) (found : w.catalog.item? id = some item) :
      ∀ r ∈ Restriction.partsOfAll item.restrictions, r.KeepsLeast := by
    intro r nested
    have index := Catalog.ofContent_isIndex registered
    have known := ((Catalog.item?_eq_some_iff_mem_items index).mp found).1
    obtain ⟨raw, rfl⟩ := Catalog.exists_normalize_of_mem_items registered known
    cases r with
    | level min range =>
      exact ⟨Restriction.le_of_level_mem_partsOfAll raw.restrictions nested,
        fun _ => fits _ known _ nested⟩
    | outputLevel value filter =>
      exact of_decide_eq_true (p := minItemLevel ≤ value) (fits _ known _ nested)
    | _ => trivial
  have items := (w.leastLevel_invariant keeps).roll_of t.root same (normal listed)
    fun _ u found => normal (Catalog.mem_lootTables found)
  intro g hg level known
  cases plain : g.draft? with
  | none => exact t.root.roll_gives q (fun given => given.le_level) g hg plain level known
  | some d =>
    have item : g.level? = some d.level := by
      cases g with
      | item => cases plain; rfl
      | _ => cases plain
    cases item.symm.trans known
    exact items d (List.mem_filterMap.mpr ⟨g, hg, plain⟩)

/-- Items that are raised by a clamp, copy a level and are lowered far below it stay at the least
level or above, with settings that begin far below too. -/
theorem roll_leastLevel_lowered :
    let content : Content := {
      rarities := [{ id := ⟨10⟩, weightCurve := ⟨5⟩ }]
      curves := [{ id := ⟨5⟩, min := 1, max := 1, values := [1] }]
      items := [
        { id := ⟨100⟩, restrictions := [.conditional .drop [.level (-3) 2] [.outputLevel 1 true]] }]
      lootTables := [
        { id := ⟨9⟩
          root := .table {} { method := .every } [
            .drop {} (.item ⟨100⟩ {} [.clampLevel 3 (-6)]),
            .drop {} (.item ⟨100⟩ {} [.cloneLevel 0, .offsetLevel (-50)]),
            .drop {} (.agent ⟨200⟩ {})] }] }
    let settings : BranchSettings := { level := -0x80000000, levelVerbatim := true }
    ∃ c t, Catalog.ofContent content = .ok c ∧ c.lootTable? ⟨9⟩ = some t ∧
      (t.root.roll { world := { catalog := c }, settings := settings, seed := 1 }).grants.map
        (·.level?) = [some 3, some 1, some 1] ∧
      ∀ g ∈ (t.root.roll { world := { catalog := c }, settings := settings, seed := 1 }).grants,
        ∀ level ∈ g.level?, minItemLevel ≤ level := by
  intro content settings
  have least {c : Catalog} {t : LootTable} (registered : Catalog.ofContent content = .ok c)
      (fits : ∀ item ∈ c.items,
        ∀ r ∈ Restriction.partsOfAll item.restrictions, r.fitsLevels = true)
      (found : c.lootTable? ⟨9⟩ = some t) :
      ∀ g ∈ (t.root.roll { world := { catalog := c }, settings := settings, seed := 1 }).grants,
        ∀ level ∈ g.level?, minItemLevel ≤ level :=
    roll_leastLevel (w := { catalog := c }) registered fits (Catalog.mem_lootTables found) rfl
  have registered : Catalog.ofContent content = .ok _ := rfl
  refine ⟨_, _, registered, rfl, ?rolled, least registered ?fits rfl⟩
  case rolled => decide +kernel
  case fits => decide +kernel

end LootNode

end Spoils
