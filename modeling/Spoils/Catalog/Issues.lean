import Spoils.Catalog.Lineage

/-! Issues of content: cycles, references to what is not there, and misplaced modifiers. -/
namespace Spoils

/-- The three relations that must not have cycles. -/
inductive Relation where
  | downgrade | parent | reference
deriving DecidableEq, Repr

def Relation.label : Relation → String
  | .downgrade => "rarity downgrade"
  | .parent => "item parent"
  | .reference => "loot table"

inductive IssueKind where
  | cycle | dangling | misplaced
deriving DecidableEq, Repr

def IssueKind.name : IssueKind → String
  | .cycle => "Cycle"
  | .dangling => "DanglingReference"
  | .misplaced => "InvalidModifier"

inductive Flaw where
  /-- The members of a cycle in ascending order. -/
  | cycle (relation : Relation) (members : List PrototypeId)
  | noRarity (target : PrototypeId)
  | noParent (parent : PrototypeId)
  | noTable (target : PrototypeId)
  | noItem (item : PrototypeId)
  | noCurve (node : String) (curve : CurveId)
  | misplaced (modifier node : String)
deriving DecidableEq

namespace Flaw

def kind : Flaw → IssueKind
  | .cycle .. => .cycle
  | .misplaced .. => .misplaced
  | .noRarity _ | .noParent _ | .noTable _ | .noItem _ | .noCurve .. => .dangling

def text : Flaw → String
  | .cycle relation members =>
    let ids := ", ".intercalate (members.map fun id => toString id.val)
    s!"{relation.label} cycle through [{ids}]"
  | .noRarity target => s!"downgrade target {target.val} is not a rarity"
  | .noParent parent => s!"unknown parent {parent.val}"
  | .noTable target => s!"table reference {target.val} is not a loot table"
  | .noItem item => s!"item {item.val} is not an item prototype"
  | .noCurve node curve => s!"{node} node curve {curve.val} missing"
  | .misplaced modifier node => s!"{modifier} cannot apply to a {node} node"

end Flaw

structure Issue where
  subject : PrototypeId
  flaw : Flaw
deriving DecidableEq

def Issue.text (i : Issue) : String :=
  s!"{i.flaw.kind.name} at {i.subject.val}: {i.flaw.text}"

/-- A directed graph as its edges. -/
abbrev Edges := List (PrototypeId × PrototypeId)

namespace Edges

def successors (g : Edges) (id : PrototypeId) : List PrototypeId :=
  (g.filter fun e => e.1 == id).map (·.2)

/-- Adds what can be reached from a frontier of newly met nodes. -/
def spread (g : Edges) : Nat → SortedSet PrototypeId → List PrototypeId → SortedSet PrototypeId
  | 0, met, _ => met
  | fuel + 1, met, frontier =>
    let next := (SortedSet.ofList (frontier.flatMap g.successors)).without met
    if next.isEmpty then met else g.spread fuel (next.toList.foldl SortedSet.add met) next.toList

/-- The nodes at the end of a path of one or more edges. Every round but the last meets the end
of another edge. -/
def reach (g : Edges) (id : PrototypeId) : SortedSet PrototypeId :=
  g.spread (g.length + 1) .empty [id]

/-- The nodes that lie on a cycle with a node, in ascending order. -/
def cycleOf (g : Edges) (id : PrototypeId) : List PrototypeId :=
  (g.reach id).toList.filter fun other => (g.reach other).contains id

/-- The cycles of the graph, each reported at its least member. -/
def cycles (g : Edges) (relation : Relation) : List Issue :=
  (SortedSet.ofList (g.map (·.1))).toList.filterMap fun id =>
    match g.cycleOf id with
    | [] => none
    | first :: rest => if first == id then some ⟨id, .cycle relation (first :: rest)⟩ else none

end Edges

namespace Catalog

def downgrades (c : Catalog) : Edges :=
  (c.rarities.filter fun r => (c.rarity? r.downgradeTo).isSome).map fun r => (r.id, r.downgradeTo)

/-- The parents of items among all prototypes. -/
def itemParents (c : Catalog) : Edges :=
  (c.items.filter fun i => i.parent.isValid && c.contains i.parent).map fun i => (i.id, i.parent)

def references (c : Catalog) : Edges :=
  c.lootTables.flatMap fun t =>
    (t.root.referencedTables.filter fun id => (c.lootTable? id).isSome).map fun id => (t.id, id)

def rarityIssues (c : Catalog) : List Issue :=
  (c.rarities.filter fun r => r.downgradeTo.isValid && (c.rarity? r.downgradeTo).isNone).map
    fun r => ⟨r.id, .noRarity r.downgradeTo⟩

def itemIssues (c : Catalog) : List Issue :=
  (c.items.filter fun i => i.parent.isValid && !c.contains i.parent).map
    fun i => ⟨i.id, .noParent i.parent⟩

def nodeFlaws (c : Catalog) (n : LootNode) : List Flaw :=
  let misplaced := (n.modifiers.filter fun m => !m.fits n).map fun m =>
    Flaw.misplaced m.name n.kindName
  let missing (curve : CurveId) : List Flaw :=
    if (c.curve? curve).isNone then [.noCurve n.kindName curve] else []
  misplaced ++
    match n with
    | .drop _ (.credits curve) => missing curve
    | .drop _ (.experience curve) => missing curve
    | _ => []

def tableIssues (c : Catalog) (t : LootTable) : List Issue :=
  let tables := t.root.referencedTables.filter fun id => (c.lootTable? id).isNone
  let items := t.root.referencedItems.filter fun id => (c.item? id).isNone
  (tables.map Flaw.noTable ++ items.map Flaw.noItem ++ t.root.nodes.flatMap c.nodeFlaws).map
    fun f => ⟨t.id, f⟩

/-- All issues: first those of rarities, then of items, then of loot tables; cycles come last in
each group. -/
def issues (c : Catalog) : List Issue :=
  c.rarityIssues ++ c.downgrades.cycles .downgrade ++ c.itemIssues ++
    c.itemParents.cycles .parent ++ c.lootTables.flatMap c.tableIssues ++
    c.references.cycles .reference

end Catalog

end Spoils
