/-! Finite maps as strictly sorted lists of entries, so equal contents are equal maps. -/
namespace Spoils

/-- A finite map whose entries are in ascending key order. -/
structure SortedMap (α : Type) (β : Type) [Ord α] where
  entries : List (α × β)
  sorted : entries.Pairwise fun a b => compare a.1 b.1 = .lt

namespace SortedMap

variable {α β : Type} [Ord α]

theorem ext_entries {m n : SortedMap α β} (h : m.entries = n.entries) : m = n := by
  cases m; cases n; cases h; rfl

instance [DecidableEq α] [DecidableEq β] : DecidableEq (SortedMap α β) := fun m n =>
  if h : m.entries = n.entries then isTrue (ext_entries h)
  else isFalse fun e => h (congrArg entries e)

def empty : SortedMap α β := ⟨[], .nil⟩

instance : EmptyCollection (SortedMap α β) := ⟨empty⟩

instance : Inhabited (SortedMap α β) := ⟨empty⟩

/-- The value of the first entry with the key. -/
def lookup (k : α) : List (α × β) → Option β
  | [] => none
  | e :: es => if compare k e.1 = .eq then some e.2 else lookup k es

def find? (m : SortedMap α β) (k : α) : Option β := lookup k m.entries

def contains (m : SortedMap α β) (k : α) : Bool := (m.find? k).isSome

def keys (m : SortedMap α β) : List α := m.entries.map (·.1)

def values (m : SortedMap α β) : List β := m.entries.map (·.2)

def size (m : SortedMap α β) : Nat := m.entries.length

def isEmpty (m : SortedMap α β) : Bool := m.entries.isEmpty

/-- Puts an entry in its place; an entry with the same key gives way. -/
def place (k : α) (v : β) : List (α × β) → List (α × β)
  | [] => [(k, v)]
  | e :: es =>
    match compare k e.1 with
    | .lt => (k, v) :: e :: es
    | .eq => (k, v) :: es
    | .gt => e :: place k v es

theorem mem_place {k : α} {v : β} {l : List (α × β)} {x : α × β} (h : x ∈ place k v l) :
    x = (k, v) ∨ x ∈ l := by
  induction l with
  | nil => simpa [place] using h
  | cons e es ih =>
    unfold place at h
    split at h
    · simpa using h
    · rcases List.mem_cons.1 h with h | h
      · exact .inl h
      · exact .inr (List.mem_cons_of_mem _ h)
    · rcases List.mem_cons.1 h with h | h
      · exact .inr (h ▸ List.mem_cons_self)
      · exact (ih h).imp_right (List.mem_cons_of_mem _)

theorem pairwise_place [Std.TransOrd α] [Std.LawfulEqOrd α] (k : α) (v : β) {l : List (α × β)}
    (h : l.Pairwise fun a b => compare a.1 b.1 = .lt) :
    (place k v l).Pairwise fun a b => compare a.1 b.1 = .lt := by
  induction l with
  | nil => simp [place]
  | cons e es ih =>
    obtain ⟨he, hes⟩ := List.pairwise_cons.1 h
    unfold place
    split
    case _ hc =>
      refine List.pairwise_cons.2 ⟨fun x hx => ?_, h⟩
      rcases List.mem_cons.1 hx with rfl | hx
      · exact hc
      · exact Std.TransCmp.lt_trans hc (he x hx)
    case _ hc =>
      have hk : k = e.1 := Std.LawfulEqCmp.eq_of_compare hc
      exact List.pairwise_cons.2 ⟨fun x hx => hk ▸ he x hx, hes⟩
    case _ hc =>
      refine List.pairwise_cons.2 ⟨fun x hx => ?_, ih hes⟩
      rcases mem_place hx with rfl | hx
      · exact Std.OrientedCmp.gt_iff_lt.1 hc
      · exact he x hx

def insert [Std.TransOrd α] [Std.LawfulEqOrd α] (m : SortedMap α β) (k : α) (v : β) :
    SortedMap α β :=
  ⟨place k v m.entries, pairwise_place k v m.sorted⟩

def erase (m : SortedMap α β) (k : α) : SortedMap α β :=
  ⟨m.entries.filter fun e => compare k e.1 != .eq, m.sorted.filter _⟩

def filterKeys (m : SortedMap α β) (p : α → Bool) : SortedMap α β :=
  ⟨m.entries.filter fun e => p e.1, m.sorted.filter _⟩

/-- Of entries with the same key the last one stays. -/
def ofList [Std.TransOrd α] [Std.LawfulEqOrd α] (l : List (α × β)) : SortedMap α β :=
  l.foldl (fun m e => m.insert e.1 e.2) empty

end SortedMap

/-- A finite set as a strictly sorted list. -/
abbrev SortedSet (α : Type) [Ord α] := SortedMap α Unit

namespace SortedSet

variable {α : Type} [Ord α]

def toList (s : SortedSet α) : List α := s.keys

def add [Std.TransOrd α] [Std.LawfulEqOrd α] (s : SortedSet α) (a : α) : SortedSet α :=
  SortedMap.insert s a ()

def ofList [Std.TransOrd α] [Std.LawfulEqOrd α] (l : List α) : SortedSet α :=
  l.foldl add SortedMap.empty

def without (s t : SortedSet α) : SortedSet α :=
  SortedMap.filterKeys s fun a => !SortedMap.contains t a

end SortedSet

end Spoils
