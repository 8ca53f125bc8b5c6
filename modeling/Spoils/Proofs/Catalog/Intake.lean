import Spoils.Proofs.Catalog.Index

/-! Content is taken in entry by entry: all of it, or up to the first entry that has no identifier
or one that an entry before it has. -/
namespace Spoils

/-- The registers of a catalog. Identifiers differ within each of them. -/
inductive Register where
  | prototypes | rankTables | curves
deriving DecidableEq, Repr

/-- An entry of content: its identifier in a register, and what it is called in errors. -/
structure Entry where
  register : Register
  id : Nat
  kind : String
deriving DecidableEq, Repr

/-- All entries of content in the order of loading. -/
def Content.entries (content : Content) : List Entry :=
  content.rarities.map (fun r => ⟨.prototypes, r.id.val, "rarity"⟩) ++
  content.affixes.map (fun a => ⟨.prototypes, a.id.val, "affix"⟩) ++
  content.items.map (fun i => ⟨.prototypes, i.id.val, "item"⟩) ++
  content.affixTables.map (fun t => ⟨.prototypes, t.id.val, "affix table"⟩) ++
  content.difficultyTiers.map (fun t => ⟨.prototypes, t.id.val, "difficulty tier"⟩) ++
  content.lootTables.map (fun t => ⟨.prototypes, t.id.val, "loot table"⟩) ++
  content.prototypes.map (fun p => ⟨.prototypes, p.id.val, p.kind.label⟩) ++
  content.rankTables.map (fun t => ⟨.rankTables, t.difficultyTier.val, "rank affix table"⟩) ++
  content.curves.map (fun c => ⟨.curves, c.id.val, "curve"⟩)

namespace Entry
variable {es before after : List Entry} {e e' : Entry}

/-- The entries may stand beside each other. -/
def Apart (e e' : Entry) : Prop := e.register = e'.register → e.id ≠ e'.id

/-- A prototype without identifier. The other registers have a place for zero. -/
def Nameless (e : Entry) : Prop := e.register = .prototypes ∧ e.id = 0

instance (e : Entry) : Decidable e.Nameless := inferInstanceAs (Decidable (_ ∧ _))

/-- Why the entry is refused where it offends. -/
def error (e : Entry) : ContentError :=
  if e.Nameless then .noId e.kind else .duplicate e.id e.kind

/-- Entries that can all be taken in. -/
structure Admissible (es : List Entry) : Prop where
  named : ∀ e ∈ es, ¬ e.Nameless
  apart : es.Pairwise Apart

theorem Admissible.of_isPrefix (h : Admissible es) (front : before <+: es) : Admissible before :=
  ⟨fun e he => h.named e (front.subset he), h.apart.sublist front.sublist⟩

/-- One more entry can be taken in if it has an identifier that no other one has. -/
theorem admissible_concat_iff :
    Admissible (es ++ [e]) ↔ Admissible es ∧ ¬ e.Nameless ∧ ∀ b ∈ es, b.Apart e := by
  constructor
  · intro h
    refine ⟨h.of_isPrefix (List.prefix_append ..), h.named e (by simp), fun b hb => ?_⟩
    exact (List.pairwise_append.mp h.apart).2.2 b hb e (List.mem_singleton_self e)
  · rintro ⟨h, named, apart⟩
    constructor
    · intro b hb
      rcases List.mem_append.mp hb with hb | hb
      · exact h.named b hb
      · exact List.mem_singleton.mp hb ▸ named
    · refine List.pairwise_append.mpr ⟨h.apart, List.pairwise_singleton .., fun b hb x hx => ?_⟩
      exact List.mem_singleton.mp hx ▸ apart b hb

/-- The first entry that offends: those before it can be taken in, and it cannot be after them. -/
def FirstOffending (es : List Entry) (e : Entry) : Prop :=
  ∃ before after, es = before ++ e :: after ∧ Admissible before ∧ ¬ Admissible (before ++ [e])

theorem FirstOffending.not_admissible (h : FirstOffending es e) : ¬ Admissible es := by
  obtain ⟨before, after, rfl, -, offends⟩ := h
  exact fun all => offends (all.of_isPrefix ⟨after, by simp⟩)

theorem FirstOffending.append {es : List Entry} {e : Entry} (h : FirstOffending es e)
    (more : List Entry) : FirstOffending (es ++ more) e := by
  obtain ⟨before, after, rfl, taken, offends⟩ := h
  exact ⟨before, after ++ more, by simp, taken, offends⟩

theorem FirstOffending.unique (h : FirstOffending es e) (h' : FirstOffending es e') : e = e' := by
  obtain ⟨before, after, rfl, taken, offends⟩ := h
  obtain ⟨before', after', same, taken', offends'⟩ := h'
  rcases List.append_eq_append_iff.mp same with ⟨between, rfl, rest⟩ | ⟨between, rfl, rest⟩
  · cases between with
    | nil => exact (List.cons.inj rest).1
    | cons x xs =>
      obtain ⟨rfl, -⟩ := List.cons.inj rest
      exact (offends (taken'.of_isPrefix ⟨xs, by simp⟩)).elim
  · cases between with
    | nil => exact (List.cons.inj rest).1.symm
    | cons x xs =>
      obtain ⟨rfl, -⟩ := List.cons.inj rest
      exact (offends' (taken.of_isPrefix ⟨xs, by simp⟩)).elim

end Entry

open Entry

/-- What the register has are the identifiers of its entries. -/
def Register.Lists (r : Register) (has : Nat → Prop) (es : List Entry) : Prop :=
  ∀ id, has id ↔ ∃ e ∈ es, e.register = r ∧ e.id = id

theorem Register.lists_empty {r : Register} {es : List Entry} {β ι : Type} [Ord ι] {make : Nat → ι}
    (apart : ∀ e ∈ es, e.register ≠ r) :
    r.Lists (fun id => (SortedMap.empty : SortedMap ι β).contains (make id) = true) es := by
  intro id
  refine iff_of_false Bool.false_ne_true ?_
  rintro ⟨e, he, here, -⟩
  exact apart e he here

/-- Taking something in adds its identifier to a register, or is refused with its error. -/
structure TakesIn {σ α : Type} (r : Register) (has : σ → Nat → Prop) (entry : α → Entry)
    (add : σ → α → Except ContentError σ) : Prop where
  register : ∀ a, (entry a).register = r
  taken : ∀ m a, ¬ (entry a).Nameless → ¬ has m (entry a).id →
    ∃ m', add m a = .ok m' ∧ ∀ id, has m' id ↔ id = (entry a).id ∨ has m id
  refused : ∀ m a, (entry a).Nameless ∨ has m (entry a).id → add m a = .error (entry a).error

/-- How it ends when entries are taken in after others. -/
inductive Intake {σ : Type} (r : Register) (has : σ → Nat → Prop) (before es : List Entry) :
    Except ContentError σ → Prop where
  | taken {m : σ} (all : Admissible (before ++ es)) (lists : r.Lists (has m) (before ++ es)) :
      Intake r has before es (.ok m)
  | refused {e : Entry} (first : FirstOffending (before ++ es) e) :
      Intake r has before es (.error e.error)

namespace TakesIn
variable {σ α : Type} {r : Register} {has : σ → Nat → Prop} {entry : α → Entry}
  {add : σ → α → Except ContentError σ} {before : List Entry} {m : σ}

/-- One entry: it is listed from then on, or it is the first that offends. -/
theorem step (h : TakesIn r has entry add) (a : α) (admissible : Admissible before)
    (lists : r.Lists (has m) before) : Intake r has before [entry a] (add m a) := by
  have free : ¬ has m (entry a).id ↔ ∀ b ∈ before, b.Apart (entry a) := by
    rw [lists (entry a).id]
    simp only [Apart, h.register, not_exists, not_and, ne_eq]
  by_cases offends : (entry a).Nameless ∨ has m (entry a).id
  · rw [h.refused m a offends]
    refine .refused ⟨before, [], rfl, admissible, fun all => ?_⟩
    obtain ⟨-, named, apart⟩ := admissible_concat_iff.mp all
    exact offends.elim named (free.mpr apart)
  · obtain ⟨named, absent⟩ := not_or.mp offends
    obtain ⟨m', added, has'⟩ := h.taken m a named absent
    rw [added]
    refine .taken (admissible_concat_iff.mpr ⟨admissible, named, free.mp absent⟩) fun id => ?_
    simp only [has', lists id, List.mem_append, List.mem_singleton, or_and_right, exists_or,
      exists_eq_left, h.register, true_and]
    rw [or_comm, eq_comm]

/-- Entries one after the other, up to the first that offends. -/
theorem run (h : TakesIn r has entry add) (as : List α) (admissible : Admissible before)
    (lists : r.Lists (has m) before) :
    Intake r has before (as.map entry) (as.foldlM add m) := by
  induction as generalizing before m with
  | nil => exact .taken (by simpa using admissible) (by simpa using lists)
  | cons a as ih =>
    rw [List.foldlM_cons]
    have whole : before ++ (a :: as).map entry = before ++ [entry a] ++ as.map entry := by simp
    cases added : add m a with
    | error error =>
      have one := h.step a admissible lists
      rw [added] at one
      cases one with
      | refused first =>
        obtain ⟨front, after, same, taken, offends⟩ := first
        refine .refused ⟨front, after ++ as.map entry, ?_, taken, offends⟩
        rw [whole, same, List.append_assoc, List.cons_append]
    | ok m' =>
      have one := h.step a admissible lists
      rw [added] at one
      cases one with
      | taken all lists =>
        have rest := ih all lists
        generalize result : as.foldlM add m' = ended at rest
        show Intake r has before _ (as.foldlM add m')
        rw [result]
        cases rest with
        | taken all lists => exact .taken (whole ▸ all) (whole ▸ lists)
        | refused first => exact .refused (whole ▸ first)

end TakesIn

namespace Catalog

def prototypeEntry (p : Prototype) : Entry := ⟨.prototypes, p.id.val, p.kind.label⟩

def rankTableEntry (t : RankTable) : Entry :=
  ⟨.rankTables, t.difficultyTier.val, "rank affix table"⟩

def curveEntry (c : Curve) : Entry := ⟨.curves, c.id.val, "curve"⟩

theorem entries_eq (content : Content) : content.entries =
    content.declared.map prototypeEntry ++ content.rankTables.map rankTableEntry ++
      content.curves.map curveEntry := by
  simp only [Content.entries, Content.declared, List.map_append, List.map_map]
  rfl

/-- A map of identifiers is a register if whatever is nameless or there already is refused. -/
theorem takesIn_of_insert {α β ι : Type} [Ord ι] [Std.LawfulEqOrd ι] [Std.TransOrd ι]
    {r : Register} {entry : α → Entry} {f : α → β} {make : Nat → ι}
    {add : SortedMap ι β → α → Except ContentError (SortedMap ι β)}
    (injective : Function.Injective make) (register : ∀ a, (entry a).register = r)
    (adds : ∀ m a, add m a =
      if (entry a).Nameless ∨ m.contains (make (entry a).id) = true then .error (entry a).error
      else .ok (m.insert (make (entry a).id) (f a))) :
    TakesIn r (fun m id => m.contains (make id) = true) entry add where
  register := register
  taken m a named free := by
    refine ⟨_, by rw [adds, if_neg (not_or.mpr ⟨named, free⟩)], fun id => ?_⟩
    rw [SortedMap.contains_insert_iff, injective.eq_iff]
  refused m a offends := by rw [adds, if_pos offends]

private theorem addPrototype_takesIn :
    TakesIn .prototypes (fun m id => m.contains ⟨id⟩ = true) prototypeEntry addPrototype := by
  refine takesIn_of_insert (fun _ _ same => congrArg PrototypeId.val same) (fun _ => rfl)
    (f := Prototype.normalize) fun m p => ?_
  rw [addPrototype]
  by_cases valid : p.id.isValid = true
  · have named : ¬ (prototypeEntry p).Nameless := fun none => bne_iff_ne.mp valid none.2
    have error : (prototypeEntry p).error = .duplicate p.id.val p.kind.label := if_neg named
    simp only [valid, named, error, false_or, Bool.not_true, Bool.false_eq_true, if_false]
    rfl
  · have zero : p.id.val = 0 := by simpa [PrototypeId.isValid] using valid
    have nameless : (prototypeEntry p).Nameless := ⟨rfl, zero⟩
    have error : (prototypeEntry p).error = .noId p.kind.label := if_pos nameless
    simp only [valid, nameless, error, true_or, Bool.not_false, if_true]

private theorem addRankTable_takesIn :
    TakesIn .rankTables (fun m id => m.contains ⟨id⟩ = true) rankTableEntry addRankTable := by
  refine takesIn_of_insert (fun _ _ same => congrArg PrototypeId.val same) (fun _ => rfl)
    (f := fun x => x) fun m t => ?_
  have named : ¬ (rankTableEntry t).Nameless := fun none => by cases none.1
  have error : (rankTableEntry t).error = .duplicate t.difficultyTier.val "rank affix table" :=
    if_neg named
  simp only [addRankTable, named, error, false_or]
  rfl

private theorem addCurve_takesIn :
    TakesIn .curves (fun m id => m.contains ⟨id⟩ = true) curveEntry addCurve := by
  refine takesIn_of_insert (fun _ _ same => congrArg CurveId.val same) (fun _ => rfl)
    (f := fun x => x) fun m c => ?_
  have named : ¬ (curveEntry c).Nameless := fun none => by cases none.1
  have error : (curveEntry c).error = .duplicate c.id.val "curve" := if_neg named
  simp only [addCurve, named, error, false_or]
  rfl

/-- Loading content ends with all of its entries, or with the error of the first that offends. -/
inductive Loads (content : Content) : Except ContentError Catalog → Prop where
  | all {c : Catalog} (admissible : Admissible content.entries) : Loads content (.ok c)
  | refused {e : Entry} (first : FirstOffending content.entries e) : Loads content (.error e.error)

/-- One register after the other is filled, each with entries of its own. -/
theorem ofContent_loads (content : Content) : Loads content (ofContent content) := by
  have first : Intake .prototypes _ [] (content.declared.map prototypeEntry)
      (content.declared.foldlM addPrototype .empty) :=
    addPrototype_takesIn.run content.declared ⟨by simp, .nil⟩ (Register.lists_empty (by simp))
  rw [ofContent]
  generalize content.declared.foldlM addPrototype .empty = prototypes at first ⊢
  cases first with
  | refused offending => exact .refused (entries_eq content ▸ (offending.append _).append _)
  | taken admissible _ =>
    have second := addRankTable_takesIn.run content.rankTables admissible
      (Register.lists_empty (by simp [prototypeEntry]))
    simp only [bind, Except.bind]
    generalize content.rankTables.foldlM addRankTable .empty = rankTables at second ⊢
    cases second with
    | refused offending => exact .refused (entries_eq content ▸ offending.append _)
    | taken admissible _ =>
      have third := addCurve_takesIn.run content.curves admissible
        (Register.lists_empty (by simp [or_imp, forall_and, prototypeEntry, rankTableEntry]))
      simp only
      generalize content.curves.foldlM addCurve .empty = curves at third ⊢
      cases third with
      | refused offending => exact .refused (entries_eq content ▸ offending)
      | taken admissible _ => exact .all (entries_eq content ▸ admissible)

/-- Entries of one register are apart if their identifiers differ. -/
theorem pairwise_apart_iff {α ι : Type} {entry : α → Entry} {key : α → ι} {as : List α}
    (same : ∀ a b, (entry a).Apart (entry b) ↔ key a ≠ key b) :
    (as.map entry).Pairwise Apart ↔ (as.map key).Nodup := by
  rw [List.Nodup, List.pairwise_map, List.pairwise_map]
  simp only [same]

/-- Zero identifies no prototype, and no identifier is claimed twice, by whatever kinds. -/
theorem admissible_entries_iff (content : Content) : Admissible content.entries ↔
    (∀ p ∈ content.declared, p.id ≠ .none) ∧ (content.declared.map (·.id)).Nodup ∧
      (content.rankTables.map (·.difficultyTier)).Nodup ∧ (content.curves.map (·.id)).Nodup := by
  have prototypeIds (a b : PrototypeId) : a.val ≠ b.val ↔ a ≠ b := by
    cases a; cases b; simp
  have curveIds (a b : CurveId) : a.val ≠ b.val ↔ a ≠ b := by
    cases a; cases b; simp
  have named : (∀ e ∈ content.entries, ¬ e.Nameless) ↔ ∀ p ∈ content.declared, p.id ≠ .none := by
    simp [entries_eq, or_imp, forall_and, Nameless, prototypeEntry, rankTableEntry, curveEntry,
      ← prototypeIds, PrototypeId.none]
  have apart : content.entries.Pairwise Apart ↔ (content.declared.map (·.id)).Nodup ∧
      (content.rankTables.map (·.difficultyTier)).Nodup ∧ (content.curves.map (·.id)).Nodup := by
    have prototypes : (content.declared.map prototypeEntry).Pairwise Apart ↔
        (content.declared.map (·.id)).Nodup :=
      pairwise_apart_iff fun p q => by simp [Apart, prototypeEntry, ← prototypeIds]
    have rankTables : (content.rankTables.map rankTableEntry).Pairwise Apart ↔
        (content.rankTables.map (·.difficultyTier)).Nodup :=
      pairwise_apart_iff fun t u => by simp [Apart, rankTableEntry, ← prototypeIds]
    have curves : (content.curves.map curveEntry).Pairwise Apart ↔
        (content.curves.map (·.id)).Nodup :=
      pairwise_apart_iff fun c d => by simp [Apart, curveEntry, ← curveIds]
    rw [entries_eq, List.pairwise_append, List.pairwise_append, prototypes, rankTables, curves]
    simp [or_imp, forall_and, Apart, prototypeEntry, rankTableEntry, curveEntry, and_assoc]
  rw [← named, ← apart]
  exact ⟨fun h => ⟨h.named, h.apart⟩, fun h => ⟨h.1, h.2⟩⟩

/-- Content can be loaded exactly if all of its prototypes have an identifier, none that another one
has, no two rank tables are for the same tier and no two curves have the same identifier. Otherwise
the first entry that offends is the error, under its identifier and kind. -/
theorem ofContent_refuses (content : Content) :
    ((∃ c, ofContent content = .ok c) ↔
      (∀ p ∈ content.declared, p.id ≠ .none) ∧ (content.declared.map (·.id)).Nodup ∧
        (content.rankTables.map (·.difficultyTier)).Nodup ∧ (content.curves.map (·.id)).Nodup) ∧
    ∀ error, ofContent content = .error error ↔
      ∃ before e after, content.entries = before ++ e :: after ∧ Admissible before ∧
        ¬ Admissible (before ++ [e]) ∧ error = e.error := by
  have loads := ofContent_loads content
  rw [← admissible_entries_iff]
  generalize ofContent content = result at loads ⊢
  cases loads with
  | all admissible =>
    refine ⟨iff_of_true ⟨_, rfl⟩ admissible, fun error => ⟨nofun, ?_⟩⟩
    rintro ⟨before, e, after, split, taken, offends, -⟩
    exact (FirstOffending.not_admissible ⟨before, after, split, taken, offends⟩ admissible).elim
  | refused first =>
    refine ⟨iff_of_false nofun first.not_admissible, fun error => ⟨?_, ?_⟩⟩
    · rintro ⟨⟩
      obtain ⟨before, after, split, taken, offends⟩ := first
      exact ⟨before, _, after, split, taken, offends, rfl⟩
    · rintro ⟨before, e, after, split, taken, offends, rfl⟩
      rw [first.unique ⟨before, after, split, taken, offends⟩]

/-- An item under the identifier of a rarity is met before an avatar without one. -/
example : ofContent {
    rarities := [{ id := ⟨1⟩ }], items := [{ id := ⟨2⟩ }, { id := ⟨1⟩ }]
    prototypes := [{ id := .none, kind := .avatar }] } = .error (.duplicate 1 "item") := rfl

end Catalog

end Spoils
