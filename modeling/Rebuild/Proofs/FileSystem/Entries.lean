import Rebuild.FileSystem
import Rebuild.Proofs.Path

/-!
# What a directory holds

The listing of a directory is put together from the rows of a table, in which nothing keeps a row
from being there twice. It still has one entry for each name: the kind that goes with a name is that
of the entry which a look-up finds, and so rows with one name give equal entries.
-/

namespace Rebuild.FileSystem

/-! ### Entries in the order of their names -/

section ByName

variable {entries found : List (FileName × Kind)} {new other : FileName × Kind}
  {kindOf : FileName → Option Kind}

/-- In the order of names, each name once. -/
def ByName (entries : List (FileName × Kind)) : Prop :=
  entries.Pairwise fun a b => compare a.1.text b.1.text = .lt

theorem eq_or_mem_of_mem_insertByName (h : other ∈ insertByName new entries) :
    other = new ∨ other ∈ entries := by
  induction entries with
  | nil => exact Or.inl (List.mem_singleton.1 h)
  | cons first rest ih =>
    rw [insertByName] at h
    split at h
    case h_1 => exact List.mem_cons.1 h
    case h_2 => exact Or.inr h
    case h_3 =>
      rcases List.mem_cons.1 h with rfl | hrest
      · exact Or.inr List.mem_cons_self
      · exact (ih hrest).imp_right (List.mem_cons_of_mem first)

theorem mem_insertByName_iff (hentries : ∀ e ∈ entries, kindOf e.1 = some e.2)
    (hnew : kindOf new.1 = some new.2) :
    other ∈ insertByName new entries ↔ other = new ∨ other ∈ entries := by
  induction entries with
  | nil => simp [insertByName]
  | cons first rest ih =>
    rw [List.forall_mem_cons] at hentries
    rw [insertByName]
    split
    case h_1 => exact List.mem_cons
    case h_2 heq =>
      have hname : new.1 = first.1 := FileName.text_injective (Std.compare_eq_iff_eq.1 heq)
      have hkind : new.2 = first.2 := by
        rw [← Option.some_inj, ← hnew, ← hentries.1, hname]
      rw [Prod.ext hname hkind, List.mem_cons, ← or_assoc, or_self]
    case h_3 =>
      rw [List.mem_cons, ih hentries.2, List.mem_cons]
      exact or_left_comm

theorem ByName.insertByName (h : ByName entries) : ByName (insertByName new entries) := by
  induction entries with
  | nil => exact List.pairwise_singleton _ _
  | cons first rest ih =>
    obtain ⟨hfirst, hrest⟩ := List.pairwise_cons.1 h
    rw [FileSystem.insertByName]
    split
    case h_1 hlt =>
      refine List.pairwise_cons.2 ⟨List.forall_mem_cons.2 ⟨hlt, ?_⟩, h⟩
      intro e he
      exact Std.TransCmp.lt_trans hlt (hfirst e he)
    case h_2 => exact h
    case h_3 hgt =>
      refine List.pairwise_cons.2 ⟨?_, ih hrest⟩
      intro e he
      rcases eq_or_mem_of_mem_insertByName he with rfl | he
      · exact Std.OrientedCmp.gt_iff_lt.1 hgt
      · exact hfirst e he

theorem ByName.foldl_insertByName (h : ByName entries) :
    ByName (found.foldl (fun sorted e => FileSystem.insertByName e sorted) entries) := by
  induction found generalizing entries with
  | nil => exact h
  | cons first rest ih => exact ih h.insertByName

theorem mem_foldl_insertByName_iff (hentries : ∀ e ∈ entries, kindOf e.1 = some e.2)
    (hfound : ∀ e ∈ found, kindOf e.1 = some e.2) :
    other ∈ found.foldl (fun sorted e => insertByName e sorted) entries
      ↔ other ∈ found ∨ other ∈ entries := by
  induction found generalizing entries with
  | nil => simp
  | cons first rest ih =>
    obtain ⟨hfirst, hrest⟩ := List.forall_mem_cons.1 hfound
    have hinsert : ∀ e ∈ insertByName first entries, kindOf e.1 = some e.2 := by
      intro e he
      rcases eq_or_mem_of_mem_insertByName he with rfl | he
      · exact hfirst
      · exact hentries e he
    rw [List.foldl_cons, ih hinsert hrest, mem_insertByName_iff hentries hfirst, List.mem_cons]
    tauto

end ByName

/-! ### Entries of a location -/

variable {fs : FileSystem} {location : Location} {name : FileName} {kind : Kind} {entry : Entry}

theorem entry_cons : fs.entry? (name :: location) = fs.entries.lookup (name :: location) := by
  unfold entry?
  cases fs.entries.lookup (name :: location) <;> rfl

theorem mem_entries_of_some (h : fs.entry? (name :: location) = some entry) :
    (name :: location, entry) ∈ fs.entries := by
  rw [entry_cons, List.lookup_eq_some_iff] at h
  obtain ⟨before, after, hentries, -⟩ := h
  simp [hentries]

/-- The kind of what a name stands for under a location. -/
def kindUnder? (fs : FileSystem) (location : Location) (name : FileName) : Option Kind :=
  (fs.entry? (name :: location)).map Entry.kind

/-- What a row of the table adds to the listing of a location. -/
def entryUnder? (fs : FileSystem) (location place : Location) : Option (FileName × Kind) :=
  match place with
  | [] => none
  | name :: above => if above = location then (fs.kindUnder? above name).map (name, ·) else none

theorem entryUnder?_eq_some_iff {place : Location} :
    fs.entryUnder? location place = some (name, kind) ↔
      place = name :: location ∧ fs.kindUnder? location name = some kind := by
  cases place with
  | nil => simp [entryUnder?]
  | cons first above =>
    rw [entryUnder?, List.cons.injEq]
    split
    case isTrue habove =>
      subst habove
      rw [Option.map_eq_some_iff]
      constructor
      · rintro ⟨kind', hkind, heq⟩
        cases heq
        exact ⟨⟨rfl, rfl⟩, hkind⟩
      · rintro ⟨⟨rfl, -⟩, hkind⟩
        exact ⟨kind, hkind, rfl⟩
    case isFalse habove => simp [habove]

theorem entriesOf_eq : fs.entriesOf location
    = (fs.entries.filterMap fun row => fs.entryUnder? location row.1).foldl
        (fun sorted e => insertByName e sorted) [] := by
  rw [entriesOf, List.foldl_filterMap]
  congr 1
  funext sorted row
  obtain ⟨place, _⟩ := row
  cases place with
  | nil => rfl
  | cons name above =>
    simp only [entryUnder?, kindUnder?]
    split
    · cases fs.entry? (name :: above) <;> rfl
    · rfl

theorem byName_entriesOf (location : Location) : ByName (fs.entriesOf location) := by
  rw [entriesOf_eq]
  exact ByName.foldl_insertByName List.Pairwise.nil

/-- The listing of a location has the names under it, with the kinds of what they stand for. -/
theorem mem_entriesOf_iff :
    (name, kind) ∈ fs.entriesOf location ↔ fs.kindUnder? location name = some kind := by
  have hfound : ∀ e ∈ fs.entries.filterMap fun row => fs.entryUnder? location row.1,
      fs.kindUnder? location e.1 = some e.2 := by
    intro e he
    obtain ⟨row, _, hrow⟩ := List.mem_filterMap.1 he
    exact (entryUnder?_eq_some_iff.1 hrow).2
  rw [entriesOf_eq, mem_foldl_insertByName_iff (List.forall_mem_nil _) hfound,
    List.mem_filterMap, or_iff_left List.not_mem_nil]
  constructor
  · rintro ⟨row, _, hrow⟩
    exact (entryUnder?_eq_some_iff.1 hrow).2
  · intro hkind
    obtain ⟨entry, hentry, -⟩ := Option.map_eq_some_iff.1 hkind
    exact ⟨(name :: location, entry), mem_entries_of_some hentry,
      entryUnder?_eq_some_iff.2 ⟨rfl, hkind⟩⟩

end Rebuild.FileSystem
