import Rebuild.Proofs.Path

/-!
# The steps of a path that is put together

Joining a directory and a relative path puts their steps one after the other, however either of them
is spelled: with slashes at the end, with empty pieces, or with an empty directory. A dot at the
start is the one piece that means something else there, so the relative path must not begin with
one. Names that are neither a dot nor two dots never do, and each of them is one step.

The steps tell which pieces a path has, but for those that are no steps, and whether it is absolute.
-/

namespace Rebuild

namespace FileName

/-- A name that is a step of its own. -/
structure Normal (name : FileName) : Prop where
  ne_here : name.text ≠ "."
  ne_parent : name.text ≠ ".."

instance (name : FileName) : Decidable name.Normal :=
  decidable_of_iff (name.text ≠ "." ∧ name.text ≠ "..")
    ⟨fun ⟨here, parent⟩ => ⟨here, parent⟩, fun h => ⟨h.ne_here, h.ne_parent⟩⟩

variable {name : FileName}

theorem Normal.ofText? (h : name.Normal) : FileName.ofText? name.text = some name := by
  rw [FileName.ofText?, if_neg (not_or.2 ⟨h.ne_here, h.ne_parent⟩),
    dif_pos ⟨name.ne_empty, name.slash_notMem⟩]

end FileName

namespace Path

open FileName (Normal joined)

variable {directory path : Path} {name : FileName} {names : List FileName}

theorem Component.ofPiece?_of_normal (h : name.Normal) :
    Component.ofPiece? name.text = some (.name name) := by
  rw [Component.ofPiece?, if_neg h.ne_parent, h.ofText?, Option.map_some]

theorem filterMap_ofPiece?_of_normal (h : ∀ name ∈ names, name.Normal) :
    (names.map FileName.text).filterMap Component.ofPiece? = names.map .name := by
  induction names with
  | nil => rfl
  | cons name names ih =>
    obtain ⟨hname, hnames⟩ := List.forall_mem_cons.1 h
    rw [List.map_cons, List.filterMap_cons_some (Component.ofPiece?_of_normal hname), ih hnames,
      List.map_cons]

/-- A path that starts neither at the root nor with a dot has its pieces for steps. -/
theorem components_of_relative (habsolute : path.isAbsolute = false)
    (hhere : path.startsHere = false) :
    path.components = path.pieces.filterMap Component.ofPiece? := by
  simp [components, habsolute, hhere]

theorem components_join (habsolute : path.isAbsolute = false) (hhere : path.startsHere = false) :
    (directory.join path).components = directory.components ++ path.components := by
  rw [components_of_relative habsolute hhere]
  by_cases h : directory.text = ""
  · have hdirectory : directory.components = [] := by
      obtain rfl : directory = ⟨""⟩ := congrArg mk h
      decide
    rw [hdirectory, List.nil_append, ← components_of_relative habsolute hhere, join, if_pos]
    simp [h]
  · obtain ⟨steps, idle, hsteps, hdirectory, hidle, hjoin⟩ := pieces_join h
    have hnothing : idle.filterMap Component.ofPiece? = [] := by
      rw [List.filterMap_eq_nil_iff]
      intro piece hpiece
      rw [hidle piece hpiece]
      decide
    have hstart : (directory.join path).startsHere = directory.startsHere := by
      rw [startsHere, startsHere, hjoin path habsolute, hdirectory,
        List.head?_append_of_ne_nil _ hsteps, List.head?_append_of_ne_nil _ hsteps]
    rw [components, components, join_isAbsolute h habsolute, hstart, hjoin path habsolute,
      hdirectory, List.filterMap_append, List.filterMap_append, hnothing, List.append_nil,
      List.append_assoc]

theorem joined_startsHere (h : ∀ name ∈ names, name.Normal) (hne : names ≠ []) :
    startsHere ⟨joined names⟩ = false := by
  obtain ⟨first, rest, rfl⟩ := List.exists_cons_of_ne_nil hne
  rw [startsHere, pieces, FileName.splitFields_joined hne, List.map_cons, List.head?_cons]
  simpa using (h first List.mem_cons_self).ne_here

theorem components_joined (h : ∀ name ∈ names, name.Normal) :
    components ⟨joined names⟩ = names.map .name := by
  by_cases hne : names = []
  · rw [hne]
    decide
  · rw [components_of_relative (FileName.joined_isAbsolute hne) (joined_startsHere h hne), pieces,
      FileName.splitFields_joined hne, filterMap_ofPiece?_of_normal h]

theorem components_join_joined (h : ∀ name ∈ names, name.Normal) (hne : names ≠ []) :
    (directory.join ⟨joined names⟩).components = directory.components ++ names.map .name := by
  rw [components_join (FileName.joined_isAbsolute hne) (joined_startsHere h hne),
    components_joined h]

theorem components_child (h : name.Normal) :
    (directory.child name).components = directory.components ++ [.name name] := by
  rw [child, ← FileName.joined_singleton,
    components_join_joined (List.forall_mem_singleton.2 h) (List.cons_ne_nil name [])]
  rfl

theorem components_below (h : ∀ name ∈ names, name.Normal) :
    (directory.below names).components = directory.components ++ names.map .name := by
  induction names generalizing directory with
  | nil => simp
  | cons name names ih =>
    obtain ⟨hname, hnames⟩ := List.forall_mem_cons.1 h
    rw [below_cons, ih hnames, components_child hname, List.append_assoc]
    rfl

/-- The steps from a directory to what is below it are the names on the way. -/
theorem stepsAfter?_below (h : ∀ name ∈ names, name.Normal) :
    (directory.below names).stepsAfter? directory = some (names.map .name) := by
  rw [stepsAfter?, List.isPrefixOf?_eq_some_iff_append_eq, components_below h]

/-- The name that a step goes to, if it goes to one. -/
def Component.name? : Component → Option FileName
  | .name name => some name
  | _ => none

theorem slashedSteps_eq_joined (steps : List Component) :
    slashedSteps steps = joined (steps.filterMap Component.name?) := by
  rw [slashedSteps, joined, List.map_filterMap]
  congr 2
  funext step
  cases step <;> rfl

theorem slashedSteps_names (names : List FileName) :
    slashedSteps (names.map .name) = joined names := by
  rw [slashedSteps_eq_joined, List.filterMap_map]
  exact congrArg joined List.filterMap_some

/-! ### From the steps back to the pieces -/

variable {other : Path} {piece : String}

/-- What is written for a step; a root and a dot are no pieces of their own. -/
def Component.piece? : Component → Option String
  | .parent => some ".."
  | .name found => some found.text
  | _ => none

theorem Component.bind_piece?_ofPiece? (h : '/' ∉ piece.toList) :
    (ofPiece? piece).bind piece? = if piece ≠ "" ∧ piece ≠ "." then some piece else none := by
  by_cases hparent : piece = ".."
  · subst hparent
    rfl
  by_cases hhere : piece = "."
  · subst hhere
    rfl
  rw [ofPiece?, if_neg hparent, FileName.ofText?, if_neg (not_or.2 ⟨hhere, hparent⟩)]
  by_cases hempty : piece = ""
  · simp [hempty]
  · simp [hempty, hhere, h, piece?]

theorem slash_notMem_of_mem_pieces (h : piece ∈ path.pieces) : '/' ∉ piece.toList := by
  obtain ⟨field, hfield, rfl⟩ := List.mem_map.1 h
  rw [String.toList_ofList]
  exact Text.notMem_of_mem_fields hfield

/-- The pieces of a path that are steps can be read off the steps. -/
theorem filter_pieces (path : Path) : path.pieces.filter (fun piece => piece ≠ "" ∧ piece ≠ ".")
    = path.components.filterMap Component.piece? := by
  have hstart : (if path.isAbsolute then [Component.root] else
      if path.startsHere then [Component.here] else []).filterMap Component.piece? = [] := by
    split
    · rfl
    · split <;> rfl
  rw [components, List.filterMap_append, hstart, List.nil_append, List.filterMap_filterMap,
    ← List.filterMap_eq_filter]
  refine List.filterMap_congr fun piece hpiece => ?_
  rw [Component.bind_piece?_ofPiece? (slash_notMem_of_mem_pieces hpiece)]
  simp [Option.guard]

theorem root_mem_components_iff : .root ∈ path.components ↔ path.isAbsolute = true := by
  have hpieces : .root ∉ path.pieces.filterMap Component.ofPiece? := by
    rw [List.mem_filterMap]
    rintro ⟨piece, -, hpiece⟩
    rw [Component.ofPiece?] at hpiece
    split at hpiece
    · cases hpiece
    · simp at hpiece
  rw [components, List.mem_append, or_iff_left hpieces]
  cases path.isAbsolute with
  | true => simp
  | false => cases path.startsHere <;> simp

theorem Same.isAbsolute_eq (h : path.Same other) : path.isAbsolute = other.isAbsolute := by
  rw [Bool.eq_iff_iff, ← root_mem_components_iff, ← root_mem_components_iff, h]

end Path

end Rebuild
