import Rebuild.Proofs.Path.Components

/-!
# The names of a path between slashes

Patterns and targets do not see a path as it was written, but its names with one slash between two
of them. What is left out are the steps that are no names, and the slashes and dots that are no
steps. So the text that is left is in a form of its own: every piece of it is a name, it is read
back as a path with just these names, and it is the same however the path was spelled. Where a path
has nothing but names for steps, nothing is lost, and the text stands for the path.
-/

namespace Rebuild

namespace FileName

variable {name : FileName} {names : List FileName} {text : String}

theorem normal_of_ofText? (h : ofText? text = some name) : name.Normal := by
  unfold ofText? at h
  split at h
  case isTrue => cases h
  case isFalse hdots =>
    obtain ⟨hhere, hparent⟩ := not_or.1 hdots
    obtain ⟨_, hname⟩ := Option.dite_none_right_eq_some.1 h
    obtain rfl := Option.some.inj hname
    exact ⟨hhere, hparent⟩

theorem joined_nil : joined [] = "" := rfl

theorem head_joined : (joined names).toList.head? ≠ some '/' := by
  by_cases hne : names = []
  · simp [hne, joined_nil]
  · simpa [Path.isAbsolute] using joined_isAbsolute hne

theorem last_joined : (joined names).toList.getLast? ≠ some '/' := by
  intro h
  obtain ⟨stem, hstem⟩ := List.getLast?_eq_some_iff.1 h
  have htext : joined names = String.ofList stem ++ "/" ++ "" := by
    rw [← String.toList_inj, hstem]
    simp
  have hne : names ≠ [] := by
    rintro rfl
    simp [joined_nil] at hstem
  have hempty : "" ∈ names.map FileName.text := by
    rw [← splitFields_joined hne, htext, Text.splitFields_slash_append]
    exact List.mem_append_right _ List.mem_cons_self
  obtain ⟨name, -, hname⟩ := List.mem_map.1 hempty
  exact name.ne_empty hname

end FileName

namespace Path

open FileName (Normal joined)

variable {path other : Path} {name : FileName}

/-- The names among the steps of a path. -/
def names (path : Path) : List FileName := path.components.filterMap Component.name?

/-- Every step of the path goes to a name, and none to the root, so the path is relative. -/
def OnlyNames (path : Path) : Prop := ∀ step ∈ path.components, ∃ name, step = .name name

instance (path : Path) : Decidable path.OnlyNames :=
  decidable_of_iff (∀ step ∈ path.components, step.name?.isSome) <| by
    refine forall₂_congr fun step _ => ?_
    cases step <;> simp [Component.name?]

theorem Component.name?_eq_some_iff {step : Component} :
    step.name? = some name ↔ step = .name name := by
  cases step <;> simp [name?]

theorem slashed_eq_joined (path : Path) : path.slashed = joined path.names :=
  slashedSteps_eq_joined path.components

/-- A name among the steps of a path is a step of its own. -/
theorem normal_of_mem_components (h : .name name ∈ path.components) : name.Normal := by
  rw [components, List.mem_append] at h
  rcases h with hlead | hstep
  · split at hlead
    · simp at hlead
    · split at hlead <;> simp at hlead
  · obtain ⟨piece, -, hpiece⟩ := List.mem_filterMap.1 hstep
    unfold Component.ofPiece? at hpiece
    split at hpiece
    case isTrue => cases hpiece
    case isFalse =>
      obtain ⟨found, hfound, heq⟩ := Option.map_eq_some_iff.1 hpiece
      obtain rfl := Component.name.inj heq
      exact FileName.normal_of_ofText? hfound

theorem normal_of_mem_names (h : name ∈ path.names) : name.Normal := by
  obtain ⟨step, hstep, hname⟩ := List.mem_filterMap.1 h
  obtain rfl := Component.name?_eq_some_iff.1 hname
  exact normal_of_mem_components hstep

theorem components_slashed (path : Path) : components ⟨path.slashed⟩ = path.names.map .name := by
  rw [slashed_eq_joined, components_joined fun _ => normal_of_mem_names]

theorem names_slashed (path : Path) : names ⟨path.slashed⟩ = path.names := by
  rw [names, components_slashed, List.filterMap_map]
  change List.filterMap some path.names = path.names
  rw [List.filterMap_some]

theorem OnlyNames.components_eq (h : path.OnlyNames) : path.components = path.names.map .name := by
  have hsteps : ∀ steps : List Component, (∀ step ∈ steps, ∃ name, step = .name name) →
      steps = (steps.filterMap Component.name?).map .name := by
    intro steps
    induction steps with
    | nil => exact fun _ => rfl
    | cons step steps ih =>
      intro h
      obtain ⟨⟨name, rfl⟩, hrest⟩ := List.forall_mem_cons.1 h
      exact congrArg (Component.name name :: ·) (ih hrest)
  exact hsteps path.components h

/-- The names of a path between slashes, as a text: neither its first nor its last character is a
slash, and unless it is empty each of its pieces is a name. Taken for a path it is its own text, and
paths with the same steps have the same one. If all steps of a path are names it is the same path
again, and so it is found with no other such path. -/
theorem slashed_canonical (path : Path) :
    path.slashed.toList.head? ≠ some '/' ∧ path.slashed.toList.getLast? ≠ some '/' ∧
    (path.slashed = "" ∨
      ∀ piece ∈ pieces ⟨path.slashed⟩, piece ≠ "" ∧ piece ≠ "." ∧ piece ≠ "..") ∧
    slashed ⟨path.slashed⟩ = path.slashed ∧
    (∀ other : Path, path.Same other → path.slashed = other.slashed) ∧
    (path.OnlyNames → Same ⟨path.slashed⟩ path ∧
      ∀ other : Path, other.OnlyNames → path.slashed = other.slashed → path.Same other) := by
  have hread : ∀ given : Path, given.OnlyNames → Same ⟨given.slashed⟩ given := fun given h =>
    (components_slashed given).trans h.components_eq.symm
  refine ⟨?_, ?_, ?_, ?_, ?_, ?_⟩
  · rw [slashed_eq_joined]
    exact FileName.head_joined
  · rw [slashed_eq_joined]
    exact FileName.last_joined
  · by_cases hne : path.names = []
    · exact Or.inl (by rw [slashed_eq_joined, hne, FileName.joined_nil])
    · refine Or.inr fun piece hpiece => ?_
      rw [pieces, slashed_eq_joined, FileName.splitFields_joined hne] at hpiece
      obtain ⟨name, hname, rfl⟩ := List.mem_map.1 hpiece
      have hnormal := normal_of_mem_names hname
      exact ⟨name.ne_empty, hnormal.ne_here, hnormal.ne_parent⟩
  · rw [slashed_eq_joined, names_slashed, slashed_eq_joined]
  · intro other hsame
    rw [slashed, slashed, hsame]
  · intro hpath
    refine ⟨hread path hpath, ?_⟩
    intro other hother htexts
    have hsame := hread other hother
    rw [← htexts] at hsame
    exact (hread path hpath).symm.trans hsame

/-- A path with steps that are no names loses them, and one without them does not; of the first
there is another spelling, with the same text. -/
theorem slashed_canonical_of_odd_spellings :
    slashed ⟨"/../a//./b.d/.."⟩ = "a/b.d" ∧ (Path.mk "a//./b.d/").OnlyNames ∧
    slashed ⟨"/../a//./b.d/.."⟩ = slashed ⟨"//..//a/b.d/../."⟩ ∧
    slashed ⟨"a/b.d"⟩ = "a/b.d" ∧ Same ⟨slashed ⟨"a//./b.d/"⟩⟩ ⟨"a//./b.d/"⟩ ∧
    Same ⟨"a//./b.d/"⟩ ⟨"a/b.d"⟩ := by
  have htext : slashed ⟨"/../a//./b.d/.."⟩ = "a/b.d" := by decide
  have hnames : ∀ path ∈ [Path.mk "a//./b.d/", ⟨"a/b.d"⟩], path.OnlyNames := by decide
  obtain ⟨-, -, -, hagain, hspelled, -⟩ := slashed_canonical ⟨"/../a//./b.d/.."⟩
  obtain ⟨-, -, -, -, -, hback⟩ := slashed_canonical ⟨"a//./b.d/"⟩
  obtain ⟨hsame, hother⟩ := hback (hnames _ (by simp))
  rw [htext] at hagain
  exact ⟨htext, hnames _ (by simp), hspelled _ (by decide), hagain, hsame,
    hother _ (hnames _ (by simp)) (by decide)⟩

end Path

end Rebuild
