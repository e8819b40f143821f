import Rebuild.Project.Descriptor
import Rebuild.Proofs.Project.Key

/-!
# Projects that an entry describes

An entry of a list of projects is read from its full name, and what is read has no colon in a
coordinate and no white space at the two ends. So the full name of the project, which is written from
the coordinates, is read as the same coordinates. A report that names projects by their texts is
therefore not ambiguous, though it would be if keys were made by hand: there `a:b` and `c` have the
text of `a` and `b:c`.
-/

namespace Rebuild

namespace Coordinates

variable {text : String} {coordinates : Coordinates}

/-- What was read from a text is read again from the coordinates with colons between them. -/
theorem parse_written_of_parse (h : parse text = .ok coordinates) :
    parse coordinates.written = .ok coordinates := by
  obtain ⟨htrim, hplain⟩ := parse_eq_ok_iff.1 h
  refine parse_eq_ok_iff.2 ⟨?_, hplain⟩
  have htrimmed : Text.Trimmed coordinates.written.toList := by
    rw [← htrim]
    exact Text.trimmed_trim text.toList
  exact Text.trim_eq_iff.2 ⟨htrimmed, [], [], by simp, by simp, by simp⟩

end Coordinates

theorem Project.name_eq_written (project : Project) :
    project.name = Coordinates.written ⟨project.key, some project.version⟩ := by
  obtain ⟨⟨group, artifact⟩, version, _, _⟩ := project
  rw [← String.toList_inj]
  simp [name, ProjectKey.text, Coordinates.written, Coordinates.toList,
    String.intercalate_cons_of_ne_nil]

/-- Keys that can be read are told apart by their texts. -/
theorem ProjectKey.Readable.eq_of_text_eq {key other : ProjectKey} (h : key.Readable)
    (hother : other.Readable) (htext : key.text = other.text) : key = other := by
  have hfields := fields_text h.group.colon_notMem h.artifact.colon_notMem
  rw [htext, fields_text hother.group.colon_notMem hother.artifact.colon_notMem] at hfields
  obtain ⟨group, artifact⟩ := key
  obtain ⟨group', artifact'⟩ := other
  cases hfields
  rfl

namespace ProjectDescriptor

variable {entry : ProjectDescriptor} {project : Project}

/-- An entry describes a project if its name is read as the key and the version of the project. All
else is taken over. -/
theorem toProject_eq_ok_iff : entry.toProject = .ok project ↔
    Coordinates.parse entry.id = .ok ⟨project.key, some project.version⟩ ∧
      project.parent = entry.parent ∧ project.dependencies = entry.dependencies := by
  rw [toProject, bind_eq_ok_iff]
  constructor
  · rintro ⟨⟨key, version⟩, hparse, hproject⟩
    cases version with
    | none => cases hproject
    | some version =>
      obtain rfl := Except.ok.inj hproject
      exact ⟨hparse, rfl, rfl⟩
  · obtain ⟨key, version, parent, dependencies⟩ := project
    rintro ⟨hparse, rfl, rfl⟩
    exact ⟨_, hparse, rfl⟩

theorem parse_name_of_toProject (h : entry.toProject = .ok project) :
    Coordinates.parse project.name = .ok ⟨project.key, some project.version⟩ := by
  rw [Project.name_eq_written]
  exact Coordinates.parse_written_of_parse (toProject_eq_ok_iff.1 h).1

/-! ### Main result -/

/-- The full name of a project that an entry describes is read as the project's key and version, and
in the entry it stands for the same project; parent and dependencies are those of the entry. Two such
projects with one full name have one key and one version, and two keys with one text are one key. -/
theorem toProject_of_name (h : entry.toProject = .ok project) :
    Coordinates.parse project.name = .ok ⟨project.key, some project.version⟩ ∧
    { entry with id := project.name }.toProject = .ok project ∧
    project.parent = entry.parent ∧ project.dependencies = entry.dependencies ∧
    ∀ (entry' : ProjectDescriptor) (other : Project), entry'.toProject = .ok other →
      (project.name = other.name → project.key = other.key ∧ project.version = other.version) ∧
      (project.key.text = other.key.text → project.key = other.key) := by
  have hname := parse_name_of_toProject h
  obtain ⟨hparse, hparent, hdependencies⟩ := toProject_eq_ok_iff.1 h
  refine ⟨hname, toProject_eq_ok_iff.2 ⟨hname, hparent, hdependencies⟩, hparent, hdependencies, ?_⟩
  intro entry' other h'
  constructor
  · intro hsame
    rw [hsame, parse_name_of_toProject h'] at hname
    have hcoordinates := Except.ok.inj hname
    simp only [Coordinates.mk.injEq, Option.some.injEq] at hcoordinates
    exact ⟨hcoordinates.1.symm, hcoordinates.2.symm⟩
  · intro htext
    have hother := (toProject_eq_ok_iff.1 h').1
    exact (ProjectKey.readable_of_parse hparse).eq_of_text_eq
      (ProjectKey.readable_of_parse hother) htext

/-- The white space around a full name is lost, that before the version is kept, and a second entry
with the same name and other references is known to be the same project. -/
theorem toProject_of_name_with_blanks :
    let entry : ProjectDescriptor := ⟨"\tg:a :1-x ", some ⟨"g", "p"⟩, [⟨"g", "b"⟩, ⟨"g", "b"⟩]⟩
    let entry' : ProjectDescriptor := ⟨"g:a :1-x", none, []⟩
    let project : Project := ⟨⟨"g", "a "⟩, "1-x", some ⟨"g", "p"⟩, [⟨"g", "b"⟩, ⟨"g", "b"⟩]⟩
    let other : Project := ⟨⟨"g", "a "⟩, "1-x", none, []⟩
    entry.toProject = .ok project ∧ entry'.toProject = .ok other ∧
    { entry with id := "g:a :1-x" }.toProject = .ok project ∧ project.name = other.name ∧
    project.key = other.key := by
  intro entry entry' project other
  have hproject : entry.toProject = .ok project := by
    apply eq_ok_of_toOption
    decide +kernel
  have hother : entry'.toProject = .ok other := by
    apply eq_ok_of_toOption
    decide +kernel
  have hname : project.name = "g:a :1-x" := by decide +kernel
  have hsame : project.name = other.name := by decide +kernel
  obtain ⟨-, hagain, -, -, hunique⟩ := toProject_of_name hproject
  rw [hname] at hagain
  exact ⟨hproject, hother, hagain, hsame, ((hunique entry' other hother).1 hsame).1⟩

/-- Keys made by hand are not told apart by their texts. -/
example : ProjectKey.text ⟨"a:b", "c"⟩ = ProjectKey.text ⟨"a", "b:c"⟩ := by decide

end ProjectDescriptor

end Rebuild
