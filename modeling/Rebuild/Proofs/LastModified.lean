import Rebuild.LastModified
import Rebuild.Proofs.Reading

/-!
# What is known of a file's time

Asking for the time of a file has three ends: there is one, there is no file, or it cannot be found
out. Only the last is a failure, and its report names the file and the reason.
-/

namespace Rebuild

namespace FileSystem

variable {fs : FileSystem} {path : Path}

/-- The modification time of what a path leads to, if that can be found. -/
def modified? (fs : FileSystem) (path : Path) : Option Time :=
  (fs.status path).toOption.map Status.modified

theorem modified?_eq_some_iff {time : Time} :
    fs.modified? path = some time ↔ ∃ status, fs.status path = .ok status ∧ status.modified = time := by
  rw [modified?]
  cases fs.status path with
  | ok status => simp [Except.toOption]
  | error fault => simp [Except.toOption]

/-- It can be found out when what a path leads to was modified, or that there is nothing. -/
def Readable (fs : FileSystem) (path : Path) : Prop :=
  fs.status path = .error .notFound ∨ ∃ time, fs.modified? path = some time

/-- Something else than that nothing is there keeps the time of a file from being found out. -/
def Unreadable (fs : FileSystem) (path : Path) (fault : Fault) : Prop :=
  fs.status path = .error fault ∧ fault ≠ .notFound

end FileSystem

variable {fs : FileSystem} {path : Path}

theorem outcome_lastModified : ((lastModified path).on fs).outcome = match fs.status path with
    | .ok status => .ok (some status.modified)
    | .error .notFound => .ok none
    | .error fault => .error (.unreadableTime path fault.message) := by
  rw [lastModified, Reading.outcome_bind, Reading.outcome_look, FileSystem.answer]
  cases fs.status path with
  | ok status => rfl
  | error fault => cases fault <;> rfl

theorem outcome_lastModified_eq_some_iff {time : Time} :
    ((lastModified path).on fs).outcome = .ok (some time) ↔ fs.modified? path = some time := by
  rw [outcome_lastModified, FileSystem.modified?]
  cases fs.status path with
  | ok status => simp [Except.toOption]
  | error fault => cases fault <;> simp [Except.toOption]

theorem outcome_lastModified_eq_none_iff :
    ((lastModified path).on fs).outcome = .ok none ↔ fs.status path = .error .notFound := by
  rw [outcome_lastModified]
  cases fs.status path with
  | ok status => simp
  | error fault => cases fault <;> simp

theorem outcome_lastModified_of_unreadable {fault : FileSystem.Fault}
    (h : fs.Unreadable path fault) :
    ((lastModified path).on fs).outcome = .error (.unreadableTime path fault.message) := by
  obtain ⟨hstatus, hfault⟩ := h
  rw [outcome_lastModified, hstatus]
  cases fault with
  | notFound => exact absurd rfl hfault
  | _ => rfl

theorem FileSystem.readable_or_unreadable (fs : FileSystem) (path : Path) :
    fs.Readable path ∨ ∃ fault, fs.Unreadable path fault := by
  cases hstatus : fs.status path with
  | ok status => exact Or.inl (Or.inr ⟨_, FileSystem.modified?_eq_some_iff.2 ⟨status, hstatus, rfl⟩⟩)
  | error fault =>
    by_cases hfault : fault = .notFound
    · exact Or.inl (Or.inl (by rw [hstatus, hfault]))
    · exact Or.inr ⟨fault, hstatus, hfault⟩

theorem outcome_lastModified_of_readable (h : fs.Readable path) :
    ((lastModified path).on fs).outcome = .ok (fs.modified? path) := by
  rcases h with hmissing | ⟨time, htime⟩
  · rw [outcome_lastModified_eq_none_iff.2 hmissing, FileSystem.modified?, hmissing]
    rfl
  · rw [outcome_lastModified_eq_some_iff.2 htime, htime]

theorem unreadable_of_lastModified {error : Error}
    (h : ((lastModified path).on fs).outcome = .error error) :
    ∃ fault, fs.Unreadable path fault ∧ error = .unreadableTime path fault.message := by
  rcases fs.readable_or_unreadable path with hreadable | ⟨fault, hfault⟩
  · rw [outcome_lastModified_of_readable hreadable] at h
    cases h
  · rw [outcome_lastModified_of_unreadable hfault] at h
    exact ⟨fault, hfault, (Except.error.inj h).symm⟩

theorem lines_lastModified : ((lastModified path).on fs).lines = [] := by
  rw [lastModified, Reading.on_look_bind, FileSystem.answer]
  split
  · rfl
  · rfl
  · rfl

theorem FileSystem.Unreadable.not_readable {fault : FileSystem.Fault}
    (h : fs.Unreadable path fault) : ¬ fs.Readable path := by
  intro hreadable
  have hfailed := outcome_lastModified_of_unreadable h
  rw [outcome_lastModified_of_readable hreadable] at hfailed
  cases hfailed

end Rebuild
