import Rebuild.Proofs.FileSystem.WellFormed
import Rebuild.Proofs.Sources.Walk
import Rebuild.Proofs.Time

/-!
# What a scan finds

A scan of a root that is a directory is the walk of that directory. The root itself has been looked
up before, and is no file; so it stops the walk only if it cannot be listed, and everything else that
the walk meets is below the root, where each entry has the path of the root joined with the names
that lead to it.

The file system has to be well-formed, as every one is that build steps have made. In a table with a
name such as two dots the entry of that name could be listed, but not looked up.
-/

namespace Rebuild

open FileSystem (Kind Status Fault Access pathLimit)
open Walk (OnWay Yields)

namespace FileSystem

/-- A path leads to a directory. -/
def IsDirectory (fs : FileSystem) (path : Path) : Prop :=
  ∃ status, fs.status path = .ok status ∧ status.isDirectory = true

theorem isDirectory_iff {fs : FileSystem} {path : Path} :
    fs.IsDirectory path ↔ ∃ location, fs.IsDirectoryAt path location := by
  constructor
  · rintro ⟨status, hstatus, hdirectory⟩
    exact ⟨status.location, status, hstatus, hdirectory, rfl⟩
  · rintro ⟨_, status, hstatus, hdirectory, _⟩
    exact ⟨status, hstatus, hdirectory⟩

theorem text_ne_empty_of_isDirectory {fs : FileSystem} {path : Path} (h : fs.IsDirectory path) :
    path.text ≠ "" := by
  obtain ⟨location, hlocation⟩ := isDirectory_iff.1 h
  obtain ⟨modified, access, hfind⟩ := isDirectoryAt_iff.1 hlocation
  exact (locate_eq_ok_iff.1 (find_eq_ok_iff.1 hfind).1).2.1

end FileSystem

namespace Source

variable {fs : FileSystem} {selection : Glob.Selection} {root : Path} {files : List Source}

theorem outcome_scan_of_not_isDirectory (h : ¬ fs.IsDirectory root) :
    ((scan selection root).on fs).outcome = .ok [] := by
  rw [scan, Reading.outcome_look_bind, FileSystem.answer]
  cases hstatus : fs.status root with
  | error fault => rfl
  | ok status =>
    have hfile : ¬ status.isDirectory = true := fun hdirectory => h ⟨status, hstatus, hdirectory⟩
    dsimp only
    rw [if_neg hfile]
    rfl

theorem outcome_scan_of_isDirectory (h : fs.IsDirectory root) :
    ∃ kind, fs.kind root = .ok kind ∧ ((scan selection root).on fs).outcome =
      ((Walk.go (take selection root) [] root kind).on fs).outcome := by
  obtain ⟨status, hstatus, hdirectory⟩ := h
  obtain ⟨kind, hkind⟩ := FileSystem.exists_kind_of_status hstatus
  refine ⟨kind, hkind, ?_⟩
  rw [scan, Reading.outcome_look_bind, FileSystem.answer, hstatus]
  dsimp only
  rw [if_pos hdirectory, Walk.start, Reading.outcome_look_bind, FileSystem.answer, hkind]

theorem yields_scan (fs : FileSystem) (selection : Glob.Selection) (root : Path) :
    Yields (ScanFailed root) (fun source => selection.selects source.relative = true)
      ((scan selection root).on fs).outcome := by
  by_cases h : fs.IsDirectory root
  · obtain ⟨kind, -, houtcome⟩ := outcome_scan_of_isDirectory h
    rw [houtcome]
    exact Walk.yields_go (yields_take selection root)
  · rw [outcome_scan_of_not_isDirectory h]
    exact .ok (List.forall_mem_nil _)

theorem selects_of_mem_scan {source : Source}
    (hok : ((scan selection root).on fs).outcome = .ok files) (hmem : source ∈ files) :
    selection.selects source.relative = true :=
  (yields_scan fs selection root).of_mem files hok source hmem

theorem accounted_scan (selection : Glob.Selection) (hfs : fs.WellFormed)
    (h : fs.IsDirectory root) :
    ∃ kind, fs.Seen root kind ∧
      Accounted fs selection root [] kind ((scan selection root).on fs).outcome := by
  obtain ⟨kind, hkind, houtcome⟩ := outcome_scan_of_isDirectory h
  refine ⟨kind, Or.inl hkind, ?_⟩
  rw [houtcome]
  exact accounted_go hfs (List.forall_mem_nil _) OnWay.nil (Or.inl hkind)

/-- A root that is a directory stops a scan exactly if it cannot be listed. -/
theorem stops_root_iff {kind : Kind} (h : fs.IsDirectory root) (hseen : fs.Seen root kind) :
    fs.Stops root [] kind ↔ ∃ fault, fs.listing root = .error fault := by
  constructor
  · intro hstops
    cases hstops with
    | loop _ hup hne => exact absurd (List.prefix_nil.1 hup) hne
    | broken hlink =>
      obtain ⟨status, hstatus, -⟩ := h
      cases hlink.symm.trans hstatus
    | closed _ hlisting => exact ⟨_, hlisting⟩
  · rintro ⟨fault, hlisting⟩
    obtain ⟨location, hlocation⟩ := FileSystem.isDirectory_iff.1 h
    refine .closed ?_ hlisting
    by_contra hfolder
    exact hseen.not_isDirectoryAt hfolder hlocation

/-- The scan of a directory fails exactly if the directory cannot be listed, or something below it
stops the walk. -/
theorem outcome_scan_eq_error_iff (selection : Glob.Selection) (hfs : fs.WellFormed)
    (h : fs.IsDirectory root) :
    (∃ reason, ((scan selection root).on fs).outcome = .error (.scan root reason)) ↔
      (∃ fault, fs.listing root = .error fault) ∨
        ∃ names kind, fs.Leads root names kind ∧ fs.Stops root names kind := by
  obtain ⟨kind, hseen, haccounted⟩ := accounted_scan selection hfs h
  have hstops : fs.AtOrBelow root (fs.Stops root) [] kind ↔
      (∃ fault, fs.listing root = .error fault) ∨
        ∃ names kind, fs.Leads root names kind ∧ fs.Stops root names kind :=
    or_congr_left (stops_root_iff h hseen)
  rw [← hstops]
  constructor
  · rintro ⟨reason, herror⟩
    exact haccounted.stopped _ herror
  · intro hmeets
    cases houtcome : ((scan selection root).on fs).outcome with
    | ok files => exact absurd hmeets (haccounted.walked files houtcome).clear
    | error error =>
      obtain ⟨reason, rfl⟩ := (yields_scan fs selection root).of_error error houtcome
      exact ⟨reason, rfl⟩

/-- A scan finds its sources in the order of the names that lead to them. -/
theorem ordered_of_scan (hfs : fs.WellFormed)
    (hok : ((scan selection root).on fs).outcome = .ok files) : files.Pairwise (Before root) := by
  by_cases h : fs.IsDirectory root
  · obtain ⟨kind, -, haccounted⟩ := accounted_scan selection hfs h
    exact (haccounted.walked files hok).ordered
  · rw [outcome_scan_of_not_isDirectory h] at hok
    rw [← Except.ok.inj hok]
    exact List.Pairwise.nil

/-- A scan finds the files that names lead to from the root, if the patterns select the names. -/
theorem mem_scan_iff (hfs : fs.WellFormed) (hok : ((scan selection root).on fs).outcome = .ok files)
    {source : Source} : source ∈ files ↔ ∃ names kind, fs.Leads root names kind ∧
      fs.IsFile (root.below names) kind ∧ selection.selects (FileName.joined names) = true ∧
      source = ⟨root.join ⟨FileName.joined names⟩, FileName.joined names⟩ := by
  by_cases h : fs.IsDirectory root
  · obtain ⟨kind, hseen, haccounted⟩ := accounted_scan selection hfs h
    obtain ⟨location, hlocation⟩ := FileSystem.isDirectory_iff.1 h
    rw [(haccounted.walked files hok).mem_iff source]
    constructor
    · rintro (⟨hfile, -⟩ | ⟨names, kind, hleads, hfile, hselects, rfl⟩)
      · exact absurd hlocation (hseen.not_isDirectoryAt hfile.not_isFolder)
      · refine ⟨names, kind, hleads, hfile, hselects, ?_⟩
        rw [← Path.below_eq_join root hleads.ne_nil]
        rfl
    · rintro ⟨names, kind, hleads, hfile, hselects, rfl⟩
      refine Or.inr ⟨names, kind, hleads, hfile, hselects, ?_⟩
      rw [← Path.below_eq_join root hleads.ne_nil]
      rfl
  · rw [outcome_scan_of_not_isDirectory h] at hok
    rw [← Except.ok.inj hok]
    refine iff_of_false List.not_mem_nil ?_
    rintro ⟨names, kind, hleads, -⟩
    exact h (FileSystem.isDirectory_iff.2 hleads.isDirectoryAt)

/-! ### Main result -/

end Source

end Rebuild
