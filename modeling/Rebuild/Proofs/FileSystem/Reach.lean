import Rebuild.Proofs.FileSystem.Status

/-!
# What can be reached from a directory

From a directory names lead on, from entry to entry, as long as each entry but the last is a
directory or a link to one. Links can lead in circles, so the names that lead somewhere may be many
for one entry; but a path that grows too long is not looked up any more.
-/

namespace Rebuild.FileSystem

variable {fs : FileSystem} {directory root : Path} {location : Location} {name : FileName}
  {names : List FileName} {kind last : Kind}

/-- The names lead from a directory, through directories and links to directories, to an entry of a
kind. -/
inductive Leads (fs : FileSystem) : Path → List FileName → Kind → Prop
  | entry {directory : Path} {name : FileName} {kind : Kind} (h : fs.Holds directory name kind) :
    Leads fs directory [name] kind
  | further {directory : Path} {name : FileName} {names : List FileName} {kind last : Kind}
    (h : fs.Holds directory name kind) (hnames : Leads fs (directory.child name) names last) :
    Leads fs directory (name :: names) last

/-- An entry is a regular file, or a link to one. -/
def IsFile (fs : FileSystem) (path : Path) : Kind → Prop
  | .file => True
  | .link => ∃ status, fs.status path = .ok status ∧ status.isFile = true
  | _ => False

/-- An entry is a directory, or a link to one. -/
def IsFolder (fs : FileSystem) (path : Path) : Kind → Prop
  | .directory => True
  | .link => ∃ location, fs.IsDirectoryAt path location
  | _ => False

/-- What ends a scan at an entry: a link that leads back to a directory above it, a link that cannot
be followed for another reason than that nothing is there, or a directory, or a link to one, that
cannot be listed. -/
inductive Stops (fs : FileSystem) (root : Path) (names : List FileName) : Kind → Prop
  | loop {location : Location} {above : List FileName}
    (hlink : fs.IsDirectoryAt (root.below names) location) (hup : above <+: names)
    (hne : above ≠ names) (habove : fs.IsDirectoryAt (root.below above) location) :
    Stops fs root names .link
  | broken {fault : Fault} (hlink : fs.status (root.below names) = .error fault)
    (hfault : fault ≠ .notFound) : Stops fs root names .link
  | closed {kind : Kind} {fault : Fault} (hfolder : fs.IsFolder (root.below names) kind)
    (hlisting : fs.listing (root.below names) = .error fault) : Stops fs root names kind

theorem IsFile.not_isFolder (h : fs.IsFile directory kind) : ¬ fs.IsFolder directory kind := by
  intro hfolder
  cases kind with
  | file => exact hfolder
  | directory => exact h
  | special => exact h
  | link =>
    obtain ⟨status, hstatus, hfile⟩ := h
    obtain ⟨location, status', hstatus', hdirectory, -⟩ := hfolder
    rw [Except.ok.inj (hstatus'.symm.trans hstatus), Status.isDirectory,
      Status.isFile_iff.1 hfile] at hdirectory
    cases hdirectory

theorem Seen.not_isDirectoryAt (hseen : fs.Seen directory kind) (h : ¬ fs.IsFolder directory kind) :
    ¬ fs.IsDirectoryAt directory location := by
  intro hdirectory
  have hkind : fs.kind directory = .ok kind := hseen.of_status hdirectory.choose_spec.1
  cases kind with
  | directory => exact h trivial
  | link => exact h ⟨location, hdirectory⟩
  | file => exact not_isDirectoryAt_of_kind hkind (by decide) (by decide) hdirectory
  | special => exact not_isDirectoryAt_of_kind hkind (by decide) (by decide) hdirectory

theorem Stops.isFolder_or_broken (h : fs.Stops root names kind) :
    fs.IsFolder (root.below names) kind ∨
      kind = .link ∧ ∃ fault, fault ≠ .notFound ∧ fs.status (root.below names) = .error fault := by
  cases h with
  | loop hlink => exact Or.inl ⟨_, hlink⟩
  | broken hlink hfault => exact Or.inr ⟨rfl, _, hfault, hlink⟩
  | closed hfolder => exact Or.inl hfolder

theorem Leads.isDirectoryAt (h : fs.Leads directory names kind) :
    ∃ location, fs.IsDirectoryAt directory location := by
  cases h with
  | entry h => exact ⟨_, h.choose_spec.1⟩
  | further h => exact ⟨_, h.choose_spec.1⟩

theorem Leads.ne_nil (h : fs.Leads directory names kind) : names ≠ [] := by
  cases h <;> exact List.cons_ne_nil _ _

/-- What is so of an entry, or of something below it. -/
def AtOrBelow (fs : FileSystem) (root : Path) (holds : List FileName → Kind → Prop)
    (names : List FileName) (kind : Kind) : Prop :=
  holds names kind ∨
    ∃ more last, fs.Leads (root.below names) more last ∧ holds (names ++ more) last

theorem AtOrBelow.exists_append {root : Path} {holds : List FileName → Kind → Prop}
    (h : fs.AtOrBelow root holds names kind) : ∃ more last, holds (names ++ more) last := by
  rcases h with hhere | ⟨more, last, -, hlast⟩
  · exact ⟨[], kind, by rwa [List.append_nil]⟩
  · exact ⟨more, last, hlast⟩

theorem atOrBelow_iff_of_not_isDirectoryAt {root : Path} {holds : List FileName → Kind → Prop}
    (h : ∀ location, ¬ fs.IsDirectoryAt (root.below names) location) :
    fs.AtOrBelow root holds names kind ↔ holds names kind := by
  refine or_iff_left ?_
  rintro ⟨more, last, hleads, -⟩
  obtain ⟨location, hlocation⟩ := hleads.isDirectoryAt
  exact h location hlocation

/-- What is below a directory is at one of its entries, or below it. -/
theorem atOrBelow_iff_of_isDirectoryAt {root : Path} {holds : List FileName → Kind → Prop}
    (h : fs.IsDirectoryAt (root.below names) location) : fs.AtOrBelow root holds names kind ↔
      holds names kind ∨
        ∃ e ∈ fs.entriesOf location, fs.AtOrBelow root holds (names ++ [e.1]) e.2 := by
  refine or_congr_right ⟨?_, ?_⟩
  · rintro ⟨more, last, hleads, hlast⟩
    cases hleads with
    | @entry _ name _ hentry =>
      exact ⟨(name, last), (mem_entriesOf_iff_holds h).2 hentry, Or.inl hlast⟩
    | @further _ name more kind _ hentry hmore =>
      refine ⟨(name, kind), (mem_entriesOf_iff_holds h).2 hentry, Or.inr ⟨more, last, ?_, ?_⟩⟩
      · rwa [Path.below_concat]
      · rwa [List.append_assoc]
  · rintro ⟨⟨name, kind⟩, hmem, hentry | ⟨more, last, hleads, hlast⟩⟩
    · exact ⟨[name], kind, .entry ((mem_entriesOf_iff_holds h).1 hmem), hentry⟩
    · refine ⟨name :: more, last, .further ((mem_entriesOf_iff_holds h).1 hmem) ?_, ?_⟩
      · rwa [Path.below_concat] at hleads
      · rwa [List.append_assoc] at hlast

end Rebuild.FileSystem
