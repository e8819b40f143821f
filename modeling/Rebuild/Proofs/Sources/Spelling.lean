import Rebuild.Proofs.FileSystem.Passage
import Rebuild.Proofs.FileSystem.Spelling
import Rebuild.Proofs.FileSystem.Unlocked
import Rebuild.Proofs.Reading.Alike
import Rebuild.Proofs.Sources.Scan

/-!
# Walks from two spellings of a root

A walk knows its root by a spelling, and everything that it finds and reports is spelled
accordingly. Two walks whose roots are one path, joined to two spellings of a directory, come to the
same names and do the same at each of them, as long as what they look up there is the same. So they
end alike: with sources that stand to each other as the two spellings do, or with failures of the
same root.
-/

namespace Rebuild

open FileSystem (Kind Status Fault pathLimit)
open Walk (OnWay go)

variable {fs : FileSystem} {base base' root root' path path' : Path} {names : List FileName}
  {kind : Kind} {location : Location}

/-- One path, read from two directories. -/
def Path.Counterparts (base base' path path' : Path) : Prop :=
  ∃ rest, base.join rest = path ∧ base'.join rest = path'

theorem Path.Counterparts.below (h : Path.Counterparts base base' root root')
    (names : List FileName) :
    Path.Counterparts base base' (root.below names) (root'.below names) := by
  obtain ⟨rest, rfl, rfl⟩ := h
  exact ⟨rest.below names, (Path.below_join ..).symm, (Path.below_join ..).symm⟩

/-- Two failures are equal, or report the same for one path read from two directories. The reason
why a scan has failed has spelled paths in it. -/
inductive Error.Respelled (base base' : Path) : Error → Error → Prop
  | same (error : Error) : Respelled base base' error error
  | scan {root root' : Path} (h : Path.Counterparts base base' root root')
    (reason reason' : String) : Respelled base base' (.scan root reason) (.scan root' reason')
  | unreadableTime {path path' : Path} (h : Path.Counterparts base base' path path')
    (reason : String) :
    Respelled base base' (.unreadableTime path reason) (.unreadableTime path' reason)

namespace FileSystem

/-- The names that a walk can come to below a root, from entry to entry, as long as nothing stops
it. -/
inductive Comes (fs : FileSystem) (root : Path) : List FileName → Kind → Prop
  | start : Comes fs root [] .directory
  | entry {names : List FileName} {name : FileName} {kind last : Kind}
    (habove : Comes fs root names kind) (hstops : ¬ fs.Stops root names kind)
    (h : fs.Holds (root.below names) name last) :
    Comes fs root (names ++ [name]) last

/-- In a directory that holds only files a walk comes to the files, and goes no further. -/
theorem Comes.of_files (hroot : fs.IsDirectoryAt root location)
    (hfiles : ∀ e ∈ fs.entriesOf location, fs.LeadsToFile (root.child e.1))
    (h : fs.Comes root names kind) : names = [] ∨ ∃ e ∈ fs.entriesOf location, names = [e.1] := by
  induction h with
  | start => exact Or.inl rfl
  | @entry names name kind last _ _ hholds ih =>
    rcases ih with rfl | ⟨e, he, rfl⟩
    · exact Or.inr ⟨(name, last), (mem_entriesOf_iff_holds hroot).2 hholds, rfl⟩
    · obtain ⟨other, hother, -⟩ := hholds
      exact absurd hother (hfiles e he).not_isDirectoryAt

theorem isDirectoryAt_congr (h : fs.status path = fs.status path') :
    fs.IsDirectoryAt path location ↔ fs.IsDirectoryAt path' location := by
  rw [IsDirectoryAt, IsDirectoryAt, h]

theorem isOpenAt_congr (h : fs.status path = fs.status path') (hopen : fs.IsOpenAt path location) :
    fs.IsOpenAt path' location := by
  rcases ((isDirectoryAt_congr h).1 hopen.1).isOpenAt_or with ⟨hopen', -⟩ | ⟨-, hdenied⟩
  · exact hopen'
  · rcases listing_congr h with hsame | ⟨⟨fault, hfault⟩, -⟩
    · cases hopen.listing.symm.trans (hsame.trans hdenied)
    · cases hopen.listing.symm.trans hfault

theorem isFile_congr (h : fs.status path = fs.status path') :
    fs.IsFile path kind ↔ fs.IsFile path' kind := by
  cases kind with
  | file => exact Iff.rfl
  | directory => exact Iff.rfl
  | special => exact Iff.rfl
  | link => rw [IsFile, IsFile, h]

theorem isFolder_congr (h : fs.status path = fs.status path') :
    fs.IsFolder path kind ↔ fs.IsFolder path' kind := by
  cases kind with
  | file => exact Iff.rfl
  | directory => exact Iff.rfl
  | special => exact Iff.rfl
  | link => exact exists_congr fun _ => isDirectoryAt_congr h

end FileSystem

namespace Source

variable {selection : Glob.Selection} {way way' : List Path}

/-- Two sources are one file, found at one path read from two directories, with the same path below
their roots. The file need not be in sight, but what is known of it is the same. -/
structure Counterparts (fs : FileSystem) (base base' : Path) (source source' : Source) : Prop where
  paths : Path.Counterparts base base' source.path source'.path
  relative_eq : source.relative = source'.relative
  status_eq : fs.status source.path = fs.status source'.path
  together : fs.unlocked.LeadsTogether source.path source'.path

/-- Two outcomes of work on sources are alike, from two directories. -/
abbrev FoundAlike (fs : FileSystem) (base base' : Path) :
    Except Error (List Source) → Except Error (List Source) → Prop :=
  EndAlike (Error.Respelled base base') (List.Forall₂ (Counterparts fs base base'))

/-- Names lead to the same from two roots, and on paths that are short enough to be looked up. -/
structure AgreesAt (fs : FileSystem) (root root' : Path) (names : List FileName) : Prop where
  size_lt : (root.below names).text.utf8ByteSize < pathLimit
  size_lt' : (root'.below names).text.utf8ByteSize < pathLimit
  status_eq : fs.status (root.below names) = fs.status (root'.below names)

theorem AgreesAt.symm (h : AgreesAt fs root root' names) : AgreesAt fs root' root names :=
  ⟨h.size_lt', h.size_lt, h.status_eq.symm⟩

theorem passedOver_congr (h : fs.status path = fs.status path') :
    PassedOver fs path kind ↔ PassedOver fs path' kind := by
  cases kind with
  | file => exact Iff.rfl
  | directory => exact Iff.rfl
  | special => exact Iff.rfl
  | link => rw [PassedOver, PassedOver, h]

/-- What stops a walk at an entry is what the entry and the directories on the way lead to. -/
theorem stops_of_agreesAt (hup : ∀ above, above <+: names → AgreesAt fs root root' above)
    (h : fs.Stops root names kind) : fs.Stops root' names kind := by
  have hhere := (hup names List.prefix_rfl).status_eq
  cases h with
  | loop hlink habove hne hlocation =>
    exact .loop ((FileSystem.isDirectoryAt_congr hhere).1 hlink) habove hne
      ((FileSystem.isDirectoryAt_congr (hup _ habove).status_eq).1 hlocation)
  | broken hlink hfault => exact .broken (hhere.symm.trans hlink) hfault
  | closed hfolder hlisting =>
    have hfolder' := (FileSystem.isFolder_congr hhere).1 hfolder
    rcases FileSystem.listing_congr hhere with hsame | ⟨-, fault, hfault⟩
    · exact .closed hfolder' (hsame.symm.trans hlisting)
    · exact .closed hfolder' hfault

/-! ### Two walks side by side -/

/-- Two walks have come to an entry by the same names, and have found the same on the way. -/
structure SideBySide (fs : FileSystem) (root root' : Path) (way way' : List Path)
    (names : List FileName) (kind : Kind) : Prop where
  normal : ∀ name ∈ names, name.Normal
  onWay : OnWay fs root names way
  onWay' : OnWay fs root' names way'
  comes : fs.Comes root names kind
  comes' : fs.Comes root' names kind
  agreesAt : ∀ above, above <+: names → AgreesAt fs root root' above
  together : kind = .file → fs.unlocked.LeadsTogether (root.below names) (root'.below names)

theorem SideBySide.atRoots (h : AgreesAt fs root root' []) :
    SideBySide fs root root' [] [] [] .directory :=
  ⟨List.forall_mem_nil _, OnWay.nil, OnWay.nil, .start, .start,
    fun _ hup => List.prefix_nil.1 hup ▸ h, fun hfile => by cases hfile⟩

theorem SideBySide.status_eq (h : SideBySide fs root root' way way' names kind) :
    fs.status (root.below names) = fs.status (root'.below names) :=
  (h.agreesAt names List.prefix_rfl).status_eq

theorem SideBySide.stops_iff (h : SideBySide fs root root' way way' names kind) :
    fs.Stops root names kind ↔ fs.Stops root' names kind :=
  ⟨stops_of_agreesAt h.agreesAt, stops_of_agreesAt fun above hup => (h.agreesAt above hup).symm⟩

/-- A file is the same file for both walks. -/
theorem SideBySide.together_of_isFile (h : SideBySide fs root root' way way' names kind)
    (hfile : fs.IsFile (root.below names) kind) :
    fs.unlocked.LeadsTogether (root.below names) (root'.below names) := by
  cases kind with
  | file => exact h.together rfl
  | directory => cases hfile
  | special => cases hfile
  | link =>
    obtain ⟨status, hstatus, -⟩ := hfile
    exact ⟨status, FileSystem.status_unlocked_of_ok hstatus,
      FileSystem.status_unlocked_of_ok (h.status_eq.symm.trans hstatus)⟩

/-- Both walks go on to an entry of a directory that does not stop them. -/
theorem SideBySide.child {e : FileName × Kind} (hfs : fs.WellFormed)
    (h : SideBySide fs root root' way way' names kind)
    (hagrees : ∀ names kind, fs.Comes root names kind → fs.Comes root' names kind →
      AgreesAt fs root root' names)
    (hopen : fs.IsOpenAt (root.below names) location) (hstops : ¬ fs.Stops root names kind)
    (he : e ∈ fs.entriesOf location) :
    SideBySide fs root root' (root.below names :: way) (root'.below names :: way') (names ++ [e.1])
      e.2 := by
  have hopen' := FileSystem.isOpenAt_congr h.status_eq hopen
  have hholds := (FileSystem.mem_entriesOf_iff_holds hopen.1).1 he
  have hcomes : fs.Comes root (names ++ [e.1]) e.2 := .entry h.comes hstops hholds
  have hcomes' : fs.Comes root' (names ++ [e.1]) e.2 :=
    .entry h.comes' (h.stops_iff.not.1 hstops) ((FileSystem.mem_entriesOf_iff_holds hopen'.1).1 he)
  have hhere := hagrees _ _ hcomes hcomes'
  refine ⟨?_, h.onWay.child hopen e.1, h.onWay'.child hopen' e.1, hcomes, hcomes', ?_, ?_⟩
  · rw [List.forall_mem_append, List.forall_mem_singleton]
    exact ⟨h.normal, (hholds.usable hfs).normal⟩
  · intro above habove
    rcases List.prefix_concat_iff.1 habove with rfl | habove
    · exact hhere
    · exact h.agreesAt above habove
  · intro hfile
    have hkind := FileSystem.mem_entriesOf_iff.1 he
    obtain ⟨hsize, hsize', -⟩ := hhere
    rw [Path.below_concat] at hsize hsize' ⊢
    rw [Path.below_concat]
    rw [← FileSystem.kindUnder?_unlocked] at hkind
    exact FileSystem.leadsTogether_child hfs.unlocked hopen.1.unlocked hopen'.1.unlocked
      (FileSystem.barred?_unlocked_of_isDirectoryAt hopen.1.unlocked) hkind (by rw [hfile]; decide)
      hsize hsize'

theorem seen_child {e : FileName × Kind} (hfs : fs.WellFormed) (names : List FileName)
    (hdirectory : fs.IsDirectoryAt (root.below names) location) (he : e ∈ fs.entriesOf location) :
    fs.Seen (root.below (names ++ [e.1])) e.2 := by
  rw [Path.below_concat]
  exact ((FileSystem.mem_entriesOf_iff_holds hdirectory).1 he).seen hfs

theorem foundAlike_go (hfs : fs.WellFormed) (hroots : Path.Counterparts base base' root root')
    (hagrees : ∀ names kind, fs.Comes root names kind → fs.Comes root' names kind →
      AgreesAt fs root root' names)
    (h : SideBySide fs root root' way way' names kind) (hseen : fs.Seen (root.below names) kind)
    (hseen' : fs.Seen (root'.below names) kind) :
    FoundAlike fs base base'
      ((go (take selection root) way (root.below names) kind).on fs).outcome
      ((go (take selection root') way' (root'.below names) kind).on fs).outcome := by
  -- As for one walk, a path grows with every name, and this one can still be looked up.
  induction hn : pathLimit - (root.below names).text.utf8ByteSize using Nat.strongRecOn
    generalizing names way way' kind with
  | ind n ih =>
  rcases isFile_or_passedOver_or_isOpenAt_or_stops fs root names kind with
    hfile | hpassed | ⟨⟨location, hopen⟩, hfolder, hstops⟩ | hstops
  · have hfile' := (FileSystem.isFile_congr h.status_eq).1 hfile
    rw [outcome_go_of_isFile h.normal hfile, outcome_go_of_isFile h.normal hfile']
    refine .ok ?_
    split
    · exact .cons ⟨hroots.below names, rfl, h.status_eq, h.together_of_isFile hfile⟩ .nil
    · exact .nil
  · have hpassed' := (passedOver_congr h.status_eq).1 hpassed
    rw [outcome_go_of_passedOver hseen hpassed, outcome_go_of_passedOver hseen' hpassed']
    exact .ok .nil
  · have hopen' := FileSystem.isOpenAt_congr h.status_eq hopen
    have hfolder' := (FileSystem.isFolder_congr h.status_eq).1 hfolder
    rw [outcome_go_of_isOpenAt h.onWay hopen hfolder hstops,
      outcome_go_of_isOpenAt h.onWay' hopen' hfolder' (h.stops_iff.not.1 hstops)]
    refine EndAlike.map (EndAlike.mapM fun e he => ?_) fun _ _ hfound => List.rel_flatten hfound
    have hless : pathLimit - (root.below (names ++ [e.1])).text.utf8ByteSize < n := by
      have hgrows := Path.size_lt_child (root.below names) e.1
      have hsize := hopen.1.size_lt
      rw [Path.below_concat]
      omega
    exact ih _ hless (h.child hfs hagrees hopen hstops he) (seen_child hfs names hopen.1 he)
      (seen_child hfs names hopen'.1 he) rfl
  · obtain ⟨error, herror⟩ := outcome_go_of_stops h.onWay hseen hstops
    obtain ⟨error', herror'⟩ := outcome_go_of_stops h.onWay' hseen' (h.stops_iff.1 hstops)
    obtain ⟨reason, rfl⟩ := (Walk.yields_go (yields_take selection root)).of_error error herror
    obtain ⟨reason', rfl⟩ := (Walk.yields_go (yields_take selection root')).of_error error' herror'
    rw [herror, herror']
    exact .error (.scan hroots reason reason')

/-- The scan of a directory that can be listed is the walk of its entries. -/
theorem outcome_scan_of_isOpenAt (h : fs.IsOpenAt root location) :
    ((scan selection root).on fs).outcome = List.flatten <$> (fs.entriesOf location).mapM fun e =>
      ((go (take selection root) [root] (root.below [e.1]) e.2).on fs).outcome := by
  have hroot := FileSystem.isDirectory_iff.2 ⟨location, h.1⟩
  obtain ⟨kind, hkind, houtcome⟩ := outcome_scan_of_isDirectory hroot
  have hseen : fs.Seen root kind := Or.inl hkind
  have hfolder : fs.IsFolder root kind := by
    by_contra hnot
    exact hseen.not_isDirectoryAt hnot h.1
  have hstops : ¬ fs.Stops root [] kind := by
    rw [stops_root_iff hroot hseen]
    rintro ⟨fault, hfault⟩
    cases h.listing.symm.trans hfault
  rw [houtcome]
  exact outcome_go_of_isOpenAt OnWay.nil h hfolder hstops

theorem foundAlike_scan_of_isOpenAt (hfs : fs.WellFormed)
    (hroots : Path.Counterparts base base' root root')
    (hagrees : ∀ names kind, fs.Comes root names kind → fs.Comes root' names kind →
      AgreesAt fs root root' names)
    (hopen : fs.IsOpenAt root location) :
    FoundAlike fs base base' ((scan selection root).on fs).outcome
      ((scan selection root').on fs).outcome := by
  have hsides := SideBySide.atRoots (hagrees [] .directory .start .start)
  have hopen' : fs.IsOpenAt root' location :=
    FileSystem.isOpenAt_congr hsides.status_eq hopen
  have hstops : ¬ fs.Stops root [] .directory := by
    intro hstops
    cases hstops with
    | closed _ hlisting => cases hopen.listing.symm.trans hlisting
  rw [outcome_scan_of_isOpenAt hopen, outcome_scan_of_isOpenAt hopen']
  refine EndAlike.map (EndAlike.mapM fun e he => ?_) fun _ _ hfound => List.rel_flatten hfound
  exact foundAlike_go hfs hroots hagrees (hsides.child hfs hagrees hopen hstops he)
    (seen_child hfs [] hopen.1 he) (seen_child hfs [] hopen'.1 he)

/-- Two scans whose roots are one path, read from two spellings of a directory, end alike. -/
theorem foundAlike_scan (hfs : fs.WellFormed) (hroots : Path.Counterparts base base' root root')
    (hagrees : ∀ names kind, fs.Comes root names kind → fs.Comes root' names kind →
      AgreesAt fs root root' names) :
    FoundAlike fs base base' ((scan selection root).on fs).outcome
      ((scan selection root').on fs).outcome := by
  have hstatus : fs.status root = fs.status root' := (hagrees [] .directory .start .start).status_eq
  by_cases h : fs.IsDirectory root
  case neg =>
    have h' : ¬ fs.IsDirectory root' := by
      rintro ⟨status, hstatus', hdirectory⟩
      exact h ⟨status, hstatus.trans hstatus', hdirectory⟩
    rw [outcome_scan_of_not_isDirectory h, outcome_scan_of_not_isDirectory h']
    exact .ok .nil
  case pos =>
  obtain ⟨status, hok, hdirectory⟩ := h
  have h : fs.IsDirectoryAt root status.location := ⟨status, hok, hdirectory, rfl⟩
  rcases h.isOpenAt_or with ⟨hopen, -⟩ | ⟨-, hdenied⟩
  · exact foundAlike_scan_of_isOpenAt hfs hroots hagrees hopen
  · have h' := (FileSystem.isDirectoryAt_congr hstatus).1 h
    have hdenied' : ∃ fault, fs.listing root' = .error fault := by
      rcases FileSystem.listing_congr hstatus with hsame | ⟨-, hfault⟩
      · exact ⟨_, hsame.symm.trans hdenied⟩
      · exact hfault
    obtain ⟨reason, hfailed⟩ := (outcome_scan_eq_error_iff selection hfs
      (FileSystem.isDirectory_iff.2 ⟨_, h⟩)).2 (Or.inl ⟨_, hdenied⟩)
    obtain ⟨reason', hfailed'⟩ := (outcome_scan_eq_error_iff selection hfs
      (FileSystem.isDirectory_iff.2 ⟨_, h'⟩)).2 (Or.inl hdenied')
    rw [hfailed, hfailed']
    exact .error (.scan hroots reason reason')

end Source

end Rebuild
