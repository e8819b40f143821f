import Rebuild.Proofs.FileSystem.LookUp

/-!
# What is known of a path

The status of a path, and the kind of what it names, are read off the entry that a look-up comes to.
A directory is listed just when it may be opened, and its listing is then all that it holds.

What a directory holds is `Seen`: the path of the entry says the same kind as the directory does, or
the look-up is refused, because the directory bars it or the path is too long. It never says that
nothing is there.
-/

namespace Rebuild.FileSystem

variable {fs : FileSystem} {how : LookUp} {location : Location} {name : FileName} {kind : Kind}
  {entry : Entry} {fault : Fault} {path directory : Path}

/-! ### Statuses and kinds -/

theorem Status.isDirectory_iff {status : Status} :
    status.isDirectory = true ↔ status.kind = .directory := beq_iff_eq

theorem Status.isFile_iff {status : Status} : status.isFile = true ↔ status.kind = .file :=
  beq_iff_eq

/-- A path leads to a directory at a location. -/
def IsDirectoryAt (fs : FileSystem) (path : Path) (location : Location) : Prop :=
  ∃ status, fs.status path = .ok status ∧ status.isDirectory = true ∧ status.location = location

/-- A path leads to a directory at a location, and the directory may be read. -/
def IsOpenAt (fs : FileSystem) (path : Path) (location : Location) : Prop :=
  fs.IsDirectoryAt path location ∧ fs.handle path = .ok location

/-- A directory has an entry of a name and a kind. -/
def Holds (fs : FileSystem) (directory : Path) (name : FileName) (kind : Kind) : Prop :=
  ∃ location, fs.IsDirectoryAt directory location ∧ fs.kindUnder? location name = some kind

theorem find_of_status {status : Status} (h : fs.status path = .ok status) :
    ∃ entry, fs.find .target path = .ok (status.location, entry) ∧ entry.kind = status.kind := by
  rw [FileSystem.status, bind_eq_ok_iff] at h
  obtain ⟨⟨location, entry⟩, hfind, hstatus⟩ := h
  cases entry with
  | link target => cases hstatus
  | file contents modified access =>
    obtain rfl := Except.ok.inj hstatus
    exact ⟨_, hfind, rfl⟩
  | directory modified access =>
    obtain rfl := Except.ok.inj hstatus
    exact ⟨_, hfind, rfl⟩
  | special modified =>
    obtain rfl := Except.ok.inj hstatus
    exact ⟨_, hfind, rfl⟩

/-- Something that is no link and that a look-up has found has a status. -/
theorem exists_status_of_find (h : fs.find .target path = .ok (location, entry))
    (hkind : entry.kind ≠ .link) :
    ∃ status, fs.status path = .ok status ∧ status.kind = entry.kind ∧
      status.location = location := by
  rw [FileSystem.status, h]
  cases entry with
  | link target => exact absurd rfl hkind
  | file => exact ⟨_, rfl, rfl, rfl⟩
  | directory => exact ⟨_, rfl, rfl, rfl⟩
  | special => exact ⟨_, rfl, rfl, rfl⟩

theorem isDirectoryAt_iff : fs.IsDirectoryAt path location ↔
    ∃ modified access, fs.find .target path = .ok (location, .directory modified access) := by
  constructor
  · rintro ⟨status, hstatus, hdirectory, rfl⟩
    obtain ⟨entry, hfind, hkind⟩ := find_of_status hstatus
    rw [Status.isDirectory_iff.1 hdirectory] at hkind
    cases entry with
    | directory modified access => exact ⟨modified, access, hfind⟩
    | file => cases hkind
    | link => cases hkind
    | special => cases hkind
  · rintro ⟨modified, access, hfind⟩
    obtain ⟨status, hstatus, hkind, hlocation⟩ := exists_status_of_find hfind Kind.noConfusion
    exact ⟨status, hstatus, Status.isDirectory_iff.2 hkind, hlocation⟩

theorem kind_eq_ok_iff : fs.kind path = .ok kind ↔
    ∃ location entry, fs.find .itself path = .ok (location, entry) ∧ entry.kind = kind := by
  rw [FileSystem.kind, map_eq_ok_iff, Prod.exists]

theorem exists_kind_of_status {status : Status} (h : fs.status path = .ok status) :
    ∃ kind, fs.kind path = .ok kind := by
  obtain ⟨entry, hfind, -⟩ := find_of_status h
  obtain ⟨⟨location, met⟩, hmet⟩ := exists_find_itself hfind
  exact ⟨met.kind, kind_eq_ok_iff.2 ⟨location, met, hmet, rfl⟩⟩

/-- What a path names that is no link is what it leads to. -/
theorem exists_status_of_kind (h : fs.kind path = .ok kind) (hkind : kind ≠ .link) :
    ∃ status, fs.status path = .ok status ∧ status.kind = kind := by
  obtain ⟨location, entry, hfind, rfl⟩ := kind_eq_ok_iff.1 h
  obtain ⟨status, hstatus, hsame, -⟩ := exists_status_of_find (find_target hfind hkind) hkind
  exact ⟨status, hstatus, hsame⟩

theorem exists_isDirectoryAt_of_kind (h : fs.kind path = .ok .directory) :
    ∃ location, fs.IsDirectoryAt path location := by
  obtain ⟨status, hstatus, hkind⟩ := exists_status_of_kind h (by decide)
  exact ⟨status.location, status, hstatus, Status.isDirectory_iff.2 hkind, rfl⟩

theorem not_isDirectoryAt_of_kind (h : fs.kind path = .ok kind) (hlink : kind ≠ .link)
    (hdirectory : kind ≠ .directory) : ¬ fs.IsDirectoryAt path location := by
  rintro ⟨status, hstatus, hkind, -⟩
  obtain ⟨status', hstatus', rfl⟩ := exists_status_of_kind h hlink
  rw [Except.ok.inj (hstatus'.symm.trans hstatus)] at hdirectory
  exact hdirectory (Status.isDirectory_iff.1 hkind)

theorem size_lt_of_find (h : fs.find how path = .ok (location, entry)) :
    path.text.utf8ByteSize < pathLimit :=
  (locate_eq_ok_iff.1 (find_eq_ok_iff.1 h).1).2.2.1

theorem size_lt_of_status {status : Status} (h : fs.status path = .ok status) :
    path.text.utf8ByteSize < pathLimit := by
  obtain ⟨entry, hfind, -⟩ := find_of_status h
  exact size_lt_of_find hfind

theorem IsDirectoryAt.size_lt (h : fs.IsDirectoryAt path location) :
    path.text.utf8ByteSize < pathLimit := by
  obtain ⟨status, hstatus, -⟩ := h
  exact size_lt_of_status hstatus

theorem IsDirectoryAt.unique {other : Location} (h : fs.IsDirectoryAt path location)
    (hother : fs.IsDirectoryAt path other) : location = other := by
  obtain ⟨status, hstatus, -, rfl⟩ := h
  obtain ⟨status', hstatus', -, rfl⟩ := hother
  rw [Except.ok.inj (hstatus.symm.trans hstatus')]

/-! ### Reading a directory -/

/-- A directory can be opened and listed, or it can be neither. -/
theorem IsDirectoryAt.isOpenAt_or (h : fs.IsDirectoryAt path location) :
    fs.IsOpenAt path location ∧ fs.listing path = .ok (fs.entriesOf location) ∨
      fs.handle path = .error .denied ∧ fs.listing path = .error .denied := by
  obtain ⟨modified, access, hfind⟩ := isDirectoryAt_iff.1 h
  cases hread : access.read with
  | true =>
    refine Or.inl ⟨⟨h, ?_⟩, ?_⟩
    · simp only [handle, opened, hfind, ok_bind, Entry.refusal?, hread, if_true]
      rfl
    · simp only [listing, hfind, ok_bind, hread, if_true]
  | false =>
    refine Or.inr ⟨?_, ?_⟩
    · simp only [handle, opened, hfind, ok_bind, Entry.refusal?, hread, Bool.false_eq_true,
        if_false]
      rfl
    · simp only [listing, hfind, ok_bind, hread, Bool.false_eq_true, if_false]

theorem IsOpenAt.listing (h : fs.IsOpenAt path location) :
    fs.listing path = .ok (fs.entriesOf location) := by
  rcases h.1.isOpenAt_or with ⟨-, hlisting⟩ | ⟨hhandle, -⟩
  · exact hlisting
  · cases h.2.symm.trans hhandle

/-- A directory that is not listed is there for all that is said. -/
theorem IsDirectoryAt.ne_notFound_of_listing (h : fs.IsDirectoryAt path location)
    (hlisting : fs.listing path = .error fault) : fault ≠ .notFound := by
  rcases h.isOpenAt_or with ⟨-, hok⟩ | ⟨-, hdenied⟩
  · cases hok.symm.trans hlisting
  · rw [Except.error.inj (hlisting.symm.trans hdenied)]
    decide

/-- What cannot be looked up cannot be listed. -/
theorem exists_listing_of_status_eq_error (h : fs.status path = .error fault) :
    ∃ other, fs.listing path = .error other ∧ (other = fault ∨ other = .notDirectory) := by
  rw [status] at h
  rw [listing]
  cases hfind : fs.find .target path with
  | error other =>
    rw [hfind] at h
    exact ⟨other, rfl, Or.inl (Except.error.inj h)⟩
  | ok found =>
    obtain ⟨location, entry⟩ := found
    rw [hfind] at h
    cases entry with
    | link target => exact ⟨.notDirectory, rfl, Or.inr rfl⟩
    | file => cases h
    | directory => cases h
    | special => cases h

/-- A directory that is read has the entries that it has. -/
theorem exists_isOpenAt_of_listing {entries : List (FileName × Kind)}
    (h : fs.listing path = .ok entries) :
    ∃ location, fs.IsOpenAt path location ∧ entries = fs.entriesOf location := by
  have hdirectory : ∃ location, fs.IsDirectoryAt path location := by
    rw [FileSystem.listing, bind_eq_ok_iff] at h
    obtain ⟨⟨location, entry⟩, hfind, h⟩ := h
    cases entry with
    | directory modified access =>
      exact ⟨location, isDirectoryAt_iff.2 ⟨modified, access, hfind⟩⟩
    | file => cases h
    | link => cases h
    | special => cases h
  obtain ⟨location, hlocation⟩ := hdirectory
  rcases hlocation.isOpenAt_or with ⟨hopen, hlisting⟩ | ⟨-, hlisting⟩
  · exact ⟨location, hopen, Except.ok.inj (h.symm.trans hlisting)⟩
  · cases h.symm.trans hlisting

/-- The entries of a directory are what the directory holds. -/
theorem mem_entriesOf_iff_holds (h : fs.IsDirectoryAt directory location) :
    (name, kind) ∈ fs.entriesOf location ↔ fs.Holds directory name kind := by
  rw [mem_entriesOf_iff]
  constructor
  · exact fun hkind => ⟨location, h, hkind⟩
  · rintro ⟨other, hother, hkind⟩
    rwa [h.unique hother]

theorem mem_iff_of_listing {entries : List (FileName × Kind)}
    (h : fs.listing path = .ok entries) :
    (name, kind) ∈ entries ↔ fs.Holds path name kind := by
  obtain ⟨location, hopen, rfl⟩ := exists_isOpenAt_of_listing h
  exact mem_entriesOf_iff_holds hopen.1

/-! ### What a directory says of its entries -/

theorem Holds.usable (hfs : fs.WellFormed) (h : fs.Holds path name kind) : Usable name := by
  obtain ⟨location, -, hkind⟩ := h
  obtain ⟨entry, hentry, -⟩ := Option.map_eq_some_iff.1 hkind
  exact hfs.usable_of_entry hentry

/-- A path names an entry of a kind, or it is refused for another reason than that nothing is there.
-/
def Seen (fs : FileSystem) (path : Path) (kind : Kind) : Prop :=
  fs.kind path = .ok kind ∨ ∃ fault, fault ≠ .notFound ∧ fs.status path = .error fault

theorem Seen.of_status {status : Status} (h : fs.Seen path kind)
    (hstatus : fs.status path = .ok status) : fs.kind path = .ok kind := by
  rcases h with hkind | ⟨fault, -, hfault⟩
  · exact hkind
  · cases hstatus.symm.trans hfault

theorem Seen.of_notFound (h : fs.Seen path kind) (hstatus : fs.status path = .error .notFound) :
    fs.kind path = .ok kind := by
  rcases h with hkind | ⟨fault, hne, hfault⟩
  · exact hkind
  · exact absurd (Except.error.inj (hfault.symm.trans hstatus)) hne

/-- An entry that a directory has is found, if the directory lets the process look and the path is
not too long. -/
theorem find_child (hfs : fs.WellFormed) (hdirectory : fs.IsDirectoryAt directory location)
    (hbarred : fs.barred? location = none) (hentry : fs.entry? (name :: location) = some entry)
    (hsize : (directory.child name).text.utf8ByteSize < pathLimit) :
    fs.find .itself (directory.child name) = .ok (name :: location, entry) := by
  obtain ⟨modified, access, hfind⟩ := isDirectoryAt_iff.1 hdirectory
  obtain ⟨hlocate, hlocation⟩ := find_eq_ok_iff.1 hfind
  have hname := hfs.usable_of_entry hentry
  obtain ⟨left, hleft⟩ := locate_child hlocate hlocation hname hsize
  exact find_eq_ok_iff.2 ⟨(hleft .itself).trans (locateFrom_name hbarred hname hentry), hentry⟩

/-- So its kind is what the directory says. -/
theorem kind_child (hfs : fs.WellFormed) (hdirectory : fs.IsDirectoryAt directory location)
    (hbarred : fs.barred? location = none) (hkind : fs.kindUnder? location name = some kind)
    (hsize : (directory.child name).text.utf8ByteSize < pathLimit) :
    fs.kind (directory.child name) = .ok kind := by
  obtain ⟨entry, hentry, hkind⟩ := Option.map_eq_some_iff.1 hkind
  exact kind_eq_ok_iff.2 ⟨_, entry, find_child hfs hdirectory hbarred hentry hsize, hkind⟩

theorem status_of_locate_eq_error (h : fs.locate .target path = .error fault) :
    fs.status path = .error fault := by
  rw [status, find_of_locate_eq_error h]
  rfl

theorem Holds.seen (hfs : fs.WellFormed) (h : fs.Holds directory name kind) :
    fs.Seen (directory.child name) kind := by
  have hname := h.usable hfs
  obtain ⟨location, hdirectory, hkind⟩ := h
  obtain ⟨modified, access, hfind⟩ := isDirectoryAt_iff.1 hdirectory
  obtain ⟨hlocate, hlocation⟩ := find_eq_ok_iff.1 hfind
  by_cases hsize : (directory.child name).text.utf8ByteSize < pathLimit
  · cases hbarred : fs.barred? location with
    | none => exact Or.inl (kind_child hfs hdirectory hbarred hkind hsize)
    | some fault =>
      have hdenied : fault = .denied := by
        rw [barred?_of_directory hlocation] at hbarred
        split at hbarred
        · cases hbarred
        · exact (Option.some.inj hbarred).symm
      obtain ⟨left, hleft⟩ := locate_child hlocate hlocation hname hsize
      refine Or.inr ⟨fault, by rw [hdenied]; decide, status_of_locate_eq_error ?_⟩
      rw [hleft, locateFrom_of_barred hbarred name.ne_empty]
  · obtain ⟨hnul, -⟩ := locate_eq_ok_iff.1 hlocate
    refine Or.inr ⟨.nameTooLong, by decide, status_of_locate_eq_error ?_⟩
    rw [locate, if_neg (Path.nul_notMem_child hnul hname.nul_notMem),
      if_neg (Path.child_text_ne_empty directory name), if_pos (Nat.not_lt.1 hsize)]

end Rebuild.FileSystem
