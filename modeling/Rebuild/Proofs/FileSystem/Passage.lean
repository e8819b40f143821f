import Rebuild.Proofs.FileSystem.Status

/-!
# What a look-up passes

A look-up that comes to something has passed the directories on its way there, since it looks for a
name only in a directory. So if the path of an entry leads to something, the path before its last
name leads to a directory, and that directory has an entry of the name. This turns around what is
known of the entries of a directory.
-/

namespace Rebuild

namespace Path

theorem text_prefix_child (directory : Path) (name : FileName) :
    directory.text.toList <+: (directory.child name).text.toList := by
  rw [child, join, name_isAbsolute, Bool.false_or]
  split
  case isTrue h => simp [of_decide_eq_true h]
  case isFalse =>
    split
    · simp
    · simp [String.append_assoc]

theorem below_text_ne_empty {root : Path} (h : root.text ≠ "") (names : List FileName) :
    (root.below names).text ≠ "" := by
  induction names using List.reverseRecOn with
  | nil => exact h
  | append_singleton names name _ =>
    rw [below_concat]
    exact child_text_ne_empty _ _

end Path

namespace FileSystem

variable {fs : FileSystem} {here place location : Location} {name : FileName} {kind : Kind}
  {entry : Entry} {path directory root : Path} {steps idle : List String} {links : Nat}
  {names more : List FileName} {status : Status}
  {goOn goOn' : Location → List String → Except Fault Location}

/-! ### The directory of an entry -/

/-- A location is a directory, and there is an entry of a name in it. -/
def HasUnder (fs : FileSystem) (location : Location) (name : FileName) : Prop :=
  (∃ modified access, fs.entry? location = some (.directory modified access)) ∧
    ∃ entry, fs.entry? (name :: location) = some entry

theorem hasUnder_of_locateBy (hname : Usable name)
    (h : fs.locateBy .target goOn here [name.text] = .ok place) : fs.HasUnder here name := by
  cases hbarred : fs.barred? here with
  | some fault =>
    rw [locateBy_cons, turn_of_barred hbarred name.ne_empty] at h
    cases h
  | none =>
    rw [locateBy_cons, turn_of_usable hbarred hname] at h
    refine ⟨exists_directory_of_barred?_eq_none hbarred, ?_⟩
    cases hentry : fs.entry? (name :: here) with
    | none => simp [hentry, LookUp.target] at h
    | some entry => exact ⟨entry, rfl⟩

/-- A look-up of an entry that comes to something has come to the entry's directory before. -/
theorem locateBy_front (hidle : ∀ piece ∈ idle, piece = "") (hname : Usable name)
    (hgoOn : ∀ here steps, goOn here (steps ++ [name.text]) = .ok place →
      ∃ location, goOn' here (steps ++ idle) = .ok location ∧ fs.HasUnder location name)
    (h : fs.locateBy .target goOn here (steps ++ [name.text]) = .ok place) :
    ∃ location, fs.locateBy .target goOn' here (steps ++ idle) = .ok location ∧
      fs.HasUnder location name := by
  induction steps generalizing here with
  | nil =>
    rw [List.nil_append] at h
    rw [List.nil_append, locateBy_idle hidle]
    exact ⟨here, rfl, hasUnder_of_locateBy hname h⟩
  | cons piece steps ih =>
    rw [List.cons_append, locateBy_cons] at h ⊢
    cases hturn : fs.turn here piece with
    | goTo next => exact ih (by simpa only [hturn] using h)
    | refuse fault => simp [hturn] at h
    | meet met =>
      simp only [hturn] at h ⊢
      cases hmet : fs.entry? met with
      | none => simp [hmet, LookUp.target] at h
      | some entry =>
        cases entry with
        | directory => exact ih (by simpa only [hmet] using h)
        | file => simp [hmet] at h
        | special => simp [hmet] at h
        | link target =>
          have hpasses : LookUp.target.Passes idle := Or.inr rfl
          have hpassesName : LookUp.target.Passes [name.text] := Or.inr rfl
          simp only [hmet] at h ⊢
          rw [if_neg (hpassesName.not_stops steps), ← List.append_assoc] at h
          rw [if_neg (hpasses.not_stops steps), ← List.append_assoc]
          exact hgoOn _ _ h

theorem locateFrom_front (hidle : ∀ piece ∈ idle, piece = "") (hname : Usable name)
    (h : fs.locateFrom .target links here (steps ++ [name.text]) = .ok place) :
    ∃ location, fs.locateFrom .target links here (steps ++ idle) = .ok location ∧
      fs.HasUnder location name := by
  induction links generalizing here steps with
  | zero => exact locateBy_front hidle hname (fun _ _ h => by cases h) h
  | succ links ih => exact locateBy_front hidle hname (fun _ _ => ih) h

/-- If the path of an entry leads to something, the entry is in its directory. -/
theorem exists_holds_of_status (hname : Usable name) (hdirectory : directory.text ≠ "")
    (h : fs.status (directory.child name) = .ok status) : ∃ kind, fs.Holds directory name kind := by
  obtain ⟨entry, hfind, -⟩ := find_of_status h
  obtain ⟨hnul, -, hsize, hfrom⟩ := locate_eq_ok_iff.1 (find_eq_ok_iff.1 hfind).1
  obtain ⟨steps, idle, hpieces, hidle, hchild⟩ := Path.pieces_child hdirectory name
  rw [hchild, origin, Path.child_isAbsolute hdirectory] at hfrom
  obtain ⟨location, hlocate, ⟨modified, access, hlocation⟩, found, hfound⟩ :=
    locateFrom_front hidle hname hfrom
  have hplace : fs.locate .target directory = .ok location := by
    rw [locate_eq_ok_iff, hpieces]
    exact ⟨fun hmem => hnul ((Path.text_prefix_child directory name).subset hmem), hdirectory,
      Nat.lt_trans (Path.size_lt_child directory name) hsize, hlocate⟩
  refine ⟨found.kind, location,
    isDirectoryAt_iff.2 ⟨modified, access, find_eq_ok_iff.2 ⟨hplace, hlocation⟩⟩, ?_⟩
  rw [kindUnder?, hfound]
  rfl

/-! ### The way to a file -/

/-- A path leads to a regular file. -/
def LeadsToFile (fs : FileSystem) (path : Path) : Prop :=
  ∃ status, fs.status path = .ok status ∧ status.isFile = true

instance : Decidable (fs.LeadsToFile path) :=
  match h : fs.status path with
  | .ok status => decidable_of_iff (status.isFile = true)
      ⟨fun hfile => ⟨status, h, hfile⟩, fun ⟨_, hstatus, hfile⟩ => by
        rwa [Except.ok.inj (h.symm.trans hstatus)]⟩
  | .error _ => isFalse fun ⟨_, hstatus, _⟩ => by cases h.symm.trans hstatus

theorem LeadsToFile.not_isDirectoryAt (h : fs.LeadsToFile path) :
    ¬ fs.IsDirectoryAt path location := by
  rintro ⟨status, hstatus, hdirectory, -⟩
  obtain ⟨status', hstatus', hfile⟩ := h
  rw [Except.ok.inj (hstatus.symm.trans hstatus'), Status.isDirectory_iff,
    Status.isFile_iff.1 hfile] at hdirectory
  cases hdirectory

theorem leadsToFile_of_kind (h : fs.kind path = .ok .file) : fs.LeadsToFile path := by
  obtain ⟨status, hstatus, hkind⟩ := exists_status_of_kind h (by decide)
  exact ⟨status, hstatus, Status.isFile_iff.2 hkind⟩

/-- If names lead from a directory to something, the directory has an entry of the first name. -/
theorem exists_holds_of_status_below (hroot : root.text ≠ "")
    (husable : ∀ next ∈ name :: more, Usable next)
    (h : fs.status (root.below (names ++ name :: more)) = .ok status) :
    ∃ kind, fs.Holds (root.below names) name kind := by
  induction more generalizing names name status with
  | nil =>
    rw [Path.below_concat] at h
    exact exists_holds_of_status (husable name List.mem_cons_self)
      (Path.below_text_ne_empty hroot names) h
  | cons next more ih =>
    obtain ⟨hname, hrest⟩ := List.forall_mem_cons.1 husable
    rw [← List.singleton_append, ← List.append_assoc] at h
    obtain ⟨_, _, ⟨above, habove, -⟩, -⟩ := ih hrest h
    rw [Path.below_concat] at habove
    exact exists_holds_of_status hname (Path.below_text_ne_empty hroot names) habove

/-- What an entry may be from which names lead to a file. Without any name left it is the file
itself, or a link to it. -/
def MayLead (kind : Kind) : List FileName → Prop
  | [] => kind = .file ∨ kind = .link
  | _ :: _ => kind = .directory ∨ kind = .link

theorem exists_holds_of_leadsToFile (hfs : fs.WellFormed) (hroot : root.text ≠ "")
    (husable : ∀ next ∈ name :: more, Usable next)
    (h : fs.LeadsToFile (root.below (names ++ name :: more))) :
    ∃ kind, fs.Holds (root.below names) name kind ∧ MayLead kind more := by
  have ⟨status, hstatus, hfile⟩ := h
  obtain ⟨kind, hholds⟩ := exists_holds_of_status_below hroot husable hstatus
  refine ⟨kind, hholds, ?_⟩
  have hseen := hholds.seen hfs
  rw [← Path.below_concat] at hseen
  by_cases hlink : kind = .link
  · cases more <;> exact Or.inr hlink
  cases more with
  | nil =>
    obtain ⟨status', hstatus', rfl⟩ := exists_status_of_kind (hseen.of_status hstatus) hlink
    rw [Except.ok.inj (hstatus'.symm.trans hstatus)]
    exact Or.inl (Status.isFile_iff.1 hfile)
  | cons next more =>
    rw [← List.singleton_append, ← List.append_assoc] at hstatus
    obtain ⟨_, _, ⟨above, habove, hdirectory, -⟩, -⟩ :=
      exists_holds_of_status_below hroot (List.forall_mem_cons.1 husable).2 hstatus
    obtain ⟨status', hstatus', rfl⟩ := exists_status_of_kind (hseen.of_status habove) hlink
    rw [Except.ok.inj (hstatus'.symm.trans habove)]
    exact Or.inl (Status.isDirectory_iff.1 hdirectory)

end FileSystem

end Rebuild
