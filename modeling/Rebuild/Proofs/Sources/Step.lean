import Rebuild.Proofs.FileSystem.Reach
import Rebuild.Proofs.Walk
import Rebuild.Sources

/-!
# One step of a scan

What a scan does at an entry is settled by what the entry is. A file is taken if the patterns select
its path below the root, which is the names that lead to it. A link to nothing is passed over, and so
is what is neither file nor directory. A directory, or a link to one, is entered, unless it cannot be
listed or the link leads back. Every failure that is not a link to nothing ends the scan, as a failed
scan of its root.
-/

namespace Rebuild

open FileSystem (Kind Status Fault pathLimit)
open Walk (OnWay Yields follow go)

namespace Source

variable {fs : FileSystem} {selection : Glob.Selection} {root path : Path} {way : List Path}
  {names : List FileName} {kind : Kind} {status : Status} {fault : Fault} {location : Location}
  {failure : Walk.Failure}

/-! ### What is taken -/

/-- The source that names lead to. -/
def along (root : Path) (names : List FileName) : Source :=
  ⟨root.below names, FileName.joined names⟩

theorem take_of_ne (h : kind ≠ .file) : take selection root (.entry path kind) = pure [] := by
  cases kind with
  | file => exact absurd rfl h
  | directory => rfl
  | link => rfl
  | special => rfl

/-- The path of a file below the root is found again from the two paths. -/
theorem take_file (hnames : ∀ name ∈ names, name.Normal) :
    take selection root (.entry (root.below names) .file) =
      pure (if selection.selects (FileName.joined names) then [along root names] else []) := by
  rw [take, Path.stepsAfter?_below hnames]
  dsimp only
  rw [Path.slashedSteps_names]
  rfl

theorem outcome_danglingLink?_of_link (hkind : fs.kind path = .ok .link) :
    ((danglingLink? (.io (some path) .notFound)).on fs).outcome = .ok (some path) := by
  rw [danglingLink?, Reading.outcome_look_bind, FileSystem.answer, hkind]
  rfl

theorem outcome_danglingLink?_of_ne (h : ∀ path, failure ≠ .io (some path) .notFound) :
    ((danglingLink? failure).on fs).outcome = .ok none := by
  unfold danglingLink?
  split
  case h_1 path => exact absurd rfl (h path)
  case h_2 => rfl

theorem exists_outcome_danglingLink? (fs : FileSystem) (failure : Walk.Failure) :
    ∃ found, ((danglingLink? failure).on fs).outcome = .ok found := by
  unfold danglingLink?
  split
  case h_1 path =>
    rw [Reading.outcome_look_bind]
    split <;> exact ⟨_, rfl⟩
  case h_2 => exact ⟨_, rfl⟩

theorem outcome_take_of_dangling (hkind : fs.kind path = .ok .link) :
    ((take selection root (.failed (.io (some path) .notFound))).on fs).outcome = .ok [] := by
  rw [take, Reading.outcome_bind, outcome_danglingLink?_of_link hkind]
  rfl

theorem outcome_take_of_failure (h : ∀ path, failure ≠ .io (some path) .notFound) :
    ((take selection root (.failed failure)).on fs).outcome
      = .error (.scan root failure.message) := by
  rw [take, Reading.outcome_bind, outcome_danglingLink?_of_ne h]
  rfl

/-- A failed scan of a root. -/
def ScanFailed (root : Path) (error : Error) : Prop := ∃ reason, error = .scan root reason

/-- Whatever a scan comes to, it fails only as a scan of its root, and takes only what the patterns
select. -/
theorem yields_take (selection : Glob.Selection) (root : Path) (item : Walk.Item) :
    Yields (ScanFailed root) (fun source => selection.selects source.relative = true)
      ((take selection root item).on fs).outcome := by
  unfold take
  split
  case h_1 failure =>
    obtain ⟨found, hfound⟩ := exists_outcome_danglingLink? fs failure
    rw [Reading.outcome_bind, hfound, ok_bind]
    cases found with
    | none => exact .error ⟨_, rfl⟩
    | some path => exact .ok (List.forall_mem_nil _)
  case h_2 path =>
    split
    case h_1 => exact .error ⟨_, rfl⟩
    case h_2 steps _ =>
      refine .ok fun source hsource => ?_
      split at hsource
      case isTrue hselects =>
        rw [List.mem_singleton.1 hsource]
        exact hselects
      case isFalse => cases hsource
  case h_3 => exact .ok (List.forall_mem_nil _)

/-! ### One step -/

/-- An entry is neither file nor directory, or a link that leads to such an entry or nowhere. -/
def PassedOver (fs : FileSystem) (path : Path) : Kind → Prop
  | .special => True
  | .link => fs.status path = .error .notFound ∨
    ∃ status, fs.status path = .ok status ∧ status.isFile = false ∧ status.isDirectory = false
  | _ => False

theorem outcome_go_of_isFile (hnames : ∀ name ∈ names, name.Normal)
    (h : fs.IsFile (root.below names) kind) :
    ((go (take selection root) way (root.below names) kind).on fs).outcome =
      .ok (if selection.selects (FileName.joined names) then [along root names] else []) := by
  have hfollow : ((follow way (root.below names) kind).on fs).outcome = .ok (.ok .file) := by
    cases kind with
    | file => rfl
    | directory => cases h
    | special => cases h
    | link =>
      obtain ⟨status, hstatus, hfile⟩ := h
      have hkind := FileSystem.Status.isFile_iff.1 hfile
      rw [Walk.outcome_follow_of_status hstatus (by rw [Status.isDirectory, hkind]; rfl), hkind]
  rw [Walk.outcome_go_of_ne_directory hfollow (by decide), take_file hnames]
  rfl

theorem outcome_go_of_passedOver (hseen : fs.Seen path kind) (h : PassedOver fs path kind) :
    ((go (take selection root) way path kind).on fs).outcome = .ok [] := by
  cases kind with
  | file => cases h
  | directory => cases h
  | special =>
    rw [Walk.outcome_go_of_ne_directory (Walk.outcome_follow_of_ne (by decide)) (by decide)]
    rw [take_of_ne (by decide)]
    rfl
  | link =>
    rcases h with hstatus | ⟨status, hstatus, hfile, hdirectory⟩
    · rw [Walk.outcome_go_of_failure (Walk.outcome_follow_of_error hstatus)]
      exact outcome_take_of_dangling (hseen.of_notFound hstatus)
    · have hne : status.kind ≠ .directory := fun hkind => by
        rw [FileSystem.Status.isDirectory_iff.2 hkind] at hdirectory
        cases hdirectory
      rw [Walk.outcome_go_of_ne_directory (Walk.outcome_follow_of_status hstatus hdirectory) hne]
      have hne' : status.kind ≠ .file := fun hkind => by
        rw [FileSystem.Status.isFile_iff.2 hkind] at hfile
        cases hfile
      rw [take_of_ne hne']
      rfl

theorem outcome_go_of_isOpenAt (hway : OnWay fs root names way)
    (hopen : fs.IsOpenAt (root.below names) location) (hfolder : fs.IsFolder (root.below names) kind)
    (hstops : ¬ fs.Stops root names kind) :
    ((go (take selection root) way (root.below names) kind).on fs).outcome =
      List.flatten <$> (fs.entriesOf location).mapM fun e =>
        ((go (take selection root) (root.below names :: way) (root.below (names ++ [e.1])) e.2).on
          fs).outcome := by
  have hfollow : ((follow way (root.below names) kind).on fs).outcome = .ok (.ok .directory) := by
    cases kind with
    | file => cases hfolder
    | special => cases hfolder
    | directory => rfl
    | link =>
      exact Walk.outcome_follow_of_isOpenAt hway hopen fun above hup hne habove =>
        hstops (.loop hopen.1 hup hne habove)
  simp only [Path.below_concat]
  rw [Walk.outcome_go_of_directory hfollow, take_of_ne (by decide), Reading.outcome_pure, ok_bind,
    hopen.listing]
  rfl

/-- A directory that cannot be listed is there for all that is said of it. -/
theorem ne_notFound_of_isFolder (hseen : fs.Seen path kind) (hfolder : fs.IsFolder path kind)
    (hlisting : fs.listing path = .error fault) : fault ≠ .notFound := by
  have hdirectory : (∃ location, fs.IsDirectoryAt path location) ∨
      ∃ other, other ≠ .notFound ∧ fs.status path = .error other := by
    cases kind with
    | file => cases hfolder
    | special => cases hfolder
    | link => exact Or.inl hfolder
    | directory => exact hseen.imp_left FileSystem.exists_isDirectoryAt_of_kind
  rcases hdirectory with ⟨location, hlocation⟩ | ⟨other, hne, hstatus⟩
  · exact hlocation.ne_notFound_of_listing hlisting
  · obtain ⟨found, hfound, hcases⟩ := FileSystem.exists_listing_of_status_eq_error hstatus
    obtain rfl := Except.error.inj (hfound.symm.trans hlisting)
    rcases hcases with rfl | rfl
    · exact hne
    · decide

/-- What stops a scan at an entry makes it fail there. -/
theorem outcome_go_of_stops (hway : OnWay fs root names way)
    (hseen : fs.Seen (root.below names) kind) (h : fs.Stops root names kind) :
    ∃ error, ((go (take selection root) way (root.below names) kind).on fs).outcome
      = .error error := by
  have hfails : ∀ failure : Walk.Failure, (∀ path, failure ≠ .io (some path) .notFound) →
      ((follow way (root.below names) kind).on fs).outcome = .ok (.error failure) →
      ∃ error, ((go (take selection root) way (root.below names) kind).on fs).outcome
        = .error error := by
    intro failure hne hfollow
    rw [Walk.outcome_go_of_failure hfollow, outcome_take_of_failure hne]
    exact ⟨_, rfl⟩
  cases h with
  | loop hlink hup hne habove =>
    obtain ⟨failure, hfollow, hfailure⟩ :=
      Walk.exists_outcome_follow_of_back hway hlink hup hne habove
    exact hfails failure hfailure hfollow
  | broken hlink hfault =>
    refine hfails _ (fun path h => hfault ?_) (Walk.outcome_follow_of_error hlink)
    cases h
    rfl
  | @closed _ fault hfolder hlisting =>
    have hfault := ne_notFound_of_isFolder hseen hfolder hlisting
    cases kind with
    | file => cases hfolder
    | special => cases hfolder
    | directory =>
      rw [Walk.outcome_go_of_directory (Walk.outcome_follow_of_ne (by decide)),
        take_of_ne (by decide), Reading.outcome_pure, ok_bind, hlisting]
      dsimp only
      rw [outcome_take_of_failure fun path h => hfault (by cases h; rfl)]
      exact ⟨_, rfl⟩
    | link =>
      obtain ⟨location, hlocation⟩ := hfolder
      rcases hlocation.isOpenAt_or with ⟨-, hok⟩ | ⟨hdenied, -⟩
      · cases hok.symm.trans hlisting
      · exact hfails _ (fun path h => by cases h) (Walk.outcome_follow_of_denied hlocation hdenied)

end Source

end Rebuild
