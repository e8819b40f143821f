import Rebuild.Proofs.FileSystem.Status

/-!
# One place in several spellings

Past a directory a look-up goes on as if it had begun there, except that the links which it has
followed are spent. So a relative path leads to the same place from every spelling of a directory,
from the root or from where the process stands, as long as no look-up comes to a limit: how long the
path may be, and how many links may be followed, is decided by what is written as a whole. The
directory without a spelling is the one where the process stands; a path that is joined to it stays
as it is, and only if nothing at all is written there is nothing to look up.

Two paths with the same steps lead to the same place too, if they lead anywhere: they differ in
pieces that are no steps, and where such a piece makes a difference, which is after a file, the
look-up fails.
-/

namespace Rebuild

/-- A directory in a spelling that can be looked up: the working directory is the dot. -/
def Path.orHere (path : Path) : Path := if path.text = "" then ⟨"."⟩ else path

namespace FileSystem

variable {fs : FileSystem} {how : LookUp} {here location location' : Location}
  {path other base base' : Path} {steps steps' : List String} {links : Nat} {status status' : Status}
  {goOn goOn' : Location → List String → Except Fault Location}

/-! ### Limits -/

/-- The look-up of a path does not come to a limit: the path is short enough, and if more links
could be followed it would end in the same way. -/
structure WithinLimits (fs : FileSystem) (path : Path) : Prop where
  size_lt : path.text.utf8ByteSize < pathLimit
  links_suffice : ∀ more, fs.locateFrom .target (linkLimit + more) (fs.origin path) path.pieces
    = fs.locateFrom .target linkLimit (fs.origin path) path.pieces

theorem locateBy_of_links_suffice
    (hgoOn : ∀ here steps, goOn here steps ≠ .error .tooManyLinks →
      goOn' here steps = goOn here steps)
    (h : fs.locateBy how goOn here steps ≠ .error .tooManyLinks) :
    fs.locateBy how goOn' here steps = fs.locateBy how goOn here steps := by
  induction steps generalizing here with
  | nil => rw [locateBy, locateBy]
  | cons piece steps ih =>
    rw [locateBy_cons] at h ⊢
    rw [locateBy_cons]
    cases hturn : fs.turn here piece with
    | goTo next =>
      simp only [hturn] at h
      exact ih h
    | refuse fault => rfl
    | meet place =>
      simp only [hturn] at h
      cases hplace : fs.entry? place with
      | none => simp only [hplace]
      | some met =>
        simp only [hplace] at h
        cases met with
        | directory =>
          simp only [hplace]
          exact ih h
        | file => simp only [hplace]
        | special => simp only [hplace]
        | link target =>
          simp only [hplace]
          dsimp only at h
          split
          case isTrue => rfl
          case isFalse hfollow =>
            rw [if_neg hfollow] at h
            exact hgoOn _ _ h

/-- A look-up that does not fail for want of links does not need more of them. -/
theorem locateFrom_add (h : fs.locateFrom how links here steps ≠ .error .tooManyLinks)
    (more : Nat) :
    fs.locateFrom how (links + more) here steps = fs.locateFrom how links here steps := by
  induction links generalizing here steps with
  | zero =>
    cases more with
    | zero => rfl
    | succ more =>
      rw [Nat.zero_add]
      exact locateBy_of_links_suffice (fun _ _ hne => absurd rfl hne) h
  | succ links ih =>
    rw [Nat.add_right_comm]
    exact locateBy_of_links_suffice (fun _ _ => ih) h

/-- A path is short enough, and its look-up does not fail for want of links. -/
def ClearOfLimits (fs : FileSystem) (path : Path) : Prop :=
  path.text.utf8ByteSize < pathLimit ∧
    fs.locateFrom .target linkLimit (fs.origin path) path.pieces ≠ .error .tooManyLinks

instance : Decidable (fs.ClearOfLimits path) := inferInstanceAs (Decidable (_ ∧ _))

theorem ClearOfLimits.withinLimits (h : fs.ClearOfLimits path) : fs.WithinLimits path :=
  ⟨h.1, locateFrom_add h.2⟩

/-! ### From a directory -/

theorem origin_of_relative (h : path.isAbsolute = false) : fs.origin path = fs.working := by
  rw [origin, h, if_neg Bool.false_ne_true]

/-- Where the dot is looked up, the process stands. -/
theorem eq_working_of_dot
    (h : fs.locateFrom how links (fs.origin ⟨"."⟩) (Path.pieces ⟨"."⟩) = .ok location) :
    fs.working = location := by
  have hpieces : Path.pieces ⟨"."⟩ = ["."] := by decide
  have hby : ∀ goOn, fs.locateBy how goOn fs.working ["."] = .ok location →
      fs.working = location := by
    intro goOn hgoOn
    rw [locateBy_dot, locateBy] at hgoOn
    split at hgoOn
    · cases hgoOn
    · exact Except.ok.inj hgoOn
  rw [hpieces, origin_of_relative (by decide)] at h
  cases links with
  | zero => exact hby _ h
  | succ links => exact hby _ h

/-- From a spelling of a directory the look-up of a relative path goes on at the directory, with
some number of links left that is the same for all such paths. -/
theorem exists_links_left (hbase : fs.IsDirectoryAt base.orHere location) :
    ∃ left, ∀ path more, path.isAbsolute = false →
      fs.locateFrom .target (linkLimit + more) (fs.origin (base.join path)) (base.join path).pieces
        = fs.locateFrom .target (left + more) location path.pieces := by
  obtain ⟨modified, access, hfind⟩ := isDirectoryAt_iff.1 hbase
  obtain ⟨hlocate, hlocation⟩ := find_eq_ok_iff.1 hfind
  obtain ⟨-, -, -, hfrom⟩ := locate_eq_ok_iff.1 hlocate
  by_cases hempty : base.text = ""
  · rw [Path.orHere, if_pos hempty] at hfrom
    obtain rfl := eq_working_of_dot hfrom
    refine ⟨linkLimit, fun path more hpath => ?_⟩
    rw [Path.join_of_empty hempty, origin_of_relative hpath]
  · rw [Path.orHere, if_neg hempty] at hfrom
    obtain ⟨steps, idle, -, hpieces, hidle, hjoin⟩ := Path.pieces_join hempty
    rw [hpieces] at hfrom
    obtain ⟨left, hleft⟩ := locateFrom_past hidle hlocation hfrom
    refine ⟨left, fun path more hpath => ?_⟩
    rw [hjoin path hpath, origin, Path.join_isAbsolute hempty hpath]
    exact hleft .target more path.pieces (Or.inr rfl)

theorem nul_mem_join_iff (hbase : fs.IsDirectoryAt base.orHere location)
    (hpath : path.isAbsolute = false) :
    '\x00' ∈ (base.join path).text.toList ↔ '\x00' ∈ path.text.toList := by
  by_cases hempty : base.text = ""
  · rw [Path.join_of_empty hempty]
  · obtain ⟨modified, access, hfind⟩ := isDirectoryAt_iff.1 hbase
    obtain ⟨hnul, -⟩ := locate_eq_ok_iff.1 (find_eq_ok_iff.1 hfind).1
    rw [Path.orHere, if_neg hempty] at hnul
    rw [Path.text_join hempty hpath]
    split
    · simp [hnul]
    · simp [hnul]

/-- One path, joined to two spellings of a directory, leads to the same. -/
theorem status_join (hbase : fs.IsDirectoryAt base.orHere location)
    (hbase' : fs.IsDirectoryAt base'.orHere location)
    (hne : (base.join path).text ≠ "") (hne' : (base'.join path).text ≠ "")
    (h : fs.WithinLimits (base.join path)) (h' : fs.WithinLimits (base'.join path)) :
    fs.status (base.join path) = fs.status (base'.join path) := by
  by_cases hpath : path.isAbsolute = true
  · rw [Path.join_of_absolute hpath, Path.join_of_absolute hpath]
  rw [Bool.not_eq_true] at hpath
  obtain ⟨left, hleft⟩ := exists_links_left hbase
  obtain ⟨left', hleft'⟩ := exists_links_left hbase'
  -- With the links added that the other spelling leaves, both look-ups have the same number left.
  have hfrom : fs.locateFrom .target linkLimit (fs.origin (base.join path)) (base.join path).pieces
      = fs.locateFrom .target linkLimit (fs.origin (base'.join path)) (base'.join path).pieces := by
    rw [← h.links_suffice left', ← h'.links_suffice left, hleft path left' hpath,
      hleft' path left hpath, Nat.add_comm]
  have hlocate : fs.locate .target (base.join path) = fs.locate .target (base'.join path) := by
    rw [locate, locate, if_neg hne, if_neg hne', if_neg (Nat.not_le.2 h.size_lt),
      if_neg (Nat.not_le.2 h'.size_lt)]
    have hnul := (nul_mem_join_iff hbase hpath).trans (nul_mem_join_iff hbase' hpath).symm
    exact if_congr hnul rfl hfrom
  rw [status, status, find, find, hlocate]

/-! ### Pieces that are no steps -/

/-- Some of the pieces that are no steps are left out. -/
inductive DropsIdle : List String → List String → Prop
  | nil : DropsIdle [] []
  | keep (piece : String) {steps rest : List String} (h : DropsIdle steps rest) :
    DropsIdle (piece :: steps) (piece :: rest)
  | drop {piece : String} {steps rest : List String} (hidle : piece = "" ∨ piece = ".")
    (h : DropsIdle steps rest) : DropsIdle (piece :: steps) rest

theorem DropsIdle.append_left (h : DropsIdle steps steps') (before : List String) :
    DropsIdle (before ++ steps) (before ++ steps') := by
  induction before with
  | nil => exact h
  | cons piece before ih => exact ih.keep piece

theorem dropsIdle_filter (steps : List String) :
    DropsIdle steps (steps.filter fun piece => piece ≠ "" ∧ piece ≠ ".") := by
  induction steps with
  | nil => exact .nil
  | cons piece steps ih =>
    by_cases hidle : piece = "" ∨ piece = "."
    · rw [List.filter_cons_of_neg (by simpa [or_iff_not_imp_left] using hidle)]
      exact ih.drop hidle
    · rw [List.filter_cons_of_pos (by simpa using hidle)]
      exact ih.keep piece

/-- A look-up that comes to something comes to the same without pieces that are no steps. -/
theorem locateBy_of_dropsIdle (hdrop : DropsIdle steps steps')
    (hgoOn : ∀ here steps steps', DropsIdle steps steps' → goOn here steps = .ok location →
      goOn' here steps' = .ok location)
    (h : fs.locateBy .target goOn here steps = .ok location) :
    fs.locateBy .target goOn' here steps' = .ok location := by
  induction hdrop generalizing here with
  | nil => rwa [locateBy] at h ⊢
  | drop hidle _ ih =>
    rcases hidle with hempty | rfl
    · rw [locateBy_cons, turn_of_empty hempty] at h
      exact ih h
    · rw [locateBy_dot] at h
      split at h
      · cases h
      · exact ih h
  | @keep piece steps rest hdrop ih =>
    rw [locateBy_cons] at h ⊢
    cases hturn : fs.turn here piece with
    | goTo next =>
      simp only [hturn] at h ⊢
      exact ih h
    | refuse fault => simp [hturn] at h
    | meet place =>
      simp only [hturn] at h ⊢
      cases hplace : fs.entry? place with
      | none => simp [hplace, LookUp.target] at h
      | some met =>
        simp only [hplace] at h ⊢
        cases met with
        | directory => exact ih h
        | file | special =>
          dsimp only at h ⊢
          split at h
          case isTrue hlast =>
            subst hlast
            cases hdrop
            exact h
          case isFalse => cases h
        | link target =>
          simp only [LookUp.target, not_true_eq_false, and_false, if_false] at h ⊢
          exact hgoOn _ _ _ (hdrop.append_left _) h

theorem locateFrom_of_dropsIdle (hdrop : DropsIdle steps steps')
    (h : fs.locateFrom .target links here steps = .ok location) :
    fs.locateFrom .target links here steps' = .ok location := by
  induction links generalizing here steps steps' with
  | zero => exact locateBy_of_dropsIdle hdrop (fun _ _ _ _ h => by cases h) h
  | succ links ih => exact locateBy_of_dropsIdle hdrop (fun _ _ _ => ih) h

/-! ### Paths that lead together -/

/-- Two paths lead to one file or directory. -/
def LeadsTogether (fs : FileSystem) (path other : Path) : Prop :=
  ∃ status, fs.status path = .ok status ∧ fs.status other = .ok status

instance : Decidable (fs.LeadsTogether path other) :=
  match h : fs.status path with
  | .ok status => decidable_of_iff ((fs.status other).toOption = some status) <| by
      constructor
      · exact fun hother => ⟨status, h, eq_ok_of_toOption hother⟩
      · rintro ⟨found, hfound, hother⟩
        rw [hother, Except.ok.inj (h.symm.trans hfound)]
        rfl
  | .error _ => isFalse fun ⟨_, hstatus, _⟩ => by cases h.symm.trans hstatus

instance : Decidable (fs.IsDirectoryAt path location) :=
  match h : fs.status path with
  | .ok status => decidable_of_iff (status.isDirectory = true ∧ status.location = location)
      ⟨fun hdirectory => ⟨status, h, hdirectory⟩, fun ⟨_, hstatus, hdirectory⟩ => by
        rwa [Except.ok.inj (h.symm.trans hstatus)]⟩
  | .error _ => isFalse fun ⟨_, hstatus, _⟩ => by cases h.symm.trans hstatus

theorem LeadsTogether.symm (h : fs.LeadsTogether path other) : fs.LeadsTogether other path := by
  obtain ⟨status, hpath, hother⟩ := h
  exact ⟨status, hother, hpath⟩

theorem LeadsTogether.find_eq (h : fs.LeadsTogether path other) :
    fs.find .target path = fs.find .target other := by
  obtain ⟨status, hpath, hother⟩ := h
  obtain ⟨entry, hfind, -⟩ := find_of_status hpath
  obtain ⟨entry', hfind', -⟩ := find_of_status hother
  have hentry := (find_eq_ok_iff.1 hfind).2.symm.trans (find_eq_ok_iff.1 hfind').2
  rw [hfind, hfind', Option.some.inj hentry]

theorem LeadsTogether.text_eq (h : fs.LeadsTogether path other) : fs.text path = fs.text other := by
  rw [text, text, opened, opened, h.find_eq]

/-- What a directory says is no link is the same below every spelling of the directory. -/
theorem leadsTogether_child {directory directory' : Path} {name : FileName} {kind : Kind}
    (hfs : fs.WellFormed) (hdirectory : fs.IsDirectoryAt directory location)
    (hdirectory' : fs.IsDirectoryAt directory' location) (hbarred : fs.barred? location = none)
    (hkind : fs.kindUnder? location name = some kind) (hne : kind ≠ .link)
    (hsize : (directory.child name).text.utf8ByteSize < pathLimit)
    (hsize' : (directory'.child name).text.utf8ByteSize < pathLimit) :
    fs.LeadsTogether (directory.child name) (directory'.child name) := by
  obtain ⟨entry, hentry, rfl⟩ := Option.map_eq_some_iff.1 hkind
  have hfind := find_target (find_child hfs hdirectory hbarred hentry hsize) hne
  have hfind' := find_target (find_child hfs hdirectory' hbarred hentry hsize') hne
  obtain ⟨status, hstatus, -⟩ := exists_status_of_find hfind hne
  refine ⟨status, hstatus, ?_⟩
  rw [← hstatus, FileSystem.status, FileSystem.status, hfind, hfind']

/-- Paths of which the same is known are listed alike. -/
theorem listing_congr (h : fs.status path = fs.status other) : fs.listing path = fs.listing other ∨
    (∃ fault, fs.listing path = .error fault) ∧ ∃ fault, fs.listing other = .error fault := by
  cases hstatus : fs.status path with
  | ok status =>
    have htogether : fs.LeadsTogether path other := ⟨status, hstatus, h ▸ hstatus⟩
    exact Or.inl (by rw [listing, listing, htogether.find_eq])
  | error fault =>
    obtain ⟨first, hfirst, -⟩ := exists_listing_of_status_eq_error hstatus
    obtain ⟨second, hsecond, -⟩ := exists_listing_of_status_eq_error (h ▸ hstatus)
    exact Or.inr ⟨⟨first, hfirst⟩, second, hsecond⟩

theorem location_eq_of_same (hsame : path.Same other) (h : fs.locate .target path = .ok location)
    (hother : fs.locate .target other = .ok location') : location = location' := by
  obtain ⟨-, -, -, hfrom⟩ := locate_eq_ok_iff.1 h
  obtain ⟨-, -, -, hfrom'⟩ := locate_eq_ok_iff.1 hother
  have hpath := locateFrom_of_dropsIdle (dropsIdle_filter path.pieces) hfrom
  have hother := locateFrom_of_dropsIdle (dropsIdle_filter other.pieces) hfrom'
  rw [Path.filter_pieces, origin, hsame, hsame.isAbsolute_eq, ← Path.filter_pieces] at hpath
  exact Except.ok.inj (hpath.symm.trans hother)

/-- Paths with the same steps lead together, if both of them lead anywhere. -/
theorem leadsTogether_of_same (hsame : path.Same other) (h : fs.status path = .ok status)
    (hother : fs.status other = .ok status') : fs.LeadsTogether path other := by
  obtain ⟨entry, hfind, -⟩ := find_of_status h
  obtain ⟨entry', hfind', -⟩ := find_of_status hother
  obtain ⟨hlocate, hentry⟩ := find_eq_ok_iff.1 hfind
  obtain ⟨hlocate', hentry'⟩ := find_eq_ok_iff.1 hfind'
  have hlocation := location_eq_of_same hsame hlocate hlocate'
  rw [← hlocation, hentry] at hentry'
  have hfinds : fs.find .target other = fs.find .target path := by
    rw [hfind, hfind', hlocation, Option.some.inj hentry']
  refine ⟨status, h, ?_⟩
  rw [← h, FileSystem.status, FileSystem.status, hfinds]

end FileSystem

end Rebuild
