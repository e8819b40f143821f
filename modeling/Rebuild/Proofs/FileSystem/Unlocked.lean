import Rebuild.Proofs.FileSystem.Status

/-!
# A file system without locks

What a process may not read or look up is there all the same. To say what it is one takes away what
is withheld: the file system without locks has the same entries, and lets the process do everything.
A look-up that is not denied comes to the same in both. So a status, or a kind, that is told at all
is told right, and what only the file system without locks tells is denied in the other one.
-/

namespace Rebuild.FileSystem

variable {fs : FileSystem} {how : LookUp} {here location : Location} {path : Path} {kind : Kind}
  {status : Status} {fault : Fault} {steps : List String} {piece : String} {links : Nat}
  {goOn goOn' : Location → List String → Except Fault Location}

/-- The entry with nothing withheld. -/
def Entry.unlocked : Entry → Entry
  | file contents modified _ => file contents modified {}
  | directory modified _ => directory modified {}
  | link target => link target
  | special modified => special modified

/-- The file system with nothing withheld. -/
def unlocked (fs : FileSystem) : FileSystem :=
  { fs with entries := fs.entries.map fun row => (row.1, row.2.unlocked) }

theorem Entry.kind_unlocked (entry : Entry) : entry.unlocked.kind = entry.kind := by
  cases entry <;> rfl

/-! ### Entries -/

theorem lookup_map_unlocked (entries : List (Location × Entry)) :
    (entries.map fun row => (row.1, row.2.unlocked)).lookup location
      = (entries.lookup location).map Entry.unlocked := by
  induction entries with
  | nil => rfl
  | cons row rest ih =>
    rw [List.map_cons, List.lookup_cons, List.lookup_cons]
    cases location == row.1 with
    | true => rfl
    | false => exact ih

theorem entry_unlocked :
    fs.unlocked.entry? location = (fs.entry? location).map Entry.unlocked := by
  unfold entry? unlocked
  rw [lookup_map_unlocked]
  cases fs.entries.lookup location with
  | some entry => rfl
  | none =>
    dsimp only [Option.map_none]
    split <;> rfl

theorem kindUnder?_unlocked {name : FileName} :
    fs.unlocked.kindUnder? location name = fs.kindUnder? location name := by
  rw [kindUnder?, kindUnder?, entry_unlocked, Option.map_map]
  congr 1
  funext entry
  exact entry.kind_unlocked

theorem WellFormed.unlocked (hfs : fs.WellFormed) : fs.unlocked.WellFormed where
  usable := by
    intro _ hrow
    obtain ⟨row, hmem, rfl⟩ := List.mem_map.1 hrow
    exact hfs.usable row hmem
  nulFree := by
    intro _ hrow
    obtain ⟨⟨place, entry⟩, hmem, rfl⟩ := List.mem_map.1 hrow
    have hfree := hfs.nulFree _ hmem
    cases entry with
    | link => exact hfree
    | file => exact trivial
    | directory => exact trivial
    | special => exact trivial
  usable_working := hfs.usable_working

/-- Without locks every directory lets the process look. -/
theorem barred?_unlocked_of_isDirectoryAt (h : fs.unlocked.IsDirectoryAt path location) :
    fs.unlocked.barred? location = none := by
  obtain ⟨modified, access, hfind⟩ := isDirectoryAt_iff.1 h
  have hentry := (find_eq_ok_iff.1 hfind).2
  rw [entry_unlocked, Option.map_eq_some_iff] at hentry
  obtain ⟨entry, hentry, hunlocked⟩ := hentry
  cases entry with
  | directory => rw [barred?, entry_unlocked, hentry]; rfl
  | file => cases hunlocked
  | link => cases hunlocked
  | special => cases hunlocked

/-! ### Look-ups -/

theorem barred?_unlocked (fs : FileSystem) (here : Location) :
    fs.barred? here = some .denied ∨ fs.barred? here = fs.unlocked.barred? here := by
  rw [barred?, barred?, entry_unlocked]
  cases fs.entry? here with
  | none => exact Or.inr rfl
  | some entry =>
    cases entry with
    | directory modified access =>
      dsimp only [Option.map_some, Entry.unlocked]
      cases access.search with
      | true => exact Or.inr rfl
      | false => exact Or.inl rfl
    | file => exact Or.inr rfl
    | link => exact Or.inr rfl
    | special => exact Or.inr rfl

theorem turn_unlocked (fs : FileSystem) (here : Location) (piece : String) :
    fs.turn here piece = .refuse .denied ∨ fs.turn here piece = fs.unlocked.turn here piece := by
  by_cases hempty : piece = ""
  · exact Or.inr (by rw [turn_of_empty hempty, turn_of_empty hempty])
  · rcases fs.barred?_unlocked here with hdenied | hsame
    · exact Or.inl (turn_of_barred hdenied hempty)
    · exact Or.inr (by rw [turn, turn, hsame])

theorem locateBy_unlocked
    (hgoOn : ∀ here steps, goOn here steps = .error .denied ∨ goOn here steps = goOn' here steps) :
    fs.locateBy how goOn here steps = .error .denied ∨
      fs.locateBy how goOn here steps = fs.unlocked.locateBy how goOn' here steps := by
  induction steps generalizing here with
  | nil => exact Or.inr (by rw [locateBy, locateBy])
  | cons piece steps ih =>
    rw [locateBy_cons, locateBy_cons]
    rcases fs.turn_unlocked here piece with hdenied | hsame
    · exact Or.inl (by rw [hdenied])
    rw [← hsame]
    cases fs.turn here piece with
    | goTo next => exact ih
    | refuse fault => exact Or.inr rfl
    | meet place =>
      simp only [entry_unlocked]
      cases fs.entry? place with
      | none => exact Or.inr rfl
      | some met =>
        cases met with
        | directory => exact ih
        | file => exact Or.inr rfl
        | special => exact Or.inr rfl
        | link target =>
          dsimp only [Option.map_some, Entry.unlocked]
          split
          · exact Or.inr rfl
          · exact hgoOn _ _

theorem locateFrom_unlocked : fs.locateFrom how links here steps = .error .denied ∨
    fs.locateFrom how links here steps = fs.unlocked.locateFrom how links here steps := by
  induction links generalizing here steps with
  | zero => exact locateBy_unlocked fun _ _ => Or.inr rfl
  | succ links ih => exact locateBy_unlocked fun _ _ => ih

/-- A look-up is denied, or it comes to the same without locks. -/
theorem locate_unlocked (fs : FileSystem) (how : LookUp) (path : Path) :
    fs.locate how path = .error .denied ∨ fs.locate how path = fs.unlocked.locate how path := by
  rw [locate, locate]
  split
  · exact Or.inr rfl
  · split
    · exact Or.inr rfl
    · split
      · exact Or.inr rfl
      · exact locateFrom_unlocked

/-! ### What is known of a path -/

theorem find_unlocked (fs : FileSystem) (how : LookUp) (path : Path) :
    fs.find how path = .error .denied ∨
      fs.unlocked.find how path
        = (fun found => (found.1, found.2.unlocked)) <$> fs.find how path := by
  rcases fs.locate_unlocked how path with hdenied | hsame
  · exact Or.inl (find_of_locate_eq_error hdenied)
  · refine Or.inr ?_
    rw [find, find, ← hsame]
    cases fs.locate how path with
    | error fault => rfl
    | ok location =>
      simp only [ok_bind, entry_unlocked]
      cases fs.entry? location <;> rfl

theorem status_unlocked (fs : FileSystem) (path : Path) :
    fs.status path = .error .denied ∨ fs.status path = fs.unlocked.status path := by
  rcases fs.find_unlocked .target path with hdenied | hsame
  · refine Or.inl ?_
    rw [status, hdenied]
    rfl
  · refine Or.inr ?_
    rw [status, status, hsame]
    cases fs.find .target path with
    | error fault => rfl
    | ok found =>
      obtain ⟨location, entry⟩ := found
      cases entry <;> rfl

theorem status_unlocked_of_ok (h : fs.status path = .ok status) :
    fs.unlocked.status path = .ok status := by
  rcases fs.status_unlocked path with hdenied | hsame
  · cases h.symm.trans hdenied
  · rw [← hsame, h]

theorem kind_unlocked_of_ok (h : fs.kind path = .ok kind) : fs.unlocked.kind path = .ok kind := by
  obtain ⟨location, entry, hfind, rfl⟩ := kind_eq_ok_iff.1 h
  rcases fs.find_unlocked .itself path with hdenied | hsame
  · cases hfind.symm.trans hdenied
  · rw [hfind] at hsame
    exact kind_eq_ok_iff.2 ⟨location, entry.unlocked, hsame, entry.kind_unlocked⟩

theorem IsDirectoryAt.unlocked (h : fs.IsDirectoryAt path location) :
    fs.unlocked.IsDirectoryAt path location := by
  obtain ⟨status, hstatus, hdirectory, hlocation⟩ := h
  exact ⟨status, status_unlocked_of_ok hstatus, hdirectory, hlocation⟩

theorem Holds.unlocked {name : FileName} (h : fs.Holds path name kind) :
    fs.unlocked.Holds path name kind := by
  obtain ⟨location, hlocation, hkind⟩ := h
  exact ⟨location, hlocation.unlocked, by rwa [kindUnder?_unlocked]⟩

end Rebuild.FileSystem
