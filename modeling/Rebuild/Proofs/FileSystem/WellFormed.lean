import Rebuild.FileSystem.Change
import Rebuild.Proofs.FileSystem.Status

/-!
# File systems that build steps make

A look-up comes to no place but one that is made of names which a file system can keep. It reads each
name from a piece of a path and refuses a piece that is too long; and no NUL gets into a name, since
there is none in a path or in the text of a link. So every row that a step adds to the table is at
such a place, and what steps make of an empty file system is well-formed.
-/

namespace Rebuild

theorem Path.nul_notMem_pieces {path : Path} (h : '\x00' ∉ path.text.toList) :
    ∀ piece ∈ path.pieces, '\x00' ∉ piece.toList := by
  intro piece hpiece hnul
  obtain ⟨field, hfield, rfl⟩ := List.mem_map.1 hpiece
  rw [String.toList_ofList] at hnul
  exact h (Text.mem_of_mem_fields hfield hnul)

namespace FileSystem

variable {fs made : FileSystem} {here location : Location} {entry : Entry} {path : Path}
  {steps : List String} {links : Nat} {how : LookUp} {piece : String}
  {goOn : Location → List String → Except Fault Location}

theorem Entry.nulFree_directory (modified : Time) (access : Access) :
    (directory modified access).NulFree := trivial

theorem Entry.nulFree_link_iff {target : String} :
    (link target).NulFree ↔ '\x00' ∉ target.toList := Iff.rfl

/-! ### Look-ups -/

/-- All names of a place are such as a file system can keep. -/
def UsableAt (location : Location) : Prop := ∀ name ∈ location, Usable name

theorem UsableAt.tail (h : UsableAt location) : UsableAt location.tail :=
  fun name hname => h name (List.mem_of_mem_tail hname)

theorem usable_of_ofText? {name : FileName} (h : FileName.ofText? piece = some name)
    (hnul : '\x00' ∉ piece.toList) (hsize : piece.utf8ByteSize ≤ nameLimit) : Usable name := by
  rw [FileName.ofText?] at h
  split at h
  · cases h
  · rename_i hdots
    split at h
    · obtain rfl := Option.some.inj h
      exact ⟨fun hhere => hdots (Or.inl hhere), fun hparent => hdots (Or.inr hparent), hnul, hsize⟩
    · cases h

theorem usableAt_of_goTo {next : Location} (hhere : UsableAt here)
    (h : fs.turn here piece = .goTo next) : UsableAt next := by
  unfold turn at h
  split at h
  · rwa [← Turn.goTo.inj h]
  · split at h
    · cases h
    · split at h
      · rwa [← Turn.goTo.inj h]
      · split at h
        · rw [← Turn.goTo.inj h]
          exact hhere.tail
        · split at h
          · cases h
          · split at h <;> cases h

theorem usableAt_of_meet {place : Location} (hhere : UsableAt here) (hnul : '\x00' ∉ piece.toList)
    (h : fs.turn here piece = .meet place) : UsableAt place := by
  obtain ⟨name, hname, rfl, -, hsize⟩ := exists_of_turn_eq_meet h
  exact List.forall_mem_cons.2 ⟨usable_of_ofText? hname hnul hsize, hhere⟩

theorem WellFormed.nul_notMem_of_link {target : String} (hfs : fs.WellFormed)
    (h : fs.entry? location = some (.link target)) : '\x00' ∉ target.toList := by
  have hrow : (location, .link target) ∈ fs.entries := by
    unfold entry? at h
    split at h
    · rename_i found hfound
      obtain ⟨before, after, hentries, -⟩ := List.lookup_eq_some_iff.1 hfound
      rw [hentries, Option.some.inj h]
      exact List.mem_append_right before List.mem_cons_self
    · split at h <;> cases h
  exact Entry.nulFree_link_iff.1 (hfs.nulFree _ hrow)

/-- How a look-up comes to its end from a piece on: somewhere else, where it stops, in a directory,
or by way of a link. -/
theorem locateBy_cons_eq_ok (h : fs.locateBy how goOn here (piece :: steps) = .ok location) :
    (∃ next, fs.turn here piece = .goTo next ∧ fs.locateBy how goOn next steps = .ok location) ∨
    ∃ place, fs.turn here piece = .meet place ∧
      (location = place ∨ fs.locateBy how goOn place steps = .ok location ∨
        ∃ target, fs.entry? place = some (.link target) ∧
          goOn (if (Path.mk target).isAbsolute then [] else here)
            ((Path.mk target).pieces ++ steps) = .ok location) := by
  rw [locateBy_cons] at h
  split at h
  case h_1 next hturn => exact Or.inl ⟨next, hturn, h⟩
  case h_2 => cases h
  case h_3 place hturn =>
    refine Or.inr ⟨place, hturn, ?_⟩
    split at h
    case h_1 => exact Or.inr (Or.inl h)
    case h_2 target hlink =>
      split at h
      · exact Or.inl (Except.ok.inj h).symm
      · exact Or.inr (Or.inr ⟨target, hlink, h⟩)
    case h_3 =>
      split at h
      · exact Or.inl (Except.ok.inj h).symm
      · cases h
    case h_4 =>
      split at h
      · exact Or.inl (Except.ok.inj h).symm
      · cases h

theorem locateBy_usable (hfs : fs.WellFormed)
    (hgoOn : ∀ here steps, UsableAt here → (∀ piece ∈ steps, '\x00' ∉ piece.toList) →
      ∀ location, goOn here steps = .ok location → UsableAt location)
    (hhere : UsableAt here) (hsteps : ∀ piece ∈ steps, '\x00' ∉ piece.toList)
    (h : fs.locateBy how goOn here steps = .ok location) : UsableAt location := by
  induction steps generalizing here with
  | nil =>
    rw [locateBy] at h
    rwa [← Except.ok.inj h]
  | cons piece rest ih =>
    obtain ⟨hpiece, hrest⟩ := List.forall_mem_cons.1 hsteps
    rcases locateBy_cons_eq_ok h with
      ⟨next, hturn, hnext⟩ | ⟨place, hturn, rfl | hplace | ⟨target, hlink, htarget⟩⟩
    · exact ih (usableAt_of_goTo hhere hturn) hrest hnext
    · exact usableAt_of_meet hhere hpiece hturn
    · exact ih (usableAt_of_meet hhere hpiece hturn) hrest hplace
    · have hpieces : ∀ piece ∈ (Path.mk target).pieces, '\x00' ∉ piece.toList :=
        Path.nul_notMem_pieces (hfs.nul_notMem_of_link hlink)
      refine hgoOn _ _ ?_ (List.forall_mem_append.2 ⟨hpieces, hrest⟩) location htarget
      split
      · exact List.forall_mem_nil _
      · exact hhere

theorem locateFrom_usable (hfs : fs.WellFormed) (hhere : UsableAt here)
    (hsteps : ∀ piece ∈ steps, '\x00' ∉ piece.toList)
    (h : fs.locateFrom how links here steps = .ok location) : UsableAt location := by
  induction links generalizing here steps location with
  | zero => exact locateBy_usable hfs (fun _ _ _ _ _ h => by cases h) hhere hsteps h
  | succ links ih =>
    exact locateBy_usable hfs (fun _ _ hhere hsteps _ => ih hhere hsteps) hhere hsteps h

theorem WellFormed.usableAt_origin (hfs : fs.WellFormed) (path : Path) :
    UsableAt (fs.origin path) := by
  rw [origin]
  split
  · exact List.forall_mem_nil _
  · exact hfs.usable_working

theorem locate_usable (hfs : fs.WellFormed) (h : fs.locate how path = .ok location) :
    UsableAt location := by
  obtain ⟨hnul, -, -, hfrom⟩ := locate_eq_ok_iff.1 h
  exact locateFrom_usable hfs (hfs.usableAt_origin path) (Path.nul_notMem_pieces hnul) hfrom

/-! ### Rows -/

theorem WellFormed.put (hfs : fs.WellFormed) (hplace : UsableAt location)
    (hentry : entry.NulFree) : (fs.put location entry).WellFormed where
  usable := List.forall_mem_cons.2
    ⟨hplace, fun row hrow => hfs.usable row (List.mem_of_mem_filter hrow)⟩
  nulFree := List.forall_mem_cons.2
    ⟨hentry, fun row hrow => hfs.nulFree row (List.mem_of_mem_filter hrow)⟩
  usable_working := hfs.usable_working

theorem WellFormed.date (hfs : fs.WellFormed) (hplace : UsableAt location) :
    (fs.date location).WellFormed := by
  rw [FileSystem.date]
  split
  · exact hfs.put hplace trivial
  · exact hfs

theorem WellFormed.create (hfs : fs.WellFormed) (hplace : UsableAt location)
    (hentry : entry.NulFree) : (fs.create location entry).WellFormed := by
  rw [FileSystem.create]
  split
  · exact hfs.put hplace hentry
  · exact (hfs.put hplace hentry).date hplace.tail

theorem WellFormed.makeDirectories (hfs : fs.WellFormed) (hhere : UsableAt here)
    (hsteps : ∀ piece ∈ steps, '\x00' ∉ piece.toList)
    (h : fs.makeDirectories here steps = .ok made) : made.WellFormed := by
  induction steps generalizing fs here with
  | nil =>
    rw [FileSystem.makeDirectories] at h
    rwa [← Except.ok.inj h]
  | cons piece rest ih =>
    obtain ⟨hpiece, hrest⟩ := List.forall_mem_cons.1 hsteps
    rw [FileSystem.makeDirectories, bind_eq_ok_iff] at h
    obtain ⟨location, hlocate, hmade⟩ := h
    have hlocation := locateFrom_usable hfs hhere (by simpa using hpiece) hlocate
    split at hmade
    · exact ih hfs hlocation hrest hmade
    · cases hmade
    · exact ih (hfs.create hlocation (Entry.nulFree_directory _ _)) hlocation hrest hmade

theorem WellFormed.makePath (hfs : fs.WellFormed) (h : fs.makePath path = .ok made) :
    made.WellFormed := by
  rw [FileSystem.makePath] at h
  split at h
  · cases h
  · rename_i hnul
    exact hfs.makeDirectories (hfs.usableAt_origin path) (Path.nul_notMem_pieces hnul) h

/-! ### Steps -/

theorem wellFormed_empty (now : Time) : (empty now).WellFormed := by
  have hplace : UsableAt [⟨"work", by decide, by decide⟩] :=
    List.forall_mem_singleton.2 ⟨by decide, by decide, by decide, by decide⟩
  refine ⟨List.forall_mem_singleton.2 hplace, List.forall_mem_singleton.2 ?_, hplace⟩
  exact Entry.nulFree_directory now {}

theorem WellFormed.applied {change : Change} (hfs : fs.WellFormed)
    (h : change.applied fs = .ok made) : made.WellFormed := by
  cases change with
  | write path contents modified =>
    rw [Change.applied, bind_eq_ok_iff] at h
    obtain ⟨above, habove, h⟩ := h
    rw [bind_eq_ok_iff] at h
    obtain ⟨location, hlocation, h⟩ := h
    have hfs := hfs.makePath habove
    have hplace := locate_usable hfs hlocation
    split at h
    · cases h
    · rw [← Except.ok.inj h]
      exact hfs.put hplace trivial
    · cases h
    · rw [← Except.ok.inj h]
      exact hfs.create hplace trivial
  | makeDirectory path => exact hfs.makePath h
  | makeLink path target =>
    rw [Change.applied, bind_eq_ok_iff] at h
    obtain ⟨above, habove, h⟩ := h
    rw [bind_eq_ok_iff] at h
    obtain ⟨location, hlocation, h⟩ := h
    have hfs := hfs.makePath habove
    split at h
    · cases h
    · split at h
      · cases h
      · rename_i hnul
        rw [← Except.ok.inj h]
        exact hfs.create (locate_usable hfs hlocation) (Entry.nulFree_link_iff.2 hnul)
  | touch path modified =>
    rw [Change.applied, bind_eq_ok_iff] at h
    obtain ⟨⟨location, entry⟩, hfind, h⟩ := h
    have hplace := locate_usable hfs (find_eq_ok_iff.1 hfind).1
    cases entry with
    | link => cases h
    | file =>
      rw [← Except.ok.inj h]
      exact hfs.put hplace trivial
    | directory =>
      rw [← Except.ok.inj h]
      exact hfs.put hplace trivial
    | special =>
      rw [← Except.ok.inj h]
      exact hfs.put hplace trivial
  | permit path access =>
    rw [Change.applied, bind_eq_ok_iff] at h
    obtain ⟨⟨location, entry⟩, hfind, h⟩ := h
    have hplace := locate_usable hfs (find_eq_ok_iff.1 hfind).1
    cases entry with
    | link => cases h
    | special => cases h
    | file =>
      rw [← Except.ok.inj h]
      exact hfs.put hplace trivial
    | directory =>
      rw [← Except.ok.inj h]
      exact hfs.put hplace trivial
  | remove path =>
    rw [Change.applied, bind_eq_ok_iff] at h
    obtain ⟨location, hlocate, h⟩ := h
    have hplace := locate_usable hfs hlocate
    split at h
    · cases h
    · split at h
      · cases h
      · rw [← Except.ok.inj h]
        refine WellFormed.date ⟨?_, ?_, hfs.usable_working⟩ hplace.tail
        · exact fun row hrow => hfs.usable row (List.mem_of_mem_filter hrow)
        · exact fun row hrow => hfs.nulFree row (List.mem_of_mem_filter hrow)

/-- A build step leaves a file system well-formed. -/
theorem WellFormed.apply (hfs : fs.WellFormed) (change : Change) : (change.apply fs).WellFormed := by
  rw [Change.apply]
  split
  · rename_i made hmade
    exact hfs.applied hmade
  · exact hfs

/-- What build steps make of an empty file system is well-formed. -/
theorem wellFormed_of_changes (now : Time) (changes : List Change) :
    (changes.foldl Change.apply (empty now)).WellFormed := by
  have hkept : ∀ fs : FileSystem, fs.WellFormed → (changes.foldl Change.apply fs).WellFormed := by
    induction changes with
    | nil => exact fun fs hfs => hfs
    | cons change changes ih => exact fun fs hfs => ih _ (hfs.apply change)
  exact hkept _ (wellFormed_empty now)

end FileSystem

end Rebuild
