import Rebuild.Proofs.FileSystem.Entries
import Rebuild.Proofs.Path.Components
import Rebuild.Proofs.Reading

/-!
# Looking up what a directory holds

A look-up takes a turn at each piece of a path: it goes on from where it is or from the directory
above, or meets what is at a place, or refuses the piece. What it does then depends on the entry at
the place only.

A look-up that passes a directory goes on from there as if it had begun there, except that the links
which it has followed are spent. To look up an entry of a directory is to look up the directory, and
then one name in it. So it comes to the entry, unless the directory bars it or the path of the entry
is too long; and only at that last name does it matter whether the entry itself is followed if it is
a link.
-/

namespace Rebuild.FileSystem

variable {fs : FileSystem} {how : LookUp} {here place location : Location} {name : FileName}
  {kind : Kind} {entry : Entry} {fault : Fault} {path directory : Path}
  {steps idle rest : List String} {piece : String} {links : Nat}
  {goOn goOn' : Location → List String → Except Fault Location}

/-- A name that a file system can keep. -/
structure Usable (name : FileName) : Prop where
  ne_here : name.text ≠ "."
  ne_parent : name.text ≠ ".."
  nul_notMem : '\x00' ∉ name.text.toList
  size_le : name.text.utf8ByteSize ≤ nameLimit

/-- What a link says has no NUL in it. -/
def Entry.NulFree : Entry → Prop
  | .link target => '\x00' ∉ target.toList
  | _ => True

instance : DecidablePred Entry.NulFree
  | .link target => inferInstanceAs (Decidable ('\x00' ∉ target.toList))
  | .file .. => isTrue trivial
  | .directory .. => isTrue trivial
  | .special .. => isTrue trivial

/-- The names in the table and the texts of its links are such as a file system can keep. -/
structure WellFormed (fs : FileSystem) : Prop where
  usable : ∀ row ∈ fs.entries, ∀ name ∈ row.1, Usable name
  nulFree : ∀ row ∈ fs.entries, row.2.NulFree
  usable_working : ∀ name ∈ fs.working, Usable name

instance : Decidable (Usable name) :=
  decidable_of_iff (name.text ≠ "." ∧ name.text ≠ ".." ∧ '\x00' ∉ name.text.toList ∧
      name.text.utf8ByteSize ≤ nameLimit)
    ⟨fun ⟨here, parent, nul, size⟩ => ⟨here, parent, nul, size⟩, fun h =>
      ⟨h.ne_here, h.ne_parent, h.nul_notMem, h.size_le⟩⟩

instance : Decidable fs.WellFormed :=
  decidable_of_iff
    ((∀ row ∈ fs.entries, ∀ name ∈ row.1, Usable name) ∧ (∀ row ∈ fs.entries, row.2.NulFree) ∧
      ∀ name ∈ fs.working, Usable name)
    ⟨fun ⟨names, texts, working⟩ => ⟨names, texts, working⟩, fun h =>
      ⟨h.usable, h.nulFree, h.usable_working⟩⟩

theorem WellFormed.usable_of_entry (hfs : fs.WellFormed)
    (h : fs.entry? (name :: location) = some entry) : Usable name :=
  hfs.usable _ (mem_entries_of_some h) name List.mem_cons_self

theorem Usable.normal (h : Usable name) : name.Normal := ⟨h.ne_here, h.ne_parent⟩

/-! ### One piece of a path -/

/-- What a piece of a path asks for where a look-up stands. -/
inductive Turn where
  | goTo (location : Location)
  | refuse (fault : Fault)
  | meet (location : Location)

/-- The turn that a look-up takes at a piece. -/
def turn (fs : FileSystem) (here : Location) (piece : String) : Turn :=
  if piece = "" then .goTo here
  else match fs.barred? here with
  | some fault => .refuse fault
  | none =>
    if piece = "." then .goTo here
    else if piece = ".." then .goTo here.tail
    else if nameLimit < piece.utf8ByteSize then .refuse .nameTooLong
    else match FileName.ofText? piece with
    | none => .refuse .notFound
    | some name => .meet (name :: here)

theorem turn_of_empty (h : piece = "") : fs.turn here piece = .goTo here := if_pos h

theorem turn_of_barred (hbarred : fs.barred? here = some fault) (hpiece : piece ≠ "") :
    fs.turn here piece = .refuse fault := by
  rw [turn, if_neg hpiece, hbarred]

theorem turn_of_usable (hbarred : fs.barred? here = none) (hname : Usable name) :
    fs.turn here name.text = .meet (name :: here) := by
  rw [turn, if_neg name.ne_empty, hbarred]
  dsimp only
  rw [if_neg hname.ne_here, if_neg hname.ne_parent, if_neg (Nat.not_lt.2 hname.size_le),
    hname.normal.ofText?]

/-- A place that is met is a name in a directory that lets the process look. -/
theorem exists_of_turn_eq_meet (h : fs.turn here piece = .meet place) :
    ∃ name, FileName.ofText? piece = some name ∧ place = name :: here ∧
      fs.barred? here = none ∧ piece.utf8ByteSize ≤ nameLimit := by
  unfold turn at h
  split at h
  · cases h
  · split at h
    · cases h
    · rename_i hbarred
      split at h
      · cases h
      · split at h
        · cases h
        · split at h
          · cases h
          · rename_i hsize
            split at h
            · cases h
            · rename_i name hname
              exact ⟨name, hname, (Turn.meet.inj h).symm, hbarred, Nat.not_lt.1 hsize⟩

theorem exists_directory_of_barred?_eq_none (h : fs.barred? location = none) :
    ∃ modified access, fs.entry? location = some (.directory modified access) := by
  rw [barred?] at h
  split at h
  case h_1 modified access hentry => exact ⟨modified, access, hentry⟩
  case h_2 => cases h
  case h_3 => cases h

theorem barred?_of_directory {modified : Time} {access : Access}
    (h : fs.entry? location = some (.directory modified access)) :
    fs.barred? location = if access.search then none else some .denied := by
  rw [barred?, h]

theorem locateBy_cons : fs.locateBy how goOn here (piece :: rest) = match fs.turn here piece with
    | .goTo next => fs.locateBy how goOn next rest
    | .refuse fault => .error fault
    | .meet place => match fs.entry? place with
      | some (.directory ..) => fs.locateBy how goOn place rest
      | some (.link target) =>
        if rest = [] ∧ ¬how.follow then .ok place
        else goOn (if (Path.mk target).isAbsolute then [] else here)
          ((Path.mk target).pieces ++ rest)
      | some _ => if rest = [] then .ok place else .error .notDirectory
      | none => if rest = [] ∧ how.mayBeNew then .ok place else .error .notFound := by
  conv_lhs => unfold locateBy
  unfold turn
  by_cases hempty : piece = ""
  · simp only [if_pos hempty]
  · simp only [if_neg hempty]
    cases fs.barred? here with
    | some fault => rfl
    | none =>
      dsimp only
      split
      · rfl
      · split
        · rfl
        · split
          · rfl
          · cases FileName.ofText? piece <;> rfl

theorem locateBy_idle (hidle : ∀ piece ∈ idle, piece = "") :
    fs.locateBy how goOn here idle = .ok here := by
  induction idle with
  | nil => rw [locateBy]
  | cons piece idle ih =>
    rw [List.forall_mem_cons] at hidle
    rw [locateBy_cons, turn_of_empty hidle.1]
    exact ih hidle.2

/-- A dot stays where a look-up is, if something may be looked up there. -/
theorem locateBy_dot : fs.locateBy how goOn here ("." :: steps) = match fs.barred? here with
    | some fault => .error fault
    | none => fs.locateBy how goOn here steps := by
  rw [locateBy_cons, turn, if_neg (by decide)]
  cases fs.barred? here with
  | some fault => rfl
  | none => simp

theorem locateFrom_congr {from' : Location} {steps' : List String}
    (h : ∀ goOn, fs.locateBy how goOn here steps = fs.locateBy how goOn from' steps') :
    fs.locateFrom how links here steps = fs.locateFrom how links from' steps' := by
  cases links with
  | zero => exact h _
  | succ links => exact h _

theorem locateFrom_of_barred (hbarred : fs.barred? here = some fault) (hpiece : piece ≠ "") :
    fs.locateFrom how links here (piece :: rest) = .error fault := by
  cases links <;> rw [locateFrom, locateBy_cons, turn_of_barred hbarred hpiece]

theorem locateFrom_name (hbarred : fs.barred? here = none) (hname : Usable name)
    (hentry : fs.entry? (name :: here) = some entry) :
    fs.locateFrom .itself links here [name.text] = .ok (name :: here) := by
  have hby : ∀ goOn, fs.locateBy .itself goOn here [name.text] = .ok (name :: here) := by
    intro goOn
    rw [locateBy_cons, turn_of_usable hbarred hname]
    cases entry with
    | file => simp [hentry]
    | directory => simp [hentry, locateBy]
    | link => simp [hentry, LookUp.itself]
    | special => simp [hentry]
  cases links with
  | zero => exact hby _
  | succ links => exact hby _

/-! ### Past a directory -/

/-- A look-up of some kind goes past the pieces before these. -/
def LookUp.Passes (how : LookUp) (rest : List String) : Prop := rest ≠ [] ∨ how.follow = true

theorem LookUp.Passes.not_stops (h : how.Passes rest) (steps : List String) :
    ¬ (steps ++ rest = [] ∧ ¬ how.follow = true) := by
  rintro ⟨hnone, hstops⟩
  exact h.elim (fun hrest => hrest (List.append_eq_nil_iff.1 hnone).2) hstops

/-- A look-up that comes to a directory and is to go on from there either has met no link and stands
there, or goes on as it does for the directory alone from the first link that it meets. -/
theorem locateBy_past {modified : Time} {access : Access} (hidle : ∀ piece ∈ idle, piece = "")
    (hlocation : fs.entry? location = some (.directory modified access))
    (h : fs.locateBy .target goOn here (steps ++ idle) = .ok location) :
    (∀ how goOn' rest, how.Passes rest → fs.locateBy how goOn' here (steps ++ rest)
      = fs.locateBy how goOn' location rest) ∨
    ∃ next left, goOn next (left ++ idle) = .ok location ∧ ∀ how goOn' rest, how.Passes rest →
      fs.locateBy how goOn' here (steps ++ rest) = goOn' next (left ++ rest) := by
  induction steps generalizing here with
  | nil =>
    rw [List.nil_append, locateBy_idle hidle] at h
    rw [Except.ok.inj h]
    exact Or.inl fun _ _ _ _ => rfl
  | cons piece steps ih =>
    rw [List.cons_append, locateBy_cons] at h
    simp only [List.cons_append, locateBy_cons]
    cases hturn : fs.turn here piece with
    | goTo next =>
      simp only [hturn] at h ⊢
      exact ih h
    | refuse fault => simp [hturn] at h
    | meet place =>
      simp only [hturn] at h ⊢
      -- what is no directory and no link ends the look-up at another place
      have hends : fs.entry? place ≠ fs.entry? location →
          (if steps ++ idle = [] then .ok place else .error .notDirectory) ≠
            (.ok location : Except Fault Location) := by
        intro hne hend
        split at hend
        · exact hne (congrArg fs.entry? (Except.ok.inj hend))
        · cases hend
      cases hplace : fs.entry? place with
      | none => simp [hplace, LookUp.target] at h
      | some met =>
        simp only [hplace] at h ⊢
        cases met with
        | directory => exact ih h
        | file => exact absurd h (hends (by simp [hplace, hlocation]))
        | special => exact absurd h (hends (by simp [hplace, hlocation]))
        | link target =>
          have hpasses : LookUp.target.Passes idle := Or.inr rfl
          dsimp only at h ⊢
          rw [if_neg (hpasses.not_stops steps), ← List.append_assoc] at h
          refine Or.inr ⟨_, _, h, fun how goOn' rest hrest => ?_⟩
          rw [if_neg (hrest.not_stops steps), List.append_assoc]

/-- Past a directory a look-up goes on with some number of links left, whatever is still to come. -/
theorem locateFrom_past {modified : Time} {access : Access} (hidle : ∀ piece ∈ idle, piece = "")
    (hlocation : fs.entry? location = some (.directory modified access))
    (h : fs.locateFrom .target links here (steps ++ idle) = .ok location) :
    ∃ left, ∀ how more rest, LookUp.Passes how rest →
      fs.locateFrom how (links + more) here (steps ++ rest)
        = fs.locateFrom how (left + more) location rest := by
  induction links generalizing here steps with
  | zero =>
    rcases locateBy_past hidle hlocation h with hnone | ⟨_, _, hfailed, -⟩
    · exact ⟨0, fun how more rest hrest => locateFrom_congr fun goOn => hnone how goOn rest hrest⟩
    · cases hfailed
  | succ links ih =>
    rcases locateBy_past hidle hlocation h with hnone | ⟨next, steps', hnext, hpast⟩
    · exact ⟨links + 1, fun how more rest hrest =>
        locateFrom_congr fun goOn => hnone how goOn rest hrest⟩
    · obtain ⟨left, hleft⟩ := ih hnext
      refine ⟨left, fun how more rest hrest => ?_⟩
      rw [← hleft how more rest hrest, Nat.add_right_comm]
      exact hpast how _ rest hrest

/-! ### The entry of a directory -/

theorem locate_eq_ok_iff : fs.locate how path = .ok location ↔
    '\x00' ∉ path.text.toList ∧ path.text ≠ "" ∧ path.text.utf8ByteSize < pathLimit ∧
      fs.locateFrom how linkLimit (fs.origin path) path.pieces = .ok location := by
  rw [locate]
  split
  case isTrue hnul => simp [hnul]
  case isFalse hnul =>
  split
  case isTrue hempty => simp [hempty]
  case isFalse hempty =>
  split
  case isTrue hlong => simp [Nat.not_lt.2 hlong]
  case isFalse hlong => simp [hnul, hempty, Nat.not_le.1 hlong]

/-- The look-up of an entry comes to the directory of the entry, and goes on with its name. -/
theorem locate_child {modified : Time} {access : Access}
    (hlocate : fs.locate .target directory = .ok location)
    (hdirectory : fs.entry? location = some (.directory modified access)) (hname : Usable name)
    (hsize : (directory.child name).text.utf8ByteSize < pathLimit) :
    ∃ left, ∀ how, fs.locate how (directory.child name)
      = fs.locateFrom how left location [name.text] := by
  obtain ⟨hnul, hempty, -, hfrom⟩ := locate_eq_ok_iff.1 hlocate
  obtain ⟨steps, idle, hpieces, hidle, hchild⟩ := Path.pieces_child hempty name
  rw [hpieces] at hfrom
  obtain ⟨left, hleft⟩ := locateFrom_past hidle hdirectory hfrom
  refine ⟨left, fun how => ?_⟩
  have hpast := hleft how 0 [name.text] (Or.inl (List.cons_ne_nil _ _))
  rw [locate, if_neg (Path.nul_notMem_child hnul hname.nul_notMem),
    if_neg (Path.child_text_ne_empty directory name), if_neg (Nat.not_le.2 hsize), hchild, origin,
    Path.child_isAbsolute hempty]
  exact hpast

/-! ### Links at the end -/

/-- A look-up that is not to follow a link at the end comes to the same as one that is, unless it
comes to a link. -/
theorem locateBy_itself
    (hgoOn : ∀ here steps, goOn' here steps = goOn here steps ∨
      ∃ place target, goOn' here steps = .ok place ∧ fs.entry? place = some (.link target)) :
    fs.locateBy .itself goOn' here steps = fs.locateBy .target goOn here steps ∨
      ∃ place target, fs.locateBy .itself goOn' here steps = .ok place ∧
        fs.entry? place = some (.link target) := by
  induction steps generalizing here with
  | nil => exact Or.inl (by rw [locateBy, locateBy])
  | cons piece steps ih =>
    rw [locateBy_cons, locateBy_cons]
    cases fs.turn here piece with
    | goTo next => exact ih
    | refuse fault => exact Or.inl rfl
    | meet place =>
      cases hplace : fs.entry? place with
      | none => exact Or.inl (by simp [hplace, LookUp.itself, LookUp.target])
      | some met =>
        cases met with
        | directory => simpa only [hplace] using ih
        | file => exact Or.inl (by simp only [hplace])
        | special => exact Or.inl (by simp only [hplace])
        | link target =>
          by_cases hlast : steps = []
          · exact Or.inr ⟨place, target, by simp [hplace, hlast, LookUp.itself], hplace⟩
          · simpa [hplace, hlast, LookUp.target] using hgoOn _ _

theorem locateFrom_itself :
    fs.locateFrom .itself links here steps = fs.locateFrom .target links here steps ∨
      ∃ place target, fs.locateFrom .itself links here steps = .ok place ∧
        fs.entry? place = some (.link target) := by
  induction links generalizing here steps with
  | zero => exact locateBy_itself fun _ _ => Or.inl rfl
  | succ links ih => exact locateBy_itself fun _ _ => ih

theorem find_eq_ok_iff : fs.find how path = .ok (location, entry) ↔
    fs.locate how path = .ok location ∧ fs.entry? location = some entry := by
  rw [find, bind_eq_ok_iff]
  constructor
  · rintro ⟨found, hlocate, hfound⟩
    cases hentry : fs.entry? found with
    | none => simp [hentry] at hfound
    | some met =>
      simp only [hentry, Except.ok.injEq, Prod.mk.injEq] at hfound
      obtain ⟨rfl, rfl⟩ := hfound
      exact ⟨hlocate, hentry⟩
  · rintro ⟨hlocate, hentry⟩
    exact ⟨location, hlocate, by simp [hentry]⟩

theorem find_of_locate_eq_error (h : fs.locate how path = .error fault) :
    fs.find how path = .error fault := by
  rw [find, h]
  rfl

theorem locate_itself (fs : FileSystem) (path : Path) :
    fs.locate .itself path = fs.locate .target path ∨
    ∃ place target, fs.locate .itself path = .ok place ∧ fs.entry? place = some (.link target) := by
  rw [locate, locate]
  split
  · exact Or.inl rfl
  · split
    · exact Or.inl rfl
    · split
      · exact Or.inl rfl
      · exact locateFrom_itself

theorem exists_find_itself (h : fs.find .target path = .ok (location, entry)) :
    ∃ found, fs.find .itself path = .ok found := by
  obtain ⟨hlocate, hentry⟩ := find_eq_ok_iff.1 h
  rcases locate_itself fs path with hsame | ⟨place, target, hplace, hlink⟩
  · exact ⟨(location, entry), find_eq_ok_iff.2 ⟨hsame.trans hlocate, hentry⟩⟩
  · exact ⟨(place, .link target), find_eq_ok_iff.2 ⟨hplace, hlink⟩⟩

theorem find_target (h : fs.find .itself path = .ok (location, entry))
    (hkind : entry.kind ≠ .link) : fs.find .target path = .ok (location, entry) := by
  obtain ⟨hlocate, hentry⟩ := find_eq_ok_iff.1 h
  rcases locate_itself fs path with hsame | ⟨place, target, hplace, hlink⟩
  · exact find_eq_ok_iff.2 ⟨hsame.symm.trans hlocate, hentry⟩
  · obtain rfl := Except.ok.inj (hlocate.symm.trans hplace)
    obtain rfl := Option.some.inj (hentry.symm.trans hlink)
    exact absurd rfl hkind

end Rebuild.FileSystem
