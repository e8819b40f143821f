import Rebuild.Proofs.Sources.Step

/-!
# All of a walk

A walk that comes to its end has found every source at and below the entry that it started from, and
has met nothing there that stops it; a walk that fails has met something that does. Both are shown at
once, by what one step does and by induction on the room that is left for longer paths: links may
lead in circles, but every name makes the path longer, and a directory is only entered while its
path can be looked up.

The sources come in the order of the names that lead to them. So none comes twice.
-/

namespace Rebuild

open FileSystem (Kind Status Fault pathLimit)
open Walk (OnWay go)

namespace Source

variable {fs : FileSystem} {selection : Glob.Selection} {root path : Path} {way : List Path}
  {names : List FileName} {kind : Kind} {files : List Source} {location : Location}

/-- Names lead to a source that the patterns select. -/
def Found (fs : FileSystem) (selection : Glob.Selection) (root : Path) (source : Source)
    (names : List FileName) (kind : Kind) : Prop :=
  fs.IsFile (root.below names) kind ∧ selection.selects (FileName.joined names) = true ∧
    along root names = source

/-- Two sources whose ways part at a name, the first by the lesser one. -/
def Before (root : Path) (a b : Source) : Prop :=
  ∃ common x y, ∃ xs ys : List FileName, a = along root (common ++ x :: xs) ∧
    b = along root (common ++ y :: ys) ∧ compare x.text y.text = .lt

/-- What a walk that comes to its end has found. -/
structure Walked (fs : FileSystem) (selection : Glob.Selection) (root : Path)
    (names : List FileName) (kind : Kind) (files : List Source) : Prop where
  clear : ¬ fs.AtOrBelow root (fs.Stops root) names kind
  mem_iff : ∀ source,
    source ∈ files ↔ fs.AtOrBelow root (Found fs selection root source) names kind
  ordered : files.Pairwise (Before root)

/-- A walk that comes to its end has found what there is to find, and one that fails has met
something that stops it. -/
structure Accounted (fs : FileSystem) (selection : Glob.Selection) (root : Path)
    (names : List FileName) (kind : Kind) (outcome : Except Error (List Source)) : Prop where
  walked : ∀ files, outcome = .ok files → Walked fs selection root names kind files
  stopped : ∀ error, outcome = .error error → fs.AtOrBelow root (fs.Stops root) names kind

theorem Walked.accounted (h : Walked fs selection root names kind files) :
    Accounted fs selection root names kind (.ok files) where
  walked _ hfiles := Except.ok.inj hfiles ▸ h
  stopped _ herror := by cases herror

theorem PassedOver.not_isFolder (h : PassedOver fs path kind) : ¬ fs.IsFolder path kind := by
  intro hfolder
  cases kind with
  | file => exact h
  | directory => exact h
  | special => exact hfolder
  | link =>
    obtain ⟨location, status, hstatus, hdirectory, -⟩ := hfolder
    rcases h with hnone | ⟨status', hstatus', -, hfalse⟩
    · cases hnone.symm.trans hstatus
    · rw [Except.ok.inj (hstatus'.symm.trans hstatus), hdirectory] at hfalse
      cases hfalse

theorem PassedOver.not_isFile (h : PassedOver fs path kind) : ¬ fs.IsFile path kind := by
  intro hfile
  cases kind with
  | file => exact h
  | directory => exact h
  | special => exact hfile
  | link =>
    obtain ⟨status, hstatus, htrue⟩ := hfile
    rcases h with hnone | ⟨status', hstatus', hfalse, -⟩
    · cases hnone.symm.trans hstatus
    · rw [Except.ok.inj (hstatus'.symm.trans hstatus), htrue] at hfalse
      cases hfalse

/-- An entry is a file, or is passed over, or is entered, or stops the scan. -/
theorem isFile_or_passedOver_or_isOpenAt_or_stops (fs : FileSystem) (root : Path)
    (names : List FileName) (kind : Kind) :
    fs.IsFile (root.below names) kind ∨ PassedOver fs (root.below names) kind ∨
      ((∃ location, fs.IsOpenAt (root.below names) location) ∧
        fs.IsFolder (root.below names) kind ∧ ¬ fs.Stops root names kind) ∨
      fs.Stops root names kind := by
  by_cases hstops : fs.Stops root names kind
  · exact Or.inr (Or.inr (Or.inr hstops))
  have hopen : fs.IsFolder (root.below names) kind →
      ∃ location, fs.IsOpenAt (root.below names) location := by
    intro hfolder
    cases hlisting : fs.listing (root.below names) with
    | error fault => exact absurd (.closed hfolder hlisting) hstops
    | ok entries =>
      obtain ⟨location, hlocation, -⟩ := FileSystem.exists_isOpenAt_of_listing hlisting
      exact ⟨location, hlocation⟩
  cases kind with
  | file => exact Or.inl trivial
  | special => exact Or.inr (Or.inl trivial)
  | directory => exact Or.inr (Or.inr (Or.inl ⟨hopen trivial, trivial, hstops⟩))
  | link =>
    cases hstatus : fs.status (root.below names) with
    | error fault =>
      by_cases hfault : fault = .notFound
      · exact Or.inr (Or.inl (Or.inl (by rw [hstatus, hfault])))
      · exact absurd (.broken hstatus hfault) hstops
    | ok status =>
      cases hfile : status.isFile with
      | true => exact Or.inl ⟨status, hstatus, hfile⟩
      | false =>
        cases hdirectory : status.isDirectory with
        | false => exact Or.inr (Or.inl (Or.inr ⟨status, hstatus, hfile, hdirectory⟩))
        | true =>
          have hfolder : fs.IsFolder (root.below names) .link :=
            ⟨status.location, status, hstatus, hdirectory, rfl⟩
          exact Or.inr (Or.inr (Or.inl ⟨hopen hfolder, hfolder, hstops⟩))

theorem not_stops_of_isFile (h : fs.IsFile (root.below names) kind) :
    ¬ fs.Stops root names kind := by
  intro hstops
  rcases hstops.isFolder_or_broken with hfolder | ⟨rfl, fault, -, hfault⟩
  · exact h.not_isFolder hfolder
  · obtain ⟨status, hstatus, -⟩ := h
    cases hfault.symm.trans hstatus

theorem PassedOver.not_stops (h : PassedOver fs (root.below names) kind) :
    ¬ fs.Stops root names kind := by
  intro hstops
  rcases hstops.isFolder_or_broken with hfolder | ⟨rfl, fault, hne, hfault⟩
  · exact h.not_isFolder hfolder
  · rcases h with hnone | ⟨status, hstatus, -⟩
    · exact hne (Except.error.inj (hfault.symm.trans hnone))
    · cases hfault.symm.trans hstatus

theorem walked_of_isFile (hseen : fs.Seen (root.below names) kind)
    (h : fs.IsFile (root.below names) kind) :
    Walked fs selection root names kind
      (if selection.selects (FileName.joined names) then [along root names] else []) := by
  have hnone : ∀ location, ¬ fs.IsDirectoryAt (root.below names) location := fun _ =>
    hseen.not_isDirectoryAt h.not_isFolder
  refine ⟨?_, ?_, ?_⟩
  · rw [FileSystem.atOrBelow_iff_of_not_isDirectoryAt hnone]
    exact not_stops_of_isFile h
  · intro source
    rw [FileSystem.atOrBelow_iff_of_not_isDirectoryAt hnone, Found, and_iff_right h]
    split
    case isTrue hselects => rw [and_iff_right hselects, List.mem_singleton, eq_comm]
    case isFalse hselects => simp [hselects]
  · split
    · exact List.pairwise_singleton _ _
    · exact List.Pairwise.nil

theorem walked_of_passedOver (hseen : fs.Seen (root.below names) kind)
    (h : PassedOver fs (root.below names) kind) : Walked fs selection root names kind [] := by
  have hnone : ∀ location, ¬ fs.IsDirectoryAt (root.below names) location := fun _ =>
    hseen.not_isDirectoryAt h.not_isFolder
  refine ⟨?_, ?_, List.Pairwise.nil⟩
  · rw [FileSystem.atOrBelow_iff_of_not_isDirectoryAt hnone]
    exact h.not_stops
  · intro source
    rw [FileSystem.atOrBelow_iff_of_not_isDirectoryAt hnone]
    exact iff_of_false List.not_mem_nil fun hfound => h.not_isFile hfound.1

theorem before_of_mem {a b : FileName × Kind} {x y : Source} {xs ys : List Source}
    (hlt : compare a.1.text b.1.text = .lt)
    (hxs : Walked fs selection root (names ++ [a.1]) a.2 xs) (hx : x ∈ xs)
    (hys : Walked fs selection root (names ++ [b.1]) b.2 ys) (hy : y ∈ ys) : Before root x y := by
  obtain ⟨more, _, -, -, rfl⟩ := ((hxs.mem_iff x).1 hx).exists_append
  obtain ⟨more', _, -, -, rfl⟩ := ((hys.mem_iff y).1 hy).exists_append
  refine ⟨names, a.1, b.1, more, more', ?_, ?_, hlt⟩
  · rw [List.append_assoc, List.singleton_append]
  · rw [List.append_assoc, List.singleton_append]

theorem walked_of_isDirectoryAt {found : List (List Source)}
    {step : FileName × Kind → Except Error (List Source)} (hseen : fs.Seen (root.below names) kind)
    (hdirectory : fs.IsDirectoryAt (root.below names) location) (hstops : ¬ fs.Stops root names kind)
    (hstep : ∀ e ∈ fs.entriesOf location, Accounted fs selection root (names ++ [e.1]) e.2 (step e))
    (hfound : (fs.entriesOf location).mapM step = .ok found) :
    Walked fs selection root names kind found.flatten := by
  have hfile : ∀ source, ¬ Found fs selection root source names kind := fun _ h =>
    hseen.not_isDirectoryAt h.1.not_isFolder hdirectory
  refine ⟨?_, ?_, ?_⟩
  · rw [FileSystem.atOrBelow_iff_of_isDirectoryAt hdirectory]
    rintro (hhere | ⟨e, he, hbelow⟩)
    · exact hstops hhere
    · obtain ⟨files, -, hfiles⟩ := exists_of_mem_of_mapM hfound he
      exact ((hstep e he).walked files hfiles).clear hbelow
  · intro source
    rw [FileSystem.atOrBelow_iff_of_isDirectoryAt hdirectory, or_iff_right (hfile source),
      List.mem_flatten]
    constructor
    · rintro ⟨files, hfiles, hsource⟩
      obtain ⟨e, he, hfiles⟩ := (mem_iff_of_mapM hfound).1 hfiles
      exact ⟨e, he, (((hstep e he).walked files hfiles).mem_iff source).1 hsource⟩
    · rintro ⟨e, he, hbelow⟩
      obtain ⟨files, hmem, hfiles⟩ := exists_of_mem_of_mapM hfound he
      exact ⟨files, hmem, (((hstep e he).walked files hfiles).mem_iff source).2 hbelow⟩
  · rw [List.pairwise_flatten]
    constructor
    · intro files hfiles
      obtain ⟨e, he, hfiles⟩ := (mem_iff_of_mapM hfound).1 hfiles
      exact ((hstep e he).walked files hfiles).ordered
    · refine pairwise_of_mapM hfound (fs.byName_entriesOf location) ?_
      intro a ha b hb hlt xs ys hxs hys x hx y hy
      exact before_of_mem hlt ((hstep a ha).walked xs hxs) hx ((hstep b hb).walked ys hys) hy

/-- The walk of a directory is put together from the walks of its entries. -/
theorem accounted_of_isDirectoryAt
    {step : FileName × Kind → Except Error (List Source)} (hseen : fs.Seen (root.below names) kind)
    (hdirectory : fs.IsDirectoryAt (root.below names) location) (hstops : ¬ fs.Stops root names kind)
    (hstep : ∀ e ∈ fs.entriesOf location, Accounted fs selection root (names ++ [e.1]) e.2 (step e)) :
    Accounted fs selection root names kind (List.flatten <$> (fs.entriesOf location).mapM step) := by
  cases hfound : (fs.entriesOf location).mapM step with
  | ok found => exact (walked_of_isDirectoryAt hseen hdirectory hstops hstep hfound).accounted
  | error error =>
    obtain ⟨e, he, herror⟩ := exists_of_mapM_eq_error hfound
    refine ⟨fun files h => (by cases h), fun _ _ => ?_⟩
    rw [FileSystem.atOrBelow_iff_of_isDirectoryAt hdirectory]
    exact Or.inr ⟨e, he, (hstep e he).stopped error herror⟩

theorem accounted_go (hfs : fs.WellFormed) (hnames : ∀ name ∈ names, name.Normal)
    (hway : OnWay fs root names way) (hseen : fs.Seen (root.below names) kind) :
    Accounted fs selection root names kind
      ((go (take selection root) way (root.below names) kind).on fs).outcome := by
  -- A path grows with every name, and a directory whose path is too long is not listed.
  induction hn : pathLimit - (root.below names).text.utf8ByteSize using Nat.strongRecOn
    generalizing names way kind with
  | ind n ih =>
  rcases isFile_or_passedOver_or_isOpenAt_or_stops fs root names kind with
    hfile | hpassed | ⟨⟨location, hopen⟩, hfolder, hstops⟩ | hstops
  · rw [outcome_go_of_isFile hnames hfile]
    exact (walked_of_isFile hseen hfile).accounted
  · rw [outcome_go_of_passedOver hseen hpassed]
    exact (walked_of_passedOver hseen hpassed).accounted
  · rw [outcome_go_of_isOpenAt hway hopen hfolder hstops]
    refine accounted_of_isDirectoryAt hseen hopen.1 hstops fun e he => ?_
    have hholds := (FileSystem.mem_entriesOf_iff_holds hopen.1).1 he
    have hless : pathLimit - (root.below (names ++ [e.1])).text.utf8ByteSize < n := by
      have hgrows := Path.size_lt_child (root.below names) e.1
      have hsize := hopen.1.size_lt
      rw [Path.below_concat]
      omega
    have hnames' : ∀ name ∈ names ++ [e.1], name.Normal := by
      rw [List.forall_mem_append, List.forall_mem_singleton]
      exact ⟨hnames, (hholds.usable hfs).normal⟩
    have hchild : fs.Seen (root.below (names ++ [e.1])) e.2 := by
      rw [Path.below_concat]
      exact hholds.seen hfs
    exact ih _ hless hnames' (hway.child hopen e.1) hchild rfl
  · refine ⟨fun files h => ?_, fun _ _ => Or.inl hstops⟩
    obtain ⟨error, herror⟩ := outcome_go_of_stops hway hseen hstops
    cases herror.symm.trans h

end Source

end Rebuild
