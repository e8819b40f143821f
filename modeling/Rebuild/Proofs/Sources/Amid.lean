import Rebuild.Proofs.FileSystem.Passage
import Rebuild.Proofs.FileSystem.Unlocked
import Rebuild.Proofs.Reading.Amid
import Rebuild.Proofs.Sources.Scan

/-!
# Two walks past one file

While others change the file system, two walks of one root need not find the same. But they both find
a file that the changes spare, whatever else is changed: names that led the first walk to it lead to
it still, since a look-up that comes to the file has passed every directory on the way. So the second
walk sees in each of them the entry that it has to take, and cannot take it for something else.

What a walk does at an entry is settled by what it sees there, at some moment before it goes on. The
first walk is followed down by the room that is left for longer paths, the second one along the names
that the first has found. The first walk takes what a directory says is a file, which may be in a
directory that does not let the process look: what it finds is a file without locks. For the second
walk the file must be in sight.
-/

namespace Rebuild

open FileSystem (Fault Kind Usable pathLimit)
open Reading (ComesTo Within)
open Walk (checkLoop follow go)

namespace FileSystem

variable {fs : FileSystem} {path : Path} {roots : List Path}

/-- A change spares a path if it leaves a file there where one is, and in sight if it was, in a file
system as it can be. If the path is also one of the roots, it does not put a file there either. -/
structure Spares (roots : List Path) (path : Path) (fs later : FileSystem) : Prop where
  wellFormed : fs.WellFormed → later.WellFormed
  kept : fs.unlocked.LeadsToFile path → later.unlocked.LeadsToFile path
  inSight : fs.LeadsToFile path → later.LeadsToFile path
  noNewRoot : path ∈ roots → later.unlocked.LeadsToFile path → fs.unlocked.LeadsToFile path

instance (later : FileSystem) : Decidable (Spares roots path fs later) :=
  decidable_of_iff ((fs.WellFormed → later.WellFormed) ∧
      (fs.unlocked.LeadsToFile path → later.unlocked.LeadsToFile path) ∧
      (fs.LeadsToFile path → later.LeadsToFile path) ∧
      (path ∈ roots → later.unlocked.LeadsToFile path → fs.unlocked.LeadsToFile path))
    ⟨fun ⟨wellFormed, kept, inSight, noNewRoot⟩ => ⟨wellFormed, kept, inSight, noNewRoot⟩, fun h =>
      ⟨h.wellFormed, h.kept, h.inSight, h.noNewRoot⟩⟩

theorem LeadsToFile.of_unlocked {status : Status} (h : fs.unlocked.LeadsToFile path)
    (hstatus : fs.status path = .ok status) : fs.LeadsToFile path := by
  obtain ⟨status', hstatus', hfile⟩ := h
  obtain rfl := Except.ok.inj ((status_unlocked_of_ok hstatus).symm.trans hstatus')
  exact ⟨status, hstatus, hfile⟩

theorem Spares.trans {mid later : FileSystem} (h : Spares roots path fs mid)
    (h' : Spares roots path mid later) : Spares roots path fs later where
  wellFormed hfs := h'.wellFormed (h.wellFormed hfs)
  kept hfile := h'.kept (h.kept hfile)
  inSight hfile := h'.inSight (h.inSight hfile)
  noNewRoot hroot hlater := h.noNewRoot hroot (h'.noNewRoot hroot hlater)

instance (roots : List Path) (path : Path) : IsPreorder FileSystem (Spares roots path) where
  refl _ := ⟨id, id, id, fun _ => id⟩
  trans _ _ _ := Spares.trans

end FileSystem

namespace Source

variable {allowed : FileSystem → FileSystem → Prop} {fs left seen : FileSystem}
  {selection : Glob.Selection} {root path link : Path} {roots way : List Path}
  {names more : List FileName} {kind : Kind} {files : List Source} {source : Source}
  {found : Location} {failure : Walk.Failure}

/-! ### What a scan does at an entry -/

/-- What an entry is once links are followed. -/
def seenAs (fs : FileSystem) (path : Path) : Kind → Except Fault Kind
  | .link => (·.kind) <$> fs.status path
  | kind => .ok kind

theorem seenAs_of_ne (h : kind ≠ .link) : seenAs fs path kind = .ok kind := by
  cases kind with
  | link => exact absurd rfl h
  | file => rfl
  | directory => rfl
  | special => rfl

/-- The search for a loop fails in words of its own. -/
theorem ne_io_of_checkLoop (h : ComesTo allowed fs (checkLoop link found way) (.error failure) left)
    (path : Path) (fault : Fault) : failure ≠ .io (some path) fault := by
  induction way generalizing fs with
  | nil => cases (Reading.comesTo_pure_iff.1 h).1
  | cons nearest way ih =>
    rw [checkLoop, Reading.comesTo_look_bind_iff] at h
    obtain ⟨seen, -, h⟩ := h
    split at h
    case h_1 =>
      rw [← Except.error.inj (Reading.comesTo_pure_iff.1 h).1]
      exact fun h => by cases h
    case h_2 =>
      split at h
      case isTrue =>
        rw [← Except.error.inj (Reading.comesTo_pure_iff.1 h).1]
        exact fun h => by cases h
      case isFalse => exact ih h

/-- What a scan takes of a failure is nothing, and the failure is a link to nothing. -/
theorem dangling_of_take (h : ComesTo allowed fs (take selection root (.failed failure)) files left) :
    files = [] ∧ ∃ path, failure = .io (some path) .notFound := by
  rw [take, Reading.comesTo_bind_iff] at h
  obtain ⟨dangling, mid, hdangling, h⟩ := h
  unfold danglingLink? at hdangling
  split at hdangling
  case h_1 path =>
    cases dangling with
    | none => exact absurd h Reading.not_comesTo_fail
    | some path =>
      obtain ⟨_, _, -, h⟩ := Reading.comesTo_bind_iff.1 h
      exact ⟨(Reading.comesTo_pure_iff.1 h).1.symm, _, rfl⟩
  case h_2 =>
    obtain ⟨rfl, -⟩ := Reading.comesTo_pure_iff.1 hdangling
    exact absurd h Reading.not_comesTo_fail

section Steps

variable [IsPreorder FileSystem allowed]

theorem seenAs_of_follow {answer : Except Walk.Failure Kind}
    (h : ComesTo allowed fs (follow way path kind) answer left) :
    ∃ seen, allowed fs seen ∧ allowed seen left ∧
      (∀ followed, answer = .ok followed → seenAs seen path kind = .ok followed) ∧
      ∀ other, answer = .error (.io (some other) .notFound) →
        seenAs seen path kind = .error .notFound := by
  by_cases hkind : kind = .link
  case neg =>
    rw [Walk.follow_of_ne hkind, Reading.comesTo_pure_iff] at h
    obtain ⟨rfl, rfl⟩ := h
    refine ⟨_, refl _, refl _, fun followed h => ?_, fun other h => by cases h⟩
    rw [seenAs_of_ne hkind, Except.ok.inj h]
  case pos =>
    subst hkind
    rw [follow, Reading.comesTo_look_bind_iff] at h
    obtain ⟨seen, hseen, h⟩ := h
    refine ⟨seen, hseen, h.allowed_left, ?_⟩
    rw [FileSystem.answer] at h
    rw [seenAs]
    cases hstatus : seen.status path with
    | error fault =>
      rw [hstatus, Reading.comesTo_pure_iff] at h
      obtain ⟨rfl, -⟩ := h
      exact ⟨fun followed h => (by cases h), fun other h => (by cases h; rfl)⟩
    | ok status =>
      rw [hstatus] at h
      dsimp only at h
      split at h
      case isFalse =>
        obtain ⟨rfl, -⟩ := Reading.comesTo_pure_iff.1 h
        exact ⟨fun followed h => congrArg _ (Except.ok.inj h), fun other h => (by cases h)⟩
      case isTrue hdirectory =>
        have hsame : ∀ followed, Kind.directory = followed →
            (·.kind) <$> (Except.ok status : Except Fault _) = .ok followed := fun followed h => by
          rw [← h, ← FileSystem.Status.isDirectory_iff.1 hdirectory]
          rfl
        obtain ⟨opened, -, h⟩ := Reading.comesTo_look_bind_iff.1 h
        split at h
        case h_1 =>
          obtain ⟨rfl, -⟩ := Reading.comesTo_pure_iff.1 h
          exact ⟨fun followed h => (by cases h), fun other h => (by cases h)⟩
        case h_2 found _ =>
          obtain ⟨looped, _, hlooped, h⟩ := Reading.comesTo_bind_iff.1 h
          obtain ⟨rfl, -⟩ := Reading.comesTo_pure_iff.1 h
          cases looped with
          | ok _ => exact ⟨fun followed h => hsame followed (Except.ok.inj h), fun other h => by cases h⟩
          | error failure =>
            refine ⟨fun followed h => (by cases h), fun other h => ?_⟩
            exact absurd (Except.error.inj h) (ne_io_of_checkLoop hlooped other .notFound)

/-- What a scan that comes to its end has done at an entry. -/
inductive Visited (allowed : FileSystem → FileSystem → Prop) (selection : Glob.Selection)
    (root : Path) (way : List Path) (names : List FileName) (kind : Kind) (fs left : FileSystem) :
    List Source → Prop
  | passedOver {seen : FileSystem} (hseen : allowed fs seen)
    (hfile : seenAs seen (root.below names) kind ≠ .ok .file)
    (hdirectory : seenAs seen (root.below names) kind ≠ .ok .directory) :
    Visited allowed selection root way names kind fs left []
  | taken {seen : FileSystem} (hseen : allowed fs seen) (hleft : allowed seen left)
    (hfile : seenAs seen (root.below names) kind = .ok .file) :
    Visited allowed selection root way names kind fs left
      (if selection.selects (FileName.joined names) then [along root names] else [])
  | closed {seen listed : FileSystem} (hseen : allowed fs seen)
    (hdirectory : seenAs seen (root.below names) kind = .ok .directory) (hlisted : allowed fs listed)
    (hlisting : listed.listing (root.below names) = .error .notFound) :
    Visited allowed selection root way names kind fs left []
  | entered {seen listed : FileSystem} {entries : List (FileName × Kind)} {found : List (List Source)}
    (hseen : allowed fs seen) (hdirectory : seenAs seen (root.below names) kind = .ok .directory)
    (hlisted : allowed fs listed) (hlisting : listed.listing (root.below names) = .ok entries)
    (hfound : ComesTo allowed listed (entries.mapM fun e =>
      go (take selection root) (root.below names :: way) (root.below (names ++ [e.1])) e.2) found
        left) :
    Visited allowed selection root way names kind fs left found.flatten

theorem visited_of_go (hnames : ∀ name ∈ names, name.Normal)
    (h : ComesTo allowed fs (go (take selection root) way (root.below names) kind) files left) :
    Visited allowed selection root way names kind fs left files := by
  rw [go, Reading.comesTo_bind_iff] at h
  obtain ⟨answer, mid, hfollow, h⟩ := h
  obtain ⟨seen, hseen, hmid, hfollowed, hdangling⟩ := seenAs_of_follow hfollow
  cases answer with
  | error failure =>
    obtain ⟨rfl, other, rfl⟩ := dangling_of_take h
    have hnone := hdangling other rfl
    exact .passedOver hseen (by rw [hnone]; decide) (by rw [hnone]; decide)
  | ok followed =>
  have hseenAs := hfollowed followed rfl
  cases followed with
  | file =>
    dsimp only at h
    rw [take_file hnames, Reading.comesTo_pure_iff] at h
    obtain ⟨rfl, rfl⟩ := h
    exact .taken hseen hmid hseenAs
  | link | special =>
    dsimp only at h
    rw [take_of_ne (by decide), Reading.comesTo_pure_iff] at h
    obtain ⟨rfl, -⟩ := h
    exact .passedOver hseen (by rw [hseenAs]; decide) (by rw [hseenAs]; decide)
  | directory =>
    obtain ⟨listed, hlisted, h⟩ := Reading.comesTo_look_bind_iff.1 h
    have hlisted : allowed fs listed := IsTrans.trans _ _ _ hfollow.allowed_left hlisted
    obtain ⟨here, mid', hhere, h⟩ := Reading.comesTo_bind_iff.1 h
    rw [take_of_ne (by decide), Reading.comesTo_pure_iff] at hhere
    obtain ⟨rfl, hmid'⟩ := hhere
    rw [hmid', FileSystem.answer] at h
    cases hlisting : listed.listing (root.below names) with
    | error fault =>
      rw [hlisting, Reading.comesTo_bind_iff] at h
      obtain ⟨last, _, hlast, h⟩ := h
      obtain ⟨rfl, other, hfault⟩ := dangling_of_take hlast
      obtain ⟨rfl, -⟩ := Reading.comesTo_pure_iff.1 h
      cases hfault
      exact .closed hseen hseenAs hlisted hlisting
    | ok entries =>
      rw [hlisting] at h
      obtain ⟨location, hopen, -⟩ := FileSystem.exists_isOpenAt_of_listing hlisting
      dsimp only at h
      rw [dif_pos hopen.1.size_lt, Reading.comesTo_bind_iff] at h
      obtain ⟨found, _, hfound, h⟩ := h
      obtain ⟨rfl, rfl⟩ := Reading.comesTo_pure_iff.1 h
      simp only [← Path.below_concat] at hfound
      exact .entered hseen hseenAs hlisted hlisting hfound

end Steps

/-- What a scan that comes to its end has done: if the root was a directory that could be looked up,
it has walked it. -/
theorem begun_of_scan (h : ComesTo allowed fs (scan selection root) files left) :
    ∃ begun, allowed fs begun ∧
      ((∀ location, ¬ begun.IsDirectoryAt root location) ∧ files = [] ∨
        ∃ location seen, begun.IsDirectoryAt root location ∧ allowed begun seen ∧
          ((∃ fault, seen.kind root = .error fault) ∧ files = [] ∨
            ∃ kind, seen.kind root = .ok kind ∧
              ComesTo allowed seen (go (take selection root) [] root kind) files left)) := by
  rw [scan, Reading.comesTo_look_bind_iff] at h
  obtain ⟨begun, hbegun, h⟩ := h
  refine ⟨begun, hbegun, ?_⟩
  rw [FileSystem.answer] at h
  cases hstatus : begun.status root with
  | error fault =>
    rw [hstatus] at h
    refine Or.inl ⟨?_, (Reading.comesTo_pure_iff.1 h).1.symm⟩
    rintro location ⟨status, hok, -⟩
    cases hstatus.symm.trans hok
  | ok status =>
    rw [hstatus] at h
    dsimp only at h
    split at h
    case isFalse hfile =>
      refine Or.inl ⟨?_, (Reading.comesTo_pure_iff.1 h).1.symm⟩
      rintro location ⟨status', hok, hdirectory, -⟩
      cases hstatus.symm.trans hok
      exact hfile hdirectory
    case isTrue hdirectory =>
      rw [Walk.start, Reading.comesTo_look_bind_iff] at h
      obtain ⟨seen, hseen, h⟩ := h
      refine Or.inr ⟨status.location, seen, ⟨status, hstatus, hdirectory, rfl⟩, hseen, ?_⟩
      rw [FileSystem.answer] at h
      cases hkind : seen.kind root with
      | error fault =>
        rw [hkind] at h
        exact Or.inl ⟨⟨fault, rfl⟩, (dangling_of_take h).1⟩
      | ok kind =>
        rw [hkind] at h
        exact Or.inr ⟨kind, rfl, h⟩

/-! ### The first walk -/

theorem unlocked_leadsToFile_of_seenAs (h : seenAs fs path kind = .ok .file) (hkind : kind ≠ .file) :
    fs.unlocked.LeadsToFile path := by
  by_cases hlink : kind = .link
  case neg =>
    rw [seenAs_of_ne hlink] at h
    exact absurd (Except.ok.inj h) hkind
  case pos =>
    subst hlink
    obtain ⟨status, hstatus, hfile⟩ := map_eq_ok_iff.1 h
    exact ⟨status, FileSystem.status_unlocked_of_ok hstatus, FileSystem.Status.isFile_iff.2 hfile⟩

/-- What a directory says is a file is one without locks. -/
theorem unlocked_leadsToFile_of_holds {name : FileName} (hfs : fs.WellFormed)
    (h : fs.Holds path name .file) (hsize : (path.child name).text.utf8ByteSize < pathLimit) :
    fs.unlocked.LeadsToFile (path.child name) := by
  obtain ⟨location, hlocation, hkind⟩ := h.unlocked
  exact FileSystem.leadsToFile_of_kind (FileSystem.kind_child hfs.unlocked hlocation
    (FileSystem.barred?_unlocked_of_isDirectoryAt hlocation) hkind hsize)

/-- A walk has gone along names to a source that the patterns select. -/
def WentAlong (selection : Glob.Selection) (root : Path) (names : List FileName) (source : Source) :
    Prop :=
  (∀ name ∈ names, Usable name) ∧ selection.selects (FileName.joined names) = true ∧
    along root names = source

/-- A source that a walk has found is a file when the walk is done, if it was spared. -/
theorem leadsToFile_of_mem_go (hfs : fs.WellFormed) (husable : ∀ name ∈ names, Usable name)
    (hsize : source.path.text.utf8ByteSize < pathLimit)
    (hseen : kind = .file → root.below names = source.path → fs.unlocked.LeadsToFile source.path)
    (h : ComesTo (FileSystem.Spares roots source.path) fs
      (go (take selection root) way (root.below names) kind) files left) (hmem : source ∈ files) :
    left.unlocked.LeadsToFile source.path ∧ ∃ more, WentAlong selection root more source := by
  -- A path grows with every name, and only a path that is short enough is listed.
  induction hn : pathLimit - (root.below names).text.utf8ByteSize using Nat.strongRecOn
    generalizing fs names way kind files left with
  | ind n ih =>
  cases visited_of_go (fun name hname => (husable name hname).normal) h with
  | passedOver => cases hmem
  | closed => cases hmem
  | taken hstart hleft hfile =>
    split at hmem
    case isFalse => cases hmem
    case isTrue hselects =>
    obtain rfl := List.mem_singleton.1 hmem
    refine ⟨hleft.kept ?_, names, husable, hselects, rfl⟩
    by_cases hkind : kind = .file
    · exact hstart.kept (hseen hkind rfl)
    · exact unlocked_leadsToFile_of_seenAs hfile hkind
  | entered _ _ hlisted hlisting hfound =>
    obtain ⟨below, hbelow, hmem⟩ := List.mem_flatten.1 hmem
    obtain ⟨⟨name, entryKind⟩, hentry, start, stop, hstart, hwalk, hstop⟩ :=
      hfound.within_of_mapM.2 below hbelow
    have hlistedFs := hlisted.wellFormed hfs
    have hholds := (FileSystem.mem_iff_of_listing hlisting).1 hentry
    obtain ⟨location, hopen, -⟩ := FileSystem.exists_isOpenAt_of_listing hlisting
    have hless : pathLimit - (root.below (names ++ [name])).text.utf8ByteSize < n := by
      have hgrows := Path.size_lt_child (root.below names) name
      have hroom := hopen.1.size_lt
      rw [Path.below_concat]
      omega
    have hnames : ∀ next ∈ names ++ [name], Usable next := by
      rw [List.forall_mem_append, List.forall_mem_singleton]
      exact ⟨husable, hholds.usable hlistedFs⟩
    have hfile : entryKind = .file → root.below (names ++ [name]) = source.path →
        start.unlocked.LeadsToFile source.path := by
      -- it was a file when the directory was read, and has been spared since
      rintro rfl hpath
      apply hstart.kept
      rw [← hpath, Path.below_concat] at hsize ⊢
      exact unlocked_leadsToFile_of_holds hlistedFs hholds hsize
    obtain ⟨hleads, hmore⟩ := ih _ hless (hstart.wellFormed hlistedFs) hnames hfile hwalk hmem rfl
    exact ⟨hstop.kept hleads, hmore⟩

/-- A scan that has found a spared source has gone along one name or more. The root alone is no
source: it was a directory when the scan began, so no spared file has its path. -/
theorem leadsToFile_of_mem_scan (hfs : fs.WellFormed) (hroot : root ∈ roots)
    (hsize : source.path.text.utf8ByteSize < pathLimit)
    (h : ComesTo (FileSystem.Spares roots source.path) fs (scan selection root) files left)
    (hmem : source ∈ files) :
    left.unlocked.LeadsToFile source.path ∧ root.text ≠ "" ∧
      ∃ name more, WentAlong selection root (name :: more) source := by
  obtain ⟨begun, hbegun, ⟨-, rfl⟩ | ⟨location, seen, hlocation, hseen, ⟨-, rfl⟩ | ⟨kind, hkind,
    hwalk⟩⟩⟩ := begun_of_scan h
  · cases hmem
  · cases hmem
  · have hfile : kind = .file → root.below [] = source.path →
        seen.unlocked.LeadsToFile source.path := by
      rintro rfl hpath
      rw [← hpath]
      exact FileSystem.leadsToFile_of_kind (FileSystem.kind_unlocked_of_ok hkind)
    obtain ⟨hleads, more, hmore⟩ := leadsToFile_of_mem_go (hseen.wellFormed (hbegun.wellFormed hfs))
      (List.forall_mem_nil _) hsize hfile hwalk hmem
    refine ⟨hleads, ?_, ?_⟩
    · exact FileSystem.text_ne_empty_of_isDirectory (FileSystem.isDirectory_iff.2 ⟨_, hlocation⟩)
    · cases more with
      | cons name more => exact ⟨name, more, hmore⟩
      | nil =>
        obtain rfl : along root [] = source := hmore.2.2
        have hbefore := (hseen.trans hwalk.allowed_left).noNewRoot hroot hleads
        exact absurd hlocation.unlocked hbefore.not_isDirectoryAt

/-! ### The second walk -/

/-- Where names have led to a file that is there still, the directory before each of them has an entry
from which the others can lead to it. -/
theorem WentAlong.exists_holds {name : FileName} (hfs : fs.WellFormed) (hroot : root.text ≠ "")
    (h : WentAlong selection root (names ++ name :: more) source)
    (hfile : fs.LeadsToFile source.path) :
    ∃ kind, fs.Holds (root.below names) name kind ∧ FileSystem.MayLead kind more := by
  obtain ⟨husable, -, rfl⟩ := h
  exact FileSystem.exists_holds_of_leadsToFile hfs hroot (List.forall_mem_append.1 husable).2 hfile

/-- So an entry on the way is seen as a directory, and the last one as a file. -/
theorem WentAlong.seenAs_eq (hfs : fs.WellFormed) (hroot : root.text ≠ "")
    (h : WentAlong selection root (names ++ more) source) (hfile : fs.LeadsToFile source.path)
    (hkind : FileSystem.MayLead kind more) :
    seenAs fs (root.below names) kind = .ok (if more = [] then .file else .directory) := by
  cases more with
  | nil =>
    rcases hkind with rfl | rfl
    · rfl
    · obtain ⟨-, -, rfl⟩ := h
      obtain ⟨status, hstatus, hfile⟩ := hfile
      rw [List.append_nil] at hstatus
      exact map_eq_ok_iff.2 ⟨status, hstatus, FileSystem.Status.isFile_iff.1 hfile⟩
  | cons name more =>
    rcases hkind with rfl | rfl
    · rfl
    · obtain ⟨_, ⟨_, ⟨status, hstatus, hdirectory, -⟩, -⟩, -⟩ := h.exists_holds hfs hroot hfile
      exact map_eq_ok_iff.2 ⟨status, hstatus, FileSystem.Status.isDirectory_iff.1 hdirectory⟩

/-- A walk goes along the names again to a file that is spared. -/
theorem mem_go_of_leadsToFile (hfs : fs.WellFormed) (hroot : root.text ≠ "")
    (hwent : WentAlong selection root (names ++ more) source) (hfile : fs.LeadsToFile source.path)
    (hkind : FileSystem.MayLead kind more)
    (h : ComesTo (FileSystem.Spares roots source.path) fs
      (go (take selection root) way (root.below names) kind) files left) : source ∈ files := by
  have hnormal : ∀ name ∈ names, name.Normal := fun name hname =>
    (hwent.1 name (List.mem_append_left more hname)).normal
  have hsees : ∀ seen, FileSystem.Spares roots source.path fs seen →
      seenAs seen (root.below names) kind = .ok (if more = [] then .file else .directory) :=
    fun _ hseen => hwent.seenAs_eq (hseen.wellFormed hfs) hroot (hseen.inSight hfile) hkind
  induction more generalizing fs names way kind files left with
  | nil =>
    cases visited_of_go hnormal h with
    | passedOver hseen hnone => exact absurd (hsees _ hseen) hnone
    | closed hseen hdirectory => cases (hsees _ hseen).symm.trans hdirectory
    | entered hseen hdirectory => cases (hsees _ hseen).symm.trans hdirectory
    | taken =>
      obtain ⟨-, hselects, rfl⟩ := hwent
      rw [List.append_nil] at hselects ⊢
      rw [if_pos hselects]
      exact List.mem_singleton_self _
  | cons name more ih =>
    cases visited_of_go hnormal h with
    | passedOver hseen _ hnone => exact absurd (hsees _ hseen) hnone
    | taken hseen _ hfile => cases (hsees _ hseen).symm.trans hfile
    | closed _ _ hlisted hlisting =>
      obtain ⟨_, ⟨location, hlocation, -⟩, -⟩ :=
        hwent.exists_holds (hlisted.wellFormed hfs) hroot (hlisted.inSight hfile)
      exact absurd rfl (hlocation.ne_notFound_of_listing hlisting)
    | entered _ _ hlisted hlisting hfound =>
      obtain ⟨entryKind, hholds, hlead⟩ :=
        hwent.exists_holds (hlisted.wellFormed hfs) hroot (hlisted.inSight hfile)
      have hentry := (FileSystem.mem_iff_of_listing hlisting).2 hholds
      obtain ⟨below, hbelow, start, stop, hstart, hwalk, -⟩ := hfound.within_of_mapM.1 _ hentry
      have hspared := hlisted.trans hstart
      rw [← List.singleton_append, ← List.append_assoc] at hwent
      refine List.mem_flatten.2 ⟨below, hbelow, ?_⟩
      refine ih (hspared.wellFormed hfs) hwent (hspared.inSight hfile) hlead hwalk ?_ ?_
      · exact fun next hnext => (hwent.1 next (List.mem_append_left more hnext)).normal
      · intro seen hseen
        have hseen := hspared.trans hseen
        exact hwent.seenAs_eq (hseen.wellFormed hfs) hroot (hseen.inSight hfile) hlead

/-- So does a scan of a root, as there is a name to go along: the root is a directory then. -/
theorem mem_scan_of_leadsToFile {name : FileName} (hfs : fs.WellFormed) (hroot : root.text ≠ "")
    (hwent : WentAlong selection root (name :: more) source) (hfile : fs.LeadsToFile source.path)
    (h : ComesTo (FileSystem.Spares roots source.path) fs (scan selection root) files left) :
    source ∈ files := by
  have hnames : WentAlong selection root ([] ++ name :: more) source := hwent
  have hdirectory : ∀ seen, FileSystem.Spares roots source.path fs seen →
      ∃ location, seen.IsDirectoryAt root location := by
    intro seen hseen
    obtain ⟨_, ⟨location, hlocation, -⟩, -⟩ :=
      hnames.exists_holds (hseen.wellFormed hfs) hroot (hseen.inSight hfile)
    exact ⟨location, hlocation⟩
  obtain ⟨begun, hbegun, ⟨hnone, rfl⟩ | ⟨_, seen, -, hseen, hwalked⟩⟩ := begun_of_scan h
  · obtain ⟨location, hlocation⟩ := hdirectory begun hbegun
    exact absurd hlocation (hnone location)
  · have hseen := hbegun.trans hseen
    obtain ⟨location, hlocation⟩ := hdirectory seen hseen
    obtain ⟨kind, hkind⟩ := FileSystem.exists_kind_of_status hlocation.choose_spec.1
    rcases hwalked with ⟨⟨fault, hfault⟩, -⟩ | ⟨kind', hkind', hwalk⟩
    · cases hkind.symm.trans hfault
    · refine mem_go_of_leadsToFile (hseen.wellFormed hfs) hroot hnames (hseen.inSight hfile) ?_ hwalk
      by_contra hnot
      obtain ⟨hne, hne'⟩ := not_or.1 hnot
      exact FileSystem.not_isDirectoryAt_of_kind hkind' hne' hne hlocation

end Source

end Rebuild
