import Rebuild.Proofs.FileSystem.Status
import Rebuild.Walk

/-!
# One step of a walk

What a walk shows its visitor at an entry is settled by what the entry is once links are followed. A
directory, or a link to one that does not lead back, is entered, and what it holds comes after it;
anything else is shown, and that is all. The directories on the way are known here by the names that
lead to them from the root: each is reached by a part of the names that lead to the entry.

What a visitor collects is put together from what it takes of single items. So whatever holds of all
that it takes holds of all that it collects, and the same goes for the ways in which it fails.
-/

namespace Rebuild.Walk

open FileSystem (Kind Status Fault)

variable {α : Type} {fs : FileSystem} {visit : Item → Reading (List α)} {root path link : Path}
  {way : List Path} {names : List FileName} {kind followed : Kind} {status : Status} {fault : Fault}
  {found location : Location} {failure : Failure}

/-! ### Links -/

theorem outcome_checkLoop_cons {nearest : Path} (hnearest : fs.IsOpenAt nearest location) :
    ((checkLoop link found (nearest :: way)).on fs).outcome =
      if location = found then .ok (.error (.loop link nearest))
      else ((checkLoop link found way).on fs).outcome := by
  rw [checkLoop, Reading.outcome_look_bind, FileSystem.answer, hnearest.2]
  dsimp only
  split
  · rfl
  · rfl

theorem outcome_checkLoop_of_clear (hway : ∀ path ∈ way, ∃ location, fs.IsOpenAt path location)
    (hclear : ∀ path ∈ way, ¬ fs.IsDirectoryAt path found) :
    ((checkLoop link found way).on fs).outcome = .ok (.ok ()) := by
  induction way with
  | nil => rfl
  | cons nearest way ih =>
    obtain ⟨⟨location, hnearest⟩, hway⟩ := List.forall_mem_cons.1 hway
    obtain ⟨hfirst, hclear⟩ := List.forall_mem_cons.1 hclear
    have hne : location ≠ found := fun h => hfirst (h ▸ hnearest.1)
    rw [outcome_checkLoop_cons hnearest, if_neg hne]
    exact ih hway hclear

theorem outcome_checkLoop_of_mem (hway : ∀ path ∈ way, ∃ location, fs.IsOpenAt path location)
    (hmem : path ∈ way) (hpath : fs.IsDirectoryAt path found) :
    ∃ ancestor, ((checkLoop link found way).on fs).outcome = .ok (.error (.loop link ancestor)) := by
  induction way with
  | nil => cases hmem
  | cons nearest way ih =>
    obtain ⟨⟨location, hnearest⟩, hway⟩ := List.forall_mem_cons.1 hway
    rw [outcome_checkLoop_cons hnearest]
    split
    case isTrue => exact ⟨nearest, rfl⟩
    case isFalse hne =>
      refine ih hway ((List.mem_cons.1 hmem).resolve_left ?_)
      rintro rfl
      exact hne (hnearest.1.unique hpath)

theorem follow_of_ne (h : kind ≠ .link) : follow way path kind = pure (.ok kind) := by
  cases kind with
  | link => exact absurd rfl h
  | file => rfl
  | directory => rfl
  | special => rfl

theorem outcome_follow_of_ne (h : kind ≠ .link) :
    ((follow way path kind).on fs).outcome = .ok (.ok kind) := by
  rw [follow_of_ne h, Reading.outcome_pure]

theorem outcome_follow_of_error (hstatus : fs.status path = .error fault) :
    ((follow way path .link).on fs).outcome = .ok (.error (.io (some path) fault)) := by
  rw [follow, Reading.outcome_look_bind, FileSystem.answer, hstatus]
  rfl

theorem outcome_follow_of_status (hstatus : fs.status path = .ok status)
    (hdirectory : status.isDirectory = false) :
    ((follow way path .link).on fs).outcome = .ok (.ok status.kind) := by
  rw [follow, Reading.outcome_look_bind, FileSystem.answer, hstatus]
  dsimp only
  rw [hdirectory, if_neg Bool.false_ne_true]
  rfl

theorem outcome_follow_of_isDirectoryAt (hlink : fs.IsDirectoryAt path location) :
    ((follow way path .link).on fs).outcome = match fs.handle path with
      | .error fault => .ok (.error (.io none fault))
      | .ok found => (·.map fun _ => .directory) <$> ((checkLoop path found way).on fs).outcome := by
  obtain ⟨status, hstatus, hdirectory, -⟩ := hlink
  rw [follow, Reading.outcome_look_bind, FileSystem.answer, hstatus]
  dsimp only
  rw [hdirectory, if_pos rfl, Reading.outcome_look_bind, FileSystem.answer]
  cases fs.handle path with
  | error fault => rfl
  | ok found =>
    dsimp only
    rw [Reading.outcome_bind]
    rfl

theorem outcome_follow_of_denied (hlink : fs.IsDirectoryAt path location)
    (hdenied : fs.handle path = .error fault) :
    ((follow way path .link).on fs).outcome = .ok (.error (.io none fault)) := by
  rw [outcome_follow_of_isDirectoryAt hlink, hdenied]

/-! ### The way to an entry -/

/-- The way to an entry has the directories that are above it. -/
structure OnWay (fs : FileSystem) (root : Path) (names : List FileName) (way : List Path) : Prop where
  mem_iff : ∀ path, path ∈ way ↔ ∃ above, above <+: names ∧ above ≠ names ∧ root.below above = path
  isOpenAt : ∀ path ∈ way, ∃ location, fs.IsOpenAt path location

theorem OnWay.nil : OnWay fs root [] [] where
  mem_iff path := by simp
  isOpenAt path hpath := by cases hpath

theorem OnWay.child (h : OnWay fs root names way) (hopen : fs.IsOpenAt (root.below names) location)
    (name : FileName) : OnWay fs root (names ++ [name]) (root.below names :: way) where
  mem_iff path := by
    rw [List.mem_cons, h.mem_iff]
    constructor
    · rintro (rfl | ⟨above, hup, -, rfl⟩)
      · exact ⟨names, List.prefix_append names [name], by simp, rfl⟩
      · refine ⟨above, hup.trans (List.prefix_append names [name]), ?_, rfl⟩
        rintro rfl
        exact absurd hup.length_le (by simp)
    · rintro ⟨above, hup, hne, rfl⟩
      have habove : above <+: names := (List.prefix_concat_iff.1 hup).resolve_left hne
      by_cases heq : above = names
      · exact Or.inl (by rw [heq])
      · exact Or.inr ⟨above, habove, heq, rfl⟩
  isOpenAt := List.forall_mem_cons.2 ⟨⟨location, hopen⟩, h.isOpenAt⟩

/-- A link to a directory is entered unless it leads back. -/
theorem outcome_follow_of_isOpenAt (hway : OnWay fs root names way)
    (hlink : fs.IsOpenAt (root.below names) location)
    (hback : ∀ above, above <+: names → above ≠ names →
      ¬ fs.IsDirectoryAt (root.below above) location) :
    ((follow way (root.below names) .link).on fs).outcome = .ok (.ok .directory) := by
  have hclear : ((checkLoop (root.below names) location way).on fs).outcome = .ok (.ok ()) := by
    refine outcome_checkLoop_of_clear hway.isOpenAt fun path hpath => ?_
    obtain ⟨above, hup, hne, rfl⟩ := (hway.mem_iff path).1 hpath
    exact hback above hup hne
  rw [outcome_follow_of_isDirectoryAt hlink.1, hlink.2]
  dsimp only
  rw [hclear]
  rfl

/-- A link that leads back is not followed, and not because nothing is there. -/
theorem exists_outcome_follow_of_back {above : List FileName} (hway : OnWay fs root names way)
    (hlink : fs.IsDirectoryAt (root.below names) location) (hup : above <+: names)
    (hne : above ≠ names) (habove : fs.IsDirectoryAt (root.below above) location) :
    ∃ failure, ((follow way (root.below names) .link).on fs).outcome = .ok (.error failure) ∧
      ∀ path, failure ≠ .io (some path) .notFound := by
  have hmem : root.below above ∈ way := (hway.mem_iff _).2 ⟨above, hup, hne, rfl⟩
  rw [outcome_follow_of_isDirectoryAt hlink]
  rcases hlink.isOpenAt_or with ⟨hopen, -⟩ | ⟨hdenied, -⟩
  · obtain ⟨ancestor, hloop⟩ := outcome_checkLoop_of_mem hway.isOpenAt hmem habove
    rw [hopen.2]
    dsimp only
    rw [hloop]
    exact ⟨.loop _ ancestor, rfl, fun _ => Failure.noConfusion⟩
  · rw [hdenied]
    exact ⟨.io none .denied, rfl, fun _ h => by cases h⟩

/-! ### One step -/

theorem exists_outcome_checkLoop :
    ∃ answer, ((checkLoop link found way).on fs).outcome = .ok answer := by
  induction way with
  | nil => exact ⟨_, rfl⟩
  | cons nearest way ih =>
    rw [checkLoop, Reading.outcome_look_bind]
    split
    · exact ⟨_, rfl⟩
    · split
      · exact ⟨_, rfl⟩
      · exact ih

theorem exists_outcome_follow (fs : FileSystem) (way : List Path) (path : Path) (kind : Kind) :
    ∃ answer, ((follow way path kind).on fs).outcome = .ok answer := by
  by_cases hkind : kind = .link
  · subst hkind
    cases hstatus : fs.status path with
    | error fault => exact ⟨_, outcome_follow_of_error hstatus⟩
    | ok status =>
      cases hdirectory : status.isDirectory with
      | false => exact ⟨_, outcome_follow_of_status hstatus hdirectory⟩
      | true =>
        rw [outcome_follow_of_isDirectoryAt ⟨status, hstatus, hdirectory, rfl⟩]
        split
        · exact ⟨_, rfl⟩
        · obtain ⟨answer, hanswer⟩ := exists_outcome_checkLoop
          rw [hanswer]
          exact ⟨_, rfl⟩
  · exact ⟨_, outcome_follow_of_ne hkind⟩

/-- What a walk comes to at an entry comes from what the entry is once links are followed. -/
theorem outcome_go : ((go visit way path kind).on fs).outcome =
    ((follow way path kind).on fs).outcome >>= fun
      | .error failure => ((visit (.failed failure)).on fs).outcome
      | .ok .directory => ((visit (.entry path .directory)).on fs).outcome >>= fun here =>
        match fs.listing path with
        | .error fault => (here ++ ·) <$> ((visit (.failed (.io (some path) fault))).on fs).outcome
        | .ok entries => (fun below => here ++ below.flatten) <$> entries.mapM fun e =>
          ((go visit (path :: way) (path.child e.1) e.2).on fs).outcome
      | .ok kind => ((visit (.entry path kind)).on fs).outcome := by
  rw [go, Reading.outcome_bind]
  congr 1
  funext answer
  cases answer with
  | error failure => rfl
  | ok followed =>
  cases followed with
  | file => rfl
  | link => rfl
  | special => rfl
  | directory =>
    dsimp only
    rw [Reading.outcome_look_bind, FileSystem.answer, Reading.outcome_bind]
    congr 1
    funext here
    cases hlisting : fs.listing path with
    | error fault =>
      dsimp only
      rw [Reading.outcome_bind]
      rfl
    | ok entries =>
      obtain ⟨location, hopen, -⟩ := FileSystem.exists_isOpenAt_of_listing hlisting
      dsimp only
      rw [dif_pos hopen.1.size_lt, Reading.outcome_bind, Reading.outcome_mapM]
      rfl

theorem outcome_go_of_failure
    (h : ((follow way path kind).on fs).outcome = .ok (.error failure)) :
    ((go visit way path kind).on fs).outcome = ((visit (.failed failure)).on fs).outcome := by
  rw [outcome_go, h, ok_bind]

theorem outcome_go_of_ne_directory
    (h : ((follow way path kind).on fs).outcome = .ok (.ok followed)) (hne : followed ≠ .directory) :
    ((go visit way path kind).on fs).outcome = ((visit (.entry path followed)).on fs).outcome := by
  rw [outcome_go, h, ok_bind]
  cases followed with
  | directory => exact absurd rfl hne
  | file => rfl
  | link => rfl
  | special => rfl

theorem outcome_go_of_directory
    (h : ((follow way path kind).on fs).outcome = .ok (.ok .directory)) :
    ((go visit way path kind).on fs).outcome =
      ((visit (.entry path .directory)).on fs).outcome >>= fun here =>
        match fs.listing path with
        | .error fault => (here ++ ·) <$> ((visit (.failed (.io (some path) fault))).on fs).outcome
        | .ok entries => (fun below => here ++ below.flatten) <$> entries.mapM fun e =>
          ((go visit (path :: way) (path.child e.1) e.2).on fs).outcome := by
  rw [outcome_go, h, ok_bind]

/-! ### All that is collected -/

/-- Work fails in no other ways than these, and comes to no other values. -/
structure Yields (errors : Error → Prop) (values : α → Prop) (outcome : Except Error (List α)) :
    Prop where
  of_error : ∀ error, outcome = .error error → errors error
  of_mem : ∀ collected, outcome = .ok collected → ∀ value ∈ collected, values value

variable {errors : Error → Prop} {values : α → Prop} {outcome : Except Error (List α)}

theorem Yields.ok {collected : List α} (h : ∀ value ∈ collected, values value) :
    Yields errors values (.ok collected) where
  of_error _ herror := by cases herror
  of_mem _ hok := Except.ok.inj hok ▸ h

theorem Yields.error {error : Error} (h : errors error) :
    Yields errors values (.error error : Except Error (List α)) where
  of_error _ herror := Except.error.inj herror ▸ h
  of_mem _ hok := by cases hok

theorem Yields.bind {next : List α → Except Error (List α)} (h : Yields errors values outcome)
    (hnext : ∀ collected, (∀ value ∈ collected, values value) →
      Yields errors values (next collected)) : Yields errors values (outcome >>= next) := by
  cases houtcome : outcome with
  | error error => exact .error (h.of_error error houtcome)
  | ok collected => exact hnext collected (h.of_mem collected houtcome)

theorem Yields.append {here : List α} (h : Yields errors values outcome)
    (hhere : ∀ value ∈ here, values value) : Yields errors values ((here ++ ·) <$> outcome) := by
  rw [map_eq_pure_bind]
  exact h.bind fun collected hcollected => .ok (List.forall_mem_append.2 ⟨hhere, hcollected⟩)

theorem Yields.flatten {β : Type} {step : β → Except Error (List α)} {xs : List β}
    (h : ∀ x ∈ xs, Yields errors values (step x)) :
    Yields errors values (List.flatten <$> xs.mapM step) := by
  cases hall : xs.mapM step with
  | error error =>
    obtain ⟨x, hx, herror⟩ := exists_of_mapM_eq_error hall
    exact .error ((h x hx).of_error error herror)
  | ok collected =>
    refine .ok fun value hvalue => ?_
    obtain ⟨part, hpart, hvalue⟩ := List.mem_flatten.1 hvalue
    obtain ⟨x, hx, hok⟩ := (mem_iff_of_mapM hall).1 hpart
    exact (h x hx).of_mem part hok value hvalue

/-- What holds of all that a visitor takes holds of all that it collects on a walk. -/
theorem yields_go (hvisit : ∀ item, Yields errors values ((visit item).on fs).outcome) :
    Yields errors values ((go visit way path kind).on fs).outcome := by
  induction hn : FileSystem.pathLimit - path.text.utf8ByteSize using Nat.strongRecOn
    generalizing path way kind with
  | ind n ih =>
  obtain ⟨answer, hanswer⟩ := exists_outcome_follow fs way path kind
  rw [outcome_go, hanswer, ok_bind]
  split
  case h_1 => exact hvisit _
  case h_2 =>
    refine (hvisit _).bind fun here hhere => ?_
    split
    case h_1 => exact (hvisit _).append hhere
    case h_2 entries hlisting =>
      obtain ⟨location, hopen, -⟩ := FileSystem.exists_isOpenAt_of_listing hlisting
      have hbelow : Yields errors values (List.flatten <$> entries.mapM fun e =>
          ((go visit (path :: way) (path.child e.1) e.2).on fs).outcome) := by
        refine Yields.flatten fun e _ => ih _ ?_ rfl
        have hgrows := Path.size_lt_child path e.1
        have hsize := hopen.1.size_lt
        omega
      have hall := hbelow.append hhere
      rwa [← comp_map] at hall
  case h_3 => exact hvisit _

end Rebuild.Walk
