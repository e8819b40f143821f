import Rebuild.FileSystem.Change
import Rebuild.Proofs.Reading.Agreement
import Rebuild.Proofs.Sources.Spelling
import Rebuild.Proofs.Staleness.Verdict
import Rebuild.Staleness.Settings.Document

/-!
# Settings files in several spellings

Relative paths in a settings file are read from the directory of the file, and that directory is
known by what is written before the file's name. So one file in two spellings asks for two requests,
whose paths are the same relative paths joined to two spellings of one directory. Whatever the one
search looks up, the other looks up the counterpart, and is told the same: the walks find the same
sources, their targets have the same times, and the searches end alike.

There is one path that cannot be joined to every spelling of a directory. Joined to the empty part
before a bare name, the empty path stays empty, and leads nowhere; joined to any other spelling it
leads to the directory. The same is so of an empty target name in an empty output directory.
-/

namespace Rebuild

namespace FileSystem

variable {fs : FileSystem} {path : Path} {paths others : List Path}

/-- Two sets of paths denote the same files: what a path of the one leads to, some path of the other
leads to as well. The files need not be in sight. -/
def DenoteSame (fs : FileSystem) (set other : PathSet) : Prop :=
  (∀ path ∈ set.toList, ∃ path' ∈ other.toList, fs.unlocked.LeadsTogether path path') ∧
    ∀ path' ∈ other.toList, ∃ path ∈ set.toList, fs.unlocked.LeadsTogether path path'

theorem exists_leadsTogether_of_mem (h : List.Forall₂ fs.LeadsTogether paths others)
    (hpath : path ∈ paths) : ∃ other ∈ others, fs.LeadsTogether path other := by
  induction h with
  | nil => cases hpath
  | cons hfirst _ ih =>
    rcases List.mem_cons.1 hpath with rfl | hrest
    · exact ⟨_, List.mem_cons_self, hfirst⟩
    · obtain ⟨other, hother, htogether⟩ := ih hrest
      exact ⟨other, List.mem_cons_of_mem _ hother, htogether⟩

theorem forall₂_leadsTogether_symm (h : List.Forall₂ fs.LeadsTogether paths others) :
    List.Forall₂ fs.LeadsTogether others paths :=
  List.Forall₂.flip (h.imp fun _ _ => LeadsTogether.symm)

/-- A set does not keep every spelling of a path that is put into it, but the one that it keeps
leads to the same. -/
theorem exists_mem_insertAll (h : List.Forall₂ fs.LeadsTogether paths others)
    (hpath : path ∈ (PathSet.empty.insertAll paths).toList) :
    ∃ other ∈ (PathSet.empty.insertAll others).toList, fs.LeadsTogether path other := by
  have hmem : path ∈ paths := (PathSet.mem_of_mem_insertAll hpath).resolve_left List.not_mem_nil
  obtain ⟨other, hother, status, hstatus, hstatus'⟩ := exists_leadsTogether_of_mem h hmem
  have hcontains : (PathSet.empty.insertAll others).contains other :=
    PathSet.contains_insertAll_iff.2 (Or.inr ⟨other, hother, rfl⟩)
  obtain ⟨member, hmember, hsame⟩ := PathSet.contains_iff.1 hcontains
  obtain ⟨_, _, kept, hkept, -⟩ := exists_leadsTogether_of_mem (forall₂_leadsTogether_symm h)
    ((PathSet.mem_of_mem_insertAll hmember).resolve_left List.not_mem_nil)
  obtain ⟨shared, hshared, hshared'⟩ := leadsTogether_of_same hsame hkept hstatus'
  refine ⟨member, hmember, status, hstatus, ?_⟩
  rw [hshared, ← hshared', hstatus']

theorem denoteSame_insertAll (h : List.Forall₂ fs.unlocked.LeadsTogether paths others) :
    fs.DenoteSame (PathSet.empty.insertAll paths) (PathSet.empty.insertAll others) := by
  refine ⟨fun path hpath => exists_mem_insertAll h hpath, fun path' hpath' => ?_⟩
  obtain ⟨path, hpath, htogether⟩ := exists_mem_insertAll (forall₂_leadsTogether_symm h) hpath'
  exact ⟨path, hpath, htogether.symm⟩

end FileSystem

namespace StaleRequest

variable {request : StaleRequest} {fs : FileSystem} {base base' : Path} {location : Location}

/-- The same request, with relative paths read from a directory. -/
def readFrom (request : StaleRequest) (base : Path) : StaleRequest :=
  { request with
    sourceRoots := request.sourceRoots.map base.join
    targetDirectory := base.join request.targetDirectory }

/-- The paths that a search can look up: what its walks can come to, and the targets of the sources
that it finds. -/
inductive LooksUp (request : StaleRequest) (fs : FileSystem) : Path → Prop
  | walk {root : Path} {names : List FileName} {kind : FileSystem.Kind}
    (hroot : root ∈ request.sourceRoots) (h : fs.Comes root names kind) :
    LooksUp request fs (root.below names)
  | target {source : Source} {target : Path} (hscanned : request.Scanned fs source)
    (h : target ∈ request.targetsOf source) : LooksUp request fs target

/-- No path that a search can look up is empty or comes to a limit. -/
def Unhindered (request : StaleRequest) (fs : FileSystem) : Prop :=
  ∀ path, request.LooksUp fs path → path.text ≠ "" ∧ fs.WithinLimits path

/-! ### The targets of one source -/

theorem targets_join (base directory : Path) (source : String) (mapping : Mapping) :
    mapping.targets (base.join directory) source
      = (mapping.targets directory source).map base.join := by
  cases mapping with
  | suffix sourceSuffix targetSuffixes =>
    rw [Mapping.targets, Mapping.targets]
    cases Text.stripTail? source.toList sourceSuffix.toList with
    | none => rfl
    | some stem => simp [Path.join_assoc]
  | single sourceSuffix target =>
    rw [Mapping.targets, Mapping.targets]
    split
    · simp [Path.join_assoc]
    · rfl

theorem flatMap_targets_readFrom (base : Path) (source : String) (mappings : List Mapping) :
    mappings.flatMap (Mapping.targets (request.readFrom base).targetDirectory source)
      = (mappings.flatMap (Mapping.targets request.targetDirectory source)).map base.join := by
  rw [List.map_flatMap]
  exact List.flatMap_congr fun mapping _ => targets_join base request.targetDirectory source mapping

theorem mem_targetsOf_readFrom {source : Source} {target : Path} (base : Path)
    (h : target ∈ request.targetsOf source) :
    base.join target ∈ (request.readFrom base).targetsOf source := by
  rw [targetsOf, flatMap_targets_readFrom]
  exact List.mem_map_of_mem h

theorem endAlike_lastModified {path path' : Path} (h : Path.Counterparts base base' path path')
    (hstatus : fs.status path = fs.status path') :
    EndAlike (Error.Respelled base base') Eq ((lastModified path).on fs).outcome
      ((lastModified path').on fs).outcome := by
  rw [outcome_lastModified, outcome_lastModified, hstatus]
  cases fs.status path' with
  | ok status => exact .ok rfl
  | error fault =>
    cases fault with
    | notFound => exact .ok rfl
    | _ => exact .error (.unreadableTime h _)

theorem endAlike_anyOutdated {tolerance : Duration} {time : Time} {targets : List Path}
    (h : ∀ target ∈ targets, fs.status (base.join target) = fs.status (base'.join target)) :
    EndAlike (Error.Respelled base base') Eq
      ((anyOutdated tolerance time (targets.map base.join)).on fs).outcome
      ((anyOutdated tolerance time (targets.map base'.join)).on fs).outcome := by
  induction targets with
  | nil => exact .ok rfl
  | cons target targets ih =>
    obtain ⟨hfirst, hrest⟩ := List.forall_mem_cons.1 h
    rw [List.map_cons, List.map_cons, anyOutdated, anyOutdated, Reading.outcome_bind,
      Reading.outcome_bind]
    refine (endAlike_lastModified ⟨target, rfl, rfl⟩ hfirst).bind ?_
    rintro found _ - - rfl
    split
    · exact .ok rfl
    · exact ih hrest

/-! ### All sources -/

variable {source source' : Source} {sources sources' : List Source} {mappings : List Mapping}

theorem endAlike_isStale (h : source.Counterparts fs base base' source')
    (htargets :
      ∀ target ∈ mappings.flatMap (Mapping.targets request.targetDirectory source.relative),
        fs.status (base.join target) = fs.status (base'.join target)) :
    EndAlike (Error.Respelled base base') Eq
      (((request.readFrom base).isStale mappings source).on fs).outcome
      (((request.readFrom base').isStale mappings source').on fs).outcome := by
  rw [isStale, isStale, Reading.outcome_bind, Reading.outcome_bind]
  refine (endAlike_lastModified h.paths h.status_eq).bind ?_
  rintro found _ - - rfl
  cases found with
  | none => exact .error (.unreadableTime h.paths _)
  | some time =>
    dsimp only
    rw [flatMap_targets_readFrom, flatMap_targets_readFrom, ← h.relative_eq]
    exact endAlike_anyOutdated htargets

/-- Of sources that stand to each other those that are stale do, too. -/
theorem foundAlike_staleAmong
    (h : List.Forall₂ (Source.Counterparts fs base base') sources sources')
    (htargets : ∀ source ∈ sources, ∀ source' ∈ sources',
      source.Counterparts fs base base' source' →
        ∀ target ∈ mappings.flatMap (Mapping.targets request.targetDirectory source.relative),
          fs.status (base.join target) = fs.status (base'.join target)) :
    Source.FoundAlike fs base base'
      (((request.readFrom base).staleAmong mappings sources).on fs).outcome
      (((request.readFrom base').staleAmong mappings sources').on fs).outcome := by
  induction h with
  | nil => exact .ok .nil
  | @cons source source' sources sources' hfirst hrest ih =>
    have hhere := htargets source List.mem_cons_self source' List.mem_cons_self hfirst
    have hthere := ih fun source hsource source' hsource' =>
      htargets source (List.mem_cons_of_mem _ hsource) source' (List.mem_cons_of_mem _ hsource')
    rw [staleAmong, staleAmong, Reading.outcome_bind, Reading.outcome_bind]
    refine (endAlike_isStale hfirst hhere).bind ?_
    rintro stale _ - - rfl
    rw [Reading.outcome_bind, Reading.outcome_bind]
    refine hthere.bind fun rest rest' _ _ hrests => ?_
    cases stale with
    | true => exact .ok (.cons hfirst hrests)
    | false => exact .ok hrests

theorem foundAlike_staleOf (h : List.Forall₂ (Source.Counterparts fs base base') sources sources')
    (htargets : ∀ source ∈ sources, ∀ source' ∈ sources',
      source.Counterparts fs base base' source' → ∀ target ∈ request.targetsOf source,
        fs.status (base.join target) = fs.status (base'.join target)) :
    Source.FoundAlike fs base base' ((request.readFrom base).staleOf fs sources)
      ((request.readFrom base').staleOf fs sources') := by
  have hpolicy : ∀ base, (request.readFrom base).policy = request.policy := fun _ => rfl
  rw [staleOf, staleOf, hpolicy, hpolicy]
  cases hmappings : request.policy.mappings with
  | none => exact .ok h
  | some mappings =>
    simp only [targetsOf, hmappings, Option.getD_some] at htargets
    exact foundAlike_staleAmong h htargets

/-- What a search can look up under one root, if the root holds only files. -/
theorem unhindered_of_files {root : Path} (hroots : request.sourceRoots = [root])
    (hroot : fs.IsDirectoryAt root location)
    (hfiles : ∀ e ∈ fs.entriesOf location, fs.LeadsToFile (root.child e.1))
    (hsources : request.sourcesUnder fs root = .ok sources)
    (hroom : ∀ path ∈ root :: (fs.entriesOf location).map (root.child ·.1),
      path.text ≠ "" ∧ fs.ClearOfLimits path)
    (htargets : ∀ path ∈ sources.flatMap request.targetsOf,
      path.text ≠ "" ∧ fs.ClearOfLimits path) :
    request.Unhindered fs := by
  have hplain : ∀ {path : Path}, path.text ≠ "" ∧ fs.ClearOfLimits path →
      path.text ≠ "" ∧ fs.WithinLimits path := And.imp_right FileSystem.ClearOfLimits.withinLimits
  intro path hlooks
  cases hlooks with
  | walk hmem hcomes =>
    rw [hroots, List.mem_singleton] at hmem
    subst hmem
    rcases hcomes.of_files hroot hfiles with rfl | ⟨e, he, rfl⟩
    · exact hplain (hroom _ List.mem_cons_self)
    · exact hplain (hroom _ (List.mem_cons_of_mem _ (List.mem_map_of_mem he)))
  | target hscanned htarget =>
    obtain ⟨root', hmem, found, hfound, hsource⟩ := hscanned
    rw [hroots, List.mem_singleton] at hmem
    subst hmem
    obtain rfl := Except.ok.inj (hsources.symm.trans hfound)
    exact hplain (htargets path (List.mem_flatMap.2 ⟨_, hsource, htarget⟩))

/-! ### From two spellings of a directory -/

/-- A request is read from two spellings of one directory, and hindered in neither of them. -/
structure SpelledTwice (request : StaleRequest) (fs : FileSystem) (base base' : Path) : Prop where
  together : ∃ location, fs.IsDirectoryAt base.orHere location ∧ fs.IsDirectoryAt base'.orHere location
  unhindered : (request.readFrom base).Unhindered fs
  unhindered' : (request.readFrom base').Unhindered fs

namespace SpelledTwice

variable {selection : Glob.Selection} {root : Path}

theorem status_eq (h : request.SpelledTwice fs base base') {path : Path}
    (hlooks : (request.readFrom base).LooksUp fs (base.join path))
    (hlooks' : (request.readFrom base').LooksUp fs (base'.join path)) :
    fs.status (base.join path) = fs.status (base'.join path) := by
  obtain ⟨location, hbase, hbase'⟩ := h.together
  obtain ⟨hne, hlimits⟩ := h.unhindered _ hlooks
  obtain ⟨hne', hlimits'⟩ := h.unhindered' _ hlooks'
  exact FileSystem.status_join hbase hbase' hne hne' hlimits hlimits'

theorem foundAlike_scan (h : request.SpelledTwice fs base base') (hfs : fs.WellFormed)
    (hroot : root ∈ request.sourceRoots) :
    Source.FoundAlike fs base base' ((Source.scan selection (base.join root)).on fs).outcome
      ((Source.scan selection (base'.join root)).on fs).outcome := by
  refine Source.foundAlike_scan hfs ⟨root, rfl, rfl⟩ fun names kind hcomes hcomes' => ?_
  have hlooks : (request.readFrom base).LooksUp fs _ := .walk (List.mem_map_of_mem hroot) hcomes
  have hlooks' : (request.readFrom base').LooksUp fs _ := .walk (List.mem_map_of_mem hroot) hcomes'
  refine ⟨(h.unhindered _ hlooks).2.size_lt, (h.unhindered' _ hlooks').2.size_lt, ?_⟩
  rw [Path.below_join] at hlooks hlooks' ⊢
  rw [Path.below_join]
  exact h.status_eq hlooks hlooks'

theorem status_eq_of_target (h : request.SpelledTwice fs base base') {target : Path}
    (hscanned : (request.readFrom base).Scanned fs source)
    (hscanned' : (request.readFrom base').Scanned fs source')
    (hpair : source.Counterparts fs base base' source')
    (htarget : target ∈ request.targetsOf source) :
    fs.status (base.join target) = fs.status (base'.join target) := by
  have htarget' : target ∈ request.targetsOf source' := by
    rwa [targetsOf, ← hpair.relative_eq]
  exact h.status_eq (.target hscanned (mem_targetsOf_readFrom base htarget))
    (.target hscanned' (mem_targetsOf_readFrom base' htarget'))

theorem endAlike_staleUnder (h : request.SpelledTwice fs base base') (hfs : fs.WellFormed)
    (hselection : request.selection = .ok selection) (hroot : root ∈ request.sourceRoots) :
    EndAlike (Error.Respelled base base') (List.Forall₂ fs.unlocked.LeadsTogether)
      (((request.readFrom base).staleUnder selection (base.join root)).on fs).outcome
      (((request.readFrom base').staleUnder selection (base'.join root)).on fs).outcome := by
  have hscanned : ∀ base sources,
      ((Source.scan selection (base.join root)).on fs).outcome = .ok sources →
        ∀ source ∈ sources, (request.readFrom base).Scanned fs source := by
    intro base sources hsources source hmem
    have hread : (request.readFrom base).selection = .ok selection := hselection
    refine ⟨base.join root, List.mem_map_of_mem hroot, sources, ?_, hmem⟩
    rw [sourcesUnder_eq hread, hsources]
  rw [outcome_staleUnder, outcome_staleUnder]
  refine (h.foundAlike_scan hfs hroot).bind fun sources sources' hsources hsources' hfound => ?_
  refine EndAlike.map (foundAlike_staleOf hfound ?_) fun _ _ hstale =>
    List.rel_map (fun _ _ hpair => hpair.together) hstale
  intro source hsource source' hsource' hpair target htarget
  exact h.status_eq_of_target (hscanned base sources hsources source hsource)
    (hscanned base' sources' hsources' source' hsource') hpair htarget

/-- Two searches that read one request from two spellings of a directory end alike, and if they find
sets these denote the same files. -/
theorem endAlike_staleSources (h : request.SpelledTwice fs base base') (hfs : fs.WellFormed) :
    EndAlike (Error.Respelled base base') fs.DenoteSame
      ((request.readFrom base).staleSources.on fs).outcome
      ((request.readFrom base').staleSources.on fs).outcome := by
  have hselection : ∀ base, (request.readFrom base).selection = request.selection := fun _ => rfl
  have hroots : ∀ base : Path,
      (request.readFrom base).sourceRoots = request.sourceRoots.map base.join := fun _ => rfl
  rw [outcome_staleSources, outcome_staleSources, hselection, hselection, hroots, hroots]
  refine (EndAlike.refl Error.Respelled.same request.selection).bind ?_
  rintro selection _ hselected - rfl
  rw [List.mapM_map, List.mapM_map]
  refine EndAlike.map (EndAlike.mapM fun root hroot => ?_) fun _ _ hfound =>
    FileSystem.denoteSame_insertAll (List.rel_flatten hfound)
  exact h.endAlike_staleUnder hfs hselected hroot

end SpelledTwice

end StaleRequest

namespace Settings

variable {fs : FileSystem} {file file' : Path} {location : Location}

/-! ### Settings in a file -/

/-- The request that settings ask for under a policy, with paths as written. -/
def asWritten (settings : Settings) (policy : Policy) : StaleRequest where
  sourceRoots := settings.sourceRoots ++ settings.additionalSourceRoots
  targetDirectory := settings.outputDirectory
  policy
  includes := if settings.includes.isEmpty then [defaultInclude] else settings.includes
  excludes := settings.excludes
  tolerance := .ofMillis settings.staleMillis

theorem outcome_requestFrom (settings : Settings) (base : Path) :
    (settings.requestFrom base).outcome
      = (fun policy => (settings.asWritten policy).readFrom base) <$> settings.policy.outcome := by
  rw [requestFrom, Reported.outcome_bind, map_eq_pure_bind]
  rfl

theorem outcome_requestOfFile (file : Path) : ((requestOfFile file).on fs).outcome
    = match fs.text file with
      | .error fault => .error (.unreadableFile fault)
      | .ok text => ofDocument text >>= fun settings =>
        (settings.requestFrom file.directory).outcome := by
  rw [requestOfFile, Reading.outcome_look_bind, FileSystem.answer]
  cases fs.text file with
  | error fault => rfl
  | ok text =>
    dsimp only
    rw [Reading.outcome_bind]
    simp only [Reading.outcome_ofExcept, Reading.outcome_ofReported]

/-- The requests that one settings file asks for, in two spellings, are one request that is read
from the directories of the two. -/
theorem endAlike_requestOfFile (hfile : fs.LeadsTogether file file') :
    EndAlike (Error.Respelled file.directory file'.directory)
      (fun asked asked' => ∃ request : StaleRequest,
        request.readFrom file.directory = asked ∧ request.readFrom file'.directory = asked')
      ((requestOfFile file).on fs).outcome ((requestOfFile file').on fs).outcome := by
  rw [outcome_requestOfFile, outcome_requestOfFile, hfile.text_eq]
  cases fs.text file' with
  | error fault => exact .error (.same _)
  | ok text =>
    refine (EndAlike.refl Error.Respelled.same (ofDocument text)).bind ?_
    rintro settings _ - - rfl
    rw [outcome_requestFrom, outcome_requestFrom]
    refine (EndAlike.refl Error.Respelled.same settings.policy.outcome).map ?_
    rintro policy _ rfl
    exact ⟨settings.asWritten policy, rfl, rfl⟩

/-! ### Main result -/

/-- A search by a settings file ends alike in every spelling of the file. Let two paths lead to the
file, and let the parts before their last steps be spellings of one directory, of which one may be
empty. If no path that either search can look up is empty or comes to a limit, then both searches
succeed, with sets that denote the same files, or both fail, with equal errors or with errors that
report the same for one path read from the two spellings of the directory. -/
theorem staleSources_of_spellings (hfs : fs.WellFormed) (hfile : fs.LeadsTogether file file')
    (hdirectory : fs.IsDirectoryAt file.directory.orHere location)
    (hdirectory' : fs.IsDirectoryAt file'.directory.orHere location)
    (h : ∀ request, ((requestOfFile file).on fs).outcome = .ok request → request.Unhindered fs)
    (h' : ∀ request, ((requestOfFile file').on fs).outcome = .ok request → request.Unhindered fs) :
    (∃ set set', ((requestOfFile file >>= StaleRequest.staleSources).on fs).outcome = .ok set ∧
      ((requestOfFile file' >>= StaleRequest.staleSources).on fs).outcome = .ok set' ∧
      fs.DenoteSame set set') ∨
    ∃ error error',
      ((requestOfFile file >>= StaleRequest.staleSources).on fs).outcome = .error error ∧
      ((requestOfFile file' >>= StaleRequest.staleSources).on fs).outcome = .error error' ∧
      Error.Respelled file.directory file'.directory error error' := by
  apply EndAlike.or_of
  rw [Reading.outcome_bind, Reading.outcome_bind]
  refine (endAlike_requestOfFile hfile).bind ?_
  rintro _ _ hasked hasked' ⟨request, rfl, rfl⟩
  have htwice : request.SpelledTwice fs file.directory file'.directory :=
    ⟨⟨location, hdirectory, hdirectory'⟩, h _ hasked, h' _ hasked'⟩
  exact htwice.endAlike_staleSources hfs

/-- A settings file is found by its bare name and through a subdirectory and back, and its source is
found in both ways. -/
theorem staleSources_of_two_spellings :
    let fs : FileSystem := [
      FileSystem.Change.write ⟨"conf.yml"⟩ "sourceRoots: [src]\noutputDirectory: out\n".toUTF8
        (.afterEpoch 0 (by decide)),
      .write ⟨"src/A.java"⟩ .empty (.afterEpoch 5 (by decide)),
      .makeDirectory ⟨"sub"⟩].foldl FileSystem.Change.apply (.empty (.afterEpoch 0 (by decide)))
    fs.WellFormed ∧ fs.LeadsTogether ⟨"conf.yml"⟩ ⟨"sub/../conf.yml"⟩ ∧
    (∀ file ∈ [Path.mk "conf.yml", ⟨"sub/../conf.yml"⟩],
      fs.IsDirectoryAt file.directory.orHere fs.working ∧
      ∀ request, ((requestOfFile file).on fs).outcome = .ok request → request.Unhindered fs) ∧
    ((requestOfFile ⟨"conf.yml"⟩ >>= StaleRequest.staleSources).on fs).outcome
      = .ok ⟨[⟨"src/A.java"⟩]⟩ ∧
    ∃ set', ((requestOfFile ⟨"sub/../conf.yml"⟩ >>= StaleRequest.staleSources).on fs).outcome
        = .ok set' ∧ fs.DenoteSame ⟨[⟨"src/A.java"⟩]⟩ set' := by
  intro fs
  have hfs : fs.WellFormed := FileSystem.wellFormed_of_changes _ _
  have htogether : fs.LeadsTogether ⟨"conf.yml"⟩ ⟨"sub/../conf.yml"⟩ := by decide +kernel
  have hok : ((requestOfFile ⟨"conf.yml"⟩ >>= StaleRequest.staleSources).on fs).outcome
      = .ok ⟨[⟨"src/A.java"⟩]⟩ := by
    apply eq_ok_of_toOption
    decide +kernel
  let settings : Settings := { sourceRoots := [⟨"src"⟩], outputDirectory := ⟨"out"⟩ }
  have hsettings : ofDocument "sourceRoots: [src]\noutputDirectory: out\n" = .ok settings := by
    apply eq_ok_of_toOption
    decide +kernel
  have hpolicy : settings.policy.outcome = .ok (.suffixes ".java" [".java"]) := rfl
  have hfile : ∀ file ∈ [Path.mk "conf.yml", ⟨"sub/../conf.yml"⟩],
      fs.IsDirectoryAt file.directory.orHere fs.working ∧
      ∀ request, ((requestOfFile file).on fs).outcome = .ok request → request.Unhindered fs := by
    let src : FileName := ⟨"src", by decide, by decide⟩
    let name : FileName := ⟨"A.java", by decide, by decide⟩
    have hfound : ∀ file ∈ [Path.mk "conf.yml", ⟨"sub/../conf.yml"⟩],
        let request := (settings.asWritten (.suffixes ".java" [".java"])).readFrom file.directory
        let root := file.directory.join ⟨"src"⟩
        fs.IsDirectoryAt file.directory.orHere fs.working ∧
        (fs.text file).toOption = some "sourceRoots: [src]\noutputDirectory: out\n" ∧
        fs.IsDirectoryAt root (src :: fs.working) ∧
        (∀ e ∈ fs.entriesOf (src :: fs.working), fs.LeadsToFile (root.child e.1)) ∧
        (request.sourcesUnder fs root).toOption = some [⟨root.child name, "A.java"⟩] ∧
        (∀ path ∈ root :: (fs.entriesOf (src :: fs.working)).map (root.child ·.1),
          path.text ≠ "" ∧ fs.ClearOfLimits path) ∧
        ∀ path ∈ request.targetsOf ⟨root.child name, "A.java"⟩,
          path.text ≠ "" ∧ fs.ClearOfLimits path := by
      decide +kernel
    clear_value fs
    intro file hmem
    obtain ⟨hdirectory, htext, hroot, hfiles, hsources, hroom, htargets⟩ := hfound file hmem
    refine ⟨hdirectory, fun request hrequest => ?_⟩
    rw [outcome_requestOfFile, eq_ok_of_toOption htext] at hrequest
    dsimp only at hrequest
    rw [hsettings, ok_bind, outcome_requestFrom, hpolicy] at hrequest
    obtain rfl := Except.ok.inj hrequest
    exact StaleRequest.unhindered_of_files rfl hroot hfiles (eq_ok_of_toOption hsources) hroom
      (by rw [List.flatMap_singleton]; exact htargets)
  have hfirst := hfile _ List.mem_cons_self
  have hsecond := hfile _ (List.mem_cons_of_mem _ List.mem_cons_self)
  refine ⟨hfs, htogether, hfile, hok, ?_⟩
  rcases staleSources_of_spellings hfs htogether hfirst.1 hsecond.1 hfirst.2 hsecond.2 with
    ⟨set, set', hset, hset', hsame⟩ | ⟨error, _, herror, -⟩
  · obtain rfl := Except.ok.inj (hok.symm.trans hset)
    exact ⟨set', hset', hsame⟩
  · cases hok.symm.trans herror

/-- The part before a bare name is empty, and an empty source root is then no directory. With a dot
before the name it is the directory of the file. -/
theorem staleSources_of_empty_root :
    let fs : FileSystem := [
      FileSystem.Change.write ⟨"conf.yml"⟩ "sourceRoots: [\"\"]\nforce: true\n".toUTF8
        (.afterEpoch 0 (by decide)),
      .write ⟨"A.java"⟩ .empty (.afterEpoch 5 (by decide))].foldl FileSystem.Change.apply
        (.empty (.afterEpoch 0 (by decide)))
    fs.LeadsTogether ⟨"conf.yml"⟩ ⟨"./conf.yml"⟩ ∧
    fs.IsDirectoryAt (Path.directory ⟨"conf.yml"⟩).orHere fs.working ∧
    fs.IsDirectoryAt (Path.directory ⟨"./conf.yml"⟩).orHere fs.working ∧
    ((requestOfFile ⟨"conf.yml"⟩ >>= StaleRequest.staleSources).on fs).outcome = .ok ⟨[]⟩ ∧
    ((requestOfFile ⟨"./conf.yml"⟩ >>= StaleRequest.staleSources).on fs).outcome
      = .ok ⟨[⟨"./A.java"⟩]⟩ ∧
    ¬ fs.DenoteSame ⟨[]⟩ ⟨[⟨"./A.java"⟩]⟩ := by
  intro fs
  have hpaths : fs.LeadsTogether ⟨"conf.yml"⟩ ⟨"./conf.yml"⟩ ∧
      fs.IsDirectoryAt (Path.directory ⟨"conf.yml"⟩).orHere fs.working ∧
      fs.IsDirectoryAt (Path.directory ⟨"./conf.yml"⟩).orHere fs.working := by decide +kernel
  refine ⟨hpaths.1, hpaths.2.1, hpaths.2.2, ?_, ?_, ?_⟩
  · apply eq_ok_of_toOption
    decide +kernel
  · apply eq_ok_of_toOption
    decide +kernel
  · rintro ⟨-, hback⟩
    obtain ⟨path, hpath, -⟩ := hback ⟨"./A.java"⟩ List.mem_cons_self
    cases hpath

end Settings

end Rebuild
