import Rebuild.Staleness.Settings

/-!
# Strict settings

Settings can ask for more than one policy can do, and what loses is left aside with a warning.
Strict settings are for those who would rather be told: where output files leave output file endings
aside, strict settings are refused. Force leaves both aside, with a warning as well, and there it
makes no difference whether settings are strict. So strict settings are either refused, with nothing
in the log, or answered as they would be otherwise; but not every warning is a refusal.
-/

namespace Rebuild

namespace Reported

variable {α β : Type} {level : Level} {text : String} {next : Unit → Reported β}

/-- There is a warning in the log of an answer. -/
def Warns (answer : Reported α) : Prop := ∃ line ∈ answer.lines, line.level = .warning

/-- An answer is a failure for settings that exclude each other. -/
def Conflicts (answer : Reported α) : Prop :=
  ∃ reason, answer.outcome = .error (.conflictingPolicy reason)

@[simp] theorem not_warns_pure (value : α) : ¬ (pure value : Reported α).Warns := by
  rintro ⟨line, hline, -⟩
  cases hline

@[simp] theorem warns_log_bind :
    (log level text >>= next).Warns ↔ level = .warning ∨ (next ()).Warns := by
  have hlines : (log level text >>= next).lines = ⟨level, text⟩ :: (next ()).lines := rfl
  simp [Warns, hlines]

end Reported

namespace Policy

variable {force : Bool} {files endings : List String} {suffix : String}

/-- There is a warning exactly if something loses: to force, or to output files. -/
theorem select_warns_iff : (select force files endings suffix).Warns ↔
    if force then files ≠ [] ∨ endings ≠ [] else files ≠ [] ∧ endings ≠ [] := by
  cases force <;> cases files <;> cases endings <;> simp [select]

/-- Some policy is always selected. -/
theorem exists_select (force : Bool) (files endings : List String) (suffix : String) :
    ∃ policy, (select force files endings suffix).outcome = .ok policy := by
  cases force <;> cases files <;> cases endings <;> exact ⟨_, rfl⟩

end Policy

namespace Settings

variable {settings : Settings}

/-- The same settings, strict or not. -/
def withStrict (settings : Settings) (strict : Bool) : Settings := { settings with strict }

/-- Output files and output file endings are named together, and force does not leave both aside. -/
def NamesBoth (settings : Settings) : Prop :=
  settings.force = false ∧ settings.outputFiles ≠ [] ∧ settings.outputFileEndings ≠ []

theorem policy_withStrict_false : (settings.withStrict false).policy
    = Policy.select settings.force settings.outputFiles settings.outputFileEndings
        (settings.sourceSuffix.getD defaultSuffix) := rfl

theorem policy_of_namesBoth (h : settings.NamesBoth) : (settings.withStrict true).policy
    = .failed (.conflictingPolicy "outputFiles and outputFileEndings cannot be combined") := by
  obtain ⟨hforce, hfiles, hendings⟩ := h
  simp [policy, withStrict, hforce, hfiles, hendings]

theorem policy_of_not_namesBoth (h : ¬ settings.NamesBoth) :
    (settings.withStrict true).policy = (settings.withStrict false).policy := by
  rw [policy_withStrict_false, policy, if_neg]
  · rfl
  · simpa [NamesBoth, withStrict] using h

theorem conflicts_withStrict_iff :
    (settings.withStrict true).policy.Conflicts ↔ settings.NamesBoth := by
  by_cases h : settings.NamesBoth
  · rw [policy_of_namesBoth h]
    exact iff_of_true ⟨_, rfl⟩ h
  · rw [policy_of_not_namesBoth h, policy_withStrict_false]
    refine iff_of_false ?_ h
    obtain ⟨policy, hpolicy⟩ := Policy.exists_select settings.force settings.outputFiles
      settings.outputFileEndings (settings.sourceSuffix.getD defaultSuffix)
    rintro ⟨reason, hreason⟩
    rw [hpolicy] at hreason
    cases hreason

/-! ### Main result -/

/-- Strict settings are refused exactly if the same settings without being strict get a warning and
there is no force. They are refused before anything is logged, and if they are not refused they get
the policy and the log that they get without being strict, which always get some policy. Under force
a warning changes nothing. -/
theorem policy_withStrict (settings : Settings) :
    ((settings.withStrict true).policy.Conflicts ↔
      (settings.withStrict false).policy.Warns ∧ settings.force = false) ∧
    ((settings.withStrict true).policy.Conflicts → (settings.withStrict true).policy.lines = []) ∧
    (¬ (settings.withStrict true).policy.Conflicts →
      (settings.withStrict true).policy = (settings.withStrict false).policy) ∧
    ∃ policy, (settings.withStrict false).policy.outcome = .ok policy := by
  rw [conflicts_withStrict_iff]
  refine ⟨?_, ?_, policy_of_not_namesBoth, ?_⟩
  · rw [policy_withStrict_false, Policy.select_warns_iff, NamesBoth]
    cases settings.force <;> simp
  · intro h
    rw [policy_of_namesBoth h]
    rfl
  · rw [policy_withStrict_false]
    exact Policy.exists_select ..

/-- Under force output files and output file endings are left aside with a warning, also by strict
settings. -/
theorem strict_accepts_under_force :
    let settings : Settings := {
      force := true, outputFiles := ["all.jar"], outputFileEndings := [".class"] }
    (settings.withStrict false).policy.Warns ∧ ¬ (settings.withStrict true).policy.Conflicts ∧
    (settings.withStrict true).policy = ⟨[
      ⟨.warning, "Not using staleness checking - ignoring outputFiles and outputFileEndings"⟩,
      ⟨.debug, "Processing all source files"⟩], .ok .always⟩ ∧
    ¬ ∀ settings : Settings, (settings.withStrict true).policy.Conflicts ↔
      (settings.withStrict false).policy.Warns := by
  intro settings
  have hwarns : (settings.withStrict false).policy.Warns := ⟨_, List.mem_cons_self, rfl⟩
  have hconflicts : ¬ (settings.withStrict true).policy.Conflicts := by
    rw [conflicts_withStrict_iff]
    rintro ⟨hforce, -⟩
    cases hforce
  exact ⟨hwarns, hconflicts, rfl, fun h => hconflicts ((h settings).2 hwarns)⟩

end Settings

end Rebuild
