import Mathlib.Data.List.Forall2
import Rebuild.Proofs.Path.Components
import Rebuild.Staleness.Targets

/-!
# Where the targets of a source are

A target takes its name from the source: the source's suffix is cut off, and another one is put in
its place. What is cut off can be more than an ending of the last name. It can be all of that name,
or reach into the directories above. But the suffix that comes instead has no slash in it and is not
made of dots, so the piece that it ends is a name, and the pieces in front of it are directories of
the source. So every target is below the target directory.

Two sources with one suffix differ in what is left of them. As no step of a target's path is lost
when its components are read, their targets are different paths.
-/

namespace Rebuild

open FileName (Normal joined)

/-- A suffix that makes a name of whatever it is put after: it has no slash, and there is something
else in it than dots. -/
structure ProperSuffix (suffix : String) : Prop where
  slash_notMem : '/' ∉ suffix.toList
  exists_ne_dot : ∃ c ∈ suffix.toList, c ≠ '.'

namespace ProperSuffix

variable {suffix front : String}

theorem append_ne_dots (h : ProperSuffix suffix) (front : String) (n : Nat) :
    (front ++ suffix).toList ≠ List.replicate n '.' := by
  obtain ⟨c, hc, hne⟩ := h.exists_ne_dot
  intro hdots
  refine hne (List.eq_of_mem_replicate (?_ : c ∈ List.replicate n '.'))
  rw [← hdots, String.toList_append]
  exact List.mem_append_right _ hc

/-- The name that ends in the suffix. -/
def name (h : ProperSuffix suffix) (hfront : '/' ∉ front.toList) : FileName where
  text := front ++ suffix
  ne_empty := fun hempty => h.append_ne_dots front 0 (congrArg String.toList hempty)
  slash_notMem := by simp [hfront, h.slash_notMem]

theorem normal_name (h : ProperSuffix suffix) (hfront : '/' ∉ front.toList) :
    (h.name hfront).Normal where
  ne_here := fun hdot => h.append_ne_dots front 1 (congrArg String.toList hdot)
  ne_parent := fun hdots => h.append_ne_dots front 2 (congrArg String.toList hdots)

end ProperSuffix

variable {directory : Path} {names others : List FileName} {base cut tail suffix : String}
  {tails : List String}

/-- What is left of names when something is cut off at their end, with a suffix put there instead,
is names again. -/
theorem exists_joined_of_cut (hnames : ∀ name ∈ names, name.Normal)
    (hcut : joined names = base ++ cut) (htail : ProperSuffix tail) :
    ∃ left : List FileName, left ≠ [] ∧ (∀ name ∈ left, name.Normal) ∧
      base ++ tail = joined left := by
  by_cases hslash : '/' ∈ base.toList
  · obtain ⟨front, last, rfl, hlast⟩ := Text.exists_last_slash hslash
    have hne : names ≠ [] := by
      rintro rfl
      have hempty := congrArg String.toList hcut
      simp [joined] at hempty
    have hpieces : names.map FileName.text
        = Text.splitFields '/' front ++ Text.splitFields '/' (last ++ cut) := by
      rw [← FileName.splitFields_joined hne, hcut, String.append_assoc,
        Text.splitFields_slash_append]
    obtain ⟨kept, others, rfl, hkept, -⟩ := List.map_eq_append_iff.1 hpieces
    have hfront : joined kept = front := by
      rw [joined, hkept, Text.intercalate_splitFields]
    have hkeptne : kept.map FileName.text ≠ [] := by
      rw [hkept]
      exact Text.splitFields_ne_nil '/' front
    refine ⟨kept ++ [htail.name hlast], by simp, ?_, ?_⟩
    · rw [List.forall_mem_append]
      refine ⟨fun name hname => hnames name (List.mem_append_left others hname), ?_⟩
      exact List.forall_mem_singleton.2 (htail.normal_name hlast)
    · rw [joined, List.map_append, List.map_singleton,
        String.intercalate_append_of_ne_nil hkeptne (List.cons_ne_nil _ _), ← joined, hfront,
        String.intercalate_singleton, String.append_assoc]
      rfl
  · refine ⟨[htail.name hslash], List.cons_ne_nil _ [], ?_, ?_⟩
    · exact List.forall_mem_singleton.2 (htail.normal_name hslash)
    · rw [FileName.joined_singleton]
      rfl

/-- A path that comes to lie in a directory, or further down, by names alone. -/
def Path.Within (path directory : Path) : Prop :=
  ∃ names : List FileName, names ≠ [] ∧ (∀ name ∈ names, name.Normal) ∧
    path.components = directory.components ++ names.map .name

theorem within_of_cut (hnames : ∀ name ∈ names, name.Normal) (hcut : joined names = base ++ cut)
    (htail : ProperSuffix tail) : (directory.join ⟨base ++ tail⟩).Within directory := by
  obtain ⟨left, hne, hleft, hjoined⟩ := exists_joined_of_cut hnames hcut htail
  refine ⟨left, hne, hleft, ?_⟩
  rw [hjoined, Path.components_join_joined hleft hne]

/-- Names that are the same after their suffix has been replaced were the same before. -/
theorem joined_eq_of_same {base' : String} (hnames : ∀ name ∈ names, name.Normal)
    (hothers : ∀ name ∈ others, name.Normal) (hcut : joined names = base ++ suffix)
    (hcut' : joined others = base' ++ suffix) (htail : ProperSuffix tail)
    (hsame : (directory.join ⟨base ++ tail⟩).Same (directory.join ⟨base' ++ tail⟩)) :
    joined names = joined others := by
  obtain ⟨left, hne, hleft, hjoined⟩ := exists_joined_of_cut hnames hcut htail
  obtain ⟨left', hne', hleft', hjoined'⟩ := exists_joined_of_cut hothers hcut' htail
  rw [Path.Same, hjoined, hjoined', Path.components_join_joined hleft hne,
    Path.components_join_joined hleft' hne'] at hsame
  have hsteps : left.map Path.Component.name = left'.map .name := List.append_cancel_left hsame
  have hbases : base ++ tail = base' ++ tail := by
    rw [hjoined, hjoined', List.map_injective_iff.2 (fun _ _ => Path.Component.name.inj) hsteps]
  rw [hcut, hcut', (String.append_left_inj tail).1 hbases]

namespace Mapping

theorem exists_base {source : String} (h : suffix.toList <:+ source.toList) :
    ∃ base, source = base ++ suffix := by
  obtain ⟨front, hfront⟩ := h
  refine ⟨String.ofList front, ?_⟩
  rw [← String.toList_inj, ← hfront, String.toList_append, String.toList_ofList]

theorem targets_of_eq {source : String} (h : source = base ++ suffix) :
    (Mapping.suffix suffix tails).targets directory source
      = tails.map fun tail => directory.join ⟨base ++ tail⟩ := by
  have hstrip : Text.stripTail? source.toList suffix.toList = some base.toList :=
    Text.stripTail?_eq_some_iff.2 (by rw [h, String.toList_append])
  rw [targets, hstrip]
  simp only [String.ofList_toList]

theorem targets_of_not_suffix {source : String} (h : ¬ suffix.toList <:+ source.toList) :
    (Mapping.suffix suffix tails).targets directory source = [] := by
  have hstrip : Text.stripTail? source.toList suffix.toList = none := by
    rw [Text.stripTail?, if_neg (by rwa [List.isSuffixOf_iff_suffix])]
  rw [targets, hstrip]

/-- All targets of a source are within the target directory, as many as there are target suffixes if
the source has the suffix of the mapping. And two sources that have it have no target in common that
is made with one target suffix. -/
theorem targets_within_and_apart (directory : Path) (suffix : String)
    (htails : ∀ tail ∈ tails, ProperSuffix tail) (hnames : ∀ name ∈ names, name.Normal) :
    (∀ target ∈ (Mapping.suffix suffix tails).targets directory (joined names),
      target.Within directory) ∧
    (suffix.toList <:+ (joined names).toList →
      ((Mapping.suffix suffix tails).targets directory (joined names)).length = tails.length ∧
      ∀ others : List FileName, (∀ name ∈ others, name.Normal) →
        suffix.toList <:+ (joined others).toList → joined names ≠ joined others →
        List.Forall₂ (fun target other => ¬ target.Same other)
          ((Mapping.suffix suffix tails).targets directory (joined names))
          ((Mapping.suffix suffix tails).targets directory (joined others))) := by
  constructor
  · intro target htarget
    by_cases hcarried : suffix.toList <:+ (joined names).toList
    · obtain ⟨base, hbase⟩ := exists_base hcarried
      rw [targets_of_eq hbase] at htarget
      obtain ⟨tail, htail, rfl⟩ := List.mem_map.1 htarget
      exact within_of_cut hnames hbase (htails tail htail)
    · rw [targets_of_not_suffix hcarried] at htarget
      cases htarget
  · intro hcarried
    obtain ⟨base, hbase⟩ := exists_base hcarried
    rw [targets_of_eq hbase]
    refine ⟨List.length_map _, ?_⟩
    intro others hothers hcarried' hne
    obtain ⟨base', hbase'⟩ := exists_base hcarried'
    rw [targets_of_eq hbase', List.forall₂_map_left_iff, List.forall₂_map_right_iff,
      List.forall₂_same]
    intro tail htail hsame
    exact hne (joined_eq_of_same hnames hothers hbase hbase' (htails tail htail) hsame)

/-- Where a name has nothing but dots left, the suffix that comes after them makes a name of it. -/
theorem targets_of_dotted_names :
    let a : FileName := ⟨"a", by decide, by decide⟩
    let dotted : FileName := ⟨"..java", by decide, by decide⟩
    let mapping := Mapping.suffix ".java" [".class", "~"]
    (∀ tail ∈ [".class", "~"], ProperSuffix tail) ∧ a.Normal ∧ dotted.Normal ∧
    ".java".toList <:+ (joined [a, dotted]).toList ∧ ".java".toList <:+ (joined [dotted]).toList ∧
    (mapping.targets ⟨"out/"⟩ (joined [a, dotted])).map Path.text = ["out/a/..class", "out/a/.~"] ∧
    (∀ target ∈ mapping.targets ⟨"out/"⟩ (joined [a, dotted]), target.Within ⟨"out/"⟩) ∧
    List.Forall₂ (fun target other => ¬ target.Same other)
      (mapping.targets ⟨"out/"⟩ (joined [a, dotted]))
      (mapping.targets ⟨"out/"⟩ (joined [dotted])) := by
  intro a dotted mapping
  have htails : ∀ tail ∈ [".class", "~"], ProperSuffix tail := by
    simp only [List.forall_mem_cons]
    exact ⟨⟨by decide, 'c', by decide, by decide⟩, ⟨by decide, '~', by decide, by decide⟩, by simp⟩
  have hnames : ∀ name ∈ [a, dotted], name.Normal := by decide
  have hcarried : ".java".toList <:+ (joined [a, dotted]).toList := by decide
  have hcarried' : ".java".toList <:+ (joined [dotted]).toList := by decide
  obtain ⟨hwithin, hapart⟩ := targets_within_and_apart ⟨"out/"⟩ ".java" htails hnames
  exact ⟨htails, by decide, by decide, hcarried, hcarried', by decide, hwithin,
    (hapart hcarried).2 [dotted] (by decide) hcarried' (by decide)⟩

end Mapping

end Rebuild
