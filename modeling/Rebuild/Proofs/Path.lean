import Mathlib.Data.List.Basic
import Rebuild.Path
import Rebuild.Proofs.Text

/-!
# Paths below a directory

A walk goes down from a root by one name after another. The path that it then has is the root joined
with the names between slashes, in the spelling of the root. A look-up of that path takes the pieces
of the root and after them the names; only an empty piece at the end of the root is lost, where the
root was spelled with a slash. And as no name has a slash in it, the names between slashes tell
which names they were.
-/

namespace Rebuild

theorem Path.isAbsolute_append {text : String} (h : text ≠ "") (rest : String) :
    Path.isAbsolute ⟨text ++ rest⟩ = Path.isAbsolute ⟨text⟩ := by
  have hlist : text.toList ≠ [] := by simpa using h
  rw [Path.isAbsolute, Path.isAbsolute, String.toList_append,
    List.head?_append_of_ne_nil _ hlist]

namespace FileName

/-- Names between slashes. -/
def joined (names : List FileName) : String :=
  "/".intercalate (names.map text)

variable {name : FileName} {names : List FileName}

theorem text_injective : Function.Injective text := by
  rintro ⟨a, _, _⟩ ⟨b, _, _⟩ h
  cases h
  rfl

theorem joined_singleton (name : FileName) : joined [name] = name.text :=
  String.intercalate_singleton

theorem joined_cons (name : FileName) (h : names ≠ []) :
    joined (name :: names) = name.text ++ "/" ++ joined names :=
  String.intercalate_cons_of_ne_nil (by simpa using h)

theorem splitFields_joined (h : names ≠ []) : Text.splitFields '/' (joined names) = names.map text := by
  induction names with
  | nil => exact absurd rfl h
  | cons name names ih =>
    cases names with
    | nil => rw [joined_singleton, Text.splitFields_of_notMem name.slash_notMem, List.map_singleton]
    | cons next names =>
      rw [joined_cons name (List.cons_ne_nil next names), Text.splitFields_slash_append,
        ih (List.cons_ne_nil next names), Text.splitFields_of_notMem name.slash_notMem]
      rfl

theorem joined_inj {others : List FileName} (hnames : names ≠ []) (hothers : others ≠ [])
    (h : joined names = joined others) : names = others := by
  have htexts : names.map text = others.map text := by
    rw [← splitFields_joined hnames, h, splitFields_joined hothers]
  exact text_injective.list_map htexts

theorem joined_isAbsolute (h : names ≠ []) : Path.isAbsolute ⟨joined names⟩ = false := by
  obtain ⟨name, rest, rfl⟩ := List.exists_cons_of_ne_nil h
  cases rest with
  | nil => rw [joined_singleton, Path.name_isAbsolute]
  | cons next rest =>
    rw [joined_cons name (List.cons_ne_nil next rest), String.append_assoc,
      Path.isAbsolute_append name.ne_empty, Path.name_isAbsolute]

end FileName

namespace Path

/-- The path that names lead to from a directory. -/
def below (directory : Path) (names : List FileName) : Path :=
  names.foldl child directory

variable {directory : Path} {name : FileName} {names : List FileName}

@[simp] theorem below_nil (directory : Path) : directory.below [] = directory := rfl

@[simp] theorem below_cons (directory : Path) (name : FileName) (names : List FileName) :
    directory.below (name :: names) = (directory.child name).below names := rfl

@[simp] theorem below_concat (directory : Path) (names : List FileName) (name : FileName) :
    directory.below (names ++ [name]) = (directory.below names).child name := by
  rw [below, List.foldl_append]
  rfl

theorem child_text_ne_empty (directory : Path) (name : FileName) :
    (directory.child name).text ≠ "" := by
  intro h
  have hsize := size_lt_child directory name
  rw [h, String.utf8ByteSize_empty] at hsize
  exact Nat.not_lt_zero _ hsize

/-- What is joined to a directory comes after one slash, and the slash may be the directory's own.
-/
theorem exists_stem (h : directory.text ≠ "") :
    ∃ stem, (directory.text = stem ∨ directory.text = stem ++ "/") ∧
      ∀ path : Path, path.isAbsolute = false → (directory.join path).text = stem ++ "/" ++ path.text := by
  by_cases hslash : directory.text.toList.getLast? = some '/'
  · obtain ⟨stem, hstem⟩ := List.getLast?_eq_some_iff.1 hslash
    have htext : directory.text = String.ofList stem ++ "/" := by
      rw [← String.toList_inj, hstem, String.toList_append, String.toList_ofList]
      rfl
    refine ⟨String.ofList stem, Or.inr htext, ?_⟩
    intro path hpath
    simp [join, hpath, h, hslash, ← htext]
  · refine ⟨directory.text, Or.inl rfl, ?_⟩
    intro path hpath
    simp [join, hpath, h, hslash]

theorem join_isAbsolute (h : directory.text ≠ "") {path : Path} (hpath : path.isAbsolute = false) :
    (directory.join path).isAbsolute = directory.isAbsolute := by
  rw [join, hpath, if_neg (by simpa using h)]
  split
  · exact isAbsolute_append h _
  · rw [String.append_assoc]
    exact isAbsolute_append h _

theorem child_isAbsolute (h : directory.text ≠ "") (name : FileName) :
    (directory.child name).isAbsolute = directory.isAbsolute :=
  join_isAbsolute h (name_isAbsolute name)

/-- The pieces of a joined path are those of the directory, but for an empty one at its end, and
then those of the relative path. -/
theorem pieces_join (h : directory.text ≠ "") :
    ∃ steps idle, steps ≠ [] ∧ directory.pieces = steps ++ idle ∧ (∀ piece ∈ idle, piece = "") ∧
      ∀ path : Path, path.isAbsolute = false → (directory.join path).pieces = steps ++ path.pieces := by
  obtain ⟨stem, hstem, hjoin⟩ := exists_stem h
  have hne := Text.splitFields_ne_nil '/' stem
  have hpieces : ∀ path : Path, path.isAbsolute = false →
      (directory.join path).pieces = Text.splitFields '/' stem ++ path.pieces := by
    intro path hpath
    rw [pieces, hjoin path hpath, Text.splitFields_slash_append]
    rfl
  rcases hstem with hstem | hstem
  · exact ⟨_, [], hne, by rw [pieces, hstem, List.append_nil], by simp, hpieces⟩
  · have hdirectory : directory.pieces = Text.splitFields '/' stem ++ [""] := by
      rw [pieces, hstem, ← String.append_empty (s := stem ++ "/"), Text.splitFields_slash_append]
      rfl
    exact ⟨_, [""], hne, hdirectory, by simp, hpieces⟩

/-- The steps of an entry's path are those of its directory and then the name. -/
theorem pieces_child (h : directory.text ≠ "") (name : FileName) :
    ∃ steps idle, directory.pieces = steps ++ idle ∧ (∀ piece ∈ idle, piece = "") ∧
      (directory.child name).pieces = steps ++ [name.text] := by
  obtain ⟨steps, idle, -, hdirectory, hidle, hjoin⟩ := pieces_join h
  refine ⟨steps, idle, hdirectory, hidle, ?_⟩
  rw [child, hjoin _ (name_isAbsolute name), pieces, Text.splitFields_of_notMem name.slash_notMem]

theorem nul_notMem_child (hdirectory : '\x00' ∉ directory.text.toList)
    (hname : '\x00' ∉ name.text.toList) : '\x00' ∉ (directory.child name).text.toList := by
  rw [child, join]
  split
  · exact hname
  · split
    · simp [hdirectory, hname]
    · simp [hdirectory, hname]

/-! ### Joining from either end -/

theorem join_of_absolute {path : Path} (h : path.isAbsolute = true) : directory.join path = path := by
  rw [join, h, Bool.true_or, if_pos rfl]

theorem join_of_empty (h : directory.text = "") (path : Path) : directory.join path = path := by
  rw [join, if_pos (by simp [h])]

theorem text_join (h : directory.text ≠ "") {path : Path} (hpath : path.isAbsolute = false) :
    (directory.join path).text = directory.text ++
      (if directory.text.toList.getLast? = some '/' then "" else "/") ++ path.text := by
  rw [join, if_neg (by simp [h, hpath])]
  split
  · simp
  · rfl

/-- Whether a slash is put between depends on what stands right before it, and not on what was joined
there already; only an empty directory has nothing before it. -/
theorem join_assoc (base directory path : Path) :
    (base.join directory).join path = base.join (directory.join path) := by
  by_cases hpath : path.isAbsolute = true
  · rw [join_of_absolute hpath, join_of_absolute hpath, join_of_absolute hpath]
  by_cases hbase : base.text = ""
  · rw [join_of_empty hbase, join_of_empty hbase]
  rw [Bool.not_eq_true] at hpath
  by_cases hempty : directory.text = ""
  · have hrelative : directory.isAbsolute = false := by simp [isAbsolute, hempty]
    suffices htext : ((base.join directory).join path).text
        = (base.join (directory.join path)).text from congrArg mk htext
    have hjoined : (base.join directory).text ≠ "" := by simp [text_join hbase hrelative, hbase]
    rw [join_of_empty hempty, text_join hjoined hpath, text_join hbase hpath,
      text_join hbase hrelative, hempty]
    split
    · simp [*]
    · simp
  by_cases habsolute : directory.isAbsolute = true
  · have hjoined := (join_isAbsolute hempty hpath).trans habsolute
    rw [join_of_absolute habsolute, join_of_absolute hjoined]
  · rw [Bool.not_eq_true] at habsolute
    suffices htext : ((base.join directory).join path).text
        = (base.join (directory.join path)).text from congrArg mk htext
    have hjoined : (base.join directory).text ≠ "" := by simp [text_join hbase habsolute, hempty]
    have hrest : (directory.join path).isAbsolute = false :=
      (join_isAbsolute hempty hpath).trans habsolute
    have hlast : (base.join directory).text.toList.getLast? = directory.text.toList.getLast? := by
      rw [text_join hbase habsolute, String.toList_append,
        List.getLast?_append_of_ne_nil _ (by simpa using hempty)]
    rw [text_join hjoined hpath, text_join hbase hrest, hlast, text_join hbase habsolute,
      text_join hempty hpath]
    simp only [String.append_assoc]

theorem below_join (base directory : Path) (names : List FileName) :
    (base.join directory).below names = base.join (directory.below names) := by
  induction names generalizing directory with
  | nil => rfl
  | cons name names ih => rw [below_cons, below_cons, child, join_assoc, ih, child]

/-- What is joined to an entry's path comes after the entry's name and a slash. -/
theorem child_join (directory : Path) (name : FileName) {text : String}
    (htext : Path.isAbsolute ⟨text⟩ = false) :
    (directory.child name).join ⟨text⟩ = directory.join ⟨name.text ++ "/" ++ text⟩ := by
  have hlast : name.text.toList.getLast? ≠ some '/' :=
    fun hslash => name.slash_notMem (List.mem_of_getLast? hslash)
  have hname : join ⟨name.text⟩ ⟨text⟩ = ⟨name.text ++ "/" ++ text⟩ := by
    rw [join, if_neg (by simp [htext, name.ne_empty]), if_neg hlast]
  rw [child, join_assoc, hname]

/-- The path that names lead to is the directory joined with the names between slashes. -/
theorem below_eq_join (directory : Path) (h : names ≠ []) :
    directory.below names = directory.join ⟨FileName.joined names⟩ := by
  induction names generalizing directory with
  | nil => exact absurd rfl h
  | cons name names ih =>
    cases names with
    | nil => rw [FileName.joined_singleton]; rfl
    | cons next names =>
      have hrest := List.cons_ne_nil next names
      rw [below_cons, ih (directory.child name) hrest, FileName.joined_cons name hrest,
        child_join directory name (FileName.joined_isAbsolute hrest)]

end Path

end Rebuild
