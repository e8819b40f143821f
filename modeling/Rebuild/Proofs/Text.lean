import Mathlib.Data.List.DropRight
import Rebuild.Text.Blank

/-!
# Fields and trimmed texts

The fields of a text are the one way to write it with separators between pieces that have none in
them. Trimming leaves the one part of a text that has no white space at its ends and only white
space around it. So a text that is trimmed and then split is known by what it is put together from,
and no proof about a reader has to follow how it goes through the text.
-/

namespace Rebuild.Text

variable {separator : Char} {text core front back field : List Char} {parts : List (List Char)}
  {p : Char → Bool}

/-! ### Fields -/

theorem fields_eq_splitOn (separator : Char) (text : List Char) :
    fields separator text = text.splitOn separator := by
  induction text with
  | nil => rw [fields, List.splitOn_nil]
  | cons c text ih =>
    obtain ⟨first, others, hfields⟩ := List.exists_cons_of_ne_nil (fields_ne_nil separator text)
    rw [List.splitOn_cons_eq_if_modifyHead, ← ih, fields, hfields]
    by_cases h : c = separator
    · simp [h]
    · simp [h]

theorem fields_of_notMem (h : separator ∉ text) : fields separator text = [text] := by
  rw [fields_eq_splitOn, List.splitOn_eq_singleton h]

theorem fields_append_cons (text rest : List Char) :
    fields separator (text ++ separator :: rest)
      = fields separator text ++ fields separator rest := by
  rw [fields_eq_splitOn, fields_eq_splitOn, fields_eq_splitOn, List.splitOn_append_cons_self]

theorem splitFields_ne_nil (separator : Char) (text : String) :
    splitFields separator text ≠ [] := by
  rw [splitFields, ne_eq, List.map_eq_nil_iff]
  exact fields_ne_nil separator text.toList

theorem splitFields_of_notMem {text : String} (h : separator ∉ text.toList) :
    splitFields separator text = [text] := by
  rw [splitFields, fields_of_notMem h, List.map_singleton, String.ofList_toList]

theorem splitFields_slash_append (text rest : String) :
    splitFields '/' (text ++ "/" ++ rest) = splitFields '/' text ++ splitFields '/' rest := by
  have hlist : (text ++ "/" ++ rest).toList = text.toList ++ '/' :: rest.toList := by
    rw [String.toList_append, String.toList_append, List.append_assoc]
    rfl
  rw [splitFields, hlist, fields_append_cons, List.map_append]
  rfl

theorem mem_of_mem_fields {c : Char} (hfield : field ∈ fields separator text) (hc : c ∈ field) :
    c ∈ text := by
  induction text generalizing field with
  | nil =>
    obtain rfl := List.mem_singleton.1 hfield
    exact hc
  | cons first rest ih =>
    obtain ⟨start, others, hrest⟩ := List.exists_cons_of_ne_nil (fields_ne_nil separator rest)
    rw [fields, hrest] at hfield
    rw [hrest] at ih
    split at hfield
    · rcases List.mem_cons.1 hfield with rfl | hmem
      · cases hc
      · exact List.mem_cons_of_mem first (ih hmem hc)
    · rcases List.mem_cons.1 hfield with rfl | hmem
      · rcases List.mem_cons.1 hc with rfl | hc
        · exact List.mem_cons_self
        · exact List.mem_cons_of_mem first (ih List.mem_cons_self hc)
      · exact List.mem_cons_of_mem first (ih (List.mem_cons_of_mem start hmem) hc)

theorem notMem_of_mem_fields (h : field ∈ fields separator text) : separator ∉ field := by
  induction text generalizing field with
  | nil =>
    rw [List.mem_singleton.1 h]
    exact List.not_mem_nil
  | cons c text ih =>
    obtain ⟨first, others, hfields⟩ := List.exists_cons_of_ne_nil (fields_ne_nil separator text)
    rw [fields, hfields] at h
    rw [hfields] at ih
    split at h
    case isTrue hc =>
      rcases List.mem_cons.1 h with rfl | h
      · exact List.not_mem_nil
      · exact ih h
    case isFalse hc =>
      rcases List.mem_cons.1 h with rfl | h
      · rw [List.mem_cons, not_or]
        exact ⟨Ne.symm hc, ih List.mem_cons_self⟩
      · exact ih (List.mem_cons_of_mem first h)

/-- Pieces without separators are the fields of what they are put together to. -/
theorem fields_eq_iff (hparts : parts ≠ []) :
    fields separator text = parts ↔
      [separator].intercalate parts = text ∧ ∀ part ∈ parts, separator ∉ part := by
  constructor
  · rintro rfl
    refine ⟨?_, fun part hpart => notMem_of_mem_fields hpart⟩
    rw [fields_eq_splitOn, List.intercalate_splitOn]
  · rintro ⟨rfl, hfree⟩
    rw [fields_eq_splitOn, List.splitOn_intercalate separator hfree hparts]

/-- The pieces of a text between slashes, put together again. -/
theorem intercalate_splitFields (text : String) :
    "/".intercalate (splitFields '/' text) = text := by
  have hfields : (splitFields '/' text).map String.toList = text.toList.splitOn '/' := by
    rw [splitFields, ← fields_eq_splitOn]
    simp
  rw [← String.toList_inj, String.toList_intercalate, hfields]
  exact List.intercalate_splitOn '/'

theorem exists_last_slash {text : String} (h : '/' ∈ text.toList) :
    ∃ front last : String, text = front ++ "/" ++ last ∧ '/' ∉ last.toList := by
  obtain ⟨before, after, hreverse, hbefore⟩ := List.eq_append_cons_of_mem (List.mem_reverse.2 h)
  refine ⟨String.ofList after.reverse, String.ofList before.reverse, ?_, by simpa using hbefore⟩
  rw [← String.toList_inj, ← List.reverse_reverse text.toList, hreverse]
  simp

theorem stripTail?_eq_some_iff {text tail base : List Char} :
    stripTail? text tail = some base ↔ base ++ tail = text := by
  rw [stripTail?]
  split
  case isTrue h =>
    obtain ⟨front, rfl⟩ := List.isSuffixOf_iff_suffix.1 h
    simp [eq_comm]
  case isFalse h =>
    rw [List.isSuffixOf_iff_suffix] at h
    refine iff_of_false (by simp) ?_
    rintro rfl
    exact h (List.suffix_append base tail)

/-! ### White space at the ends -/

theorem dropTailWhile_eq_rdropWhile (p : Char → Bool) (text : List Char) :
    dropTailWhile p text = text.rdropWhile p := rfl

theorem dropTailWhile_eq_self_iff :
    dropTailWhile p text = text ↔ ∀ c ∈ text.getLast?, p c = false := by
  rw [dropTailWhile_eq_rdropWhile, List.rdropWhile_eq_self_iff]
  constructor
  · intro h c hc
    obtain ⟨hne, rfl⟩ := List.mem_getLast?_eq_getLast hc
    exact Bool.eq_false_iff.2 (h hne)
  · intro h hne
    exact Bool.eq_false_iff.1 (h _ (List.getLast?_eq_getLast_of_ne_nil hne))

theorem not_of_last_dropTailWhile : ∀ c ∈ (dropTailWhile p text).getLast?, p c = false :=
  dropTailWhile_eq_self_iff.1 (List.rdropWhile_idempotent p text)

/-- There is no white space at the ends of a text. -/
structure Trimmed (text : List Char) : Prop where
  head : ∀ c ∈ text.head?, isBlank c = false
  last : ∀ c ∈ text.getLast?, isBlank c = false

theorem trimmed_trim (text : List Char) : Trimmed (trim text) := by
  refine ⟨?_, not_of_last_dropTailWhile⟩
  intro c hc
  obtain ⟨back, hback⟩ : trim text <+: text.dropWhile isBlank := List.rdropWhile_prefix isBlank _
  have hhead : (text.dropWhile isBlank).head? = some c := by
    rw [← hback, List.head?_append, Option.mem_def.1 hc, Option.some_or]
  have hnot := List.head?_dropWhile_not isBlank text
  rwa [hhead] at hnot

theorem trim_of_trimmed (h : Trimmed core) (hfront : ∀ c ∈ front, isBlank c = true)
    (hback : ∀ c ∈ back, isBlank c = true) : trim (front ++ core ++ back) = core := by
  have hwhole : dropTailWhile isBlank (core ++ back) = core := by
    rw [dropTailWhile, List.reverse_append, List.dropWhile_append_of_pos (by simpa using hback)]
    exact dropTailWhile_eq_self_iff.2 h.last
  rw [trim, List.append_assoc, List.dropWhile_append_of_pos hfront]
  cases core with
  | nil =>
    rw [List.nil_append, List.dropWhile_eq_nil_iff.2 hback]
    rfl
  | cons c rest =>
    have hc : ¬ isBlank c = true := Bool.eq_false_iff.1 (h.head c rfl)
    rw [List.cons_append, List.dropWhile_cons_of_neg hc]
    exact hwhole

/-- What is left of a text is the part without white space at its ends that has only white space
around it. -/
theorem trim_eq_iff : trim text = core ↔ Trimmed core ∧ ∃ front back, text = front ++ core ++ back ∧
    (∀ c ∈ front, isBlank c = true) ∧ ∀ c ∈ back, isBlank c = true := by
  constructor
  · rintro rfl
    refine ⟨trimmed_trim text, text.takeWhile isBlank, (text.dropWhile isBlank).rtakeWhile isBlank,
      ?_, fun c hc => List.mem_takeWhile_imp hc, fun c hc => List.mem_rtakeWhile_imp hc⟩
    rw [List.append_assoc, trim, dropTailWhile_eq_rdropWhile, List.rdropWhile_append_rtakeWhile,
      List.takeWhile_append_dropWhile]
  · rintro ⟨hcore, front, back, rfl, hfront, hback⟩
    exact trim_of_trimmed hcore hfront hback

end Rebuild.Text
