import Rebuild.Proofs.Project.Key

/-!
# The texts that list coordinates

A text lists coordinates if it has them one after the other with colons between them, and nothing but
white space around the whole. There is only one way to see a text so. The white space around is all
that the text has at its two ends, since neither the group begins with any nor the last coordinate
ends with any; and what is left has its colons between the coordinates, since none has a colon in it.
What is not of this form has too few colons or too many, or a coordinate in it is empty.
-/

namespace Rebuild

theorem Text.length_fields (separator : Char) (text : List Char) :
    (Text.fields separator text).length = text.count separator + 1 := by
  induction text with
  | nil => rfl
  | cons c text ih =>
    obtain ⟨first, others, hfields⟩ := List.exists_cons_of_ne_nil (fields_ne_nil separator text)
    rw [fields, List.count_cons]
    rw [hfields] at ih ⊢
    by_cases h : c = separator
    · simpa [h] using ih
    · simpa [h] using ih

theorem Text.count_trim {separator : Char} (h : isBlank separator = false) (text : List Char) :
    (trim text).count separator = text.count separator := by
  obtain ⟨-, front, back, htext, hfront, hback⟩ := trim_eq_iff.1 (rfl : trim text = trim text)
  have hnone : ∀ {blanks : List Char}, (∀ c ∈ blanks, isBlank c = true) →
      blanks.count separator = 0 := by
    intro blanks hblanks
    rw [List.count_eq_zero]
    intro hmem
    rw [hblanks separator hmem] at h
    cases h
  conv_rhs => rw [htext]
  rw [List.count_append, List.count_append, hnone hfront, hnone hback, Nat.zero_add, Nat.add_zero]

namespace Coordinates

variable {text : String} {coordinates other : Coordinates} {front back front' back' : List Char}

/-- The last of the coordinates. -/
def last (coordinates : Coordinates) : String :=
  coordinates.version.getD coordinates.key.artifact

/-- A text has coordinates in it, with colons between them, and white space before and after. -/
structure Lists (text : String) (front : List Char) (coordinates : Coordinates) (back : List Char) :
    Prop where
  text_eq : text.toList = front ++ coordinates.written.toList ++ back
  front_blank : ∀ c ∈ front, Text.isBlank c = true
  back_blank : ∀ c ∈ back, Text.isBlank c = true
  plain : ∀ coordinate ∈ coordinates.toList, Plain coordinate
  head : ∀ c ∈ coordinates.key.group.toList.head?, Text.isBlank c = false
  last : ∀ c ∈ coordinates.last.toList.getLast?, Text.isBlank c = false

theorem exists_written_eq_group_append (coordinates : Coordinates) :
    ∃ rest, coordinates.written.toList = coordinates.key.group.toList ++ rest := by
  rw [written, toList, String.intercalate_cons_of_ne_nil (List.cons_ne_nil _ _), String.append_assoc,
    String.toList_append]
  exact ⟨_, rfl⟩

theorem exists_written_eq_append_last (coordinates : Coordinates) :
    ∃ start, coordinates.written.toList = start ++ coordinates.last.toList := by
  obtain ⟨⟨group, artifact⟩, version⟩ := coordinates
  cases version with
  | none =>
    refine ⟨(group ++ ":").toList, ?_⟩
    rw [← String.toList_append]
    rfl
  | some version =>
    refine ⟨(group ++ ":" ++ artifact ++ ":").toList, ?_⟩
    rw [← String.toList_append]
    rfl

theorem last_mem (coordinates : Coordinates) : coordinates.last ∈ coordinates.toList := by
  obtain ⟨key, version⟩ := coordinates
  cases version <;> simp [last, toList]

/-- Whether there is white space at the ends of the coordinates depends on the first and the last of
them. -/
theorem trimmed_written_iff (hplain : ∀ coordinate ∈ coordinates.toList, Plain coordinate) :
    Text.Trimmed coordinates.written.toList ↔
      (∀ c ∈ coordinates.key.group.toList.head?, Text.isBlank c = false) ∧
        ∀ c ∈ coordinates.last.toList.getLast?, Text.isBlank c = false := by
  obtain ⟨rest, hrest⟩ := exists_written_eq_group_append coordinates
  obtain ⟨start, hstart⟩ := exists_written_eq_append_last coordinates
  have hgroup : coordinates.key.group.toList ≠ [] := by
    simpa using (hplain _ List.mem_cons_self).ne_empty
  have hlast : coordinates.last.toList ≠ [] := by
    simpa using (hplain _ coordinates.last_mem).ne_empty
  have hheads : coordinates.written.toList.head? = coordinates.key.group.toList.head? := by
    rw [hrest, List.head?_append_of_ne_nil _ hgroup]
  have hlasts : coordinates.written.toList.getLast? = coordinates.last.toList.getLast? := by
    rw [hstart, List.getLast?_append_of_ne_nil _ hlast]
  rw [← hheads, ← hlasts]
  exact ⟨fun h => ⟨h.head, h.last⟩, fun h => ⟨h.1, h.2⟩⟩

theorem parse_eq_ok_iff_lists :
    parse text = .ok coordinates ↔ ∃ front back, Lists text front coordinates back := by
  rw [parse_eq_ok_iff, Text.trim_eq_iff]
  constructor
  · rintro ⟨⟨htrimmed, front, back, htext, hfront, hback⟩, hplain⟩
    obtain ⟨hhead, hlast⟩ := (trimmed_written_iff hplain).1 htrimmed
    exact ⟨front, back, htext, hfront, hback, hplain, hhead, hlast⟩
  · rintro ⟨front, back, h⟩
    exact ⟨⟨(trimmed_written_iff h.plain).2 ⟨h.head, h.last⟩, front, back, h.text_eq, h.front_blank,
      h.back_blank⟩, h.plain⟩

theorem Lists.front_eq (h : Lists text front coordinates back) :
    front = text.toList.takeWhile Text.isBlank := by
  have hgroup : coordinates.key.group.toList ≠ [] := by
    simpa using (h.plain _ List.mem_cons_self).ne_empty
  obtain ⟨c, group, hcons⟩ := List.exists_cons_of_ne_nil hgroup
  obtain ⟨rest, hrest⟩ := exists_written_eq_group_append coordinates
  have hc : ¬ Text.isBlank c = true := Bool.eq_false_iff.1 (h.head c (by rw [hcons]; rfl))
  rw [h.text_eq, List.append_assoc, List.takeWhile_append_of_pos h.front_blank, hrest, hcons,
    List.cons_append, List.cons_append, List.takeWhile_cons_of_neg hc, List.append_nil]

/-- There is one way to see a text as a list of coordinates. -/
theorem Lists.unique (h : Lists text front coordinates back) (h' : Lists text front' other back') :
    front = front' ∧ coordinates = other ∧ back = back' := by
  have hfront : front = front' := h.front_eq.trans h'.front_eq.symm
  have hsame : coordinates = other := by
    have hparse := parse_eq_ok_iff_lists.2 ⟨front, back, h⟩
    exact Except.ok.inj (hparse.symm.trans (parse_eq_ok_iff_lists.2 ⟨front', back', h'⟩))
  subst hfront hsame
  exact ⟨rfl, rfl, List.append_cancel_left (h.text_eq.symm.trans h'.text_eq)⟩

theorem ofList?_eq_none_iff (parts : List String) :
    ofList? parts = none ↔ ¬ (parts.length = 2 ∨ parts.length = 3) := by
  match parts with
  | [] => simp [ofList?]
  | [_] => simp [ofList?]
  | [_, _] => simp [ofList?]
  | [_, _, _] => simp [ofList?]
  | _ :: _ :: _ :: _ :: rest => simp [ofList?]

/-- The reason why a text is refused is to be seen from its colons. -/
theorem parse_eq_error (h : ∀ coordinates, parse text ≠ .ok coordinates) :
    parse text = .error (.malformedKey text
      (if text.toList.count ':' = 1 ∨ text.toList.count ':' = 2 then "coordinates must not be empty"
        else "expected groupId:artifactId[:version]")) := by
  have hlength : ((Text.fields ':' (Text.trim text.toList)).map String.ofList).length
      = text.toList.count ':' + 1 := by
    rw [List.length_map, Text.length_fields, Text.count_trim (by decide)]
  have hcounts := ofList?_eq_none_iff ((Text.fields ':' (Text.trim text.toList)).map String.ofList)
  rw [hlength, Nat.succ_inj, Nat.succ_inj] at hcounts
  rw [parse_eq] at h ⊢
  cases hparts : ofList? ((Text.fields ':' (Text.trim text.toList)).map String.ofList) with
  | none => rw [if_neg (hcounts.1 hparts)]
  | some coordinates =>
    rw [hparts] at h hcounts
    have hcount : text.toList.count ':' = 1 ∨ text.toList.count ':' = 2 := by
      by_contra hnot
      cases hcounts.2 hnot
    rw [if_pos hcount]
    dsimp only at h ⊢
    split
    case isTrue => rfl
    case isFalse hplain => exact absurd (if_neg hplain) (h coordinates)

/-! ### Main result -/

/-- A text is read as coordinates exactly if it lists them, with white space around, and it lists
coordinates in one way only. Every other text is refused and handed back as it was given; if it has
one colon or two, it is because a coordinate is empty. -/
theorem parse_exact (text : String) :
    (∀ coordinates, parse text = .ok coordinates ↔
      ∃ front back, Lists text front coordinates back) ∧
    (∀ front coordinates back, Lists text front coordinates back →
      ∀ front' other back', Lists text front' other back' →
        front' = front ∧ other = coordinates ∧ back' = back) ∧
    ((∀ front coordinates back, ¬ Lists text front coordinates back) →
      parse text = .error (.malformedKey text
        (if text.toList.count ':' = 1 ∨ text.toList.count ':' = 2 then
          "coordinates must not be empty" else "expected groupId:artifactId[:version]"))) := by
  refine ⟨fun coordinates => parse_eq_ok_iff_lists, ?_, ?_⟩
  · intro front coordinates back h front' other back' h'
    exact h'.unique h
  · intro hnone
    apply parse_eq_error
    intro coordinates hparse
    obtain ⟨front, back, h⟩ := parse_eq_ok_iff_lists.1 hparse
    exact hnone front coordinates back h

/-- White space next to a colon belongs to a coordinate, a no-break space in front of all does not,
and a coordinate that would be nothing but the end of the text is missing. -/
theorem parse_of_blanks_inside :
    let text := "\u00a0g :a: 1\n"
    let coordinates : Coordinates := ⟨⟨"g ", "a"⟩, some " 1"⟩
    Lists text ['\u00a0'] coordinates ['\n'] ∧ parse text = .ok coordinates ∧
    (∀ front other back, Lists text front other back →
      front = ['\u00a0'] ∧ other = coordinates ∧ back = ['\n']) ∧
    (∀ front other back, ¬ Lists "g: " front other back) ∧
    parse "g: " = .error (.malformedKey "g: " "coordinates must not be empty") := by
  intro text coordinates
  have hlists : Lists text ['\u00a0'] coordinates ['\n'] := by
    refine ⟨by decide, by simp [Text.isBlank], by simp [Text.isBlank], ?_,
      by simp [coordinates, Text.isBlank], by simp [coordinates, last, Text.isBlank]⟩
    intro coordinate hmem
    have hmem : coordinate = "g " ∨ coordinate = "a" ∨ coordinate = " 1" := by
      simpa [coordinates, toList] using hmem
    rcases hmem with rfl | rfl | rfl
    · exact ⟨by decide, by decide⟩
    · exact ⟨by decide, by decide⟩
    · exact ⟨by decide, by decide⟩
  obtain ⟨hread, honly, -⟩ := parse_exact text
  obtain ⟨hblank, -, hrefused⟩ := parse_exact "g: "
  have hnone : ∀ front other back, ¬ Lists "g: " front other back := by
    intro front other back h
    have hok := (hblank other).2 ⟨front, back, h⟩
    have hfails : (parse "g: ").toOption = none := by decide +kernel
    rw [hok] at hfails
    cases hfails
  exact ⟨hlists, (hread coordinates).2 ⟨_, _, hlists⟩, honly _ _ _ hlists, hnone, hrefused hnone⟩

end Coordinates

end Rebuild
