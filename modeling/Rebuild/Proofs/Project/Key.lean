import Rebuild.Project.Key
import Rebuild.Proofs.Reading
import Rebuild.Proofs.Text

/-!
# Reading the text of a key

Coordinates are read from a text that lists them between colons, with white space around it. Only
the text as a whole is trimmed. So the last coordinate has no white space at its end, but a
coordinate that another one follows may have some. When that is the artifact and the version after
it is dropped, the text of the key ends in white space which belongs to the artifact, and reading
the text takes it for white space around.
-/

namespace Rebuild

namespace Coordinates

variable {text : String} {coordinates : Coordinates} {key : ProjectKey} {parts : List String}

/-- The coordinates, one after the other. -/
def toList (coordinates : Coordinates) : List String :=
  coordinates.key.group :: coordinates.key.artifact :: coordinates.version.toList

/-- Two or three texts as coordinates. -/
def ofList? : List String → Option Coordinates
  | [group, artifact] => some ⟨⟨group, artifact⟩, none⟩
  | [group, artifact, version] => some ⟨⟨group, artifact⟩, some version⟩
  | _ => none

/-- The coordinates with colons between them. -/
def written (coordinates : Coordinates) : String := ":".intercalate coordinates.toList

/-- A text that can be a coordinate. -/
structure Plain (coordinate : String) : Prop where
  ne_empty : coordinate ≠ ""
  colon_notMem : ':' ∉ coordinate.toList

theorem written_key (key : ProjectKey) : written ⟨key, none⟩ = key.text := by
  rw [written, toList, String.intercalate_cons_of_ne_nil (List.cons_ne_nil _ _)]
  rfl

theorem ofList?_toList (coordinates : Coordinates) :
    ofList? coordinates.toList = some coordinates := by
  obtain ⟨key, version⟩ := coordinates
  cases version <;> rfl

theorem eq_toList_of_ofList? (h : ofList? parts = some coordinates) :
    parts = coordinates.toList := by
  match parts, h with
  | [_, _], rfl => rfl
  | [_, _, _], rfl => rfl

/-- A text is read by its fields: there have to be two or three of them, and none is empty. -/
theorem parse_eq (text : String) : parse text =
    match ofList? ((Text.fields ':' (Text.trim text.toList)).map String.ofList) with
    | none => .error (.malformedKey text "expected groupId:artifactId[:version]")
    | some coordinates =>
      if coordinates.toList.any (· = "") then
        .error (.malformedKey text "coordinates must not be empty")
      else .ok coordinates := by
  rw [parse]
  generalize (Text.fields ':' (Text.trim text.toList)).map String.ofList = parts
  match parts with
  | [] => rfl
  | [_] => rfl
  | [_, _] => rfl
  | [_, _, _] => rfl
  | _ :: _ :: _ :: _ :: rest =>
    dsimp only [ofList?]
    rw [if_pos (Or.inr (by simp))]

theorem toList_written (coordinates : Coordinates) :
    coordinates.written.toList = [':'].intercalate (coordinates.toList.map String.toList) :=
  String.toList_intercalate

theorem map_ofList_eq_iff {fields : List (List Char)} :
    fields.map String.ofList = parts ↔ fields = parts.map String.toList := by
  constructor
  · rintro rfl
    simp
  · rintro rfl
    simp

/-- A text is read as coordinates if they are what is written there, with white space around. -/
theorem parse_eq_ok_iff : parse text = .ok coordinates ↔
    Text.trim text.toList = coordinates.written.toList ∧
      ∀ coordinate ∈ coordinates.toList, Plain coordinate := by
  have hne : coordinates.toList.map String.toList ≠ [] := by simp [toList]
  have hfields : Text.fields ':' (Text.trim text.toList) = coordinates.toList.map String.toList ↔
      coordinates.written.toList = Text.trim text.toList ∧
        ∀ coordinate ∈ coordinates.toList, ':' ∉ coordinate.toList := by
    rw [Text.fields_eq_iff hne, toList_written, List.forall_mem_map]
  have hempty : coordinates.toList.any (· = "") = true ↔ ∃ coordinate ∈ coordinates.toList,
      coordinate = "" := by simp
  rw [parse_eq]
  constructor
  · intro h
    split at h
    case h_1 => cases h
    case h_2 other hother =>
      split at h
      case isTrue => cases h
      case isFalse hnone =>
        obtain rfl := Except.ok.inj h
        rw [hempty] at hnone
        obtain ⟨hwritten, hcolon⟩ :=
          hfields.1 (map_ofList_eq_iff.1 (eq_toList_of_ofList? hother))
        refine ⟨hwritten.symm, fun coordinate hmem => ⟨?_, hcolon coordinate hmem⟩⟩
        exact fun heq => hnone ⟨coordinate, hmem, heq⟩
  · rintro ⟨htrim, hplain⟩
    have hcolon := fun coordinate hmem => (hplain coordinate hmem).colon_notMem
    rw [map_ofList_eq_iff.2 (hfields.2 ⟨htrim.symm, hcolon⟩), ofList?_toList]
    dsimp only
    rw [if_neg]
    rw [hempty]
    rintro ⟨coordinate, hmem, heq⟩
    exact (hplain coordinate hmem).ne_empty heq

end Coordinates

namespace ProjectKey

open Coordinates (Plain)

variable {text : String} {key : ProjectKey} {version : Option String}

theorem parse_eq_ok_iff :
    parse text = .ok key ↔ ∃ version, Coordinates.parse text = .ok ⟨key, version⟩ := by
  rw [parse, map_eq_ok_iff]
  constructor
  · rintro ⟨⟨key, version⟩, hparse, rfl⟩
    exact ⟨version, hparse⟩
  · rintro ⟨version, hparse⟩
    exact ⟨_, hparse, rfl⟩

theorem toList_text (key : ProjectKey) :
    key.text.toList = key.group.toList ++ ':' :: key.artifact.toList := by
  rw [text, String.toList_append, String.toList_append, List.append_assoc]
  rfl

/-- What every key that is read from a text is like. -/
structure Readable (key : ProjectKey) : Prop where
  group : Plain key.group
  artifact : Plain key.artifact
  head : ∀ c ∈ key.group.toList.head?, Text.isBlank c = false

theorem readable_of_parse (h : Coordinates.parse text = .ok ⟨key, version⟩) : Readable key := by
  obtain ⟨htrim, hplain⟩ := Coordinates.parse_eq_ok_iff.1 h
  have hgroup : Plain key.group := hplain _ List.mem_cons_self
  refine ⟨hgroup, hplain _ (List.mem_cons_of_mem _ List.mem_cons_self), ?_⟩
  intro c hc
  apply (Text.trimmed_trim text.toList).head
  have hwritten : (Coordinates.written ⟨key, version⟩).toList
      = key.group.toList ++ (":" ++ ":".intercalate (key.artifact :: version.toList)).toList := by
    rw [Coordinates.written, Coordinates.toList,
      String.intercalate_cons_of_ne_nil (List.cons_ne_nil _ _), String.append_assoc,
      String.toList_append]
  rw [htrim, hwritten, List.head?_append, Option.mem_def.1 hc]
  rfl

/-- A key without the white space at the end of its artifact. -/
def trimmed (key : ProjectKey) : ProjectKey :=
  { key with artifact := String.ofList (Text.dropTailWhile Text.isBlank key.artifact.toList) }

theorem toList_artifact_trimmed (key : ProjectKey) :
    key.trimmed.artifact.toList = Text.dropTailWhile Text.isBlank key.artifact.toList := by
  rw [trimmed, String.toList_ofList]

theorem trim_text (h : Readable key) : Text.trim key.text.toList = key.trimmed.text.toList := by
  have hsplit : Text.dropTailWhile Text.isBlank key.artifact.toList
      ++ key.artifact.toList.rtakeWhile Text.isBlank = key.artifact.toList :=
    List.rdropWhile_append_rtakeWhile
  rw [Text.trim_eq_iff, toList_text, toList_text, toList_artifact_trimmed]
  refine ⟨⟨?_, ?_⟩, [], key.artifact.toList.rtakeWhile Text.isBlank, ?_, ?_, ?_⟩
  · intro c hc
    have hgroup : key.group.toList ≠ [] := by simpa using h.group.ne_empty
    rw [trimmed, List.head?_append_of_ne_nil _ hgroup] at hc
    exact h.head c hc
  · intro c hc
    rw [List.getLast?_append_of_ne_nil _ (List.cons_ne_nil _ _), List.getLast?_cons,
      Option.mem_some_iff] at hc
    cases hlast : (Text.dropTailWhile Text.isBlank key.artifact.toList).getLast? with
    | none =>
      rw [← hc, hlast]
      rfl
    | some last =>
      rw [← hc, hlast]
      exact Text.not_of_last_dropTailWhile last hlast
  · rw [List.nil_append, List.append_assoc, List.cons_append, hsplit]
    rfl
  · exact List.forall_mem_nil _
  · exact fun c hc => List.mem_rtakeWhile_imp hc

theorem fields_text (hgroup : ':' ∉ key.group.toList) (hartifact : ':' ∉ key.artifact.toList) :
    (Text.fields ':' key.text.toList).map String.ofList = [key.group, key.artifact] := by
  have hne : [key.group.toList, key.artifact.toList] ≠ [] := List.cons_ne_nil _ _
  have hfields : Text.fields ':' key.text.toList = [key.group.toList, key.artifact.toList] := by
    rw [Text.fields_eq_iff hne]
    refine ⟨?_, by simp [hgroup, hartifact]⟩
    rw [toList_text, List.intercalate_cons_cons]
    simp
  rw [hfields]
  simp

/-- What is read from the text of a key is the key without the white space at the end of its
artifact, unless nothing else is there. -/
theorem parse_text (h : Readable key) : parse key.text =
    if key.trimmed.artifact = "" then
      .error (.malformedKey key.text "coordinates must not be empty")
    else .ok key.trimmed := by
  have hgroup : ':' ∉ key.trimmed.group.toList := h.group.colon_notMem
  have hartifact : ':' ∉ key.trimmed.artifact.toList := by
    rw [toList_artifact_trimmed]
    exact fun hmem => h.artifact.colon_notMem ((List.rdropWhile_prefix _ _).subset hmem)
  have hne : key.trimmed.group ≠ "" := h.group.ne_empty
  rw [parse, Coordinates.parse_eq, trim_text h, fields_text hgroup hartifact]
  simp only [Coordinates.ofList?, Coordinates.toList, Option.toList_none, List.any_cons, hne,
    List.any_nil, decide_false, Bool.false_or, Bool.or_false, decide_eq_true_eq]
  split
  · rfl
  · rfl

theorem trimmed_eq_iff :
    key.trimmed = key ↔ ∀ c ∈ key.artifact.toList.getLast?, Text.isBlank c = false := by
  have hartifact : key.trimmed = key ↔ key.trimmed.artifact.toList = key.artifact.toList := by
    rw [String.toList_inj]
    constructor
    · exact congrArg artifact
    · exact fun h => congrArg (mk key.group) h
  rw [hartifact, toList_artifact_trimmed, Text.dropTailWhile_eq_self_iff]

/-! ### Main result -/

/-- The text of a key that was read is read as the key without the white space at the end of its
artifact, and not at all if the artifact is nothing but white space. So it gives the key again
exactly if the artifact does not end in white space, and that is so if no version was dropped. -/
theorem parse_text_of_parse (h : parse text = .ok key) :
    (parse key.text = if key.trimmed.artifact = "" then
        .error (.malformedKey key.text "coordinates must not be empty")
      else .ok key.trimmed) ∧
    (parse key.text = .ok key ↔ ∀ c ∈ key.artifact.toList.getLast?, Text.isBlank c = false) ∧
    (Coordinates.parse text = .ok ⟨key, none⟩ → parse key.text = .ok key) := by
  obtain ⟨version, hparse⟩ := parse_eq_ok_iff.1 h
  have hkey := readable_of_parse hparse
  have hagain : parse key.text = .ok key ↔ key.trimmed = key := by
    rw [parse_text hkey]
    split
    case isTrue hempty =>
      refine iff_of_false (fun h => by cases h) fun hsame => hkey.artifact.ne_empty ?_
      rwa [hsame] at hempty
    case isFalse => rw [Except.ok.injEq]
  rw [hagain, trimmed_eq_iff]
  refine ⟨parse_text hkey, Iff.rfl, ?_⟩
  intro hshort c hc
  have htrim := (Coordinates.parse_eq_ok_iff.1 hshort).1
  have hartifact : key.artifact.toList ≠ [] := by simpa using hkey.artifact.ne_empty
  apply (Text.trimmed_trim text.toList).last
  rwa [htrim, Coordinates.written_key, toList_text, ← List.singleton_append, ← List.append_assoc,
    List.getLast?_append_of_ne_nil _ hartifact]

/-- The white space before a version that is dropped stays with the artifact, and is lost when the
text of the key is read. -/
theorem parse_text_of_blank_before_version :
    parse "g:a :1" = .ok ⟨"g", "a "⟩ ∧ parse (ProjectKey.text ⟨"g", "a "⟩) = .ok ⟨"g", "a"⟩ := by
  have hparse : parse "g:a :1" = .ok ⟨"g", "a "⟩ := by
    apply eq_ok_of_toOption
    decide +kernel
  have htrimmed : trimmed ⟨"g", "a "⟩ = ⟨"g", "a"⟩ := by decide +kernel
  have hagain := (parse_text_of_parse hparse).1
  rw [htrimmed, if_neg (by decide)] at hagain
  exact ⟨hparse, hagain⟩

/-- So a key that was read is not always read again from its text, and the text of one can be no key
at all. -/
theorem parse_text_fails :
    ¬ (∀ text key, parse text = .ok key → parse key.text = .ok key) ∧
    parse "g: :1" = .ok ⟨"g", " "⟩ ∧
    parse (ProjectKey.text ⟨"g", " "⟩)
      = .error (.malformedKey "g: " "coordinates must not be empty") := by
  have hblank : parse "g: :1" = .ok ⟨"g", " "⟩ := by
    apply eq_ok_of_toOption
    decide +kernel
  have herror : parse (ProjectKey.text ⟨"g", " "⟩)
      = .error (.malformedKey "g: " "coordinates must not be empty") := rfl
  refine ⟨?_, hblank, herror⟩
  intro h
  have hagain := h _ _ hblank
  rw [herror] at hagain
  cases hagain

end ProjectKey

end Rebuild
