import LessonScript.Proofs.Header.Lines
import LessonScript.Proofs.Table
import LessonScript.Proofs.Text.Blank
import Mathlib.Data.List.Basic

/-!
# The fields of a header

A header line binds the text before its first colon to the text behind it, both without the white
space at their ends. Of the lines with one key the first says where the key stands among the others,
and the last what it is bound to. Whether there is a key is decided before it is trimmed: a line
with white space alone before its colon binds the empty key.
-/

namespace LessonScript

open Text (Line)

/-- A line binds a key to a value: they stand on the two sides of its first colon, with something
before it. -/
def Binds (line : Line) (key : String) (value : MetaValue) : Prop :=
  ∃ before behind, line = before ++ ':' :: behind ∧ ':' ∉ before ∧ before ≠ [] ∧
    key = String.ofList (Text.trim before) ∧ value = .ofText (Text.trim behind)

/-! ## One line -/

section Line

variable {line before : Line}

lemma headerField_of_colon (h : ':' ∉ before) (behind : List Char) :
    headerField (before ++ ':' :: behind) =
      if before.isEmpty then none
      else some (String.ofList (Text.trim before), .ofText (Text.trim behind)) := by
  have hfree : ∀ c ∈ before, decide (c ≠ ':') = true := by
    intro c hc
    exact decide_eq_true fun he => h (he ▸ hc)
  have hkey : (before ++ ':' :: behind).takeWhile (· ≠ ':') = before := by
    rw [List.takeWhile_append_of_pos hfree, List.takeWhile_cons_of_neg (by simp), List.append_nil]
  simp only [headerField, hkey, List.drop_left]

lemma headerField_of_no_colon (h : ':' ∉ line) : headerField line = none := by
  have hkey : line.takeWhile (· ≠ ':') = line := by
    refine List.takeWhile_eq_self_iff.2 fun c hc => ?_
    exact decide_eq_true fun he => h (he ▸ hc)
  simp only [headerField, hkey, List.drop_length]

lemma headerField_eq_some_iff {key : String} {value : MetaValue} :
    headerField line = some (key, value) ↔ Binds line key value := by
  constructor
  · intro h
    by_cases hcolon : ':' ∈ line
    · obtain ⟨before, behind, rfl, hfirst⟩ := List.eq_append_cons_of_mem hcolon
      rw [headerField_of_colon hfirst] at h
      split at h
      · cases h
      · rename_i hne
        obtain ⟨rfl, rfl⟩ := Prod.mk.inj (Option.some.inj h)
        exact ⟨before, behind, rfl, hfirst, by simpa using hne, rfl, rfl⟩
    · rw [headerField_of_no_colon hcolon] at h
      cases h
  · rintro ⟨before, behind, rfl, hfirst, hne, rfl, rfl⟩
    rw [headerField_of_colon hfirst, if_neg (by simpa using hne)]

lemma Binds.trim_key {key : String} {value : MetaValue} (h : Binds line key value) :
    Text.trim key.toList = key.toList := by
  obtain ⟨before, -, -, -, -, rfl, -⟩ := h
  rw [String.toList_ofList, Text.trim_trim]

lemma exists_binds_iff_of_ne {key : String} (hne : key ≠ "") : (∃ value, Binds line key value) ↔
    ∃ before behind, line = before ++ ':' :: behind ∧ ':' ∉ before ∧
      key = String.ofList (Text.trim before) := by
  constructor
  · rintro ⟨_, before, behind, hline, hfirst, -, hkey, -⟩
    exact ⟨before, behind, hline, hfirst, hkey⟩
  · rintro ⟨before, behind, hline, hfirst, rfl⟩
    refine ⟨_, before, behind, hline, hfirst, ?_, rfl, rfl⟩
    rintro rfl
    exact hne rfl

/-- The key is empty where white space stands before the colon, and nothing else. -/
lemma exists_binds_empty_iff : (∃ value, Binds line "" value) ↔
    ∃ blank behind, line = blank ++ ':' :: behind ∧ blank ≠ [] ∧ Text.allBlank blank = true := by
  constructor
  · rintro ⟨_, before, behind, hline, -, hne, hkey, -⟩
    refine ⟨before, behind, hline, hne, Text.trim_eq_nil_iff.1 ?_⟩
    rw [← String.toList_ofList (l := Text.trim before), ← hkey, String.toList_empty]
  · rintro ⟨blank, behind, hline, hne, hblank⟩
    have hfirst : ':' ∉ blank := fun hcolon =>
      absurd (List.all_eq_true.1 hblank ':' hcolon) (by decide)
    refine ⟨_, blank, behind, hline, hfirst, hne, ?_, rfl⟩
    rw [Text.trim_eq_nil_iff.2 hblank, String.ofList_nil]

end Line

/-! ## All lines -/

section Lines

variable {lines : List Line} {key : String}

/-- A field comes from one of the lines, and those before and behind it from the others. -/
lemma exists_line_of_fields {front back : List (String × MetaValue)} {value : MetaValue}
    (h : lines.filterMap headerField = front ++ (key, value) :: back) :
    ∃ above line below, lines = above ++ line :: below ∧ Binds line key value ∧
      above.filterMap headerField = front ∧ below.filterMap headerField = back := by
  obtain ⟨above, rest, rfl, habove, hrest⟩ := List.filterMap_eq_append_iff.1 h
  obtain ⟨skipped, line, below, rfl, hskipped, hline, hbelow⟩ := List.filterMap_eq_cons_iff.1 hrest
  refine ⟨above ++ skipped, line, below, by simp, headerField_eq_some_iff.1 hline, ?_, hbelow⟩
  rw [List.filterMap_append, habove, List.filterMap_eq_nil_iff.2 hskipped, List.append_nil]

lemma mem_map_fst_fields : key ∈ (lines.filterMap headerField).map Prod.fst ↔
    ∃ line ∈ lines, ∃ value, Binds line key value := by
  simp only [List.mem_map, List.mem_filterMap, Prod.exists, exists_and_right, exists_eq_right,
    headerField_eq_some_iff]
  constructor
  · rintro ⟨value, line, hline, hbinds⟩
    exact ⟨line, hline, value, hbinds⟩
  · rintro ⟨line, hline, value, hbinds⟩
    exact ⟨value, line, hline, hbinds⟩

lemma mem_keys_metadataOf :
    key ∈ (metadataOf lines).keys ↔ ∃ line ∈ lines, ∃ value, Binds line key value := by
  rw [metadataOf, Table.keys_ofList, List.mem_eraseDups, mem_map_fst_fields]

lemma pairwise_keys_metadataOf (lines : List Line) :
    (metadataOf lines).keys.Pairwise fun a b => ∃ above line below value,
      lines = above ++ line :: below ∧ Binds line a value ∧
        ∀ earlier ∈ above, ∀ other, ¬ Binds earlier b other := by
  refine (Table.pairwise_keys_ofList _).imp ?_
  rintro a b ⟨front, value, back, hfields, -, hb⟩
  obtain ⟨above, line, below, rfl, hline, rfl, -⟩ := exists_line_of_fields hfields
  refine ⟨above, line, below, value, rfl, hline, fun earlier hearlier other hbinds => ?_⟩
  exact hb (mem_map_fst_fields.2 ⟨earlier, hearlier, other, hbinds⟩)

lemma get?_metadataOf_eq_some_iff {value : MetaValue} :
    (metadataOf lines).get? key = some value ↔ ∃ above line below,
      lines = above ++ line :: below ∧ Binds line key value ∧
        ∀ later ∈ below, ∀ other, ¬ Binds later key other := by
  rw [metadataOf, Table.get?_ofList_eq_some_iff]
  constructor
  · rintro ⟨front, back, hfields, hlast⟩
    obtain ⟨above, line, below, rfl, hline, -, rfl⟩ := exists_line_of_fields hfields
    refine ⟨above, line, below, rfl, hline, fun later hlater other hbinds => ?_⟩
    exact hlast (mem_map_fst_fields.2 ⟨later, hlater, other, hbinds⟩)
  · rintro ⟨above, line, below, rfl, hline, hlast⟩
    refine ⟨above.filterMap headerField, below.filterMap headerField, ?_, ?_⟩
    · rw [List.filterMap_append, List.filterMap_cons_some (headerField_eq_some_iff.2 hline)]
    · rw [mem_map_fst_fields]
      rintro ⟨later, hlater, other, hbinds⟩
      exact hlast later hlater other hbinds

end Lines

/-- What the metadata of a header is, told by its lines. -/
structure Metadata.BoundBy (lines : List Line) (metadata : Metadata) : Prop where
  /-- The keys are those of the lines. -/
  mem_keys_iff : ∀ key, key ∈ metadata.keys ↔ ∃ line ∈ lines, ∃ value, Binds line key value
  nodup : metadata.keys.Nodup
  /-- The keys stand in the order of the first lines that have them. -/
  ordered : metadata.keys.Pairwise fun a b => ∃ above line below value,
    lines = above ++ line :: below ∧ Binds line a value ∧
      ∀ earlier ∈ above, ∀ other, ¬ Binds earlier b other
  /-- A key is bound to the value of the last line that has it. -/
  get?_iff : ∀ key value, metadata.get? key = some value ↔ ∃ above line below,
    lines = above ++ line :: below ∧ Binds line key value ∧
      ∀ later ∈ below, ∀ other, ¬ Binds later key other
  trimmed : ∀ key ∈ metadata.keys, Text.trim key.toList = key.toList
  /-- A key that is not empty is the trimmed text before the first colon of a line. -/
  mem_keys_of_ne : ∀ key ≠ "", key ∈ metadata.keys ↔ ∃ line ∈ lines, ∃ before behind,
    line = before ++ ':' :: behind ∧ ':' ∉ before ∧ key = String.ofList (Text.trim before)
  /-- The empty key is there if white space stands before the colon of a line. -/
  empty_mem_keys_iff : "" ∈ metadata.keys ↔ ∃ line ∈ lines, ∃ blank behind,
    line = blank ++ ':' :: behind ∧ blank ≠ [] ∧ Text.allBlank blank = true

/-- The metadata of a text is bound by its lines, with an empty key for those that have white space
alone before their colon. -/
theorem parseHeader_boundBy_lines (header : List Char) :
    (parseHeader header).BoundBy (Text.textLines header) where
  mem_keys_iff _ := mem_keys_metadataOf
  nodup := Table.keys_nodup _
  ordered := pairwise_keys_metadataOf _
  get?_iff _ _ := get?_metadataOf_eq_some_iff
  trimmed key hkey := by
    obtain ⟨line, -, value, hbinds⟩ := mem_keys_metadataOf.1 hkey
    exact hbinds.trim_key
  mem_keys_of_ne key hne := by
    refine mem_keys_metadataOf.trans (exists_congr fun line => and_congr_right fun _ => ?_)
    exact exists_binds_iff_of_ne hne
  empty_mem_keys_iff :=
    mem_keys_metadataOf.trans (exists_congr fun line => and_congr_right fun _ =>
      exists_binds_empty_iff)

/-- A colon at the head of a line has no key before it, and white space before the colon is one. -/
theorem parseHeader_blank_key :
    (parseHeader ": v".toList).keys = [] ∧ (parseHeader " : v".toList).keys = [""] ∧
      (parseHeader " : v".toList).get? "" = some (.str "v") := by
  decide

end LessonScript
