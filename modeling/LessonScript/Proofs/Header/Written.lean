import LessonScript.Proofs.Header.Fields
import LessonScript.Proofs.Metadata

/-!
# Writing a header

A header is written with a fence above and below its fields, each on a line of its own with a colon
and a space between key and value. Reading it back gives the fields as written, and leaves the text
below it untouched.
-/

namespace LessonScript

namespace Text

variable {cs : List Char}

lemma isBlank_getLast?_trimEnd (cs : List Char) :
    ∀ c ∈ (trimEnd cs).getLast?, isBlank c = false := by
  intro c hc
  rw [trimEnd, List.getLast?_reverse] at hc
  have hhead := List.head?_dropWhile_not isBlank cs.reverse
  rw [hc] at hhead
  exact hhead

lemma trim_blank_cons {c : Char} (hc : isBlank c = true) (cs : List Char) :
    trim (c :: cs) = trim cs := by
  rw [trim, trimStart, List.dropWhile_cons_of_pos hc]
  rfl

lemma dropReturn_of_isBlank_getLast? (h : ∀ c ∈ cs.getLast?, isBlank c = false) :
    dropReturn cs = cs := by
  apply if_neg
  intro hr
  have := h '\r' hr
  revert this
  decide

end Text

open Text (Line)

/-- A field that a header can hold: the key stands on one line in front of the first colon, the
value behind it, and neither has white space at its ends. -/
structure WritableField (key value : String) : Prop where
  key_ne_nil : key.toList ≠ []
  trim_key : Text.trim key.toList = key.toList
  colon_notMem_key : ':' ∉ key.toList
  newline_notMem_key : '\n' ∉ key.toList
  trim_value : Text.trim value.toList = value.toList
  newline_notMem_value : '\n' ∉ value.toList

def fieldLine (field : String × String) : Line := field.1.toList ++ ": ".toList ++ field.2.toList

def writtenFields (fields : List (String × String)) : List Char :=
  fields.flatMap fun field => fieldLine field ++ ['\n']

/-- A header with its fences. -/
def writtenHeader (fields : List (String × String)) : List Char :=
  "---\n".toList ++ writtenFields fields ++ "---\n".toList

namespace WritableField

variable {field : String × String}

lemma newline_notMem_fieldLine (h : WritableField field.1 field.2) : '\n' ∉ fieldLine field := by
  have hcolon : '\n' ∉ ": ".toList := by decide
  simp only [fieldLine, List.mem_append, h.newline_notMem_key, hcolon, h.newline_notMem_value,
    or_self, not_false_eq_true]

lemma fieldLine_ne_fence (field : String × String) : fieldLine field ≠ fence := by
  intro heq
  have hcolon : ':' ∈ fieldLine field := by simp [fieldLine]
  rw [heq] at hcolon
  exact absurd hcolon (by decide)

/-- The last character of a written line is no carriage return: it is the space behind the colon,
or the last one of a value without white space at its end. -/
lemma dropReturn_fieldLine (h : WritableField field.1 field.2) :
    Text.dropReturn (fieldLine field) = fieldLine field := by
  cases hv : field.2.toList with
  | nil => simp [fieldLine, hv, Text.dropReturn]
  | cons c cs =>
    apply Text.dropReturn_of_isBlank_getLast?
    rw [fieldLine, List.getLast?_append_of_ne_nil _ (by simp [hv]), ← h.trim_value]
    exact Text.isBlank_getLast?_trimEnd _

lemma headerField_fieldLine (h : WritableField field.1 field.2) :
    headerField (fieldLine field) = some (field.1, .ofText field.2.toList) := by
  rw [headerField_eq_some_iff]
  refine ⟨field.1.toList, ' ' :: field.2.toList, ?_, h.colon_notMem_key, h.key_ne_nil, ?_, ?_⟩
  · rw [fieldLine, List.append_assoc]
    rfl
  · rw [h.trim_key, String.ofList_toList]
  · rw [Text.trim_blank_cons (by decide), h.trim_value]

end WritableField

variable {fields : List (String × String)} {body : List Char}

lemma endedLines_writtenFields (h : ∀ field ∈ fields, WritableField field.1 field.2)
    (cs : List Char) :
    Text.endedLines (writtenFields fields ++ cs) = fields.map fieldLine ++ Text.endedLines cs := by
  induction fields with
  | nil => rfl
  | cons field rest ih =>
    obtain ⟨hfield, hrest⟩ := List.forall_mem_cons.1 h
    rw [writtenFields, List.flatMap_cons, List.append_assoc, List.append_assoc,
      List.singleton_append, Text.endedLines_line hfield.newline_notMem_fieldLine,
      hfield.dropReturn_fieldLine, ← writtenFields, ih hrest]
    rfl

lemma belowLines_writtenFields (h : ∀ field ∈ fields, WritableField field.1 field.2) (n : Nat)
    (cs : List Char) :
    Text.belowLines (fields.length + n) (writtenFields fields ++ cs) = Text.belowLines n cs := by
  induction fields with
  | nil => rw [List.length_nil, Nat.zero_add]; rfl
  | cons field rest ih =>
    obtain ⟨hfield, hrest⟩ := List.forall_mem_cons.1 h
    rw [writtenFields, List.flatMap_cons, List.append_assoc, List.append_assoc,
      List.singleton_append, List.length_cons, Nat.add_right_comm,
      Text.belowLines_line hfield.newline_notMem_fieldLine, ← writtenFields, ih hrest]

lemma readByLines_written (hne : fields ≠ []) (h : ∀ field ∈ fields, WritableField field.1 field.2)
    (body : List Char) :
    readByLines 1 (writtenHeader fields ++ body) = (metadataOf (fields.map fieldLine), body) := by
  have htext : writtenHeader fields ++ body =
      fence ++ '\n' :: (writtenFields fields ++ (fence ++ '\n' :: body)) := by
    rw [writtenHeader, List.append_assoc, List.append_assoc]
    rfl
  have hfence : '\n' ∉ fence := by decide
  have hended : Text.endedLines (writtenHeader fields ++ body) =
      fence :: (fields.map fieldLine ++ fence :: Text.endedLines body) := by
    rw [htext, Text.endedLines_line hfence, endedLines_writtenFields h,
      Text.endedLines_line hfence]
    rfl
  have hbelow : Text.belowLines (fields.length + 2) (writtenHeader fields ++ body) = body := by
    rw [htext, Text.belowLines_line hfence, belowLines_writtenFields h,
      Text.belowLines_line hfence, Text.belowLines_zero]
  have hlines : linesInHeader? 1 (Text.endedLines (writtenHeader fields ++ body)) =
      some fields.length := by
    obtain ⟨field, rest, rfl⟩ := List.exists_cons_of_ne_nil hne
    have hnone : (rest.map fieldLine).findIdx? (· = fence) = none := by
      apply List.findIdx?_eq_none_iff.2
      intro line hline
      obtain ⟨other, -, rfl⟩ := List.mem_map.1 hline
      exact decide_eq_false (WritableField.fieldLine_ne_fence other)
    rw [hended, linesInHeader?, if_pos rfl, List.map_cons, List.cons_append, List.drop_one,
      List.tail_cons, List.findIdx?_append, hnone, List.findIdx?_cons]
    simp
  rw [readByLines_of_closed hlines, hbelow, hended, List.drop_one, List.tail_cons,
    List.take_append_of_le_length (by simp), List.take_of_length_le (by simp)]

lemma entries_metadataOf (hdistinct : (fields.map Prod.fst).Nodup)
    (h : ∀ field ∈ fields, WritableField field.1 field.2) :
    (metadataOf (fields.map fieldLine)).entries =
      fields.map fun field => (field.1, MetaValue.ofText field.2.toList) := by
  have hread : (fields.map fieldLine).filterMap headerField =
      fields.map fun field => (field.1, MetaValue.ofText field.2.toList) := by
    rw [List.filterMap_map, ← List.filterMap_eq_map]
    exact List.filterMap_congr fun field hf => (h field hf).headerField_fieldLine
  rw [metadataOf, hread]
  apply Table.entries_ofList
  rwa [List.map_map]

/-- A written header gives back its fields, in their order and with the values as written, integers
where a word holds them; and the body below it is left as it is, whatever it contains. -/
theorem extractHeader_written (hne : fields ≠ []) (hdistinct : (fields.map Prod.fst).Nodup)
    (hfields : ∀ field ∈ fields, WritableField field.1 field.2) (body : List Char) :
    let read := extractHeader (writtenHeader fields ++ body)
    read.1.entries = fields.map (fun field => (field.1, MetaValue.ofText field.2.toList)) ∧
      read.2 = body ∧
      ∀ field ∈ fields,
        (FitsInteger field.2.toList → ∃ n : Int64, read.1.get? field.1 = some (.int n) ∧
          n.toInt = Text.numeralValue field.2.toList) ∧
        (¬ FitsInteger field.2.toList → read.1.get? field.1 = some (.str field.2)) := by
  intro read
  have hread : read = (metadataOf (fields.map fieldLine), body) := by
    rw [← readByLines_written hne hfields, ← extractHeader_eq]
  have hentries := entries_metadataOf hdistinct hfields
  rw [hread]
  refine ⟨hentries, rfl, ?_⟩
  intro field hf
  have hget : (metadataOf (fields.map fieldLine)).get? field.1 =
      some (.ofText field.2.toList) := by
    rw [Table.get?_eq_some_iff, hentries]
    exact List.mem_map.2 ⟨field, hf, rfl⟩
  constructor
  · intro hfits
    obtain ⟨n, hn, hvalue⟩ := MetaValue.ofText_of_fits hfits
    exact ⟨n, by rw [hget, hn], hvalue⟩
  · intro hfits
    rw [hget, MetaValue.ofText_of_not_fits hfits, String.ofList_toList]

/-- The values are a number, a text with a colon and no text, and the body looks like a header. -/
theorem extractHeader_written_lesson :
    let fields := [("lesson", "12"), ("time", "10:30"), ("note", "")]
    let body := "---\nlesson: 13\n---\n".toList
    let read := extractHeader (writtenHeader fields ++ body)
    fields ≠ [] ∧ (fields.map Prod.fst).Nodup ∧
      (∀ field ∈ fields, WritableField field.1 field.2) ∧
      read.1.entries = [("lesson", .int 12), ("time", .str "10:30"), ("note", .str "")] ∧
      read.2 = body := by
  intro fields body read
  have hne : fields ≠ [] := by decide
  have hdistinct : (fields.map Prod.fst).Nodup := by decide
  have hfields : ∀ field ∈ fields, WritableField field.1 field.2 := by
    intro field hf
    simp only [fields, List.mem_cons, List.not_mem_nil, or_false] at hf
    rcases hf with rfl | rfl | rfl <;> constructor <;> decide
  obtain ⟨hentries, hbody, -⟩ := extractHeader_written hne hdistinct hfields body
  refine ⟨hne, hdistinct, hfields, hentries.trans ?_, hbody⟩
  decide

end LessonScript
