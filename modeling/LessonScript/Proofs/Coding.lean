import LessonScript.Proofs.Data
import LessonScript.Proofs.Table

/-!
# Documents as data and back

The data of a document is read back as the document, as long as it does not nest deeper than a
reader of elements follows. It is told in full by its text.
-/

namespace LessonScript

lemma mapM_map_eq_some {α β : Type} {encode : α → β} {decode : β → Option α} {xs : List α}
    (h : ∀ x ∈ xs, decode (encode x) = some x) : (xs.map encode).mapM decode = some xs := by
  induction xs with
  | nil => rfl
  | cons x xs ih =>
    obtain ⟨hx, hxs⟩ := List.forall_mem_cons.1 h
    simp [hx, ih hxs]

namespace Millis

lemma ofData?_toData (m : Millis) : ofData? m.toData = some m := by
  simp [ofData?, toData, Data.int?]

lemma exact_toData (m : Millis) : m.toData.Exact := by
  have hle : m.count ≤ Text.wordMax 64 := m.count_le
  exact .int ⟨by omega, by omega⟩

end Millis

namespace Segment

lemma ofUsable?_toData (nested : Bool) (segment : Segment) :
    ofUsable? nested segment.toData = some segment := by
  cases segment with
  | pause duration =>
    change (Millis.ofData? duration.toData).bind (fun duration => some (pause duration)) = _
    rw [duration.ofData?_toData, Option.bind_some]
  | directive name text => cases text <;> rfl
  | _ => rfl

lemma exact_toData (segment : Segment) : segment.toData.Exact := by
  cases segment with
  | pause duration => exact Data.exact_record ⟨.text _, duration.exact_toData⟩
  | directive name text =>
    cases text with
    | none => exact Data.exact_record ⟨.text _, .text _⟩
    | some text => exact Data.exact_record ⟨.text _, .text _, .text _⟩
  | _ => exact Data.exact_record ⟨.text _, .text _⟩

lemma nesting_toData (segment : Segment) : segment.toData.nesting = 1 := by
  cases segment with
  | directive name text => cases text <;> rfl
  | _ => rfl

end Segment

namespace Bilingual

lemma ofData?_toData (pair : Bilingual) : ofData? pair.toData = some pair := rfl

lemma exact_toData (pair : Bilingual) : pair.toData.Exact :=
  Data.exact_record ⟨.text _, .text _⟩

lemma nesting_toData (pair : Bilingual) : pair.toData.nesting = 1 := rfl

end Bilingual

namespace Element

/-- Words and closings hold elements, the other kinds hold none. -/
@[elab_as_elim]
theorem inductionOn {P : Element → Prop} (title : ∀ en zh, P (.title en zh))
    (text : ∀ content, P (.text content)) (quote : ∀ emphasis quotes, P (.quote emphasis quotes))
    (practice : ∀ practices, P (.practice practices))
    (word : ∀ focus elements, (∀ child ∈ elements, P child) → P (.word focus elements))
    (closing : ∀ elements, (∀ child ∈ elements, P child) → P (.closing elements))
    (pause : ∀ duration, P (.pause duration)) : ∀ element, P element
  | .title en zh => title en zh
  | .text content => text content
  | .quote emphasis quotes => quote emphasis quotes
  | .practice practices => practice practices
  | .word focus elements =>
    word focus elements fun child _ =>
      inductionOn title text quote practice word closing pause child
  | .closing elements =>
    closing elements fun child _ =>
      inductionOn title text quote practice word closing pause child
  | .pause duration => pause duration

@[simp] lemma listToData_eq_map (elements : List Element) :
    listToData elements = elements.map toData := by
  induction elements with
  | nil => rfl
  | cons element rest ih => rw [listToData, ih, List.map_cons]

lemma exact_toData (element : Element) : element.toData.Exact := by
  induction element using inductionOn with
  | title en zh =>
    cases en <;> cases zh
    · exact Data.exact_record (.text _)
    · exact Data.exact_record ⟨.text _, .text _⟩
    · exact Data.exact_record ⟨.text _, .text _⟩
    · exact Data.exact_record ⟨.text _, .text _, .text _⟩
  | text content =>
    exact Data.exact_record ⟨.text _, Data.exact_map fun segment _ => segment.exact_toData⟩
  | quote emphasis quotes =>
    exact Data.exact_record ⟨.text _, .bool _, Data.exact_map fun pair _ => pair.exact_toData⟩
  | practice practices =>
    exact Data.exact_record ⟨.text _, Data.exact_map fun pair _ => pair.exact_toData⟩
  | word focus elements ih =>
    rw [toData, listToData_eq_map]
    exact Data.exact_record ⟨.text _, .text _, Data.exact_map ih⟩
  | closing elements ih =>
    rw [toData, listToData_eq_map]
    exact Data.exact_record ⟨.text _, Data.exact_map ih⟩
  | pause duration => exact Data.exact_record ⟨.text _, duration.exact_toData⟩

section Nesting

variable {elements : List Element} {n : Nat}

lemma nesting_elements_le_iff :
    (Data.list (listToData elements)).nesting ≤ n + 1 ↔
      ∀ child ∈ elements, child.toData.nesting ≤ n := by
  rw [listToData_eq_map, Data.nesting_map_le_iff]

lemma nesting_word_le_iff {focus : String} :
    (toData (.word focus elements)).nesting ≤ n + 2 ↔
      ∀ child ∈ elements, child.toData.nesting ≤ n := by
  rw [← nesting_elements_le_iff, toData, Data.nesting_record_le_iff]
  simp

lemma nesting_closing_le_iff :
    (toData (.closing elements)).nesting ≤ n + 2 ↔
      ∀ child ∈ elements, child.toData.nesting ≤ n := by
  rw [← nesting_elements_le_iff, toData, Data.nesting_record_le_iff]
  simp

/-- Only children take an element deeper than its lists of segments or pairs do. -/
lemma nesting_toData_le {element : Element}
    (h : ∀ child ∈ element.children, child.toData.nesting ≤ n + 1) :
    element.toData.nesting ≤ n + 3 := by
  have hsegments : ∀ content : List Segment,
      (Data.list (content.map Segment.toData)).nesting ≤ n + 2 := fun content =>
    Data.nesting_map_le_iff.2 fun segment _ => by rw [segment.nesting_toData]; omega
  have hpairs : ∀ pairs : List Bilingual,
      (Data.list (pairs.map Bilingual.toData)).nesting ≤ n + 2 := fun pairs =>
    Data.nesting_map_le_iff.2 fun pair _ => by rw [pair.nesting_toData]; omega
  cases element with
  | title en zh =>
    refine Data.nesting_record_le_iff.2 ?_
    cases en <;> cases zh <;> simp [Data.optionalField]
  | text content => exact Data.nesting_record_le_iff.2 (by simp [hsegments])
  | quote emphasis quotes => exact Data.nesting_record_le_iff.2 (by simp [hpairs])
  | practice practices => exact Data.nesting_record_le_iff.2 (by simp [hpairs])
  | word focus elements => exact nesting_word_le_iff.2 h
  | closing elements => exact nesting_closing_le_iff.2 h
  | pause duration => exact Data.nesting_record_le_iff.2 (by simp [Millis.toData])

end Nesting

/-- Each level of elements takes two levels of data, so a reader that follows the data follows the
elements. -/
lemma ofUsable?_toData {element : Element} {depth : Nat} (h : element.toData.nesting ≤ depth + 1)
    (nested : Bool) : ofUsable? (depth + 1) nested element.toData = some element := by
  induction element using inductionOn generalizing depth nested with
  | title en zh => cases en <;> cases zh <;> rfl
  | text content =>
    have hread := mapM_map_eq_some fun segment (_ : segment ∈ content) =>
      segment.ofUsable?_toData true
    change ((content.map Segment.toData).mapM (Segment.ofUsable? true)).bind
      (fun content => some (text content)) = _
    rw [hread, Option.bind_some]
  | quote emphasis quotes =>
    have hread := mapM_map_eq_some fun pair (_ : pair ∈ quotes) => pair.ofData?_toData
    change ((quotes.map Bilingual.toData).mapM Bilingual.ofData?).bind
      (fun quotes => some (quote emphasis quotes)) = _
    rw [hread, Option.bind_some]
  | practice practices =>
    have hread := mapM_map_eq_some fun pair (_ : pair ∈ practices) => pair.ofData?_toData
    change ((practices.map Bilingual.toData).mapM Bilingual.ofData?).bind
      (fun practices => some (practice practices)) = _
    rw [hread, Option.bind_some]
  | word focus elements ih =>
    obtain ⟨depth, rfl⟩ := Nat.exists_eq_add_one.2
      (Data.pos_of_nesting_record (List.mem_cons_of_mem _ (List.mem_cons_of_mem _ (.head _))) h)
    have hread := mapM_map_eq_some fun child hc =>
      ih child hc (Nat.le_succ_of_le (nesting_word_le_iff.1 h child hc)) true
    rw [toData, listToData_eq_map]
    change ((elements.map toData).mapM (ofUsable? (depth + 1) true)).bind
      (fun elements => some (word focus elements)) = _
    rw [hread, Option.bind_some]
  | closing elements ih =>
    obtain ⟨depth, rfl⟩ := Nat.exists_eq_add_one.2
      (Data.pos_of_nesting_record (List.mem_cons_of_mem _ (.head _)) h)
    have hread := mapM_map_eq_some fun child hc =>
      ih child hc (Nat.le_succ_of_le (nesting_closing_le_iff.1 h child hc)) true
    rw [toData, listToData_eq_map]
    change ((elements.map toData).mapM (ofUsable? (depth + 1) true)).bind
      (fun elements => some (closing elements)) = _
    rw [hread, Option.bind_some]
  | pause duration =>
    change (Millis.ofData? duration.toData).bind (fun duration => some (pause duration)) = _
    rw [duration.ofData?_toData, Option.bind_some]

lemma ofDataWithin?_toData {element : Element} {depth : Nat} (h : element.toData.nesting ≤ depth) :
    ofDataWithin? depth element.toData = some element := by
  rw [ofDataWithin?, if_pos (element.exact_toData.usable h)]
  exact ofUsable?_toData (Nat.le_succ_of_le h) false

end Element

namespace MetaValue

lemma ofData?_toData (value : MetaValue) : ofData? value.toData = some value := by
  cases value with
  | int n =>
    have hlow : Int64.minValue.toInt ≤ n.toInt := n.minValue_le_toInt
    have hhigh : n.toInt ≤ Int64.maxValue.toInt := n.toInt_le
    rw [toData, ofData?, if_pos ⟨hlow, hhigh⟩, Int64.ofInt_toInt]
  | str s => rfl

lemma exact_toData (value : MetaValue) : value.toData.Exact := by
  cases value with
  | int n =>
    have hlow := n.le_toInt
    have hhigh := n.toInt_lt
    have hsigned : Text.wordMax 63 + 1 = 2 ^ 63 := by decide
    have hunsigned : Text.wordMax 64 + 1 = 2 ^ 64 := by decide
    exact .int ⟨by omega, by omega⟩
  | str s => exact .text s

lemma nesting_toData (value : MetaValue) : value.toData.nesting = 0 := by
  cases value <;> rfl

/-- A field of a document's metadata as the field of a record, and back. -/
def toField (field : String × MetaValue) : String × Data := (field.1, field.2.toData)

def ofField? (field : String × Data) : Option (String × MetaValue) :=
  (ofData? field.2).map (field.1, ·)

lemma ofField?_toField (field : String × MetaValue) : ofField? (toField field) = some field := by
  simp only [ofField?, toField, ofData?_toData, Option.map_some]

end MetaValue

namespace Scene

lemma exact_toData (scene : Scene) : scene.toData.Exact := by
  obtain ⟨id, name, kind, elements⟩ := scene
  have helements : (Data.list (Element.listToData elements)).Exact := by
    rw [Element.listToData_eq_map]
    exact Data.exact_map fun element _ => element.exact_toData
  cases name with
  | none => exact Data.exact_record ⟨.text _, .text _, helements⟩
  | some name => exact Data.exact_record ⟨.text _, .text _, .text _, helements⟩

lemma nesting_toData_le_iff {scene : Scene} {n : Nat} :
    scene.toData.nesting ≤ n + 2 ↔ ∀ element ∈ scene.elements, element.toData.nesting ≤ n := by
  obtain ⟨id, name, kind, elements⟩ := scene
  rw [← Element.nesting_elements_le_iff, toData, Data.nesting_record_le_iff]
  cases name <;> simp [Data.optionalField]

/-- The elements of a scene are read to the depth that the scene leaves of the limit. -/
lemma ofData?_toData {scene : Scene} (h : scene.toData.nesting ≤ Data.depthLimit - 2) :
    ofData? scene.toData = some scene := by
  have hread := mapM_map_eq_some fun element he =>
    Element.ofDataWithin?_toData (nesting_toData_le_iff.1 h element he)
  obtain ⟨id, name, kind, elements⟩ := scene
  have heq : ofData? (toData ⟨id, name, kind, elements⟩) =
      ((Element.listToData elements).mapM (Element.ofDataWithin? (Data.depthLimit - 4))).bind
        fun elements => some ⟨id, name, kind, elements⟩ := by
    cases name <;> cases kind <;> rfl
  rw [heq, Element.listToData_eq_map]
  exact congrArg (Option.bind · _) hread

end Scene

namespace Document

lemma exact_toData (doc : Document) : doc.toData.Exact := by
  have hmetadata : (Data.record (doc.metadata.entries.map MetaValue.toField)).Exact :=
    .record (List.forall_mem_map.2 fun field _ => field.2.exact_toData)
  exact Data.exact_record ⟨hmetadata, Data.exact_map fun scene _ => scene.exact_toData⟩

lemma nesting_toData_le_iff {doc : Document} {n : Nat} :
    doc.toData.nesting ≤ n + 2 ↔ ∀ scene ∈ doc.scenes, scene.toData.nesting ≤ n := by
  have hmetadata : (Data.record (doc.metadata.entries.map MetaValue.toField)).nesting ≤ n + 1 := by
    rw [Data.nesting_record_le_iff, List.forall_mem_map]
    intro field _
    rw [MetaValue.toField, MetaValue.nesting_toData]
    exact Nat.zero_le n
  have hscenes : (Data.list (doc.scenes.map Scene.toData)).nesting ≤ n + 1 ↔
      ∀ scene ∈ doc.scenes, scene.toData.nesting ≤ n := Data.nesting_map_le_iff
  have hdata : doc.toData = .record
      [("metadata", .record (doc.metadata.entries.map MetaValue.toField)),
        ("scenes", .list (doc.scenes.map Scene.toData))] := rfl
  rw [hdata, Data.nesting_record_le_iff, ← hscenes]
  simp [hmetadata]

lemma ofData?_toData {doc : Document} (h : doc.toData.nesting ≤ Data.depthLimit) :
    ofData? doc.toData = some doc := by
  have hmetadata := mapM_map_eq_some fun field (_ : field ∈ doc.metadata.entries) =>
    MetaValue.ofField?_toField field
  have hscenes := mapM_map_eq_some fun scene hs =>
    Scene.ofData?_toData (nesting_toData_le_iff.1 h scene hs)
  have htable : Table.ofList doc.metadata.entries = doc.metadata :=
    Table.ext (Table.entries_ofList doc.metadata.nodup)
  have heq : ofData? doc.toData =
      ((doc.metadata.entries.map MetaValue.toField).mapM MetaValue.ofField?).bind fun entries =>
        ((doc.scenes.map Scene.toData).mapM Scene.ofData?).bind fun scenes =>
          some ⟨.ofList entries, scenes⟩ := rfl
  rw [heq, hmetadata, hscenes, Option.bind_some, Option.bind_some, htable]

end Document
end LessonScript
