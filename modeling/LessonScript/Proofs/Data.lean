import LessonScript.Coding
import Mathlib.Data.List.Basic

/-!
# The depth and the texts of data

Lists and records nest to some depth, and a reader of tagged data follows them down to a limit. Data
within the limit is usable if its text tells it in full, which leaves out the numbers with a
fraction and those beyond 64 bits.
-/

namespace LessonScript
namespace Data

/-- The integers that a signed or an unsigned word of 64 bits holds. -/
def IsWord (n : Int) : Prop := -(Text.wordMax 63 + 1 : Int) ≤ n ∧ n ≤ Text.wordMax 64

/-- Data that its written text tells in full. -/
inductive Exact : Data → Prop where
  | null : Exact .null
  | bool (b : Bool) : Exact (.bool b)
  | int {n : Int} (h : IsWord n) : Exact (.int n)
  | text (s : String) : Exact (.text s)
  | list {items : List Data} (h : ∀ item ∈ items, Exact item) : Exact (.list items)
  | record {fields : List (String × Data)} (h : ∀ field ∈ fields, Exact field.2) :
    Exact (.record fields)

lemma exact_record {fields : List (String × Data)} (h : fields.Forall fun field => field.2.Exact) :
    (record fields).Exact :=
  .record (List.forall_iff_forall_mem.1 h)

lemma exact_map {α : Type} {encode : α → Data} {xs : List α} (h : ∀ x ∈ xs, (encode x).Exact) :
    (list (xs.map encode)).Exact :=
  .list (List.forall_mem_map.2 h)

mutual

/-- How many lists and records stand within one another at the deepest place of some data. -/
def nesting : Data → Nat
  | .list items => nestingItems items + 1
  | .record fields => nestingFields fields + 1
  | _ => 0

def nestingItems : List Data → Nat
  | [] => 0
  | item :: rest => max (nesting item) (nestingItems rest)

def nestingFields : List (String × Data) → Nat
  | [] => 0
  | (_, value) :: rest => max (nesting value) (nestingFields rest)

end

@[simp] lemma nesting_bool (b : Bool) : (bool b).nesting = 0 := rfl

@[simp] lemma nesting_int (n : Int) : (int n).nesting = 0 := rfl

@[simp] lemma nesting_text (s : String) : (text s).nesting = 0 := rfl

lemma nestingItems_le_iff {items : List Data} {n : Nat} :
    nestingItems items ≤ n ↔ ∀ item ∈ items, item.nesting ≤ n := by
  induction items with
  | nil => simp [nestingItems]
  | cons item rest ih => rw [nestingItems, Nat.max_le, ih, List.forall_mem_cons]

lemma nestingFields_le_iff {fields : List (String × Data)} {n : Nat} :
    nestingFields fields ≤ n ↔ ∀ field ∈ fields, field.2.nesting ≤ n := by
  induction fields with
  | nil => simp [nestingFields]
  | cons field rest ih => rw [nestingFields, Nat.max_le, ih, List.forall_mem_cons]

lemma nesting_list_le_iff {items : List Data} {n : Nat} :
    (list items).nesting ≤ n + 1 ↔ ∀ item ∈ items, item.nesting ≤ n := by
  rw [nesting, Nat.add_le_add_iff_right, nestingItems_le_iff]

lemma nesting_map_le_iff {α : Type} {encode : α → Data} {xs : List α} {n : Nat} :
    (list (xs.map encode)).nesting ≤ n + 1 ↔ ∀ x ∈ xs, (encode x).nesting ≤ n := by
  rw [nesting_list_le_iff, List.forall_mem_map]

lemma nesting_record_le_iff {fields : List (String × Data)} {n : Nat} :
    (record fields).nesting ≤ n + 1 ↔ ∀ field ∈ fields, field.2.nesting ≤ n := by
  rw [nesting, Nat.add_le_add_iff_right, nestingFields_le_iff]

lemma pos_of_nesting_record {fields : List (String × Data)} {name : String} {items : List Data}
    {n : Nat} (hmem : (name, list items) ∈ fields) (h : (record fields).nesting ≤ n + 1) : 0 < n :=
  Nat.lt_of_lt_of_le (Nat.succ_pos _) (nesting_record_le_iff.1 h _ hmem)

lemma usableItems_iff {items : List Data} {depth : Nat} :
    usableItems depth items = true ↔ ∀ item ∈ items, item.usable depth = true := by
  induction items with
  | nil => simp [usableItems]
  | cons item rest ih => rw [usableItems, Bool.and_eq_true, ih, List.forall_mem_cons]

lemma usableFields_iff {fields : List (String × Data)} {depth : Nat} :
    usableFields depth fields = true ↔ ∀ field ∈ fields, field.2.usable depth = true := by
  induction fields with
  | nil => simp [usableFields]
  | cons field rest ih => rw [usableFields, Bool.and_eq_true, ih, List.forall_mem_cons]

lemma Exact.usable {d : Data} (h : d.Exact) {depth : Nat} (hdepth : d.nesting ≤ depth) :
    d.usable depth = true := by
  induction h generalizing depth with
  | list _ ih =>
    obtain ⟨depth, rfl⟩ := Nat.exists_eq_add_one.2 (Nat.lt_of_lt_of_le (Nat.succ_pos _) hdepth)
    have hitems := nesting_list_le_iff.1 hdepth
    rw [Data.usable, Bool.and_eq_true]
    exact ⟨rfl, usableItems_iff.2 fun item hi => ih item hi (hitems item hi)⟩
  | record _ ih =>
    obtain ⟨depth, rfl⟩ := Nat.exists_eq_add_one.2 (Nat.lt_of_lt_of_le (Nat.succ_pos _) hdepth)
    have hfields := nesting_record_le_iff.1 hdepth
    rw [Data.usable, Bool.and_eq_true]
    exact ⟨rfl, usableFields_iff.2 fun field hf => ih field hf (hfields field hf)⟩
  | _ => rfl

end Data
end LessonScript
