import LessonScript.Proofs.Library.Listing

/-!
# Lesson numbers

A number has one storage key, and no other number has the same one. It can be asked for with any
number of leading zeros. A source that lists the keys of its lessons lists, in ascending order, the
number of every lesson that it holds.
-/

namespace LessonScript
namespace Text

lemma replicate_append_eq_padZeros (zeros : Nat) (cs : List Char) :
    List.replicate zeros '0' ++ cs = padZeros (zeros + cs.length) cs := by
  rw [padZeros, Nat.add_sub_cancel]

/-- Leading zeros do not matter for the number that a text spells. -/
lemma readUpTo_zeros_digits {bound n : Nat} (h : n ≤ bound) (zeros : Nat) :
    readUpTo bound (List.replicate zeros '0' ++ digits n) = some n := by
  rw [replicate_append_eq_padZeros, readUpTo_eq_some_iff, numeralValue_padZeros]
  exact ⟨isNumeral_padZeros _ (isNumeral_digits n), numeralValue_digits n, h⟩

end Text

namespace LessonId
open Text

lemma ofText_zeros_digits (n : UInt32) (zeros : Nat) :
    ofText (String.ofList (List.replicate zeros '0' ++ digits n.toNat)) = .number n := by
  rw [ofText, String.toList_ofList, readUpTo_zeros_digits (toNat_le_wordMax n)]
  exact congrArg LessonId.number (UInt32.ofNat_toNat)

lemma key_number_injective {m n : UInt32}
    (h : (LessonId.number m).key = (LessonId.number n).key) : m = n := by
  rw [key_number, key_number, String.ofList_inj, List.append_cancel_left_eq] at h
  have hvalue := congrArg numeralValue h
  rw [numeralValue_padZeros, numeralValue_padZeros, numeralValue_digits, numeralValue_digits]
    at hvalue
  exact UInt32.toNat_inj.1 hvalue

end LessonId

/-- What the numbers are that a source lists, given the keys that it lists. -/
structure Numbering (source : Source) (keys : List String) (numbers : List Nat) : Prop where
  ascending : numbers.Pairwise (· < ·)
  /-- Every lesson number under whose key the source holds a script is there. -/
  complete : ∀ n : UInt32, source.contains (LessonId.number n).key = true → n.toNat ∈ numbers
  /-- A number is there for every numeral of 32 bits behind "lesson", and for nothing else. -/
  mem_iff : ∀ n, n ∈ numbers ↔ n ≤ Text.wordMax 32 ∧ ∃ numeral, Text.isNumeral numeral = true ∧
    Text.numeralValue numeral = n ∧ String.ofList (LessonId.keyHead ++ numeral) ∈ keys
  /-- A source that holds all that it lists holds a key for every number. -/
  held : (∀ key ∈ keys, source.contains key = true) → ∀ n ∈ numbers,
    ∃ numeral, Text.isNumeral numeral = true ∧ Text.numeralValue numeral = n ∧
      source.contains (String.ofList (LessonId.keyHead ++ numeral)) = true

namespace Source
open Text

/-- The numbers that a source lists are those of its lessons, in ascending order; they have keys of
their own, and are asked for with or without leading zeros. -/
theorem numbering_of_listed (source : Source) {keys : List String} (hkeys : source.keys = .ok keys)
    (hlisted : ∀ n : UInt32, source.contains (LessonId.number n).key = true →
      (LessonId.number n).key ∈ keys) :
    (∃ numbers, source.lessons = .ok numbers ∧ Numbering source keys numbers) ∧
    (∀ m n : UInt32, (LessonId.number m).key = (LessonId.number n).key → m = n) ∧
    ∀ (n : UInt32) (zeros : Nat), LessonId.ofText
      (String.ofList (List.replicate zeros '0' ++ digits n.toNat)) = .number n := by
  refine ⟨⟨lessonNumbers keys, by rw [lessons, hkeys], ?_⟩,
    fun _ _ => LessonId.key_number_injective, LessonId.ofText_zeros_digits⟩
  refine ⟨ascending_lessonNumbers keys, ?_, fun _ => mem_lessonNumbers, ?_⟩
  · intro n hn
    exact mem_lessonNumbers_of_key (hlisted n hn)
  · intro hall n hn
    obtain ⟨-, numeral, hnumeral, hvalue, hkey⟩ := mem_lessonNumbers.1 hn
    exact ⟨numeral, hnumeral, hvalue, hall _ hkey⟩

/-- Several keys of one number, digits that are not ASCII and a number of more than 32 bits. -/
theorem numbering_of_spellings :
    let keys := ["lesson012", "lesson7", "lesson007", "lesson٣", "lesson4294967296", "intro"]
    let source := ofScripts (.ofList (keys.map fun key => (key, "")))
    source.keys = .ok keys ∧
    (∀ n : UInt32, source.contains (LessonId.number n).key = true →
      (LessonId.number n).key ∈ keys) ∧
    source.lessons = .ok [7, 12] ∧ Numbering source keys [7, 12] := by
  intro keys source
  have hscripts : (Table.ofList (keys.map fun key => (key, ""))).keys = keys := by decide +kernel
  have hkeys : source.keys = .ok keys := congrArg Except.ok hscripts
  have hlisted : ∀ n : UInt32, source.contains (LessonId.number n).key = true →
      (LessonId.number n).key ∈ keys := by
    intro n hn
    rw [contains_ofScripts_iff, hscripts] at hn
    exact hn
  have hread : keys.filterMap LessonId.numberOfKey? = [12, 7, 7] := by decide +kernel
  have hsorted : [12, 7, 7].mergeSort (· ≤ ·) = [7, 7, 12] := by
    simp [List.mergeSort, List.MergeSort.Internal.splitInTwo]
  have hnumbers : lessonNumbers keys = [7, 12] := by
    rw [lessonNumbers, hread, hsorted]
    rfl
  have hlessons : source.lessons = .ok [7, 12] := by rw [lessons, hkeys, ← hnumbers]
  obtain ⟨⟨numbers, hlisting, hnumbering⟩, -⟩ := numbering_of_listed source hkeys hlisted
  rw [hlessons] at hlisting
  cases hlisting
  exact ⟨hkeys, hlisted, hlessons, hnumbering⟩

end Source
end LessonScript
