import LessonScript.Document.Metadata
import LessonScript.Proofs.Text.Numeral
import Mathlib.Tactic.Common

/-!
# Integers among metadata values

A value written with digits alone is an integer as long as a signed word of 64 bits holds it, and a
text otherwise. An integer is shown without the leading zeros that it was written with, and any
other value just as it was written. What is shown is read as the same value again.
-/

namespace LessonScript

namespace Text

variable {cs : List Char}

/-- A zero with more behind it. -/
def HasSpareZero (cs : List Char) : Prop := ∃ rest, rest ≠ [] ∧ cs = '0' :: rest

/-- The text without its leading zeros. Of zeros alone the last one stays. -/
def withoutZeros : List Char → List Char
  | [] => []
  | [c] => [c]
  | c :: d :: cs => if c = '0' then withoutZeros (d :: cs) else c :: d :: cs

lemma numeralValue_zero_cons (cs : List Char) : numeralValue ('0' :: cs) = numeralValue cs := rfl

lemma isNumeral_of_cons {c : Char} (h : isNumeral (c :: cs) = true) (hne : cs ≠ []) :
    isNumeral cs = true :=
  isNumeral_iff.2 ⟨hne, fun d hd => (isNumeral_iff.1 h).2 d (List.mem_cons_of_mem c hd)⟩

/-- Digits with a spare zero are more than the digits of their value. -/
lemma not_hasSpareZero_digits (n : Nat) : ¬ HasSpareZero (digits n) := by
  rintro ⟨rest, hne, hdigits⟩
  have hrest : isNumeral rest = true := by
    have hall := isNumeral_digits n
    rw [hdigits] at hall
    exact isNumeral_of_cons hall hne
  have hvalue : numeralValue rest = n := by
    rw [← numeralValue_zero_cons, ← hdigits, numeralValue_digits]
  have hlength := congrArg List.length (padZeros_digits hrest)
  rw [length_padZeros, hvalue, hdigits, List.length_cons] at hlength
  omega

lemma digits_numeralValue_of_not_spare (h : isNumeral cs = true) (hspare : ¬ HasSpareZero cs) :
    digits (numeralValue cs) = cs := by
  have hpadded := padZeros_digits h
  rw [padZeros] at hpadded
  cases hzeros : cs.length - (digits (numeralValue cs)).length with
  | zero => rwa [hzeros] at hpadded
  | succ k =>
    rw [hzeros, List.replicate_succ, List.cons_append] at hpadded
    exact absurd ⟨_, List.append_ne_nil_of_right_ne_nil _ (digits_ne_nil _), hpadded.symm⟩ hspare

/-- The digits of a numeral's value are the numeral without its leading zeros. -/
lemma digits_numeralValue (h : isNumeral cs = true) :
    digits (numeralValue cs) = withoutZeros cs := by
  fun_induction withoutZeros cs with
  | case1 => cases h
  | case2 c => exact digits_numeralValue_of_not_spare h (by rintro ⟨_ | _, hne, ⟨⟩⟩; exact hne rfl)
  | case3 d cs ih =>
    rw [numeralValue_zero_cons]
    exact ih (isNumeral_of_cons h (List.cons_ne_nil d cs))
  | case4 c d cs hc =>
    refine digits_numeralValue_of_not_spare h ?_
    rintro ⟨rest, -, hrest⟩
    exact hc (List.cons.inj hrest).1

lemma withoutZeros_eq_self_iff (h : isNumeral cs = true) :
    withoutZeros cs = cs ↔ ¬ HasSpareZero cs := by
  rw [← digits_numeralValue h]
  refine ⟨fun hsame hspare => ?_, digits_numeralValue_of_not_spare h⟩
  rw [← hsame] at hspare
  exact not_hasSpareZero_digits _ hspare

end Text

/-- A numeral that a signed word of 64 bits holds. -/
def FitsInteger (cs : List Char) : Prop :=
  Text.isNumeral cs = true ∧ Text.numeralValue cs ≤ Text.wordMax 63

lemma fitsInteger_iff {cs : List Char} : FitsInteger cs ↔ cs ≠ [] ∧
    (∀ c ∈ cs, c.isDigit = true) ∧ (Text.numeralValue cs : Int) ≤ Int64.maxValue.toInt := by
  have hmax : Int64.maxValue.toInt = Text.wordMax 63 := by decide
  rw [FitsInteger, Text.isNumeral_iff, and_assoc, hmax, Int.ofNat_le]

lemma fitsInteger_digits {n : Nat} (h : n ≤ Text.wordMax 63) : FitsInteger (Text.digits n) :=
  ⟨Text.isNumeral_digits n, by rwa [Text.numeralValue_digits]⟩

namespace MetaValue

variable {cs : List Char}

lemma ofText_of_fits (h : FitsInteger cs) :
    ∃ n : Int64, ofText cs = .int n ∧ n.toInt = Text.numeralValue cs := by
  have hread : Text.readUpTo (Text.wordMax 63) cs = some (Text.numeralValue cs) :=
    Text.readUpTo_eq_some_iff.2 ⟨h.1, rfl, h.2⟩
  have hlt : Text.wordMax 63 < 2 ^ 63 := by decide
  exact ⟨Int64.ofNat (Text.numeralValue cs), by rw [ofText, hread],
    Int64.toInt_ofNat_of_lt (Nat.lt_of_le_of_lt h.2 hlt)⟩

lemma ofText_of_not_fits (h : ¬ FitsInteger cs) :
    ofText cs = .str (String.ofList cs) := by
  have hread : Text.readUpTo (Text.wordMax 63) cs = none := by
    cases hr : Text.readUpTo (Text.wordMax 63) cs with
    | none => rfl
    | some n =>
      obtain ⟨hn, rfl, hle⟩ := Text.readUpTo_eq_some_iff.1 hr
      exact absurd ⟨hn, hle⟩ h
  rw [ofText, hread]

lemma exists_int_iff : (∃ n, ofText cs = .int n) ↔ FitsInteger cs := by
  constructor
  · rintro ⟨n, hn⟩
    by_contra h
    cases hn.symm.trans (ofText_of_not_fits h)
  · intro h
    obtain ⟨n, hn, -⟩ := ofText_of_fits h
    exact ⟨n, hn⟩

lemma toInt_of_ofText {n : Int64} (hn : ofText cs = .int n) :
    n.toInt = Text.numeralValue cs := by
  obtain ⟨m, hm, hvalue⟩ := ofText_of_fits (exists_int_iff.1 ⟨n, hn⟩)
  rw [← hvalue, MetaValue.int.inj (hm.symm.trans hn)]

lemma text_of_ofText {text : String} (htext : ofText cs = .str text) : text = String.ofList cs := by
  by_cases h : FitsInteger cs
  · obtain ⟨n, hn, -⟩ := ofText_of_fits h
    cases hn.symm.trans htext
  · exact MetaValue.str.inj (htext.symm.trans (ofText_of_not_fits h))

lemma toList_shown_of_fits (h : FitsInteger cs) :
    (ofText cs).shown.toList = Text.withoutZeros cs := by
  obtain ⟨n, hn, hvalue⟩ := ofText_of_fits h
  rw [hn, shown, hvalue, Text.toList_toString_int, Int.natAbs_natCast,
    if_neg (Int.not_lt.2 (Int.natCast_nonneg _)), List.nil_append, Text.digits_numeralValue h.1]

lemma toList_shown_of_not_fits (h : ¬ FitsInteger cs) : (ofText cs).shown.toList = cs := by
  rw [ofText_of_not_fits h, shown, String.toList_ofList]

/-- An integer without its spare zeros is read as the same integer. -/
lemma ofText_withoutZeros (h : FitsInteger cs) : ofText (Text.withoutZeros cs) = ofText cs := by
  obtain ⟨n, hn, hvalue⟩ := ofText_of_fits h
  obtain ⟨m, hm, hsame⟩ := ofText_of_fits (fitsInteger_digits h.2)
  rw [Text.numeralValue_digits, ← hvalue] at hsame
  rw [← Text.digits_numeralValue h.1, hn, hm, Int64.toInt_inj.1 hsame]

lemma ofText_shown_ofText (cs : List Char) : ofText (ofText cs).shown.toList = ofText cs := by
  by_cases h : FitsInteger cs
  · rw [toList_shown_of_fits h, ofText_withoutZeros h]
  · rw [toList_shown_of_not_fits h]

lemma toList_shown_ne_iff :
    (ofText cs).shown.toList ≠ cs ↔ FitsInteger cs ∧ Text.HasSpareZero cs := by
  by_cases h : FitsInteger cs
  · rw [toList_shown_of_fits h, Ne, Text.withoutZeros_eq_self_iff h.1, not_not, and_iff_right h]
  · exact iff_of_false (not_not_intro (toList_shown_of_not_fits h)) fun hspare => h hspare.1

/-- How a value stands to the text that it is read from. -/
structure ReadFrom (raw : String) (value : MetaValue) : Prop where
  /-- It is an integer if the text is made of digits and their value fits a word. -/
  int_iff : (∃ n, value = .int n) ↔ raw.toList ≠ [] ∧ (∀ c ∈ raw.toList, c.isDigit = true) ∧
    (Text.numeralValue raw.toList : Int) ≤ Int64.maxValue.toInt
  toInt_eq : ∀ n, value = .int n → n.toInt = Text.numeralValue raw.toList
  text_eq : ∀ text, value = .str text → text = raw
  /-- What is shown is read as the same value. -/
  ofText_shown : ofText value.shown.toList = value
  /-- It is shown as written but for an integer with zeros to spare. -/
  shown_ne_iff : value.shown ≠ raw ↔ (∃ n, value = .int n) ∧ Text.HasSpareZero raw.toList
  shown_int : ∀ n, value = .int n → value.shown = String.ofList (Text.withoutZeros raw.toList)

/-- Reading a text as a value is stable: the value is shown as the text, without spare zeros if it
is an integer, and reading what is shown gives the same value. -/
theorem readFrom_ofText (raw : String) : ReadFrom raw (ofText raw.toList) where
  int_iff := exists_int_iff.trans fitsInteger_iff
  toInt_eq _ := toInt_of_ofText
  text_eq text htext := by rw [text_of_ofText htext, String.ofList_toList]
  ofText_shown := ofText_shown_ofText raw.toList
  shown_ne_iff := by
    rw [exists_int_iff, ← toList_shown_ne_iff, Ne, Ne, String.toList_inj]
  shown_int n hn := by
    rw [← toList_shown_of_fits (exists_int_iff.1 ⟨n, hn⟩), String.ofList_toList]

/-- The largest integer, with zeros to spare, and the next number, which stays a text. -/
example : (ofText "009223372036854775807".toList).shown = "9223372036854775807" ∧
    ofText "009223372036854775808".toList = .str "009223372036854775808" := by
  decide +kernel

end MetaValue
end LessonScript
