import LessonScript.Text.Numeral
import Mathlib.Data.List.Induction
import Mathlib.Tactic.Common

/-!
# Reading numbers back

The decimal digits of a number are a numeral, and reading it gives the number. Every numeral is the
digits of its value behind leading zeros.
-/

namespace LessonScript.Text

lemma isDigit_of_mem_digits {n : Nat} {c : Char} (h : c ∈ digits n) : c.isDigit = true :=
  Nat.isDigit_of_mem_toDigits (by decide) (by decide) h

lemma digits_ne_nil (n : Nat) : digits n ≠ [] := Nat.toDigits_ne_nil

lemma isNumeral_digits (n : Nat) : isNumeral (digits n) = true := by
  rw [isNumeral, Bool.and_eq_true, List.all_eq_true]
  exact ⟨by simp [digits_ne_nil], fun _ => isDigit_of_mem_digits⟩

lemma numeralValue_digits (n : Nat) : numeralValue (digits n) = n := by
  have hvalue : numeralValue (digits n) = Nat.ofDigitChars 10 (Nat.toDigits 10 n) 0 :=
    Nat.ofDigitChars_eq_foldl.symm
  rw [hvalue, Nat.ofDigitChars_ten_toDigits]

lemma readUpTo_digits {bound n : Nat} (h : n ≤ bound) : readUpTo bound (digits n) = some n :=
  readUpTo_eq_some_iff.2 ⟨isNumeral_digits n, numeralValue_digits n, h⟩

lemma toList_toString_nat (n : Nat) : (toString n).toList = digits n := by
  simp [digits]

lemma toList_toString_int (n : Int) :
    (toString n).toList = (if n < 0 then ['-'] else []) ++ digits n.natAbs := by
  cases n <;> simp [Int.toString_eq_repr, Int.repr, digits]

/-! ## Leading zeros -/

lemma isNumeral_iff {cs : List Char} :
    isNumeral cs = true ↔ cs ≠ [] ∧ ∀ c ∈ cs, c.isDigit = true := by
  simp [isNumeral]

lemma digitValue_lt {c : Char} (h : c.isDigit = true) : digitValue c < 10 := by
  have hc := Char.isDigit_iff_toNat.1 h
  simp only [digitValue, Char.reduceToNat] at hc ⊢
  omega

lemma digits_digitValue {c : Char} (h : c.isDigit = true) : digits (digitValue c) = [c] := by
  have hc := Char.isDigit_iff_toNat.1 h
  rw [digits, Nat.toDigits_of_lt_base (digitValue_lt h)]
  congr 1
  rw [← Char.toNat_inj, Nat.toNat_digitChar_of_lt_ten (digitValue_lt h)]
  simp only [digitValue, Char.reduceToNat] at hc ⊢
  omega

lemma digits_append {n : Nat} {c : Char} (hn : 0 < n) (hc : c.isDigit = true) :
    digits (10 * n + digitValue c) = digits n ++ [c] := by
  rw [← digits_digitValue hc]
  exact (Nat.toDigits_append_toDigits (by decide) hn (digitValue_lt hc)).symm

lemma numeralValue_padZeros (width : Nat) (cs : List Char) :
    numeralValue (padZeros width cs) = numeralValue cs := by
  rw [padZeros]
  induction width - cs.length with
  | zero => rfl
  | succ k ih => exact ih

lemma isNumeral_padZeros (width : Nat) {cs : List Char} (h : isNumeral cs = true) :
    isNumeral (padZeros width cs) = true := by
  rw [isNumeral_iff] at h ⊢
  refine ⟨List.append_ne_nil_of_right_ne_nil _ h.1, ?_⟩
  intro c hc
  obtain hzero | hc := List.mem_append.1 hc
  · rw [List.eq_of_mem_replicate hzero]
    rfl
  · exact h.2 c hc

lemma length_padZeros (width : Nat) (cs : List Char) :
    (padZeros width cs).length = max width cs.length := by
  rw [padZeros, List.length_append, List.length_replicate]
  omega

lemma padZeros_nil (width : Nat) : padZeros width [] = List.replicate width '0' :=
  List.append_nil _

lemma padZeros_concat (width : Nat) (cs : List Char) (c : Char) :
    padZeros (width + 1) (cs ++ [c]) = padZeros width cs ++ [c] := by
  simp [padZeros]

/-- A numeral is the digits of its value, padded with zeros to its own length. -/
lemma padZeros_digits {cs : List Char} (h : isNumeral cs = true) :
    padZeros cs.length (digits (numeralValue cs)) = cs := by
  induction cs using List.reverseRecOn with
  | nil => cases h
  | append_singleton cs c ih =>
    have hdigits := (isNumeral_iff.1 h).2
    have hc : c.isDigit = true := hdigits c (by simp)
    rw [numeralValue_append_singleton, List.length_append, List.length_singleton]
    by_cases hcs : cs = []
    · subst hcs
      have hvalue : 10 * numeralValue [] + digitValue c = digitValue c := Nat.zero_add _
      rw [hvalue, digits_digitValue hc]
      rfl
    have hpadded := ih (isNumeral_iff.2 ⟨hcs, fun d hd => hdigits d (by simp [hd])⟩)
    obtain hzero | hpos := (numeralValue cs).eq_zero_or_pos
    · -- all digits so far are zeros
      obtain ⟨k, hk⟩ := Nat.exists_eq_add_one_of_ne_zero (mt List.length_eq_zero_iff.1 hcs)
      have hzeros : padZeros cs.length [] = cs := by
        rw [hzero, hk] at hpadded
        rw [hk, padZeros_nil, List.replicate_succ', ← padZeros_nil, ← padZeros_concat]
        exact hpadded
      rw [hzero, Nat.mul_zero, Nat.zero_add, digits_digitValue hc]
      exact (padZeros_concat cs.length [] c).trans (congrArg (· ++ [c]) hzeros)
    · rw [digits_append hpos hc, padZeros_concat, hpadded]

end LessonScript.Text
