import LessonScript.Json.Printer
import LessonScript.Json.Token
import LessonScript.Proofs.Data
import LessonScript.Proofs.Text.Numeral
import Mathlib.Data.Option.Basic

/-!
# Scanning written scalars

A text literal and a number are each scanned as one token, whatever follows a literal, and for a
number as long as what follows cannot belong to it.
-/

namespace LessonScript

namespace Text

lemma exists_digits_eq_cons {n : Nat} (h : 0 < n) : ∃ c cs, digits n = c :: cs ∧ c ≠ '0' := by
  induction n using Nat.strongRecOn with
  | _ n ih =>
    rcases Nat.lt_or_ge n 10 with hlt | hge
    · have hdigit : ∀ d < 10, 0 < d → Nat.digitChar d ≠ '0' := by decide
      exact ⟨_, [], Nat.toDigits_of_lt_base hlt, hdigit n hlt h⟩
    · obtain ⟨c, cs, hcons, hc⟩ := ih (n / 10) (Nat.div_lt_self h (by decide))
        (Nat.div_pos hge (by decide))
      refine ⟨c, cs ++ [(n % 10).digitChar], ?_, hc⟩
      rw [digits, Nat.toDigits_of_base_le (by decide) hge, ← digits, hcons, List.cons_append]

end Text

namespace Json

/-! ## Texts -/

lemma hexUnit?_controlEscape {n : Nat} (hn : n < 0x20) :
    ∃ c d, Text.padZeros 4 (Nat.toDigits 16 n) = ['0', '0', c, d] ∧
      hexUnit? '0' '0' c d = some n := by
  have hall : ∀ n < 0x20,
      Text.padZeros 4 (Nat.toDigits 16 n) =
          ['0', '0', Nat.digitChar (n / 16), Nat.digitChar (n % 16)] ∧
        hexUnit? '0' '0' (Nat.digitChar (n / 16)) (Nat.digitChar (n % 16)) = some n := by
    decide
  exact ⟨_, _, hall n hn⟩

section Units

variable {cs rest : List Char} {units : List Nat} (h : scanUnits cs = some (units, rest))

include h

lemma scanUnits_escaped {c e : Char} (he : e ≠ 'u') (hc : escaped? e = some c) :
    scanUnits ('\\' :: e :: cs) = some (c.toNat :: units, rest) := by
  rw [scanUnits.eq_4 _ _ fun _ _ _ _ _ hu _ => he hu, hc, h]
  rfl

lemma scanUnits_controlEscape {c : Char} (hc : c.toNat < 0x20) :
    scanUnits (controlEscape c ++ cs) = some (c.toNat :: units, rest) := by
  obtain ⟨a, b, htext, hunit⟩ := hexUnit?_controlEscape hc
  have hescape : controlEscape c ++ cs = '\\' :: 'u' :: '0' :: '0' :: a :: b :: cs := by
    rw [controlEscape, htext]
    rfl
  rw [hescape, scanUnits, hunit, h]
  rfl

lemma scanUnits_textChar (c : Char) :
    scanUnits (textChar c ++ cs) = some (c.toNat :: units, rest) := by
  unfold textChar
  split
  case h_8 hquote hslash _ _ _ _ _ =>
    split
    · rename_i hcontrol
      exact scanUnits_controlEscape h hcontrol
    · rename_i hplain
      rw [List.singleton_append, scanUnits.eq_5 _ _ hquote (fun _ _ _ _ _ hs _ => hslash hs)
        (fun _ _ hs _ => hslash hs), if_neg hplain, h]
      rfl
  all_goals exact scanUnits_escaped h (by decide) (by decide)

end Units

lemma scanUnits_flatMap_textChar (cs rest : List Char) :
    scanUnits (cs.flatMap textChar ++ '"' :: rest) = some (cs.map Char.toNat, rest) := by
  induction cs with
  | nil => rfl
  | cons c cs ih => rw [List.flatMap_cons, List.append_assoc, scanUnits_textChar ih, List.map_cons]

/-- A character is not one half of a surrogate pair. -/
lemma isHigh_toNat (c : Char) : isHigh c.toNat = false ∧ isLow c.toNat = false := by
  have hvalid : c.toNat.isValidChar := c.valid
  unfold Nat.isValidChar at hvalid
  simp only [isHigh, isLow, Bool.and_eq_false_iff, decide_eq_false_iff_not, Nat.not_le]
  omega

lemma joinUnits_map_toNat (cs : List Char) : joinUnits (cs.map Char.toNat) = some cs := by
  induction cs with
  | nil => rfl
  | cons c cs ih =>
    obtain ⟨hhigh, hlow⟩ := isHigh_toNat c
    cases cs with
    | nil => simp [joinUnits, hhigh, hlow]
    | cons d cs =>
      rw [List.map_cons] at ih
      rw [List.map_cons, List.map_cons, joinUnits, ih, hhigh, hlow]
      simp

lemma scanToken_textLiteral (s : String) (rest : List Char) :
    scanToken (textLiteral s ++ rest) = some (.text (some s), rest) := by
  have hliteral : textLiteral s ++ rest = '"' :: (s.toList.flatMap textChar ++ '"' :: rest) := by
    simp [textLiteral]
  rw [hliteral, scanToken, scanUnits_flatMap_textChar]
  simp only [Option.map_some, joinUnits_map_toNat, String.ofList_toList]

/-! ## Numbers -/

/-- A text at whose head no number goes on: it is at its end, at a comma or at a line break. -/
def Ended (cs : List Char) : Prop := ∀ c ∈ cs.head?, c = ',' ∨ c = '\n'

section Ended

variable {rest : List Char} (h : Ended rest)

include h

lemma Ended.spanDigits {ds : List Char} (hds : ∀ c ∈ ds, c.isDigit = true) :
    Decimal.spanDigits (ds ++ rest) = (ds, rest) := by
  have hrest : rest.takeWhile Char.isDigit = [] ∧ rest.dropWhile Char.isDigit = rest := by
    cases rest with
    | nil => exact ⟨rfl, rfl⟩
    | cons c cs => rcases h c rfl with rfl | rfl <;> exact ⟨rfl, rfl⟩
  rw [Decimal.spanDigits, List.takeWhile_append_of_pos hds, List.dropWhile_append_of_pos hds,
    hrest.1, hrest.2, List.append_nil]

lemma Ended.spanExponent : Decimal.spanExponent rest = some (0, rest) := by
  cases rest with
  | nil => rfl
  | cons c cs => rcases h c rfl with rfl | rfl <;> rfl

lemma Ended.ne_point (behind : List Char) : rest ≠ '.' :: behind := by
  rintro rfl
  exact absurd (h '.' rfl) (by decide)

lemma scanNumber_digits (n : Nat) :
    scanNumber (Text.digits n ++ rest) = some (Text.digits n, none, none, rest) := by
  have hpoint := h.ne_point
  rcases Nat.eq_zero_or_pos n with rfl | hpos
  · have hzero : Text.digits 0 ++ rest = '0' :: rest := rfl
    rw [hzero, scanNumber]
    simp [h.spanExponent, guard, Text.digits]
  · have hspan := h.spanDigits fun c (hc : c ∈ Text.digits n) => Text.isDigit_of_mem_digits hc
    obtain ⟨d, ds, hcons, hd⟩ := Text.exists_digits_eq_cons hpos
    rw [hcons, List.cons_append] at hspan ⊢
    rw [scanNumber.eq_2 _ fun _ heq => hd (List.cons.inj heq).1, hspan]
    simp [h.spanExponent, guard]

end Ended

lemma numberData_digits {n : Int} (h : Data.IsWord n) :
    numberData (decide (n < 0)) (Text.digits n.natAbs) none none = .int n := by
  obtain ⟨hlow, hhigh⟩ := h
  have hfits : (if decide (n < 0) then 0 < n.natAbs && n.natAbs ≤ Text.wordMax 63 + 1
      else decide (n.natAbs ≤ Text.wordMax 64)) = true := by
    split <;> simp_all <;> omega
  simp only [numberData, Text.numeralValue_digits, hfits]
  by_cases hn : n < 0
  · simp only [hn, Option.isNone_none, Bool.and_self, if_true, decide_true]
    congr 1
    omega
  · simp [hn]
    omega

lemma scanToken_digits (n : Nat) {rest : List Char} (h : Ended rest) :
    scanToken (Text.digits n ++ rest) =
      some (.scalar (numberData false (Text.digits n) none none), rest) := by
  have hscan := scanNumber_digits h n
  have hne : ∀ d behind, d.isDigit = false → Text.digits n ++ rest ≠ d :: behind := by
    intro d behind hd heq
    obtain ⟨c, cs, hcons⟩ := List.exists_cons_of_ne_nil (Text.digits_ne_nil n)
    have hc : c ∈ Text.digits n := by rw [hcons]; exact List.mem_cons_self
    rw [hcons, List.cons_append, List.cons.injEq] at heq
    rw [← heq.1, Text.isDigit_of_mem_digits hc] at hd
    cases hd
  rw [scanToken.eq_12]
  · simp only [hscan, Option.map_some]
  all_goals exact fun behind heq => hne _ behind (by decide) heq

lemma scanToken_int {n : Int} (hn : Data.IsWord n) {rest : List Char} (h : Ended rest) :
    scanToken ((toString n).toList ++ rest) = some (.scalar (.int n), rest) := by
  rw [Text.toList_toString_int]
  by_cases hneg : n < 0
  · rw [if_pos hneg, List.append_assoc, List.singleton_append, scanToken.eq_11, scanNumber_digits h,
      Option.map_some, ← numberData_digits hn, decide_eq_true hneg]
  · rw [if_neg hneg, List.nil_append, scanToken_digits _ h, ← numberData_digits hn,
      decide_eq_false hneg]

end Json
end LessonScript
