import LessonScript.Proofs.Library.Probe
import LessonScript.Proofs.Text.Numeral

/-!
# Listing the lessons of a source

The listing takes every key of "lesson" and a numeral for the lesson of that number, with any number
of leading zeros, while a lesson is fetched by one key only, in which the number has three digits or
more and no needless zeros. So the listing has every lesson that loads, and besides these the
numbers of keys that are padded otherwise.
-/

namespace LessonScript
namespace LessonId
open Text

/-- The numeral is written as keys have it: in three digits, or in more without a leading zero. -/
def Padded (numeral : List Char) : Prop :=
  numeral.length = 3 ∨ 3 < numeral.length ∧ numeral.head? ≠ some '0'

lemma padZeros_three_iff {numeral : List Char} (h : isNumeral numeral = true) :
    padZeros 3 (digits (numeralValue numeral)) = numeral ↔ Padded numeral := by
  have hdigits := padZeros_digits h
  constructor
  · intro hpadded
    have hlength := length_padZeros 3 (digits (numeralValue numeral))
    rw [hpadded] at hlength
    by_cases hthree : numeral.length = 3
    · exact .inl hthree
    refine .inr ⟨by omega, ?_⟩
    intro hzero
    -- without its leading zero the numeral would be shorter than the digits of its value
    obtain ⟨rest, rfl⟩ := List.head?_eq_some_iff.1 hzero
    have hrest : isNumeral rest = true := by
      refine isNumeral_iff.2 ⟨?_, fun c hc => (isNumeral_iff.1 h).2 c (List.mem_cons_of_mem _ hc)⟩
      rintro rfl
      rw [List.length_singleton] at hlength
      omega
    have hlonger := length_padZeros rest.length (digits (numeralValue rest))
    rw [padZeros_digits hrest] at hlonger
    have hvalue : numeralValue ('0' :: rest) = numeralValue rest := rfl
    rw [hvalue, List.length_cons] at hlength
    rw [List.length_cons] at hthree
    omega
  · rintro (hthree | ⟨hlong, hhead⟩)
    · rwa [hthree] at hdigits
    · have hexact : digits (numeralValue numeral) = numeral := by
        rw [padZeros] at hdigits
        cases hk : numeral.length - (digits (numeralValue numeral)).length with
        | zero => rwa [hk] at hdigits
        | succ k =>
          rw [hk, List.replicate_succ, List.cons_append] at hdigits
          rw [← hdigits] at hhead
          exact absurd rfl hhead
      rw [hexact, padZeros, Nat.sub_eq_zero_of_le (Nat.le_of_lt hlong)]
      rfl

lemma toNat_le_wordMax (n : UInt32) : n.toNat ≤ wordMax 32 := Nat.le_pred_of_lt n.toNat_lt

lemma key_number (n : UInt32) :
    (LessonId.number n).key = String.ofList (keyHead ++ padZeros 3 (digits n.toNat)) := by
  rw [key, shown, String.toList_ofList]

lemma key_number_eq_iff {n : UInt32} {numeral : List Char} (h : isNumeral numeral = true)
    (hvalue : numeralValue numeral = n.toNat) :
    (LessonId.number n).key = String.ofList (keyHead ++ numeral) ↔ Padded numeral := by
  rw [← padZeros_three_iff h, hvalue, key_number, String.ofList_inj, List.append_cancel_left_eq]

lemma numberOfKey?_eq_some_iff {key : String} {n : Nat} :
    numberOfKey? key = some n ↔ n ≤ wordMax 32 ∧ ∃ numeral, isNumeral numeral = true ∧
      numeralValue numeral = n ∧ String.ofList (keyHead ++ numeral) = key := by
  rw [numberOfKey?, Option.bind_eq_bind, Option.bind_eq_some_iff]
  constructor
  · rintro ⟨numeral, hnumeral, hread⟩
    obtain ⟨hdigits, hvalue, hn⟩ := readUpTo_eq_some_iff.1 hread
    refine ⟨hn, numeral, hdigits, hvalue, ?_⟩
    rw [← after?_eq_some_iff.1 hnumeral, String.ofList_toList]
  · rintro ⟨hn, numeral, hdigits, hvalue, rfl⟩
    refine ⟨numeral, ?_, readUpTo_eq_some_iff.2 ⟨hdigits, hvalue, hn⟩⟩
    rw [String.toList_ofList, after?_append]

end LessonId

/-- What a listing of scripts in memory has, and which of its lessons are there and load. -/
structure Listing (scripts : Table String String) (numbers : List Nat) : Prop where
  ascending : numbers.Pairwise (· < ·)
  /-- A number is listed for every numeral of 32 bits behind "lesson". -/
  mem_iff : ∀ n, n ∈ numbers ↔ n ≤ Text.wordMax 32 ∧ ∃ numeral, Text.isNumeral numeral = true ∧
    Text.numeralValue numeral = n ∧ String.ofList (LessonId.keyHead ++ numeral) ∈ scripts.keys
  /-- The lesson is there if one of these numerals is padded as keys are. -/
  has_iff : ∀ n : UInt32, (Source.ofScripts scripts).hasLesson (.number n) = true ↔
    ∃ numeral, Text.isNumeral numeral = true ∧ Text.numeralValue numeral = n.toNat ∧
      String.ofList (LessonId.keyHead ++ numeral) ∈ scripts.keys ∧ LessonId.Padded numeral
  listed : ∀ n : UInt32, (Source.ofScripts scripts).hasLesson (.number n) = true →
    n.toNat ∈ numbers
  /-- All that is listed is there if and only if every numeral has its padded one beside it. -/
  all_iff : (∀ n : UInt32, n.toNat ∈ numbers →
      (Source.ofScripts scripts).hasLesson (.number n) = true) ↔
    ∀ numeral, Text.isNumeral numeral = true → Text.numeralValue numeral ≤ Text.wordMax 32 →
      String.ofList (LessonId.keyHead ++ numeral) ∈ scripts.keys →
      String.ofList (LessonId.keyHead ++
        Text.padZeros 3 (Text.digits (Text.numeralValue numeral))) ∈ scripts.keys
  loads_iff : ∀ (l : Loader) (n : UInt32), l.isCached (.number n) = false →
    ((∃ doc, (l.load (.ofScripts scripts) (.number n)).result = .ok doc) ↔
      (Source.ofScripts scripts).hasLesson (.number n) = true)

namespace Source
open Text

lemma eraseReps_loop {first : Nat} {rest : List Nat} (before : List Nat)
    (h : (first :: rest).Pairwise (· ≤ ·)) :
    ∃ numbers, List.eraseRepsBy.loop (· == ·) first rest before = before.reverse ++ numbers ∧
      numbers.Pairwise (· < ·) ∧ ∀ n, n ∈ numbers ↔ n ∈ first :: rest := by
  induction rest generalizing first before with
  | nil => exact ⟨[first], by simp [List.eraseRepsBy.loop], by simp, by simp⟩
  | cons next rest ih =>
    obtain ⟨hfirst, hrest⟩ := List.pairwise_cons.1 h
    rw [List.eraseRepsBy.loop]
    obtain rfl | hne := eq_or_ne first next
    · rw [beq_self_eq_true]
      obtain ⟨numbers, heq, hascending, hmem⟩ := ih before hrest
      exact ⟨numbers, heq, hascending, fun n => by simp [hmem]⟩
    · rw [beq_eq_false_iff_ne.2 hne]
      obtain ⟨numbers, heq, hascending, hmem⟩ := ih (first :: before) hrest
      refine ⟨first :: numbers, by simp [heq], ?_, fun n => by simp [hmem]⟩
      refine List.pairwise_cons.2 ⟨fun n hn => ?_, hascending⟩
      have hlt : first < next := Nat.lt_of_le_of_ne (hfirst next List.mem_cons_self) hne
      obtain rfl | hn := List.mem_cons.1 ((hmem n).1 hn)
      · exact hlt
      · exact Nat.lt_of_lt_of_le hlt ((List.pairwise_cons.1 hrest).1 n hn)

/-- Without repetitions a sorted list ascends. -/
lemma eraseReps_sorted {numbers : List Nat} (h : numbers.Pairwise (· ≤ ·)) :
    numbers.eraseReps.Pairwise (· < ·) ∧ ∀ n, n ∈ numbers.eraseReps ↔ n ∈ numbers := by
  cases numbers with
  | nil => exact ⟨.nil, fun _ => Iff.rfl⟩
  | cons first rest =>
    obtain ⟨numbers, heq, hascending, hmem⟩ := eraseReps_loop [] h
    rw [List.eraseReps, List.eraseRepsBy, heq]
    exact ⟨hascending, hmem⟩

lemma sorted_numbers (keys : List String) :
    ((keys.filterMap LessonId.numberOfKey?).mergeSort (· ≤ ·)).Pairwise (· ≤ ·) := by
  have hsorted : ((keys.filterMap LessonId.numberOfKey?).mergeSort (· ≤ ·)).Pairwise
      fun a b => decide (a ≤ b) = true :=
    List.pairwise_mergeSort (by simpa using fun a b c => Nat.le_trans)
      (by simpa using Nat.le_total) _
  exact hsorted.imp of_decide_eq_true

lemma ascending_lessonNumbers (keys : List String) : (lessonNumbers keys).Pairwise (· < ·) :=
  (eraseReps_sorted (sorted_numbers keys)).1

lemma mem_lessonNumbers {keys : List String} {n : Nat} :
    n ∈ lessonNumbers keys ↔ n ≤ wordMax 32 ∧ ∃ numeral, isNumeral numeral = true ∧
      numeralValue numeral = n ∧ String.ofList (LessonId.keyHead ++ numeral) ∈ keys := by
  rw [lessonNumbers, (eraseReps_sorted (sorted_numbers keys)).2, List.mem_mergeSort,
    List.mem_filterMap]
  simp only [LessonId.numberOfKey?_eq_some_iff]
  constructor
  · rintro ⟨_, hkey, hn, numeral, hnumeral, hvalue, rfl⟩
    exact ⟨hn, numeral, hnumeral, hvalue, hkey⟩
  · rintro ⟨hn, numeral, hnumeral, hvalue, hkey⟩
    exact ⟨_, hkey, hn, numeral, hnumeral, hvalue, rfl⟩

lemma mem_lessonNumbers_of_key {keys : List String} {n : UInt32}
    (h : (LessonId.number n).key ∈ keys) : n.toNat ∈ lessonNumbers keys := by
  rw [LessonId.key_number] at h
  refine mem_lessonNumbers.2 ⟨LessonId.toNat_le_wordMax n, _,
    isNumeral_padZeros 3 (isNumeral_digits n.toNat), ?_, h⟩
  rw [numeralValue_padZeros, numeralValue_digits]

lemma contains_ofScripts_iff {scripts : Table String String} {key : String} :
    (ofScripts scripts).contains key = true ↔ key ∈ scripts.keys := Table.contains_iff

lemma hasLesson_ofScripts {scripts : Table String String} {id : LessonId} :
    (ofScripts scripts).hasLesson id = true ↔ id.key ∈ scripts.keys := contains_ofScripts_iff

/-- A lesson in memory is there if one of the keys of its number is padded as the loader does it. -/
lemma hasLesson_number_iff {scripts : Table String String} {n : UInt32} :
    (ofScripts scripts).hasLesson (.number n) = true ↔
      ∃ numeral, isNumeral numeral = true ∧ numeralValue numeral = n.toNat ∧
        String.ofList (LessonId.keyHead ++ numeral) ∈ scripts.keys ∧ LessonId.Padded numeral := by
  rw [hasLesson_ofScripts]
  constructor
  · intro hkey
    have hnumeral := isNumeral_padZeros 3 (isNumeral_digits n.toNat)
    have hvalue : numeralValue (padZeros 3 (digits n.toNat)) = n.toNat := by
      rw [numeralValue_padZeros, numeralValue_digits]
    rw [LessonId.key_number] at hkey
    exact ⟨_, hnumeral, hvalue, hkey,
      (LessonId.key_number_eq_iff hnumeral hvalue).1 (LessonId.key_number n)⟩
  · rintro ⟨numeral, hnumeral, hvalue, hkey, hpadded⟩
    rwa [(LessonId.key_number_eq_iff hnumeral hvalue).2 hpadded]

lemma mem_lessonNumbers_of_hasLesson {scripts : Table String String} {n : UInt32}
    (h : (ofScripts scripts).hasLesson (.number n) = true) :
    n.toNat ∈ lessonNumbers scripts.keys :=
  mem_lessonNumbers_of_key (hasLesson_ofScripts.1 h)

lemma hasLesson_all_iff {scripts : Table String String} :
    (∀ n : UInt32, n.toNat ∈ lessonNumbers scripts.keys →
      (ofScripts scripts).hasLesson (.number n) = true) ↔
    ∀ numeral, isNumeral numeral = true → numeralValue numeral ≤ wordMax 32 →
      String.ofList (LessonId.keyHead ++ numeral) ∈ scripts.keys →
      String.ofList (LessonId.keyHead ++ padZeros 3 (digits (numeralValue numeral))) ∈
        scripts.keys := by
  simp only [hasLesson_ofScripts, LessonId.key_number]
  constructor
  · intro hall numeral hnumeral hbound hkey
    have hlt : numeralValue numeral < UInt32.size := Nat.lt_of_le_pred (by decide) hbound
    have hlisted := hall (UInt32.ofNat (numeralValue numeral))
    rw [UInt32.toNat_ofNat_of_lt' hlt] at hlisted
    exact hlisted (mem_lessonNumbers.2 ⟨hbound, numeral, hnumeral, rfl, hkey⟩)
  · intro hpadded n hn
    obtain ⟨hbound, numeral, hnumeral, hvalue, hkey⟩ := mem_lessonNumbers.1 hn
    rw [← hvalue] at hbound ⊢
    exact hpadded numeral hnumeral hbound hkey

/-- The listing of scripts in memory, and which of the listed lessons load. -/
theorem listing_ofScripts (scripts : Table String String) :
    ∃ numbers, (ofScripts scripts).lessons = .ok numbers ∧ Listing scripts numbers := by
  refine ⟨lessonNumbers scripts.keys, rfl, ?_⟩
  refine ⟨ascending_lessonNumbers scripts.keys, fun _ => mem_lessonNumbers,
    fun _ => hasLesson_number_iff, fun _ => mem_lessonNumbers_of_hasLesson, hasLesson_all_iff, ?_⟩
  intro l n hn
  rw [Loader.load_ok_iff (Loader.isCached_eq_false_iff.1 hn), hasLesson, contains_ofScripts]

/-- A key with one digit is listed, and there is no lesson to load. -/
theorem lessons_of_one_digit :
    let source := ofScripts (.ofList [("lesson7", "")])
    source.lessons = .ok [7] ∧ source.hasLesson (.number 7) = false ∧
      ¬∃ doc, (Loader.empty.load source (.number 7)).result = .ok doc := by
  intro source
  refine ⟨by decide +kernel, by decide +kernel, ?_⟩
  rintro ⟨doc, hdoc⟩
  have hfetch : source.fetch (LessonId.number 7).key = .ok none := by decide +kernel
  cases hdoc.symm.trans ((Loader.fetched_load source rfl).notFound.2 hfetch)

end Source
end LessonScript
