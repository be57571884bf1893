import LessonScript.Proofs.Body.Pairs

/-!
# Quotes by their texts

A quote is decoded in one go over its lines, with the English side of the next pair carried along.
The same pairs can be read off the quoted texts as a whole: the Chinese texts cut them into
stretches of English, one in front of each Chinese text and one behind the last, and of every
stretch only its last text counts.
-/

namespace LessonScript

open Text (Line)

instance : DecidablePred HasIdeograph := fun text =>
  decidable_of_iff ((text.toList.any fun c => 0x4E00 ≤ c.toNat && c.toNat ≤ 0x9FFF) = true)
    (by simp [HasIdeograph])

def quoteMark : Line := "> ".toList

/-- What stands behind the mark in the lines that start with it. -/
def quotedTexts (lines : List Line) : List String :=
  (lines.filter (quoteMark.isPrefixOf ·)).map fun line =>
    String.ofList (line.drop quoteMark.length)

/-- One pair for each Chinese text, with the last English text of the stretch in front of it, and
one more for the last English text that no Chinese text follows. -/
def pairedTexts (texts : List String) : List Bilingual :=
  let stretches := texts.splitOnP (HasIdeograph ·)
  let left := (stretches.getLastD []).getLastD ""
  List.zipWith (fun english chinese => ⟨english.getLastD "", chinese⟩) stretches
      (texts.filter (HasIdeograph ·)) ++
    if left = "" then [] else [⟨left, ""⟩]

/-- Lines that write pairs, the two sides of each on quoted lines of their own, with any lines
between them that are not quoted. -/
structure WritesQuote (lines : List Line) (pairs : List Bilingual) : Prop where
  english : ∀ pair ∈ pairs, ¬HasIdeograph pair.en
  chinese : ∀ pair ∈ pairs, HasIdeograph pair.zh
  quoted : lines.filter (quoteMark.isPrefixOf ·) =
    pairs.flatMap fun pair => [quoteMark ++ pair.en.toList, quoteMark ++ pair.zh.toList]

/-! ## The first texts -/

section First

variable {en next zh : String}

lemma pairedTexts_english (hen : ¬HasIdeograph en) :
    pairedTexts [en] = if en = "" then [] else [⟨en, ""⟩] := by
  simp [pairedTexts, List.splitOnP_cons_eq_if_modifyHead, hen]

lemma pairedTexts_chinese (hzh : HasIdeograph zh) (rest : List String) :
    pairedTexts (zh :: rest) = ⟨"", zh⟩ :: pairedTexts rest := by
  obtain ⟨stretch, more, hmore⟩ :=
    List.exists_cons_of_ne_nil (List.splitOnP_ne_nil (HasIdeograph ·) rest)
  simp [pairedTexts, List.splitOnP_cons_eq_if_modifyHead, hzh, hmore]

lemma pairedTexts_english_chinese (hen : ¬HasIdeograph en) (hzh : HasIdeograph zh)
    (rest : List String) : pairedTexts (en :: zh :: rest) = ⟨en, zh⟩ :: pairedTexts rest := by
  obtain ⟨stretch, more, hmore⟩ :=
    List.exists_cons_of_ne_nil (List.splitOnP_ne_nil (HasIdeograph ·) rest)
  simp [pairedTexts, List.splitOnP_cons_eq_if_modifyHead, hen, hzh, hmore]

/-- A later English text replaces an earlier one. -/
lemma pairedTexts_english_english (hen : ¬HasIdeograph en) (hnext : ¬HasIdeograph next)
    (rest : List String) : pairedTexts (en :: next :: rest) = pairedTexts (next :: rest) := by
  obtain ⟨stretch, more, hmore⟩ :=
    List.exists_cons_of_ne_nil (List.splitOnP_ne_nil (HasIdeograph ·) rest)
  cases more <;> cases hzh : rest.filter (HasIdeograph ·) <;>
    simp [pairedTexts, List.splitOnP_cons_eq_if_modifyHead, hen, hnext, hmore, hzh]

lemma pairedTexts_empty (rest : List String) : pairedTexts ("" :: rest) = pairedTexts rest := by
  have hen : ¬HasIdeograph "" := by decide
  cases rest with
  | nil => exact pairedTexts_english hen
  | cons text rest =>
    by_cases htext : HasIdeograph text
    · rw [pairedTexts_english_chinese hen htext, pairedTexts_chinese htext]
    · exact pairedTexts_english_english hen htext rest

end First

/-! ## All texts -/

lemma quotedTexts_eq (lines : List Line) :
    quotedTexts lines = (lines.filterMap (Text.after? quoteMark)).map String.ofList := by
  induction lines with
  | nil => rfl
  | cons line rest ih =>
    rw [quotedTexts] at ih ⊢
    by_cases hline : quoteMark.isPrefixOf line = true
    · obtain ⟨text, rfl⟩ := List.isPrefixOf_iff_prefix.1 hline
      rw [List.filter_cons_of_pos hline, List.map_cons, ih, List.drop_left,
        List.filterMap_cons_some (Text.after?_append quoteMark text), List.map_cons]
    · have hnone : Text.after? quoteMark line = none := by
        rw [Option.eq_none_iff_forall_ne_some]
        intro text htext
        exact hline (List.isPrefixOf_iff_prefix.2 ⟨text, (Text.after?_eq_some_iff.1 htext).symm⟩)
      rw [List.filter_cons_of_neg hline, ih, List.filterMap_cons_none hnone]

lemma WritesQuote.pairedTexts_eq {lines : List Line} {pairs : List Bilingual}
    (h : WritesQuote lines pairs) : pairedTexts (quotedTexts lines) = pairs := by
  obtain ⟨henglish, hchinese, hquoted⟩ := h
  rw [quotedTexts, hquoted]
  clear hquoted
  induction pairs with
  | nil => rfl
  | cons pair rest ih =>
    obtain ⟨hen, henglish⟩ := List.forall_mem_cons.1 henglish
    obtain ⟨hzh, hchinese⟩ := List.forall_mem_cons.1 hchinese
    rw [List.flatMap_cons, List.map_append, List.map_cons, List.map_cons, List.map_nil,
      List.drop_left, List.drop_left, String.ofList_toList, String.ofList_toList, List.cons_append,
      List.cons_append, List.nil_append, pairedTexts_english_chinese hen hzh,
      ih henglish hchinese]

namespace Builtin

/-- The English side carried along counts as an English text in front of the others. -/
lemma filter_quotePairs {en : List Char} (hen : isChinese en = false) (texts : List (List Char)) :
    (quotePairs en texts).filter (!·.isEmpty) =
      pairedTexts (String.ofList en :: texts.map String.ofList) := by
  induction texts generalizing en with
  | nil =>
    rw [quotePairs, List.map_nil, pairedTexts_english (isChinese_eq_false_iff.1 hen)]
    by_cases hempty : String.ofList en = "" <;> simp [Bilingual.isEmpty, hempty]
  | cons text rest ih =>
    have hno := isChinese_eq_false_iff.1 hen
    rw [quotePairs, List.map_cons]
    cases htext : isChinese text with
    | true =>
      have hzh := isChinese_iff.1 htext
      rw [if_pos rfl, List.filter_cons_of_pos (by simp [Bilingual.isEmpty,
        hasIdeograph_ne_empty hzh]), ih rfl, pairedTexts_english_chinese hno hzh]
      exact congrArg _ (pairedTexts_empty _)
    | false =>
      have hnext := isChinese_eq_false_iff.1 htext
      rw [if_neg Bool.false_ne_true, ih htext, pairedTexts_english_english hno hnext]

/-- Quotes are the pairs of their quoted texts, whatever stands on the other lines, and pairs that
are written as quotes are read back. -/
theorem quote_by_texts (lines : List Line) (modifier : Option (List Char)) :
    quote.decode lines modifier = .element (.quote (modifier = some "emphasis".toList)
      (pairedTexts (quotedTexts lines))) ∧
    ∀ pairs, WritesQuote lines pairs → quote.decode lines modifier =
      .element (.quote (modifier = some "emphasis".toList) pairs) := by
  have hpairs : (quotePairs [] (lines.filterMap (Text.after? quoteMark))).filter (!·.isEmpty) =
      pairedTexts (quotedTexts lines) := by
    rw [filter_quotePairs rfl, ← quotedTexts_eq]
    exact pairedTexts_empty _
  have hemphasis : (modifier == some "emphasis".toList) =
      decide (modifier = some "emphasis".toList) := beq_eq_decide ..
  have hdecode : quote.decode lines modifier = .element (.quote
      (modifier = some "emphasis".toList) (pairedTexts (quotedTexts lines))) := by
    rw [← hpairs, ← hemphasis]
    rfl
  refine ⟨hdecode, ?_⟩
  intro pairs hwritten
  rw [hdecode, hwritten.pairedTexts_eq]

theorem quote_of_written_pairs :
    let lines : List Line := ["> one".toList, "1.".toList, "> 一".toList, "> ".toList, [],
      "> 二".toList]
    WritesQuote lines [⟨"one", "一"⟩, ⟨"", "二"⟩] ∧
      quote.decode lines none = .element (.quote false [⟨"one", "一"⟩, ⟨"", "二"⟩]) := by
  intro lines
  have hwritten : WritesQuote lines [⟨"one", "一"⟩, ⟨"", "二"⟩] :=
    ⟨by decide, by decide, by decide⟩
  exact ⟨hwritten, (quote_by_texts lines none).2 _ hwritten⟩

/-- A later English text replaces an earlier one, and an empty text is no pair of its own. -/
example : pairedTexts ["one", "two", "二", "三", "four", ""] = [⟨"two", "二"⟩, ⟨"", "三"⟩] := by
  decide

end Builtin
end LessonScript
