import LessonScript.Command.Builtin
import LessonScript.Proofs.Text.Blank

/-!
# Pairs of quotes and of practice

Both kinds of pairs are read in one go over the lines, with the English side of the pair to come
carried along. What comes out is a list of complete pairs, and behind them at most one pair whose
Chinese side is still missing.
-/

namespace LessonScript

open Text (Line)

/-- A text holds a Chinese character of the basic block. -/
def HasIdeograph (text : String) : Prop :=
  ∃ c ∈ text.toList, 0x4E00 ≤ c.toNat ∧ c.toNat ≤ 0x9FFF

/-- Pairs as quotes have them. -/
structure QuotePairs (pairs : List Bilingual) : Prop where
  english : ∀ pair ∈ pairs, ¬HasIdeograph pair.en
  chinese : ∀ pair ∈ pairs, pair.zh = "" ∨ HasIdeograph pair.zh
  filled : ∀ pair ∈ pairs, ¬(pair.en = "" ∧ pair.zh = "")
  complete : ∀ pair ∈ pairs.dropLast, pair.zh ≠ ""

/-- Pairs as practice has them. -/
structure PracticePairs (pairs : List Bilingual) : Prop where
  trimmed : ∀ pair ∈ pairs, Text.trim pair.en.toList = pair.en.toList ∧
    Text.trim pair.zh.toList = pair.zh.toList
  english : ∀ pair ∈ pairs, pair.en ≠ ""
  separator : ∀ pair ∈ pairs, pair.en ≠ "---" ∧ pair.zh ≠ "---"
  complete : ∀ pair ∈ pairs.dropLast, pair.zh ≠ ""

lemma zh_ne_of_mem_dropLast {paired more : List Bilingual} (h : ∀ pair ∈ paired, pair.zh ≠ "")
    (hopen : more.length ≤ 1) : ∀ pair ∈ (paired ++ more).dropLast, pair.zh ≠ "" := by
  intro pair hp
  match more, hopen with
  | [], _ =>
    rw [List.append_nil] at hp
    exact h pair (List.dropLast_subset _ hp)
  | [last], _ =>
    rw [List.dropLast_concat] at hp
    exact h pair hp

namespace Builtin

lemma isChinese_iff {cs : List Char} :
    isChinese cs = true ↔ HasIdeograph (String.ofList cs) := by
  simp [isChinese, HasIdeograph]

lemma isChinese_eq_false_iff {cs : List Char} :
    isChinese cs = false ↔ ¬HasIdeograph (String.ofList cs) := by
  rw [← isChinese_iff, Bool.not_eq_true]

lemma hasIdeograph_ne_empty {text : String} (h : HasIdeograph text) : text ≠ "" := by
  rintro rfl
  obtain ⟨c, hc, -⟩ := h
  cases hc

/-- Quoted texts decode to complete pairs, and behind them the English side that is left. -/
lemma exists_quotePairs {en : List Char} (hen : isChinese en = false) (texts : List (List Char)) :
    ∃ paired last, quotePairs en texts = paired ++ [⟨String.ofList last, ""⟩] ∧
      isChinese last = false ∧
      ∀ pair ∈ paired, ¬HasIdeograph pair.en ∧ HasIdeograph pair.zh := by
  induction texts generalizing en with
  | nil => exact ⟨[], en, rfl, hen, nofun⟩
  | cons text rest ih =>
    rw [quotePairs]
    by_cases ht : isChinese text = true
    · obtain ⟨paired, last, heq, hlast, hpaired⟩ := ih (rfl : isChinese [] = false)
      rw [if_pos ht, heq]
      refine ⟨_ :: paired, last, rfl, hlast, List.forall_mem_cons.2 ⟨⟨?_, ?_⟩, hpaired⟩⟩
      · exact isChinese_eq_false_iff.1 hen
      · exact isChinese_iff.1 ht
    · rw [if_neg ht]
      exact ih (Bool.not_eq_true _ ▸ ht)

lemma quotePairs_filter (texts : List (List Char)) :
    QuotePairs ((quotePairs [] texts).filter (!·.isEmpty)) := by
  obtain ⟨paired, last, heq, hlast, hpaired⟩ :=
    exists_quotePairs (rfl : isChinese [] = false) texts
  have hkeep : paired.filter (!·.isEmpty) = paired := by
    rw [List.filter_eq_self]
    intro pair hp
    have := hasIdeograph_ne_empty (hpaired pair hp).2
    simp [Bilingual.isEmpty, this]
  rw [heq, List.filter_append, hkeep]
  have hen : ¬HasIdeograph (String.ofList last) := isChinese_eq_false_iff.1 hlast
  have hmem : ∀ pair ∈ paired ++ [⟨String.ofList last, ""⟩].filter (!·.isEmpty),
      pair ∈ paired ∨ pair = ⟨String.ofList last, ""⟩ := by
    intro pair hp
    rcases List.mem_append.1 hp with hp | hp
    · exact .inl hp
    · exact .inr (List.mem_singleton.1 (List.mem_of_mem_filter hp))
  refine ⟨fun pair hp => ?_, fun pair hp => ?_, fun pair hp => ?_, ?_⟩
  · rcases hmem pair hp with hp | rfl
    · exact (hpaired pair hp).1
    · exact hen
  · rcases hmem pair hp with hp | rfl
    · exact .inr (hpaired pair hp).2
    · exact .inl rfl
  · rcases List.mem_append.1 hp with hp | hp
    · exact fun h => hasIdeograph_ne_empty (hpaired pair hp).2 h.2
    · have := List.of_mem_filter hp
      simpa [Bilingual.isEmpty, imp_iff_not_or] using this
  · refine zh_ne_of_mem_dropLast (fun pair hp => hasIdeograph_ne_empty (hpaired pair hp).2) ?_
    exact List.length_filter_le ..

/-- A line that practice can take for a side of a pair. -/
structure PracticeLine (line : Line) : Prop where
  trim_eq : Text.trim line = line
  ne_nil : line ≠ []
  ne_separator : line ≠ "---".toList

/-- Lines decode to pairs of such lines, and behind them the line that is left, if there is one. -/
lemma exists_practicePairs {pending : Option Line} (hpending : ∀ en ∈ pending, PracticeLine en)
    {texts : List Line} (ht : ∀ text ∈ texts, Text.trim text = text ∧ text ≠ []) :
    ∃ (paired : List (Line × Line)) (left : Option Line),
      practicePairs pending texts =
        paired.map (fun pair => ⟨String.ofList pair.1, String.ofList pair.2⟩) ++
          left.toList.map (fun en => ⟨String.ofList en, ""⟩) ∧
      (∀ pair ∈ paired, PracticeLine pair.1 ∧ PracticeLine pair.2) ∧
      ∀ en ∈ left, PracticeLine en := by
  induction texts generalizing pending with
  | nil => exact ⟨[], pending, by cases pending <;> rfl, nofun, hpending⟩
  | cons text rest ih =>
    obtain ⟨⟨htrim, hne⟩, hrest⟩ := List.forall_mem_cons.1 ht
    rw [practicePairs.eq_def]
    simp only
    by_cases hsep : text = "---".toList
    · rw [if_pos hsep]
      exact ih nofun hrest
    · have hline : PracticeLine text := ⟨htrim, hne, hsep⟩
      rw [if_neg hsep]
      cases pending with
      | none => exact ih (by rintro _ ⟨⟩; exact hline) hrest
      | some en =>
        have hnone : ∀ en ∈ (none : Option Line), PracticeLine en := nofun
        obtain ⟨paired, left, heq, hpaired, hleft⟩ := ih hnone hrest
        refine ⟨(en, text) :: paired, left, ?_, List.forall_mem_cons.2 ⟨⟨hpending en rfl, hline⟩,
          hpaired⟩, hleft⟩
        simp only [heq, List.map_cons, List.cons_append]

lemma PracticeLine.ofList_ne {line : Line} (h : PracticeLine line) :
    String.ofList line ≠ "" ∧ String.ofList line ≠ "---" := by
  constructor
  · intro heq
    exact h.ne_nil (by simpa using heq)
  · intro heq
    exact h.ne_separator (by rw [← heq, String.toList_ofList])

lemma practicePairs_lines (lines : List Line) :
    PracticePairs (practicePairs none ((lines.map Text.trim).filter (!·.isEmpty))) := by
  have htexts : ∀ text ∈ (lines.map Text.trim).filter (!·.isEmpty),
      Text.trim text = text ∧ text ≠ [] := by
    intro text ht
    obtain ⟨line, -, rfl⟩ := List.mem_map.1 (List.mem_of_mem_filter ht)
    exact ⟨Text.trim_trim line, by simpa using List.of_mem_filter ht⟩
  have hnone : ∀ en ∈ (none : Option Line), PracticeLine en := nofun
  obtain ⟨paired, left, heq, hpaired, hleft⟩ := exists_practicePairs hnone htexts
  have hmem : ∀ pair ∈ practicePairs none ((lines.map Text.trim).filter (!·.isEmpty)),
      (∃ en zh, PracticeLine en ∧ PracticeLine zh ∧ pair = ⟨String.ofList en, String.ofList zh⟩) ∨
        ∃ en, PracticeLine en ∧ pair = ⟨String.ofList en, ""⟩ := by
    rw [heq]
    intro pair hp
    rcases List.mem_append.1 hp with hp | hp
    · obtain ⟨sides, hsides, rfl⟩ := List.mem_map.1 hp
      exact .inl ⟨_, _, (hpaired sides hsides).1, (hpaired sides hsides).2, rfl⟩
    · obtain ⟨en, hen, rfl⟩ := List.mem_map.1 hp
      exact .inr ⟨en, hleft en (Option.mem_toList.1 hen), rfl⟩
  refine ⟨fun pair hp => ?_, fun pair hp => ?_, fun pair hp => ?_, ?_⟩
  · obtain ⟨en, zh, hen, hzh, rfl⟩ | ⟨en, hen, rfl⟩ := hmem pair hp
    · simp only [String.toList_ofList]
      exact ⟨hen.trim_eq, hzh.trim_eq⟩
    · simp only [String.toList_ofList]
      exact ⟨hen.trim_eq, rfl⟩
  · obtain ⟨en, zh, hen, -, rfl⟩ | ⟨en, hen, rfl⟩ := hmem pair hp
    · exact hen.ofList_ne.1
    · exact hen.ofList_ne.1
  · obtain ⟨en, zh, hen, hzh, rfl⟩ | ⟨en, hen, rfl⟩ := hmem pair hp
    · exact ⟨hen.ofList_ne.2, hzh.ofList_ne.2⟩
    · exact ⟨hen.ofList_ne.2, show "" ≠ "---" by decide⟩
  · rw [heq]
    refine zh_ne_of_mem_dropLast (fun pair hp => ?_) ?_
    · obtain ⟨sides, hsides, rfl⟩ := List.mem_map.1 hp
      exact (hpaired sides hsides).2.ofList_ne.1
    · cases left <;> simp

end Builtin
end LessonScript
