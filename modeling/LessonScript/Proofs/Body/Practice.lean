import LessonScript.Proofs.Body.Pairs

/-!
# Practice by its groups

Practice is decoded in one go over its lines, with the line that still lacks its partner carried
along. The same pairs can be read off the lines as a whole: separators cut them into groups, the
lines of a group go two by two, and of lines that are left without a partner only that of the last
group counts.
-/

namespace LessonScript

open Text (Line)

instance : DecidablePred Builtin.PracticeLine := fun line =>
  decidable_of_iff (Text.trim line = line ∧ line ≠ [] ∧ line ≠ "---".toList)
    ⟨fun ⟨htrim, hne, hsep⟩ => ⟨htrim, hne, hsep⟩,
      fun h => ⟨h.trim_eq, h.ne_nil, h.ne_separator⟩⟩

def practiceSeparator : Line := "---".toList

/-- The lines trimmed, those that are not blank, cut at the separators. -/
def practiceGroups (lines : List Line) : List (List Line) :=
  ((lines.map Text.trim).filter (!·.isEmpty)).splitOn practiceSeparator

/-- The first line with the second, the third with the fourth, and so on. -/
def twoByTwo : List Line → List Bilingual
  | en :: zh :: rest => ⟨String.ofList en, String.ofList zh⟩ :: twoByTwo rest
  | [_] | [] => []

/-- The last line of an odd group, as a pair without a Chinese side. -/
def unpaired (group : List Line) : List Bilingual :=
  if group.length % 2 = 0 then [] else [⟨String.ofList (group.getLastD []), ""⟩]

/-- The lines of a group of pairs. -/
def pairLines (group : List Bilingual) : List Line :=
  group.flatMap fun pair => [pair.en.toList, pair.zh.toList]

/-- Lines that write pairs in groups with separators between them, and blank lines anywhere. White
space around a line does not count. -/
structure WritesPractice (lines : List Line) (groups : List (List Bilingual)) : Prop where
  english : ∀ group ∈ groups, ∀ pair ∈ group, Builtin.PracticeLine pair.en.toList
  chinese : ∀ group ∈ groups, ∀ pair ∈ group, Builtin.PracticeLine pair.zh.toList
  solid : (Text.solidLines lines).map Text.trim =
    [practiceSeparator].intercalate (groups.map pairLines)

/-! ## One group -/

lemma unpaired_cons_cons (en zh : Line) (rest : List Line) :
    unpaired (en :: zh :: rest) = unpaired rest := by
  have hlength : (en :: zh :: rest).length % 2 = rest.length % 2 := Nat.add_mod_right rest.length 2
  rw [unpaired, unpaired, hlength]
  cases rest <;> rfl

lemma twoByTwo_pairLines (group : List Bilingual) : twoByTwo (pairLines group) = group := by
  induction group with
  | nil => rfl
  | cons pair rest ih =>
    have hlines : pairLines (pair :: rest) =
        pair.en.toList :: pair.zh.toList :: pairLines rest := rfl
    rw [hlines, twoByTwo, ih, String.ofList_toList, String.ofList_toList]

lemma unpaired_pairLines (group : List Bilingual) : unpaired (pairLines group) = [] := by
  induction group with
  | nil => rfl
  | cons pair rest ih => exact (unpaired_cons_cons _ _ _).trans ih

lemma WritesPractice.separator_notMem {lines : List Line} {groups : List (List Bilingual)}
    (h : WritesPractice lines groups) :
    ∀ group ∈ groups.map pairLines, practiceSeparator ∉ group := by
  intro group hgroup hsep
  obtain ⟨pairs, hpairs, rfl⟩ := List.mem_map.1 hgroup
  obtain ⟨pair, hpair, hside⟩ := List.mem_flatMap.1 hsep
  obtain hen | hzh : practiceSeparator = pair.en.toList ∨ practiceSeparator = pair.zh.toList := by
    simpa using hside
  · exact (h.english pairs hpairs pair hpair).ne_separator hen.symm
  · exact (h.chinese pairs hpairs pair hpair).ne_separator hzh.symm

lemma WritesPractice.decoded {lines : List Line} {groups : List (List Bilingual)}
    (h : WritesPractice lines groups) : (practiceGroups lines).flatMap twoByTwo ++
      unpaired ((practiceGroups lines).getLastD []) = groups.flatten := by
  rw [practiceGroups, Text.filter_map_trim, h.solid]
  by_cases hne : groups = []
  · subst hne
    rfl
  have hgroups := List.splitOn_intercalate practiceSeparator h.separator_notMem (by simpa using hne)
  have hlast : (groups.map pairLines).getLastD [] = pairLines (groups.getLastD []) := by
    rw [List.getLastD_eq_getLast?, List.getLastD_eq_getLast?, List.getLast?_map]
    cases groups.getLast? <;> rfl
  rw [hgroups, hlast, unpaired_pairLines, List.append_nil, List.flatMap_map]
  simp only [twoByTwo_pairLines, List.flatMap_id']

/-! ## All groups -/

namespace Builtin

lemma practicePairs_separator (pending : Option Line) (rest : List Line) :
    practicePairs pending (practiceSeparator :: rest) = practicePairs none rest :=
  if_pos rfl

lemma practicePairs_pair {en zh : Line} (hen : en ≠ practiceSeparator)
    (hzh : zh ≠ practiceSeparator) (rest : List Line) :
    practicePairs none (en :: zh :: rest) =
      ⟨String.ofList en, String.ofList zh⟩ :: practicePairs none rest :=
  (if_neg hen).trans (if_neg hzh)

section Group

variable {group : List Line} (hsep : practiceSeparator ∉ group)

include hsep

/-- A separator drops the line that is left of the group before it. -/
lemma practicePairs_group (rest : List Line) :
    practicePairs none (group ++ practiceSeparator :: rest) =
      twoByTwo group ++ practicePairs none rest := by
  induction group using twoByTwo.induct with
  | case1 en zh group ih =>
    obtain ⟨hen, hzh, hgroup⟩ : practiceSeparator ≠ en ∧ practiceSeparator ≠ zh ∧
        practiceSeparator ∉ group := by simpa using hsep
    rw [List.cons_append, List.cons_append, practicePairs_pair hen.symm hzh.symm, ih hgroup]
    rfl
  | case2 en =>
    have hen : en ≠ practiceSeparator := Ne.symm (by simpa using hsep)
    exact (if_neg hen).trans (practicePairs_separator (some en) rest)
  | case3 => exact practicePairs_separator none rest

lemma practicePairs_last : practicePairs none group = twoByTwo group ++ unpaired group := by
  induction group using twoByTwo.induct with
  | case1 en zh group ih =>
    obtain ⟨hen, hzh, hgroup⟩ : practiceSeparator ≠ en ∧ practiceSeparator ≠ zh ∧
        practiceSeparator ∉ group := by simpa using hsep
    rw [practicePairs_pair hen.symm hzh.symm, ih hgroup, unpaired_cons_cons]
    rfl
  | case2 en =>
    have hen : en ≠ practiceSeparator := Ne.symm (by simpa using hsep)
    exact if_neg hen
  | case3 => rfl

end Group

lemma practicePairs_eq (texts : List Line) :
    practicePairs none texts = (texts.splitOn practiceSeparator).flatMap twoByTwo ++
      unpaired ((texts.splitOn practiceSeparator).getLastD []) := by
  by_cases hmem : practiceSeparator ∈ texts
  · obtain ⟨group, rest, rfl, hgroup⟩ := List.eq_append_cons_of_mem hmem
    have ih := practicePairs_eq rest
    obtain ⟨next, more, hmore⟩ :=
      List.exists_cons_of_ne_nil (List.splitOn_ne_nil practiceSeparator rest)
    rw [practicePairs_group hgroup, ih, List.splitOn_append_cons_self_of_not_mem hgroup,
      List.flatMap_cons, List.append_assoc, hmore]
    rfl
  · rw [List.splitOn_eq_singleton hmem, practicePairs_last hmem]
    simp
termination_by texts.length

/-- Practice has the pairs of its groups and the line that is left of the last one, and pairs that
are written as practice are read back. -/
theorem practice_by_groups (lines : List Line) (modifier : Option (List Char)) :
    practice.decode lines modifier = .element (.practice
      ((practiceGroups lines).flatMap twoByTwo ++ unpaired ((practiceGroups lines).getLastD []))) ∧
    ∀ groups, WritesPractice lines groups →
      practice.decode lines modifier = .element (.practice groups.flatten) := by
  have hdecode : practice.decode lines modifier = .element (.practice
      ((practiceGroups lines).flatMap twoByTwo ++
        unpaired ((practiceGroups lines).getLastD []))) := by
    rw [practiceGroups, ← practicePairs_eq]
    rfl
  refine ⟨hdecode, ?_⟩
  intro groups hwritten
  rw [hdecode, hwritten.decoded]

theorem practice_of_written_pairs :
    let lines : List Line := ["one".toList, " ".toList, "一".toList, "---".toList, "---".toList,
      "two".toList, "二".toList]
    let groups : List (List Bilingual) := [[⟨"one", "一"⟩], [], [⟨"two", "二"⟩]]
    WritesPractice lines groups ∧
      practice.decode lines none = .element (.practice [⟨"one", "一"⟩, ⟨"two", "二"⟩]) := by
  intro lines groups
  have hwritten : WritesPractice lines groups := ⟨by decide, by decide, by decide⟩
  exact ⟨hwritten, (practice_by_groups lines none).2 _ hwritten⟩

/-- What is left of a group is dropped in front of a separator, and kept at the end. -/
example : practicePairs none ["one".toList, practiceSeparator, "two".toList] = [⟨"two", ""⟩] := by
  decide

end Builtin
end LessonScript
