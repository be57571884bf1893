import LessonScript.Command.Builtin
import LessonScript.Inline
import Mathlib.Tactic.Common

/-!
# The order of the candidates

When no two candidates start at the same offset, a line has one order of its candidates only,
whatever the order of the commands. The built-in commands are of this kind: each of their
occurrences opens with a bracket and the name of the command.
-/

namespace LessonScript

section Occurrences

variable {recognise : List Char → Option HeadMatch} {offset skip : Nat} {cs : List Char}

/-- An occurrence starts where the recogniser accepts what is left of the text, and captures what
the recogniser does. -/
lemma accepted_of_mem_occurrencesFrom {m : Occurrence}
    (h : m ∈ occurrencesFrom recognise offset skip cs) :
    ∃ n found, m.start = offset + skip + n ∧ recognise (cs.drop (skip + n)) = some found ∧
      m.capture = found.capture := by
  induction cs generalizing offset skip with
  | nil => cases skip <;> cases h
  | cons c cs ih =>
    cases skip with
    | succ skip =>
      obtain ⟨n, found, hstart, hfound⟩ := ih h
      refine ⟨n, found, by omega, ?_⟩
      rw [Nat.add_right_comm, List.drop_succ_cons]
      exact hfound
    | zero =>
      rw [occurrencesFrom] at h
      split at h
      · obtain ⟨n, found, hstart, hfound⟩ := ih h
        exact ⟨n + 1, found, by omega, by simpa using hfound⟩
      · rename_i found hfound
        rcases List.mem_cons.1 h with rfl | h
        · exact ⟨0, found, rfl, hfound, rfl⟩
        · obtain ⟨n, later, hstart, hlater⟩ := ih h
          refine ⟨found.length - 1 + n + 1, later, by omega, ?_⟩
          rw [Nat.zero_add, List.drop_succ_cons]
          exact hlater

lemma le_start_of_mem_occurrencesFrom {m : Occurrence}
    (h : m ∈ occurrencesFrom recognise offset skip cs) : offset + skip ≤ m.start := by
  obtain ⟨n, -, hstart, -, -⟩ := accepted_of_mem_occurrencesFrom h
  omega

lemma pairwise_start_occurrencesFrom :
    (occurrencesFrom recognise offset skip cs).Pairwise fun m n => m.start < n.start := by
  induction cs generalizing offset skip with
  | nil => cases skip <;> exact .nil
  | cons c cs ih =>
    cases skip with
    | succ skip => exact ih
    | zero =>
      rw [occurrencesFrom]
      split
      · exact ih
      · refine List.pairwise_cons.2 ⟨fun n hn => ?_, ih⟩
        have hle := le_start_of_mem_occurrencesFrom hn
        show offset < n.start
        omega

end Occurrences

namespace Candidate

def start (c : Candidate) : Nat := c.occurrence.start

/-- The occurrences of all commands, command by command. -/
def all (commands : List InlineCommand) (line : List Char) : List Candidate :=
  commands.flatMap fun command => (command.pattern.find line).map (⟨command, ·⟩)

variable {commands : List InlineCommand} {line : List Char}

lemma candidates_perm (commands : List InlineCommand) (line : List Char) :
    (candidates commands line).Perm (all commands line) :=
  List.mergeSort_perm ..

lemma pairwise_candidates (hne : (all commands line).Pairwise fun a b => a.start ≠ b.start) :
    (candidates commands line).Pairwise fun a b => a.start < b.start := by
  have hsorted : (candidates commands line).Pairwise fun a b =>
      decide (a.occurrence.start ≤ b.occurrence.start) = true :=
    List.pairwise_mergeSort (by simpa using fun a b c => Nat.le_trans)
      (by simpa using fun a b => Nat.le_total _ _) _
  have hdistinct := (candidates_perm commands line).symm.pairwise hne Ne.symm
  exact (hdistinct.and hsorted).imp fun h => Nat.lt_of_le_of_ne (of_decide_eq_true h.2) h.1

/-- The candidates of a line put in the order of their starts, no two of them starting together,
are its candidates in the order of the scan. -/
lemma candidates_eq {ordered : List Candidate} (hperm : ordered.Perm (all commands line))
    (hlt : ordered.Pairwise fun a b => a.start < b.start) : candidates commands line = ordered := by
  have hne := hperm.pairwise (hlt.imp Nat.ne_of_lt) Ne.symm
  exact List.Perm.eq_of_pairwise (fun _ _ _ _ hab hba => absurd hab (Nat.lt_asymm hba))
    (pairwise_candidates hne) hlt ((candidates_perm commands line).trans hperm.symm)

/-- The order of the commands does not matter to a line on which no two candidates start
together. -/
lemma candidates_eq_of_perm {others : List InlineCommand} (hperm : others.Perm commands)
    (hne : (all commands line).Pairwise fun a b => a.start ≠ b.start) :
    candidates others line = candidates commands line :=
  candidates_eq ((candidates_perm commands line).trans (hperm.symm.flatMap_right _))
    (pairwise_candidates hne)

end Candidate

/-! ## The built-in inline commands -/

/-- Two texts of which neither is the beginning of the other. -/
def Apart (cs ds : List Char) : Prop := ¬ cs <+: ds ∧ ¬ ds <+: cs

instance (cs ds : List Char) : Decidable (Apart cs ds) := inferInstanceAs (Decidable (_ ∧ _))

/-- No text begins with both. -/
lemma Apart.not_both {cs ds text : List Char} (h : Apart cs ds) (hc : cs <+: text)
    (hd : ds <+: text) : False :=
  (List.prefix_or_prefix_of_prefix hc hd).elim h.1 h.2

/-- A recogniser that looks for a bracket with a name behind it. -/
def LooksFor (recognise : List Char → Option HeadMatch) (name : List Char) : Prop :=
  ∀ cs found, recognise cs = some found → '[' :: name <+: cs

namespace Builtin

def inlineCommands : List InlineCommand := commands.filterMap Command.inline?

lemma looksFor_pauseAtHead : LooksFor pauseAtHead "pause".toList := by
  intro cs found h
  obtain ⟨rest, hrest, -⟩ := Option.bind_eq_some_iff.1 h
  exact ⟨rest, (Text.after?_eq_some_iff.1 hrest).symm⟩

lemma looksFor_spanAtHead {opening closing name : List Char} {allowed : Char → Bool}
    (hname : '[' :: name <+: opening) : LooksFor (spanAtHead opening closing allowed) name := by
  intro cs found h
  obtain ⟨rest, hrest, -⟩ := Option.bind_eq_some_iff.1 h
  exact hname.trans ⟨rest, (Text.after?_eq_some_iff.1 hrest).symm⟩

lemma mem_inlineCommands {command : InlineCommand} :
    command ∈ inlineCommands ↔ command = pause ∨ command = ego ∨ command = bold := by
  have hlist : inlineCommands = [pause, ego, bold] := rfl
  simp [hlist]

lemma exists_recogniser {command : InlineCommand} (hc : command ∈ inlineCommands) :
    ∃ recognise, command.pattern.find = occurrencesFrom recognise 0 0 ∧
      LooksFor recognise command.name.toList := by
  rcases mem_inlineCommands.1 hc with rfl | rfl | rfl
  · exact ⟨pauseAtHead, rfl, looksFor_pauseAtHead⟩
  · exact ⟨_, rfl, looksFor_spanAtHead (by decide)⟩
  · exact ⟨_, rfl, looksFor_spanAtHead (by decide)⟩

/-- An occurrence of a built-in command opens with a bracket and the name of the command. -/
lemma opening_of_mem_find {command : InlineCommand} (hc : command ∈ inlineCommands)
    {line : List Char} {m : Occurrence} (hm : m ∈ command.pattern.find line) :
    '[' :: command.name.toList <+: line.drop m.start := by
  obtain ⟨recognise, hfind, hopens⟩ := exists_recogniser hc
  rw [hfind] at hm
  obtain ⟨n, found, hstart, hfound, -⟩ := accepted_of_mem_occurrencesFrom hm
  rw [hstart]
  exact hopens _ found hfound

lemma pairwise_start_find {command : InlineCommand} (hc : command ∈ inlineCommands)
    (line : List Char) : (command.pattern.find line).Pairwise fun m n => m.start < n.start := by
  obtain ⟨recognise, hfind, -⟩ := exists_recogniser hc
  rw [hfind]
  exact pairwise_start_occurrencesFrom

/-- No two occurrences of built-in commands start together. Of one command, a later occurrence
starts later; of two commands, neither name is the beginning of the other. -/
lemma pairwise_start_all (line : List Char) :
    (Candidate.all inlineCommands line).Pairwise fun a b => a.start ≠ b.start := by
  refine List.pairwise_flatMap.2 ⟨?_, ?_⟩
  · intro command hc
    exact List.pairwise_map.2 ((pairwise_start_find hc line).imp Nat.ne_of_lt)
  · have hnames : inlineCommands.Pairwise fun a b =>
        Apart ('[' :: a.name.toList) ('[' :: b.name.toList) := by decide
    refine hnames.imp_of_mem fun ha hb hab => ?_
    intro x hx y hy hstart
    obtain ⟨m, hm, rfl⟩ := List.mem_map.1 hx
    obtain ⟨n, hn, rfl⟩ := List.mem_map.1 hy
    have hma := opening_of_mem_find ha hm
    have hnb := opening_of_mem_find hb hn
    rw [show m.start = n.start from hstart] at hma
    exact hab.not_both hma hnb

end Builtin
end LessonScript
