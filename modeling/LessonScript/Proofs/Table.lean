import LessonScript.Table
import Mathlib.Data.List.Induction
import Mathlib.Tactic.Common

/-!
# Tables of distinct keys

Binding keys that are all different gives the table with just these pairs, in their order. A table
binds a key to a value when it holds the pair of the two. Of pairs with the same key the first one
says where the key stands, and the last one what it is bound to.
-/

namespace LessonScript
namespace Table

variable {α β : Type}

lemma nodup_entries (t : Table α β) : t.entries.Nodup :=
  List.Pairwise.of_map Prod.fst (fun _ _ hne heq => hne (congrArg Prod.fst heq)) t.nodup

variable [DecidableEq α]

lemma bind_of_notMem {k : α} {pairs : List (α × β)} (h : k ∉ pairs.map Prod.fst) (v : β) :
    Table.bind k v pairs = pairs ++ [(k, v)] := by
  induction pairs with
  | nil => rfl
  | cons pair rest ih =>
    have hk : pair.1 ≠ k := Ne.symm (List.ne_of_not_mem_cons h)
    rw [Table.bind, if_neg hk, ih (List.not_mem_of_not_mem_cons h), List.cons_append]

lemma entries_insert_of_notMem {t : Table α β} {k : α} (h : k ∉ t.keys) (v : β) :
    (t.insert k v).entries = t.entries ++ [(k, v)] :=
  bind_of_notMem h v

lemma entries_foldl_insert (t : Table α β) {pairs : List (α × β)}
    (h : (t.keys ++ pairs.map Prod.fst).Nodup) :
    (pairs.foldl (fun t p => t.insert p.1 p.2) t).entries = t.entries ++ pairs := by
  induction pairs generalizing t with
  | nil => simp
  | cons pair rest ih =>
    have hnew : pair.1 ∉ t.keys := by
      intro hk
      exact (List.nodup_append.1 h).2.2 _ hk _ List.mem_cons_self rfl
    rw [List.foldl_cons, ih, entries_insert_of_notMem hnew, List.append_assoc,
      List.singleton_append]
    rwa [keys_insert, if_neg hnew, List.append_assoc]

lemma entries_ofList {pairs : List (α × β)} (h : (pairs.map Prod.fst).Nodup) :
    (ofList pairs).entries = pairs :=
  entries_foldl_insert empty h

lemma get?_eq_some_iff {t : Table α β} {k : α} {v : β} :
    t.get? k = some v ↔ (k, v) ∈ t.entries := by
  obtain ⟨entries, hnodup⟩ := t
  simp only [get?]
  induction entries with
  | nil => simp
  | cons pair rest ih =>
    obtain ⟨hnew, hrest⟩ := List.nodup_cons.1 hnodup
    rw [List.find?_cons]
    by_cases hk : pair.1 = k
    · subst hk
      have hother : (pair.1, v) ∉ rest := fun hm => hnew (List.mem_map.2 ⟨_, hm, rfl⟩)
      simp [hother, Prod.ext_iff, eq_comm]
    · have hne : (k, v) ≠ pair := fun he => hk (he ▸ rfl)
      simp [hk, hne, ih hrest]

lemma bind_of_mem {k : α} {v : β} {pairs : List (α × β)} (hnodup : (pairs.map Prod.fst).Nodup)
    (h : (k, v) ∈ pairs) : Table.bind k v pairs = pairs := by
  induction pairs with
  | nil => cases h
  | cons pair rest ih =>
    obtain ⟨hnew, hrest⟩ := List.nodup_cons.1 hnodup
    obtain rfl | h := List.mem_cons.1 h
    · exact if_pos rfl
    · have hne : pair.1 ≠ k := by
        rintro rfl
        exact hnew (List.mem_map.2 ⟨_, h, rfl⟩)
      rw [Table.bind, if_neg hne, ih hrest h]

/-- Binding a key to the value that it has changes nothing. -/
lemma insert_of_get? {t : Table α β} {k : α} {v : β} (h : t.get? k = some v) :
    t.insert k v = t :=
  ext (bind_of_mem t.nodup (get?_eq_some_iff.1 h))

lemma get?_erase (t : Table α β) (k₁ k : α) :
    (t.erase k₁).get? k = if k₁ = k then none else t.get? k := by
  simp only [get?, erase]
  induction t.entries with
  | nil => simp
  | cons pair rest ih =>
    by_cases h₁ : pair.1 = k₁
    · by_cases hk : k₁ = k <;> simp_all
    · by_cases hk : pair.1 = k <;> by_cases h : k₁ = k <;> simp_all

lemma contains_eq (t : Table α β) (k : α) : t.contains k = (t.get? k).isSome := by
  rw [contains, get?, Option.isSome_map, List.isSome_find?]

lemma get?_eq_none_iff {t : Table α β} {k : α} : t.get? k = none ↔ k ∉ t.keys := by
  rw [← contains_iff, contains_eq, Bool.not_eq_true, Option.isSome_eq_false_iff,
    Option.isNone_iff_eq_none]

/-! ## Tables made of pairs -/

lemma ofList_concat (pairs : List (α × β)) (pair : α × β) :
    ofList (pairs ++ [pair]) = (ofList pairs).insert pair.1 pair.2 := by
  rw [ofList, List.foldl_append]
  rfl

/-- The keys come in the order in which the pairs first have them. -/
lemma keys_ofList (pairs : List (α × β)) :
    (ofList pairs).keys = (pairs.map Prod.fst).eraseDups := by
  induction pairs using List.reverseRecOn with
  | nil => rfl
  | append_singleton pairs pair ih =>
    rw [ofList_concat, keys_insert, ih, List.map_append, List.eraseDups_append]
    congr 1
    by_cases h : pair.1 ∈ pairs.map Prod.fst
    · rw [if_pos (List.mem_eraseDups.2 h)]
      simp_all [List.removeAll]
    · rw [if_neg (mt List.mem_eraseDups.1 h)]
      simp_all [List.removeAll, List.eraseDups_cons]

/-- The order of two keys is that in which the pairs first have them. -/
lemma pairwise_keys_ofList (pairs : List (α × β)) :
    (ofList pairs).keys.Pairwise fun a b =>
      ∃ front v back, pairs = front ++ (a, v) :: back ∧ b ≠ a ∧ b ∉ front.map Prod.fst := by
  induction pairs using List.reverseRecOn with
  | nil => exact .nil
  | append_singleton pairs pair ih =>
    have hearlier := ih.imp fun {a b} ⟨front, v, back, hpairs, hb⟩ =>
      (⟨front, v, back ++ [pair], by rw [hpairs]; simp, hb⟩ : ∃ front v back,
        pairs ++ [pair] = front ++ (a, v) :: back ∧ b ≠ a ∧ b ∉ front.map Prod.fst)
    rw [ofList_concat, keys_insert]
    split
    · rwa [List.append_nil]
    · rename_i hnew
      refine List.pairwise_append.2 ⟨hearlier, List.pairwise_singleton .., ?_⟩
      rintro a ha b hb
      obtain rfl := List.mem_singleton.1 hb
      rw [keys_ofList, List.mem_eraseDups] at ha hnew
      obtain ⟨⟨_, v⟩, hmem, rfl⟩ := List.mem_map.1 ha
      obtain ⟨front, back, rfl⟩ := List.append_of_mem hmem
      rw [List.map_append, List.map_cons, List.mem_append, List.mem_cons, not_or, not_or] at hnew
      exact ⟨front, v, back ++ [pair], by simp, hnew.2.1, hnew.1⟩

/-- Of several values for a key the last one counts. -/
lemma get?_ofList (pairs : List (α × β)) (k : α) :
    (ofList pairs).get? k = pairs.reverse.lookup k := by
  induction pairs using List.reverseRecOn with
  | nil => rfl
  | append_singleton pairs pair ih =>
    rw [ofList_concat, get?_insert, ih, List.reverse_append, List.reverse_singleton,
      List.singleton_append, List.lookup_cons]
    by_cases h : pair.1 = k
    · simp [h]
    · rw [if_neg h, beq_eq_false_iff_ne.2 (Ne.symm h)]

lemma get?_ofList_eq_some_iff {pairs : List (α × β)} {k : α} {v : β} :
    (ofList pairs).get? k = some v ↔
      ∃ front back, pairs = front ++ (k, v) :: back ∧ k ∉ back.map Prod.fst := by
  rw [get?_ofList, List.lookup_eq_some_iff]
  constructor
  · rintro ⟨back, front, hpairs, hlast⟩
    refine ⟨front.reverse, back.reverse, ?_, ?_⟩
    · rw [← List.reverse_reverse pairs, hpairs]
      simp
    · rw [List.map_reverse, List.mem_reverse, List.mem_map]
      rintro ⟨pair, hpair, rfl⟩
      simpa using hlast pair hpair
  · rintro ⟨front, back, rfl, hlast⟩
    refine ⟨back.reverse, front.reverse, by simp, fun pair hpair => ?_⟩
    rw [bne_iff_ne]
    rintro rfl
    exact hlast (List.mem_map.2 ⟨pair, List.mem_reverse.1 hpair, rfl⟩)

/-- What a table is made of holds all of its values. -/
lemma mem_of_get?_ofList {pairs : List (α × β)} {k : α} {v : β}
    (h : (ofList pairs).get? k = some v) : (k, v) ∈ pairs := by
  obtain ⟨front, back, rfl, -⟩ := get?_ofList_eq_some_iff.1 h
  simp

end Table
end LessonScript
