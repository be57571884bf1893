import LessonScript.Proofs.Outline.Places

/-!
# Reading an outline off its lines

The lines of a forest tell the forest, up to what is cut off its labels. The first line tells by its
connector whether more siblings follow, and so which cell the lines below the first tree have where
the next sibling has its connector. No connector starts like a cell, whatever the labels look like.
-/

namespace LessonScript
namespace Outline

mutual

/-- A tree with its labels as they are shown. -/
def shown : Outline → Outline
  | .node icon label children => .node icon (shownLabel label) (shownAll children)

def shownAll : List Outline → List Outline
  | [] => []
  | first :: rest => first.shown :: shownAll rest

end

lemma shownAll_eq_map (forest : List Outline) : shownAll forest = forest.map shown := by
  induction forest with
  | nil => rfl
  | cons first rest ih => rw [shownAll, ih, List.map_cons]

lemma shown_eq_of_caption {a b : Outline} (hcaption : a.caption = b.caption)
    (hchildren : shownAll a.children = shownAll b.children) : a.shown = b.shown := by
  obtain ⟨icon, label, children⟩ := a
  obtain ⟨icon', label', children'⟩ := b
  obtain ⟨rfl, h⟩ := List.cons.inj hcaption
  obtain ⟨-, hlabel⟩ := List.cons.inj h
  rw [shown, shown]
  exact congrArg₂ (node icon) hlabel hchildren

/-- Two lists are joined alike only if they are alike, when all of the first ones have a property
that what starts the second ones has not. -/
lemma append_inj_of_heads {α : Type} {P : α → Prop} {a a' b b' : List α} (ha : ∀ x ∈ a, P x)
    (ha' : ∀ x ∈ a', P x) (hb : ∀ x ∈ b.head?, ¬P x) (hb' : ∀ x ∈ b'.head?, ¬P x)
    (h : a ++ b = a' ++ b') : a = a' ∧ b = b' := by
  induction a generalizing a' with
  | nil =>
    cases a' with
    | nil => exact ⟨rfl, h⟩
    | cons x rest =>
      rw [List.nil_append] at h
      exact absurd (ha' x List.mem_cons_self) (hb x (h ▸ rfl))
  | cons x rest ih =>
    cases a' with
    | nil =>
      rw [List.nil_append] at h
      exact absurd (ha x List.mem_cons_self) (hb' x (h ▸ rfl))
    | cons y rest' =>
      obtain ⟨rfl, hrest⟩ := List.cons.inj h
      obtain ⟨rfl, rfl⟩ := ih (List.forall_mem_cons.1 ha).2 (List.forall_mem_cons.1 ha').2 hrest
      exact ⟨rfl, rfl⟩

section Lines

variable {cells : List Char}

lemma linesOf_cons (cells : List Char) (first : Outline) (rest : List Outline) :
    linesOf cells (first :: rest) =
      (cells ++ connector rest.isEmpty ++ first.caption) ::
        (linesOf (cells ++ cell rest.isEmpty) first.children ++ linesOf cells rest) := by
  rw [linesOf, lines_eq, List.cons_append]

lemma prefix_of_mem_linesOf {forest : List Outline} {line : List Char}
    (h : line ∈ linesOf cells forest) : cells <+: line := by
  rw [← show (node '⧉' [] forest).children = forest from rfl, linesOf_children] at h
  obtain ⟨place, -, rfl⟩ := List.mem_map.1 h
  exact List.prefix_append ..

/-- Where the lines below a tree have a cell, the line of a sibling has its connector. -/
lemma not_prefix_head?_linesOf (last : Bool) (forest : List Outline) :
    ∀ line ∈ (linesOf cells forest).head?, ¬ cells ++ cell last <+: line := by
  have hstart : ∀ a b, ¬ cell a <+: connector b := by decide
  have hlength : ∀ a b, (cell a).length ≤ (connector b).length := by decide
  intro line hline hcell
  cases forest with
  | nil => cases hline
  | cons first rest =>
    rw [linesOf_cons] at hline
    obtain rfl := Option.some.inj hline
    rw [List.append_assoc, List.prefix_append_right_inj] at hcell
    exact hstart _ _
      (List.prefix_of_prefix_length_le hcell (List.prefix_append ..) (hlength _ _))

lemma connector_append_inj {last last' : Bool} {a b : List Char}
    (h : cells ++ connector last ++ a = cells ++ connector last' ++ b) : last = last' ∧ a = b := by
  have hlength : ∀ a b, (connector a).length = (connector b).length := by decide
  have hinjective : ∀ a b, connector a = connector b → a = b := by decide
  rw [List.append_assoc, List.append_assoc] at h
  obtain ⟨hconnector, hrest⟩ := List.append_inj (List.append_cancel_left h) (hlength _ _)
  exact ⟨hinjective _ _ hconnector, hrest⟩

/-- The lines of two forests are the same only if the forests are, as far as they are shown. -/
lemma shownAll_eq_of_linesOf {forest other : List Outline}
    (h : linesOf cells forest = linesOf cells other) : shownAll forest = shownAll other := by
  -- By induction on the tree above the forest, and in it on the forest: the lines below the first
  -- tree are those of a smaller forest with one cell more, and the rest are those of the siblings.
  suffices hbelow : ∀ tree : Outline, ∀ cells other, linesOf cells tree.children =
      linesOf cells other → shownAll tree.children = shownAll other from
    hbelow (node '⧉' [] forest) cells other h
  intro tree
  induction tree using inductionOn with
  | node icon label children ih =>
    change ∀ cells other, linesOf cells children = _ → shownAll children = _
    intro cells other h
    induction children generalizing other with
    | nil =>
      cases other with
      | nil => rfl
      | cons first rest =>
        rw [linesOf_cons] at h
        cases h
    | cons first rest ihrest =>
      obtain ⟨hfirst, hrest⟩ := List.forall_mem_cons.1 ih
      cases other with
      | nil =>
        rw [linesOf_cons] at h
        cases h
      | cons first' rest' =>
        rw [linesOf_cons, linesOf_cons] at h
        obtain ⟨hline, hlines⟩ := List.cons.inj h
        obtain ⟨hlast, hcaption⟩ := connector_append_inj hline
        rw [← hlast] at hlines
        obtain ⟨hchildren, hsiblings⟩ := append_inj_of_heads
          (fun _ => prefix_of_mem_linesOf) (fun _ => prefix_of_mem_linesOf)
          (not_prefix_head?_linesOf _ rest) (not_prefix_head?_linesOf _ rest') hlines
        rw [shownAll, shownAll, ihrest hrest rest' hsiblings,
          shown_eq_of_caption hcaption (hfirst _ _ hchildren)]

end Lines

end Outline
end LessonScript
