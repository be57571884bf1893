import LessonScript.Outline
import Mathlib.Data.List.Infix
import Mathlib.Data.List.ModifyLast
import Mathlib.Tactic.Common

/-!
# Places in an outline

A node of an outline has a place: the positions that lead to it from the root, each among its
siblings. The order of places is the order in which nodes are met from top to bottom. What is drawn
in the line of a node can be told from its place: whether the node has a later sibling, and whether
each node above it has one.
-/

namespace LessonScript
namespace Outline

def icon : Outline → Char
  | .node icon _ _ => icon

def label : Outline → List Char
  | .node _ label _ => label

def children : Outline → List Outline
  | .node _ _ children => children

@[elab_as_elim]
theorem inductionOn {P : Outline → Prop}
    (node : ∀ icon label children, (∀ child ∈ children, P child) → P (.node icon label children)) :
    ∀ tree, P tree
  | .node icon label children => node icon label children fun child _ => inductionOn node child

/-- The node at a place. -/
def at? (tree : Outline) : List Nat → Option Outline
  | [] => some tree
  | i :: place => tree.children[i]?.bind fun child => child.at? place

mutual

/-- The places of a tree from top to bottom, its own first. -/
def places : Outline → List (List Nat)
  | .node _ _ children => [] :: placesFrom 0 children

/-- The places of siblings, the first of which has position `i`. -/
def placesFrom (i : Nat) : List Outline → List (List Nat)
  | [] => []
  | first :: rest => first.places.map (i :: ·) ++ placesFrom (i + 1) rest

end

/-- The places above a place, from top to bottom and without the root. -/
def ancestors (place : List Nat) : List (List Nat) := place.inits.tail.dropLast

/-- There is no node at the next position among the siblings. -/
def isLast (tree : Outline) (place : List Nat) : Bool :=
  (tree.at? (place.modifyLast (· + 1))).isNone

/-- What a node puts into the lines below it. -/
def cell (last : Bool) : List Char := (if last then "  " else "│ ").toList

def connector (last : Bool) : List Char := (if last then "└─ " else "├─ ").toList

def caption (tree : Outline) : List Char := tree.icon :: ' ' :: shownLabel tree.label

/-- The line of the node at a place: a cell for every node above it but the root, its connector,
and its icon with its label. -/
def lineAt (tree : Outline) (place : List Nat) : List Char :=
  (ancestors place).flatMap (fun above => cell (tree.isLast above)) ++
    connector (tree.isLast place) ++ ((tree.at? place).map caption).getD []

/-! ## The places of a tree -/

section Places

variable {tree child : Outline} {i : Nat} {place : List Nat}

lemma places_eq (tree : Outline) : tree.places = [] :: placesFrom 0 tree.children := by
  cases tree
  rw [places]
  rfl

lemma mem_placesFrom {forest : List Outline} :
    place ∈ placesFrom i forest ↔
      ∃ j child inner, forest[j]? = some child ∧ inner ∈ child.places ∧
        place = (i + j) :: inner := by
  induction forest generalizing i with
  | nil => simp [placesFrom]
  | cons first rest ih =>
    rw [placesFrom, List.mem_append, List.mem_map, ih]
    constructor
    · rintro (⟨inner, hinner, rfl⟩ | ⟨j, child, inner, hchild, hinner, rfl⟩)
      · exact ⟨0, first, inner, rfl, hinner, rfl⟩
      · exact ⟨j + 1, child, inner, hchild, hinner, by rw [Nat.add_right_comm, Nat.add_assoc]⟩
    · rintro ⟨j, child, inner, hchild, hinner, rfl⟩
      cases j with
      | zero =>
        obtain rfl : first = child := Option.some.inj hchild
        exact .inl ⟨inner, hinner, rfl⟩
      | succ j =>
        exact .inr ⟨j, child, inner, hchild, hinner, by rw [Nat.add_right_comm, Nat.add_assoc]⟩

lemma isSome_at?_cons : (tree.at? (i :: place)).isSome = true ↔
    ∃ child, tree.children[i]? = some child ∧ (child.at? place).isSome = true := by
  rw [at?]
  cases tree.children[i]? with
  | none => simp
  | some child => simp

/-- The places of a tree are those at which it has a node. -/
lemma mem_places (tree : Outline) (place : List Nat) :
    place ∈ tree.places ↔ (tree.at? place).isSome = true := by
  induction tree using inductionOn generalizing place with
  | node icon label children ih =>
    rw [places, List.mem_cons, mem_placesFrom]
    cases place with
    | nil => simp [at?]
    | cons i place =>
      rw [isSome_at?_cons]
      constructor
      · rintro (h | ⟨j, child, inner, hchild, hinner, heq⟩)
        · cases h
        · obtain ⟨rfl, rfl⟩ := List.cons.inj heq
          rw [Nat.zero_add]
          exact ⟨child, hchild, (ih child (List.mem_of_getElem? hchild) place).1 hinner⟩
      · rintro ⟨child, hchild, hinner⟩
        have hmem := (ih child (List.mem_of_getElem? hchild) place).2 hinner
        exact .inr ⟨i, child, place, hchild, hmem, by rw [Nat.zero_add]⟩

/-- The places are listed in their order: a node before the nodes below it, and with these before
its later siblings. -/
lemma pairwise_places (tree : Outline) : tree.places.Pairwise (· < ·) := by
  induction tree using inductionOn with
  | node icon label children ih =>
    have hforest : ∀ i, (placesFrom i children).Pairwise (· < ·) := by
      induction children with
      | nil => exact fun _ => .nil
      | cons first rest ihrest =>
        intro i
        obtain ⟨hfirst, hrest⟩ := List.forall_mem_cons.1 ih
        rw [placesFrom, List.pairwise_append]
        refine ⟨?_, ihrest hrest (i + 1), ?_⟩
        · exact hfirst.map _ fun _ _ h => List.cons_lt_cons_iff.2 (.inr ⟨rfl, h⟩)
        · intro above habove behind hbehind
          obtain ⟨inner, -, rfl⟩ := List.mem_map.1 habove
          obtain ⟨j, _, _, -, -, rfl⟩ := mem_placesFrom.1 hbehind
          exact List.cons_lt_cons_iff.2 (.inl (by omega))
    rw [places, List.pairwise_cons]
    refine ⟨fun place hplace => ?_, hforest 0⟩
    obtain ⟨_, _, _, -, -, rfl⟩ := mem_placesFrom.1 hplace
    exact List.nil_lt_cons _ _

end Places

/-! ## The line of a place -/

section Lines

variable {tree child : Outline} {i : Nat} {place : List Nat}

lemma ancestors_cons (i : Nat) (hplace : place ≠ []) :
    ancestors (i :: place) = [i] :: (ancestors place).map (i :: ·) := by
  obtain ⟨j, rest, rfl⟩ := List.exists_cons_of_ne_nil hplace
  simp only [ancestors, List.inits_cons, List.map_cons, List.tail_cons, List.map_map]
  rw [List.dropLast_cons_of_ne_nil (by cases rest <;> simp), ← List.map_dropLast,
    ← List.map_dropLast, List.map_map]

lemma ne_nil_of_mem_ancestors {above : List Nat} (h : above ∈ ancestors place) : above ≠ [] := by
  rintro rfl
  have hmem : [] ∈ place.inits.tail := List.dropLast_subset _ h
  cases place <;> simp at hmem

lemma at?_of_child (hchild : tree.children[i]? = some child) (place : List Nat) :
    tree.at? (i :: place) = child.at? place := by
  rw [at?, hchild, Option.bind_some]

lemma isLast_singleton (tree : Outline) (i : Nat) :
    tree.isLast [i] = (tree.children[i + 1]?).isNone := by
  have hnext : [i].modifyLast (· + 1) = [i + 1] := rfl
  rw [isLast, hnext, at?]
  cases tree.children[i + 1]? <;> rfl

lemma isLast_cons (hchild : tree.children[i]? = some child) (hplace : place ≠ []) :
    tree.isLast (i :: place) = child.isLast place := by
  rw [isLast, ← List.singleton_append, List.modifyLast_append_of_right_ne_nil _ _ _ hplace,
    List.singleton_append, at?_of_child hchild, isLast]

/-- Seen from the root a node below a child has one cell more. -/
lemma lineAt_cons (hchild : tree.children[i]? = some child) (hplace : place ≠ []) :
    tree.lineAt (i :: place) = cell (tree.isLast [i]) ++ child.lineAt place := by
  have hcells : ((ancestors place).map (i :: ·)).flatMap (fun above => cell (tree.isLast above)) =
      (ancestors place).flatMap fun above => cell (child.isLast above) := by
    rw [List.flatMap_map]
    refine List.flatMap_congr fun above habove => ?_
    rw [isLast_cons hchild (ne_nil_of_mem_ancestors habove)]
  rw [lineAt, ancestors_cons i hplace, List.flatMap_cons, hcells, isLast_cons hchild hplace,
    at?_of_child hchild, lineAt]
  simp only [List.append_assoc]

lemma lineAt_singleton (hchild : tree.children[i]? = some child) :
    tree.lineAt [i] = connector (tree.isLast [i]) ++ child.caption := by
  rw [lineAt, at?_of_child hchild]
  rfl

lemma lines_eq (cells : List Char) (last : Bool) (tree : Outline) :
    lines cells last tree =
      (cells ++ connector last ++ tree.caption) :: linesOf (cells ++ cell last) tree.children := by
  cases tree
  rw [lines]
  rfl

/-- The lines of a tree among its siblings, by its places. -/
lemma lines_child (hchild : tree.children[i]? = some child) {cells : List Char}
    (hbelow : ∀ cells, linesOf cells child.children =
      (placesFrom 0 child.children).map fun place => cells ++ child.lineAt place) :
    lines cells (tree.isLast [i]) child =
      (child.places.map (i :: ·)).map fun place => cells ++ tree.lineAt place := by
  have hlines : ∀ place ∈ placesFrom 0 child.children,
      cells ++ cell (tree.isLast [i]) ++ child.lineAt place =
        cells ++ tree.lineAt (i :: place) := by
    intro place hplace
    obtain ⟨_, _, _, -, -, rfl⟩ := mem_placesFrom.1 hplace
    rw [lineAt_cons hchild (List.cons_ne_nil _ _), List.append_assoc]
  rw [lines_eq, hbelow, List.map_congr_left hlines, places_eq, List.map_map, List.map_cons,
    Function.comp_apply, lineAt_singleton hchild, List.append_assoc]
  rfl

/-- What is drawn below a node is the lines of the places below it. -/
lemma linesOf_children (tree : Outline) (cells : List Char) :
    linesOf cells tree.children =
      (placesFrom 0 tree.children).map fun place => cells ++ tree.lineAt place := by
  induction tree using inductionOn generalizing cells with
  | node icon label children ih =>
    -- The siblings drawn so far are kept, as their number is the position of the next one.
    have hforest : ∀ before rest, children = before ++ rest →
        linesOf cells rest = (placesFrom before.length rest).map fun place =>
          cells ++ (node icon label children).lineAt place := by
      intro before rest hsplit
      induction rest generalizing before with
      | nil => rfl
      | cons first rest ihrest =>
        have hchild : (node icon label children).children[before.length]? = some first := by
          rw [Outline.children, hsplit, List.getElem?_append_right (Nat.le_refl _), Nat.sub_self]
          rfl
        have hlast : (node icon label children).isLast [before.length] = rest.isEmpty := by
          rw [isLast_singleton, Outline.children, hsplit]
          cases rest <;> simp
        have hrest := ihrest (before ++ [first]) (by rw [hsplit, List.append_cons])
        rw [List.length_append, List.length_singleton] at hrest
        rw [linesOf, placesFrom, List.map_append, hrest, ← hlast,
          lines_child hchild (ih first (List.mem_of_getElem? hchild))]
    exact hforest [] children rfl

example : (node '⧉' [] [node '§' "a".toList [leaf '★' "b"], leaf '§' "c"]).lineAt [0, 0] =
    "│ └─ ★ b".toList := by
  decide

end Lines

end Outline
end LessonScript
