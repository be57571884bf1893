/-!
# Tables

A table binds keys to values and remembers the order in which the keys were first bound.
Binding a key again changes its value and not its place. Keys are distinct by construction.
-/

namespace LessonScript

variable {α β : Type}

/-- Binds `k` to `v` in a list of pairs: in place when `k` is there, at the end otherwise. -/
def Table.bind [DecidableEq α] (k : α) (v : β) : List (α × β) → List (α × β)
  | [] => [(k, v)]
  | (k₁, v₁) :: rest => if k₁ = k then (k₁, v) :: rest else (k₁, v₁) :: Table.bind k v rest

theorem Table.map_fst_bind [DecidableEq α] (k : α) (v : β) (pairs : List (α × β)) :
    (Table.bind k v pairs).map Prod.fst =
      pairs.map Prod.fst ++ if k ∈ pairs.map Prod.fst then [] else [k] := by
  induction pairs with
  | nil => simp [Table.bind]
  | cons p rest ih =>
    obtain ⟨k₁, v₁⟩ := p
    by_cases h : k₁ = k
    · simp [Table.bind, h]
    · simp only [Table.bind, h, if_false, List.map_cons, ih, List.cons_append, List.mem_cons,
        Ne.symm h, false_or]

/-- Pairs of a key and its value, the keys distinct and in the order they were first bound. -/
structure Table (α β : Type) where
  entries : List (α × β)
  nodup : (entries.map Prod.fst).Nodup

namespace Table

def empty : Table α β := ⟨[], by simp⟩

def keys (t : Table α β) : List α := t.entries.map Prod.fst

def values (t : Table α β) : List β := t.entries.map Prod.snd

def size (t : Table α β) : Nat := t.entries.length

instance : Inhabited (Table α β) := ⟨empty⟩

@[ext] theorem ext {s t : Table α β} (h : s.entries = t.entries) : s = t := by
  cases s; cases t; simp_all

theorem keys_nodup (t : Table α β) : t.keys.Nodup := t.nodup

variable [DecidableEq α]

/-- Binds a key, in place when it is bound already. -/
def insert (t : Table α β) (k : α) (v : β) : Table α β where
  entries := Table.bind k v t.entries
  nodup := by
    rw [map_fst_bind]
    split
    · simpa using t.nodup
    · rename_i h
      simpa [List.nodup_append, t.nodup] using fun a b hab e => h (by
        subst e; exact List.mem_map.2 ⟨(a, b), hab, rfl⟩)

def erase (t : Table α β) (k : α) : Table α β where
  entries := t.entries.filter fun p => p.1 ≠ k
  nodup := (List.filter_sublist.map Prod.fst).nodup t.nodup

def get? (t : Table α β) (k : α) : Option β := (t.entries.find? fun p => p.1 = k).map Prod.snd

def contains (t : Table α β) (k : α) : Bool := t.entries.any fun p => p.1 = k

def ofList (pairs : List (α × β)) : Table α β :=
  pairs.foldl (fun t p => t.insert p.1 p.2) empty

/-- A new key goes to the end and a bound one stays where it is. -/
theorem keys_insert (t : Table α β) (k : α) (v : β) :
    (t.insert k v).keys = t.keys ++ if k ∈ t.keys then [] else [k] :=
  map_fst_bind k v t.entries

theorem contains_iff {t : Table α β} {k : α} : t.contains k = true ↔ k ∈ t.keys := by
  simp [contains, keys]

/-- After binding a key, its value is the new one and every other key keeps its own. -/
theorem get?_insert (t : Table α β) (k₁ k : α) (v : β) :
    (t.insert k₁ v).get? k = if k₁ = k then some v else t.get? k := by
  simp only [get?, insert]
  generalize t.entries = pairs
  induction pairs with
  | nil => by_cases h : k₁ = k <;> simp [Table.bind, h]
  | cons p rest ih =>
    obtain ⟨k₂, v₂⟩ := p
    by_cases h : k₂ = k₁
    · subst h
      by_cases h' : k₂ = k <;> simp [Table.bind, h']
    · by_cases h' : k₂ = k
      · subst h'
        simp [Table.bind, h, Ne.symm h]
      · simp [Table.bind, h, h', ih]

end Table
end LessonScript
