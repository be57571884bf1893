/-!
# Milliseconds

Durations are whole milliseconds up to `2 ^ 64 - 1`. Sums and products stop at that limit
instead of running over it.
-/

namespace LessonScript

structure Millis where
  count : Nat
  count_le : count ≤ 18446744073709551615
deriving DecidableEq

namespace Millis

/-- The longest duration in milliseconds. -/
def limit : Nat := 18446744073709551615

def ofNat (n : Nat) : Millis := ⟨min n limit, Nat.min_le_right ..⟩

/-- A number of milliseconds that is within the limit. -/
def ofNat? (n : Nat) : Option Millis := if h : n ≤ limit then some ⟨n, h⟩ else none

instance (n : Nat) : OfNat Millis n := ⟨ofNat n⟩

instance : Inhabited Millis := ⟨0⟩

instance : Repr Millis := ⟨fun m _ => repr m.count⟩

instance : Add Millis := ⟨fun a b => ofNat (a.count + b.count)⟩

def times (n : Nat) (m : Millis) : Millis := ofNat (n * m.count)

def atMost (a b : Millis) : Millis := if a.count ≤ b.count then a else b

def atLeast (a b : Millis) : Millis := if b.count ≤ a.count then a else b

@[ext] theorem ext {a b : Millis} (h : a.count = b.count) : a = b := by
  cases a; cases b; simp_all

theorem count_le_limit (m : Millis) : m.count ≤ limit := m.count_le

theorem count_add (a b : Millis) : (a + b).count = min (a.count + b.count) limit := rfl

@[simp] theorem ofNat?_count (m : Millis) : ofNat? m.count = some m := by
  simp [ofNat?, m.count_le_limit]

end Millis
end LessonScript
