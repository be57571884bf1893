import LessonScript.Millis

/-!
# Clocks

A clock stands still until it is moved. It may be unable to time a very long wait; such a wait
ends early, after the longest one that the clock can time.
-/

namespace LessonScript

/-- A clock: the time in milliseconds, and the longest wait it can time if there is a bound. -/
structure Clock where
  now : Nat
  longestWait : Option Nat
deriving DecidableEq, Repr

namespace Clock

/-- A clock at time zero that times every wait to its end. -/
def exact : Clock := ⟨0, none⟩

def lasting (c : Clock) (wait : Millis) : Nat :=
  c.longestWait.elim wait.count (min wait.count)

/-- The time at which a wait ends that begins now. -/
def due (c : Clock) (wait : Millis) : Nat := c.now + c.lasting wait

def moveTo (c : Clock) (time : Nat) : Clock := { c with now := time }

@[simp] theorem now_moveTo (c : Clock) (time : Nat) : (c.moveTo time).now = time := rfl

theorem lasting_of_unbounded {c : Clock} (h : c.longestWait = none) (wait : Millis) :
    c.lasting wait = wait.count := by
  rw [lasting, h, Option.elim_none]

theorem lasting_le (c : Clock) (wait : Millis) : c.lasting wait ≤ wait.count := by
  rcases h : c.longestWait with _ | longest
  · exact Nat.le_of_eq (lasting_of_unbounded h wait)
  · rw [lasting, h, Option.elim_some]
    exact Nat.min_le_left ..

end Clock
end LessonScript
