import LessonScript.Playback.Session
import Mathlib.Data.List.Induction
import Mathlib.Data.List.Infix
import Mathlib.Data.List.TakeWhile
import Mathlib.Tactic.Common

/-!
# Reading a history

The history of a session tells all there is to know of its player: the player is what the events
make of one with nothing loaded. It also tells which plays are under way, what has happened to
them since they began, and what has been delivered since playback was last rewound.
-/

namespace LessonScript

namespace Event

/-- The control by which an event takes the cursor to an end of the timeline. -/
def rewind? : Event → Option Control
  | .controlled c _ => if c.rewinds then some c else none
  | _ => none

/-- A load, a reset, a skip or a new play takes over from the plays before it. -/
def takesOver : Event → Bool
  | .controlled c _ => c.rewinds
  | .began _ _ => true
  | _ => false

def stops : Event → Bool
  | .controlled .stop _ => true
  | _ => false

def play? : Event → Option Nat
  | .began n _ | .shown (.play n) _ _ | .moved n _ _ | .ended n _ _ => some n
  | .controlled _ _ | .skipped _ | .shown .skip _ _ => none

/-- The entry that a play delivers in an event, and the time. -/
def delivery? : Event → Option (Entry × Nat)
  | .shown (.play _) entry time => some (entry, time)
  | _ => none

def begins (n : Nat) : Event → Bool
  | .began m _ => m == n
  | _ => false

def ends (n : Nat) : Event → Bool
  | .ended m _ _ => m == n
  | _ => false

lemma generation_apply (e : Event) (p : Player) :
    (e.apply p).generation = p.generation + if e.takesOver then 1 else 0 := by
  cases e with
  | controlled c time => exact c.generation_apply p
  | ended n outcome time => cases outcome <;> rfl
  | _ => rfl

lemma timeline_apply {e : Event} (he : e.rewind? = none) (p : Player) :
    (e.apply p).timeline = p.timeline := by
  cases e with
  | controlled c time =>
    cases c with
    | load | reset | skip => cases he
    | pause => simp only [apply, Control.apply, Player.pause]; split <;> rfl
    | resume => simp only [apply, Control.apply, Player.resume]; split <;> rfl
    | stop => rfl
  | ended n outcome time => cases outcome <;> rfl
  | _ => rfl

/-- Only the play that moves on changes the cursor, unless playback is rewound. -/
lemma cursor_apply {e : Event} (he : e.rewind? = none) (hm : ∀ n c t, e ≠ .moved n c t)
    (p : Player) : (e.apply p).cursor = p.cursor := by
  cases e with
  | controlled c time =>
    cases c with
    | load | reset | skip => cases he
    | pause => simp only [apply, Control.apply, Player.pause]; split <;> rfl
    | resume => simp only [apply, Control.apply, Player.resume]; split <;> rfl
    | stop => rfl
  | moved n c t => exact absurd rfl (hm n c t)
  | ended n outcome time => cases outcome <;> rfl
  | _ => rfl

lemma timing_apply (e : Event) (p : Player) : (e.apply p).timing = p.timing := by
  cases e with
  | controlled c time =>
    cases c with
    | load | reset | skip | stop => rfl
    | pause => simp only [apply, Control.apply, Player.pause]; split <;> rfl
    | resume => simp only [apply, Control.apply, Player.resume]; split <;> rfl
  | ended n outcome time => cases outcome <;> rfl
  | _ => rfl

lemma eq_of_rewind? {e : Event} {c : Control} (he : e.rewind? = some c) :
    ∃ t, e = .controlled c t := by
  cases e with
  | controlled c' time =>
    rw [rewind?] at he
    split at he
    · exact ⟨time, by cases he; rfl⟩
    · cases he
  | _ => cases he

lemma rewind?_eq_none {e : Event} (he : e.takesOver = false) : e.rewind? = none := by
  cases e with
  | controlled c time => exact if_neg (by simpa [takesOver] using he)
  | _ => rfl

lemma eq_of_begins {e : Event} {n : Nat} (h : e.begins n = true) : ∃ t, e = .began n t := by
  cases e with
  | began m t => exact ⟨t, by rw [eq_of_beq h]⟩
  | _ => cases h

lemma play?_of_begins {e : Event} {n : Nat} (h : e.begins n = true) : e.play? = some n := by
  obtain ⟨t, rfl⟩ := eq_of_begins h
  rfl

lemma play?_of_ends {e : Event} {n : Nat} (h : e.ends n = true) : e.play? = some n := by
  cases e with
  | ended m o t => exact congrArg some (eq_of_beq h)
  | _ => cases h

end Event

namespace History

def player (timing : Timing) (h : History) : Player := h.foldr Event.apply (.idle timing)

@[simp] lemma player_nil (timing : Timing) : player timing [] = .idle timing := rfl

@[simp] lemma player_cons (timing : Timing) (e : Event) (h : History) :
    player timing (e :: h) = e.apply (player timing h) := rfl

/-! ### Plays -/

def plays (h : History) : Nat := h.countP fun e => e matches .began _ _

/-- A play has begun and has not ended. -/
def running (n : Nat) (h : History) : Bool := h.any (·.begins n) && !h.any (·.ends n)

def since (n : Nat) (h : History) : History := h.takeWhile (!·.begins n)

/-- A load, a reset, a skip or a newer play has happened since a play began. -/
def takenOver (n : Nat) (h : History) : Bool := (since n h).any Event.takesOver

/-- A stop has happened since a play began. -/
def stopped (n : Nat) (h : History) : Bool := (since n h).any Event.stops

/-- A play is under way, and nothing has taken it over. -/
def Live (n : Nat) (h : History) : Prop := running n h = true ∧ takenOver n h = false

/-- How a play ends that ends now. -/
def verdict (n : Nat) (h : History) : Outcome :=
  if takenOver n h then .superseded else if stopped n h then .stopped else .completed

/-- The player as a play found it when it had just begun. -/
def outset (timing : Timing) (n : Nat) (h : History) : Player :=
  player timing (h.dropWhile (!·.begins n))

/-- What a play has done itself. -/
def own (n : Nat) (h : History) : History := h.filter (·.play? = some n)

/-- The play whose delivery is being answered, and the entry that it delivered. The answer lasts
from the delivery until the play acts again. -/
def answering? : History → Option (Nat × Entry)
  | .shown (.play n) entry _ :: _ => some (n, entry)
  | .controlled _ _ :: h | .shown .skip _ _ :: h | .skipped _ :: h => answering? h
  | _ => none

/-- The number of skips that are delivering their timelines, one within the other. -/
def openSkips : History → Nat
  | [] => 0
  | .controlled c _ :: h => openSkips h + c.skips
  | .skipped _ :: h => openSkips h - 1
  | _ :: h => openSkips h

/-! ### Deliveries -/

/-- What plays have delivered, in the order of delivery, with the times. -/
def deliveries (h : History) : List (Entry × Nat) := (h.filterMap Event.delivery?).reverse

/-- The last control that took the cursor to an end of the timeline. -/
def lastRewind? (h : History) : Option Control := h.findSome? Event.rewind?

/-- What has happened since playback was last rewound. -/
def sinceRewind (h : History) : History := h.takeWhile (·.rewind?.isNone)

/-- The last rewind was a skip, which takes the cursor to the end of the timeline. -/
def rewoundToEnd (h : History) : Bool := lastRewind? h matches some (.skip _)

/-- Since anything took playback over a skip has come to its end, and what took it over was a load
or a reset by the listener of this skip. -/
def rewoundInSkip : History → Bool
  | [] => false
  | .skipped _ :: h => !rewoundToEnd h
  | e :: h => !e.takesOver && rewoundInSkip h

/-! ### One event more -/

section Cons

variable {n : Nat} {e : Event}

lemma since_cons (he : e.begins n = false) (h : History) : since n (e :: h) = e :: since n h :=
  List.takeWhile_cons_of_pos (by simp [he])

lemma takenOver_cons (he : e.begins n = false) (h : History) :
    takenOver n (e :: h) = (e.takesOver || takenOver n h) := by
  simp [takenOver, since_cons he]

lemma stopped_cons (he : e.begins n = false) (h : History) :
    stopped n (e :: h) = (e.stops || stopped n h) := by
  simp [stopped, since_cons he]

lemma outset_cons (he : e.begins n = false) (timing : Timing) (h : History) :
    outset timing n (e :: h) = outset timing n h := by
  simp [outset, he]

lemma running_cons (he : e.begins n = false) (h : History) :
    running n (e :: h) = (running n h && !e.ends n) := by
  simp only [running, List.any_cons, he, Bool.false_or, Bool.not_or]
  cases h.any (·.begins n) <;> cases e.ends n <;> simp

lemma live_cons (he : e.begins n = false) (h : History) :
    Live n (e :: h) ↔ Live n h ∧ e.ends n = false ∧ e.takesOver = false := by
  simp only [Live, running_cons he, takenOver_cons he, Bool.and_eq_true, Bool.or_eq_false_iff,
    Bool.not_eq_true']
  tauto

lemma own_cons (h : History) :
    own n (e :: h) = if e.play? = some n then e :: own n h else own n h := by
  simp [own, List.filter_cons]

lemma own_append (later past : History) : own n (later ++ past) = own n later ++ own n past :=
  List.filter_append ..

lemma deliveries_append (later past : History) :
    deliveries (later ++ past) = deliveries past ++ deliveries later := by
  simp [deliveries]

lemma deliveries_cons (h : History) :
    deliveries (e :: h) = deliveries h ++ e.delivery?.toList := by
  cases hd : e.delivery? <;> simp [deliveries, hd]

lemma rewoundToEnd_cons (hr : e.rewind? = none) (h : History) :
    rewoundToEnd (e :: h) = rewoundToEnd h := by
  simp [rewoundToEnd, lastRewind?, hr]

lemma rewoundInSkip_cons (he : ∀ t, e ≠ .skipped t) (h : History) :
    rewoundInSkip (e :: h) = (!e.takesOver && rewoundInSkip h) := by
  cases e with
  | skipped t => exact absurd rfl (he t)
  | _ => rfl

@[simp] lemma since_began (n t : Nat) (h : History) : since n (.began n t :: h) = [] := by
  simp [since, Event.begins]

@[simp] lemma takenOver_began (n t : Nat) (h : History) :
    takenOver n (.began n t :: h) = false := by
  simp [takenOver]

@[simp] lemma stopped_began (n t : Nat) (h : History) :
    stopped n (.began n t :: h) = false := by
  simp [stopped]

@[simp] lemma outset_began (timing : Timing) (n t : Nat) (h : History) :
    outset timing n (.began n t :: h) = (player timing h).begin := by
  simp [outset, Event.begins, Event.apply]

end Cons

/-! ### Taking over -/

/-- The generation counts what has taken playback over since a play began. -/
lemma generation_eq {n : Nat} {h : History} (timing : Timing) (hb : h.any (·.begins n) = true) :
    (player timing h).generation =
      (outset timing n h).generation + (since n h).countP Event.takesOver := by
  induction h with
  | nil => cases hb
  | cons e h ih =>
    by_cases he : e.begins n = true
    · simp [outset, since, he]
    · rw [Bool.not_eq_true] at he
      rw [player_cons, Event.generation_apply, ih (by simpa [he] using hb), outset_cons he,
        since_cons he, List.countP_cons, Nat.add_assoc]

/-- A play has been taken over exactly when its generation is no longer the current one. -/
lemma takenOver_iff {n : Nat} {h : History} (timing : Timing) (hb : h.any (·.begins n) = true) :
    takenOver n h = true ↔ (player timing h).generation ≠ (outset timing n h).generation := by
  rw [generation_eq timing hb, takenOver, List.any_eq_true, ← List.countP_pos_iff]
  omega

lemma timeline_eq {n : Nat} {h : History} (timing : Timing) (hb : h.any (·.begins n) = true)
    (ht : takenOver n h = false) :
    (player timing h).timeline = (outset timing n h).timeline := by
  induction h with
  | nil => cases hb
  | cons e h ih =>
    by_cases he : e.begins n = true
    · simp [outset, he]
    · rw [Bool.not_eq_true] at he
      rw [takenOver_cons he, Bool.or_eq_false_iff] at ht
      rw [player_cons, Event.timeline_apply (Event.rewind?_eq_none ht.1),
        ih (by simpa [he] using hb) ht.2, outset_cons he]

lemma timing_player (timing : Timing) (h : History) : (player timing h).timing = timing := by
  induction h with
  | nil => rfl
  | cons e h ih => exact (Event.timing_apply e _).trans ih

/-- After a load the timeline is that of the elements until playback is rewound again. -/
lemma timeline_of_load {elements : List Element} {h : History} (timing : Timing)
    (hl : lastRewind? h = some (.load elements)) :
    (player timing h).timeline = Timeline.build timing elements := by
  induction h with
  | nil => cases hl
  | cons e h ih =>
    rw [player_cons]
    cases hr : e.rewind? with
    | none =>
      rw [Event.timeline_apply hr]
      exact ih (by simpa [lastRewind?, hr] using hl)
    | some c =>
      obtain rfl : c = .load elements := by simpa [lastRewind?, hr] using hl
      obtain ⟨t, rfl⟩ := Event.eq_of_rewind? hr
      conv_rhs => rw [← timing_player timing h]
      rfl

lemma begun_of_running {n : Nat} {h : History} (hr : running n h = true) :
    h.any (·.begins n) = true := by
  simp only [running, Bool.and_eq_true] at hr
  exact hr.1

/-- Of two plays the later one takes over from the other. -/
lemma Live.unique {m n : Nat} {h : History} (hm : Live m h) (hn : Live n h) : m = n := by
  have step : ∀ h : History, h.any (·.begins m) = true → h.any (·.begins n) = true →
      takenOver m h = false → takenOver n h = false → m = n := by
    intro h
    induction h with
    | nil => exact fun hm => by cases hm
    | cons e h ih =>
      intro hm hn htm htn
      by_cases hem : e.begins m = true <;> by_cases hen : e.begins n = true
      · obtain ⟨t, rfl⟩ := Event.eq_of_begins hem
        exact eq_of_beq hen
      · obtain ⟨t, rfl⟩ := Event.eq_of_begins hem
        rw [takenOver_cons (by simpa using hen)] at htn
        cases htn
      · obtain ⟨t, rfl⟩ := Event.eq_of_begins hen
        rw [takenOver_cons (by simpa using hem)] at htm
        cases htm
      · rw [Bool.not_eq_true] at hem hen
        rw [takenOver_cons hem, Bool.or_eq_false_iff] at htm
        rw [takenOver_cons hen, Bool.or_eq_false_iff] at htn
        exact ih (by simpa [hem] using hm) (by simpa [hen] using hn) htm.2 htn.2
  exact step h (begun_of_running hm.1) (begun_of_running hn.1) hm.2 hn.2

end History
end LessonScript
