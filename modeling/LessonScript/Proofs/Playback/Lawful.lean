import LessonScript.Proofs.Playback.History

/-!
# Lawful histories

The rules of playback say which event may follow a history. Controls are free. No play begins while
a skip is under way, and the skip takes over from those that have begun. A play may deliver only
while nothing has taken it over or stopped it, and only the entry at the cursor; it ends with the
outcome that the events since its beginning call for. From these rules alone follows what a state of
the player says about its cursor and about the plays that are under way.
-/

namespace LessonScript
namespace History

/-- The events that may happen after a history. -/
inductive Follows (timing : Timing) (h : History) : Event → Prop
  | controlled (c : Control) (t : Nat) : Follows timing h (.controlled c t)
  | skipping (entry : Entry) (t : Nat) (hs : 0 < openSkips h) :
      Follows timing h (.shown .skip entry t)
  | skipped (t : Nat) (hs : 0 < openSkips h) : Follows timing h (.skipped t)
  | began (t : Nat) (ha : answering? h = none) (hs : openSkips h = 0) :
      Follows timing h (.began (plays h) t)
  | shown (n : Nat) (entry : Entry) (t : Nat) (hr : running n h = true)
      (ha : answering? h = none) (ht : takenOver n h = false) (hs : stopped n h = false)
      (he : (player timing h).timeline[(player timing h).cursor]? = some entry) :
      Follows timing h (.shown (.play n) entry t)
  | moved (n : Nat) (entry : Entry) (t : Nat) (ha : answering? h = some (n, entry))
      (ht : takenOver n h = false) : Follows timing h (.moved n ((player timing h).cursor + 1) t)
  | ended (n : Nat) (t : Nat) (hr : running n h = true)
      (ha : ∀ a, answering? h = some a → a.1 = n ∧ takenOver n h = true)
      (hc : verdict n h = .completed →
        (player timing h).timeline.length ≤ (player timing h).cursor) :
      Follows timing h (.ended n (verdict n h) t)

inductive Lawful (timing : Timing) : History → Prop
  | nil : Lawful timing []
  | cons {h : History} {e : Event} (hl : Lawful timing h) (hf : Follows timing h e) :
      Lawful timing (e :: h)

variable {timing : Timing} {h : History} {n : Nat} {e : Event}

lemma Lawful.uncons (hl : Lawful timing (e :: h)) : Lawful timing h ∧ Follows timing h e := by
  cases hl with
  | cons hl hf => exact ⟨hl, hf⟩

lemma Lawful.tail {later past : History} (hl : Lawful timing (later ++ past)) :
    Lawful timing past := by
  induction later with
  | nil => exact hl
  | cons e later ih => exact ih hl.uncons.1

/-- The play that is being answered is under way, and what answers it happened after it began. -/
lemma Lawful.running_of_answering (hl : Lawful timing h) {entry : Entry}
    (ha : answering? h = some (n, entry)) : running n h = true := by
  induction hl with
  | nil => cases ha
  | cons hl hf ih =>
    cases hf with
    | controlled c t => rw [running_cons rfl, ih ha]; rfl
    | skipping entry t hs => rw [running_cons rfl, ih ha]; rfl
    | skipped t hs => rw [running_cons rfl, ih ha]; rfl
    | began t _ => cases ha
    | shown m entry t hr =>
      obtain ⟨rfl, -⟩ : m = n ∧ _ := by simpa [answering?] using ha
      rw [running_cons rfl, hr]
      rfl
    | moved => cases ha
    | ended => cases ha

/-- Plays are numbered in the order in which they begin, and none acts before it begins. -/
lemma Lawful.lt_plays (hl : Lawful timing h) (he : e ∈ h) (hn : e.play? = some n) :
    n < plays h := by
  induction hl generalizing e n with
  | nil => cases he
  | @cons h f hl hf ih =>
    have grow : plays h ≤ plays (f :: h) := by
      simp only [plays, List.countP_cons]
      exact Nat.le_add_right ..
    have old : ∀ {m}, running m h = true → m < plays h := by
      intro m hr
      obtain ⟨b, hb, hbm⟩ := List.any_eq_true.1 (begun_of_running hr)
      exact ih hb (Event.play?_of_begins hbm)
    rcases List.mem_cons.1 he with rfl | he
    · cases hf with
      | controlled c t => cases hn
      | skipping entry t => cases hn
      | skipped t => cases hn
      | began t =>
        obtain rfl : plays h = n := by simpa [Event.play?] using hn
        simp [plays]
      | shown m entry t hr =>
        cases hn
        exact Nat.lt_of_lt_of_le (old hr) grow
      | moved m entry t ha =>
        cases hn
        exact Nat.lt_of_lt_of_le (old (hl.running_of_answering ha)) grow
      | ended m t hr =>
        cases hn
        exact Nat.lt_of_lt_of_le (old hr) grow
    · exact Nat.lt_of_lt_of_le (ih he hn) grow

lemma Lawful.not_begins (hl : Lawful timing h) (hf : Follows timing h e)
    (hb : h.any (·.begins n) = true) : e.begins n = false := by
  cases hf with
  | began t ha =>
    obtain ⟨b, hb, hbn⟩ := List.any_eq_true.1 hb
    have := hl.lt_plays hb (Event.play?_of_begins hbn)
    simp only [Event.begins, beq_eq_false_iff_ne]
    omega
  | _ => rfl

lemma Lawful.running_began (hl : Lawful timing h) (t : Nat) :
    running (plays h) (.began (plays h) t :: h) = true := by
  have fresh : h.any (·.ends (plays h)) = false := by
    rw [List.any_eq_false]
    intro e he hend
    exact absurd (hl.lt_plays he (Event.play?_of_ends hend)) (Nat.lt_irrefl _)
  simp only [running, List.any_cons, fresh]
  simp [Event.begins, Event.ends]

/-- The answered entry stands at the cursor as long as the answer does not take playback over. -/
lemma Lawful.entry_of_answering (hl : Lawful timing h) {entry : Entry}
    (ha : answering? h = some (n, entry)) (ht : takenOver n h = false) :
    (player timing h).timeline[(player timing h).cursor]? = some entry := by
  induction hl with
  | nil => cases ha
  | cons hl hf ih =>
    cases hf with
    | controlled c t =>
      rw [takenOver_cons rfl, Bool.or_eq_false_iff] at ht
      have hr := Event.rewind?_eq_none ht.1
      rw [player_cons, Event.timeline_apply hr, Event.cursor_apply hr (by simp)]
      exact ih ha ht.2
    | skipping entry t hs => exact ih ha (by rw [takenOver_cons rfl] at ht; exact ht)
    | skipped t hs => exact ih ha (by rw [takenOver_cons rfl] at ht; exact ht)
    | began t _ => cases ha
    | shown m entry t hr _ _ _ he =>
      obtain ⟨-, rfl⟩ : _ ∧ entry = _ := by simpa [answering?] using ha
      exact he
    | moved => cases ha
    | ended => cases ha

/-- A skip that is under way after an event was so before it, unless it is the event. -/
lemma Follows.openSkips_pos (hf : Follows timing h e) (hr : e.rewind? = none)
    (hs : 0 < openSkips (e :: h)) : 0 < openSkips h := by
  cases hf with
  | controlled c t =>
    cases c with
    | load | reset | skip => cases hr
    | pause | resume | stop => exact hs
  | skipped t hopen => exact hopen
  | _ => exact hs

/-- A skip under way has taken over from every play. -/
lemma Lawful.takenOver_of_openSkips (hl : Lawful timing h) (hs : 0 < openSkips h)
    (hb : h.any (·.begins n) = true) : takenOver n h = true := by
  induction hl with
  | nil => cases hb
  | @cons h e hl hf ih =>
    have hnew : e.begins n = false := by
      cases hf with
      | began t ha hnone => exact absurd hnone (Nat.ne_of_gt hs)
      | _ => rfl
    rw [takenOver_cons hnew]
    cases hr : e.rewind? with
    | some c =>
      obtain ⟨t, rfl⟩ := Event.eq_of_rewind? hr
      have hrewinds : c.rewinds = true := by simpa [Event.rewind?] using hr
      rw [Event.takesOver, hrewinds, Bool.true_or]
    | none =>
      rw [List.any_cons, hnew, Bool.false_or] at hb
      rw [ih (hf.openSkips_pos hr hs) hb, Bool.or_true]

/-- While a skip is under way, the cursor stands where the last rewind has taken it. -/
lemma Lawful.cursor_of_openSkips (hl : Lawful timing h) (hs : 0 < openSkips h) :
    (player timing h).cursor =
      if rewoundToEnd h then (player timing h).timeline.length else 0 := by
  induction hl with
  | nil => cases hs
  | @cons h e hl hf ih =>
    cases hr : e.rewind? with
    | some c =>
      obtain ⟨t, rfl⟩ := Event.eq_of_rewind? hr
      cases c with
      | load | reset | skip => rfl
      | pause | resume | stop => cases hr
    | none =>
      have hopen := hf.openSkips_pos hr hs
      have hmoved : ∀ m c t, e ≠ .moved m c t := by
        rintro m c t rfl
        cases hf with
        | moved _ entry _ ha ht =>
          have hb := begun_of_running (hl.running_of_answering ha)
          rw [hl.takenOver_of_openSkips hopen hb] at ht
          cases ht
      rw [rewoundToEnd_cons hr, player_cons, Event.timeline_apply hr, Event.cursor_apply hr hmoved,
        ih hopen]

lemma verdict_eq_completed :
    verdict n h = .completed ↔ takenOver n h = false ∧ stopped n h = false := by
  cases ht : takenOver n h <;> cases hs : stopped n h <;> simp [verdict, ht, hs]

/-! ### The state of the player -/

/-- While nothing takes a play over, the player is active until a stop, and then stopped. -/
theorem Lawful.state_of_live (hl : Lawful timing h) (hn : Live n h) :
    (player timing h).state.isActive = !stopped n h ∧
      (stopped n h = true → (player timing h).state = .stopped) := by
  induction hl with
  | nil => cases hn.1
  | @cons h e hl hf ih =>
    by_cases he : e.begins n = true
    · obtain ⟨t, rfl⟩ := Event.eq_of_begins he
      exact ⟨by rw [stopped_began]; rfl, fun hs => by simp at hs⟩
    · rw [Bool.not_eq_true] at he
      obtain ⟨hp, hend, hto⟩ := (live_cons he h).1 hn
      have ih := ih hp
      rw [stopped_cons he, player_cons]
      cases hf with
      | controlled c t =>
        cases c with
        | load | reset | skip => cases hto
        | stop => exact ⟨rfl, fun _ => rfl⟩
        | pause =>
          refine ⟨(Player.isActive_pause _).trans ih.1, fun hs => ?_⟩
          exact (congrArg _ (Player.pause_eq_self (by rw [ih.2 hs]; rfl))).trans (ih.2 hs)
        | resume =>
          refine ⟨(Player.isActive_resume _).trans ih.1, fun hs => ?_⟩
          exact (congrArg _ (Player.resume_eq_self (by rw [ih.2 hs]; rfl))).trans (ih.2 hs)
      | skipping entry t hs => exact ih
      | skipped t hs =>
        rw [Live, hl.takenOver_of_openSkips hs (begun_of_running hp.1)] at hp
        cases hp.2
      | began t _ => cases hto
      | shown m entry t => exact ih
      | moved m entry t => exact ih
      | ended m t hm =>
        cases hv : verdict m h with
        | completed =>
          -- the play that completes would have to be this one
          have := hp.unique ⟨hm, (verdict_eq_completed.1 hv).1⟩
          simp [Event.ends, this] at hend
        | stopped => exact ih
        | superseded => exact ih

/-- While the player is active, a play is under way that nothing has taken over. -/
theorem Lawful.exists_live (hl : Lawful timing h) (hs : (player timing h).state.isActive = true) :
    ∃ n, Live n h := by
  induction hl with
  | nil => cases hs
  | @cons h e hl hf ih =>
    rw [player_cons] at hs
    have keep : ∀ {n}, Live n h → e.ends n = false → e.takesOver = false → Live n (e :: h) :=
      fun hn he ht => (live_cons (hl.not_begins hf (begun_of_running hn.1)) h).2 ⟨hn, he, ht⟩
    cases hf with
    | controlled c t =>
      cases c with
      | load | reset | skip | stop => cases hs
      | pause =>
        obtain ⟨n, hn⟩ := ih (by rwa [← Player.isActive_pause])
        exact ⟨n, keep hn rfl rfl⟩
      | resume =>
        obtain ⟨n, hn⟩ := ih (by rwa [← Player.isActive_resume])
        exact ⟨n, keep hn rfl rfl⟩
    | skipping entry t =>
      obtain ⟨n, hn⟩ := ih hs
      exact ⟨n, keep hn rfl rfl⟩
    | skipped t => cases hs
    | began t => exact ⟨plays h, hl.running_began t, takenOver_began ..⟩
    | shown m entry t =>
      obtain ⟨n, hn⟩ := ih hs
      exact ⟨n, keep hn rfl rfl⟩
    | moved m entry t =>
      obtain ⟨n, hn⟩ := ih hs
      exact ⟨n, keep hn rfl rfl⟩
    | ended m t hm =>
      have hold : verdict m h ≠ .completed ∧ (player timing h).state.isActive = true := by
        cases hv : verdict m h <;> rw [hv] at hs
        · cases hs
        · exact ⟨by decide, hs⟩
        · exact ⟨by decide, hs⟩
      obtain ⟨n, hn⟩ := ih hold.2
      refine ⟨n, keep hn ?_ rfl⟩
      -- the play that ends is another one, since an active player has not been stopped
      have hstop : stopped n h = false := by
        simpa [hold.2] using (hl.state_of_live hn).1
      by_contra he
      obtain rfl : m = n := by simpa [Event.ends] using he
      exact hold.1 (verdict_eq_completed.2 ⟨hn.2, hstop⟩)

lemma Lawful.state_ne_of_live (hl : Lawful timing h) (hn : Live n h) :
    (player timing h).state ≠ .idle ∧ (player timing h).state ≠ .completed := by
  have hst := hl.state_of_live hn
  cases hs : stopped n h with
  | true => simp [hst.2 hs]
  | false =>
    constructor <;> intro h0 <;> simp [h0, hs, PlaybackState.isActive] at hst

/-- A play that nothing has taken over began after the end of every skip. -/
lemma Lawful.rewoundInSkip_of_live (hl : Lawful timing h) (hn : Live n h) :
    rewoundInSkip h = false := by
  induction hl with
  | nil => rfl
  | @cons h e hl hf ih =>
    by_cases he : e.begins n = true
    · obtain ⟨t, rfl⟩ := Event.eq_of_begins he
      rfl
    · obtain ⟨hp, -, hto⟩ := (live_cons (by simpa using he) h).1 hn
      cases hf with
      | skipped t hs =>
        rw [Live, hl.takenOver_of_openSkips hs (begun_of_running hp.1)] at hp
        cases hp.2
      | _ => rw [rewoundInSkip_cons (by simp), hto, ih hp]; rfl

/-- The state of a player says where its cursor can stand: an idle player is at the start of its
timeline. A completed one is at the end, unless the listener of a skip has rewound it before the
skip came to its end. -/
structure Placed (p : Player) (rewound : Bool) : Prop where
  cursor_le : p.cursor ≤ p.timeline.length
  idle : p.state = .idle → p.cursor = 0
  completed : p.state = .completed → p.cursor = if rewound then 0 else p.timeline.length

section Placed

variable {p : Player} {rewound : Bool}

lemma Placed.pause (hp : Placed p rewound) : Placed p.pause rewound := by
  unfold Player.pause
  split
  · exact ⟨hp.cursor_le, by simp, by simp⟩
  · exact hp

lemma Placed.resume (hp : Placed p rewound) : Placed p.resume rewound := by
  unfold Player.resume
  split
  · exact ⟨hp.cursor_le, by simp, by simp⟩
  · exact hp

end Placed

theorem Lawful.placed (hl : Lawful timing h) : Placed (player timing h) (rewoundInSkip h) := by
  induction hl with
  | nil => exact ⟨Nat.le_refl 0, fun _ => rfl, by simp [Player.idle]⟩
  | @cons h e hl hf ih =>
    rw [player_cons]
    cases hf with
    | controlled c t =>
      cases c with
      | load elements => exact ⟨Nat.zero_le _, fun _ => rfl, nofun⟩
      | reset => exact ⟨Nat.zero_le _, fun _ => rfl, nofun⟩
      | skip => exact ⟨Nat.le_refl _, nofun, nofun⟩
      | stop => exact ⟨ih.cursor_le, nofun, nofun⟩
      | pause => exact ih.pause
      | resume => exact ih.resume
    | skipping entry t hs => exact ih
    | skipped t hs =>
      refine ⟨ih.cursor_le, nofun, fun _ => (hl.cursor_of_openSkips hs).trans ?_⟩
      rw [rewoundInSkip]
      cases rewoundToEnd h <;> rfl
    | began t => exact ⟨ih.cursor_le, nofun, nofun⟩
    | shown n entry t => exact ih
    | moved n entry t ha ht =>
      have hst := hl.state_ne_of_live ⟨hl.running_of_answering ha, ht⟩
      obtain ⟨hlt, -⟩ := List.getElem?_eq_some_iff.1 (hl.entry_of_answering ha ht)
      exact ⟨hlt, fun hs => absurd hs hst.1, fun hs => absurd hs hst.2⟩
    | ended n t hr ha hc =>
      cases hv : verdict n h with
      | completed =>
        have hlive : Live n h := ⟨hr, (verdict_eq_completed.1 hv).1⟩
        refine ⟨ih.cursor_le, nofun, fun _ => ?_⟩
        rw [rewoundInSkip_cons (by simp), hl.rewoundInSkip_of_live hlive]
        exact Nat.le_antisymm ih.cursor_le (hc hv)
      | stopped => exact ih
      | superseded => exact ih

end History
end LessonScript
