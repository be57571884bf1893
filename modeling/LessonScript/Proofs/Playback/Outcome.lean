import LessonScript.Proofs.Playback.Delivery

/-!
# How a play ends

A play that a control has taken from does nothing more than end: at most it still moves the cursor
behind the entry whose delivery was being answered with a stop. It ends once, with the outcome
that the controls since its beginning call for, and when that is completion it has delivered all
that was left of the timeline.
-/

namespace LessonScript
namespace History

variable {timing : Timing} {n : Nat} {h later past : History} {e : Event}

/-! ### The acts of a play -/

lemma Lawful.act_cases (hl : Lawful timing h) (hf : Follows timing h e)
    (hb : h.any (·.begins n) = true) (hp : e.play? = some n) :
    running n h = true ∧
      ((∃ entry t, e = .shown (.play n) entry t ∧ verdict n h = .completed) ∨
        (∃ entry t, e = .moved n ((player timing h).cursor + 1) t ∧
          answering? h = some (n, entry) ∧ takenOver n h = false) ∨
        ∃ t, e = .ended n (verdict n h) t) := by
  cases hf with
  | controlled c t => cases hp
  | skipping entry t => cases hp
  | skipped t => cases hp
  | began t ha hs =>
    have := hl.not_begins (.began t ha hs) hb
    simp_all [Event.play?, Event.begins]
  | shown m entry t hr _ ht hs =>
    cases hp
    exact ⟨hr, .inl ⟨entry, t, rfl, verdict_eq_completed.2 ⟨ht, hs⟩⟩⟩
  | moved m entry t ha ht =>
    cases hp
    exact ⟨hl.running_of_answering ha, .inr (.inl ⟨entry, t, rfl, ha, ht⟩)⟩
  | ended m t hr =>
    cases hp
    exact ⟨hr, .inr (.inr ⟨t, rfl⟩)⟩

lemma ends_eq_false (hp : e.play? ≠ some n) : e.ends n = false := by
  rw [← Bool.not_eq_true]
  exact fun he => hp (Event.play?_of_ends he)

lemma Lawful.own_of_ended (hl : Lawful timing (later ++ past)) (hb : past.any (·.begins n) = true)
    (hr : running n past = false) : own n later = [] ∧ running n (later ++ past) = false := by
  induction later with
  | nil => exact ⟨rfl, hr⟩
  | cons e later ih =>
    rw [List.cons_append] at hl ⊢
    obtain ⟨hl, hf⟩ := hl.uncons
    obtain ⟨hown, hrun⟩ := ih hl
    have hb' : (later ++ past).any (·.begins n) = true := by simp [hb]
    have hp : e.play? ≠ some n := by
      intro hp
      rw [(hl.act_cases hf hb' hp).1] at hrun
      cases hrun
    refine ⟨by rw [own_cons, if_neg hp, hown], ?_⟩
    rw [running_cons (hl.not_begins hf hb'), hrun]
    rfl

/-- The last act of a play that is being answered is the delivery. -/
lemma own_of_answering {entry : Entry} (ha : answering? h = some (n, entry)) :
    ∃ t rest, own n h = .shown (.play n) entry t :: rest := by
  induction h with
  | nil => cases ha
  | cons e h ih =>
    match e, ha with
    | .controlled c t, ha => exact ih ha
    | .shown .skip entry t, ha => exact ih ha
    | .skipped t, ha => exact ih ha
    | .shown (.play m) entry t, ha => cases ha; exact ⟨t, own n h, by simp [own, Event.play?]⟩

/-- While a play is being answered it does nothing, and nothing moves the cursor that does not take
over. -/
lemma answering?_of_append (timing : Timing) {entry : Entry}
    (ha : answering? (later ++ past) = some (n, entry)) (hown : own n later = [])
    (ht : takenOver n (later ++ past) = false) :
    answering? past = some (n, entry) ∧
      (player timing (later ++ past)).cursor = (player timing past).cursor := by
  induction later with
  | nil => exact ⟨ha, rfl⟩
  | cons e later ih =>
    have hb : e.begins n = false := by
      rw [← Bool.not_eq_true]
      intro hb
      simp [own_cons, Event.play?_of_begins hb] at hown
    rw [List.cons_append, takenOver_cons hb, Bool.or_eq_false_iff] at ht
    have hc : (∀ m c t, e ≠ .moved m c t) → (player timing (e :: later ++ past)).cursor =
        (player timing (later ++ past)).cursor :=
      fun hm => Event.cursor_apply (Event.rewind?_eq_none ht.1) hm _
    match e, ha with
    | .controlled c t, ha =>
      rw [hc (by simp)]
      exact ih ha hown ht.2
    | .shown .skip entry t, ha =>
      rw [hc (by simp)]
      exact ih ha hown ht.2
    | .skipped t, ha =>
      rw [hc (by simp)]
      exact ih ha hown ht.2
    | .shown (.play m) entry t, ha =>
      cases ha
      simp [own_cons, Event.play?] at hown

/-- The move past the entry whose delivery was being answered at a past moment. -/
inductive MovePast (timing : Timing) (n : Nat) (past : History) : History → Prop
  | none : MovePast timing n past []
  | one (entry : Entry) (t : Nat) (ha : answering? past = some (n, entry))
      (ht : takenOver n past = false) :
      MovePast timing n past [.moved n ((player timing past).cursor + 1) t]

/-- A play that has been taken over or stopped ends, after at most one move. -/
lemma Lawful.own_of_interrupted (hl : Lawful timing (later ++ past)) (hr : running n past = true)
    (hv : verdict n past ≠ .completed) :
    verdict n (later ++ past) ≠ .completed ∧
      (takenOver n past = true → takenOver n (later ++ past) = true) ∧
      ∃ moves, MovePast timing n past moves ∧
        (running n (later ++ past) = true ∧ own n later = moves ∨
          running n (later ++ past) = false ∧ ∃ o t, o ≠ .completed ∧
            (takenOver n past = true → o = .superseded) ∧ own n later = .ended n o t :: moves) := by
  induction later with
  | nil => exact ⟨hv, id, [], .none, .inl ⟨hr, rfl⟩⟩
  | cons e later ih =>
    rw [List.cons_append] at hl ⊢
    obtain ⟨hl, hf⟩ := hl.uncons
    obtain ⟨hv', hto, moves, hm, hstate⟩ := ih hl
    have hb' : (later ++ past).any (·.begins n) = true := by simp [begun_of_running hr]
    have hbe := hl.not_begins hf hb'
    have hve : verdict n (e :: (later ++ past)) ≠ .completed := by
      rw [ne_eq, verdict_eq_completed] at hv' ⊢
      rw [takenOver_cons hbe, stopped_cons hbe, Bool.or_eq_false_iff, Bool.or_eq_false_iff]
      tauto
    refine ⟨hve, fun ht => by rw [takenOver_cons hbe, hto ht, Bool.or_true], ?_⟩
    rw [running_cons hbe, own_cons]
    by_cases hp : e.play? = some n
    · rw [if_pos hp]
      obtain ⟨hrun, ⟨_, _, _, hc⟩ | ⟨entry, t, rfl, ha, ht⟩ | ⟨t, rfl⟩⟩ := hl.act_cases hf hb' hp
      · exact absurd hc hv'
      · -- the delivery that is being answered is older than the control
        have hown : own n later = [] := by
          obtain ⟨_, _, hshown⟩ := own_of_answering ha
          rw [own_append] at hshown
          obtain ⟨-, hown⟩ | ⟨hend, -⟩ := hstate
          · cases hm <;> simp_all
          · rw [hrun] at hend
            cases hend
        obtain ⟨hpast, hc⟩ := answering?_of_append timing ha hown ht
        have htp : takenOver n past = false := by
          rw [← Bool.not_eq_true]
          exact fun htp => by rw [hto htp] at ht; cases ht
        rw [hrun, hown, hc]
        exact ⟨_, .one entry t hpast htp, .inl ⟨rfl, rfl⟩⟩
      · obtain ⟨-, hown⟩ | ⟨hend, -⟩ := hstate
        · refine ⟨moves, hm, .inr ⟨by simp [Event.ends], _, t, hv', fun ht => ?_, by rw [hown]⟩⟩
          rw [verdict, hto ht, if_pos rfl]
        · rw [hrun] at hend
          cases hend
    · rw [if_neg hp, ends_eq_false hp, Bool.not_false, Bool.and_true]
      exact ⟨moves, hm, hstate⟩

/-! ### What a play has delivered -/

/-- While nothing takes a play over, it alone delivers, and nothing is rewound or loaded. -/
lemma Lawful.of_live_append (hl : Lawful timing (later ++ past))
    (hb : past.any (·.begins n) = true) (hn : Live n (later ++ past)) :
    deliveries (own n later) = deliveries later ∧
      lastRewind? (later ++ past) = lastRewind? past ∧
      sinceRewind (later ++ past) = later ++ sinceRewind past ∧
      (player timing (later ++ past)).timeline = (player timing past).timeline := by
  induction later with
  | nil => exact ⟨rfl, rfl, rfl, rfl⟩
  | cons e later ih =>
    rw [List.cons_append] at hl hn
    obtain ⟨hl, hf⟩ := hl.uncons
    have hb' : (later ++ past).any (·.begins n) = true := by simp [hb]
    obtain ⟨hn, -, hto⟩ := (live_cons (hl.not_begins hf hb') _).1 hn
    obtain ⟨hown, hlast, hsince, htl⟩ := ih hl hn
    have hr := Event.rewind?_eq_none hto
    refine ⟨?_, ?_, ?_, ?_⟩
    · rw [own_cons]
      split
      case isTrue => rw [deliveries_cons, deliveries_cons, hown]
      case isFalse hp =>
        have hd : e.delivery? = none := by
          cases hf with
          | shown m entry t hrun _ ht =>
            obtain rfl := Live.unique ⟨hrun, ht⟩ hn
            exact absurd rfl hp
          | _ => rfl
        rw [deliveries_cons, hown, hd]
        exact (List.append_nil _).symm
    · rw [← hlast]
      simp [lastRewind?, hr]
    · rw [List.cons_append, List.cons_append, ← hsince]
      simp [sinceRewind, hr]
    · rw [← htl]
      exact Event.timeline_apply hr _

/-- A play goes on where the cursor stood when it began. -/
theorem Lawful.delivered {t : Nat} (hl : Lawful timing (later ++ .began n t :: past))
    (hn : Live n (later ++ .began n t :: past)) :
    (player timing past).timeline.take (player timing past).cursor ++
        (deliveries (own n later)).map Prod.fst =
      (player timing past).timeline.take (player timing (later ++ .began n t :: past)).cursor ++
        ahead (later ++ .began n t :: past) := by
  obtain ⟨hown, hlast, hsince, htl⟩ := hl.of_live_append (by simp [Event.begins]) hn
  obtain ⟨hlp, hfp⟩ := hl.tail.uncons
  have hpast := hlp.told
  have hnow := hl.told
  have ha : answering? past = none := by cases hfp with | began t ha => exact ha
  have hlast' : lastRewind? (.began n t :: past) = lastRewind? past := rfl
  have hsince' : sinceRewind (.began n t :: past) = .began n t :: sinceRewind past := rfl
  have htl' : (player timing (.began n t :: past)).timeline = (player timing past).timeline := rfl
  have hd : deliveries (later ++ .began n t :: sinceRewind past) =
      deliveries (sinceRewind past) ++ deliveries later := by
    rw [deliveries_append, deliveries_cons]
    simp [Event.delivery?]
  rw [ahead_of_answering_none ha, Told] at hpast
  rw [Told, hlast, hlast', hsince, hsince', htl, htl', hd] at hnow
  rw [hown]
  split at hpast
  case h_1 hskip =>
    rw [hskip] at hnow
    obtain ⟨hc, hnone, hahead⟩ := hnow
    obtain ⟨-, hnone⟩ := List.append_eq_nil_iff.1 hnone
    rw [hpast.1, hc, hnone, hahead]
    rfl
  case h_2 =>
    rw [List.append_nil] at hpast
    simp only at hnow
    rw [← hpast, ← List.map_append]
    exact hnow

/-- How a play comes to its end, told by a history in which every play has had its turn. -/
structure Concluded (timing : Timing) (h : History) (n : Nat) : Prop where
  /-- After a newer play, a load, a reset or a skip the play does nothing but end. -/
  superseded : ∀ later e past, h = later ++ e :: past → running n past = true →
    e.takesOver = true → ∃ t, own n later = [.ended n .superseded t]
  /-- After a stop it ends, and moves at most past the entry whose delivery the stop answers. -/
  stopped : ∀ later e past, h = later ++ e :: past → running n past = true → e.stops = true →
    ∃ o t moves, o ≠ .completed ∧ MovePast timing n past moves ∧
      own n later = .ended n o t :: moves
  /-- What it still does delivers nothing and leaves state and generation alone. -/
  inert : ∀ later e past, h = later ++ e :: past → running n past = true →
    e.takesOver = true ∨ e.stops = true → deliveries (own n later) = [] ∧
      ∀ act ∈ own n later, ∀ p : Player,
        (act.apply p).state = p.state ∧ (act.apply p).generation = p.generation
  /-- The end is its last act, and the outcome is what has happened since its beginning. -/
  ended : ∀ later o t past, h = later ++ .ended n o t :: past →
    own n later = [] ∧ running n past = true ∧ o = verdict n past
  /-- A play that completes has delivered all that was left when it began. -/
  completed : ∀ later t mid t₀ past,
    h = later ++ .ended n .completed t :: (mid ++ .began n t₀ :: past) →
    (deliveries (own n mid)).map Prod.fst =
        (player timing past).timeline.drop (player timing past).cursor ∧
      (player timing (.ended n .completed t :: (mid ++ .began n t₀ :: past))).state = .completed

lemma Lawful.conclude (hl : Lawful timing (later ++ e :: past)) (hr : running n past = true)
    (he : e.takesOver = true ∨ e.stops = true)
    (hend : running n (later ++ e :: past) = true →
      verdict n (later ++ e :: past) = .completed) :
    ∃ o t moves, o ≠ .completed ∧ (e.takesOver = true → o = .superseded ∧ moves = []) ∧
      MovePast timing n past moves ∧ own n later = .ended n o t :: moves := by
  obtain ⟨hlp, hf⟩ := hl.tail.uncons
  have hb := hlp.not_begins hf (begun_of_running hr)
  have hre : running n (e :: past) = true := by
    rw [running_cons hb, hr]
    cases e with
    | ended m o t => simp [Event.takesOver, Event.stops] at he
    | _ => rfl
  have hv : verdict n (e :: past) ≠ .completed := by
    rw [ne_eq, verdict_eq_completed, takenOver_cons hb, stopped_cons hb]
    rcases he with he | he <;> simp [he]
  obtain ⟨hv', -, moves, hm, ⟨hrun, -⟩ | ⟨-, o, t, ho, hsup, hown⟩⟩ := hl.own_of_interrupted hre hv
  · exact absurd (hend hrun) hv'
  · refine ⟨o, t, moves, ho, fun ht => ?_, ?_, hown⟩
    · have hto : takenOver n (e :: past) = true := by simp [takenOver_cons hb, ht]
      refine ⟨hsup hto, ?_⟩
      cases hm with
      | none => rfl
      | one _ _ _ ht => simp [hto] at ht
    · cases hm with
      | none => exact .none
      | one entry t ha ht =>
        rw [takenOver_cons hb, Bool.or_eq_false_iff] at ht
        -- a stop leaves the answer and the cursor as they are
        cases e with
        | controlled c _ =>
          cases c with
          | stop => exact .one entry t ha ht.2
          | load | reset | skip => cases ht.1
          | pause | resume => simp [Event.takesOver, Event.stops, Control.rewinds] at he
        | began => cases ha
        | _ => simp [Event.takesOver, Event.stops] at he

theorem Lawful.concluded (hl : Lawful timing h)
    (hend : running n h = true → verdict n h = .completed) : Concluded timing h n where
  superseded := by
    rintro later e past rfl hr he
    obtain ⟨o, t, moves, -, hsup, -, hown⟩ := hl.conclude hr (.inl he) hend
    obtain ⟨rfl, rfl⟩ := hsup he
    exact ⟨t, hown⟩
  stopped := by
    rintro later e past rfl hr he
    obtain ⟨o, t, moves, ho, -, hm, hown⟩ := hl.conclude hr (.inr he) hend
    exact ⟨o, t, moves, ho, hm, hown⟩
  inert := by
    rintro later e past rfl hr he
    obtain ⟨o, t, moves, ho, -, hm, hown⟩ := hl.conclude hr he hend
    rw [hown]
    have hlast : ∀ p : Player, (Event.ended n o t).apply p = p := by
      cases o with
      | completed => exact absurd rfl ho
      | stopped | superseded => exact fun _ => rfl
    refine ⟨by cases hm <;> rfl, fun act hact p => ?_⟩
    rcases List.mem_cons.1 hact with rfl | hact
    · rw [hlast]
      exact ⟨rfl, rfl⟩
    · cases hm with
      | none => cases hact
      | one =>
        obtain rfl := List.mem_singleton.1 hact
        exact ⟨rfl, rfl⟩
  ended := by
    rintro later o t past rfl
    obtain ⟨hlp, hf⟩ := hl.tail.uncons
    cases hf with
    | ended _ _ hr =>
      refine ⟨?_, hr, rfl⟩
      refine (hl.own_of_ended (by simp [begun_of_running hr]) ?_).1
      rw [running_cons rfl, hr]
      simp [Event.ends]
  completed := by
    rintro later t mid t₀ past rfl
    refine ⟨?_, rfl⟩
    obtain ⟨hlp, hf⟩ := hl.tail.uncons
    generalize ho : Outcome.completed = o at hf
    cases hf with
    | ended _ _ hr ha hc =>
      obtain ⟨ht, -⟩ := verdict_eq_completed.1 ho.symm
      have hn : Live n (mid ++ .began n t₀ :: past) := ⟨hr, ht⟩
      have hdone := hc ho.symm
      have hnone : answering? (mid ++ .began n t₀ :: past) = none := by
        rw [Option.eq_none_iff_forall_not_mem]
        intro a hans
        have := (ha a hans).2
        rw [ht] at this
        cases this
      have hd := hlp.delivered hn
      have htl : (player timing (mid ++ .began n t₀ :: past)).timeline =
          (player timing past).timeline :=
        (hlp.of_live_append (by simp [Event.begins]) hn).2.2.2
      rw [htl] at hdone
      rw [ahead_of_answering_none hnone, List.append_nil, List.take_of_length_le hdone] at hd
      refine List.append_cancel_left (hd.trans ?_)
      exact (List.take_append_drop ..).symm

end History

namespace Session
open History

/-- A play that is under way when every play has had its turn has not been interrupted. -/
lemma Settled.verdict_of_running {timing : Timing} {s : Session} {n : Nat}
    (hs : Settled timing s) (hn : running n s.history = true) :
    verdict n s.history = .completed := by
  obtain ⟨t, ht, rfl⟩ := hs.during.1.all n hn
  obtain ⟨w, hw, rfl⟩ := List.mem_map.1 ht
  exact (hs.standing w hw).verdict

/-- After every step each play that a control has taken from has ended, once and without another
delivery, and each end tells why. -/
theorem concluded_after (timing : Timing) (clock : Clock) (steps : List SessionStep) :
    (after timing clock steps).player = History.player timing (after timing clock steps).history ∧
      ∀ n, Concluded timing (after timing clock steps).history n := by
  have hs := (settled_after timing clock steps).1
  exact ⟨hs.during.1.player, fun n => hs.during.1.lawful.concluded hs.verdict_of_running⟩

end Session
end LessonScript
