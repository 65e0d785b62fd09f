import Mathlib.Data.List.Basic
import Typeahead.Proofs.Debounce.Sender

/-!
# The law of the slot

What a run shows is counted from its bookings.

- **Counts** (`countP_started`, `countP_ended`, `countP_remains`): the starts to come are those of
  the bookings that wait, the ends to come those of the bookings that wait or run. So the slot holds
  as many jobs as there are bookings that wait, and the active jobs are those that remain.
- **The law** (`run_lawful`): what the log, the number of active jobs and a wait for idleness are in
  any run, on a timeline and with senders.
-/

namespace Typeahead.Timeline

variable {ι : Type}

/-! ## Counts -/

/-- An event of one kind, for each element of which it can come. -/
theorem countP_flatMap_of {α β : Type} {f : α → List β} {p : β → Bool} {q : α → Bool}
    (h : ∀ a, (f a).countP p = if q a then 1 else 0) (xs : List α) :
    (xs.flatMap f).countP p = xs.countP q := by
  induction xs with
  | nil => rfl
  | cons x xs ih => simp [List.countP_append, List.countP_cons, h, ih, Nat.add_comm]

theorem load_le_one (t : Timeline ι) : t.slot.load ≤ 1 := by
  unfold Slot.load
  split <;> omega

theorem countP_outlook_started (t : Timeline ι) :
    t.outlook.countP (·.moment = .started) = t.slot.load := by
  cases h : t.slot.waiting <;>
    simp [outlook, Slot.load, h, Job.course, Running.last, List.countP_map, Function.comp_def]

theorem countP_outlook_ended (t : Timeline ι) :
    t.outlook.countP (·.moment = .ended) = t.running.length + t.slot.load := by
  cases h : t.slot.waiting <;>
    simp [outlook, Slot.load, h, Job.course, Running.last, List.countP_map, Function.comp_def]

theorem countP_started (plan : List (Booking ι)) (now : Nat) :
    (plan.flatMap Booking.events).countP (fun e => e.moment = .started ∧ now < e.clock) =
      plan.countP (·.Waits now) := by
  refine countP_flatMap_of (fun b => ?_) plan
  by_cases hb : b.Lasts <;> simp [Booking.events, Booking.Waits, hb, List.countP_cons]

theorem countP_ended (plan : List (Booking ι)) (now : Nat) :
    (plan.flatMap Booking.events).countP (fun e => e.moment = .ended ∧ now < e.clock) =
      plan.countP (fun b => b.Lasts ∧ now < b.stop) := by
  refine countP_flatMap_of (fun b => ?_) plan
  by_cases hb : b.Lasts <;> simp [Booking.events, hb, List.countP_cons]

/-- A job that lingers was called off. -/
theorem not_undisturbed_of_lingers {due : Nat} {later : List (Stamp ι)} (h : lingers due later) :
    ¬ Undisturbed due later := by
  induction later with
  | nil => cases h
  | cons s later ih =>
    intro hu
    obtain ⟨hs, hlater⟩ := List.forall_mem_cons.1 hu
    rw [lingers, if_neg (fun hcall => Nat.not_lt.2 (hs hcall.1) hcall.2)] at h
    exact ih h hlater

theorem countP_remains (plan : List (Booking ι)) (now : Nat) :
    plan.countP (·.Remains now) =
      plan.countP (fun b => b.Lasts ∧ now < b.stop) +
        plan.countP (fun b => lingers b.due b.later) := by
  induction plan with
  | nil => rfl
  | cons b plan ih =>
    have hone : (if b.Remains now then 1 else 0) =
        (if b.Lasts ∧ now < b.stop then 1 else 0) + if lingers b.due b.later then 1 else 0 := by
      by_cases hb : b.Lasts
      · have hlingers : lingers b.due b.later = false :=
          Bool.eq_false_iff.2 fun h => not_undisturbed_of_lingers h hb
        simp [Booking.Remains, hb, hlingers]
      · simp [Booking.Remains, hb]
    simp only [List.countP_cons, decide_eq_true_eq, ih, hone]
    omega

/-! ## The law -/

theorem Settled.countP_story {t : Timeline ι} (h : t.Settled) (moment : Moment) :
    t.story.countP (fun e => e.moment = moment ∧ t.clock < e.clock) =
      t.outlook.countP (·.moment = moment) := by
  rw [← h.outlook_perm.countP_eq, List.countP_filter]
  simp

/-- What becomes of the jobs in any run from the beginning. A job starts if and only if no later
call comes before it is due. Then it starts once, when it is due, and it ends after its running
time, whatever is called meanwhile. At most one job waits that was not called off. The active jobs
are those that have not ended and, if they were called off, are not yet forgotten. Who waits for
idleness waits until there are none, and no longer. It is the same with senders in the slot, of
which some belong to jobs that have started. -/
theorem run_lawful {steps : List (Step ι)} (hs : ∀ s ∈ steps, s.Timely) :
    let t := ({} : Timeline ι).run steps
    let plan := bookings (({} : Timeline ι).stamps steps)
    t.log.Perm ((plan.flatMap Booking.events).filter (·.clock ≤ t.clock)) ∧
    t.log.Pairwise (fun e e' => e'.clock ≤ e.clock) ∧
    plan.countP (·.Waits t.clock) ≤ 1 ∧
    t.active = plan.countP (·.Remains t.clock) ∧
    t.waitIdle.active = 0 ∧
    (∀ duration,
      (t.sleep duration).active = 0 ↔ t.waitIdle.clock ≤ (t.sleep duration).clock) ∧
    (({} : Crew ι).run steps).Agrees t := by
  dsimp only
  obtain ⟨hsettled, hstory⟩ := Settled.initial.run_story hs
  have hdropped := Settled.initial.run_dropped hs
  have hbefore : ({} : Timeline ι).stands (({} : Timeline ι).stamps steps) = [] := by simp [stands]
  have hnone : ({} : Timeline ι).remnants (({} : Timeline ι).stamps steps) = 0 := by
    simp [remnants]
  rw [hbefore, List.nil_append] at hstory
  rw [hnone, Nat.zero_add] at hdropped
  have hstarted := hsettled.countP_story .started
  rw [hstory.countP_eq, countP_started, countP_outlook_started] at hstarted
  have hended := hsettled.countP_story .ended
  rw [hstory.countP_eq, countP_ended, countP_outlook_ended] at hended
  refine ⟨?_, hsettled.ordered, ?_, ?_, ?_, fun duration => ?_, Crew.run_agrees steps⟩
  · exact hsettled.log_perm.symm.trans (hstory.filter _)
  · exact Nat.le_trans (Nat.le_of_eq hstarted) (load_le_one _)
  · rw [countP_remains, hended, ← hdropped, active, Slot.active]
    omega
  · exact hsettled.waitIdle.active_eq_zero_iff.2 (outlook_waitIdle hsettled.toPunctual)
  · have hsleep := hsettled.sleep duration
    rw [hsleep.active_eq_zero_iff, hsleep.outlook_eq_nil_iff hsettled.toPunctual,
      hsettled.clock_waitIdle_le hsleep.passes.clock_le]

/-- A slow job runs on while the next one is called off and a third one starts and ends. -/
theorem run_lawful_overlapping :
    let steps : List (Step Nat) := [.schedule ⟨0, 500⟩ 10, .sleep 50, .cancel,
      .schedule ⟨1, 0⟩ 10, .schedule ⟨2, 0⟩ 300, .sleep 320]
    let t := ({} : Timeline Nat).run steps
    (∀ s ∈ steps, s.Timely) ∧
    t.log.Perm [⟨.started, 0, 10⟩, ⟨.started, 2, 350⟩, ⟨.ended, 2, 350⟩] ∧
    t.active = 1 ∧ t.waitIdle.clock = 510 := by
  intro steps t
  have hs : ∀ s ∈ steps, s.Timely := by simp [steps, Step.Timely, Clock.longestWait]
  obtain ⟨hlog, -, -, hactive, -⟩ := run_lawful hs
  have hevents : ((bookings (({} : Timeline Nat).stamps steps)).flatMap Booking.events).filter
      (·.clock ≤ t.clock) = [⟨.started, 0, 10⟩, ⟨.started, 2, 350⟩, ⟨.ended, 2, 350⟩] := by
    cbv
  have hremains : (bookings (({} : Timeline Nat).stamps steps)).countP (·.Remains t.clock) = 1 := by
    cbv
  exact ⟨hs, hevents ▸ hlog, hactive.trans hremains, by cbv⟩

end Typeahead.Timeline
