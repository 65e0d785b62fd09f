import Mathlib.Data.List.Basic
import Typeahead.Proofs.Debounce.Outlook

/-!
# What becomes of a scheduled job

Jobs are scheduled and called off while time passes. What becomes of each job is told by the times
of the calls alone.

- **Runs** (`Timeline.run`): any sequence of steps. Two of them call, `schedule` and `cancel`; in
  the others tasks get to run. A step is noted with the time at which it is taken
  (`Timeline.stamps`).
- **Bookings** (`Booking`): a job that was scheduled, with all steps taken later. It lasts if no
  later call comes before the job is due (`Booking.Lasts`). Only then the job starts, and it ends
  after its running time (`Booking.events`).
- **One step** (`Settled.stands_act`, `Settled.remnants_act`): a call is made at rest, before the
  waiting job is due, so it drops that job. In any other step a job that leaves the slot has
  started.
- **Runs as a whole** (`Settled.run_story`, `Settled.run_dropped`): what happens is what becomes of
  the bookings, and the dropped jobs that count are those after which no task has run.
-/

namespace Typeahead

namespace Timeline

variable {ι : Type}

/-- What is done with a timeline. -/
inductive Step (ι : Type) where
  | schedule (job : Job ι) (delay : Nat)
  | cancel
  | sleep (duration : Nat)
  | flush
  | waitIdle
  deriving Repr, DecidableEq

/-- A step that drops the job that waits; in the others tasks get to run. -/
def Step.calls : Step ι → Bool
  | .schedule .. | .cancel => true
  | .sleep _ | .flush | .waitIdle => false

/-- A delay is at least a millisecond and within the range of the timer. -/
def Step.Timely : Step ι → Prop
  | .schedule _ delay => 1 ≤ delay ∧ delay ≤ Clock.longestWait
  | _ => True

/-- Takes a step. -/
def act (t : Timeline ι) : Step ι → Timeline ι
  | .schedule job delay => t.schedule job delay
  | .cancel => t.cancel
  | .sleep duration => t.sleep duration
  | .flush => t.flush
  | .waitIdle => t.waitIdle

/-- Takes steps one after the other. -/
def run (t : Timeline ι) (steps : List (Step ι)) : Timeline ι := steps.foldl act t

/-- A step and the time at which it is taken. -/
structure Stamp (ι : Type) where
  step : Step ι
  clock : Nat
  deriving Repr, DecidableEq

/-- Steps with the times at which they are taken. -/
def stamps (t : Timeline ι) : List (Step ι) → List (Stamp ι)
  | [] => []
  | s :: steps => ⟨s, t.clock⟩ :: (t.act s).stamps steps

/-! ## Bookings -/

/-- No call comes before a time. -/
def Undisturbed (due : Nat) (later : List (Stamp ι)) : Prop :=
  ∀ s ∈ later, s.step.calls → due ≤ s.clock

instance (due : Nat) (later : List (Stamp ι)) : Decidable (Undisturbed due later) :=
  inferInstanceAs (Decidable (∀ s ∈ later, _))

/-- A call came before a time, and tasks have not run since. -/
def lingers (due : Nat) : List (Stamp ι) → Bool
  | [] => false
  | s :: later =>
    if s.step.calls ∧ s.clock < due then later.all (·.step.calls) else lingers due later

/-- A job that was scheduled, and all steps that were taken later. -/
structure Booking (ι : Type) where
  job : Job ι
  made : Nat
  delay : Nat
  later : List (Stamp ι)

/-- The job that is scheduled in a step, if one is. -/
def Stamp.booking? (s : Stamp ι) (later : List (Stamp ι)) : Option (Booking ι) :=
  match s.step with
  | .schedule job delay => some ⟨job, s.clock, delay, later⟩
  | _ => none

/-- The jobs that are scheduled in some steps. -/
def bookings : List (Stamp ι) → List (Booking ι)
  | [] => []
  | s :: later => (s.booking? later).toList ++ bookings later

namespace Booking

variable (b : Booking ι)

/-- When the job is to start. -/
def due : Nat := b.made + b.delay

/-- When the job is to end. -/
def stop : Nat := Clock.after b.due b.job.run

/-- No later call comes before the job is due. -/
def Lasts : Prop := Undisturbed b.due b.later

instance : Decidable b.Lasts := inferInstanceAs (Decidable (Undisturbed ..))

/-- What becomes of the job: if the booking lasts, it starts when it is due and ends after its
running time. -/
def events : List (Event ι) :=
  if b.Lasts then [⟨.started, b.job.name, b.due⟩, ⟨.ended, b.job.name, b.stop⟩] else []

/-- The job waits at a time. -/
def Waits (now : Nat) : Prop := b.Lasts ∧ now < b.due

/-- The job has not ended by a time, or it was dropped and is not yet forgotten. -/
def Remains (now : Nat) : Prop := if b.Lasts then now < b.stop else lingers b.due b.later

instance (now : Nat) : Decidable (b.Waits now) := inferInstanceAs (Decidable (_ ∧ _))

instance (now : Nat) : Decidable (b.Remains now) :=
  inferInstanceAs (Decidable (if b.Lasts then _ else _))

end Booking

/-! ## One step -/

/-- What stands of the story of a timeline, given what is done later. -/
def stands (t : Timeline ι) (later : List (Stamp ι)) : List (Event ι) :=
  t.log ++ t.running.map Running.last ++ t.slot.waiting.toList.flatMap fun w =>
    if Undisturbed w.due later then w.action.course w.due else []

theorem Settled.initial : ({} : Timeline ι).Settled := ⟨.initial, by simp [outlook]⟩

theorem Settled.lt_due {t : Timeline ι} (h : t.Settled) {w : Waiting (Job ι)}
    (hw : t.slot.waiting = some w) : t.clock < w.due :=
  h.quiet ⟨.started, w.action.name, w.due⟩ (mem_outlook.2 (.inr ⟨w, hw, by simp [Job.course]⟩))

theorem Settled.cancel {t : Timeline ι} (h : t.Settled) : t.cancel.Settled := by
  have hmem : ∀ e ∈ t.cancel.outlook, e ∈ t.outlook := by
    intro e he
    obtain he | ⟨w, hw, -⟩ := mem_outlook.1 he
    · exact mem_outlook.2 (.inl he)
    · cases hw
  exact ⟨⟨h.sorted, h.ordered, h.past, fun e he => h.ahead e (hmem e he)⟩,
    fun e he => h.quiet e (hmem e he)⟩

theorem Settled.schedule {t : Timeline ι} (h : t.Settled) (job : Job ι) {delay : Nat}
    (hd : 1 ≤ delay) : (t.schedule job delay).Settled := by
  have hquiet : ∀ e ∈ (t.schedule job delay).outlook, t.clock < e.clock := by
    intro e he
    obtain he | ⟨w, hw, he⟩ := mem_outlook.1 he
    · exact h.quiet e (mem_outlook.2 (.inl he))
    · cases hw
      exact Nat.lt_of_lt_of_le (Clock.lt_after hd _) (mem_course he)
  exact ⟨⟨h.sorted, h.ordered, h.past, fun e he => Nat.le_of_lt (hquiet e he)⟩, hquiet⟩

/-- A step that calls takes no time; another passes time until all that was due has happened. -/
theorem Settled.act {t : Timeline ι} (h : t.Settled) {s : Step ι} (hs : s.Timely) :
    (t.act s).Settled ∧ t.clock ≤ (t.act s).clock ∧ (s.calls = false → Settles t (t.act s)) := by
  have hwait {t' : Timeline ι} (hw : Settles t t') :
      t'.Settled ∧ t.clock ≤ t'.clock ∧ (s.calls = false → Settles t t') :=
    ⟨hw.settled, hw.passes.clock_le, fun _ => hw⟩
  cases s with
  | schedule job delay => exact ⟨h.schedule job hs.1, Nat.le_refl _, fun hc => nomatch hc⟩
  | cancel => exact ⟨h.cancel, Nat.le_refl _, fun hc => nomatch hc⟩
  | sleep duration => exact hwait (h.sleep duration)
  | flush => exact hwait h.flush
  | waitIdle => exact hwait h.waitIdle

theorem Settled.le_of_mem_stamps {t : Timeline ι} (h : t.Settled) {steps : List (Step ι)}
    (hs : ∀ s ∈ steps, s.Timely) : ∀ s ∈ t.stamps steps, t.clock ≤ s.clock := by
  induction steps generalizing t with
  | nil => exact fun s hs => nomatch hs
  | cons s steps ih =>
    obtain ⟨hs, hsteps⟩ := List.forall_mem_cons.1 hs
    obtain ⟨hsettled, hclock, -⟩ := h.act hs
    exact List.forall_mem_cons.2
      ⟨Nat.le_refl _, fun s' hs' => Nat.le_trans hclock (ih hsettled hsteps s' hs')⟩

theorem undisturbed_of_le {due clock : Nat} {later : List (Stamp ι)} (hd : due ≤ clock)
    (hlater : ∀ s ∈ later, clock ≤ s.clock) : Undisturbed due later :=
  fun s hs _ => Nat.le_trans hd (hlater s hs)

theorem not_lingers_of_le {due clock : Nat} {later : List (Stamp ι)} (hd : due ≤ clock)
    (hlater : ∀ s ∈ later, clock ≤ s.clock) : lingers due later = false := by
  induction later with
  | nil => rfl
  | cons s later ih =>
    obtain ⟨hs, hlater⟩ := List.forall_mem_cons.1 hlater
    rw [lingers, if_neg (by omega)]
    exact ih hlater

/-- A job that has left the slot while time passed was due. -/
theorem Settles.due_le {t t' : Timeline ι} (h : Settles t t') {w : Waiting (Job ι)}
    (hw : t.slot.waiting = some w) (hw' : t'.slot.waiting = none) : w.due ≤ t'.clock := by
  have hstart : (⟨.started, w.action.name, w.due⟩ : Event ι) ∈ t.outlook :=
    mem_outlook.2 (.inr ⟨w, hw, by simp [Job.course]⟩)
  obtain hlog | houtlook :=
    List.mem_append.1 (h.passes.story.mem_iff.2 (List.mem_append_right _ hstart))
  · exact h.settled.past _ hlog
  · obtain ⟨r, -, hr⟩ | ⟨w', hw'', -⟩ := mem_outlook.1 houtlook
    · cases hr
    · rw [hw'] at hw''
      cases hw''

/-- A call drops the job that waits. -/
theorem Settled.stands_call {t : Timeline ι} (h : t.Settled) {s : Step ι} (hs : s.calls)
    (later : List (Stamp ι)) :
    t.stands (⟨s, t.clock⟩ :: later) = t.log ++ t.running.map Running.last := by
  cases hw : t.slot.waiting with
  | none => simp [stands, hw]
  | some w =>
    have hdisturbed : ¬ Undisturbed w.due (⟨s, t.clock⟩ :: later) := by
      intro hu
      have hlt := h.lt_due hw
      have hle : w.due ≤ t.clock := hu _ (List.mem_cons_self ..) hs
      omega
    simp [stands, hw, hdisturbed]

theorem stands_cancel (t : Timeline ι) (later : List (Stamp ι)) :
    t.cancel.stands later = t.log ++ t.running.map Running.last := by
  simp [stands, cancel, Slot.cancel]

/-- A job that is scheduled stands or falls with its booking. -/
theorem stands_schedule (t : Timeline ι) (job : Job ι) {delay : Nat}
    (hd : delay ≤ Clock.longestWait) (later : List (Stamp ι)) :
    (t.schedule job delay).stands later =
      t.log ++ t.running.map Running.last ++ Booking.events ⟨job, t.clock, delay, later⟩ := by
  have hdue : Clock.after t.clock delay = t.clock + delay := Clock.after_eq hd _
  by_cases hu : Undisturbed (t.clock + delay) later <;>
    simp [stands, schedule, Slot.schedule, hdue, Booking.events, Booking.Lasts, Booking.due,
      Booking.stop, Job.course, hu]

/-- When time passes, what stands goes on to stand. -/
theorem Settles.stands {t t' : Timeline ι} (h : Settles t t') {s : Step ι} (hs : s.calls = false)
    {later : List (Stamp ι)} (hlater : ∀ s ∈ later, t'.clock ≤ s.clock) :
    (t'.stands later).Perm (t.stands (⟨s, t.clock⟩ :: later)) := by
  have hskip (due : Nat) : Undisturbed due (⟨s, t.clock⟩ :: later) ↔ Undisturbed due later := by
    simp [Undisturbed, hs]
  have hstory := h.passes.story
  simp only [story, outlook, ← List.append_assoc] at hstory
  obtain hw | hw := h.passes.waiting
  · have hw : t'.slot.waiting = t.slot.waiting := hw
    rw [hw] at hstory
    have hrest := (List.perm_append_right_iff _).1 hstory
    simp only [Timeline.stands, hskip, hw]
    exact hrest.append_right _
  · have hstands : t.stands (⟨s, t.clock⟩ :: later) = t.log ++ t.running.map Running.last ++
        t.slot.waiting.toList.flatMap fun w => w.action.course w.due := by
      cases hw' : t.slot.waiting with
      | none => simp [Timeline.stands, hw']
      | some w =>
        have hu := (hskip w.due).2 (undisturbed_of_le (h.due_le hw' hw) hlater)
        simp [Timeline.stands, hw', hu]
    rw [hw] at hstory
    rw [hstands, Timeline.stands, hw]
    exact hstory

/-- What stands after a step stood before, or is what becomes of a new booking. -/
theorem Settled.stands_act {t : Timeline ι} (h : t.Settled) {s : Step ι} (hs : s.Timely)
    {later : List (Stamp ι)} (hlater : ∀ s' ∈ later, (t.act s).clock ≤ s'.clock) :
    ((t.act s).stands later).Perm (t.stands (⟨s, t.clock⟩ :: later) ++
      ((Stamp.mk s t.clock).booking? later).toList.flatMap Booking.events) := by
  have hwaits (hc : s.calls = false) := ((h.act hs).2.2 hc).stands hc hlater
  cases s with
  | schedule job delay =>
    rw [h.stands_call rfl]
    show (Timeline.stands (t.schedule job delay) later).Perm (_ ++ (Booking.events _ ++ []))
    rw [stands_schedule t job hs.2, List.append_nil]
  | cancel =>
    rw [h.stands_call rfl]
    show (Timeline.stands t.cancel later).Perm (_ ++ [])
    rw [stands_cancel, List.append_nil]
  | sleep duration => exact (List.append_nil _).symm ▸ hwaits rfl
  | flush => exact (List.append_nil _).symm ▸ hwaits rfl
  | waitIdle => exact (List.append_nil _).symm ▸ hwaits rfl

/-! ## Dropped jobs -/

/-- How many dropped jobs of a timeline count in the end, given what is done later. -/
def remnants (t : Timeline ι) (later : List (Stamp ι)) : Nat :=
  (if later.all (·.step.calls) then t.slot.dropped else 0) +
    t.slot.waiting.toList.countP fun w => lingers w.due later

/-- A dropped job counts until tasks get to run. -/
theorem Settled.remnants_call {t : Timeline ι} (h : t.Settled) {s : Step ι} (hs : s.calls)
    (later : List (Stamp ι)) :
    t.remnants (⟨s, t.clock⟩ :: later) =
      if later.all (·.step.calls) then t.slot.active else 0 := by
  have hlingers : ∀ w ∈ t.slot.waiting,
      lingers w.due (⟨s, t.clock⟩ :: later) = later.all (·.step.calls) := by
    intro w hw
    rw [lingers, if_pos ⟨hs, h.lt_due hw⟩]
  cases hw : t.slot.waiting with
  | none => simp [remnants, Slot.active, Slot.load, hw, hs]
  | some w =>
    by_cases hall : later.all (·.step.calls)
    · simp [remnants, Slot.active, Slot.load, hw, hs, hlingers w hw, hall, Nat.add_comm]
    · simp [remnants, hw, hs, hlingers w hw, hall]

/-- When time passes the dropped jobs are forgotten, and none that has left the slot was dropped. -/
theorem Settles.remnants {t t' : Timeline ι} (h : Settles t t') {s : Step ι} (hs : s.calls = false)
    {later : List (Stamp ι)} (hlater : ∀ s ∈ later, t'.clock ≤ s.clock) :
    t'.remnants later = t.remnants (⟨s, t.clock⟩ :: later) := by
  have hskip (due : Nat) : lingers due (⟨s, t.clock⟩ :: later) = lingers due later := by
    simp [lingers, hs]
  have hdropped : t'.slot.dropped = 0 := h.passes.dropped
  have hall : (⟨s, t.clock⟩ :: later : List (Stamp ι)).all (·.step.calls) = false := by
    simp [hs]
  simp only [Timeline.remnants, hdropped, hall, hskip, ite_self, Bool.false_eq_true, if_false]
  obtain hw | hw := h.passes.waiting
  · have hw : t'.slot.waiting = t.slot.waiting := hw
    rw [hw]
  · cases hw' : t.slot.waiting with
    | none => rw [hw]
    | some w => simp [hw, not_lingers_of_le (h.due_le hw' hw) hlater]

/-- What is dropped in a step is the job that waited, and a new booking may be dropped later. -/
theorem Settled.remnants_act {t : Timeline ι} (h : t.Settled) {s : Step ι} (hs : s.Timely)
    {later : List (Stamp ι)} (hlater : ∀ s' ∈ later, (t.act s).clock ≤ s'.clock) :
    (t.act s).remnants later = t.remnants (⟨s, t.clock⟩ :: later) +
      ((Stamp.mk s t.clock).booking? later).toList.countP fun b => lingers b.due b.later := by
  have hwaits (hc : s.calls = false) := ((h.act hs).2.2 hc).remnants hc hlater
  cases s with
  | schedule job delay =>
    have hdue : Clock.after t.clock delay = t.clock + delay := Clock.after_eq hs.2 _
    rw [h.remnants_call rfl]
    simp [Timeline.act, Timeline.schedule, Slot.schedule, Slot.cancel, Timeline.remnants,
      Stamp.booking?, Booking.due, hdue]
  | cancel =>
    rw [h.remnants_call rfl]
    simp [Timeline.act, Timeline.cancel, Slot.cancel, Timeline.remnants, Stamp.booking?]
  | sleep duration => exact hwaits rfl
  | flush => exact hwaits rfl
  | waitIdle => exact hwaits rfl

/-! ## Runs -/

/-- The story of a run: what stood at its beginning, and what becomes of the bookings. -/
theorem Settled.run_story {t : Timeline ι} (h : t.Settled) {steps : List (Step ι)}
    (hs : ∀ s ∈ steps, s.Timely) :
    (t.run steps).Settled ∧ (t.run steps).story.Perm
      (t.stands (t.stamps steps) ++ (bookings (t.stamps steps)).flatMap Booking.events) := by
  induction steps generalizing t with
  | nil =>
    refine ⟨h, ?_⟩
    simp [run, stamps, bookings, story, stands, outlook, Undisturbed]
  | cons s steps ih =>
    obtain ⟨hs, hsteps⟩ := List.forall_mem_cons.1 hs
    obtain ⟨hsettled, -, -⟩ := h.act hs
    obtain ⟨hrun, hstory⟩ := ih hsettled hsteps
    have hstep := h.stands_act hs (hsettled.le_of_mem_stamps hsteps)
    refine ⟨hrun, hstory.trans ?_⟩
    rw [stamps, bookings, List.flatMap_append, ← List.append_assoc]
    exact hstep.append_right _

/-- The dropped jobs that count at the end of a run. -/
theorem Settled.run_dropped {t : Timeline ι} (h : t.Settled) {steps : List (Step ι)}
    (hs : ∀ s ∈ steps, s.Timely) :
    (t.run steps).slot.dropped = t.remnants (t.stamps steps) +
      (bookings (t.stamps steps)).countP fun b => lingers b.due b.later := by
  induction steps generalizing t with
  | nil => simp [run, stamps, bookings, remnants, lingers]
  | cons s steps ih =>
    obtain ⟨hs, hsteps⟩ := List.forall_mem_cons.1 hs
    obtain ⟨hsettled, -, -⟩ := h.act hs
    have hstep := h.remnants_act hs (hsettled.le_of_mem_stamps hsteps)
    have hrun : (t.run (s :: steps)).slot.dropped = ((t.act s).run steps).slot.dropped := rfl
    rw [hrun, ih hsettled hsteps, hstep, stamps, bookings, List.countP_append, Nat.add_assoc]

end Timeline

end Typeahead
