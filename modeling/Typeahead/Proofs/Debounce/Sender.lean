import Mathlib.Data.List.Basic
import Typeahead.Proofs.Debounce.Booking

/-!
# Slots with senders

A timeline forgets the job that has left its slot, and counts its jobs anew each time. Here every
job is held back by a task of its own, the slot has the sender that can call this task off, and a
counter goes up for each task and down when it is over.

- **Crews** (`Crew`): when a job starts its sender stays in the slot, though nobody listens any
  more. The next call takes it out; its message reaches a task only if this still holds its job back
  (`Crew.send`).
- **Agreement** (`Crew.Agrees`): a task that was not told belongs to the sender in the slot, so
  there is at most one (`Agrees.tasks_cases`). After a call all tasks are told (`Agrees.told_send`):
  a stale sender interrupts no job and hides none.
- **Runs** (`Crew.run_agrees`): steps keep the agreement, so a crew and a timeline have the same
  clock, log and number of active jobs at every moment.
-/

namespace Typeahead

/-- A task that holds a job back. -/
structure Task (ι : Type) where
  id : Nat
  due : Nat
  job : Job ι
  /-- It was called off and has not noticed yet. -/
  told : Bool := false

/-- Tasks, a slot for the sender of one of them, and a counter. -/
structure Crew (ι : Type) where
  clock : Nat := 0
  spawned : Nat := 0
  /-- The task to which the sender in the slot belongs. -/
  sender : Option Nat := none
  /-- The tasks that hold their jobs back. -/
  tasks : List (Task ι) := []
  running : List (Running ι) := []
  active : Nat := 0
  log : List (Event ι) := []

namespace Crew

variable {ι : Type} (c : Crew ι)

/-- The sender leaves the slot, and its task is told if it still holds its job back. -/
def send : Crew ι :=
  match c.sender with
  | none => c
  | some id =>
    { c with
      sender := none
      tasks := c.tasks.map fun k => if k.id = id then { k with told := true } else k }

/-- Spawns a task whose sender takes the place of the one in the slot. -/
def schedule (job : Job ι) (delay : Nat) : Crew ι :=
  { c.send with
    spawned := c.spawned + 1
    sender := some c.spawned
    tasks := c.send.tasks ++ [{ id := c.spawned, due := Clock.after c.clock delay, job }]
    active := c.active + 1 }

/-- Tasks that were told are over. -/
def reap : Crew ι :=
  { c with
    tasks := c.tasks.filter (!·.told)
    active := c.active - c.tasks.countP (·.told) }

/-- The task whose time comes first. -/
def earliest? : List (Task ι) → Option (Task ι)
  | [] => none
  | k :: ks =>
    match earliest? ks with
    | none => some k
    | some k' => some (if k.due ≤ k'.due then k else k')

/-- What happens next. -/
inductive Next (ι : Type) where
  | finish (job : Running ι) (others : List (Running ι))
  | start (task : Task ι)

/-- When it happens. -/
def Next.clock : Next ι → Nat
  | finish job _ => job.stop
  | start task => task.due

/-- The next event: an end, or the start of a job whose task was not told in time. -/
def next? : Option (Next ι) :=
  match c.running, earliest? c.tasks with
  | [], none => none
  | [], some k => some (.start k)
  | r :: rs, none => some (.finish r rs)
  | r :: rs, some k => some (if r.stop ≤ k.due then .finish r rs else .start k)

/-- Notes that something has happened now. -/
def note (moment : Moment) (name : ι) : Crew ι :=
  { c with log := ⟨moment, name, c.clock⟩ :: c.log }

/-- A job ends, and the task that ran it is over. -/
def finish (name : ι) : Crew ι := { c.note .ended name with active := c.active - 1 }

/-- A job starts; one that takes no time ends as well. -/
def begin (job : Job ι) : Crew ι :=
  let c := c.note .started job.name
  if job.run = 0 then c.finish job.name
  else
    { c with
      running := Timeline.enqueue ⟨job.name, Clock.after c.clock job.run⟩ c.running }

/-- Performs the next event, at its time. The sender in the slot stays where it is. -/
def perform (next : Next ι) : Crew ι :=
  let c := { c with clock := max c.clock next.clock }
  match next with
  | .finish job others => { c with running := others }.finish job.name
  | .start task => { c with tasks := c.tasks.filter (·.id ≠ task.id) }.begin task.job

/-- The events to come. -/
def work : Nat := 2 * c.tasks.length + c.running.length

variable {c}

theorem earliest?_mem {ks : List (Task ι)} {k : Task ι} (h : earliest? ks = some k) : k ∈ ks := by
  induction ks generalizing k with
  | nil => cases h
  | cons k₁ ks ih =>
    unfold earliest? at h
    split at h
    · cases h
      exact List.mem_cons_self ..
    · rename_i k₂ hk
      cases h
      split
      · exact List.mem_cons_self ..
      · exact List.mem_cons_of_mem _ (ih hk)

theorem length_running_begin (c : Crew ι) (job : Job ι) :
    (c.begin job).running.length ≤ c.running.length + 1 := by
  unfold begin
  dsimp only
  split
  · exact Nat.le_succ _
  · exact Nat.le_of_eq (Timeline.length_enqueue ..)

theorem tasks_begin (c : Crew ι) (job : Job ι) : (c.begin job).tasks = c.tasks := by
  unfold begin
  dsimp only
  split <;> rfl

theorem work_perform {next : Next ι} (h : c.next? = some next) :
    (c.perform next).work < c.work := by
  have start (k : Task ι) (hk : earliest? c.tasks = some k) :
      (c.perform (.start k)).work < c.work := by
    have htasks : (c.perform (.start k)).tasks = c.tasks.filter (·.id ≠ k.id) := tasks_begin ..
    have hrunning : (c.perform (.start k)).running.length ≤ c.running.length + 1 :=
      length_running_begin ..
    have hfewer : (c.tasks.filter (·.id ≠ k.id)).length < c.tasks.length :=
      List.length_filter_lt_length_iff_exists.2 ⟨k, earliest?_mem hk, by simp⟩
    unfold work
    rw [htasks]
    omega
  have finish (r : Running ι) (rs : List (Running ι)) (hr : c.running = r :: rs) :
      (c.perform (.finish r rs)).work < c.work := by
    simp [perform, Crew.finish, note, work, hr]
  unfold next? at h
  split at h
  · cases h
  · cases h; exact start _ (by assumption)
  · cases h; exact finish _ _ (by assumption)
  · split at h
    · cases h; exact finish _ _ (by assumption)
    · cases h; exact start _ (by assumption)

/-- Performs all events up to a limit, or all there are. -/
def runUntil (limit : Option Nat) (c : Crew ι) : Crew ι :=
  match _ : c.next? with
  | none => c
  | some next =>
    if Timeline.within next.clock limit then runUntil limit (c.perform next) else c
termination_by c.work
decreasing_by exact work_perform (by assumption)

/-- Takes a step. -/
def act (c : Crew ι) : Timeline.Step ι → Crew ι
  | .schedule job delay => c.schedule job delay
  | .cancel => c.send
  | .sleep duration =>
    let stop := Clock.after c.clock duration
    { c.reap.runUntil (some stop) with clock := stop }
  | .flush => c.reap.runUntil (some c.clock)
  | .waitIdle => c.reap.runUntil none

/-- Takes steps one after the other. -/
def run (c : Crew ι) (steps : List (Timeline.Step ι)) : Crew ι := steps.foldl act c

/-! ## Agreement -/

/-- A crew does what a timeline does. -/
structure Agrees (c : Crew ι) (t : Timeline ι) : Prop where
  clock : c.clock = t.clock
  running : c.running = t.running
  log : c.log = t.log
  active : c.active = t.active
  told : c.tasks.countP (·.told) = t.slot.dropped
  untold : (c.tasks.filter (!·.told)).map (fun k => (⟨k.due, k.job⟩ : Waiting (Job ι))) =
    t.slot.waiting.toList
  sender : ∀ k ∈ c.tasks, k.told = false → c.sender = some k.id

variable {t : Timeline ι}

theorem Agrees.length_tasks (h : c.Agrees t) : c.tasks.length = t.slot.active := by
  have hload : (c.tasks.filter (!·.told)).length = t.slot.load := by
    have hlength := congrArg List.length h.untold
    rw [List.length_map] at hlength
    rw [hlength, Slot.load]
    cases t.slot.waiting <;> rfl
  have hsplit := List.length_eq_countP_add_countP (fun k : Task ι => k.told) (l := c.tasks)
  rw [Slot.active, ← hload, ← h.told, ← List.countP_eq_length_filter, hsplit, Nat.add_comm]
  simp

/-- After a call nobody holds a job back without having been told. -/
theorem Agrees.told_send (h : c.Agrees t) : ∀ k ∈ c.send.tasks, k.told = true := by
  unfold send
  cases hs : c.sender with
  | none =>
    intro k hk
    by_contra hk'
    have := h.sender k hk (by simpa using hk')
    rw [hs] at this
    cases this
  | some id =>
    intro k hk
    obtain ⟨k', hk', rfl⟩ := List.mem_map.1 hk
    split
    · rfl
    · rename_i hne
      by_contra htold
      have := h.sender k' hk' (by simpa using htold)
      rw [hs] at this
      cases this
      exact hne rfl

theorem Agrees.send (h : c.Agrees t) : c.send.Agrees t.cancel := by
  have htold := h.told_send
  have hlength : c.send.tasks.length = c.tasks.length := by
    unfold Crew.send
    split <;> simp
  refine ⟨?_, ?_, ?_, ?_, ?_, ?_, ?_⟩
  · unfold Crew.send; split <;> exact h.clock
  · unfold Crew.send; split <;> exact h.running
  · unfold Crew.send; split <;> exact h.log
  · have hactive : t.cancel.active = t.active := by
      simp [Timeline.active, Timeline.cancel, Slot.active_cancel]
    rw [hactive, ← h.active]
    unfold Crew.send; split <;> rfl
  · rw [List.countP_eq_length.2 htold, hlength]
    exact h.length_tasks
  · have hnil : c.send.tasks.filter (!·.told) = [] :=
      List.filter_eq_nil_iff.2 fun k hk => by simp [htold k hk]
    rw [hnil]
    rfl
  · intro k hk hfalse
    rw [htold k hk] at hfalse
    cases hfalse

theorem Agrees.schedule (h : c.Agrees t) (job : Job ι) (delay : Nat) :
    (c.schedule job delay).Agrees (t.schedule job delay) := by
  have hsend := h.send
  have htold := h.told_send
  refine ⟨hsend.clock, hsend.running, hsend.log, ?_, ?_, ?_, ?_⟩
  · show c.active + 1 = _
    rw [h.active]
    simp only [Timeline.active, Timeline.schedule, Slot.active_schedule]
    omega
  · show (c.send.tasks ++ _).countP _ = _
    rw [List.countP_append, hsend.told]
    rfl
  · show ((c.send.tasks ++ _).filter _).map _ = _
    rw [List.filter_append, List.map_append, hsend.untold]
    simp [Timeline.cancel, Slot.cancel, Timeline.schedule, Slot.schedule, h.clock]
  · intro k hk hfalse
    obtain hk | hk := List.mem_append.1 hk
    · rw [htold k hk] at hfalse
      cases hfalse
    · cases List.mem_singleton.1 hk
      rfl

/-- Tasks that were told give up, as the timeline forgets what it dropped. -/
theorem Agrees.reap (h : c.Agrees t) :
    c.reap.Agrees t.reap ∧ ∀ k ∈ c.reap.tasks, k.told = false := by
  have huntold : ∀ k ∈ c.reap.tasks, k.told = false := by
    intro k hk
    simpa using (List.mem_filter.1 hk).2
  refine ⟨⟨h.clock, h.running, h.log, ?_, ?_, ?_, ?_⟩, huntold⟩
  · have hactive : t.reap.active = t.slot.load + t.running.length := rfl
    have hbefore : t.active = t.slot.load + t.slot.dropped + t.running.length := rfl
    show c.active - c.tasks.countP _ = _
    rw [h.active, h.told]
    omega
  · exact List.countP_eq_zero.2 fun k hk => by simp [huntold k hk]
  · show ((c.tasks.filter _).filter _).map _ = t.slot.waiting.toList
    rw [List.filter_filter]
    simpa using h.untold
  · intro k hk
    exact h.sender k (List.mem_filter.1 hk).1

/-- At most one task has not been told. -/
theorem Agrees.tasks_cases (h : c.Agrees t) (hu : ∀ k ∈ c.tasks, k.told = false) :
    (c.tasks = [] ∧ t.slot.waiting = none) ∨
    ∃ k, c.tasks = [k] ∧ t.slot.waiting = some ⟨k.due, k.job⟩ := by
  have hall : c.tasks.filter (!·.told) = c.tasks :=
    List.filter_eq_self.2 fun k hk => by simp [hu k hk]
  have huntold := h.untold
  rw [hall] at huntold
  cases hw : t.slot.waiting with
  | none =>
    rw [hw] at huntold
    exact .inl ⟨List.map_eq_nil_iff.1 huntold, rfl⟩
  | some w =>
    rw [hw] at huntold
    obtain ⟨k, hk, rfl⟩ := List.map_eq_singleton_iff.1 huntold
    exact .inr ⟨k, hk, rfl⟩

theorem Agrees.finish (h : c.Agrees t) {r : Running ι} {rs : List (Running ι)}
    (hr : c.running = r :: rs) : (c.perform (.finish r rs)).Agrees (t.perform (.finish r rs)) := by
  have hlength : t.running.length = rs.length + 1 := by rw [← h.running, hr, List.length_cons]
  have hclock : max c.clock r.stop = max t.clock r.stop := congrArg (max · r.stop) h.clock
  refine ⟨hclock, rfl, ?_, ?_, h.told, h.untold, h.sender⟩
  · show (⟨.ended, r.name, max c.clock r.stop⟩ : Event ι) :: c.log = _
    rw [hclock, h.log]
    rfl
  · have hbefore : t.active = t.slot.active + t.running.length := rfl
    show c.active - 1 = t.slot.active + rs.length
    rw [h.active]
    omega

/-- A job that starts is the one that still counts, though nobody holds it back any more. -/
theorem agrees_begin (hclock : c.clock = t.clock) (hrunning : c.running = t.running)
    (hlog : c.log = t.log) (hactive : c.active = t.running.length + 1) (htasks : c.tasks = [])
    (hslot : t.slot = {}) (job : Job ι) : (c.begin job).Agrees (t.begin job) := by
  have htold : c.tasks.countP (·.told) = t.slot.dropped := by
    rw [htasks, hslot]
    rfl
  have huntold : (c.tasks.filter (!·.told)).map (fun k => (⟨k.due, k.job⟩ : Waiting (Job ι))) =
      t.slot.waiting.toList := by
    rw [htasks, hslot]
    rfl
  have hsender : ∀ k ∈ c.tasks, k.told = false → c.sender = some k.id := by simp [htasks]
  have hwaiting : t.slot.active = 0 := by simp [hslot, Slot.active, Slot.load]
  unfold begin Timeline.begin
  dsimp only
  split
  · -- A job that takes no time is over at once.
    refine ⟨hclock, hrunning, ?_, ?_, htold, huntold, hsender⟩
    · simp [Crew.finish, note, Timeline.note, hclock, hlog]
    · show c.active - 1 = t.slot.active + t.running.length
      omega
  · refine ⟨hclock, ?_, ?_, ?_, htold, huntold, hsender⟩
    · simp [note, Timeline.note, hclock, hrunning]
    · simp [note, Timeline.note, hclock, hlog]
    · show c.active = t.slot.active + (Timeline.enqueue _ t.running).length
      rw [Timeline.length_enqueue]
      omega

/-- When a job starts its sender becomes stale. -/
theorem Agrees.start (h : c.Agrees t) {k : Task ι} (hk : c.tasks = [k]) (hu : k.told = false)
    (hw : t.slot.waiting = some ⟨k.due, k.job⟩) :
    (c.perform (.start k)).Agrees (t.perform (.start k.job k.due)) ∧
      (c.perform (.start k)).tasks = [] := by
  have hdropped : t.slot.dropped = 0 := by
    rw [← h.told, hk]
    simp [hu]
  have hactive : c.active = t.running.length + 1 := by
    have hload : t.slot.load = 1 := by simp [Slot.load, hw]
    rw [h.active, Timeline.active, Slot.active, hload, hdropped]
    omega
  have htasks : c.tasks.filter (·.id ≠ k.id) = [] := by simp [hk]
  have hclock : max c.clock k.due = max t.clock k.due := congrArg (max · k.due) h.clock
  have hslot : ({ t.slot with waiting := none } : Slot (Job ι)) = {} := by simp [hdropped]
  refine ⟨?_, (tasks_begin ..).trans htasks⟩
  exact agrees_begin (c := { c with clock := _, tasks := _ })
    (t := { t with clock := _, slot := _ }) hclock h.running h.log hactive htasks hslot k.job

/-- A crew and a timeline do the same next, and agree on what comes of it. -/
inductive Matches (c : Crew ι) (t : Timeline ι) : Prop where
  | none (crew : c.next? = none) (timeline : t.next? = none)
  | some {next : Next ι} {next' : Timeline.Next ι} (crew : c.next? = some next)
      (timeline : t.next? = some next') (clock : next.clock = next'.clock)
      (agrees : (c.perform next).Agrees (t.perform next'))
      (untold : ∀ k ∈ (c.perform next).tasks, k.told = false)

theorem Agrees.next (h : c.Agrees t) (hu : ∀ k ∈ c.tasks, k.told = false) : c.Matches t := by
  have finish {r : Running ι} {rs : List (Running ι)} (hr : c.running = r :: rs)
      (hc : c.next? = some (.finish r rs)) (ht : t.next? = some (.finish r rs)) : c.Matches t :=
    .some hc ht rfl (h.finish hr) hu
  have start {k : Task ι} (hk : c.tasks = [k]) (hw : t.slot.waiting = some ⟨k.due, k.job⟩)
      (hc : c.next? = some (.start k)) (ht : t.next? = some (.start k.job k.due)) :
      c.Matches t := by
    obtain ⟨hagrees, htasks⟩ := h.start hk (hu k (by simp [hk])) hw
    refine .some hc ht rfl hagrees ?_
    rw [htasks]
    exact fun k hk => nomatch hk
  obtain ⟨hk, hw⟩ | ⟨k, hk, hw⟩ := h.tasks_cases hu
  · cases hr : c.running with
    | nil =>
      have hr' := h.running.symm.trans hr
      exact .none (by simp [next?, hr, hk, earliest?]) (by simp [Timeline.next?, hr', hw])
    | cons r rs =>
      have hr' := h.running.symm.trans hr
      exact finish hr (by simp [next?, hr, hk, earliest?]) (by simp [Timeline.next?, hr', hw])
  · cases hr : c.running with
    | nil =>
      have hr' := h.running.symm.trans hr
      exact start hk hw (by simp [next?, hr, hk, earliest?]) (by simp [Timeline.next?, hr', hw])
    | cons r rs =>
      have hr' := h.running.symm.trans hr
      by_cases hle : r.stop ≤ k.due
      · exact finish hr (by simp [next?, hr, hk, earliest?, hle])
          (by simp [Timeline.next?, hr', hw, hle])
      · exact start hk hw (by simp [next?, hr, hk, earliest?, hle])
          (by simp [Timeline.next?, hr', hw, hle])

/-- The events up to a limit are the same. -/
theorem Agrees.runUntil (h : c.Agrees t) (hu : ∀ k ∈ c.tasks, k.told = false)
    (limit : Option Nat) : (c.runUntil limit).Agrees (t.runUntil limit) := by
  fun_induction Crew.runUntil limit c generalizing t with
  | case1 c hc =>
    unfold Timeline.runUntil
    cases h.next hu with
    | none hc' ht =>
      split
      · exact h
      · simp_all
    | some hc' => simp_all
  | case2 c next hc hlimit ih =>
    unfold Timeline.runUntil
    cases h.next hu with
    | none hc' => simp_all
    | some hc' ht hclock hagrees huntold =>
      cases hc.symm.trans hc'
      split
      · simp_all
      · rename_i next' ht'
        cases ht.symm.trans ht'
        rw [← hclock, if_pos hlimit]
        exact ih hagrees huntold
  | case3 c next hc hlimit =>
    unfold Timeline.runUntil
    cases h.next hu with
    | none hc' => simp_all
    | some hc' ht hclock hagrees huntold =>
      cases hc.symm.trans hc'
      split
      · exact h
      · rename_i next' ht'
        cases ht.symm.trans ht'
        rw [← hclock, if_neg hlimit]
        exact h

/-! ## Runs -/

theorem Agrees.act (h : c.Agrees t) (s : Timeline.Step ι) : (c.act s).Agrees (t.act s) := by
  obtain ⟨hreap, huntold⟩ := h.reap
  cases s with
  | schedule job delay => exact h.schedule job delay
  | cancel => exact h.send
  | sleep duration =>
    have hstop : Clock.after c.clock duration = Clock.after t.clock duration := by rw [h.clock]
    have hrun : (c.reap.runUntil (some (Clock.after c.clock duration))).Agrees
        (t.reap.runUntil (some (Clock.after t.clock duration))) := by
      rw [← hstop]
      exact hreap.runUntil huntold _
    exact ⟨hstop, hrun.running, hrun.log, hrun.active, hrun.told, hrun.untold, hrun.sender⟩
  | flush =>
    show Agrees (c.reap.runUntil (some c.clock)) (t.reap.runUntil (some t.clock))
    rw [h.clock]
    exact hreap.runUntil huntold _
  | waitIdle => exact hreap.runUntil huntold none

/-- With senders in the slot and a counter for its tasks, everything happens as on a timeline. -/
theorem run_agrees (steps : List (Timeline.Step ι)) :
    (({} : Crew ι).run steps).Agrees (({} : Timeline ι).run steps) := by
  have hrun {c : Crew ι} {t : Timeline ι} (h : c.Agrees t) :
      (c.run steps).Agrees (t.run steps) := by
    induction steps generalizing c t with
    | nil => exact h
    | cons s steps ih => exact ih (h.act s)
  exact hrun ⟨rfl, rfl, rfl, rfl, rfl, rfl, fun k hk => nomatch hk⟩

end Crew

end Typeahead
