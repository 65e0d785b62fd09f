import Typeahead.Debounce.Slot

/-!
# Jobs in a slot, over time

A job waits in a slot, starts when it is due, and runs for a while. Time is a whole number of
milliseconds; it passes only in `sleep` and `waitIdle`, and jumps from one event to the next.

- **Jobs** (`Job`, `Running`): a name and a running time; a running job has a time at which it ends.
- **Events** (`Event`): the starts and ends, with the time of each.
- **The next event** (`next?`): the earliest end or start; of two at one time the end comes first,
  and of two ends that of the job that started first.
- **Passing time** (`runUntil`): performs all events up to a limit, each at its own time.
-/

namespace Typeahead

/-- Something that takes `run` milliseconds. -/
structure Job (ι : Type) where
  name : ι
  run : Nat
  deriving Repr, DecidableEq

/-- A job that has started. -/
structure Running (ι : Type) where
  name : ι
  stop : Nat
  deriving Repr, DecidableEq

/-- What happened to a job. -/
inductive Moment where
  | started
  | ended
  deriving Repr, DecidableEq

/-- Something that happened at a time. -/
structure Event (ι : Type) where
  moment : Moment
  name : ι
  clock : Nat
  deriving Repr, DecidableEq

/-- A slot for jobs, the jobs that run, and what has happened. -/
structure Timeline (ι : Type) where
  clock : Nat := 0
  slot : Slot (Job ι) := {}
  /-- The jobs that run, by the time of their end. -/
  running : List (Running ι) := []
  /-- What has happened, the latest first. -/
  log : List (Event ι) := []

namespace Timeline

variable {ι : Type}

/-- What happens next. -/
inductive Next (ι : Type) where
  | finish (job : Running ι) (others : List (Running ι))
  | start (job : Job ι) (clock : Nat)

/-- When it happens. -/
def Next.clock : Next ι → Nat
  | finish job _ => job.stop
  | start _ clock => clock

/-- A job among those that run, behind all that end no later. -/
def enqueue (job : Running ι) (running : List (Running ι)) : List (Running ι) :=
  running.takeWhile (·.stop ≤ job.stop) ++ job :: running.dropWhile (·.stop ≤ job.stop)

variable (t : Timeline ι)

/-- The number of jobs that wait, run or were dropped lately. -/
def active : Nat := t.slot.active + t.running.length

/-- Lets a job wait in place of the one that waits. -/
def schedule (job : Job ι) (delay : Nat) : Timeline ι :=
  { t with slot := t.slot.schedule t.clock delay job }

/-- Drops the job that waits. -/
def cancel : Timeline ι := { t with slot := t.slot.cancel }

/-- The next event: an end, or the start of the job that waits. -/
def next? : Option (Next ι) :=
  match t.running, t.slot.waiting with
  | [], none => none
  | [], some w => some (.start w.action w.due)
  | r :: rs, none => some (.finish r rs)
  | r :: rs, some w => some (if r.stop ≤ w.due then .finish r rs else .start w.action w.due)

/-- Notes that something has happened now. -/
def note (moment : Moment) (name : ι) : Timeline ι :=
  { t with log := ⟨moment, name, t.clock⟩ :: t.log }

/-- A job starts; one that takes no time ends as well. -/
def begin (job : Job ι) : Timeline ι :=
  let t := t.note .started job.name
  if job.run = 0 then t.note .ended job.name
  else { t with running := enqueue ⟨job.name, Clock.after t.clock job.run⟩ t.running }

/-- Performs the next event, at its time. -/
def perform (next : Next ι) : Timeline ι :=
  let t := { t with clock := max t.clock next.clock }
  match next with
  | .finish job others => { t with running := others }.note .ended job.name
  | .start job _ => { t with slot := { t.slot with waiting := none } }.begin job

/-- The events to come: two for the job that waits, and one for each that runs. -/
def work : Nat := 2 * t.slot.load + t.running.length

theorem length_enqueue (job : Running ι) (running : List (Running ι)) :
    (enqueue job running).length = running.length + 1 := by
  have h := congrArg List.length (List.takeWhile_append_dropWhile (p := (·.stop ≤ job.stop))
    (l := running))
  simp only [List.length_append] at h
  simp only [enqueue, List.length_append, List.length_cons]
  omega

theorem length_running_begin (job : Job ι) :
    (t.begin job).running.length ≤ t.running.length + 1 := by
  unfold begin note
  split
  · exact Nat.le_succ _
  · exact Nat.le_of_eq (length_enqueue _ _)

theorem slot_begin (job : Job ι) : (t.begin job).slot = t.slot := by
  unfold begin note
  split <;> rfl

theorem work_perform {next : Next ι} (h : t.next? = some next) :
    (t.perform next).work < t.work := by
  have start (job : Job ι) (clock : Nat) (hw : t.slot.waiting.isSome = true) :
      (t.perform (.start job clock)).work < t.work := by
    have hs : (t.perform (.start job clock)).slot = { t.slot with waiting := none } :=
      slot_begin _ _
    have hr : (t.perform (.start job clock)).running.length ≤ t.running.length + 1 :=
      length_running_begin _ _
    simp only [work, hs, Slot.load, hw]
    simp
    omega
  have finish (r : Running ι) (rs : List (Running ι)) (hr : t.running = r :: rs) :
      (t.perform (.finish r rs)).work < t.work := by
    simp [perform, note, work, hr]
  unfold next? at h
  split at h
  · cases h
  · cases h; exact start _ _ (by simp [*])
  · cases h; exact finish _ _ (by assumption)
  · split at h
    · cases h; exact finish _ _ (by assumption)
    · cases h; exact start _ _ (by simp [*])

/-- Whether a time is within a limit, if there is one. -/
def within (clock : Nat) : Option Nat → Bool
  | some limit => clock ≤ limit
  | none => true

/-- Performs all events up to a limit, or all there are. -/
def runUntil (limit : Option Nat) (t : Timeline ι) : Timeline ι :=
  match _ : t.next? with
  | none => t
  | some next => if within next.clock limit then runUntil limit (t.perform next) else t
termination_by t.work
decreasing_by exact t.work_perform (by assumption)

/-- Forgets the dropped jobs. -/
def reap : Timeline ι := { t with slot := t.slot.reap }

/-- Lets some time pass. -/
def sleep (duration : Nat) : Timeline ι :=
  let stop := Clock.after t.clock duration
  { t.reap.runUntil (some stop) with clock := stop }

/-- Lets all happen that is due. -/
def flush : Timeline ι := t.reap.runUntil (some t.clock)

/-- Lets time pass until no job waits or runs. -/
def waitIdle : Timeline ι := t.reap.runUntil none

end Timeline

end Typeahead
