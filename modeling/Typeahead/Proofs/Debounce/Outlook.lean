import Mathlib.Data.List.Basic
import Typeahead.Debounce.Timeline

/-!
# What is to come on a timeline

What happens when time passes is known beforehand: the job that waits starts and ends, and those
that run end.

- **Outlooks** (`Timeline.outlook`): the events to come if nobody calls. An event that is performed
  leaves the outlook and enters the log, so the story, which is both together, stays as it is
  (`story_perform`).
- **Timelines that keep the time** (`Timeline.Punctual`): what has happened lies in the past, and
  what is to come in the future. The next event is then the earliest to come (`Punctual.next_le`),
  and all events up to a limit happen, each at its own time (`Punctual.runUntil`).
- **Rest** (`Timeline.Settled`): all that was due has happened. Then the clock alone tells the log
  from the outlook (`Settled.log_perm`, `Settled.outlook_perm`). A timeline that passes time comes
  to rest (`Punctual.sleep`, `Punctual.flush`, `Punctual.waitIdle`).
- **Idleness** (`Punctual.clock_waitIdle_le`): a wait for idleness ends with the last event to come.
-/

namespace Typeahead

/-- What happens to a job that starts at a time. -/
def Job.course {ι : Type} (job : Job ι) (clock : Nat) : List (Event ι) :=
  [⟨.started, job.name, clock⟩, ⟨.ended, job.name, Clock.after clock job.run⟩]

/-- What happens to a job that runs. -/
def Running.last {ι : Type} (r : Running ι) : Event ι := ⟨.ended, r.name, r.stop⟩

namespace Timeline

variable {ι : Type} {t : Timeline ι}

/-- The events to come if nobody calls. -/
def outlook (t : Timeline ι) : List (Event ι) :=
  t.running.map Running.last ++ t.slot.waiting.toList.flatMap fun w => w.action.course w.due

/-- All that has happened or is to come. -/
def story (t : Timeline ι) : List (Event ι) := t.log ++ t.outlook

theorem outlook_eq_nil : t.outlook = [] ↔ t.running = [] ∧ t.slot.waiting = none := by
  cases h : t.slot.waiting <;> simp [outlook, Job.course, h]

/-! ## The next event -/

theorem next?_eq_none (h : t.next? = none) : t.outlook = [] := by
  unfold next? at h
  split at h
  · rename_i hr hw
    exact outlook_eq_nil.2 ⟨hr, hw⟩
  all_goals cases h

/-- An end comes next if it comes no later than the start. -/
theorem next?_finish {r : Running ι} {rs : List (Running ι)} (h : t.next? = some (.finish r rs)) :
    t.running = r :: rs ∧ ∀ w ∈ t.slot.waiting, r.stop ≤ w.due := by
  unfold next? at h
  split at h
  · cases h
  · cases h
  · rename_i hr hw
    cases h
    exact ⟨hr, by simp [hw]⟩
  · rename_i hr hw
    split at h
    · cases h
      refine ⟨hr, fun w h => ?_⟩
      rw [hw] at h
      cases h
      assumption
    · cases h

/-- The start comes next if all ends come later. -/
theorem next?_start {job : Job ι} {clock : Nat} (h : t.next? = some (.start job clock)) :
    t.slot.waiting = some ⟨clock, job⟩ ∧ ∀ r ∈ t.running.head?, clock < r.stop := by
  unfold next? at h
  split at h
  · cases h
  · rename_i hr hw
    cases h
    exact ⟨hw, by simp [hr]⟩
  · cases h
  · rename_i hr hw
    split at h
    · cases h
    · cases h
      refine ⟨hw, fun r h => ?_⟩
      rw [hr] at h
      cases h
      omega

/-- A job that ends at its time. -/
def finish (t : Timeline ι) (r : Running ι) (rs : List (Running ι)) : Timeline ι :=
  { t with clock := r.stop, running := rs, log := r.last :: t.log }

/-- The slot is free at a time. -/
def vacate (t : Timeline ι) (clock : Nat) : Timeline ι :=
  { t with clock, slot := { t.slot with waiting := none } }

/-- All that a timeline does next, if it has not missed the time for it. -/
theorem perform_cases {next : Next ι} (h : t.next? = some next) (hc : t.clock ≤ next.clock) :
    (∃ r rs, next = .finish r rs ∧ t.running = r :: rs ∧
      (∀ w ∈ t.slot.waiting, r.stop ≤ w.due) ∧ t.perform next = t.finish r rs) ∨
    (∃ job clock, next = .start job clock ∧ t.slot.waiting = some ⟨clock, job⟩ ∧
      (∀ r ∈ t.running.head?, clock < r.stop) ∧ t.perform next = (t.vacate clock).begin job) := by
  have hclock : max t.clock next.clock = next.clock := Nat.max_eq_right hc
  cases next with
  | finish r rs =>
    obtain ⟨hr, hw⟩ := next?_finish h
    refine .inl ⟨r, rs, rfl, hr, hw, ?_⟩
    simp only [perform, note, hclock, finish]
    rfl
  | start job clock =>
    obtain ⟨hw, hr⟩ := next?_start h
    refine .inr ⟨job, clock, rfl, hw, hr, ?_⟩
    simp only [perform, hclock, vacate]
    rfl

/-! ## Story -/

theorem enqueue_perm (job : Running ι) (running : List (Running ι)) :
    (enqueue job running).Perm (job :: running) := by
  have h : (enqueue job running).Perm (job :: (running.takeWhile (·.stop ≤ job.stop) ++
    running.dropWhile (·.stop ≤ job.stop))) := List.perm_middle
  rwa [List.takeWhile_append_dropWhile] at h

/-- A job that starts adds its start and its end to the story. -/
theorem story_begin (t : Timeline ι) (job : Job ι) :
    (t.begin job).story.Perm (job.course t.clock ++ t.story) := by
  unfold begin note
  split
  · rename_i hrun
    rw [Job.course, hrun, Clock.after_zero]
    exact List.Perm.swap ..
  · have henqueue := (enqueue_perm ⟨job.name, Clock.after t.clock job.run⟩ t.running).map
      Running.last
    refine List.Perm.cons _ ?_
    show (t.log ++ ((enqueue _ t.running).map Running.last ++ _)).Perm (_ :: (t.log ++ t.outlook))
    exact ((henqueue.append_right _).append_left _).trans List.perm_middle

/-- An event that is performed stays in the story. -/
theorem story_perform {next : Next ι} (h : t.next? = some next) (hc : t.clock ≤ next.clock) :
    (t.perform next).story.Perm t.story := by
  obtain ⟨r, rs, -, hr, -, he⟩ | ⟨job, clock, -, hw, -, he⟩ := perform_cases h hc
  · rw [he, story, story, outlook, outlook, hr]
    exact List.perm_middle.symm
  · have hoff : (t.vacate clock).story = t.log ++ t.running.map Running.last := by
      simp [story, outlook, vacate]
    have hon : t.story = t.log ++ t.running.map Running.last ++ job.course clock := by
      simp [story, outlook, hw]
    have hbegin := story_begin (t.vacate clock) job
    rw [hoff] at hbegin
    rw [he, hon]
    exact hbegin.trans List.perm_append_comm

/-! ## Keeping the time -/

/-- What has happened lies in the past, what is to come in the future. -/
structure Punctual (t : Timeline ι) : Prop where
  sorted : t.running.Pairwise fun r r' => r.stop ≤ r'.stop
  ordered : t.log.Pairwise fun e e' => e'.clock ≤ e.clock
  past : ∀ e ∈ t.log, e.clock ≤ t.clock
  ahead : ∀ e ∈ t.outlook, t.clock ≤ e.clock

theorem mem_outlook {e : Event ι} : e ∈ t.outlook ↔
    (∃ r ∈ t.running, r.last = e) ∨ ∃ w ∈ t.slot.waiting, e ∈ w.action.course w.due := by
  simp [outlook]

theorem mem_course {job : Job ι} {clock : Nat} {e : Event ι} (h : e ∈ job.course clock) :
    clock ≤ e.clock := by
  simp only [Job.course, List.mem_cons, List.not_mem_nil, or_false] at h
  obtain rfl | rfl := h
  · exact Nat.le_refl _
  · exact Clock.le_after ..

theorem next_mem {next : Next ι} (h : t.next? = some next) :
    ∃ e ∈ t.outlook, e.clock = next.clock := by
  cases next with
  | finish r rs =>
    obtain ⟨hr, -⟩ := next?_finish h
    exact ⟨r.last, mem_outlook.2 (.inl ⟨r, by simp [hr], rfl⟩), rfl⟩
  | start job clock =>
    obtain ⟨hw, -⟩ := next?_start h
    exact ⟨⟨.started, job.name, clock⟩, mem_outlook.2 (.inr ⟨_, hw, by simp [Job.course]⟩), rfl⟩

theorem enqueue_sorted (job : Running ι) {running : List (Running ι)}
    (h : running.Pairwise fun r r' => r.stop ≤ r'.stop) :
    (enqueue job running).Pairwise fun r r' => r.stop ≤ r'.stop := by
  induction running with
  | nil => exact List.pairwise_singleton ..
  | cons r rs ih =>
    obtain ⟨hr, hrs⟩ := List.pairwise_cons.1 h
    by_cases hle : r.stop ≤ job.stop
    · have henqueue : enqueue job (r :: rs) = r :: enqueue job rs := by simp [enqueue, hle]
      rw [henqueue]
      refine List.pairwise_cons.2 ⟨fun r' hr' => ?_, ih hrs⟩
      obtain rfl | hr' := List.mem_cons.1 ((enqueue_perm job rs).mem_iff.1 hr')
      · exact hle
      · exact hr r' hr'
    · have henqueue : enqueue job (r :: rs) = job :: r :: rs := by simp [enqueue, hle]
      rw [henqueue]
      refine List.pairwise_cons.2 ⟨fun r' hr' => ?_, h⟩
      obtain rfl | hr' := List.mem_cons.1 hr'
      · omega
      · have := hr r' hr'
        omega

namespace Punctual

variable {next : Next ι}

theorem initial : ({} : Timeline ι).Punctual :=
  ⟨.nil, .nil, by simp, by simp [outlook]⟩

theorem clock_le_next (h : t.Punctual) (hn : t.next? = some next) : t.clock ≤ next.clock := by
  obtain ⟨e, he, hclock⟩ := next_mem hn
  exact hclock ▸ h.ahead e he

/-- The next event is the earliest of those to come. -/
theorem next_le (h : t.Punctual) (hn : t.next? = some next) :
    ∀ e ∈ t.outlook, next.clock ≤ e.clock := by
  intro e he
  obtain ⟨r, rs, rfl, hr, hw, -⟩ | ⟨job, clock, rfl, hw, hr, -⟩ :=
    perform_cases hn (h.clock_le_next hn)
  · obtain ⟨r', hr', rfl⟩ | ⟨w, hw', he⟩ := mem_outlook.1 he
    · rw [hr] at hr'
      obtain rfl | hr' := List.mem_cons.1 hr'
      · exact Nat.le_refl _
      · exact (List.pairwise_cons.1 (hr ▸ h.sorted)).1 r' hr'
    · exact Nat.le_trans (hw w hw') (mem_course he)
  · obtain ⟨r', hr', rfl⟩ | ⟨w, hw', he⟩ := mem_outlook.1 he
    · cases hrunning : t.running with
      | nil => simp [hrunning] at hr'
      | cons r rs =>
        have hlt : clock < r.stop := hr r (by simp [hrunning])
        rw [hrunning] at hr'
        obtain rfl | hr' := List.mem_cons.1 hr'
        · exact Nat.le_of_lt hlt
        · have hle : r.stop ≤ r'.stop := (List.pairwise_cons.1 (hrunning ▸ h.sorted)).1 r' hr'
          exact Nat.le_of_lt (Nat.lt_of_lt_of_le hlt hle)
    · rw [hw] at hw'
      cases hw'
      exact mem_course he

/-- A timeline that keeps the time notes what happens now. -/
theorem note (h : t.Punctual) (moment : Moment) (name : ι) : (t.note moment name).Punctual where
  sorted := h.sorted
  ordered := List.pairwise_cons.2 ⟨h.past, h.ordered⟩
  past := List.forall_mem_cons.2 ⟨Nat.le_refl _, h.past⟩
  ahead := h.ahead

theorem begin (h : t.Punctual) (job : Job ι) : (t.begin job).Punctual := by
  have hnote := h.note .started job.name
  unfold Timeline.begin
  dsimp only
  split
  · exact hnote.note .ended job.name
  · refine ⟨enqueue_sorted _ hnote.sorted, hnote.ordered, hnote.past, fun e he => ?_⟩
    obtain ⟨r, hr, rfl⟩ | he := mem_outlook.1 he
    · obtain rfl | hr := List.mem_cons.1 ((enqueue_perm ..).mem_iff.1 hr)
      · exact Clock.le_after ..
      · exact h.ahead _ (mem_outlook.2 (.inl ⟨r, hr, rfl⟩))
    · exact h.ahead _ (mem_outlook.2 (.inr he))

theorem perform (h : t.Punctual) (hn : t.next? = some next) : (t.perform next).Punctual := by
  have hc := h.clock_le_next hn
  have hle := h.next_le hn
  have hpast : ∀ e ∈ t.log, e.clock ≤ next.clock := fun e he => Nat.le_trans (h.past e he) hc
  obtain ⟨r, rs, rfl, hr, -, he⟩ | ⟨job, clock, rfl, -, -, he⟩ := perform_cases hn hc
  · rw [he]
    refine ⟨(List.pairwise_cons.1 (hr ▸ h.sorted)).2, List.pairwise_cons.2 ⟨hpast, h.ordered⟩,
      List.forall_mem_cons.2 ⟨Nat.le_refl _, hpast⟩, fun e he => hle e ?_⟩
    rw [outlook, hr]
    exact List.mem_cons_of_mem _ he
  · rw [he]
    refine begin (t := t.vacate clock) ⟨h.sorted, h.ordered, hpast, fun e he => hle e ?_⟩ job
    obtain he | ⟨w, hw, -⟩ := mem_outlook.1 he
    · exact mem_outlook.2 (.inl he)
    · cases hw

end Punctual

/-! ## Passing time -/

/-- Some time passes, in which nobody calls. -/
structure Passes (t t' : Timeline ι) : Prop where
  punctual : t'.Punctual
  story : t'.story.Perm t.story
  clock_le : t.clock ≤ t'.clock
  waiting : t'.slot.waiting = t.slot.waiting ∨ t'.slot.waiting = none
  dropped : t'.slot.dropped = t.slot.dropped

theorem Passes.refl (h : t.Punctual) : Passes t t :=
  ⟨h, .refl _, Nat.le_refl _, .inl rfl, rfl⟩

theorem Passes.trans {t₁ t₂ t₃ : Timeline ι} (h : Passes t₁ t₂) (h' : Passes t₂ t₃) :
    Passes t₁ t₃ where
  punctual := h'.punctual
  story := h'.story.trans h.story
  clock_le := Nat.le_trans h.clock_le h'.clock_le
  waiting := by
    obtain hw | hw := h'.waiting
    · rw [hw]
      exact h.waiting
    · exact .inr hw
  dropped := h'.dropped.trans h.dropped

theorem Punctual.passes_perform {next : Next ι} (h : t.Punctual) (hn : t.next? = some next) :
    Passes t (t.perform next) ∧ (t.perform next).clock = next.clock := by
  have hc := h.clock_le_next hn
  have hstory := story_perform hn hc
  have hpunctual := h.perform hn
  obtain ⟨r, rs, rfl, -, -, he⟩ | ⟨job, clock, rfl, -, -, he⟩ := perform_cases hn hc
  · rw [he] at hstory hpunctual ⊢
    exact ⟨⟨hpunctual, hstory, hc, .inl rfl, rfl⟩, rfl⟩
  · have hslot := slot_begin (t.vacate clock) job
    have hclock : ((t.vacate clock).begin job).clock = clock := by
      unfold Timeline.begin
      dsimp only
      split <;> rfl
    rw [he] at hstory hpunctual ⊢
    exact ⟨⟨hpunctual, hstory, by rw [hclock]; exact hc, .inr (by rw [hslot]; rfl),
      by rw [hslot]; rfl⟩, hclock⟩

/-- What happened between `t` and a later time was to come, unless it had happened before. -/
theorem Passes.bound {t' : Timeline ι} (h : t.Punctual) (hp : Passes t t') {u : Nat}
    (hc : t.clock ≤ u) {p : Event ι → Prop} (hu : ∀ e ∈ t.outlook, p e → e.clock ≤ u) :
    ∀ e ∈ t'.story, p e → e.clock ≤ u := by
  intro e he hpe
  obtain he | he := List.mem_append.1 (hp.story.mem_iff.1 he)
  · exact Nat.le_trans (h.past e he) hc
  · exact hu e he hpe

/-- All events within a limit are performed, and no time passes but for these. -/
theorem Punctual.runUntil (h : t.Punctual) (limit : Option Nat) :
    Passes t (t.runUntil limit) ∧
    (∀ e ∈ (t.runUntil limit).outlook, ¬ within e.clock limit) ∧
    ∀ u, t.clock ≤ u → (∀ e ∈ t.outlook, within e.clock limit → e.clock ≤ u) →
      (t.runUntil limit).clock ≤ u := by
  fun_induction Timeline.runUntil limit t with
  | case1 t hn =>
    refine ⟨.refl h, ?_, fun u hc _ => hc⟩
    rw [next?_eq_none hn]
    exact fun e he => nomatch he
  | case2 t next hn hlimit ih =>
    obtain ⟨hp, hclock⟩ := h.passes_perform hn
    obtain ⟨hpasses, hrest, hbound⟩ := ih hp.punctual
    refine ⟨hp.trans hpasses, hrest, fun u hc hu => hbound u ?_ fun e he => ?_⟩
    · obtain ⟨e, he, heq⟩ := next_mem hn
      rw [hclock, ← heq]
      exact hu e he (by rwa [heq])
    · exact hp.bound h hc hu e (List.mem_append_right _ he)
  | case3 t next hn hlimit =>
    refine ⟨.refl h, fun e he hwithin => hlimit ?_, fun u hc _ => hc⟩
    have hle := h.next_le hn e he
    cases limit with
    | none => rfl
    | some c => simp only [within, decide_eq_true_eq] at hwithin ⊢; omega

/-! ## Rest -/

/-- All that was due has happened. -/
structure Settled (t : Timeline ι) : Prop extends Punctual t where
  quiet : ∀ e ∈ t.outlook, t.clock < e.clock

/-- At rest, what has happened is the part of the story up to now. -/
theorem Settled.log_perm (h : t.Settled) :
    (t.story.filter (·.clock ≤ t.clock)).Perm t.log := by
  have hlog : t.log.filter (·.clock ≤ t.clock) = t.log :=
    List.filter_eq_self.2 fun e he => decide_eq_true (h.past e he)
  have houtlook : t.outlook.filter (·.clock ≤ t.clock) = [] :=
    List.filter_eq_nil_iff.2 fun e he => by simpa using h.quiet e he
  rw [story, List.filter_append, hlog, houtlook, List.append_nil]

/-- At rest, what is to come is the part of the story after now. -/
theorem Settled.outlook_perm (h : t.Settled) :
    (t.story.filter (t.clock < ·.clock)).Perm t.outlook := by
  have hlog : t.log.filter (t.clock < ·.clock) = [] :=
    List.filter_eq_nil_iff.2 fun e he => by simpa using h.past e he
  have houtlook : t.outlook.filter (t.clock < ·.clock) = t.outlook :=
    List.filter_eq_self.2 fun e he => decide_eq_true (h.quiet e he)
  rw [story, List.filter_append, hlog, houtlook, List.nil_append]

/-- Time passes, and all that becomes due happens. -/
structure Settles (t t' : Timeline ι) : Prop where
  passes : Passes t.reap t'
  settled : t'.Settled

theorem Punctual.reap (h : t.Punctual) : t.reap.Punctual := ⟨h.1, h.2, h.3, h.4⟩

theorem Punctual.sleep (h : t.Punctual) (duration : Nat) : Settles t (t.sleep duration) := by
  obtain ⟨hp, hrest, hbound⟩ := h.reap.runUntil (some (Clock.after t.clock duration))
  have hclock := hbound (Clock.after t.clock duration) (Clock.le_after ..)
    fun e _ hlimit => of_decide_eq_true hlimit
  have hquiet : ∀ e ∈ (t.sleep duration).outlook, (t.sleep duration).clock < e.clock := by
    intro e he
    have hlate : Clock.after t.clock duration < e.clock := by simpa [within] using hrest e he
    exact hlate
  have hpunctual : (t.sleep duration).Punctual :=
    ⟨hp.punctual.sorted, hp.punctual.ordered,
      fun e he => Nat.le_trans (hp.punctual.past e he) hclock,
      fun e he => Nat.le_of_lt (hquiet e he)⟩
  exact ⟨⟨hpunctual, hp.story, Clock.le_after .., hp.waiting, hp.dropped⟩, ⟨hpunctual, hquiet⟩⟩

theorem Punctual.flush (h : t.Punctual) : Settles t t.flush := by
  obtain ⟨hp, hrest, hbound⟩ := h.reap.runUntil (some t.clock)
  have hclock := hbound t.clock (Nat.le_refl _) fun e _ hlimit => of_decide_eq_true hlimit
  refine ⟨hp, ⟨hp.punctual, fun e he => ?_⟩⟩
  have hlate : t.clock < e.clock := by simpa [within] using hrest e he
  exact Nat.lt_of_le_of_lt hclock hlate

theorem outlook_waitIdle (h : t.Punctual) : t.waitIdle.outlook = [] := by
  obtain ⟨-, hrest, -⟩ := h.reap.runUntil none
  exact List.eq_nil_iff_forall_not_mem.2 fun e he => hrest e he rfl

theorem Punctual.waitIdle (h : t.Punctual) : Settles t t.waitIdle := by
  obtain ⟨hp, -, -⟩ := h.reap.runUntil none
  refine ⟨hp, ⟨hp.punctual, ?_⟩⟩
  rw [outlook_waitIdle h]
  exact fun e he => nomatch he

/-! ## Idleness -/

theorem Settles.outlook_eq_nil_iff {t' : Timeline ι} (h : t.Punctual) (hw : Settles t t') :
    t'.outlook = [] ↔ ∀ e ∈ t.outlook, e.clock ≤ t'.clock := by
  constructor
  · intro hnil e he
    have hmem : e ∈ t'.log ++ t'.outlook :=
      hw.passes.story.mem_iff.2 (List.mem_append_right _ he)
    rw [hnil, List.append_nil] at hmem
    exact hw.settled.past e hmem
  · intro hall
    refine List.eq_nil_iff_forall_not_mem.2 fun e he => ?_
    have hle := hw.passes.bound h.reap hw.passes.clock_le (p := fun _ => True)
      (fun e he _ => hall e he) e (List.mem_append_right _ he) trivial
    exact Nat.not_lt.2 hle (hw.settled.quiet e he)

/-- Whoever waits for idleness waits until all that is to come has happened, and no longer. -/
theorem Punctual.clock_waitIdle_le (h : t.Punctual) {u : Nat} (hc : t.clock ≤ u) :
    t.waitIdle.clock ≤ u ↔ ∀ e ∈ t.outlook, e.clock ≤ u := by
  constructor
  · intro hu e he
    exact Nat.le_trans ((h.waitIdle.outlook_eq_nil_iff h).1 (outlook_waitIdle h) e he) hu
  · intro hu
    obtain ⟨-, -, hbound⟩ := h.reap.runUntil none
    exact hbound u hc fun e he _ => hu e he

theorem active_eq_zero_iff : t.active = 0 ↔ t.outlook = [] ∧ t.slot.dropped = 0 := by
  rw [outlook_eq_nil]
  cases h : t.slot.waiting <;> simp [active, Slot.active, Slot.load, h, and_comm]

theorem Settles.active_eq_zero_iff {t' : Timeline ι} (hw : Settles t t') :
    t'.active = 0 ↔ t'.outlook = [] := by
  rw [Timeline.active_eq_zero_iff, and_iff_left]
  exact hw.passes.dropped

end Timeline

end Typeahead
