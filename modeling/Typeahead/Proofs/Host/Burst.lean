import Typeahead.Proofs.Host.Turn

/-!
# Bursts of input

Inputs that follow one another before the delay is over lead to one parse and to one question.

- **Bursts** (`Host.Burst`): events that hold back a parse, one after the other, from rest on. In
  between time passes, and answers may come, but less than the delay of the settings.
- **Plans** (`Plan`): what a burst has left to be done, with the time at which it is due.
- **Stages** (`Plan.Stage`): how much of a plan has been done at a time. What passes takes a plan from
  stage to stage (`Plan.Stage.runUntil`, `Plan.Stage.waitAll`).
- **Collapse** (`Burst.collapses`): until the delay is over nothing is done, then the last text is
  read once, and where it has no faults the source is asked once, after as long again.
-/

namespace Typeahead

namespace Host

/-- What passes when the user does nothing. -/
inductive Wait where
  | sleep (duration : Nat)
  | reply (number : Nat) (a : Answer)

/-- The host once something has passed. -/
def wait (h : Host) : Wait → Host
  | .sleep duration => h.sleep duration
  | .reply number a => h.reply number a

/-- The host once all this has passed. -/
def waitAll (h : Host) (waits : List Wait) : Host := waits.foldl wait h

/-- A host with a reader on which nothing is held back, going on or open. -/
structure Resting (h : Host) (r : Reader) : Prop where
  unhindered : h.Unhindered
  reader : h.editor.reader = some r
  waiting : h.editor.slot.waiting = none
  passes : h.editor.passes = []
  requests : h.editor.requests = []

/-- A host with a reader from the beginning rests once the reader has read the first text. -/
theorem resting_ofReader (settings : Settings) (limit : Option Nat) (listening : Bool)
    (source : Source) (reader : Reader) :
    (ofReader settings limit listening source reader).Resting
      (reader.read settings.initialText).2.1 := by
  have hposture : (ofReader settings limit listening source reader).posture =
      _ := Editor.posture_resolveNow (r := reader) rfl true
  exact ⟨⟨rfl, rfl⟩, congrArg Posture.reader hposture, congrArg Posture.waiting hposture,
    congrArg Posture.passes hposture, congrArg Posture.requests hposture⟩

/-- Events that each hold back a parse, the next before the delay after the last is over. The second
host is the first one right after the last event. -/
inductive Burst (h : Host) : Host → Prop where
  | first {event : UserEvent} (hp : h.editor.input.prompts h.editor.settings event = true) :
      Burst h (h.handle event).1
  | next {b : Host} {event : UserEvent} (hb : Burst h b) (waits : List Wait)
      (hgap : (b.waitAll waits).editor.clock <
        Clock.after b.editor.clock b.editor.settings.delay)
      (hp : (b.waitAll waits).editor.input.prompts (b.waitAll waits).editor.settings event = true) :
      Burst h ((b.waitAll waits).handle event).1

end Host

/-- What is to be done, and when. -/
structure Plan where
  settings : Settings
  /-- The field whose text is to be read. -/
  input : Input
  reader : Reader
  /-- The questions that were asked before. -/
  asked : List Request
  /-- When the text is to be read. -/
  due : Nat

namespace Plan

variable (p : Plan)

/-- The document of the text. -/
def document : Document := (p.reader.read p.input.text).1

/-- When the source is to be asked. -/
def asking : Nat := Clock.after p.due p.settings.delay

/-- What the source is to be asked. -/
def request : Request := ⟨p.input.generation + 1, .under p.document p.input.caret, p.asking⟩

/-- A parse is held back. -/
def held (clock : Nat) : Posture where
  settings := p.settings
  input := p.input
  reader := some p.reader
  waiting := some ⟨p.due, .resolve false⟩
  passes := []
  requests := []
  asked := p.asked
  clock := clock

/-- The text has been read. -/
def resolved (waiting : Option (Waiting Action)) (clock : Nat) : Posture where
  settings := p.settings
  input := p.input.resolve p.document false
  reader := some (p.reader.read p.input.text).2.1
  waiting := waiting
  passes := []
  requests := []
  asked := p.asked
  clock := clock

/-- All has been done, and these questions have been asked. -/
def Done (h : Host) (asked : List Request) : Prop :=
  h.Spent (p.input.resolve p.document false) (p.reader.read p.input.text).2.1 asked h.editor.clock

/-- How much of the plan has been done on a host until `now`. -/
inductive Stage (now : Nat) (h : Host) : Prop where
  | held (ho : h.Unhindered) (hp : h.posture = p.held h.editor.clock) (hnow : now < p.due)
  | read (ho : h.Unhindered)
      (hp : h.posture = p.resolved (some ⟨p.asking, .fetch⟩) h.editor.clock)
      (hclean : p.document.tree.faults = []) (hdue : p.due ≤ now) (hnow : now < p.asking)
  | faulty (hd : p.Done h p.asked) (hfaulty : p.document.tree.faults ≠ []) (hdue : p.due ≤ now)
  | asked (hd : p.Done h (p.request :: p.asked)) (hclean : p.document.tree.faults = [])
      (hnow : p.asking ≤ now)

variable {p} {now limit : Nat} {h : Host}

/-- A parse that is due is over at once, and a question is held back where there are no faults. -/
theorem work_fire_held (ho : h.Unhindered) (hp : h.posture = p.held h.editor.clock)
    (hclock : h.editor.clock ≤ p.due) :
    h.fire.work.Unhindered ∧ h.fire.work.posture = p.resolved
      (if p.document.tree.faults.isEmpty then some ⟨p.asking, .fetch⟩ else none) p.due := by
  obtain ⟨ho', hwork⟩ := Host.work_fire_resolve (congrArg Posture.waiting hp) rfl ho
    (congrArg Posture.reader hp) (congrArg Posture.passes hp) (congrArg Posture.requests hp)
  refine ⟨ho', hwork.trans ?_⟩
  rw [hp, Nat.max_eq_right hclock]
  simp only [Posture.read, Posture.resolve, held, resolved, document, asking, Bool.false_or]
  by_cases hclean : (p.reader.read p.input.text).1.tree.faults.isEmpty = true
  · simp [hclean]
  · simp [hclean]

/-- A question that is due is asked, and nothing is left to be done. -/
theorem done_fire_read (ho : h.Unhindered)
    (hp : h.posture = p.resolved (some ⟨p.asking, .fetch⟩) h.editor.clock)
    (hclean : p.document.tree.faults = []) (hclock : h.editor.clock ≤ p.asking) :
    p.Done h.fire (p.request :: p.asked) ∧ h.fire.editor.clock = p.asking := by
  have hinput : h.editor.input = p.input.resolve p.document false := congrArg Posture.input hp
  have hclear := p.input.resolve_of_faults_nil hclean false
  have hphase : h.editor.input.phase ≠ .error := by
    rw [hinput, hclear]
    nofun
  have htarget : h.editor.input.target = some (.under p.document p.input.caret) := by
    rw [hinput, hclear]
  have hgeneration : h.editor.input.generation = p.input.generation := by
    rw [hinput, hclear]
  have hfire := Host.posture_fire_fetch (congrArg Posture.waiting hp) rfl hphase htarget
  rw [hgeneration, hp, Nat.max_eq_right hclock] at hfire
  have hfield : h.fire.editor.input = (p.input.resolve p.document false).fetching :=
    (congrArg Posture.input hfire).trans (congrArg Input.fetching hinput)
  have hasked : h.fire.editor.asked = p.request :: p.asked :=
    (congrArg Posture.asked hfire).trans (congrArg (p.request :: ·) (congrArg Posture.asked hp))
  exact ⟨⟨⟨ho.1, ho.2⟩, ⟨congrArg Posture.waiting hfire, congrArg Posture.passes hfire,
    congrArg Posture.reader hfire, hasked, by rw [hfield]; rfl, by rw [hfield]; rfl,
    by rw [hfield]; rfl⟩, rfl⟩, congrArg Posture.clock hfire⟩

theorem done_of_faulty (ho : h.Unhindered) (hp : h.posture = p.resolved none h.editor.clock) :
    p.Done h p.asked := by
  have hinput : h.editor.input = p.input.resolve p.document false := congrArg Posture.input hp
  exact ⟨ho, ⟨congrArg Posture.waiting hp, congrArg Posture.passes hp, congrArg Posture.reader hp,
    congrArg Posture.asked hp, by rw [hinput], by rw [hinput], by rw [hinput]⟩, rfl⟩

/-- What is left to happen once the text has been read. -/
theorem stage_turn_work (ho : h.work.Unhindered) (hclock : h.work.editor.clock = p.due)
    (hp : h.work.posture = p.resolved
      (if p.document.tree.faults.isEmpty then some ⟨p.asking, .fetch⟩ else none) p.due)
    (hlimit : p.due ≤ limit) :
    p.Stage limit (h.turn (some limit)).work ∧
      p.due ≤ (h.turn (some limit)).work.editor.clock ∧
      (h.turn (some limit)).work.editor.clock ≤ limit := by
  have hle : p.due ≤ p.asking := Clock.le_after _ _
  by_cases hclean : p.document.tree.faults = []
  · rw [hclean, List.isEmpty_nil, if_pos rfl] at hp
    by_cases hasking : p.asking ≤ limit
    · obtain ⟨hd, hclock'⟩ := done_fire_read (h := h.work) ho (by rw [hp, hclock]) hclean
        (by rw [hclock]; exact hle)
      have hd' := hd.work
      have hclock'' := hd'.clock_eq.trans hclock'
      rw [Host.turn_of_le (congrArg Posture.waiting hp) hasking]
      exact ⟨.asked hd'.self hclean hasking, by omega, by omega⟩
    · rw [Host.turn_of_lt, Host.work_of_calm ho (congrArg Posture.passes hp)
        (congrArg Posture.requests hp)]
      · have hclock' : h.work.reap.editor.clock = p.due := hclock
        refine ⟨.read ⟨ho.1, ho.2⟩ ?_ hclean hlimit (Nat.not_le.1 hasking), by omega, by omega⟩
        rw [hclock']
        exact hp
      · intro w hw
        have hwaiting := congrArg Posture.waiting hp
        cases hw.symm.trans hwaiting
        exact Nat.not_le.1 hasking
  · rw [if_neg (by simpa using hclean)] at hp
    have hd := (done_of_faulty (h := h.work) ho (by rw [hp, hclock])).work
    have hclock' := hd.clock_eq.trans hclock
    rw [Host.turn_of_lt]
    · exact ⟨.faulty hd.self hclean hlimit, by omega, by omega⟩
    · intro w hw
      cases hw.symm.trans (congrArg Posture.waiting hp)

namespace Stage

/-- Before a parse is due it is held back. -/
theorem held_of_lt (hs : p.Stage now h) (hnow : now < p.due) :
    h.Unhindered ∧ h.posture = p.held h.editor.clock := by
  have hle : p.due ≤ p.asking := Clock.le_after _ _
  cases hs with
  | held ho hp => exact ⟨ho, hp⟩
  | read | faulty | asked => omega

/-- What happens up to a limit takes a plan to the stage of the limit. -/
theorem runUntil (hs : p.Stage now h) (hclock : h.editor.clock ≤ now) (hlimit : now ≤ limit) :
    p.Stage limit (h.runUntil (some limit)) ∧
      h.editor.clock ≤ (h.runUntil (some limit)).editor.clock ∧
      (h.runUntil (some limit)).editor.clock ≤ limit := by
  cases hs with
  | held ho hp hnow =>
    have hpasses : h.editor.passes = [] := congrArg Posture.passes hp
    have hrequests : h.editor.requests = [] := congrArg Posture.requests hp
    have hwaiting : h.editor.slot.waiting = some ⟨p.due, .resolve false⟩ :=
      congrArg Posture.waiting hp
    by_cases hdue : p.due ≤ limit
    · have hle : h.editor.clock ≤ p.due := by omega
      obtain ⟨ho', hp'⟩ := work_fire_held (h := h.reap) ⟨ho.1, ho.2⟩ hp hle
      obtain ⟨hs, hge, hle'⟩ := stage_turn_work ho' (congrArg Posture.clock hp') hp' hdue
      rw [Host.runUntil_of_le ho hpasses hrequests hwaiting hdue]
      exact ⟨hs, Nat.le_trans hle hge, hle'⟩
    · rw [Host.runUntil_of_lt ho hpasses hrequests hwaiting (Nat.not_le.1 hdue)]
      exact ⟨.held ⟨ho.1, ho.2⟩ hp (Nat.not_le.1 hdue), Nat.le_refl _, Nat.le_trans hclock hlimit⟩
  | read ho hp hclean hdue hnow =>
    have hpasses : h.editor.passes = [] := congrArg Posture.passes hp
    have hrequests : h.editor.requests = [] := congrArg Posture.requests hp
    have hwaiting : h.editor.slot.waiting = some ⟨p.asking, .fetch⟩ :=
      congrArg Posture.waiting hp
    by_cases hasking : p.asking ≤ limit
    · have hle : h.editor.clock ≤ p.asking := by omega
      obtain ⟨hd, hclock'⟩ := done_fire_read (h := h.reap) ⟨ho.1, ho.2⟩ hp hclean hle
      have hd' := (hd.turn (some limit)).work
      have hclock'' := hd'.clock_eq.trans hclock'
      rw [Host.runUntil_of_le ho hpasses hrequests hwaiting hasking]
      exact ⟨.asked hd'.self hclean hasking, by omega, by omega⟩
    · rw [Host.runUntil_of_lt ho hpasses hrequests hwaiting (Nat.not_le.1 hasking)]
      exact ⟨.read ⟨ho.1, ho.2⟩ hp hclean (Nat.le_trans hdue hlimit) (Nat.not_le.1 hasking),
        Nat.le_refl _, Nat.le_trans hclock hlimit⟩
  | faulty hd hfaulty hdue =>
    have hd' := Host.Spent.runUntil hd (some limit)
    have hclock' := hd'.clock_eq
    exact ⟨.faulty hd'.self hfaulty (Nat.le_trans hdue hlimit), by omega, by omega⟩
  | asked hd hclean hnow =>
    have hd' := Host.Spent.runUntil hd (some limit)
    have hclock' := hd'.clock_eq
    exact ⟨.asked hd'.self hclean (Nat.le_trans hnow hlimit), by omega, by omega⟩

/-- Setting the clock does nothing. -/
theorem setClock (hs : p.Stage now h) (clock : Nat) : p.Stage now (h.setClock clock) := by
  cases hs with
  | held ho hp hnow => exact .held ⟨ho.1, ho.2⟩ (congrArg (fun q => { q with clock }) hp) hnow
  | read ho hp hclean hdue hnow =>
    exact .read ⟨ho.1, ho.2⟩ (congrArg (fun q => { q with clock }) hp) hclean hdue hnow
  | faulty hd hfaulty hdue =>
    exact .faulty ⟨⟨hd.1.1, hd.1.2⟩, { hd.2 with waiting := hd.2.waiting }, rfl⟩ hfaulty hdue
  | asked hd hclean hnow =>
    exact .asked ⟨⟨hd.1.1, hd.1.2⟩, { hd.2 with waiting := hd.2.waiting }, rfl⟩ hclean hnow

/-- What is due already is done, and the plan is at the stage that it was at. -/
theorem flush (hs : p.Stage h.editor.clock h) :
    p.Stage h.flush.editor.clock h.flush ∧ h.editor.clock ≤ h.flush.editor.clock := by
  obtain ⟨hs', hge, hle⟩ := hs.runUntil (Nat.le_refl _) (Nat.le_refl _)
  rw [Host.flush, Nat.le_antisymm hle hge]
  exact ⟨hs', Nat.le_refl _⟩

/-- Whatever passes takes a plan to the stage of its time, and time does not go back. -/
theorem wait (hs : p.Stage h.editor.clock h) (w : Host.Wait) :
    p.Stage (h.wait w).editor.clock (h.wait w) ∧ h.editor.clock ≤ (h.wait w).editor.clock := by
  cases w with
  | sleep duration =>
    have hle := Clock.le_after h.editor.clock duration
    exact ⟨(hs.runUntil (Nat.le_refl _) hle).1.setClock _, hle⟩
  | reply number a =>
    have hdone : ∀ {asked}, p.Done h asked →
        p.Done (h.reply number a) asked ∧ (h.reply number a).editor.clock = h.editor.clock :=
      fun hd => ⟨(Host.Spent.reply hd number a).self, (Host.Spent.reply hd number a).clock_eq⟩
    have hs' := hs
    cases hs with
    | held ho hp hnow =>
      rw [Host.wait, Host.reply_of_nil (congrArg Posture.requests hp)]
      exact hs'.flush
    | read ho hp hclean hdue hnow =>
      rw [Host.wait, Host.reply_of_nil (congrArg Posture.requests hp)]
      exact hs'.flush
    | faulty hd hfaulty hdue =>
      obtain ⟨hd', hclock⟩ := hdone hd
      exact ⟨.faulty hd' hfaulty (Nat.le_trans hdue (Nat.le_of_eq hclock.symm)),
        Nat.le_of_eq hclock.symm⟩
    | asked hd hclean hnow =>
      obtain ⟨hd', hclock⟩ := hdone hd
      exact ⟨.asked hd' hclean (Nat.le_trans hnow (Nat.le_of_eq hclock.symm)),
        Nat.le_of_eq hclock.symm⟩

theorem waitAll (hs : p.Stage h.editor.clock h) (waits : List Host.Wait) :
    p.Stage (h.waitAll waits).editor.clock (h.waitAll waits) ∧
      h.editor.clock ≤ (h.waitAll waits).editor.clock := by
  induction waits generalizing h with
  | nil => exact ⟨hs, Nat.le_refl _⟩
  | cons w waits ih =>
    obtain ⟨hs', hle⟩ := hs.wait w
    obtain ⟨hs'', hle'⟩ := ih hs'
    exact ⟨hs'', Nat.le_trans hle hle'⟩

/-- Once the parse is over, it is the text, the document and the target of the plan that are there. -/
theorem resolved_of_le (hs : p.Stage now h) (hdue : p.due ≤ now) :
    h.editor.reader = some (p.reader.read p.input.text).2.1 ∧
      h.editor.input.text = p.input.text ∧ h.editor.input.document = some p.document ∧
      h.editor.input.target = (p.input.resolve p.document false).target := by
  have hdocument := (p.input.document_resolve p.document false).1
  cases hs with
  | held ho hp hnow => omega
  | read ho hp =>
    have hinput : h.editor.input = p.input.resolve p.document false := congrArg Posture.input hp
    rw [hinput, Input.text_resolve]
    exact ⟨congrArg Posture.reader hp, rfl, hdocument, rfl⟩
  | faulty hd =>
    exact ⟨hd.editor.reader, hd.editor.text.trans (p.input.text_resolve ..),
      hd.editor.document.trans hdocument, hd.editor.target⟩
  | asked hd =>
    exact ⟨hd.editor.reader, hd.editor.text.trans (p.input.text_resolve ..),
      hd.editor.document.trans hdocument, hd.editor.target⟩

/-- Where there are no faults the source is asked when its time has come. -/
theorem asked_of_le (hs : p.Stage now h) (hclean : p.document.tree.faults = [])
    (hnow : p.asking ≤ now) : h.editor.asked = p.request :: p.asked := by
  have hle : p.due ≤ p.asking := Clock.le_after _ _
  cases hs with
  | held | read => omega
  | faulty hd hfaulty => exact absurd hclean hfaulty
  | asked hd => exact hd.editor.asked

/-- Where there are faults, and before its time has come, the source is not asked. -/
theorem asked_of_lt (hs : p.Stage now h) (hnow : p.document.tree.faults ≠ [] ∨ now < p.asking) :
    h.editor.asked = p.asked := by
  cases hs with
  | held ho hp => exact congrArg Posture.asked hp
  | read ho hp => exact congrArg Posture.asked hp
  | faulty hd => exact hd.editor.asked
  | asked hd hclean hle =>
    rcases hnow with hfaulty | hlt
    · exact absurd hclean hfaulty
    · omega

end Stage

end Plan


namespace Host

/-- What a burst from `h` to `b` has left to be done. -/
def plan (h b : Host) (r : Reader) : Plan where
  settings := h.editor.settings
  input := b.editor.input
  reader := r
  asked := h.editor.asked
  due := Clock.after b.editor.clock h.editor.settings.delay

variable {h b : Host} {r : Reader}

/-- An event that holds back a parse leaves that parse to be done. -/
theorem stage_handle {event : UserEvent} (ho : h.Unhindered) (hr : h.editor.reader = some r)
    (hpasses : h.editor.passes = []) (hrequests : h.editor.requests = [])
    (hdelay : 0 < h.editor.settings.delay)
    (hp : h.editor.input.prompts h.editor.settings event = true) :
    (h.plan (h.handle event).1 r).Stage (h.handle event).1.editor.clock (h.handle event).1 := by
  have hposture := (h.editor.prompted_handle hp).posture
  have hclock : (h.handle event).1.editor.clock = h.editor.clock := congrArg Posture.clock hposture
  have hlt := Clock.lt_after hdelay (h.handle event).1.editor.clock
  refine .held ⟨ho.1, ho.2⟩ (hposture.trans ?_) hlt
  rw [Plan.held, plan, hclock, ← hr, ← hpasses, ← hrequests]
  rfl

/-- A burst leaves the parse of its last text to be done. -/
theorem Burst.stage (hr : h.Resting r) (hdelay : 0 < h.editor.settings.delay) (hb : h.Burst b) :
    (h.plan b r).Stage b.editor.clock b := by
  induction hb with
  | first hp => exact stage_handle hr.unhindered hr.reader hr.passes hr.requests hdelay hp
  | @next b event hb waits hgap hp ih =>
    have hb := (ih.held_of_lt (Clock.lt_after hdelay _)).2
    rw [show b.editor.settings = h.editor.settings from congrArg Posture.settings hb] at hgap
    obtain ⟨ho, hw⟩ := (ih.waitAll waits).1.held_of_lt hgap
    have hsettings : (b.waitAll waits).editor.settings = h.editor.settings :=
      congrArg Posture.settings hw
    have hasked : (b.waitAll waits).editor.asked = h.editor.asked := congrArg Posture.asked hw
    have hs := stage_handle ho (congrArg Posture.reader hw) (congrArg Posture.passes hw)
      (congrArg Posture.requests hw) (by rwa [hsettings]) hp
    rwa [plan, hsettings, hasked] at hs

/-- **A burst collapses.** Events follow one another from rest on, each before the delay after the
one before it is over. Until the delay after the last one is over nothing is read or asked. Then the
last text is read once, its document is put in place, and where it has no faults the node under the
last caret is the target. The source is asked about this target after as long again, once, and not
at all where there are faults. -/
theorem Burst.collapses (hr : h.Resting r) (hdelay : 0 < h.editor.settings.delay) (hb : h.Burst b)
    (waits : List Wait) :
    let input := b.editor.input
    let r' := (r.read input.text).2.1
    let d := (r.read input.text).1
    let due := Clock.after b.editor.clock h.editor.settings.delay
    let asking := Clock.after due h.editor.settings.delay
    let e := (b.waitAll waits).editor
    (e.clock < due → e.input = input ∧ e.reader = some r) ∧
      (due ≤ e.clock → e.input.text = input.text ∧ e.reader = some r' ∧
        e.input.document = some d ∧
        (d.tree.faults = [] → e.input.target = some (.under d input.caret))) ∧
      (r'.memory.score.total = r.memory.score.total + 1 ∧ r'.parses ≤ r.parses + 1) ∧
      (d.tree.faults = [] → asking ≤ e.clock → e.asked =
        ⟨input.generation + 1, .under d input.caret, asking⟩ :: h.editor.asked) ∧
      (d.tree.faults ≠ [] ∨ e.clock < asking → e.asked = h.editor.asked) := by
  intro input r' d due asking e
  obtain ⟨hs, -⟩ := (hb.stage hr hdelay).waitAll waits
  refine ⟨fun hlt => ?_, fun hle => ?_, r.counts_read input.text, hs.asked_of_le, hs.asked_of_lt⟩
  · have hheld := (hs.held_of_lt hlt).2
    exact ⟨congrArg Posture.input hheld, congrArg Posture.reader hheld⟩
  · obtain ⟨hreader, htext, hdocument, htarget⟩ := hs.resolved_of_le hle
    exact ⟨htext, hreader, hdocument, fun hclean =>
      htarget.trans (congrArg Input.target (input.resolve_of_faults_nil hclean false))⟩

/-- A host on which nothing has been typed yet, with a parser that takes any text for one node. -/
def blank (delay : Nat) : Host :=
  .ofReader { delay } none false .pending (.hashed (fun _ => 0) 1 .whole)

/-- A letter is typed, and another one before the first has been read. -/
theorem Burst.collapses_typing : ∃ (b : Host) (r : Reader),
    (blank 300).Resting r ∧ 0 < (blank 300).editor.settings.delay ∧ (blank 300).Burst b ∧
      b.editor.clock = 200 ∧ (r.read "ab").1.tree.faults = [] ∧
      (b.waitAll [.sleep 700]).editor.asked = [⟨1, .under (r.read "ab").1 2, 800⟩] := by
  have hr : (blank 300).Resting _ := resting_ofReader ..
  have hdelay : 0 < (blank 300).editor.settings.delay := by decide
  have ha : (blank 300).editor.input.prompts (blank 300).editor.settings (.text "a") = true := by
    decide
  have hb := (Burst.first ha).next [.sleep 200] (by decide)
    (show Input.prompts _ _ (.text "ab") = true by decide)
  refine ⟨_, _, hr, hdelay, hb, by decide, rfl, ?_⟩
  exact (hb.collapses hr hdelay [.sleep 700]).2.2.2.1 rfl (by decide)

/-- No timer waits for more than thirty years: with a longer delay the text is read too early. -/
theorem Burst.collapses_early :
    let h := blank (Clock.longestWait + 1)
    ∃ (b : Host) (r : Reader), h.Resting r ∧ 0 < h.editor.settings.delay ∧ h.Burst b ∧
      (b.waitAll [.sleep Clock.longestWait]).editor.clock <
        b.editor.clock + h.editor.settings.delay ∧
      (b.waitAll [.sleep Clock.longestWait]).editor.reader ≠ some r := by
  intro h
  have hr : h.Resting _ := resting_ofReader ..
  have hdelay : 0 < h.editor.settings.delay := Nat.succ_pos _
  have ha : h.editor.input.prompts h.editor.settings (.text "a") = true := by decide
  have hb := Burst.first ha
  have hs := ((hb.stage hr hdelay).waitAll [.sleep Clock.longestWait]).1
  refine ⟨_, _, hr, hdelay, hb, by decide, fun heq => ?_⟩
  have hreader := (hs.resolved_of_le (by decide)).1
  exact Reader.read_ne _ _ (Option.some.inj (hreader.symm.trans heq))

end Host

end Typeahead
