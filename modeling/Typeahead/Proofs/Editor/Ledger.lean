import Typeahead.Proofs.Editor.Account
import Typeahead.Proofs.Editor.Documents

/-!
# Answers that come too late

Whether an answer is taken or dropped is decided when it comes, by the generation and the target that
the field has by then. Both tell what has happened since the question was asked.

- **The panel** is closed by the user, by a selection, by a text with faults, or by a source that
  fails (`Course.Shuts`), and by nothing else (`Course.panelOpen_eq_false_iff`).
- **Generations** begin with a question or with a panel that is closed (`Course.Overtakes`), and
  never else (`Course.generation_perform`).
- **Since a question** (`Course.Since`): the moves that have followed the one by which it was asked.
  What holds of none, and goes on to hold with each, holds of them (`Course.Run.since_induction`).
- **Outdated questions** (`Course.Outdated`): those whose answers are dropped
  (`Course.Run.wants_iff`).

So every question is accounted for (`Course.Run.accounted`).
-/

namespace Typeahead

namespace Input

variable {i j k : Input} {d : Document}

/-- The panel is as it was, and no generation has begun. -/
def Stays (i j : Input) : Prop := j.generation = i.generation ∧ j.panelOpen = i.panelOpen

/-- The panel is closed, and a generation has begun. -/
def Closes (i j : Input) : Prop := i.generation < j.generation ∧ j.panelOpen = false

theorem Stays.closes (h : i.Stays j) (h' : j.Closes k) : i.Closes k :=
  ⟨Nat.lt_of_le_of_lt (Nat.le_of_eq h.1.symm) h'.1, h'.2⟩

theorem closes_closePanel (i : Input) : i.Closes i.closePanel := ⟨Nat.lt_succ_self _, rfl⟩

theorem stays_resolve (h : d.tree.faults = []) (silent : Bool) : i.Stays (i.resolve d silent) := by
  rw [i.resolve_of_faults_nil h]
  exact ⟨rfl, rfl⟩

theorem closes_resolve (h : d.tree.faults ≠ []) (silent : Bool) :
    i.Closes (i.resolve d silent) := by
  unfold resolve
  split
  · exact ⟨Nat.lt_succ_self _, rfl⟩
  · contradiction

/-- A panel that is closed stays closed for any document. -/
theorem Closes.resolve (h : i.Closes j) (d : Document) (silent : Bool) :
    i.Closes (j.resolve d silent) := by
  by_cases hf : d.tree.faults = []
  · obtain ⟨hg, ho⟩ := j.stays_resolve hf silent
    exact ⟨Nat.lt_of_lt_of_eq h.1 hg.symm, ho.trans h.2⟩
  · obtain ⟨hg, ho⟩ := j.closes_resolve hf silent
    exact ⟨Nat.lt_trans h.1 hg, ho⟩

theorem closes_taken_error (s : Settings) (limit : Option Nat) (r : Request) (message : String) :
    i.Closes (i.taken s limit r (.error message)) := by
  simp only [taken, fail]
  split <;> exact ⟨Nat.lt_succ_self _, rfl⟩

/-- An answer is wanted for a question of the present generation that is about the target. -/
theorem wants_of_eq {r : Request} (hg : i.generation = r.generation)
    (ht : i.target = some r.target) : i.wants r = true := by
  rw [wants, hg, ht, beq_self_eq_true, Bool.true_and]
  exact r.target.beq_self

end Input

/-- An event that chooses a candidate selects it. -/
theorem Editor.handle_of_chooses (e : Editor) {event : UserEvent} {candidate : String}
    (h : e.input.chooses event = some candidate) : e.handle event = e.select candidate := by
  cases event with
  | enter =>
    simp only [Input.chooses] at h
    split at h
    · rename_i ho
      simp only [handle, enter, h, ho, if_true]
    · cases h
  | click =>
    simp only [Input.chooses] at h
    split at h
    · rename_i hm
      cases h
      simp only [handle, click, hm, if_true]
    · cases h
  | _ => cases h

/-- What a user does either leaves the panel as it is, or closes it. -/
theorem Parts.Step.panel_of_user {p p' : Parts} {event : UserEvent} (h : p.Step (.user event) p') :
    p.input.Stays p'.input ∨ p.input.Closes p'.input := by
  cases h with
  | idle | edit | recheck | highlight | hover => exact .inl ⟨rfl, rfl⟩
  | close => exact .inr p.input.closes_closePanel
  | select => exact .inr ⟨Nat.lt_succ_self _, rfl⟩
  | @selectAndResolve _ candidate n _ _ d =>
    have hc : p.input.Closes (p.chosen n candidate) := ⟨Nat.lt_succ_self _, rfl⟩
    exact .inr (hc.resolve d true)

/-- An open question is the only one of its generation. -/
theorem Parts.Numbered.request?_of_mem {p : Parts} {r : Request} (n : p.Numbered)
    (hr : r ∈ p.requests) : p.request? r.generation = some r := by
  cases hf : p.request? r.generation with
  | none => exact absurd (beq_self_eq_true _) (List.find?_eq_none.1 hf r hr)
  | some q =>
    have hg : q.generation = r.generation := beq_iff_eq.1 (List.find?_some hf :)
    rw [List.inj_on_of_nodup_map n.nodup (List.mem_of_find?_eq_some hf) hr hg]

namespace Course

variable {c : Course} {m : Move} {r : Request} {d : Document}

/-! ## The panel -/

/-- A document is put in place by the move. -/
inductive Lands (c : Course) : Move → Document → Prop
  | install {reader : Reader} :
      Lands c (.compiled (.ok reader)) (reader.read c.editor.input.text).1
  | parse {index : Nat} {silent : Bool} {reader : Reader} :
      c.ripe[index]? = some (.resolve silent) → c.editor.reader = some reader →
      c.editor.input.text.utf8ByteSize < Editor.longText →
      Lands c (.begin index) (reader.read c.editor.input.text).1
  | pass {index : Nat} {q : Pass} {d : Document} : c.editor.passes[index]? = some q →
      q.stage = .done d → c.editor.input.text = q.text → Lands c (.advance index) d

/-- The panel is closed by the move, if it is open. -/
inductive Shuts (c : Course) : Move → Prop
  /-- The user closes it, or selects. -/
  | user {event : UserEvent} : c.Closes event → Shuts c (.user event)
  /-- The text has faults. -/
  | faulty {m : Move} {d : Document} : c.Lands m d → d.tree.faults ≠ [] → Shuts c m
  /-- The source has failed. -/
  | failed {generation : Nat} {r : Request} (message : String) :
      c.editor.request? generation = some r → c.editor.input.wants r = true →
      Shuts c (.answer generation (.error message))

theorem Closes.closes {event : UserEvent} (h : c.Closes event) :
    c.editor.input.Closes (c.perform (.user event)).editor.input :=
  (c.step_user event).panel_of_user.resolve_left
    fun hs => Nat.ne_of_lt h.generation_lt hs.1.symm

/-- Whatever else a user does leaves the panel as it is. -/
theorem stays_user {event : UserEvent} (h : ¬ c.Closes event) :
    c.editor.input.Stays (c.perform (.user event)).editor.input := by
  change c.editor.input.Stays (c.editor.handle event).1.input
  cases hp : c.editor.input.prompts c.editor.settings event with
  | true =>
    have hu := c.editor.prompted_handle hp
    generalize (c.editor.handle event).1 = e' at hu ⊢
    cases hu <;> exact ⟨rfl, rfl⟩
  | false =>
    have hu := c.editor.unprompted_handle hp
    have unselected : (c.editor.handle event).2 = none :=
      Option.not_isSome_iff_eq_none.1 fun hs => h (.inr hs)
    by_cases hb : event = .blur ∧ c.editor.input.hovering = true
    · obtain ⟨rfl, hh⟩ := hb
      simp only [Editor.handle, hh, if_true]
      exact ⟨rfl, rfl⟩
    have unclosed : event.closes = false := Bool.eq_false_iff.2 fun hc =>
      h (.inl ⟨hc, fun he => Bool.eq_false_iff.2 fun hh => hb ⟨he, hh⟩⟩)
    generalize he : (c.editor.handle event).1 = e' at hu ⊢
    cases hu with
    | none | highlight | hover => exact ⟨rfl, rfl⟩
    | close hc =>
      rw [unclosed] at hc
      cases hc
    | select hc hs | selectAndResolve hc hs =>
      rw [c.editor.handle_of_chooses hc, c.editor.select_eq hs] at unselected
      cases unselected

/-- The field of a document that is put in place is the one before, but for what does not show. -/
theorem Lands.input (h : c.Lands m d) (w : c.parts.Prepared) : ∃ i silent,
    c.editor.input.Stays i ∧ (c.perform m).editor.input = i.resolve d silent := by
  cases h with
  | @install reader =>
    have hr : ({ c.editor.publish c.editor.input.readied with reader := some reader } :
      Editor).reader = some reader := rfl
    exact ⟨c.editor.input.readied, true, ⟨rfl, rfl⟩, Editor.input_resolveNow hr true⟩
  | @parse index silent reader ha hr hl =>
    refine ⟨c.editor.input, silent, ⟨rfl, rfl⟩, ?_⟩
    simp only [perform, ha, Editor.perform]
    rw [Editor.resolve_short hr silent hl, Editor.input_resolveNow hr]
  | @pass index q _ hq hs ht =>
    obtain ⟨reader, hr⟩ :=
      Option.ne_none_iff_exists'.1 (w.reader_ne_of_mem_passes (List.mem_of_getElem? hq))
    refine ⟨c.editor.input, q.silent, ⟨rfl, rfl⟩, ?_⟩
    rw [perform, Editor.advance_of_done _ hr hq hs, ← ht]
    exact Editor.input_finish { c.editor with passes := c.editor.passes.eraseIdx index } d q.silent

theorem Shuts.closes (h : c.Shuts m) (w : c.parts.Prepared) :
    c.editor.input.Closes (c.perform m).editor.input := by
  cases h with
  | user hc => exact hc.closes
  | faulty hl hf =>
    obtain ⟨i, silent, hs, he⟩ := hl.input w
    rw [he]
    exact hs.closes (i.closes_resolve hf silent)
  | failed message hr hw =>
    rw [perform, Editor.input_answer hr, if_pos hw]
    exact Input.closes_taken_error ..

/-- Where nothing is asked and nothing closes the panel, it stays as it is. -/
theorem stays_perform (had : c.Admits m) (hs : ¬ c.Shuts m) (hq : ∀ q, ¬ c.Poses m q) :
    c.editor.input.Stays (c.perform m).editor.input := by
  by_cases hu : ∃ event, m = .user event
  · obtain ⟨event, rfl⟩ := hu
    exact stays_user fun hc => hs (.user hc)
  have faultless : ∀ {d}, c.Lands m d → d.tree.faults = [] :=
    fun hl => Classical.byContradiction fun hf => hs (.faulty hl hf)
  have hstep := c.step_parts had
  change c.editor.input.Stays (c.perform m).parts.input
  generalize (c.perform m).parts = p' at hstep ⊢
  cases hstep with
  | idle | reject | ripen | lapse | parseLong | look | drop | discard => exact ⟨rfl, rfl⟩
  | edit | recheck | highlight | hover | close | select | selectAndResolve =>
    exact absurd ⟨_, rfl⟩ hu
  | install _ _ hd =>
    obtain rfl := congrArg Prod.fst hd
    exact Input.stays_resolve (i := c.editor.input.readied) (faultless .install) true
  | @parse _ silent _ _ _ _ ha hr hl hd =>
    obtain rfl := congrArg Prod.fst hd
    exact Input.stays_resolve (faultless (.parse ha hr hl)) silent
  | @ask index t clock ha hp ht =>
    have asks : c.Asks (.begin index) := ⟨index, rfl, ha⟩
    exact absurd (asks.asked_perform hp ht).1 (hq _)
  | put hp hd ht => exact Input.stays_resolve (faultless (.pass hp hd ht)) _
  | take a hr hw =>
    cases a with
    | ok => exact ⟨rfl, rfl⟩
    | error message => exact absurd (.failed message hr hw) hs

/-- An open panel is closed by the moves that shut it, and by no others. -/
theorem panelOpen_eq_false_iff (had : c.Admits m) (w : c.parts.Prepared)
    (ho : c.editor.input.panelOpen = true) :
    (c.perform m).editor.input.panelOpen = false ↔ c.Shuts m := by
  refine ⟨fun hc => ?_, fun h => (h.closes w).2⟩
  by_contra hs
  by_cases hq : ∃ q, c.Poses m q
  · obtain ⟨q, hq⟩ := hq
    rw [hq.perform.2.1] at hc
    cases hc
  · rw [(stays_perform had hs fun q h => hq ⟨q, h⟩).2, ho] at hc
    cases hc

/-! ## Generations -/

/-- The move overtakes what was asked before: it asks another question, or it closes the panel. -/
def Overtakes (c : Course) (m : Move) : Prop := (∃ q, c.Poses m q) ∨ c.Shuts m

/-- A generation begins with a move that overtakes, and with no other. -/
theorem generation_perform (had : c.Admits m) (w : c.parts.Prepared) :
    (c.Overtakes m → c.editor.input.generation < (c.perform m).editor.input.generation) ∧
      (¬ c.Overtakes m →
        (c.perform m).editor.input.generation = c.editor.input.generation) := by
  refine ⟨fun h => ?_, fun h => ?_⟩
  · rcases h with ⟨q, hq⟩ | hs
    · rw [hq.perform.2.1]
      exact Nat.lt_succ_self _
    · exact (hs.closes w).1
  · exact (stays_perform had (fun hs => h (.inr hs)) fun q hq => h (.inl ⟨q, hq⟩)).1

/-! ## Since a question -/

/-- These moves have followed the one by which the question was asked. -/
def Since (history : History) (r : Request) (later : History) : Prop :=
  ∃ found m before, history = later ++ (found, m) :: before ∧ found.Poses m r

variable {allowed : Course → Move → Prop} {settings : Settings} {limit : Option Nat}
  {listening : Bool} {first : Course} {history later : History}

/-- What holds when a question is asked, and goes on to hold with every move, holds later. -/
theorem Run.since_induction {P : History → Course → Prop} (h : Run allowed first history c)
    (hs : Since history r later)
    (posed : ∀ {before found m}, Run allowed first before found → found.Poses m r →
      P [] (found.perform m))
    (step : ∀ {earlier later c m}, Run allowed first earlier c → c.Admits m →
      Since earlier r later → P later c → P ((c, m) :: later) (c.perform m)) : P later c := by
  induction h generalizing later with
  | start =>
    obtain ⟨found, m, before, he, -⟩ := hs
    cases later <;> cases he
  | @step earlier c m h had _ ih =>
    obtain ⟨found, m', before, he, hq⟩ := hs
    cases later with
    | nil =>
      cases he
      exact posed h hq
    | cons cm later =>
      obtain ⟨rfl, hrest⟩ := List.cons.inj he
      have since : Since earlier r later := ⟨found, m', before, hrest, hq⟩
      exact step h had since (ih since)

/-- The generation of a question is the present one until a move overtakes it. -/
theorem Run.generation_since (h : Run allowed (fresh settings limit listening) history c)
    (hs : Since history r later) : r.generation ≤ c.editor.input.generation ∧
      ((∃ cm ∈ later, cm.1.Overtakes cm.2) ↔ r.generation ≠ c.editor.input.generation) := by
  refine h.since_induction (P := fun later c => r.generation ≤ c.editor.input.generation ∧
    ((∃ cm ∈ later, cm.1.Overtakes cm.2) ↔ r.generation ≠ c.editor.input.generation)) hs
    (fun _ hq => ?_) (fun {earlier later c m} h had _ ih => ?_)
  · have hg : r.generation = _ := hq.perform.1
    rw [hq.perform.2.1]
    refine ⟨Nat.le_of_eq hg, fun ⟨_, hm, _⟩ => (by cases hm), fun hne => absurd hg hne⟩
  · obtain ⟨hle, hiff⟩ := ih
    obtain ⟨begins, keeps⟩ := generation_perform had h.orderly.prepared
    rw [List.exists_mem_cons_iff, hiff]
    by_cases ho : c.Overtakes m
    · have := begins ho
      exact ⟨by omega, fun _ => by omega, fun _ => .inl ho⟩
    · rw [keeps ho]
      exact ⟨hle, fun h => h.resolve_left ho, .inr⟩

/-- A question is about the target until that becomes another node. -/
theorem Run.target_since (h : Run allowed first history c) (hs : Since history r later)
    (ht : c.editor.input.target ≠ some r.target) :
    ∃ cm ∈ later, (cm.1.perform cm.2).editor.input.target ≠ some r.target := by
  refine h.since_induction (P := fun later c => c.editor.input.target ≠ some r.target →
    ∃ cm ∈ later, (cm.1.perform cm.2).editor.input.target ≠ some r.target) hs
    (fun _ hq hne => ?_) (fun _ _ _ _ hne => ⟨_, List.mem_cons_self, hne⟩) ht
  rw [hq.perform.2.1] at hne
  exact absurd hq.asks.2.2 hne

/-- A question that is open was asked. -/
theorem Run.exists_since (h : Run allowed first history c) (hf : first.editor.requests = [])
    (hr : r ∈ c.editor.requests) : ∃ later, Since history r later := by
  induction h with
  | start =>
    rw [hf] at hr
    cases hr
  | @step history c m _ had _ ih =>
    have goes_on : r ∈ c.editor.requests → ∃ later, Since ((c, m) :: history) r later := by
      intro hr
      obtain ⟨later, found, m', before, he, hq⟩ := ih hr
      exact ⟨(c, m) :: later, found, m', before, congrArg _ he, hq⟩
    cases books had with
    | @asks q hq _ =>
      rw [hq.perform.2.2.1] at hr
      rcases List.mem_append.1 hr with hr | hr
      · exact goes_on hr
      · obtain rfl := List.mem_singleton.1 hr
        exact ⟨[], c, m, history, rfl, hq⟩
    | answers hm =>
      subst hm
      have hr : r ∈ (c.editor.answer _ _).requests := hr
      rw [c.editor.requests_answer] at hr
      exact goes_on (List.mem_of_mem_eraseP hr)
    | neither _ _ _ he =>
      rw [he] at hr
      exact goes_on hr

/-- The move answers an open question of the generation. -/
def Answers (generation : Nat) (cm : Course × Move) : Bool :=
  (cm.1.parts.answered? cm.2).any (·.generation == generation)

/-- The number of open questions of a generation. -/
def unanswered (c : Course) (generation : Nat) : Nat :=
  (c.editor.requests.map (·.generation)).count generation

theorem unanswered_of_poses (n : c.parts.Numbered) (hq : c.Poses m r) :
    (c.perform m).unanswered r.generation = 1 := by
  obtain ⟨hg, -, hr, -⟩ := hq.perform
  have absent : r.generation ∉ c.editor.requests.map (·.generation) := by
    intro hm
    obtain ⟨q, hq, he⟩ := List.mem_map.1 hm
    have : q.generation ≤ c.editor.input.generation := n.le q hq
    omega
  rw [unanswered, hr, List.map_append, List.count_append, List.count_eq_zero_of_not_mem absent,
    Nat.zero_add]
  exact List.count_singleton_self

/-- Of the questions up to now, a move closes the one that it answers. -/
theorem unanswered_perform (had : c.Admits m) {generation : Nat}
    (hle : generation ≤ c.editor.input.generation) :
    (if Answers generation (c, m) then 1 else 0) + (c.perform m).unanswered generation =
      c.unanswered generation := by
  unfold unanswered
  cases books had with
  | @asks q hq hn =>
    obtain ⟨hg, -, hr, -⟩ := hq.perform
    have later : generation ∉ [q].map (·.generation) := by
      rw [List.map_singleton, List.mem_singleton]
      omega
    simp only [Answers, hn, Option.any_none, Bool.false_eq_true, if_false]
    rw [hr, List.map_append, List.count_append, List.count_eq_zero_of_not_mem later,
      Nat.zero_add, Nat.add_zero]
  | @answers other a q hm hf _ =>
    subst hm
    have hg : q.generation = other := beq_iff_eq.1 (List.find?_some hf :)
    have ha : Answers generation (c, .answer other a) = (other == generation) := by
      change (c.editor.request? other).any (·.generation == generation) = _
      rw [hf, Option.any_some, hg]
    have he : (c.perform (.answer other a)).editor.requests.map (·.generation) =
        (c.editor.requests.map (·.generation)).erase other := by
      rw [List.erase_eq_eraseP', List.eraseP_map]
      exact congrArg (List.map _) (c.editor.requests_answer other a)
    have mem : other ∈ c.editor.requests.map (·.generation) :=
      List.mem_map.2 ⟨q, List.mem_of_find?_eq_some hf, hg⟩
    rw [ha, he]
    by_cases heq : other = generation
    · subst heq
      have := List.count_pos_iff.2 mem
      rw [List.count_erase_self, if_pos (beq_self_eq_true _)]
      omega
    · rw [List.count_erase_of_ne (Ne.symm heq), if_neg (by simpa using heq), Nat.zero_add]
  | neither _ hn _ hr =>
    simp only [Answers, hn, hr, Option.any_none, Bool.false_eq_true, if_false, Nat.zero_add]

/-- A question that was asked is open or has been answered, and only once. -/
theorem Run.answered_once (h : Run allowed (fresh settings limit listening) history c)
    (hs : Since history r later) :
    later.countP (Answers r.generation) + c.unanswered r.generation = 1 := by
  refine h.since_induction (P := fun later c =>
    later.countP (Answers r.generation) + c.unanswered r.generation = 1) hs
    (fun h hq => ?_) (fun {earlier later c m} h had hs ih => ?_)
  · rw [List.countP_nil, unanswered_of_poses h.orderly.numbered hq]
  · have := unanswered_perform had (h.generation_since hs).1
    rw [List.countP_cons]
    omega

/-! ## Outdated questions -/

/-- What has happened since the question was asked outdates it. -/
inductive Outdated (c : Course) (r : Request) (later : History) : Prop
  /-- Another one was asked. -/
  | asked {cm : Course × Move} {q : Request} : cm ∈ later → cm.1.Poses cm.2 q → Outdated c r later
  /-- The panel was closed. -/
  | closed {cm : Course × Move} : cm ∈ later → cm.1.Shuts cm.2 → Outdated c r later
  /-- The target became another node, and is another one now. -/
  | target {cm : Course × Move} : cm ∈ later →
      (cm.1.perform cm.2).editor.input.target ≠ some r.target →
      c.editor.input.target ≠ some r.target → Outdated c r later

/-- An answer is wanted unless its question is outdated. -/
theorem Run.wants_iff (h : Run allowed (fresh settings limit listening) history c)
    (hr : r ∈ c.editor.requests) (hs : Since history r later) :
    c.editor.input.wants r = true ↔ ¬ Outdated c r later := by
  obtain ⟨-, overtaken⟩ := h.generation_since hs
  refine ⟨fun hw ho => ?_, fun ho => ?_⟩
  · obtain ⟨hg, ht⟩ := h.documented.eq_of_wants h.orderly.prepared hr hw
    have unovertaken : ¬ ∃ cm ∈ later, cm.1.Overtakes cm.2 := fun hx => overtaken.1 hx hg
    cases ho with
    | asked hm hq => exact unovertaken ⟨_, hm, .inl ⟨_, hq⟩⟩
    | closed hm hx => exact unovertaken ⟨_, hm, .inr hx⟩
    | target _ _ hne => exact hne ht
  · have hg : c.editor.input.generation = r.generation := by
      by_contra hne
      obtain ⟨cm, hm, hx⟩ := overtaken.2 (Ne.symm hne)
      rcases hx with ⟨q, hq⟩ | hx
      · exact ho (.asked hm hq)
      · exact ho (.closed hm hx)
    have ht : c.editor.input.target = some r.target := by
      by_contra hne
      obtain ⟨cm, hm, hx⟩ := h.target_since hs hne
      exact ho (.target hm hx hne)
    exact Input.wants_of_eq hg ht

/-- Every question is accounted for. -/
structure Accounted (history : History) (c : Course) : Prop where
  nodup : (c.editor.requests.map (·.generation)).Nodup
  le : ∀ r ∈ c.editor.requests, r.generation ≤ c.editor.input.generation
  balances : c.editor.tally.asked = c.editor.tally.applied + c.editor.tally.failed +
    c.editor.tally.discarded + c.editor.requests.length
  /-- Whatever was asked is open or has been answered, and only once. -/
  once : ∀ r later, Since history r later →
    later.countP (Answers r.generation) + c.unanswered r.generation = 1
  since : ∀ r ∈ c.editor.requests, ∃ later, Since history r later
  /-- An answer is dropped just when its question is outdated. -/
  answer : ∀ r ∈ c.editor.requests, ∀ later, Since history r later → ∀ a,
    (Outdated c r later →
      (c.perform (.answer r.generation a)).editor.account = c.editor.account.drop) ∧
    (¬ Outdated c r later →
      (c.perform (.answer r.generation a)).editor.account = c.editor.account.take a)
  /-- Nothing else is counted but another question. -/
  others : ∀ m, c.Admits m → c.parts.answered? m = none →
    (c.perform m).editor.account = c.editor.account ∨
      ∃ q, c.Poses m q ∧ (c.perform m).editor.account = c.editor.account.ask
  /-- No move but those that shut an open panel closes it. -/
  closes : ∀ m, c.Admits m → c.editor.input.panelOpen = true →
    ((c.perform m).editor.input.panelOpen = false ↔ c.Shuts m)

/-- **Accounts.** In every run all questions are accounted for, at any time. -/
theorem Run.accounted (h : Run allowed (fresh settings limit listening) history c) :
    Accounted history c where
  nodup := h.orderly.numbered.nodup
  le := h.orderly.numbered.le
  balances := h.balances
  once _ _ hs := h.answered_once hs
  since _ hr := h.exists_since rfl hr
  answer r hr later hs a := by
    have hf : c.editor.request? r.generation = some r := h.orderly.numbered.request?_of_mem hr
    have hw := h.wants_iff hr hs
    have ha := c.editor.account_answer hf a
    refine ⟨fun ho => ha.trans (if_neg fun hwants => hw.1 hwants ho),
      fun ho => ha.trans (if_pos (hw.2 ho))⟩
  others m had hn := by
    cases books had with
    | asks hq _ => exact .inr ⟨_, hq, hq.perform.2.2.2⟩
    | answers hm hf _ =>
      subst hm
      cases (show c.editor.request? _ = none from hn).symm.trans hf
    | neither _ _ ha _ => exact .inl ha
  closes _ had ho := panelOpen_eq_false_iff had h.orderly.prepared ho

/-- Two questions are open, and the second one overtakes the first. -/
theorem Run.accounted_two : ∃ history c r r',
    Run Anything (fresh {} none false) history c ∧ c.editor.requests = [r, r'] ∧
      Accounted history c ∧ ∀ a,
        (c.perform (.answer r.generation a)).editor.account = c.editor.account.drop ∧
        (c.perform (.answer r'.generation a)).editor.account = c.editor.account.take a := by
  obtain ⟨moves, c, clock, run, -, -, e⟩ := Run.ready.ask "a" rfl
    (fun _ => ⟨trivial, trivial, trivial⟩) rfl rfl (by decide) (by decide) rfl rfl rfl
  obtain ⟨moves', c', clock', run, -, -, e'⟩ := run.ask "b" e
    (fun _ => ⟨trivial, trivial, trivial⟩) rfl rfl (show "a" ≠ "b" by decide) (by decide)
    rfl rfl rfl
  have hq : c'.editor.requests = [_, _] := congrArg Parts.requests e'
  have hi : c'.editor.input = _ := congrArg Parts.input e'
  have acc := run.accounted
  have first : _ ∈ c'.editor.requests := hq ▸ List.mem_cons_self
  have second : _ ∈ c'.editor.requests := hq ▸ List.mem_cons_of_mem _ List.mem_cons_self
  obtain ⟨later, hs⟩ := acc.since _ first
  obtain ⟨later', hs'⟩ := acc.since _ second
  refine ⟨_, c', _, _, run, hq, acc, fun a => ⟨?_, ?_⟩⟩
  · refine (acc.answer _ first later hs a).1 (Classical.byContradiction fun ho => ?_)
    have hw := (run.wants_iff first hs).2 ho
    rw [hi] at hw
    cases hw
  · refine (acc.answer _ second later' hs' a).2 ((run.wants_iff second hs').1 ?_)
    rw [hi]
    exact Input.wants_of_eq rfl rfl

end Course

end Typeahead
