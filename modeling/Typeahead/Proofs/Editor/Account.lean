import Mathlib.Data.List.Nodup
import Typeahead.Proofs.Editor.Aim
import Typeahead.Proofs.Editor.Delivery

/-!
# Questions, counted

Every question is counted when it is asked, and once more when it has been answered: as taken, as
failed or as dropped.

- **Accounts** (`Account`): the four counts of a tally. Nothing else that is observed enters them
  (`Tally.account_addAll`), so most operations leave them as they are.
- **Questions** (`Course.Poses`) are asked about the target, each in a new generation.
- **Moves** (`Course.Books`): one asks a question, or it answers one, or it leaves the account and
  the open questions alone.
- **Every run**: the account balances with the open questions (`Course.Run.balances`).
-/

namespace Typeahead

/-- How many questions were asked, and what has become of them. -/
structure Account where
  asked : Nat
  applied : Nat
  failed : Nat
  discarded : Nat
  deriving DecidableEq

namespace Account

variable {k : Account} {n : Nat}

/-- One more question. -/
def ask (k : Account) : Account := { k with asked := k.asked + 1 }

/-- One more answer that is taken. -/
def take (k : Account) : Answer → Account
  | .ok _ => { k with applied := k.applied + 1 }
  | .error _ => { k with failed := k.failed + 1 }

/-- One more answer that is dropped. -/
def drop (k : Account) : Account := { k with discarded := k.discarded + 1 }

/-- All questions but `n` have been answered. -/
def Balances (k : Account) (n : Nat) : Prop := k.asked = k.applied + k.failed + k.discarded + n

theorem Balances.ask (h : k.Balances n) : k.ask.Balances (n + 1) := congrArg (· + 1) h

theorem Balances.take (h : k.Balances (n + 1)) (a : Answer) : (k.take a).Balances n := by
  unfold Balances at h ⊢
  cases a <;> simp only [Account.take] <;> omega

theorem Balances.drop (h : k.Balances (n + 1)) : k.drop.Balances n := by
  unfold Balances at h ⊢
  simp only [Account.drop]
  omega

end Account

/-- The counts of questions and answers. -/
def Tally.account (t : Tally) : Account := ⟨t.asked, t.applied, t.failed, t.discarded⟩

/-- Whether an observation is of a question or an answer. -/
def Observation.enters : Observation → Bool
  | .asked | .applied | .discarded | .failed => true
  | .recalled _ | .faulty | .selected | .took _ _ => false

theorem Tally.account_addAll (t : Tally) {os : List Observation}
    (h : ∀ o ∈ os, o.enters = false) : (t.addAll os).account = t.account := by
  induction os generalizing t with
  | nil => rfl
  | cons o os ih =>
    have ho : (t.add o).account = t.account := by
      have hn := h o List.mem_cons_self
      cases o <;> first | rfl | cases hn
    exact (ih (t.add o) fun o' ho' => h o' (List.mem_cons_of_mem _ ho')).trans ho

namespace Reader

theorem enters_lookedUp (found : Option Document) : ∀ o ∈ lookedUp found, o.enters = false := by
  intro o ho
  rw [List.mem_singleton.1 ho]
  rfl

theorem enters_absorbed (d : Document) (micros : UInt64) :
    ∀ o ∈ absorbed d micros, o.enters = false := by
  intro o ho
  unfold absorbed at ho
  split at ho
  · rw [List.mem_singleton.1 ho]
    rfl
  · simp only [List.mem_cons, List.not_mem_nil, or_false] at ho
    rcases ho with rfl | rfl <;> rfl

/-- Reading a text asks nothing. -/
theorem enters_read (r : Reader) (text : String) :
    ∀ o ∈ (r.read text).2.2, o.enters = false := by
  intro o ho
  unfold read at ho
  split at ho
  · exact enters_lookedUp _ o ho
  · rcases List.mem_append.1 ho with ho | ho
    · exact enters_lookedUp _ o ho
    · exact enters_absorbed _ _ o ho

end Reader

/-! ## Operations -/

namespace Editor

/-- The counts of questions and answers. -/
def account (e : Editor) : Account := e.tally.account

variable (e : Editor)

theorem account_observe {os : List Observation} (h : ∀ o ∈ os, o.enters = false) :
    (e.observe os).account = e.account := e.tally.account_addAll h

@[simp] theorem account_finish (text : String) (d : Document) (silent : Bool) :
    (e.finish text d silent).account = e.account := by
  unfold finish
  split
  · dsimp only
    split <;> rfl
  · rfl

theorem account_resolveNow (silent : Bool) : (e.resolveNow silent).account = e.account := by
  cases hr : e.reader with
  | none => rw [resolveNow, hr]
  | some r =>
    rw [resolveNow_eq hr, account_finish, account_observe _ (r.enters_read _)]
    rfl

theorem account_resolve (silent : Bool) : (e.resolve silent).account = e.account := by
  cases hr : e.reader with
  | none => rw [resolve, hr]
  | some r =>
    by_cases hl : e.input.text.utf8ByteSize < longText
    · rw [resolve_short hr silent hl, account_resolveNow]
    · rw [resolve_long hr silent hl]
      rfl

theorem account_advance (index : Nat) : (e.advance index).account = e.account := by
  unfold advance
  split
  · split
    · exact account_observe _ (Reader.enters_lookedUp _)
    · exact account_observe _ (Reader.enters_absorbed _ _)
    · exact account_finish ..
  · rfl

theorem account_replace (i : Input) (s : Substitution) :
    (e.replace i s).account = e.account := by
  unfold replace tell
  split <;> rfl

theorem account_handle (event : UserEvent) : (e.handle event).1.account = e.account := by
  cases hp : e.input.prompts e.settings event with
  | true =>
    have hu := e.prompted_handle hp
    generalize (e.handle event).1 = e' at hu ⊢
    cases hu <;> rfl
  | false =>
    have hu := e.unprompted_handle hp
    generalize (e.handle event).1 = e' at hu ⊢
    cases hu with
    | select => exact account_replace ..
    | selectAndResolve => exact (account_resolveNow ..).trans (account_replace ..)
    | _ => rfl

/-- The answer to an open question is counted, once. -/
theorem account_answer {generation : Nat} {r : Request} (h : e.request? generation = some r)
    (a : Answer) : (e.answer generation a).account =
      if e.input.wants r then e.account.take a else e.account.drop := by
  simp only [answer, h]
  change Editor.account (if e.input.wants r = true then _ else _) = _
  split
  · cases a <;> rfl
  · rfl

end Editor

namespace Course

variable {c : Course} {m : Move} {r : Request}

/-! ## Questions -/

/-- A question is asked by the move. -/
def Poses (c : Course) (m : Move) (r : Request) : Prop :=
  (c.perform m).editor.asked = r :: c.editor.asked

theorem Asks.editor_perform (h : c.Asks m) : (c.perform m).editor = c.editor.fetch := by
  obtain ⟨index, rfl, hr⟩ := h
  simp only [perform, hr, Editor.perform]

/-- A question is asked only about a target, in a text that is not faulty. -/
theorem Poses.asks (h : c.Poses m r) : c.Asks m ∧ c.editor.input.phase ≠ .error ∧
    c.editor.input.target = some r.target := by
  have unposed : ¬ (c.perform m).editor.asked = c.editor.asked :=
    fun he => List.cons_ne_self r _ (h.symm.trans he)
  by_cases ha : c.Asks m
  · have unfetched : ¬ (c.editor.input.phase = .error ∨ c.editor.input.target = none) :=
      fun hn => unposed (by rw [ha.editor_perform, c.editor.fetch_eq_self hn])
    have hp : c.editor.input.phase ≠ .error := fun hp => unfetched (.inl hp)
    obtain ⟨t, ht⟩ := Option.ne_none_iff_exists'.1 fun ht => unfetched (.inr ht)
    refine ⟨ha, hp, ?_⟩
    obtain ⟨he, -⟩ := List.cons.inj (h.symm.trans (ha.asked_perform hp ht).1)
    rw [ht, he]
  · exact absurd (asked_perform fun index hm hr => ha ⟨index, hm, hr⟩) unposed

/-- A question opens the panel, and begins a generation. -/
theorem Poses.perform (h : c.Poses m r) : r.generation = c.editor.input.generation + 1 ∧
    (c.perform m).editor.input = c.editor.input.fetching ∧
    (c.perform m).editor.requests = c.editor.requests ++ [r] ∧
    (c.perform m).editor.account = c.editor.account.ask := by
  obtain ⟨ha, hp, ht⟩ := h.asks
  have he := ha.editor_perform
  rw [Editor.fetch_eq hp ht] at he
  have hr : r = ⟨c.editor.input.generation + 1, r.target, c.editor.clock⟩ := by
    have hcons := h
    rw [Poses, he] at hcons
    exact (List.cons.inj hcons).1.symm
  rw [he]
  exact ⟨congrArg Request.generation hr, rfl, by rw [← hr], rfl⟩

/-! ## Moves -/

/-- What a move does to the account and to the open questions. -/
inductive Books (c : Course) (m : Move) : Prop
  | asks {r : Request} : c.Poses m r → c.parts.answered? m = none → Books c m
  | answers {generation : Nat} {a : Answer} {r : Request} : m = .answer generation a →
      c.editor.request? generation = some r → (∀ q, ¬ c.Poses m q) → Books c m
  | neither : (∀ q, ¬ c.Poses m q) → c.parts.answered? m = none →
      (c.perform m).editor.account = c.editor.account →
      (c.perform m).editor.requests = c.editor.requests → Books c m

theorem account_perform (hq : ∀ q, ¬ c.Poses m q) (hr : c.parts.answered? m = none) :
    (c.perform m).editor.account = c.editor.account := by
  cases m with
  | compiled result =>
    cases result with
    | error => rfl
    | ok r => exact Editor.account_resolveNow ..
  | user event => exact Editor.account_handle ..
  | ripen =>
    simp only [perform]
    split <;> rfl
  | begin index =>
    cases ha : c.ripe[index]? with
    | none => simp only [perform, ha]
    | some a =>
      simp only [perform, ha]
      cases a with
      | resolve silent => exact Editor.account_resolve ..
      | fetch =>
        by_cases hn : c.editor.input.phase = .error ∨ c.editor.input.target = none
        · rw [Editor.perform, c.editor.fetch_eq_self hn]
        · obtain ⟨t, ht⟩ := Option.ne_none_iff_exists'.1 fun ht => hn (.inr ht)
          have asks : c.Asks (.begin index) := ⟨index, rfl, ha⟩
          exact absurd (asks.asked_perform (fun hp => hn (.inl hp)) ht).1 (hq _)
  | advance index => exact Editor.account_advance ..
  | answer generation a =>
    have hn : c.editor.request? generation = none := hr
    simp only [perform, Editor.answer_of_none _ a hn]
  | wait | reap => rfl

theorem requests_perform (had : c.Admits m) (hq : ∀ q, ¬ c.Poses m q)
    (hr : c.parts.answered? m = none) : (c.perform m).editor.requests = c.editor.requests := by
  have hs := c.step_parts had
  change (c.perform m).parts.requests = c.parts.requests
  generalize hp : (c.perform m).parts = p' at hs ⊢
  cases hs with
  | @ask index t clock ha hph ht =>
    have asks : c.Asks (.begin index) := ⟨index, rfl, ha⟩
    exact absurd (asks.asked_perform hph ht).1 (hq _)
  | discard a hf | take a hf => cases hf.symm.trans hr
  | _ => rfl

theorem books (had : c.Admits m) : c.Books m := by
  by_cases hq : ∃ r, c.Poses m r
  · obtain ⟨r, hq⟩ := hq
    obtain ⟨⟨index, rfl, -⟩, -⟩ := hq.asks
    exact .asks hq rfl
  · have hq : ∀ r, ¬ c.Poses m r := fun r h => hq ⟨r, h⟩
    cases hr : c.parts.answered? m with
    | none => exact .neither hq hr (account_perform hq hr) (requests_perform had hq hr)
    | some r =>
      cases m with
      | answer generation a => exact .answers rfl hr hq
      | _ => cases hr

/-! ## Every run -/

/-- What was asked and has not been answered is open. -/
theorem Run.balances {allowed : Course → Move → Prop} {settings : Settings} {limit : Option Nat}
    {listening : Bool} {history : History}
    (h : Run allowed (fresh settings limit listening) history c) :
    c.editor.account.Balances c.editor.requests.length := by
  induction h with
  | start => rfl
  | @step _ c m _ had _ ih =>
    cases books had with
    | asks hq _ =>
      obtain ⟨-, -, hr, ha⟩ := hq.perform
      rw [hr, ha, List.length_append]
      exact ih.ask
    | @answers generation a r hm hf _ =>
      subst hm
      change Account.Balances (c.editor.answer generation a).account
        (c.editor.answer generation a).requests.length
      have hlen := List.length_eraseP_add_one (List.mem_of_find?_eq_some hf)
        (p := (·.generation == generation)) (List.find?_some hf :)
      rw [← hlen] at ih
      rw [c.editor.requests_answer, c.editor.account_answer hf]
      split
      · exact ih.take a
      · exact ih.drop
    | neither _ _ ha hr =>
      rw [ha, hr]
      exact ih

end Course

end Typeahead
