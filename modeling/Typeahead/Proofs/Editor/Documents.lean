import Typeahead.Proofs.Editor.Order
import Typeahead.Proofs.Reader

/-!
# The documents of an editor

In every run all documents that an editor has to do with are the reader's
(`Parts.Documented`): those of done passes, made from the texts of the passes, that of the target,
and those of the nodes that were asked about. So an answer is wanted only when it is about the very
target (`Orderly.eq_of_wants`), though targets are compared by their numbers alone.
-/

namespace Typeahead

namespace Parts

variable {p p' : Parts} {m : Move}

/-- The documents of the parts are among those of a reader that has parsed these texts. -/
structure MadeFrom (backend : Backend) (texts : List String) (p : Parts) : Prop where
  passes : ∀ q ∈ p.passes, ∀ d, q.stage = .done d → d.Made backend texts q.text
  target : ∀ n, p.input.target = some n → ∃ text, n.document.Made backend texts text
  requests : ∀ r ∈ p.requests, ∃ text, r.target.document.Made backend texts text

/-- The documents of the parts are the reader's. -/
def Documented (p : Parts) : Prop :=
  ∀ r, p.reader = some r → ∃ texts, r.Parsed texts ∧ p.MadeFrom r.backend texts

namespace MadeFrom

variable {backend : Backend} {texts texts' : List String}

theorem mono (h : p.MadeFrom backend texts) (hp : texts <+: texts') :
    p.MadeFrom backend texts' where
  passes q hq d hd := (h.passes q hq d hd).mono hp
  target n hn := by
    obtain ⟨text, ht⟩ := h.target n hn
    exact ⟨text, ht.mono hp⟩
  requests r hr := by
    obtain ⟨text, ht⟩ := h.requests r hr
    exact ⟨text, ht.mono hp⟩

/-- Passes and questions may come to their ends. -/
theorem anti (h : p.MadeFrom backend texts) (hp : p'.passes ⊆ p.passes)
    (ht : p'.input.target = p.input.target) (hr : p'.requests ⊆ p.requests) :
    p'.MadeFrom backend texts :=
  ⟨fun q hq => h.passes q (hp hq), fun n hn => h.target n (ht ▸ hn),
    fun r hm => h.requests r (hr hm)⟩

/-- A document that was made may be put in place. -/
theorem resolve (h : p.MadeFrom backend texts) {i : Input} {d : Document} {silent : Bool}
    {text : String} (hd : d.Made backend texts text) (hi : p'.input = i.resolve d silent)
    (hp : p'.passes ⊆ p.passes) (hr : p'.requests = p.requests) : p'.MadeFrom backend texts where
  passes q hq := h.passes q (hp hq)
  target n hn := by
    obtain ⟨-, k, hk, rfl⟩ := i.document_resolve d silent
    rw [hi, hk] at hn
    exact Option.some.inj hn ▸ ⟨text, hd⟩
  requests r hm := h.requests r (hr ▸ hm)

end MadeFrom

/-- A text is read and the document put in place. -/
theorem Documented.read (g : p.Documented) {r r' : Reader} {i : Input} {d : Document}
    {os : List Observation} {text : String} {silent : Bool} (hr : p.reader = some r)
    (hd : r.read text = (d, r', os)) (hi : p'.input = i.resolve d silent)
    (hr' : p'.reader = some r') (hp : p'.passes ⊆ p.passes) (hq : p'.requests = p.requests) :
    p'.Documented := by
  obtain ⟨texts, hm, hf⟩ := g r hr
  obtain ⟨texts', hx, hb, hm', hd'⟩ := hm.read hd
  intro r₁ h₁
  rw [hr'] at h₁
  obtain rfl := Option.some.inj h₁
  refine ⟨texts', hm', ?_⟩
  rw [hb]
  exact (hf.mono hx).resolve hd' hi hp hq

/-- A pass that goes on gets the document of its text. -/
theorem Documented.look (g : p.Documented) {q : Pass} {r r' : Reader} {stage : Stage}
    (hr : p.reader = some r) (hl : Editor.Looks r q stage r') (index : Nat) :
    Documented { p with reader := some r', passes := p.passes.set index { q with stage } } := by
  obtain ⟨texts, hm, hf⟩ := g r hr
  have : ∃ texts', texts <+: texts' ∧ r'.backend = r.backend ∧ r'.Parsed texts' ∧
      ∀ d, stage = .done d → d.Made r.backend texts' q.text := by
    cases hl with
    | found _ h =>
      obtain ⟨hb, hm', hd⟩ := hm.lookUp h
      exact ⟨texts, List.prefix_rfl, hb, hm', fun d hs => hd d (by cases hs; rfl)⟩
    | missed _ h =>
      obtain ⟨hb, hm', -⟩ := hm.lookUp h
      exact ⟨texts, List.prefix_rfl, hb, hm', fun d hs => by cases hs⟩
    | parsed _ h =>
      obtain ⟨hb, hm', hd⟩ := hm.absorb h
      exact ⟨_, List.prefix_append _ _, hb, hm', fun d hs => by cases hs; exact hd⟩
  obtain ⟨texts', hx, hb, hm', hd⟩ := this
  intro r₁ h₁
  obtain rfl := Option.some.inj h₁
  have hf' := hf.mono hx
  refine ⟨texts', hm', ?_⟩
  rw [hb]
  refine ⟨fun k hk d hs => ?_, hf'.target, hf'.requests⟩
  rcases List.mem_or_eq_of_mem_set hk with hk | rfl
  · exact hf'.passes k hk d hs
  · exact hd d hs

theorem Documented.step (h : p.Step m p') (w : p.Prepared) (g : p.Documented) :
    p'.Documented := by
  have keep : p'.reader = p.reader → p'.passes ⊆ p.passes →
      p'.input.target = p.input.target → p'.requests ⊆ p.requests → p'.Documented := by
    intro hr hp ht hq r h
    obtain ⟨texts, hm, hf⟩ := g r (hr ▸ h)
    exact ⟨texts, hm, hf.anti hp ht hq⟩
  cases h with
  | @install r r' d os hn hf hd =>
    obtain ⟨hash, capacity, backend, rfl⟩ := hf
    have u := w.before hn
    obtain ⟨texts', -, hb, hm', hd'⟩ :=
      (Reader.parsed_hashed hash capacity backend).read hd
    intro r₁ h₁
    obtain rfl := Option.some.inj h₁
    refine ⟨texts', hm', ⟨fun q hq => ?_, fun n hn => ?_, fun r hr => ?_⟩⟩
    · rw [u.passes] at hq
      cases hq
    · obtain ⟨-, k, hk, rfl⟩ := p.input.readied.document_resolve d true
      rw [hk] at hn
      rw [hb]
      exact Option.some.inj hn ▸ ⟨_, hd'⟩
    · rw [u.requests] at hr
      cases hr
  | @selectAndResolve _ candidate n r r' d os _ _ _ _ _ _ hr hd =>
    exact g.read hr hd rfl rfl (List.Subset.refl _) rfl
  | parse ha hr _ hd => exact g.read hr hd rfl rfl (List.Subset.refl _) rfl
  | parseLong =>
    intro r h
    obtain ⟨texts, hm, hf⟩ := g r h
    refine ⟨texts, hm, ⟨fun q hq d hd => ?_, hf.target, hf.requests⟩⟩
    rcases List.mem_append.1 hq with hq | hq
    · exact hf.passes q hq d hd
    · rw [List.mem_singleton.1 hq] at hd
      cases hd
  | ask clock ha hp ht =>
    intro r h
    obtain ⟨texts, hm, hf⟩ := g r h
    refine ⟨texts, hm, ⟨hf.passes, hf.target, fun k hk => ?_⟩⟩
    rcases List.mem_append.1 hk with hk | hk
    · exact hf.requests k hk
    · rw [List.mem_singleton.1 hk]
      exact hf.target _ ht
  | look _ hr hl => exact g.look hr hl _
  | drop => exact keep rfl (List.eraseIdx_subset ..) rfl (List.Subset.refl _)
  | put hq hs _ =>
    intro r h
    obtain ⟨texts, hm, hf⟩ := g r h
    exact ⟨texts, hm, hf.resolve (hf.passes _ (List.mem_of_getElem? hq) _ hs) rfl
      (List.eraseIdx_subset ..) rfl⟩
  | discard => exact keep rfl (List.Subset.refl _) rfl (List.eraseP_subset ..)
  | take a =>
    exact keep rfl (List.Subset.refl _) (Input.document_taken ..).2 (List.eraseP_subset ..)
  | _ => exact keep rfl (List.Subset.refl _) rfl (List.Subset.refl _)

/-- The parser of an editor stays what it was when its reader came. -/
theorem Step.backend_eq {backend : Backend} (h : p.Step m p') (g : p.Documented)
    (hb : ∀ r, p.reader = some r → r.backend = backend)
    (hm : ∀ r, m = .compiled (.ok r) → p.reader = none → r.backend = backend) :
    ∀ r, p'.reader = some r → r.backend = backend := by
  intro r₁ h₁
  cases h with
  | @install r _ _ _ hn hf hd =>
    obtain rfl := Option.some.inj h₁
    have hr := hm r rfl hn
    obtain ⟨hash, capacity, backend', rfl⟩ := hf
    obtain ⟨_, -, he, -⟩ := (Reader.parsed_hashed hash capacity backend').read hd
    exact he.trans hr
  | selectAndResolve _ _ _ _ _ _ hr hd | parse _ hr _ hd =>
    obtain rfl := Option.some.inj h₁
    obtain ⟨_, hp, -⟩ := g _ hr
    obtain ⟨_, -, he, -⟩ := hp.read hd
    exact he.trans (hb _ hr)
  | look _ hr hl =>
    obtain rfl := Option.some.inj h₁
    obtain ⟨_, hp, -⟩ := g _ hr
    cases hl with
    | found _ hl | missed _ hl => exact (hp.lookUp hl).1.trans (hb _ hr)
    | parsed _ hl => exact (hp.absorb hl).1.trans (hb _ hr)
  | _ => exact hb _ h₁

/-- An answer that is wanted is about the target. -/
theorem Documented.eq_of_wants (g : p.Documented) (w : p.Prepared) {r : Request}
    (hr : r ∈ p.requests) (h : p.input.wants r = true) :
    r.generation = p.input.generation ∧ p.input.target = some r.target := by
  simp only [Input.wants, Bool.and_eq_true, beq_iff_eq] at h
  obtain ⟨hg, ht⟩ := h
  refine ⟨hg.symm, ?_⟩
  cases hn : p.input.target with
  | none =>
    rw [hn] at ht
    cases ht
  | some n =>
    obtain ⟨reader, hrd⟩ := Option.ne_none_iff_exists'.1 (w.reader_ne_of_target hn)
    obtain ⟨texts, -, hf⟩ := g reader hrd
    obtain ⟨text, hm⟩ := hf.target n hn
    obtain ⟨text', hm'⟩ := hf.requests r hr
    rw [hn] at ht
    rw [hm.node_eq hm' ht]

end Parts

namespace Course

variable {settings : Settings} {limit : Option Nat} {listening : Bool}
  {allowed : Course → Move → Prop} {history : History} {first c : Course}

/-- What holds in every run goes on to hold. -/
theorem Run.keeps (h : Run allowed first history c) (o : first.parts.Orderly)
    (g : first.parts.Documented) : c.parts.Orderly ∧ c.parts.Documented :=
  h.parts_invariant (I := fun p => p.Orderly ∧ p.Documented) ⟨o, g⟩
    fun _ _ _ hs ⟨o, g⟩ => ⟨o.step hs, g.step hs o.prepared⟩

theorem Run.documented (h : Run allowed (fresh settings limit listening) history c) :
    c.parts.Documented :=
  (h.keeps orderly_fresh fun _ h => by cases h).2

end Course

end Typeahead
