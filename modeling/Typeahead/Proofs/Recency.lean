import Mathlib.Data.List.Dedup
import Mathlib.Data.List.Nodup
import Typeahead.Proofs.Recall

/-!
# A reader's window

A reader that can tell its texts by their hashes has the latest ones at hand, so many of them as it
remembers, and no others.

- **Window** (`recent`): the texts that were read latest, each once, the last one first. One more
  text comes to its front (`recent_concat`).
- **Stores** (`Recall.texts`): a text that no other is confused with (`Recall.Tells`) is found where
  it is filed, and comes to the front, by being looked up and by being filed alike
  (`Tells.texts_get`, `Tells.texts_put`).
- **Calls** (`Reader.calls`): texts that were read, with what was given for them. One read finds the
  texts of the window, each with the document of an earlier call, and makes one document for any
  other text (`Reader.Reuses`, `Windowed.reuses`).
- **Invariant** (`Reader.Windowed`): the texts at hand are the window of the calls. A read keeps it
  (`Windowed.read`), and so do all of them (`Windowed.readAll`).
-/

namespace Typeahead

/-! ## Windows -/

/-- The `n` texts that were read latest, each once, the last one first. -/
def recent (n : Nat) (texts : List String) : List String := texts.dedup.reverse.take n

theorem dedup_concat (texts : List String) (text : String) :
    (texts ++ [text]).dedup = texts.dedup.filter (· != text) ++ [text] := by
  induction texts with
  | nil => rfl
  | cons t ts ih =>
    rw [List.cons_append]
    by_cases hmem : t ∈ ts
    · rw [List.dedup_cons_of_mem (List.mem_append_left _ hmem), List.dedup_cons_of_mem hmem, ih]
    · by_cases ht : t = text
      · subst ht
        rw [List.dedup_cons_of_mem (by simp), List.dedup_cons_of_notMem hmem, ih,
          List.filter_cons_of_neg (by simp)]
      · rw [List.dedup_cons_of_notMem (by simp [hmem, ht]), List.dedup_cons_of_notMem hmem, ih,
          List.filter_cons_of_pos (by simpa using ht), List.cons_append]

/-- Of distinct texts, one at most is dropped from the first so many. -/
theorem take_filter_ne {texts : List String} (h : texts.Nodup) (text : String) (n : Nat) :
    ((texts.take (n + 1)).filter (· != text)).take n = (texts.filter (· != text)).take n := by
  by_cases hn : texts.length ≤ n + 1
  · rw [List.take_of_length_le hn]
  · have hkept : n ≤ ((texts.take (n + 1)).filter (· != text)).length := by
      have htake : (texts.take (n + 1)).length = n + 1 := List.length_take_of_le (by omega)
      rw [← (h.sublist (List.take_sublist (n + 1) texts)).erase_eq_filter text, List.length_erase,
        htake]
      split <;> omega
    conv_rhs => rw [← List.take_append_drop (n + 1) texts, List.filter_append]
    rw [List.take_append_of_le_length hkept]

/-- One more text comes to the front of the window. -/
theorem recent_concat {n : Nat} (hn : 0 < n) (texts : List String) (text : String) :
    recent n (texts ++ [text]) = (text :: (recent n texts).filter (· != text)).take n := by
  obtain ⟨k, rfl⟩ := Nat.exists_eq_succ_of_ne_zero (Nat.ne_of_gt hn)
  have hnodup : texts.dedup.reverse.Nodup := List.nodup_reverse.2 texts.nodup_dedup
  rw [recent, dedup_concat, List.reverse_concat, List.take_succ_cons, List.take_succ_cons, recent,
    take_filter_ne hnodup, List.filter_reverse]

example : recent 2 ["a", "b", "a", "c"] = ["c", "a"] := by decide

theorem length_recent (n : Nat) (texts : List String) :
    (recent n texts).length = min n texts.dedup.length := by
  rw [recent, List.length_take, List.length_reverse]

/-! ## Stores -/

namespace Recall

variable {α : Type}

/-- The texts that something is filed for, the latest one first. -/
def texts (r : Recall α) : List String := r.entries.map (·.text)

/-- Nothing but what is filed for `text` is filed under its key. -/
def Tells (r : Recall α) (text : String) : Prop :=
  ∀ f ∈ r.entries, f.key = r.key text ↔ f.text = text

/-- Texts of different hashes are told apart. -/
theorem Sound.tells {hash : String → UInt64} {ops : List (Op α)} {r : Recall α} {text : String}
    (h : r.Sound hash ops) (hinj : ∀ t ∈ r.texts, hash t = hash text → t = text) :
    r.Tells text := by
  intro f hf
  rw [key, h.hash_eq, h.key_eq f hf]
  constructor
  · exact hinj f.text (List.mem_map_of_mem hf)
  · exact congrArg hash

section

variable {r : Recall α} {text : String} {f : Filed α}

theorem entries_touch_of_filed (h : r.filed? text = some f) :
    (r.touch text).entries = f :: r.others text := by
  unfold touch
  split
  · rename_i e he
    rw [h] at he
    cases he
    rfl
  · rename_i he
    rw [h] at he
    cases he

theorem touch_eq_self (h : r.filed? text = none) : r.touch text = r := by
  unfold touch
  split
  · rename_i e he
    rw [h] at he
    cases he
  · rfl

theorem capacity_get (r : Recall α) (text : String) : (r.get text).2.capacity = r.capacity := by
  show (r.touch text).capacity = _
  unfold touch
  split <;> rfl

/-- A look-up counts by what it gives. -/
theorem score_get (r : Recall α) (text : String) :
    (r.get text).2.score = r.score.add (r.get text).1.isSome := by
  rw [get_fst, Option.isSome_map]
  rfl

end

namespace Tells

variable {r : Recall α} {text : String}

/-- Only the entries and the hash matter. -/
theorem congr {r' : Recall α} (h : r.Tells text) (he : r'.entries = r.entries)
    (hh : r'.hash = r.hash) : r'.Tells text := by
  intro f hf
  rw [he] at hf
  rw [key, hh]
  exact h f hf

theorem texts_others (h : r.Tells text) :
    (r.others text).map (·.text) = r.texts.filter (· != text) := by
  rw [texts, List.filter_map, others]
  refine congrArg (List.map _) (List.filter_congr fun f hf => ?_)
  have := h f hf
  simp [bne, this]

theorem exists_filed (h : r.Tells text) (hmem : text ∈ r.texts) :
    ∃ f ∈ r.entries, f.text = text ∧ r.filed? text = some f := by
  obtain ⟨f, hf, hfiled⟩ : ∃ f, f ∈ r.entries ∧ f.text = text := List.mem_map.1 hmem
  have hsome : (r.filed? text).isSome := by
    rw [filed?, List.find?_isSome]
    exact ⟨f, hf, beq_iff_eq.2 ((h f hf).2 hfiled)⟩
  obtain ⟨e, he⟩ := Option.isSome_iff_exists.1 hsome
  have hmem := List.mem_of_find?_eq_some he
  have hkey := List.find?_some he
  exact ⟨e, hmem, (h e hmem).1 (beq_iff_eq.1 hkey), he⟩

theorem filed?_eq_none (h : r.Tells text) (hmem : text ∉ r.texts) : r.filed? text = none := by
  refine List.find?_eq_none.2 fun f hf hkey => hmem ?_
  rw [← (h f hf).1 (beq_iff_eq.1 hkey)]
  exact List.mem_map_of_mem hf

/-- What is given for a text that is filed. -/
theorem get_of_mem (h : r.Tells text) (hmem : text ∈ r.texts) :
    ∃ f ∈ r.entries, f.text = text ∧ (r.get text).1 = some f.value ∧
      (r.get text).2.entries = f :: r.others text := by
  obtain ⟨f, hf, htext, hfiled⟩ := h.exists_filed hmem
  refine ⟨f, hf, htext, ?_, entries_touch_of_filed hfiled⟩
  rw [get_fst, hfiled, Option.filter_some, if_pos (beq_iff_eq.2 htext)]
  rfl

theorem get_of_not_mem (h : r.Tells text) (hmem : text ∉ r.texts) :
    (r.get text).1 = none ∧ (r.get text).2.entries = r.entries := by
  have hfiled := h.filed?_eq_none hmem
  constructor
  · rw [get_fst, hfiled]
    rfl
  · show (r.touch text).entries = r.entries
    rw [touch_eq_self hfiled]

/-- A text that is looked up comes to the front. -/
theorem texts_get (h : r.Tells text) (hmem : text ∈ r.texts) :
    (r.get text).2.texts = (text :: r.texts.filter (· != text)).take r.capacity := by
  obtain ⟨f, -, rfl, -, hentries⟩ := h.get_of_mem hmem
  have htexts : (r.get f.text).2.texts = f.text :: r.texts.filter (· != f.text) := by
    rw [texts, hentries, List.map_cons, h.texts_others]
  have hlength : (r.get f.text).2.texts.length ≤ r.capacity := by
    rw [texts, List.length_map, ← capacity_get r f.text]
    exact (r.get f.text).2.length_le
  rw [← htexts, List.take_of_length_le hlength]

/-- A text that is filed comes to the front. -/
theorem texts_put (h : r.Tells text) (a : α) :
    (r.put text a).texts = (text :: r.texts.filter (· != text)).take r.capacity := by
  rw [texts, put, List.map_take, List.map_cons, h.texts_others]

end Tells

end Recall

/-! ## Calls -/

namespace Reader

/-- Texts that are read, one after the other, with what is given for them. -/
def calls (r : Reader) : List String → List (String × Document)
  | [] => []
  | text :: texts => (text, (r.read text).1) :: (r.read text).2.1.calls texts

theorem map_fst_calls (r : Reader) (texts : List String) :
    (r.calls texts).map (·.1) = texts := by
  induction texts generalizing r with
  | nil => rfl
  | cons text texts ih => rw [calls, List.map_cons, ih]

/-- What a reader gives for `text` after the calls `before`, when it is to have the texts of a
window at hand. -/
structure Reuses (r : Reader) (before : List (String × Document)) (window : List String)
    (text : String) : Prop where
  /-- The document is that of an earlier call for the texts of the window, and only for those. -/
  shared_iff : (∃ c ∈ before, c.2.serial = (r.read text).1.serial) ↔ text ∈ window
  /-- The earlier call was for the same text, and nothing is parsed. -/
  again : text ∈ window →
    (text, (r.read text).1) ∈ before ∧ (r.read text).2.1.parses = r.parses
  /-- Any other text is parsed once, and its document has the next number. -/
  anew : text ∉ window → (r.read text).1 = ⟨r.parses, r.treeOf text⟩ ∧
    (r.read text).2.1.parses = r.parses + 1

/-- A reader after the calls `before`. -/
structure Windowed (r : Reader) (hash : String → UInt64) (before : List (String × Document)) :
    Prop where
  sound : ∃ ops, r.memory.Sound hash ops
  window : r.memory.texts = recent r.memory.capacity (before.map (·.1))
  filed : ∀ f ∈ r.memory.entries, (f.text, f.value) ∈ before
  earlier : ∀ c ∈ before, c.2.serial < r.parses
  misses : r.parses = r.memory.score.misses
  total : r.memory.score.total = before.length

variable {r : Reader} {hash : String → UInt64} {before : List (String × Document)} {text : String}

theorem read_of_mem (h : r.memory.Tells text) (hmem : text ∈ r.memory.texts) :
    ∃ f ∈ r.memory.entries, f.text = text ∧ (r.read text).1 = f.value ∧
      (r.read text).2.1 = { r with memory := (r.memory.get text).2 } := by
  obtain ⟨f, hf, htext, hfound, -⟩ := h.get_of_mem hmem
  obtain ⟨hdocument, hreader⟩ := r.read_of_found text hfound
  exact ⟨f, hf, htext, hdocument, hreader⟩

theorem read_of_not_mem (h : r.memory.Tells text) (hmem : text ∉ r.memory.texts) :
    (r.read text).1 = ⟨r.parses, r.treeOf text⟩ ∧ (r.read text).2.1 =
      { r with
        memory := (r.memory.get text).2.put text ⟨r.parses, r.treeOf text⟩
        parses := r.parses + 1 } :=
  r.read_of_missed text (h.get_of_not_mem hmem).1

namespace Windowed

theorem tells (h : r.Windowed hash before)
    (hinj : ∀ t ∈ before.map (·.1), hash t = hash text → t = text) : r.memory.Tells text := by
  obtain ⟨ops, hsound⟩ := h.sound
  refine hsound.tells fun t ht => hinj t ?_
  rw [h.window] at ht
  exact List.mem_dedup.1 (List.mem_reverse.1 (List.mem_of_mem_take ht))

/-- The texts at hand are those for which an earlier document is given. -/
theorem reuses (h : r.Windowed hash before) (ht : r.memory.Tells text) :
    r.Reuses before r.memory.texts text := by
  by_cases hmem : text ∈ r.memory.texts
  · obtain ⟨f, hf, rfl, hdocument, hreader⟩ := read_of_mem ht hmem
    have hearlier : (f.text, (r.read f.text).1) ∈ before := hdocument ▸ h.filed f hf
    refine ⟨⟨fun _ => hmem, fun _ => ⟨_, hearlier, rfl⟩⟩, fun _ => ⟨hearlier, ?_⟩, fun hn => ?_⟩
    · rw [hreader]
    · exact absurd hmem hn
  · obtain ⟨hdocument, hreader⟩ := read_of_not_mem ht hmem
    refine ⟨⟨?_, fun hm => absurd hm hmem⟩, fun hm => absurd hm hmem, fun _ => ⟨hdocument, ?_⟩⟩
    · -- All earlier documents have smaller numbers.
      rintro ⟨c, hc, hserial⟩
      have hlt := h.earlier c hc
      rw [hserial, hdocument] at hlt
      exact absurd hlt (Nat.lt_irrefl _)
    · rw [hreader]

theorem window_concat (h : r.Windowed hash before) (d : Document) :
    (text :: r.memory.texts.filter (· != text)).take r.memory.capacity =
      recent r.memory.capacity ((before ++ [(text, d)]).map (·.1)) := by
  rw [List.map_append, List.map_singleton, recent_concat r.memory.capacity_pos, h.window]

theorem total_get (h : r.Windowed hash before) (d : Document) :
    (r.memory.get text).2.score.total = (before ++ [(text, d)]).length := by
  rw [Recall.score_get, Score.total_add, h.total, List.length_append, List.length_singleton]

/-- A text that is at hand comes to the front. -/
theorem read_of_mem (h : r.Windowed hash before) (ht : r.memory.Tells text)
    (hmem : text ∈ r.memory.texts) :
    (r.read text).2.1.Windowed hash (before ++ [(text, (r.read text).1)]) := by
  obtain ⟨ops, hsound⟩ := h.sound
  obtain ⟨f, -, -, hfound, -⟩ := ht.get_of_mem hmem
  obtain ⟨hearlier, -⟩ := (h.reuses ht).again hmem
  obtain ⟨_, -, -, -, hreader⟩ := Reader.read_of_mem ht hmem
  rw [hreader]
  refine ⟨⟨_, hsound.perform (.get text)⟩, ?_, fun g hg => ?_, ?_, ?_, h.total_get _⟩
  · show (r.memory.get text).2.texts = recent (r.memory.get text).2.capacity _
    rw [ht.texts_get hmem, Recall.capacity_get, h.window_concat]
  · exact List.mem_append_left _ (h.filed g (Recall.mem_touch hg))
  · refine List.forall_mem_append.2 ⟨h.earlier, List.forall_mem_singleton.2 ?_⟩
    exact h.earlier _ hearlier
  · show r.parses = (r.memory.get text).2.score.misses
    rw [Recall.score_get, hfound, h.misses]
    rfl

/-- A text that is not at hand comes to the front, and the last one goes when there are too many. -/
theorem read_of_not_mem (h : r.Windowed hash before) (ht : r.memory.Tells text)
    (hmem : text ∉ r.memory.texts) :
    (r.read text).2.1.Windowed hash (before ++ [(text, (r.read text).1)]) := by
  obtain ⟨ops, hsound⟩ := h.sound
  obtain ⟨hmissed, hentries⟩ := ht.get_of_not_mem hmem
  obtain ⟨hdocument, hreader⟩ := Reader.read_of_not_mem ht hmem
  have hthen : (r.memory.get text).2.Tells text := ht.congr hentries (r.memory.hash_touch text)
  have htexts : (r.memory.get text).2.texts = r.memory.texts := congrArg (List.map _) hentries
  rw [hreader]
  refine ⟨⟨_, (hsound.perform (.get text)).perform (.put text _)⟩, ?_, fun g hg => ?_, ?_, ?_,
    h.total_get _⟩
  · show ((r.memory.get text).2.put text _).texts = recent (r.memory.get text).2.capacity _
    rw [hthen.texts_put, htexts, Recall.capacity_get, h.window_concat]
  · rcases Recall.mem_put hg with rfl | hg
    · rw [← hdocument]
      exact List.mem_append_right _ (List.mem_singleton_self _)
    · rw [hentries] at hg
      exact List.mem_append_left _ (h.filed g hg)
  · refine List.forall_mem_append.2 ⟨fun c hc => Nat.lt_succ_of_lt (h.earlier c hc), ?_⟩
    rw [List.forall_mem_singleton, hdocument]
    exact Nat.lt_succ_self _
  · show r.parses + 1 = (r.memory.get text).2.score.misses
    rw [Recall.score_get, hmissed, h.misses]
    rfl

/-- One more call keeps the window. -/
theorem read (h : r.Windowed hash before) (ht : r.memory.Tells text) :
    (r.read text).2.1.Windowed hash (before ++ [(text, (r.read text).1)]) := by
  by_cases hmem : text ∈ r.memory.texts
  · exact h.read_of_mem ht hmem
  · exact h.read_of_not_mem ht hmem

/-- All texts of the calls and of those to come have their own hashes. -/
theorem readAll {texts : List String} (h : r.Windowed hash before)
    (hinj : ∀ s ∈ before.map (·.1) ++ texts, ∀ t ∈ before.map (·.1) ++ texts,
      hash s = hash t → s = t) :
    (r.readAll texts).Windowed hash (before ++ r.calls texts) := by
  induction texts generalizing r before with
  | nil => simpa [Reader.readAll, calls] using h
  | cons text texts ih =>
    have htells : r.memory.Tells text := by
      refine h.tells fun t ht => hinj t (List.mem_append_left _ ht) text ?_
      exact List.mem_append_right _ List.mem_cons_self
    have hread := ih (h.read htells) (by simpa using hinj)
    rw [List.append_assoc] at hread
    exact hread

end Windowed

theorem windowed_hashed (hash : String → UInt64) (capacity : Nat) (backend : Backend) :
    (hashed hash capacity backend).Windowed hash [] :=
  ⟨⟨[], Recall.sound_empty hash capacity⟩, by simp [hashed, Recall.empty, Recall.texts, recent],
    fun _ hf => absurd hf List.not_mem_nil, fun _ hc => absurd hc List.not_mem_nil, rfl, rfl⟩

theorem capacity_read (r : Reader) (text : String) :
    (r.read text).2.1.memory.capacity = r.memory.capacity := by
  have hget := r.memory.capacity_get text
  cases h : (r.lookUp text).1 with
  | some d =>
    rw [(r.read_of_found text h).2]
    exact hget
  | none =>
    rw [(r.read_of_missed text h).2]
    exact hget

theorem capacity_readAll (r : Reader) (texts : List String) :
    (r.readAll texts).memory.capacity = r.memory.capacity := by
  induction texts generalizing r with
  | nil => rfl
  | cons text texts ih => exact (ih _).trans (r.capacity_read text)

/-- **A reader has the latest texts at hand.** Take texts of different hashes, and a fresh reader
that remembers so many of them, and one at least. Whatever it has read before, it gives for a text
the document of an earlier call just when the text is among the latest ones that it has read, so
many as it remembers, and parses any other text once. So there are as many parses as misses, as many
look-ups as texts, and as many texts at hand as there are distinct ones, or as it remembers. The
reader that remembers one text is the usual one. -/
theorem reuses_recent (hash : String → UInt64) (capacity : Nat) (backend : Backend)
    (texts : List String) (hinj : ∀ s ∈ texts, ∀ t ∈ texts, hash s = hash t → s = t) :
    let fresh := hashed hash capacity backend
    (∀ before text after, texts = before ++ text :: after →
      (fresh.readAll before).Reuses (fresh.calls before) (recent (max 1 capacity) before) text ∧
        (fresh.readAll before).treeOf text = Tree.ofReading text (backend.read text)) ∧
    (fresh.readAll texts).parses = (fresh.readAll texts).memory.score.misses ∧
    (fresh.readAll texts).memory.score.total = texts.length ∧
    (fresh.readAll texts).memory.size = min (max 1 capacity) texts.dedup.length ∧
    ofBackend backend = hashed Hashable.hash 1 backend := by
  intro fresh
  have windowed : ∀ before after, texts = before ++ after →
      (fresh.readAll before).Windowed hash (fresh.calls before) := by
    rintro before after rfl
    refine (windowed_hashed hash capacity backend).readAll fun s hs t ht => ?_
    exact hinj s (List.mem_append_left _ hs) t (List.mem_append_left _ ht)
  have window : ∀ before after, texts = before ++ after →
      (fresh.readAll before).memory.texts = recent (max 1 capacity) before := by
    intro before after h
    rw [(windowed before after h).window, capacity_readAll, map_fst_calls]
    rfl
  have hall := windowed texts [] (List.append_nil texts).symm
  refine ⟨?_, hall.misses, ?_, ?_, rfl⟩
  · rintro before text after rfl
    have htells : (fresh.readAll before).memory.Tells text := by
      refine (windowed before _ rfl).tells fun t ht => ?_
      rw [map_fst_calls] at ht
      exact hinj t (List.mem_append_left _ ht) text (by simp)
    have hreuses := (windowed before _ rfl).reuses htells
    rw [window before _ rfl] at hreuses
    exact ⟨hreuses, treeOf_readAll hash capacity backend before text⟩
  · rw [hall.total, ← List.length_map (·.1), map_fst_calls]
  · rw [← length_recent, ← window texts [] (List.append_nil texts).symm]
    exact (List.length_map _).symm

/-- A reader that remembers two texts, which are told apart by their lengths. `"bb"` is read again
while it is at hand, and `"a"` after it was driven out. -/
theorem reuses_recent_lengths :
    let hash := fun text : String => UInt64.ofNat text.utf8ByteSize
    let texts := ["a", "bb", "ccc", "bb", "a"]
    let fresh := hashed hash 2 (.table [])
    (∀ s ∈ texts, ∀ t ∈ texts, hash s = hash t → s = t) ∧
    (∀ before text after, texts = before ++ text :: after →
      (fresh.readAll before).Reuses (fresh.calls before) (recent (max 1 2) before) text ∧
        (fresh.readAll before).treeOf text =
          Tree.ofReading text ((Backend.table []).read text)) ∧
    (fresh.readAll texts).parses = (fresh.readAll texts).memory.score.misses ∧
    (fresh.readAll texts).memory.score.total = texts.length ∧
    (fresh.readAll texts).memory.size = min (max 1 2) texts.dedup.length ∧
    ofBackend (.table []) = hashed Hashable.hash 1 (.table []) := by
  have hinj : ∀ s ∈ ["a", "bb", "ccc", "bb", "a"], ∀ t ∈ ["a", "bb", "ccc", "bb", "a"],
      UInt64.ofNat s.utf8ByteSize = UInt64.ofNat t.utf8ByteSize → s = t := by
    decide
  exact ⟨hinj, reuses_recent _ 2 (.table []) _ hinj⟩

end Reader

end Typeahead
