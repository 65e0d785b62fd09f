/-!
# One text in another

- **Digests** (`digestFrom`): a list of characters is read as the digits of a 64-bit number.
- **Search** (`occursFrom`): a window as long as the query moves along the text. Its digest is kept
  up to date by adding the character that comes in and taking off the one that goes out, and
  characters are compared only where the digests agree. So the text is gone through once, however
  often the query nearly stands in it.
- **Result** (`occursIn`, `occursIn_iff`): the query is a part of the text.
-/

namespace Typeahead.Text

/-- The base of the digests. -/
def digestBase : UInt64 := 0x100000001B3

/-- A character as a digit. -/
def digit (c : Char) : UInt64 := c.val.toUInt64

/-- The digits of `h` followed by those of some characters. -/
def digestFrom (h : UInt64) : List Char → UInt64
  | [] => h
  | c :: cs => digestFrom (h * digestBase + digit c) cs

/-- `p` moved up by as many digits as there are characters. -/
def shiftBy (p : UInt64) : List Char → UInt64
  | [] => p
  | _ :: cs => shiftBy (p * digestBase) cs

theorem shiftBy_eq (p : UInt64) (cs : List Char) : shiftBy p cs = p * shiftBy 1 cs := by
  induction cs generalizing p with
  | nil => simp [shiftBy]
  | cons c cs ih =>
    rw [shiftBy, shiftBy, ih, ih (1 * digestBase)]
    grind

theorem shiftBy_congr {cs ds : List Char} (h : cs.length = ds.length) (p : UInt64) :
    shiftBy p cs = shiftBy p ds := by
  induction cs generalizing p ds with
  | nil =>
    cases ds with
    | nil => rfl
    | cons d ds => cases h
  | cons c cs ih =>
    cases ds with
    | nil => cases h
    | cons d ds => exact ih (Nat.succ.inj h) _

theorem digestFrom_eq (h : UInt64) (cs : List Char) :
    digestFrom h cs = h * shiftBy 1 cs + digestFrom 0 cs := by
  induction cs generalizing h with
  | nil => simp [digestFrom, shiftBy]
  | cons c cs ih =>
    rw [digestFrom, digestFrom, shiftBy, ih, ih (0 * digestBase + digit c),
      shiftBy_eq (1 * digestBase)]
    grind

theorem digestFrom_append (h : UInt64) (cs ds : List Char) :
    digestFrom h (cs ++ ds) = digestFrom (digestFrom h cs) ds := by
  induction cs generalizing h with
  | nil => rfl
  | cons c cs ih => exact ih _

/-- Whether `query` stands somewhere in `text`. The digest of `query` is `target`, the shift by its
length is `shift`, that of as many characters of `text` is `h`, and `ahead` follows on these. -/
def occursFrom (query : List Char) (target shift h : UInt64) (text : List Char) :
    (ahead : List Char) → Bool
  | [] => h == target && query.isPrefixOf text
  | next :: ahead =>
    (h == target && query.isPrefixOf text) ||
      match text with
      | [] => false
      | out :: text =>
        occursFrom query target shift (h * digestBase + digit next - digit out * shift) text ahead

/-- Whether `query` stands somewhere in `text`. -/
def occursIn (query text : List Char) : Bool :=
  occursFrom query (digestFrom 0 query) (shiftBy 1 query)
    (digestFrom 0 (text.take query.length)) text (text.drop query.length)

/-- Where the query begins the digests agree. -/
theorem begins_iff (query text : List Char) :
    (digestFrom 0 (text.take query.length) == digestFrom 0 query && query.isPrefixOf text) = true ↔
      query <+: text := by
  rw [Bool.and_eq_true, List.isPrefixOf_iff_prefix]
  refine ⟨And.right, fun h => ⟨?_, h⟩⟩
  rw [← List.prefix_iff_eq_take.1 h]
  exact beq_self_eq_true _

/-- The digest of the next window. -/
theorem digest_next (out next : Char) (text ahead : List Char) (n : Nat)
    (h : (out :: text).drop n = next :: ahead) :
    digestFrom 0 (text.take n) =
      digestFrom 0 ((out :: text).take n) * digestBase + digit next -
        digit out * shiftBy 1 (text.take n) := by
  have grown : (out :: text).take n ++ [next] = out :: text.take n := by
    rw [← List.take_succ_cons, List.take_add_one, ← List.head?_drop, h]
    rfl
  have left := digestFrom_append 0 ((out :: text).take n) [next]
  rw [grown, digestFrom, digestFrom_eq] at left
  simp only [digestFrom] at left
  grind

theorem occursFrom_iff (query text ahead : List Char) (h : text.drop query.length = ahead) :
    occursFrom query (digestFrom 0 query) (shiftBy 1 query)
      (digestFrom 0 (text.take query.length)) text ahead = true ↔ query <:+: text := by
  induction ahead generalizing text with
  | nil =>
    rw [occursFrom, begins_iff]
    refine ⟨List.IsPrefix.isInfix, fun hi => ?_⟩
    have hlen : text.length ≤ query.length := List.drop_eq_nil_iff.1 h
    have same : query = text := hi.eq_of_length (Nat.le_antisymm hi.length_le hlen)
    exact same ▸ List.prefix_rfl
  | cons next ahead ih =>
    cases text with
    | nil => simp at h
    | cons out text =>
      have hrest : text.drop query.length = ahead := by
        rw [← List.drop_succ_cons (a := out), ← List.drop_drop, h]
        rfl
      have hlen : (text.take query.length).length = query.length := by
        have := congrArg List.length h
        simp only [List.length_drop, List.length_cons] at this
        rw [List.length_take]
        omega
      rw [occursFrom, Bool.or_eq_true, begins_iff, List.infix_cons_iff]
      simp only [← shiftBy_congr hlen]
      rw [← digest_next out next text ahead query.length h, shiftBy_congr hlen, ih text hrest]

theorem occursIn_iff {query text : List Char} : occursIn query text = true ↔ query <:+: text :=
  occursFrom_iff query text _ rfl

end Typeahead.Text
