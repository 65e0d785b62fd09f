/-!
# Blank characters

The Unicode property White_Space. It separates the tokens of a grammar, and it is trimmed from rule
names and from numbers that a person wrote.

- **Test** (`isBlank`): more than the four blanks of core's class.
- **Trimming** (`trim`): drops the blanks at both ends.
-/

namespace Typeahead.Text

/-- Whether `c` is blank. -/
def isBlank (c : Char) : Bool :=
  ('\t' ≤ c && c ≤ '\r') || c = ' ' || c = '\u0085' || c = '\u00a0' || c = '\u1680' ||
    ('\u2000' ≤ c && c ≤ '\u200a') || c = '\u2028' || c = '\u2029' || c = '\u202f' ||
    c = '\u205f' || c = '\u3000'

/-- The characters between the blanks at both ends. -/
def trim (cs : List Char) : List Char :=
  ((cs.dropWhile isBlank).reverse.dropWhile isBlank).reverse

end Typeahead.Text
