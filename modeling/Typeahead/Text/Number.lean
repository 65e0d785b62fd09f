/-!
# Whole numbers as a person writes them

- **Form**: decimal digits after an optional plus sign, with a value of at most 64 bits.
- **Errors** (`NumberError`): nothing at all, a character that is no digit, or a value out of
  range. Characters are read from the left and the first fault counts.
-/

namespace Typeahead.Text

/-- Why a text is no whole number. -/
inductive NumberError where
  | empty
  | invalidDigit
  | tooLarge
  deriving Repr, DecidableEq

/-- The wording of a fault. -/
def NumberError.message : NumberError → String
  | .empty => "cannot parse integer from empty string"
  | .invalidDigit => "invalid digit found in string"
  | .tooLarge => "number too large to fit in target type"

/-- The greatest number that fits 64 bits. -/
def maxWord : Nat := UInt64.size - 1

/-- The number that `n` becomes when the digits of `cs` are written after it. -/
def readDigits (n : Nat) : List Char → Except NumberError Nat
  | [] => .ok n
  | c :: cs =>
    if c.isDigit then
      let next := n * 10 + (c.toNat - '0'.toNat)
      if next ≤ maxWord then readDigits next cs else .error .tooLarge
    else .error .invalidDigit

/-- The whole number that a text writes. -/
def readNumber : List Char → Except NumberError Nat
  | [] => .error .empty
  | ['+'] => .error .invalidDigit
  | '+' :: digits => readDigits 0 digits
  | digits => readDigits 0 digits

end Typeahead.Text
