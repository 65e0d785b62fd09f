/-!
# Fractions in decimal notation

A number from 0 to 1 is written with the fewest decimals, one at least, that read back as the same
64-bit number.

- **Exact value** (`ratio`): such a number is a whole number of parts of which a power of two make
  one.
- **Rounding** (`decimals`): that value to the nearest decimal of a given length.
-/

namespace Typeahead.Text

/-- The exact value of a number from 0 to 1, as numerator and denominator. -/
def ratio (x : Float) : Nat × Nat :=
  let bits := x.toBits.toNat
  let exponent := (bits >>> 52) % 2048
  let fraction := bits % Nat.pow 2 52
  if exponent = 0 then (fraction, Nat.pow 2 1074)
  else (fraction + Nat.pow 2 52, Nat.pow 2 (1075 - exponent))

/-- The whole number nearest to `numerator / denominator * 10 ^ places`. -/
def decimals (numerator denominator places : Nat) : Nat :=
  (2 * numerator * Nat.pow 10 places + denominator) / (2 * denominator)

/-- The notation of `digits / 10 ^ places`. -/
def positional (digits places : Nat) : String :=
  let below := toString (digits % Nat.pow 10 places)
  toString (digits / Nat.pow 10 places) ++ "." ++ "".pushn '0' (places - below.length) ++ below

/-- The number of decimals that are tried. -/
def maxPlaces : Nat := 1100

/-- The notation with the fewest decimals, `places` at least, that reads back as `x`. -/
def shortestFrom (x : Float) (places : Nat) : Nat → String
  | 0 => positional (decimals (ratio x).1 (ratio x).2 places) places
  | more + 1 =>
    let digits := decimals (ratio x).1 (ratio x).2 places
    if Float.ofScientific digits true places == x then positional digits places
    else shortestFrom x (places + 1) more

/-- A number from 0 to 1 in decimal notation. -/
def decimal (x : Float) : String := shortestFrom x 1 maxPlaces

end Typeahead.Text
