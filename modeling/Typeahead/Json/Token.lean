/-!
# The tokens of a JSON text

Strict JSON: four blanks, no comments, numbers without leading zeros, strings without bare control
characters.

- **Strings**: an escape may name half of a character (a surrogate). A pair of halves names the
  character; a string with a half on its own is well formed, but no text stands for it, so a string
  token holds `none` (`Chars`).
- **Numbers** (`isNumber`): a run of number characters is one token, and has to have the form of a
  number.
- **Reading** (`Lexer.step`): one character at a time.
-/

namespace Typeahead.Json

/-- A token. -/
inductive Token where
  | beginArray
  | endArray
  | beginObject
  | endObject
  | colon
  | comma
  | null
  | bool (value : Bool)
  | number (digits : String)
  /-- `none` when an escape names half a character. -/
  | string (value : Option String)
  deriving Repr, DecidableEq

/-- The characters of a string so far, the last first. -/
structure Chars where
  text : List Char
  /-- The first half of a character, when the last escape named one. -/
  half : Option Nat
  /-- Some half had no partner. -/
  broken : Bool
  deriving Repr, DecidableEq

namespace Chars

/-- No characters. -/
def empty : Chars := ⟨[], none, false⟩

/-- Adds a character; a half before it stays alone. -/
def push (s : Chars) (c : Char) : Chars :=
  { text := c :: s.text, half := none, broken := s.broken || s.half.isSome }

/-- Adds what an escape with four digits names. -/
def pushCode (s : Chars) (code : Nat) : Chars :=
  if code < 0xD800 ∨ 0xDFFF < code then s.push (Char.ofNat code)
  else if code < 0xDC00 then
    { s with half := some code, broken := s.broken || s.half.isSome }
  else
    match s.half with
    | some high =>
      { s with
        text := Char.ofNat (0x10000 + (high - 0xD800) * 0x400 + (code - 0xDC00)) :: s.text
        half := none }
    | none => { s with broken := true }

/-- The text, when there is one. -/
def finish (s : Chars) : Option String :=
  if s.broken || s.half.isSome then none else some (String.ofList s.text.reverse)

end Chars

/-- Whether `cs` are digits, at least one. -/
def isDigits (cs : List Char) : Bool := !cs.isEmpty && cs.all Char.isDigit

/-- Whether `cs` is an exponent or nothing. -/
def isExponent : List Char → Bool
  | [] => true
  | c :: cs =>
    (c = 'e' || c = 'E') &&
      match cs with
      | '+' :: digits => isDigits digits
      | '-' :: digits => isDigits digits
      | digits => isDigits digits

/-- Whether `cs` is a fraction, an exponent, both or nothing. -/
def isFraction : List Char → Bool
  | '.' :: cs => !(cs.takeWhile Char.isDigit).isEmpty && isExponent (cs.dropWhile Char.isDigit)
  | cs => isExponent cs

/-- Whether `cs` is a number without a sign. -/
def isUnsigned : List Char → Bool
  | '0' :: cs => isFraction cs
  | cs => !(cs.takeWhile Char.isDigit).isEmpty && isFraction (cs.dropWhile Char.isDigit)

/-- Whether `cs` is a number. -/
def isNumber : List Char → Bool
  | '-' :: cs => isUnsigned cs
  | cs => isUnsigned cs

/-- Whether `c` can stand in a number. -/
def isNumberChar (c : Char) : Bool :=
  c.isDigit || c = '-' || c = '+' || c = '.' || c = 'e' || c = 'E'

/-- Whether `c` separates tokens. -/
def isSpace (c : Char) : Bool := c = ' ' || c = '\t' || c = '\n' || c = '\r'

/-- The value of a hexadecimal digit. -/
def hexDigit? (c : Char) : Option Nat :=
  if c.isDigit then some (c.toNat - '0'.toNat)
  else if 'a' ≤ c ∧ c ≤ 'f' then some (c.toNat - 'a'.toNat + 10)
  else if 'A' ≤ c ∧ c ≤ 'F' then some (c.toNat - 'A'.toNat + 10)
  else none

/-- The character that a letter after a backslash names. -/
def escaped? : Char → Option Char
  | '\x22' => some '\x22'
  | '\\' => some '\\'
  | '/' => some '/'
  | 'b' => some '\x08'
  | 'f' => some '\x0c'
  | 'n' => some '\n'
  | 'r' => some '\r'
  | 't' => some '\t'
  | _ => none

/-- What the next character belongs to. Runs hold their last character first. -/
inductive Mode where
  | between
  | number (run : List Char)
  | word (run : List Char)
  | string (s : Chars)
  | escape (s : Chars)
  /-- After `\u`: how many digits are missing, and the value of those read. -/
  | code (s : Chars) (missing value : Nat)
  deriving Repr, DecidableEq

/-- A lexer between two characters. -/
structure Lexer where
  mode : Mode
  tokens : Array Token
  deriving Repr, DecidableEq

namespace Lexer

/-- Ends a token. -/
def emit (s : Lexer) (t : Token) : Lexer := { mode := .between, tokens := s.tokens.push t }

/-- Takes a character that no token has claimed. -/
def begin (s : Lexer) (c : Char) : Option Lexer :=
  if isSpace c then some s
  else if isNumberChar c && c != 'e' && c != 'E' then some { s with mode := .number [c] }
  else if c.isAlpha then some { s with mode := .word [c] }
  else
    match c with
    | '[' => some (s.emit .beginArray)
    | ']' => some (s.emit .endArray)
    | '\x7b' => some (s.emit .beginObject)
    | '\x7d' => some (s.emit .endObject)
    | ':' => some (s.emit .colon)
    | ',' => some (s.emit .comma)
    | '\x22' => some { s with mode := .string .empty }
    | _ => none

/-- Ends a number or a word. -/
def settle (s : Lexer) : Option Lexer :=
  match s.mode with
  | .number run =>
    if isNumber run.reverse then some (s.emit (.number (String.ofList run.reverse))) else none
  | .word run =>
    match String.ofList run.reverse with
    | "null" => some (s.emit .null)
    | "true" => some (s.emit (.bool true))
    | "false" => some (s.emit (.bool false))
    | _ => none
  | _ => some s

/-- Takes one character. -/
def step (s : Lexer) (c : Char) : Option Lexer :=
  match s.mode with
  | .between => s.begin c
  | .number run =>
    if isNumberChar c then some { s with mode := .number (c :: run) }
    else s.settle.bind (·.begin c)
  | .word run =>
    if c.isAlpha then some { s with mode := .word (c :: run) }
    else s.settle.bind (·.begin c)
  | .string chars =>
    if c = '\x22' then some (s.emit (.string chars.finish))
    else if c = '\\' then some { s with mode := .escape chars }
    else if c < ' ' then none
    else some { s with mode := .string (chars.push c) }
  | .escape chars =>
    if c = 'u' then some { s with mode := .code chars 4 0 }
    else (escaped? c).map fun c => { s with mode := .string (chars.push c) }
  | .code chars missing value =>
    (hexDigit? c).map fun d =>
      if missing ≤ 1 then { s with mode := .string (chars.pushCode (value * 16 + d)) }
      else { s with mode := .code chars (missing - 1) (value * 16 + d) }

/-- Takes characters one after the other. -/
def run (s : Lexer) : List Char → Option Lexer
  | [] => some s
  | c :: cs =>
    match s.step c with
    | some s => s.run cs
    | none => none

end Lexer

/-- The tokens of a text. -/
def tokenize (text : List Char) : Option (List Token) :=
  match ((⟨.between, #[]⟩ : Lexer).run text).bind Lexer.settle with
  | some ⟨.between, tokens⟩ => some tokens.toList
  | _ => none

end Typeahead.Json
