import Typeahead.Grammar.Error
import Typeahead.Text.Blank

/-!
# The tokens of a grammar text

A grammar is written with rule names in angle brackets, literals in either kind of quote, `::=`
between a rule and its body and `|` between alternatives. Blanks separate tokens, and a semicolon
outside a literal begins a comment that ends with its line.

- **Reading** (`Lexer.step`): one character at a time. A token that has begun waits in the lexer's
  mode; its place is where it began.
- **Place**: a lexer's place is the place of the next character, by `Place.next` alone.
- **Result** (`tokenize`): the tokens, or the first fault from the left.
-/

namespace Typeahead.Grammar

/-- What a token says. -/
inductive Word where
  | reference (name : String)
  | literal (text : List Char)
  | define
  | pipe
  deriving Repr, DecidableEq

/-- A token and where it begins. -/
structure Token where
  word : Word
  place : Place
  deriving Repr, DecidableEq

/-- What the next character belongs to. Texts hold their last character first. -/
inductive Mode where
  | between
  | comment
  /-- After the first colon of `::=`, or after both. -/
  | define (start : Place) (both : Bool)
  | reference (start : Place) (text : List Char)
  | literal (quote : Char) (start : Place) (text : List Char)
  deriving Repr, DecidableEq

/-- A lexer between two characters. -/
structure Lexer where
  mode : Mode
  place : Place
  tokens : Array Token
  deriving Repr, DecidableEq

namespace Lexer

/-- A lexer before the first character. -/
def init : Lexer := ⟨.between, .first, #[]⟩

/-- Ends a token that began at `start`. -/
def emit (s : Lexer) (word : Word) (start : Place) : Lexer :=
  { s with mode := .between, tokens := s.tokens.push ⟨word, start⟩ }

/-- Takes a character that no token has claimed; `start` is its place and `s` is past it. -/
def begin (s : Lexer) (start : Place) (c : Char) : Except Error Lexer :=
  if Text.isBlank c then .ok s
  else if c = ';' then .ok { s with mode := .comment }
  else if c = '|' then .ok (s.emit .pipe start)
  else if c = ':' then .ok { s with mode := .define start false }
  else if c = '<' then .ok { s with mode := .reference start [] }
  else if c = '\x22' ∨ c = '\x27' then .ok { s with mode := .literal c start [] }
  else .error (.unexpected c start)

/-- Ends a reference. Blanks around the name do not count. A reference without a name is reported
as a closing bracket just after the opening one. -/
def endReference (s : Lexer) (start : Place) (text : List Char) : Except Error Lexer :=
  let name := Text.trim text.reverse
  if name.isEmpty then .error (.unexpected '>' ⟨start.line, start.column + 1⟩)
  else .ok (s.emit (.reference (String.ofList name)) start)

/-- Takes one character. -/
def step (s : Lexer) (c : Char) : Except Error Lexer :=
  let moved := { s with place := s.place.next c }
  match s.mode with
  | .between => moved.begin s.place c
  | .comment => .ok (if c = '\n' then { moved with mode := .between } else moved)
  | .define start false =>
    if c = ':' then .ok { moved with mode := .define start true }
    else .error (.unexpected ':' start)
  | .define start true =>
    if c = '=' then .ok (moved.emit .define start) else .error (.unexpected ':' start)
  | .reference start text =>
    if c = '>' then moved.endReference start text
    else if c = '\n' then .error (.openReference start)
    else .ok { moved with mode := .reference start (c :: text) }
  | .literal quote start text =>
    if c = quote then .ok (moved.emit (.literal text.reverse) start)
    else if c = '\n' then .error (.openLiteral start)
    else .ok { moved with mode := .literal quote start (c :: text) }

/-- The tokens read, when no token is left open. -/
def finish (s : Lexer) : Except Error (List Token) :=
  match s.mode with
  | .between | .comment => .ok s.tokens.toList
  | .define start _ => .error (.unexpected ':' start)
  | .reference start _ => .error (.openReference start)
  | .literal _ start _ => .error (.openLiteral start)

/-- Takes characters one after the other. -/
def run (s : Lexer) : List Char → Except Error Lexer
  | [] => .ok s
  | c :: cs =>
    match s.step c with
    | .ok s => s.run cs
    | .error e => .error e

end Lexer

/-- The tokens of a text. -/
def tokenize (text : List Char) : Except Error (List Token) :=
  match Lexer.init.run text with
  | .ok s => s.finish
  | .error e => .error e

end Typeahead.Grammar
