import Typeahead.Json.Token
import Typeahead.Text.Number

/-!
# JSON values

- **Values** (`Json`): members of an object stay in order, and a key may come more than once.
- **Building** (`Builder.step`): one token at a time, with the values that are still open on a
  stack, so depth has no limit.
- **Result** (`Json.parse?`): the value of a text that holds one value and nothing else.
-/

namespace Typeahead

/-- A JSON value. A string without a text (see `Json.Chars`) is `none`. -/
inductive Json where
  | null
  | bool (value : Bool)
  | number (digits : String)
  | string (value : Option String)
  | array (items : List Json)
  | object (members : List (Option String × Json))
  deriving Repr

namespace Json

/-- A value that is still open; what it holds stands in reverse. -/
inductive Open where
  | array (items : List Json)
  | object (members : List (Option String × Json))
  /-- An object that waits for the value of a key. -/
  | member (members : List (Option String × Json)) (key : Option String)

/-- What may come next. -/
inductive Expect where
  | value
  | valueOrEnd
  | key
  | keyOrEnd
  | colon
  | more
  | nothing (result : Json)

/-- A value between two tokens; the innermost open value comes first. -/
structure Builder where
  stack : List Open
  expect : Expect

namespace Builder

/-- Adds a finished value to the innermost open one. -/
def put (stack : List Open) (v : Json) : Option Builder :=
  match stack with
  | [] => some ⟨[], .nothing v⟩
  | .array items :: stack => some ⟨.array (v :: items) :: stack, .more⟩
  | .member members key :: stack => some ⟨.object ((key, v) :: members) :: stack, .more⟩
  | .object _ :: _ => none

/-- Takes a token where a value has to begin. -/
def begin (stack : List Open) : Token → Option Builder
  | .beginArray => some ⟨.array [] :: stack, .valueOrEnd⟩
  | .beginObject => some ⟨.object [] :: stack, .keyOrEnd⟩
  | .null => put stack .null
  | .bool b => put stack (.bool b)
  | .number digits => put stack (.number digits)
  | .string s => put stack (.string s)
  | _ => none

/-- Takes the token that ends the innermost open value. -/
def finish (stack : List Open) (t : Token) : Option Builder :=
  match stack, t with
  | .array items :: stack, .endArray => put stack (.array items.reverse)
  | .object members :: stack, .endObject => put stack (.object members.reverse)
  | _, _ => none

/-- Takes the key of a member. -/
def key (stack : List Open) (t : Token) : Option Builder :=
  match stack, t with
  | .object members :: stack, .string k => some ⟨.member members k :: stack, .colon⟩
  | _, _ => none

/-- Takes one token. -/
def step (b : Builder) (t : Token) : Option Builder :=
  match b.expect with
  | .value => begin b.stack t
  | .valueOrEnd => if t = .endArray then finish b.stack t else begin b.stack t
  | .key => key b.stack t
  | .keyOrEnd => if t = .endObject then finish b.stack t else key b.stack t
  | .colon => if t = .colon then some { b with expect := .value } else none
  | .more =>
    if t = .comma then
      match b.stack with
      | .array _ :: _ => some { b with expect := .value }
      | _ => some { b with expect := .key }
    else finish b.stack t
  | .nothing _ => none

/-- Takes tokens one after the other. -/
def run (b : Builder) : List Token → Option Builder
  | [] => some b
  | t :: ts =>
    match b.step t with
    | some b => b.run ts
    | none => none

end Builder

/-- The value that a text writes. -/
def parse? (text : String) : Option Json :=
  match tokenize text.toList with
  | none => none
  | some tokens =>
    match (⟨[], .value⟩ : Builder).run tokens with
    | some ⟨_, .nothing v⟩ => some v
    | _ => none

/-- The text of a string. -/
def text? : Json → Option String
  | .string s => s
  | _ => none

/-- The truth value of a truth value. -/
def bool? : Json → Option Bool
  | .bool b => some b
  | _ => none

/-- The value of a number that is written with digits alone and fits 64 bits. -/
def nat? : Json → Option Nat
  | .number digits =>
    if digits.toList.all Char.isDigit then (Text.readDigits 0 digits.toList).toOption else none
  | _ => none

/-- `none` for null, else what `f` makes of the value; the outer `none` is a refusal. -/
def nullable? {α : Type} (f : Json → Option α) : Json → Option (Option α)
  | .null => some none
  | v => (f v).map some

end Json

end Typeahead
