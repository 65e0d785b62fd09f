/-!
# Writing JSON

Each function gives the text of one value; compound values take the texts of their parts. There is
no space between tokens, and only what must be escaped is.
-/

namespace Typeahead.Json.Write

/-- The escape of a control character that has no letter of its own. -/
def code (c : Char) : String :=
  "\\u00" ++ (if c.toNat < 16 then "0" else "1") ++
    String.ofList (Nat.toDigits 16 (c.toNat % 16))

/-- The written form of a character in a string. -/
def char (c : Char) : String :=
  if c = '\x22' then "\\\""
  else if c = '\\' then "\\\\"
  else if c = '\x08' then "\\b"
  else if c = '\t' then "\\t"
  else if c = '\n' then "\\n"
  else if c = '\x0c' then "\\f"
  else if c = '\r' then "\\r"
  else if c < ' ' then code c
  else c.toString

/-- A string. -/
def string (s : String) : String :=
  (s.toList.foldl (fun out c => out ++ char c) "\"").push '\x22'

/-- A whole number. -/
def nat (n : Nat) : String := toString n

/-- A truth value. -/
def bool (b : Bool) : String := if b then "true" else "false"

/-- A value that may be missing. -/
def option {α : Type} (f : α → String) : Option α → String
  | some x => f x
  | none => "null"

/-- A list of values. -/
def array (items : List String) : String := "[" ++ ",".intercalate items ++ "]"

/-- An object with its members in order. -/
def object (members : List (String × String)) : String :=
  "\x7b" ++ ",".intercalate (members.map fun m => string m.1 ++ ":" ++ m.2) ++ "\x7d"

end Typeahead.Json.Write
