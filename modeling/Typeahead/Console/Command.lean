import Typeahead.Editor.Event
import Typeahead.Text.Blank
import Typeahead.Text.Number
import Typeahead.Text.Quoted

/-!
# Lines typed at the console

- **Commands** (`Command.ofLine`): a line that begins with a colon is a command, any other is the
  text of the input field.
- **Lines** (`chomp`): a line ends with a line feed, or with a carriage return and a line feed; the
  last one may end without either.
-/

namespace Typeahead.Console

/-- What a line asks for. -/
inductive Command where
  /-- The text of the field, with the caret behind it. -/
  | text (text : String)
  | event (event : UserEvent)
  /-- Show the tree. -/
  | tree
  /-- Show what was counted. -/
  | metrics
  deriving Repr, DecidableEq

/-- Why a line is no command. -/
inductive CommandError where
  | position (argument : String) (error : Text.NumberError)
  | unknown (command : String)
  deriving Repr, DecidableEq

/-- The wording of an error. -/
def CommandError.message : CommandError → String
  | .position argument error =>
    "invalid cursor position " ++ Text.quoted argument ++ ": " ++ error.message
  | .unknown command => "unknown command :" ++ command

/-- The parts of a text before and after the first space, if it has one. -/
def splitSpace (cs : List Char) : String × Option String :=
  match cs.dropWhile (· != ' ') with
  | _ :: argument => (String.ofList (cs.takeWhile (· != ' ')), some (String.ofList argument))
  | [] => (String.ofList cs, none)

/-- The command that puts the caret somewhere. -/
def Command.caret (argument : String) : Except CommandError Command :=
  match Text.readNumber (Text.trim argument.toList) with
  | .ok offset => .ok (.event (.caret offset))
  | .error error => .error (.position argument error)

/-- The command that a line writes. -/
def Command.ofLine (line : String) : Except CommandError Command :=
  match line.toList with
  | ':' :: command =>
    match splitSpace command with
    | ("cursor", some argument) => caret argument
    | ("left", none) => .ok (.event .left)
    | ("right", none) => .ok (.event .right)
    | ("up", none) => .ok (.event .up)
    | ("down", none) => .ok (.event .down)
    | ("enter", none) => .ok (.event .enter)
    | ("esc", none) => .ok (.event .escape)
    | ("pick", some candidate) => .ok (.event (.click candidate))
    | ("blur", none) => .ok (.event .blur)
    | ("tree", none) => .ok .tree
    | ("metrics", none) => .ok .metrics
    | _ => .error (.unknown (String.ofList command))
  | _ => .ok (.text line)

/-- A line without its end. -/
def chomp (line : String) : String :=
  match line.toList.reverse with
  | '\n' :: '\r' :: rest => String.ofList rest.reverse
  | '\n' :: rest => String.ofList rest.reverse
  | _ => line

/-- The lines of a text, given the reversed beginning of the first. -/
def linesFrom (begun : List Char) : List Char → List String
  | [] => if begun.isEmpty then [] else [chomp (String.ofList begun.reverse)]
  | '\n' :: cs => chomp (String.ofList ('\n' :: begun).reverse) :: linesFrom [] cs
  | c :: cs => linesFrom (c :: begun) cs

/-- The lines of a text. -/
def linesOf (text : String) : List String := linesFrom [] text.toList

end Typeahead.Console
