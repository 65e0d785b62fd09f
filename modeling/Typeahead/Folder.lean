/-!
# Files by path

A folder of texts, and what a path that starts there leads to.

- **Faults** (`FileError`): why a path leads to no text.
- **Steps** (`enter`): a path is followed part by part. Nothing lies below a file, and of what lies
  outside the folder only the folders around it are known.
- **Reading** (`read`): the file that the path ends at. A path is looked at as a whole first: it has
  no zero byte, it is not empty, and neither it nor a part of it is too long.
-/

namespace Typeahead

/-- Why a file cannot be read. -/
inductive FileError where
  | missing
  /-- Something is looked for below a file. -/
  | notFolder
  /-- A folder is read as if it were a file. -/
  | isFolder
  | longName
  | zeroByte
  /-- The bytes of the file are no text. -/
  | notText
  | other (message : String)
  deriving Repr, DecidableEq

/-- The wording of an error. -/
def FileError.message : FileError → String
  | .missing => "No such file or directory (os error 2)"
  | .notFolder => "Not a directory (os error 20)"
  | .isFolder => "Is a directory (os error 21)"
  | .longName => "File name too long (os error 36)"
  | .zeroByte => "file name contained an unexpected NUL byte"
  | .notText => "stream did not contain valid UTF-8"
  | .other message => message

/-- The parts of a path between its slashes, given the reversed beginning of the first. -/
def pathPartsFrom (begun : List Char) : List Char → List String
  | [] => [String.ofList begun.reverse]
  | '/' :: cs => String.ofList begun.reverse :: pathPartsFrom [] cs
  | c :: cs => pathPartsFrom (c :: begun) cs

/-- The parts of a path between its slashes. -/
def pathParts (path : String) : List String := pathPartsFrom [] path.toList

/-- Texts by the parts of their paths; every part but the last names a folder. -/
structure Folder where
  files : List (List String × String) := []
  deriving Repr, DecidableEq

namespace Folder

/-- Where a path has led to so far. -/
inductive Place where
  /-- The folder itself, or the one that some parts lead to from there. -/
  | inside (parts : List String)
  /-- A folder around it. -/
  | outside
  | file (text : String)
  deriving Repr, DecidableEq

/-- The most bytes that a part of a path has. -/
def longestName : Nat := 255

/-- The most bytes that a path has. -/
def longestPath : Nat := 4095

/-- A folder of texts by their paths. -/
def ofFiles (files : List (String × String)) : Folder :=
  { files := files.map fun (path, text) => (pathParts path, text) }

variable (f : Folder)

/-- What is found by some parts. -/
def find? (parts : List String) : Option Place :=
  match f.files.lookup parts with
  | some text => some (.file text)
  | none => if f.files.any (fun e => parts.isPrefixOf e.1) then some (.inside parts) else none

/-- What a name leads to in a folder. -/
def named (place : Place) (name : String) : Except FileError Place :=
  if longestName < name.utf8ByteSize then .error .longName
  else
    match place with
    | .inside parts =>
      match f.find? (parts ++ [name]) with
      | some place => .ok place
      | none => .error .missing
    | _ => .error .missing

/-- The folder around another. -/
def above : Place → Place
  | .inside [] => .outside
  | .inside parts => .inside parts.dropLast
  | place => place

/-- Follows one part of a path. -/
def enter (place : Place) (part : String) : Except FileError Place :=
  match place, part with
  | .file _, _ => .error .notFolder
  | _, "" => .ok place
  | _, "." => .ok place
  | _, ".." => .ok (above place)
  | _, _ => f.named place part

/-- Where a path starts: outside if it has a slash at its beginning. -/
def start (path : String) : Place := if path.startsWith "/" then .outside else .inside []

/-- The text that a path leads to. -/
def read (path : String) : Except FileError String :=
  if path.contains '\x00' then .error .zeroByte
  else if path.isEmpty then .error .missing
  else if longestPath < path.utf8ByteSize then .error .longName
  else
    match (pathParts path).foldlM f.enter (start path) with
    | .ok (.file text) => .ok text
    | .ok _ => .error .isFolder
    | .error e => .error e

end Folder

end Typeahead
