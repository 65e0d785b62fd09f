import Typeahead.Console.Run

/-!
# The program

Reads lines from standard input and shows what an editor makes of them.
-/

namespace Typeahead.Console

/-- What an error of the system says of a file. -/
def fileError : IO.Error → FileError
  | .noFileOrDirectory .. => .missing
  | .inappropriateType _ 21 _ => .isFolder
  | .inappropriateType .. => .notFolder
  | .invalidArgument _ 22 _ => .zeroByte
  | .invalidArgument .. => .longName
  | .userError _ => .notText
  | e => .other e.toString

/-- The text of a file, or why it cannot be read. -/
def fileText (path : String) : IO (Except FileError String) := do
  try
    return .ok (← IO.FS.readFile path)
  catch e => return .error (fileError e)

/-- The files that the options name, and the environment. -/
def surroundings (o : Options) : IO Surroundings := do
  let named := [o.config, o.grammar, o.suggestions].filterMap id
  let texts ← named.mapM fun path => return (path, ← fileText path)
  return {
    file := fun path => (texts.lookup path).getD (.error .missing)
    delay := ← IO.getEnv Settings.delayVariable }

/-- Shows something. -/
def put : Output → IO Unit
  | .line text => IO.println text
  | .block text => IO.print text
  | .summary tally =>
    match tally.json with
    | .ok text => IO.println text
    | .error e => throw (.userError e.message)
  | .warning text => IO.eprintln text

/-- Lets some milliseconds pass. -/
def pause (duration : Nat) : IO Unit := do
  let most := UInt32.size - 1
  for _ in [0:duration / most] do IO.sleep (UInt32.ofNat most)
  IO.sleep (UInt32.ofNat (duration % most))

/-- Passes lines on until there are no more; as much time passes as the editor takes. -/
partial def loop (input : IO.FS.Stream) (h : Host) : IO Unit := do
  let line ← input.getLine
  unless line.isEmpty do
    let (next, output) := step h (chomp line)
    pause (next.editor.clock - h.editor.clock)
    output.forM put
    (← IO.getStdout).flush
    loop input next

/-- Reports a failure. -/
def fail (f : Failure) : IO UInt32 := do
  f.report.forM IO.eprintln
  return 1

/-- Runs an editor. -/
def start (o : Options) : IO UInt32 := do
  match open? (← surroundings o) o with
  | .error f => fail f
  | .ok h =>
    put (shown h)
    (← IO.getStdout).flush
    if h.isReady then
      loop (← IO.getStdin) h
      return 0
    else fail (notReady h)

end Typeahead.Console

open Typeahead.Console in
/-- Does what the arguments ask for. -/
def main (args : List String) : IO UInt32 := do
  match Invocation.ofArguments args with
  | .ok (.run o) => start o
  | .ok .help =>
    helpText.forM IO.println
    return 0
  | .ok .version =>
    IO.println versionText
    return 0
  | .error e =>
    IO.eprintln ("error: " ++ e.message)
    return 2
