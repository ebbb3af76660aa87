import DocFilter.Command.Run

/-!
# The command

The outer layer: it reads arguments, environment, files and the standard
input, and writes what `Command` decides.
-/

namespace DocFilter.Main

/-- The variable that names a settings file. -/
def settingsVariable : String := "SMOQ_CONFIG"

/-- The content of each file that can be read. -/
def readFiles (paths : List String) : IO (List (String × String)) :=
  paths.filterMapM fun (path : String) => do
    try
      let content ← IO.FS.readFile path
      return some (path, content)
    catch _ => return none

/-- Report a failure and give its exit code. -/
def report (f : Command.Failure) : IO UInt32 := do
  IO.eprintln ("Error: " ++ f.message)
  match f.cause? with
  | some cause => IO.eprintln ("\nCaused by:\n    " ++ cause)
  | none => pure ()
  return f.code.toUInt32

/-- Read the bytes of a line up to its line feed; none at the end of the
input. -/
partial def readLine (stdin : IO.FS.Stream) (line : List UInt8) : IO (Option (List UInt8)) := do
  let chunk ← stdin.read 1
  match chunk.toList with
  | [] => return if line.isEmpty then none else some line.reverse
  | b :: _ =>
    if b = Session.lineFeed then return some (Session.dropReturn line.reverse)
    else readLine stdin (b :: line)

/-- Answer lines as they come. -/
partial def converse (o : Options) (pretty prompting : Bool) : IO UInt32 := do
  let stdin ← IO.getStdin
  let stdout ← IO.getStdout
  stdout.putStr (Session.prompt prompting)
  stdout.flush
  match ← readLine stdin [] with
  | none => return 0
  | some line =>
    match Session.reply o pretty line with
    | .broken => report .standardInput
    | .over => return 0
    | .answered _ written =>
      stdout.putStr written
      stdout.flush
      converse o pretty prompting

end DocFilter.Main

open DocFilter in
/-- The program. -/
def main (args : List String) : IO UInt32 := do
  let environment ← IO.getEnv Main.settingsVariable
  match Command.Invocation.ofArguments? args environment with
  | none => Main.report .usage
  | some v =>
    let files ← Main.readFiles (Command.filesOf v)
    let world : Command.World := ⟨fun path => files.lookup path, environment, [], false⟩
    if v.query.isNone && v.input.isNone then
      match Command.options world v with
      | .error f => Main.report f
      | .ok o => Main.converse o v.pretty (← (← IO.getStdin).isTty)
    else
      let outcome := Command.invoke world v
      IO.print outcome.out
      match outcome.failure with
      | some f => Main.report f
      | none => return 0
