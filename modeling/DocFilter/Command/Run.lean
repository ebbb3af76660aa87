import DocFilter.Command.Arguments
import DocFilter.Files
import DocFilter.Session

/-!
# Running the command

What the command does, as a function of everything it can see: its
arguments, the environment, the files and the standard input. Settings
are loaded before the input is. With neither a query nor an input file,
the standard input is a session.

The answer is the exit code, what is written to the standard output, and
what went wrong.
-/

namespace DocFilter.Command

/-- **Why the command failed.** -/
inductive Failure where
  /-- The arguments make no sense. -/
  | usage
  /-- The settings file cannot be loaded. -/
  | settings (path : String)
  /-- The input file cannot be read. -/
  | unreadable (path : String)
  /-- The input file holds no query. -/
  | invalidInput (path : String)
  /-- The query has no filter. -/
  | query (e : QueryError)
  /-- A line of the standard input is not UTF-8. -/
  | standardInput

namespace Failure

/-- The failure in words. -/
def message : Failure → String
  | .usage => "CLI: Invalid arguments"
  | .settings path => "Config: Failed to load " ++ path
  | .unreadable path => "Input: Failed to read " ++ path
  | .invalidInput path =>
    "Input: " ++ path ++ " is not a valid " ++ (InputFormat.ofPath path).name ++ " query"
  | .query _ => "CLI: Failed to translate query"
  | .standardInput => "CLI: Failed to read query from stdin"

/-- What lies behind the failure, where there is more to say. -/
def cause? : Failure → Option String
  | .query e => some e.message
  | _ => none

/-- The exit code of the failure. -/
def code : Failure → Nat
  | .usage => 2
  | _ => 1

end Failure

/-- **How the command ended.** -/
structure Outcome where
  /-- What was written to the standard output. -/
  out : String
  /-- What went wrong, if anything did. -/
  failure : Option Failure

/-- The exit code. -/
def Outcome.code (o : Outcome) : Nat :=
  (o.failure.map Failure.code).getD 0

/-- **What the command can see.** -/
structure World where
  /-- The content of a file, if there is such a file and it is a text. -/
  file : String → Option String
  /-- The settings file that the environment names. -/
  environment : Option String
  /-- The bytes of the standard input. -/
  input : List UInt8
  /-- Whether the standard input is a terminal, where lines are asked for. -/
  terminal : Bool

/-- The extensions that are tried for a settings file that is not there
under its own name. -/
def settingsExtensions : List String := ["toml", "json", "yaml", "yml"]

/-- The files that an invocation may read. -/
def filesOf (v : Invocation) : List String :=
  let settings := v.settings.toList.flatMap fun path =>
    path :: settingsExtensions.map fun extension => path ++ "." ++ extension
  settings ++ v.input.toList

/-- The options of a settings file. -/
def loadSettings (w : World) (path : String) : Option Options :=
  match w.file path with
  | some content => Options.ofFile? path content
  | none =>
    settingsExtensions.findSome? fun extension =>
      let path := path ++ "." ++ extension
      (w.file path).bind fun content => Options.ofFile? path content

/-- The options that an invocation asks for. -/
def options (w : World) (v : Invocation) : Except Failure Options :=
  let loaded : Except Failure Options := match v.settings with
    | none => .ok {}
    | some path =>
      match loadSettings w path with
      | some o => .ok o
      | none => .error (.settings path)
  loaded.map fun o => { o with collision := v.collision.getD o.collision }

/-- The query that an input file holds. -/
def loadInput (w : World) (path : String) : Except Failure Query :=
  match w.file path with
  | none => .error (.unreadable path)
  | some content =>
    match Query.ofFile? path content with
    | some q => .ok q
    | none => .error (.invalidInput path)

/-- Answer one query. -/
def answer (o : Options) (pretty : Bool) (q : Query) : Outcome :=
  match q.toFilter o with
  | .ok doc => ⟨Document.render doc pretty ++ "\n", none⟩
  | .error e => ⟨"", some (.query e)⟩

/-- Answer the lines of the standard input. -/
def session (w : World) (o : Options) (pretty : Bool) : Outcome :=
  let r := Session.run o pretty w.terminal w.input
  ⟨r.out, if r.broken then some .standardInput else none⟩

/-- What an invocation does. -/
def invoke (w : World) (v : Invocation) : Outcome :=
  match options w v with
  | .error f => ⟨"", some f⟩
  | .ok o =>
    match v.query, v.input with
    | some query, _ => answer o v.pretty (.text query)
    | none, some path =>
      match loadInput w path with
      | .error f => ⟨"", some f⟩
      | .ok q => answer o v.pretty q
    | none, none => session w o v.pretty

/-- **What the command does.** -/
def run (w : World) (args : List String) : Outcome :=
  match Invocation.ofArguments? args w.environment with
  | none => ⟨"", some .usage⟩
  | some v => invoke w v

end DocFilter.Command
