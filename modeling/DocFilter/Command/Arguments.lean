import DocFilter.Options

/-!
# Arguments of the command

The command takes at most one query, an input file instead of it, a
settings file, a collision policy and two switches. An option is given
once, in a long form (`--input FILE` or `--input=FILE`) or, for most, in a
short one (`-i FILE`, `-iFILE` or `-i=FILE`); short switches can share a
dash. After `--` every argument is a query. Anything else is a mistake in
usage, and a mistake has no further cause.
-/

namespace DocFilter.Command

/-- **What the command was asked to do.** -/
structure Invocation where
  /-- The query itself. -/
  query : Option String := none
  /-- The file that holds the query. -/
  input : Option String := none
  /-- The settings file. -/
  settings : Option String := none
  /-- The policy that overrides the settings. -/
  collision : Option CollisionPolicy := none
  /-- Whether the document is printed in its pretty form. -/
  pretty : Bool := false
  /-- Whether progress is reported. -/
  verbose : Bool := false
  deriving DecidableEq

/-- **An option.** -/
inductive Name where
  /-- The input file. -/
  | input
  /-- The settings file. -/
  | settings
  /-- The collision policy. -/
  | collision
  /-- The switch for the pretty form. -/
  | pretty
  /-- The switch for progress reports. -/
  | verbose
  deriving DecidableEq

/-- The options by their long names. -/
def longNames : List (String × Name) :=
  [("input", .input), ("config", .settings), ("collision", .collision),
    ("pretty", .pretty), ("verbose", .verbose)]

/-- The options by their letters. -/
def letters : List (Char × Name) :=
  [('i', .input), ('c', .settings), ('p', .pretty), ('v', .verbose)]

/-- Whether an option takes a value. -/
def Name.takesValue : Name → Bool
  | .input => true
  | .settings => true
  | .collision => true
  | .pretty => false
  | .verbose => false

/-- The policies by the names they have as arguments. -/
def policyNames : List (String × CollisionPolicy) :=
  [("last-wins", .lastWins), ("error", .reject), ("and-wrap", .andWrap)]

namespace Invocation

/-- Turn a switch on, unless it is on. -/
def switch? (v : Invocation) : Name → Option Invocation
  | .pretty => if v.pretty then none else some { v with pretty := true }
  | .verbose => if v.verbose then none else some { v with verbose := true }
  | _ => none

/-- Give an option its value, unless it has one. A file has a name. -/
def give? (v : Invocation) (value : String) : Name → Option Invocation
  | .input =>
    if v.input.isSome || value.isEmpty then none else some { v with input := some value }
  | .settings =>
    if v.settings.isSome || value.isEmpty then none else some { v with settings := some value }
  | .collision =>
    if v.collision.isSome then none
    else (policyNames.lookup value).map fun p => { v with collision := some p }
  | _ => none

/-- Take a query, unless there is one. -/
def ask? (v : Invocation) (query : String) : Option Invocation :=
  if v.query.isSome then none else some { v with query := some query }

end Invocation

/-- What an argument leaves to do: nothing, or to take the next argument as
the value of an option. -/
inductive Pending where
  /-- Nothing. -/
  | done
  /-- The value of an option is to come. -/
  | value (name : Name)

/-- Whether an argument looks like an option: a dash and more. -/
def looksLikeOption (arg : String) : Bool :=
  match arg.toList with
  | '-' :: _ :: _ => true
  | _ => false

/-- The letters of an argument after its dash. A letter that takes a value
takes the rest of the argument, after an equals sign if there is one. -/
def takeLetters (v : Invocation) : List Char → Option (Invocation × Pending)
  | [] => some (v, .done)
  | c :: rest =>
    match letters.lookup c with
    | none => none
    | some name =>
      if name.takesValue then
        match rest with
        | [] => some (v, .value name)
        | '=' :: value => (v.give? (String.ofList value) name).map fun v => (v, .done)
        | value => (v.give? (String.ofList value) name).map fun v => (v, .done)
      else
        match v.switch? name with
        | none => none
        | some v => takeLetters v rest

/-- A long option after its dashes. -/
def takeLong (v : Invocation) (cs : List Char) : Option (Invocation × Pending) :=
  let name := String.ofList (cs.takeWhile (· != '='))
  match longNames.lookup name, cs.dropWhile (· != '=') with
  | none, _ => none
  | some name, '=' :: value =>
    if name.takesValue then (v.give? (String.ofList value) name).map fun v => (v, .done) else none
  | some name, _ =>
    if name.takesValue then some (v, .value name)
    else (v.switch? name).map fun v => (v, .done)

/-- Arguments that are all queries. -/
def takeQueries (v : Invocation) : List String → Option Invocation
  | [] => some v
  | arg :: rest =>
    match v.ask? arg with
    | none => none
    | some v => takeQueries v rest

/-- Take the arguments one by one. -/
def takeAll (v : Invocation) (pending : Pending) : List String → Option Invocation
  | [] =>
    match pending with
    | .done => some v
    | .value _ => none
  | arg :: rest =>
    match pending with
    | .value name =>
      if looksLikeOption arg then none
      else
        match v.give? arg name with
        | none => none
        | some v => takeAll v .done rest
    | .done =>
      if arg = "--" then takeQueries v rest
      else
        let taken := match arg.toList with
          | '-' :: '-' :: cs => takeLong v cs
          | '-' :: c :: cs => takeLetters v (c :: cs)
          | _ => (v.ask? arg).map fun v => (v, .done)
        match taken with
        | none => none
        | some (v, pending) => takeAll v pending rest

/-- **What the arguments ask for**, given the settings file that the
environment names; `none` for a mistake in usage. -/
def Invocation.ofArguments? (args : List String) (environment : Option String) :
    Option Invocation :=
  match takeAll {} .done args with
  | none => none
  | some v =>
    if v.query.isSome && v.input.isSome then none
    else if v.settings.isSome then some v
    else
      match environment with
      | none => some v
      | some path => v.give? path .settings

end DocFilter.Command
