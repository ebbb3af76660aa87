import DocFilter.Query
import DocFilter.Settings
import DocFilter.Toml.Reader
import DocFilter.Yaml.Schema

/-!
# Settings and queries in files

Two kinds of files are read: **settings**, which hold the options of a
filter, and **inputs**, which hold a query. The extension of a file says
how it is written. Settings name one of three formats exactly;
inputs are JSON unless the extension says YAML in any case of its letters.
-/

namespace DocFilter

/-- The last part of a path. -/
def fileName (path : String) : List Char :=
  ((Text.segments '/' path.toList).filter fun s => !s.isEmpty && s != ['.']).getLast?.getD []

/-- **The extension of a file**: what follows the last point of its name.
A point at the start of a name begins no extension. -/
def fileExtension? (path : String) : Option String :=
  let name := fileName path
  let extension := (name.reverse.takeWhile (· != '.')).reverse
  let stem := name.length - extension.length - 1
  if name.contains '.' && stem != 0 && name != ['.', '.'] then some (String.ofList extension)
  else none

/-! ## Settings -/

/-- The text without the mark of the byte order at its start. -/
def dropByteOrderMark (content : String) : String :=
  match content.toList with
  | '\ufeff' :: cs => String.ofList cs
  | _ => content

/-- **The options that a settings file gives**, by its name and content. A
mark of the byte order at its start does not count. -/
def Options.ofFile? (path content : String) : Option Options :=
  let content := dropByteOrderMark content
  let settings := match fileExtension? path with
    | some "json" => Value.ofText? content
    | some "yaml" => Yaml.settingsValue? content
    | some "yml" => Yaml.settingsValue? content
    | some "toml" => (Toml.read content).map .document
    | _ => none
  settings.bind Options.ofSettings?

/-! ## Inputs -/

/-- **How an input is written.** -/
inductive InputFormat where
  /-- As a JSON value. -/
  | json
  /-- As a YAML text. -/
  | yaml
  deriving DecidableEq

/-- The name of a format. -/
def InputFormat.name : InputFormat → String
  | .json => "JSON"
  | .yaml => "YAML"

/-- The format of an input file. -/
def InputFormat.ofPath (path : String) : InputFormat :=
  match (fileExtension? path).map Text.lowerCase with
  | some "yaml" => .yaml
  | some "yml" => .yaml
  | _ => .json

/-- **The query that an input file holds**, by its name and content. -/
def Query.ofFile? (path content : String) : Option Query :=
  match InputFormat.ofPath path with
  | .json => (Query.read content).toOption
  | .yaml => (Yaml.queryValue? content).bind Query.ofValue?

end DocFilter
