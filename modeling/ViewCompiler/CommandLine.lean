import ViewCompiler.Report
import ViewCompiler.Request.Json
import ViewCompiler.Schema.Json
import ViewCompiler.Settings

/-!
# The Command Line

There are two commands, one for queries and one for mutations. Each takes the
file of a request and compiles it against the file of a schema.

Options come in a long form, and in a short form of one letter; short options
may share one dash, and the value of an option may follow it at once, behind
an equals sign, or as the next argument. An option that is given twice, a
value that is missing or empty, and a second file are faults in the usage.

The arguments are read first, into an `Invocation`. It names the files that
are needed, and given these and the variables it is run.

## Main definitions

* `Invocation`: What the arguments ask for.
* `Request.ofArgs`: Reading the arguments.
* `Invocation.run`: Running an invocation.
* `Outcome`: What is printed, and where.
-/

namespace ViewCompiler

namespace CommandLine

/-- The two commands. -/
inductive Command where
  | query
  | mutation
deriving DecidableEq

/-- What the arguments of a command ask for. -/
structure Invocation where
  command : Command
  schemaFile : String
  requestFile : String
  authenticated : Bool
  responseFile : Option String
deriving DecidableEq

/-- What the arguments ask for. -/
inductive Request where
  | run (invocation : Invocation)
  | version
  | help
  /-- The arguments are at fault. -/
  | misuse
deriving DecidableEq

/-! ### Arguments -/

/-- The options that have a value. -/
inductive ValueOption where
  | schema
  | response
deriving DecidableEq

/-- The options of a command. -/
inductive Opt where
  | valued (option : ValueOption)
  | authenticated
  | help
deriving DecidableEq

/-- Whether a command has an option. -/
def Command.has : Command → Opt → Bool
  | .query, .valued .response => false
  | _, _ => true

/-- The long form of an option. -/
def Opt.long : Opt → String
  | .valued .schema => "schema"
  | .valued .response => "response"
  | .authenticated => "authenticated"
  | .help => "help"

/-- The short form of an option. -/
def Opt.short : Opt → Char
  | .valued .schema => 's'
  | .valued .response => 'r'
  | .authenticated => 'a'
  | .help => 'h'

/-- All options of a command. -/
def Command.options (command : Command) : List Opt :=
  [Opt.valued .schema, .valued .response, .authenticated, .help].filter command.has

/-- The arguments of a command that have been read. -/
structure Given where
  schemaFile : Option String
  responseFile : Option String
  authenticated : Bool
  requestFile : Option String
deriving DecidableEq

/-- Why the reading of arguments ends early. -/
inductive Stop where
  | help
  | misuse
deriving DecidableEq

namespace Given

/-- Nothing so far. -/
def nothing : Given := ⟨none, none, false, none⟩

/-- With the value of an option, which must be new and not empty. -/
def withValue (given : Given) (option : ValueOption) (value : String) : Except Stop Given :=
  if value = "" then .error .misuse
  else
    match option with
    | .schema =>
        if given.schemaFile.isSome then .error .misuse
        else .ok { given with schemaFile := some value }
    | .response =>
        if given.responseFile.isSome then .error .misuse
        else .ok { given with responseFile := some value }

/-- With an authenticated caller, which must be new. -/
def withAuthenticated (given : Given) : Except Stop Given :=
  if given.authenticated then .error .misuse else .ok { given with authenticated := true }

/-- With the file of a request, which must be new and not empty. -/
def withRequest (given : Given) (value : String) : Except Stop Given :=
  if value = "" || given.requestFile.isSome then .error .misuse
  else .ok { given with requestFile := some value }

end Given

/-- What an argument with options leaves to be done: nothing, or the value of
    its last option is the next argument. -/
structure Progress where
  given : Given
  pending : Option ValueOption
deriving DecidableEq

/-- Reads the letters behind a single dash. -/
def readLetters (command : Command) (given : Given) : List Char → Except Stop Progress
  | [] => .ok ⟨given, none⟩
  | c :: rest =>
      match command.options.find? fun option => option.short == c with
      | none => .error .misuse
      | some .help => .error .help
      | some .authenticated => do
          let given ← given.withAuthenticated
          readLetters command given rest
      | some (.valued option) =>
          -- Whatever follows an option with a value is that value.
          match rest with
          | [] => .ok ⟨given, some option⟩
          | '=' :: value => do
              let given ← given.withValue option (String.ofList value)
              return ⟨given, none⟩
          | value => do
              let given ← given.withValue option (String.ofList value)
              return ⟨given, none⟩

/-- Reads what stands behind two dashes: a name, and behind an equals sign a
    value. -/
def readLong (command : Command) (given : Given) (text : List Char) : Except Stop Progress :=
  let name := String.ofList (text.takeWhile (· != '='))
  let value := (text.dropWhile (· != '=')).tail?.map String.ofList
  match command.options.find? fun option => option.long == name with
  | none => .error .misuse
  | some .help => if value.isSome then .error .misuse else .error .help
  | some .authenticated =>
      if value.isSome then .error .misuse
      else do
        let given ← given.withAuthenticated
        return ⟨given, none⟩
  | some (.valued option) =>
      match value with
      | none => .ok ⟨given, some option⟩
      | some value => do
          let given ← given.withValue option value
          return ⟨given, none⟩

/-- Reads one argument in front of a lone pair of dashes. A value that is
    pending can be anything that does not look like options; a lone dash does
    not. -/
def readArgument (command : Command) (progress : Progress) (arg : String) :
    Except Stop Progress :=
  match arg.toList, progress.pending with
  | '-' :: '-' :: text, none => readLong command progress.given text
  | '-' :: '-' :: _, some _ => .error .misuse
  | '-' :: c :: text, none => readLetters command progress.given (c :: text)
  | '-' :: _ :: _, some _ => .error .misuse
  | _, some option => do
      let given ← progress.given.withValue option arg
      return ⟨given, none⟩
  | _, none => do
      let given ← progress.given.withRequest arg
      return ⟨given, none⟩

/-- Reads the arguments of a command. Behind a lone pair of dashes there are no
    options. -/
def readArguments (command : Command) (progress : Progress) : List String → Except Stop Given
  | [] => if progress.pending.isSome then .error .misuse else .ok progress.given
  | arg :: rest =>
      if arg = "--" then
        if progress.pending.isSome then .error .misuse
        else rest.foldlM Given.withRequest progress.given
      else do
        let progress ← readArgument command progress arg
        readArguments command progress rest

/-- The file of the schema, unless the arguments name one. -/
def defaultSchemaFile : String := "schema.json"

/-- What the arguments of a command ask for. -/
def Command.request (command : Command) (args : List String) : Request :=
  match readArguments command ⟨.nothing, none⟩ args with
  | .error .help => .help
  | .error .misuse => .misuse
  | .ok given =>
      match given.requestFile with
      | none => .misuse
      | some requestFile =>
          .run ⟨command, given.schemaFile.getD defaultSchemaFile, requestFile,
            given.authenticated, given.responseFile⟩

/-- What all arguments ask for: a command with its arguments, or an option of
    the program itself. -/
def Request.ofArgs : List String → Request
  | [] => .misuse
  | arg :: rest =>
      if arg = "query" then Command.request .query rest
      else if arg = "mutation" then Command.request .mutation rest
      else if arg = "--version" then .version
      else if arg = "--help" then .help
      else
        match arg.toList with
        | '-' :: 'V' :: _ => .version
        | '-' :: 'h' :: _ => .help
        | _ => .misuse

/-! ### Running -/

/-- The content of files by name; a file that is not there has none. -/
abbrev Files := String → Option (List UInt8)

/-- The schema in a file. -/
def loadSchema (files : Files) (name : String) : Except String Schema :=
  match files name with
  | none => .error s!"Unable to open schema file {name}"
  | some bytes =>
      match Schema.ofText? (Text.symbolsOfBytes bytes) with
      | none => .error s!"Unable to load schema from {name}"
      | some schema => .ok schema

/-- The request in a file. -/
def loadRequest {α : Type} (files : Files) (read : List Text.Symbol → Option α) (name : String) :
    Except String α :=
  match files name with
  | none => .error s!"Unable to open {name}"
  | some bytes =>
      match read (Text.symbolsOfBytes bytes) with
      | none => .error s!"Unable to parse {name}"
      | some request => .ok request

/-- The settings that the variables ask for. -/
def loadSettings (env : Environment) : Except String Settings :=
  (Settings.ofEnvironment env).mapError InvalidNumber.message

/-- The message about a response that cannot be selected. -/
def noResponseId (mutationName : String) : String :=
  s!"The mutation input has no id, so the response of '{mutationName}' cannot be selected"

/-- The report on the query of an invocation. -/
def runQuery (i : Invocation) (files : Files) (env : Environment) : Except String Json.Value := do
  let schema ← loadSchema files i.schemaFile
  let node ← loadRequest files QueryNode.ofText? i.requestFile
  let settings ← loadSettings env
  let compiled ← (schema.compileQuery settings.minDepth i.authenticated none node).mapError
    Failure.message
  return compiled.report

/-- The query for the response to a compiled mutation. -/
def runResponse (i : Invocation) (files : Files) (env : Environment) (schema : Schema)
    (compiled : CompiledMutation) (name : String) : Except String CompiledQuery := do
  let node ← loadRequest files QueryNode.ofText? name
  let some constraint := compiled.responseMatch | throw (noResponseId compiled.mutationName)
  let settings ← loadSettings env
  (schema.compileQuery settings.minDepth i.authenticated (some constraint) node).mapError
    Failure.message

/-- The report on the mutation of an invocation. -/
def runMutation (i : Invocation) (files : Files) (env : Environment) :
    Except String Json.Value := do
  let schema ← loadSchema files i.schemaFile
  let request ← loadRequest files MutationRequest.ofText? i.requestFile
  let compiled ← (schema.compileMutation request).mapError Failure.message
  match i.responseFile with
  | none => return compiled.report none
  | some name =>
      let response ← runResponse i files env schema compiled name
      return compiled.report (some response)

/-- The report on an invocation, or the message about its failure. -/
def Invocation.run (i : Invocation) (files : Files) (env : Environment) :
    Except String Json.Value :=
  match i.command with
  | .query => runQuery i files env
  | .mutation => runMutation i files env

/-- What a run of the program prints. -/
inductive Outcome where
  /-- A text on the standard output. -/
  | printed (text : String)
  /-- A message about a failure. -/
  | failed (message : String)
  /-- A remark on how the program is used. -/
  | misused
deriving DecidableEq

/-- The name and the version of the program. -/
def versionText : String := "viewql 0.1.0\n"

/-- How the program is used. -/
def usageText : String :=
  "Usage: viewql query [-s|--schema FILE] [-a|--authenticated] REQUEST\n" ++
  "       viewql mutation [-s|--schema FILE] [-a|--authenticated] [-r|--response FILE] REQUEST\n"

/-- What the program prints for its arguments. -/
def run (args : List String) (files : Files) (env : Environment) : Outcome :=
  match Request.ofArgs args with
  | .version => .printed versionText
  | .help => .printed usageText
  | .misuse => .misused
  | .run invocation =>
      match invocation.run files env with
      | .ok report => .printed (report.indented ++ "\n")
      | .error message => .failed message

/-- The files that a run of the program may read. -/
def filesNeeded (args : List String) : List String :=
  match Request.ofArgs args with
  | .run i => [i.schemaFile, i.requestFile] ++ i.responseFile.toList
  | _ => []

end CommandLine

end ViewCompiler
