import FieldSelection.CommandLine.Arguments
import FieldSelection.Descriptor.Layout
import FieldSelection.Schema.Document
import FieldSelection.Settings
import FieldSelection.Shape.Reader

/-!
Running a command.

A command loads its settings, the shape and the schema, compiles the selection and
reports: `compile` prints the descriptor, `project` prints projected data, and
`check` prints what was noticed. Warnings go to the error output, except for
`check`, which fails if there are any.

* `CommandLine.run`: what a command writes, and how it ends.
* `CommandError`: why a command cannot do its work.
-/

namespace FieldSelection

namespace CommandLine

/-- What a command finds around it. -/
structure Surroundings where
  /-- The files. -/
  find : String → Lookup
  /-- The file with the settings that the environment chooses. -/
  chosenConfig : Option String
  /-- Where settings are looked for otherwise. -/
  configPlaces : List String

/-- What a command writes, and how it ends. -/
structure Outcome where
  exitCode : Nat
  output : String
  errorOutput : String
  deriving DecidableEq, Repr

/-- Why a command cannot do its work. -/
inductive CommandError where
  | unreadable (path reason : String)
  | shape (error : ShapeError)
  | schema (error : SchemaError)
  | settings (error : SettingsError)
  /-- The data is no JSON text. -/
  | data
  deriving DecidableEq, Repr

/-- The message of an error. -/
def CommandError.message : CommandError → String
  | .unreadable path reason => "Error reading file '" ++ path ++ "': " ++ reason
  | .shape error => "Invalid shape: " ++ error.message
  | .schema error => "Invalid schema: " ++ error.message
  | .settings error => "Invalid configuration: " ++ error.message
  | .data => "Invalid data JSON: not a JSON text"

/-- Lines of text, each one ended. -/
def lines (texts : List String) : String :=
  String.join (texts.map (· ++ "\n"))

/-! ### Loading -/

/-- The text of a file. -/
def Surroundings.readFile (surroundings : Surroundings) (path : String) :
    Except CommandError String :=
  (surroundings.find path).read.mapError (.unreadable path)

/-- The settings of a command. -/
def Surroundings.settings (surroundings : Surroundings) (config : Option String) :
    Except CommandError Settings :=
  (match config with
    | some path => Settings.ofFile surroundings.find path
    | none =>
      Settings.load surroundings.find surroundings.chosenConfig
        surroundings.configPlaces).mapError .settings

/-- The query that the options of a command denote. -/
def Arguments.query (arguments : Arguments) : Query :=
  let query := Query.ofPairs arguments.params
  { query with
    fields := arguments.fields.or query.fields
    order := arguments.order.or query.order }

/-- The options of the compilation: those of the settings, and over them those of
the command. -/
def Arguments.compileOptions (arguments : Arguments) (settings : Settings) : CompileOptions :=
  { settings.compiler with
    includeKeys := arguments.keys || settings.compiler.includeKeys
    maxDepth := arguments.maxDepth.getD settings.compiler.maxDepth }

/-- What a command works with. -/
structure Prepared where
  shape : Node
  compiler : Compiler
  query : Query

/-- Load the shape and the schema of a command. -/
def prepare (surroundings : Surroundings) (arguments : Arguments) (settings : Settings) :
    Except CommandError Prepared := do
  let text ← surroundings.readFile arguments.shape
  let shape ← (Node.parse text).mapError .shape
  let schema ←
    match arguments.schema with
    | none => .ok none
    | some (path, model) => do
      let registry ← (Registry.ofFile surroundings.find path).mapError CommandError.schema
      let view ← (registry.require model).mapError .schema
      .ok (some view)
  .ok
    { shape
      compiler :=
        { shape := shape.shape?, schema, options := arguments.compileOptions settings }
      query := arguments.query }

/-! ### Reporting -/

/-- The notes of a compilation. -/
def Prepared.notes (prepared : Prepared) : List Note :=
  prepared.compiler.notes prepared.query

/-- The lines of the warnings among the notes. -/
def warningLines (notes : List Note) : List String :=
  (notes.filter (·.severity = .warning)).map Note.display

/-- Print the descriptor. -/
def runCompile (prepared : Prepared) : Outcome :=
  let descriptor := prepared.compiler.compile prepared.query
  ⟨0, lines [descriptor.toJson.pretty], lines (warningLines prepared.notes)⟩

/-- Print projected data, or `null` if nothing is left to show. -/
def runProject (prepared : Prepared) (mode : ProjectionMode) (data : Json) : Outcome :=
  let descriptor := prepared.compiler.compile prepared.query
  let projected := (project data prepared.shape descriptor mode).getD .null
  ⟨0, lines [projected.pretty], lines (warningLines prepared.notes)⟩

/-- Print what was noticed; warnings make the check fail. -/
def runCheck (prepared : Prepared) : Outcome :=
  if prepared.notes.isEmpty then ⟨0, lines ["OK: selection is clean"], ""⟩
  else
    ⟨if (warningLines prepared.notes).isEmpty then 0 else 1,
      lines (prepared.notes.map Note.display), ""⟩

/-- Read the data of a projection. -/
def readData (surroundings : Surroundings) (path : String) : Except CommandError Json := do
  let text ← surroundings.readFile path
  match Json.parse text with
  | some data => .ok data
  | none => .error .data

/-- The mode of a projection: the option for flat output, or else the settings. -/
def Arguments.mode (arguments : Arguments) (settings : Settings) : ProjectionMode :=
  if arguments.flatten then .flat else settings.mode

/-- Run a command, or say why it cannot do its work. -/
def perform (surroundings : Surroundings) (arguments : Arguments) :
    Except CommandError Outcome := do
  let settings ← surroundings.settings arguments.config
  let prepared ← prepare surroundings arguments settings
  match arguments.verb with
  | .compile => .ok (runCompile prepared)
  | .check => .ok (runCheck prepared)
  | .project => do
    let data ← readData surroundings arguments.data
    .ok (runProject prepared (arguments.mode settings) data)

/-- What a command writes, and how it ends. -/
def run (surroundings : Surroundings) (arguments : Arguments) : Outcome :=
  match perform surroundings arguments with
  | .ok outcome => outcome
  | .error error => ⟨1, "", lines [error.message]⟩

/-! ### Without a command -/

/-- The line about the usage of the program. -/
def usage : String :=
  "Usage: sifter [--config <CONFIG>] <compile|project|check> --shape <SHAPE> [OPTIONS]"

/-- What is written where there is nothing to run. -/
def Stop.outcome : Stop → Outcome
  | .version => ⟨0, lines ["sifter 0.1.0"], ""⟩
  | .help => ⟨0, lines [usage], ""⟩
  | .badParam text =>
    ⟨2, "", lines ["error: expected KEY=VALUE, got '" ++ text ++ "'", usage]⟩
  | .misuse => ⟨2, "", lines ["error: the arguments do not fit", usage]⟩

end CommandLine

end FieldSelection
