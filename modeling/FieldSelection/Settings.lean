import FieldSelection.Files
import FieldSelection.Projection
import FieldSelection.Record
import FieldSelection.Text.Digits
import FieldSelection.Toml.Document

/-!
Settings: defaults for compilations and projections.

Every part of the settings may be absent, and unknown parts are ignored. The
default selection must not be blank.

* `Settings.parse`: the settings that a TOML text denotes.
* `Settings.load`: the settings found in the places for them.
-/

namespace FieldSelection

/-- Defaults for compilations and projections. -/
structure Settings where
  compiler : CompileOptions := {}
  /-- Whether projections are flat. -/
  flatten : Bool := false
  deriving DecidableEq, Repr

/-- Why settings cannot be used. -/
inductive SettingsError where
  /-- The file is not there. -/
  | fileNotFound (path : String)
  /-- The file cannot be read, for the reason given. -/
  | unreadable (reason : String)
  /-- The text is malformed or does not fit. -/
  | malformed
  /-- The default selection is blank. -/
  | blankDefaultFields
  deriving DecidableEq, Repr

/-- The message of an error. -/
def SettingsError.message : SettingsError → String
  | .fileNotFound path => "Config file not found: " ++ path
  | .unreadable reason => "Failed to read config file: " ++ reason
  | .malformed => "Failed to parse config file: not a TOML document of settings"
  | .blankDefaultFields => "Invalid configuration: compiler.default_fields must not be empty"

namespace Settings

/-- The mode of projections. -/
def mode (settings : Settings) : ProjectionMode :=
  .ofFlatten settings.flatten

/-! ### Reading -/

/-- A truth value, or a default where it is absent. -/
def readBool (default : Bool) : Option Json → Option Bool
  | none => some default
  | some (.bool b) => some b
  | some _ => none

/-- A number of 64 bits, or a default where it is absent. -/
def readNat (default : Nat) : Option Json → Option Nat
  | none => some default
  | some (.number (.int n)) =>
    if 0 ≤ n ∧ n.toNat ≤ Text.largest64 then some n.toNat else none
  | some _ => none

/-- A string, or a default where it is absent. -/
def readString (default : String) : Option Json → Option String
  | none => some default
  | some (.string s) => some s
  | some _ => none

/-- The section for compilations. -/
def readCompiler : Option Json → Option CompileOptions
  | none => some {}
  | some section' =>
    match Convention.toml.fields? ["include_keys", "max_depth", "default_fields"] section' with
    | some [includeKeys, maxDepth, defaultFields] => do
      let default : CompileOptions := {}
      some
        { includeKeys := ← readBool default.includeKeys includeKeys
          maxDepth := ← readNat default.maxDepth maxDepth
          defaultFields := ← readString default.defaultFields defaultFields }
    | _ => none

/-- The section for projections. -/
def readProjector : Option Json → Option Bool
  | none => some false
  | some section' =>
    match Convention.toml.fields? ["flatten"] section' with
    | some [flatten] => readBool false flatten
    | _ => none

/-- The settings that a value denotes. -/
def read? (value : Json) : Option Settings :=
  match Convention.toml.fields? ["compiler", "projector"] value with
  | some [compiler, projector] => do
    some { compiler := ← readCompiler compiler, flatten := ← readProjector projector }
  | _ => none

/-- The settings, unless their default selection is blank. -/
def validate (settings : Settings) : Except SettingsError Settings :=
  if Text.trim settings.compiler.defaultFields.toList = [] then .error .blankDefaultFields
  else .ok settings

/-- The settings that a TOML text denotes. -/
def parse (text : String) : Except SettingsError Settings :=
  match (Toml.parse text).bind read? with
  | some settings => settings.validate
  | none => .error .malformed

/-! ### Places -/

/-- The settings in a file. -/
def ofFile (find : String → Lookup) (path : String) : Except SettingsError Settings :=
  if (find path).exists? then
    match (find path).read with
    | .ok text => parse text
    | .error reason => .error (.unreadable reason)
  else .error (.fileNotFound path)

/-- The settings in the file that was chosen, or else in the first of the places
where there is one. Without either the defaults hold. -/
def load (find : String → Lookup) (chosen : Option String) (places : List String) :
    Except SettingsError Settings :=
  match chosen with
  | some path => ofFile find path
  | none =>
    match places.find? fun path => (find path).exists? with
    | some path => ofFile find path
    | none => .ok {}

end Settings

end FieldSelection
