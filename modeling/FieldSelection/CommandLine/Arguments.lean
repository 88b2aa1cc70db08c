import FieldSelection.Text.Digits

/-!
The arguments of the command line.

A command is followed by its options. Long options start with two dashes and take
their value after an equals sign or from the next argument; short ones start with
one dash and may be clustered, the value of the last one attached to it or in the
next argument. An argument that starts with a dash is no value, unless it is a
dash and nothing else. Only parameters may be given more than once.

* `Arguments`: a command with its options.
* `Arguments.parse`: the command that arguments denote, or why there is none.
-/

namespace FieldSelection

namespace CommandLine

/-! ### Options -/

/-- The options of the command line. -/
inductive Flag where
  | config
  | shape
  | schema
  | model
  | fields
  | order
  | param
  | keys
  | maxDepth
  | data
  | flatten
  | version
  | help
  deriving DecidableEq, Repr

/-- The commands. -/
inductive Verb where
  | compile
  | project
  | check
  deriving DecidableEq, Repr

/-- The word for a command. -/
def Verb.ofWord? : String → Option Verb
  | "compile" => some .compile
  | "project" => some .project
  | "check" => some .check
  | _ => none

/-- Whether an option takes a value. -/
def Flag.takesValue : Flag → Bool
  | .keys | .flatten | .version | .help => false
  | _ => true

/-- Whether an option is known before a command (`none`) or after one. -/
def Flag.isKnown (verb : Option Verb) : Flag → Bool
  | .config | .help => true
  | .version => verb.isNone
  | .data | .flatten => verb = some .project
  | _ => verb.isSome

/-- The option with a long name. -/
def Flag.ofLong? : String → Option Flag
  | "config" => some .config
  | "shape" => some .shape
  | "schema" => some .schema
  | "model" => some .model
  | "fields" => some .fields
  | "order" => some .order
  | "param" => some .param
  | "keys" => some .keys
  | "max-depth" => some .maxDepth
  | "data" => some .data
  | "flatten" => some .flatten
  | "version" => some .version
  | "help" => some .help
  | _ => none

/-- The option with a short name. -/
def Flag.ofShort? : Char → Option Flag
  | 's' => some .shape
  | 'm' => some .model
  | 'f' => some .fields
  | 'o' => some .order
  | 'p' => some .param
  | 'k' => some .keys
  | 'd' => some .data
  | 'V' => some .version
  | 'h' => some .help
  | _ => none

/-! ### Values -/

/-- Why there is nothing to run. -/
inductive Stop where
  /-- The version was asked for. -/
  | version
  /-- Help was asked for. -/
  | help
  /-- A parameter is not of the form `KEY=VALUE`. -/
  | badParam (text : String)
  /-- The arguments do not fit for another reason. -/
  | misuse
  deriving DecidableEq, Repr

/-- The key and the value of a parameter; the first equals sign separates them, and
the key is not empty. -/
def splitParam (text : String) : Option (String × String) :=
  let chars := text.toList
  let key := chars.takeWhile (· ≠ '=')
  match chars.dropWhile (· ≠ '=') with
  | _ :: value => if key = [] then none else some (.ofList key, .ofList value)
  | [] => none

/-- Check the value of an option: paths are not empty, a parameter has a key, and
the nesting limit is a number of 64 bits. -/
def Flag.check (flag : Flag) (value : String) : Except Stop Unit :=
  match flag with
  | .config | .shape | .schema | .data => if value = "" then .error .misuse else .ok ()
  | .param => if (splitParam value).isSome then .ok () else .error (.badParam value)
  | .maxDepth =>
    if (Text.readBounded value.toList).isSome then .ok () else .error .misuse
  | _ => .ok ()

/-! ### Reading options -/

/-- An option that was read but not taken yet. -/
inductive Pending where
  | nothing
  /-- The option still needs a value. -/
  | awaiting (flag : Flag)
  /-- The option has its value. -/
  | complete (flag : Flag) (value : String)

/-- The options of one level: the ones taken so far in order, and the last one if
it waits. -/
structure Options where
  taken : List (Flag × String) := []
  pending : Pending := .nothing

namespace Options

/-- The value of an option. -/
def value? (options : Options) (flag : Flag) : Option String :=
  (options.taken.find? (·.1 = flag)).map (·.2)

/-- Whether an option was given. -/
def has (options : Options) (flag : Flag) : Bool :=
  (options.value? flag).isSome

/-- Take an option with its value. -/
def take (options : Options) (flag : Flag) (value : String) : Except Stop Options :=
  match flag with
  | .version => .error .version
  | .help => .error .help
  | _ =>
    if flag ≠ .param ∧ options.has flag then .error .misuse
    else do
      flag.check value
      .ok { options with taken := options.taken ++ [(flag, value)] }

/-- Take the option that waits. -/
def settle (options : Options) : Except Stop Options :=
  match options.pending with
  | .nothing => .ok options
  | .awaiting _ => .error .misuse
  | .complete flag value => Options.take { options with pending := .nothing } flag value

/-- Read an option with the value attached to it, if there is one. -/
def read (options : Options) (flag : Flag) (attached : Option String) :
    Except Stop Options :=
  match attached with
  | some value =>
    if flag.takesValue then do (← options.settle).take flag value else .error .misuse
  | none => do
    let options ← options.settle
    if flag.takesValue then .ok { options with pending := .awaiting flag }
    else options.take flag ""

/-- Read a cluster of short options. -/
def readCluster (verb : Option Verb) : Options → List Char → Except Stop Options
  | options, [] => .ok options
  | options, c :: rest =>
    match (Flag.ofShort? c).filter (·.isKnown verb) with
    | none => .error .misuse
    | some flag =>
      if flag.takesValue then
        match rest with
        | [] => options.read flag none
        | '=' :: value => options.read flag (some (.ofList value))
        | value => options.read flag (some (.ofList value))
      else do readCluster verb (← options.read flag none) rest

/-- Read a long option, whose two dashes are left out. -/
def readLong (verb : Option Verb) (options : Options) (text : List Char) :
    Except Stop Options :=
  let name := text.takeWhile (· ≠ '=')
  let attached :=
    match text.dropWhile (· ≠ '=') with
    | _ :: value => some (String.ofList value)
    | [] => none
  match (Flag.ofLong? (.ofList name)).filter (·.isKnown verb) with
  | none => .error .misuse
  | some flag => options.read flag attached

/-- Read a value for the option that waits for one. -/
def readValue (options : Options) (value : String) : Except Stop Options :=
  match options.pending with
  | .awaiting flag => .ok { options with pending := .complete flag value }
  | _ => .error .misuse

/-- Whether an option waits for a value. -/
def isAwaiting (options : Options) : Bool :=
  match options.pending with
  | .awaiting _ => true
  | _ => false

/-- Whether there is help on some words: on none, on one command, and on asking for
help. -/
def isHelpTopic : List String → Bool
  | [] => true
  | [word] => word = "help" || (Verb.ofWord? word).isSome
  | _ => false

/-- Read the arguments of one level. Before a command, they end with the command,
which is returned with the arguments after it. -/
def readAll (verb : Option Verb) :
    Options → List String → Except Stop (Options × Option (Verb × List String))
  | options, [] => .ok (options, none)
  | options, argument :: rest =>
    let next :=
      if verb.isNone && !options.isAwaiting then Verb.ofWord? argument else none
    match next with
    | some verb => .ok (options, some (verb, rest))
    | none =>
      match argument.toList with
      | ['-', '-'] => if rest = [] then .ok (options, none) else .error .misuse
      | '-' :: '-' :: text => do readAll verb (← options.readLong verb text) rest
      | '-' :: c :: text => do readAll verb (← options.readCluster verb (c :: text)) rest
      | _ =>
        if verb.isNone && !options.isAwaiting && argument = "help" then
          .error (if isHelpTopic rest then .help else .misuse)
        else do readAll verb (← options.readValue argument) rest

end Options

/-! ### Commands -/

/-- A command with its options. -/
structure Arguments where
  verb : Verb
  /-- The file with the settings. -/
  config : Option String := none
  /-- The file with the shape. -/
  shape : String
  /-- The file with the schema and the model of the root. -/
  schema : Option (String × String) := none
  /-- The file with the data. -/
  data : String := ""
  fields : Option String := none
  order : Option String := none
  params : List (String × String) := []
  keys : Bool := false
  maxDepth : Option Nat := none
  flatten : Bool := false
  deriving DecidableEq, Repr

/-- A required value. -/
def required (value : Option α) : Except Stop α :=
  match value with
  | some a => .ok a
  | none => .error .misuse

/-- The command that options denote: the ones before the command, and the ones
after it. -/
def Arguments.ofOptions (verb : Verb) (before after : Options) : Except Stop Arguments := do
  let shape ← required (after.value? .shape)
  let data ←
    if verb = .project then required (after.value? .data) else .ok ""
  let model := after.value? .model
  let schema ←
    match after.value? .schema with
    | none => .ok none
    | some path => do .ok (some (path, ← required model))
  .ok
    { verb, shape, data, schema
      config := (after.value? .config).or (before.value? .config)
      fields := after.value? .fields
      order := after.value? .order
      params := after.taken.filterMap fun (flag, value) =>
        if flag = .param then splitParam value else none
      keys := after.has .keys
      maxDepth := (after.value? .maxDepth).bind fun text => Text.readBounded text.toList
      flatten := after.has .flatten }

/-- The command that arguments denote. -/
def Arguments.parse (arguments : List String) : Except Stop Arguments := do
  let (before, command) ← Options.readAll none {} arguments
  match command with
  | none => do
    let _ ← before.settle
    .error .misuse
  | some (verb, rest) => do
    let (after, _) ← Options.readAll (some verb) {} rest
    let after ← after.settle
    let arguments ← Arguments.ofOptions verb {} after
    let before ← before.settle
    .ok { arguments with config := arguments.config.or (before.value? .config) }

end CommandLine

end FieldSelection
