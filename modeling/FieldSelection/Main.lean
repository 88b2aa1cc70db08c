import FieldSelection.CommandLine.Run

/-!
The command line program: it looks up the files that a command may read, runs the
command on them and writes what comes of it.

* `CommandLine.lookUp`: what is found under a path of the file system.
* `CommandLine.userConfig`: where the settings of a user are kept.
* `CommandLine.surroundings`: what a command finds around it.
-/

namespace FieldSelection

namespace CommandLine

/-! ### Error numbers

A path is looked up before its file is opened. What goes wrong there has a negative number.
-/

/-- The error number of opening a file that may not be read. -/
def opensUnreadable : UInt32 := 13

/-- The error number of reading a directory as a file. -/
def readsDirectory : UInt32 := 21

/-- The error number of a path that is too long. -/
def pathTooLong : UInt32 := -36

/-- The error number of links that lead to each other without end. -/
def endlessLinks : UInt32 := -40

/-! ### Surroundings -/

/-- What is found under a path of the file system. -/
def lookUp (path : String) : IO Lookup := do
  try
    match String.fromUTF8? (← IO.FS.readBinFile path) with
    | some text => return .text text
    | none => return .binary
  catch
    | .inappropriateType _ code _ =>
      return if code = readsDirectory then .directory else .notDirectory
    | .permissionDenied _ code _ =>
      return if code = opensUnreadable then .unreadable else .unreachable
    | .invalidArgument _ code _ =>
      return if code = pathTooLong then .tooLong
        else if code = endlessLinks then .linkLoop
        else .missing
    | _ => return .missing

/-- The directory for the settings of a user: the one that was chosen if its path is absolute, or
else the one in the home directory, if there is any. -/
def userConfig (chosen home : Option String) : Option String :=
  (chosen.filter (·.startsWith '/')).or
    ((home.filter fun directory => !directory.isEmpty).map (· ++ "/.config"))

/-- The files that a command may read, those with settings apart. -/
def Arguments.paths (arguments : Arguments) : List String :=
  arguments.shape :: arguments.data ::
    (arguments.config.toList ++ (arguments.schema.map (·.1)).toList)

/-- What a command finds around it. -/
def surroundings (arguments : Arguments) : IO Surroundings := do
  let chosenConfig ← IO.getEnv "SIFTER_CONFIG"
  let user := userConfig (← IO.getEnv "XDG_CONFIG_HOME") (← IO.getEnv "HOME")
  let configPlaces := "sifter.toml" :: (user.map (· ++ "/sifter/config.toml")).toList
  let paths := arguments.paths ++ chosenConfig.toList ++ configPlaces
  let found ← paths.mapM fun path => return (path, ← lookUp path)
  let find path := (Entries.lookup? path found).getD .missing
  return { find, chosenConfig, configPlaces }

end CommandLine

end FieldSelection

open FieldSelection CommandLine in
/-- Run the command that the arguments denote. -/
def main (arguments : List String) : IO UInt32 := do
  let outcome ←
    match Arguments.parse arguments with
    | .error stop => pure stop.outcome
    | .ok arguments => pure (run (← surroundings arguments) arguments)
  IO.print outcome.output
  IO.eprint outcome.errorOutput
  return outcome.exitCode.toUInt32
