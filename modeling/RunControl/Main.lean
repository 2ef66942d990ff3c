/-
RunControl/Main.lean

The program on the command line.  Everything is decided in `Cli.Program` and
`Cli.Session`; what is left here is to read files and the environment, to print,
and to let time go by.  No network is at hand, so every request stays unanswered.
-/
import RunControl.Cli.Program

namespace RunControl.Cli

/-- The bytes of a file, or why there are none. -/
def readFile (path : String) : IO Settings.File := do
  try
    let bytes ← IO.FS.readBinFile path
    pure (.bytes bytes.toList)
  catch
    | .noFileOrDirectory .. => pure .missing
    | .inappropriateType .. => pure .directory
    | e => pure (.unreadable (toString e))

/-- The values of environment variables that are set. -/
def readEnvironment (names : List String) : IO (List (String × String)) :=
  names.filterMapM fun name => do pure ((← IO.getEnv name).map fun value => (name, value))

/-- The environment variables that matter. -/
def variableNames : List String :=
  ["HOME", "XDG_CONFIG_HOME", "RUST_LOG"] ++ Parameter.shared.filterMap (·.environment)

/-- Prints lines. -/
def printLines (out err : List String) : IO Unit := do
  out.forM IO.println
  err.forM fun line => IO.eprintln line

/-- Runs a session to its end, and prints each line as soon as there is one. -/
partial def drive (s : Session) : IO Session := do
  match s.turn with
  | .moved next =>
    printLines (next.printed.take (next.printed.length - s.printed.length)).reverse
      (next.warned.take (next.warned.length - s.warned.length)).reverse
    drive next
  | .exchange task q => drive (s.receive task q none)
  | .pause ms => do
    IO.sleep ms.toUInt32
    drive s.wake
  | .ended _ | .stuck => pure s

/-- Runs the program and gives its exit code. -/
def runProgram (arguments : List String) : IO UInt32 := do
  let values ← readEnvironment variableNames
  let environment (name : String) : Option String := values.lookup name
  let home := (environment "HOME").filter (!·.isEmpty)
  let surroundings (file : Settings.File) : Surroundings :=
    { arguments, environment, home, file := fun _ => file }
  let file ←
    match Program.settingsFile? (surroundings .missing) with
    | some path => readFile path
    | none => pure .missing
  match Program.begin (surroundings file) with
  | .ended outcome =>
    printLines outcome.printed outcome.messages
    pure outcome.exit.toUInt32
  | .session s =>
    let last ← drive s
    let outcome := last.outcome?.getD default
    printLines [] (outcome.messages.drop last.warned.length)
    pure outcome.exit.toUInt32

end RunControl.Cli

/-- The program. -/
def main (arguments : List String) : IO UInt32 :=
  RunControl.Cli.runProgram arguments
