/-
RunControl/Cli/Program.lean

The program from its start to its end.  It reads the command line and the
settings, checks how much is to be logged, and then either ends at once or goes
on as a session with the backend (`Program.begin`).

Exit codes: 0 for success, 1 for a failure, whose message is one line, 2 for a
command line that is not well formed, and 101 when standard output refuses a line.
-/
import RunControl.Cli.Completion
import RunControl.Cli.LogFilter
import RunControl.Cli.Session
import RunControl.Paths
import RunControl.Settings

namespace RunControl.Cli

/-- What the program finds when it is started. -/
structure Surroundings where
  arguments : List String
  /-- The environment. -/
  environment : String → Option String
  /-- The home directory, if it is known. -/
  home : Option String
  /-- The files. -/
  file : String → Settings.File
  output : Output := .taken

/-- How the program ended, and what it printed. -/
structure Outcome where
  exit : Nat
  /-- The lines on standard output. -/
  printed : List String := []
  /-- The lines among the messages. -/
  messages : List String := []
  /-- The requests that were sent. -/
  requests : List Http.Request := []
  deriving Inhabited

namespace Outcome

/-- The end after a failure. -/
def failure (message : String) : Outcome where
  exit := 1
  messages := [message]

/-- The end when a line was refused. -/
def refusal (reason : String) : Outcome where
  exit := 101
  messages := ["failed printing to stdout: " ++ reason]

/-- The end after some lines, none of which may be refused. -/
def lines (output : Output) (lines : List String) : Outcome :=
  match output.refusal? with
  | none => { exit := 0, printed := lines }
  | some reason => refusal reason

/-- The end of a command line that is not carried out. Whether the lines are
taken does not matter. -/
def ofHalt (output : Output) : Halt → Outcome
  | .help about => { lines output about.summary with exit := 0, messages := [] }
  | .version => { lines output ["trs " ++ programVersion] with exit := 0, messages := [] }
  | .misuse => { exit := 2, messages := ["error: the command line is not well formed"] }

/-- The end after a completion script, which may be refused if nobody reads it. -/
def ofScript (output : Output) (shell : Shell) : Outcome :=
  match output with
  | .taken => { exit := 0, printed := [shell.script] }
  | .closed => { exit := 0 }
  | .full =>
    failure ("write completion script to stdout: " ++ (output.refusal?.getD ""))

end Outcome

/-- The end of a session, if it has ended. -/
def Session.outcome? (s : Session) : Option Outcome :=
  let sofar : Outcome :=
    { exit := 0
      printed := s.printed.reverse
      messages := s.warned.reverse
      requests := s.requests.reverse }
  let failed (o : Outcome) : Outcome :=
    { sofar with exit := o.exit, messages := sofar.messages ++ o.messages }
  match s.activity with
  | .over .completed => some sofar
  | .over (.failed message) => some (failed (.failure message))
  | .over (.refused reason) => some (failed (.refusal reason))
  | _ => none

/-- The program once it has been started. -/
inductive Program where
  | ended (outcome : Outcome)
  | session (s : Session)

namespace Program

/-- Where the program keeps its files. -/
def paths (w : Surroundings) (i : Invocation) : Except String Paths :=
  match w.home with
  | none => .error "could not determine home directory"
  | some home =>
    .ok (Paths.of
      { home
        configHome := w.environment "XDG_CONFIG_HOME"
        programDir := i.programDir
        configFile := i.configFile })

/-- The message about what is wrong with the settings in a file. -/
def settingsMessage (file : String) (e : SettingsError) : String :=
  match e.cause? with
  | some cause => e.text file ++ ": " ++ cause
  | none => e.text file

/-- The settings that count, or the message about what is wrong with them. -/
def settings (w : Surroundings) (i : Invocation) : Except String Settings := do
  let file := (← paths w i).configFile
  let settings ← (Settings.load (w.file file)).mapError (settingsMessage file)
  (settings.withOverrides i.apiUrl i.interval).mapError (settingsMessage file)

/-- How much is logged: as the command line says, or else the settings, or else
the environment. -/
def logLevel (w : Surroundings) (i : Invocation) (settings : Settings) : String :=
  (i.logLevel <|> settings.logLevel <|> w.environment "TRS_LOG" <|>
    w.environment "RUST_LOG").getD "info"

/-- What the command of an order does first. -/
def activity : Order → Activity
  | .status => .talking showStatus
  | .watch => .watching 0 {}
  | .start address firmware => .talking (start address firmware)
  | .stop => .talking stop
  | .devices => .talking showDevices
  | .addDevice device => .talking (addDevice device)
  | .editDevice address change => .talking (editDevice address change)
  | .deleteDevice address => .talking (deleteDevice address)
  | .profiles => .talking showProfiles
  | .interfaces => .talking showInterfaces
  | .config => .talking showConfig
  | .version _ => .talking showVersions
  | .completion _ => .over .completed

/-- The store at the start of an order: a watch begins with the first fetch. -/
def store (interval : Nat) (order : Order) : Store :=
  let store : Store := { interval }
  if order = .watch then store.send .fetchStatus else store

/-- The session of an order. -/
def ofOrder (w : Surroundings) (settings : Settings) (order : Order) : Except String Session := do
  let client ← Client.of? settings.effectiveUrl
  let polling := settings.effectivePolling
  pure
    { client
      timeout := polling.effectiveTimeout
      store := store polling.effectiveInterval order
      output := w.output
      activity := activity order }

/-- The program with well-formed arguments. -/
def ofInvocation (w : Surroundings) (i : Invocation) : Except String Program := do
  let settings ← settings w i
  LogFilter.check (logLevel w i settings)
  match i.order with
  | .version false => pure (.ended (.lines w.output [programVersion]))
  | .completion shell => pure (.ended (.ofScript w.output shell))
  | order => pure (.session (← ofOrder w settings order))

/-- The file with the settings, if the command line is well formed. -/
def settingsFile? (w : Surroundings) : Option String :=
  match Invocation.read w.environment w.arguments with
  | .ok i => (paths w i).toOption.map (·.configFile)
  | .error _ => none

/-- Starts the program. -/
def begin (w : Surroundings) : Program :=
  match Invocation.read w.environment w.arguments with
  | .error halt => .ended (.ofHalt w.output halt)
  | .ok i =>
    match ofInvocation w i with
    | .ok program => program
    | .error message => .ended (.failure message)

/-- Runs the program in front of a backend, if it ends within so many turns. -/
def run? (w : Surroundings) (backend : Session.Backend) (interruptAfter : Option Nat)
    (turns : Nat) : Option Outcome :=
  match begin w with
  | .ended outcome => some outcome
  | .session s => (s.run backend interruptAfter turns).outcome?

end Program

end RunControl.Cli
