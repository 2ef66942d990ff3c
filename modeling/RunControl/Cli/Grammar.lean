/-
RunControl/Cli/Grammar.lean

What may stand on the command line.  A command takes parameters and may have
commands of its own; `Grammar.program` is the tree of all commands.  The
parameters in `Parameter.shared` may stand at any command, and an environment
variable can stand in for each of them.
-/
import RunControl.Text.Ascii

namespace RunControl.Cli

/-! ### Parameters -/

/-- What comes with a parameter, and how often it may be given. -/
inductive Arity where
  /-- No value; once at most. -/
  | switch
  /-- One value; once at most. -/
  | single
  /-- One value each time; any number of times. -/
  | many
  deriving DecidableEq, Inhabited

/-- What a value has to look like. -/
inductive Shape where
  | text
  /-- A text that is not empty. -/
  | path
  /-- A natural number of 64 bits. -/
  | natural
  deriving DecidableEq, Inhabited

/-- The natural number of 64 bits that a text stands for; a plus sign may come
first. -/
def natural? (s : String) : Option Nat :=
  let digits :=
    match s.toList with
    | '+' :: cs => cs
    | cs => cs
  let n := Text.ofDigits digits
  if digits.isEmpty || !digits.all Char.isDigit || Nat.pow 2 64 ≤ n then none else some n

/-- Whether a value has a shape. -/
def Shape.admits : Shape → String → Bool
  | text, _ => true
  | path, s => !s.isEmpty
  | natural, s => (natural? s).isSome

/-- A parameter, which is written with two hyphens before its name. -/
structure Parameter where
  name : String
  arity : Arity := .single
  shape : Shape := .text
  /-- The environment variable that stands in for it. -/
  environment : Option String := none
  deriving DecidableEq, Inhabited

/-- The parameters that may stand at any command. -/
def Parameter.shared : List Parameter :=
  [{ name := "api-url", environment := some "TRS_API_URL" },
    { name := "config", shape := .path, environment := some "TRS_CONFIG" },
    { name := "trs-dir", shape := .path, environment := some "TRS_DIR" },
    { name := "log-level", environment := some "TRS_LOG" },
    { name := "poll-interval-ms", shape := .natural, environment := some "TRS_POLL_INTERVAL_MS" }]

/-! ### Commands -/

/-- A command with its parameters and its own commands. -/
inductive Grammar where
  | command (name : String) (parameters : List Parameter) (commands : List Grammar)
  deriving Inhabited

namespace Grammar

/-- The name of a command. -/
def name : Grammar → String
  | command name _ _ => name

/-- The parameters that a command takes besides the shared ones. -/
def parameters : Grammar → List Parameter
  | command _ parameters _ => parameters

/-- The commands of a command. -/
def commands : Grammar → List Grammar
  | command _ _ commands => commands

/-- A command that takes parameters and has no commands of its own. -/
def leaf (name : String) (parameters : List Parameter) : Grammar :=
  command name parameters []

/-- A command by its name. -/
def command? (g : Grammar) (name : String) : Option Grammar :=
  g.commands.find? fun h => h.name == name

/-- A parameter by its name. -/
def parameter? (g : Grammar) (name : String) : Option Parameter :=
  (Parameter.shared ++ g.parameters).find? fun p => p.name == name

/-- The command that a list of names leads to. -/
def descend? : Grammar → List String → Option Grammar
  | g, [] => some g
  | g, name :: names =>
    match g.command? name with
    | some h => h.descend? names
    | none => none

/-- The command that is explained when help about `names` is asked for. The word
for help itself may be asked about too. -/
def explained? (g : Grammar) (names : List String) : Option Grammar :=
  if names = ["help"] then some g else g.descend? names

/-- What may be written after a command. -/
def summary (g : Grammar) : List String :=
  let value (p : Parameter) : String :=
    match p.arity with
    | .switch => ""
    | .single => " <VALUE>"
    | .many => " <VALUE>..."
  let options := (g.parameters ++ Parameter.shared).map fun p => "  --" ++ p.name ++ value p
  let commands := g.commands.map fun h => "  " ++ h.name
  ["Usage: " ++ g.name ++ (if commands.isEmpty then " [OPTIONS]" else " [OPTIONS] <COMMAND>")] ++
    (if commands.isEmpty then [] else "" :: "Commands:" :: commands) ++
    "" :: "Options:" :: options

/-- All commands. -/
def program : Grammar :=
  let mac : Parameter := { name := "mac" }
  let manufacturer : Parameter := { name := "manufacturer" }
  let model : Parameter := { name := "model" }
  command "trs" []
    [leaf "status" [],
      leaf "watch" [],
      leaf "start" [mac, { name := "firmware" }],
      leaf "stop" [],
      leaf "devices" [],
      command "device" []
        [leaf "add" [mac, manufacturer, model, { name := "module", arity := .many }],
          leaf "edit" [mac, { name := "new-mac" }, manufacturer, model,
            { name := "enable", arity := .many }, { name := "disable", arity := .many }],
          leaf "delete" [mac]],
      leaf "profiles" [],
      leaf "interfaces" [],
      leaf "config" [],
      leaf "version" [{ name := "remote", arity := .switch }],
      command "completion" []
        [leaf "bash" [], leaf "fish" [], leaf "powershell" [], leaf "zsh" []]]

end Grammar

end RunControl.Cli
