/-
RunControl/Cli/Arguments.lean

Reading the command line.  A word is the value that the parameter before it
waits for, or the name of a command, or a parameter.  A value that was written
as a word of its own is looked at when the next parameter of the same command
comes, or at the end; one that was written behind an equals sign is looked at
once.  So a request for help is heard unless a fault is found before it.

A value of a shared parameter that stands at an inner command counts before one
at an outer command, and both count before the environment.
-/
import RunControl.Cli.Grammar

namespace RunControl.Cli

/-- Why the command line is not carried out. -/
inductive Halt where
  /-- Help about a command is asked for. -/
  | help (about : Grammar)
  /-- The version of the program is asked for. -/
  | version
  /-- The command line is not well formed. -/
  | misuse
  deriving Inhabited

/-! ### One command -/

/-- What has been read of one command. -/
structure Level where
  grammar : Grammar
  /-- The parameters and their values, in order. -/
  given : List (Parameter × String) := []
  /-- The parameter whose value comes next. -/
  awaiting : Option Parameter := none
  /-- A parameter whose value has not been looked at. -/
  pending : Option (Parameter × String) := none
  deriving Inhabited

namespace Level

/-- Whether a parameter has been given. -/
def has (l : Level) (p : Parameter) : Bool :=
  l.given.any fun g => g.1 = p

/-- Looks at the value of a parameter. -/
def accept (l : Level) (p : Parameter) (value : String) : Except Halt Level :=
  if p.shape.admits value && (p.arity = .many || !l.has p) then
    .ok { l with given := l.given ++ [(p, value)] }
  else .error .misuse

/-- Looks at the value that has not been looked at. -/
def settle (l : Level) : Except Halt Level :=
  match l.pending with
  | some (p, value) => { l with pending := none }.accept p value
  | none => .ok l

/-- Reads a parameter, with the value behind its equals sign if there is one. -/
def parameter (l : Level) (name : String) (value : Option String) : Except Halt Level :=
  match l.grammar.parameter? name with
  | none => .error .misuse
  | some p =>
    match p.arity, value with
    | .switch, none => l.accept p ""
    | .switch, some _ => .error .misuse
    | _, some value => l.accept p value
    | _, none => .ok { l with awaiting := some p }

/-- Reads a name after two hyphens. Only the outermost command tells its
version. -/
def long (l : Level) (isOutermost : Bool) (name : String) (value : Option String) :
    Except Halt Level := do
  let l ← l.settle
  if name = "help" ∧ value = none then throw (.help l.grammar)
  if isOutermost ∧ name = "version" ∧ value = none then throw .version
  l.parameter name value

/-- Reads the letters after one hyphen; the first one decides. -/
def short (l : Level) (isOutermost : Bool) (letter : Char) : Except Halt Level := do
  let l ← l.settle
  if letter = 'h' then throw (.help l.grammar)
  if isOutermost ∧ letter = 'V' then throw .version
  throw .misuse

/-- Reads a word that is no value and no command. -/
def word (l : Level) (isOutermost : Bool) (s : String) : Except Halt Level :=
  match s.toList with
  | '-' :: '-' :: cs =>
    let name := String.ofList (cs.takeWhile (· != '='))
    let value :=
      match cs.dropWhile (· != '=') with
      | _ :: v => some (String.ofList v)
      | [] => none
    l.long isOutermost name value
  | '-' :: c :: _ => l.short isOutermost c
  | _ => .error .misuse

/-- The value that the environment has for a parameter which was not given. -/
def inherited? (l : Level) (environment : String → Option String) (p : Parameter) :
    Option String :=
  if l.has p then none else p.environment.bind environment

/-- Looks at what is left at the end of the command line, and at the environment. -/
def close (l : Level) (environment : String → Option String) : Except Halt Level := do
  if l.awaiting.isSome then throw .misuse
  let l ← l.settle
  let isSound (p : Parameter) : Bool := (l.inherited? environment p).all p.shape.admits
  if Parameter.shared.all isSound then pure l else throw .misuse

end Level

/-! ### The command line -/

/-- What has been read of the command line. -/
structure Reading where
  /-- The outer commands, the innermost of them first. -/
  above : List Level := []
  /-- The command that is being read. -/
  here : Level
  /-- After two hyphens alone no parameter and no command may follow. -/
  isEnded : Bool := false
  deriving Inhabited

namespace Reading

/-- Goes on with an inner command. -/
def enter (r : Reading) (g : Grammar) : Reading :=
  { r with above := r.here :: r.above, here := { grammar := g } }

/-- Takes a word as the value of the parameter that waits for it. -/
def value (r : Reading) (p : Parameter) (s : String) : Reading :=
  { r with here := { r.here with awaiting := none, pending := some (p, s) } }

/-- Whether a word starts like a parameter; a single hyphen does not. -/
def isHyphenated (s : String) : Bool :=
  s.toList.head? = some '-' && s != "-"

/-- Reads the words of the command line. -/
def read (r : Reading) : List String → Except Halt Reading
  | [] => .ok r
  | s :: rest =>
    match r.here.awaiting with
    | some p => if isHyphenated s then .error .misuse else (r.value p s).read rest
    | none =>
      if r.isEnded then .error .misuse
      else
        match r.here.grammar.command? s with
        | some g => (r.enter g).read rest
        | none =>
          if s = "help" && !r.here.grammar.commands.isEmpty then
            match r.here.grammar.explained? rest with
            | some g => .error (.help g)
            | none => .error .misuse
          else if s = "--" then { r with isEnded := true }.read rest
          else
            match r.here.word r.above.isEmpty s with
            | .ok here => { r with here }.read rest
            | .error halt => .error halt

end Reading

/-- The command line, read. -/
structure Arguments where
  /-- The names of the commands, from the outside in. -/
  path : List String
  /-- The parameters and their values, those that count first coming first. -/
  given : List (Parameter × String)
  deriving Inhabited

namespace Arguments

/-- Reads the command line. -/
def read (g : Grammar) (environment : String → Option String) (words : List String) :
    Except Halt Arguments := do
  let r ← Reading.read { here := { grammar := g } } words
  let levels ← (r.here :: r.above).mapM (·.close environment)
  let inherited := Parameter.shared.filterMap fun p =>
    (p.environment.bind environment).map fun v => (p, v)
  pure
    { path := (levels.map (·.grammar.name)).reverse.tail
      given := levels.flatMap (·.given) ++ inherited }

/-- The value of a parameter. -/
def value? (a : Arguments) (name : String) : Option String :=
  (a.given.find? fun g => g.1.name == name).map (·.2)

/-- All values of a parameter, in order. -/
def values (a : Arguments) (name : String) : List String :=
  (a.given.filter fun g => g.1.name == name).map (·.2)

/-- Whether a switch was given. -/
def has (a : Arguments) (name : String) : Bool :=
  (a.value? name).isSome

end Arguments

end RunControl.Cli
