/-
RunControl/Settings.lean

The settings of the program: where the backend is, how much is logged, and how
often the status is fetched.  They are read from a TOML file, whose keys may be
spelt with hyphens or with underscores; keys that mean nothing here are kept.
The command line and the environment may override parts of them.

Settings that are read or overridden are checked: an address needs a scheme and
a host, and the status is not fetched more often than every `leastInterval`
milliseconds.  An interval or a timeout of 0 stands for the default.
-/
import RunControl.Dict
import RunControl.Text.Blank
import RunControl.Text.Utf8
import RunControl.Toml.Section

namespace RunControl

open Text

/-! ### Settings -/

/-- How often the status is fetched and how long an answer is awaited, in
milliseconds. -/
structure Polling where
  interval : Nat := 5000
  timeout : Nat := 5000
  deriving DecidableEq, Inhabited

/-- The settings of the program. -/
structure Settings where
  apiUrl : Option String := none
  logLevel : Option String := none
  polling : Option Polling := none
  /-- The entries that mean nothing here. -/
  extra : Dict Toml.Value := .empty
  deriving Inhabited

namespace Polling

/-- The interval that counts. -/
def effectiveInterval (p : Polling) : Nat :=
  if p.interval = 0 then 5000 else p.interval

/-- The timeout that counts. -/
def effectiveTimeout (p : Polling) : Nat :=
  if p.timeout = 0 then 5000 else p.timeout

end Polling

namespace Settings

/-- The address of the backend that is used when none is set. -/
def defaultUrl : String :=
  "http://127.0.0.1:8000"

/-- The least interval between two fetches of the status. -/
def leastInterval : Nat := 250

/-- The address that counts. -/
def effectiveUrl (s : Settings) : String :=
  match s.apiUrl with
  | some url => if (trim url).isEmpty then defaultUrl else trim url
  | none => defaultUrl

/-- The polling that counts. -/
def effectivePolling (s : Settings) : Polling :=
  s.polling.getD {}

end Settings

/-! ### Errors -/

/-- What is wrong with settings. -/
inductive SettingsError where
  /-- The file cannot be read as text. -/
  | unreadable (reason : String)
  /-- The text is no TOML, or a key has a value of the wrong kind. -/
  | malformed
  | invalidUrl (url : String)
  | intervalTooShort (ms : Nat)
  deriving DecidableEq, Inhabited

namespace SettingsError

/-- The text of an error about the settings in a file. -/
def text (file : String) : SettingsError → String
  | unreadable reason => "read config " ++ file ++ ": " ++ reason
  | malformed => "parse config " ++ file ++ ": not valid"
  | invalidUrl url => "invalid api url: " ++ url
  | intervalTooShort ms =>
    "poll interval must be >= 250ms (got " ++ decimal ms ++ "ms)"

/-- What an error is due to, if it is due to another one. -/
def cause? : SettingsError → Option String
  | unreadable reason => some reason
  | malformed => some "not valid"
  | invalidUrl _ => none
  | intervalTooShort _ => none

end SettingsError

namespace Settings

/-! ### Checks -/

/-- What follows the scheme of an address. -/
def afterScheme? (url : String) : Option (List Char) :=
  let strip (scheme : String) : Option (List Char) :=
    if scheme.toList.isPrefixOf url.toList then some (url.toList.drop scheme.toList.length)
    else none
  strip "http://" <|> strip "https://"

/-- Whether a text, blanks around it apart, has the form of an address: a scheme
and something after it that does not start with a slash. -/
def isUrl (url : String) : Bool :=
  match afterScheme? (trim url) with
  | some (c :: _) => c != '/'
  | _ => false

/-- Refuses a text that does not have the form of an address. -/
def checkUrl (url : String) : Except SettingsError Unit :=
  if isUrl url then .ok () else .error (.invalidUrl (trim url))

/-- Refuses an interval that is too short. -/
def checkInterval (p : Polling) : Except SettingsError Unit :=
  if p.effectiveInterval < leastInterval then .error (.intervalTooShort p.effectiveInterval)
  else .ok ()

/-- Refuses settings with which the program cannot work. -/
def check (s : Settings) : Except SettingsError Settings := do
  if let some url := s.apiUrl then checkUrl url
  if let some polling := s.polling then checkInterval polling
  pure s

/-! ### Reading -/

section

open Toml (Value)

/-- A string. -/
def stringOf? : Value → Option String
  | .string s => some s
  | _ => none

/-- A natural number. -/
def naturalOf? : Value → Option Nat
  | .integer (.ofNat n) => some n
  | _ => none

/-- The values of a table under either spelling of a key. Both at once are too
many. -/
def either? (entries : List (String × Value)) (key key' : String) : Option (Option Value) :=
  match entries.lookup key, entries.lookup key' with
  | some _, some _ => none
  | some v, none => some (some v)
  | none, v => some v

/-- A value that may be missing. -/
def optional? {α : Type} (read : Value → Option α) : Option Value → Option (Option α)
  | none => some none
  | some v => (read v).map some

/-- The interval and the timeout under their keys. -/
def pollingOfTable? (entries : List (String × Value)) : Option Polling := do
  let interval ← optional? naturalOf? (← either? entries "interval-ms" "interval_ms")
  let timeout ← optional? naturalOf? (← either? entries "request-timeout-ms" "request_timeout_ms")
  pure { interval := interval.getD 5000, timeout := timeout.getD 5000 }

/-- The interval and the timeout, in a table or as the first items of an array. A
date and time says nothing about either. -/
def pollingOf? : Value → Option Polling
  | .table entries => pollingOfTable? entries
  | .array items => do
    let interval ← optional? naturalOf? items[0]?
    let timeout ← optional? naturalOf? items[1]?
    pure { interval := interval.getD 5000, timeout := timeout.getD 5000 }
  | .datetime _ => some {}
  | _ => none

mutual

/-- The value that is kept. A table whose first key is the one under which dates
and times are written stands for a date and time. -/
def kept? : Value → Option Value
  | .array items => (keptItems? items).map .array
  | .table ((key, v) :: rest) =>
    if key = Value.datetimeKey then
      match v, rest with
      | .string s, [] => (Scan.whole? Toml.datetime s.toList).map .datetime
      | _, _ => none
    else do pure (.table (← keptEntries? ((key, v) :: rest)))
  | v => some v

/-- The items that are kept. -/
def keptItems? : List Value → Option (List Value)
  | [] => some []
  | v :: vs => do pure ((← kept? v) :: (← keptItems? vs))

/-- The entries that are kept. -/
def keptEntries? : List (String × Value) → Option (List (String × Value))
  | [] => some []
  | (k, v) :: es => do pure ((k, ← kept? v) :: (← keptEntries? es))

end

/-- The keys that mean something. -/
def knownKeys : List String :=
  ["api-url", "api_url", "log-level", "log_level", "polling"]

/-- The settings in a table. -/
def ofTable? (entries : List (String × Value)) : Option Settings := do
  let apiUrl ← optional? stringOf? (← either? entries "api-url" "api_url")
  let logLevel ← optional? stringOf? (← either? entries "log-level" "log_level")
  let polling ← optional? pollingOf? (entries.lookup "polling")
  let extra ← keptEntries? (entries.filter fun e => !knownKeys.contains e.1)
  pure { apiUrl, logLevel, polling, extra := Dict.ofList extra }

end

/-- What stands at a path in the file system. -/
inductive File where
  | missing
  /-- Something stands there that cannot be read. -/
  | unreadable (reason : String)
  | bytes (content : List UInt8)
  deriving Inhabited

/-- A directory cannot be read like a file. -/
def File.directory : File :=
  .unreadable "Is a directory (os error 21)"

/-- A path that leads through a file as if it were a directory. -/
def File.throughFile : File :=
  .unreadable "Not a directory (os error 20)"

/-- The settings in a text. -/
def ofText (text : String) : Except SettingsError Settings :=
  match Toml.parse? text >>= ofTable? with
  | some s => s.check
  | none => .error .malformed

/-- The settings in a file; without one they are the defaults. -/
def load : File → Except SettingsError Settings
  | .missing => .ok {}
  | .unreadable reason => .error (.unreadable reason)
  | .bytes content =>
    match Utf8.decode? content with
    | some text => ofText text
    | none => .error (.unreadable "stream did not contain valid UTF-8")

/-! ### Overriding -/

/-- The settings with another address and another interval, where one is given. -/
def withOverrides (s : Settings) (url : Option String) (interval : Option Nat) :
    Except SettingsError Settings :=
  let apiUrl :=
    match url with
    | some url => some (trim url)
    | none => s.apiUrl
  let polling :=
    match interval with
    | some interval => some { s.effectivePolling with interval }
    | none => s.polling
  check { s with apiUrl, polling }

/-! ### Writing -/

/-- The JSON value of polling. -/
def pollingToJson (p : Polling) : Json :=
  .object [("interval-ms", .int p.interval), ("request-timeout-ms", .int p.timeout)]

/-- The JSON value of settings; what is not set is left out. -/
def toJson (s : Settings) : Json :=
  .object (Json.maybe "api-url" (s.apiUrl.map .string) ++
    Json.maybe "log-level" (s.logLevel.map .string) ++
    Json.maybe "polling" (s.polling.map pollingToJson) ++
    s.extra.entries.map fun e => (e.1, e.2.toJson))

end Settings

end RunControl
