/-
RunControl/Paths.lean

Where the program keeps its files.  Paths are joined as they are written:
nothing is looked up and nothing is simplified.
-/

namespace RunControl

/-- `p` followed by `q`. An absolute `q` stands alone; otherwise one slash comes
between the two, unless `p` is empty or ends with one. -/
def joinPath (p q : String) : String :=
  if q.toList.head? = some '/' then q
  else if p.isEmpty || p.toList.getLast? = some '/' then p ++ q
  else p ++ "/" ++ q

/-- What the places of the files depend on. -/
structure PathInputs where
  home : String
  /-- The directory for the settings of all programs, if one is set. -/
  configHome : Option String := none
  /-- The directory for all files of this program, if one is set. -/
  programDir : Option String := none
  /-- The file with the settings, if one is set. -/
  configFile : Option String := none
  deriving DecidableEq, Inhabited

/-- Where the program keeps its files. -/
structure Paths where
  programDir : String
  logDir : String
  configDir : String
  configFile : String
  deriving DecidableEq, Inhabited

namespace Paths

/-- The places that follow from the inputs. A directory that is set for all files
holds the settings too, and a file that is set for the settings is taken as it is. -/
def of (i : PathInputs) : Paths :=
  let programDir := i.programDir.getD (joinPath i.home ".trs")
  let configDir :=
    match i.programDir with
    | some dir => joinPath dir "config"
    | none => joinPath (i.configHome.getD (joinPath i.home ".config")) "trs"
  { programDir
    logDir := joinPath programDir "logs"
    configDir
    configFile := i.configFile.getD (joinPath configDir "config.toml") }

end Paths

end RunControl
