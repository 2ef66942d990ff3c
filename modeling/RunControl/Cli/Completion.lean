/-
RunControl/Cli/Completion.lean

Scripts that let a shell complete the names of the commands.
-/
import RunControl.Cli.Invocation

namespace RunControl.Cli.Shell

/-- The names of the commands. -/
def words : List String :=
  Grammar.program.commands.map Grammar.name

/-- The script for a shell. -/
def script : Shell → String
  | bash => "complete -W \"" ++ Text.joinWith " " words ++ "\" trs"
  | fish => "complete -c trs -f -a \"" ++ Text.joinWith " " words ++ "\""
  | powershell =>
    "Register-ArgumentCompleter -Native -CommandName trs -ScriptBlock \x7b param($word) " ++
      Text.joinWith ", " (words.map fun w => "'" ++ w ++ "'") ++
      " | Where-Object \x7b $_ -like \"$word*\" \x7d \x7d"
  | zsh => "compctl -k '(" ++ Text.joinWith " " words ++ ")' trs"

end RunControl.Cli.Shell
