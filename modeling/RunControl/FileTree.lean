/-
RunControl/FileTree.lean

Files that are kept in memory, and what stands at a path among them.  A path is
followed part by part: a part that is not there ends it, a file cannot be passed
through, and two dots lead back.
-/
import RunControl.Settings

namespace RunControl

/-- Files, each under the parts of its path. -/
structure FileTree where
  files : List (List String × String) := []
  /-- Directories that exist even if no file stands in them. -/
  directories : List (List String) := []
  deriving Inhabited

namespace FileTree

/-- The parts of a path between its slashes. A part that is a dot stays where it
is. -/
def parts (path : String) : List String :=
  ((path.toList.splitOnP (· == '/')).map String.ofList).filter fun p => p != "" && p != "."

/-- What stands at the parts of a path. -/
def entry (t : FileTree) (path : List String) : Settings.File :=
  match t.files.find? fun f => f.1 == path with
  | some f => .bytes (Text.Utf8.encode f.2.toList)
  | none =>
    if (t.directories ++ t.files.map (·.1)).any path.isPrefixOf then .directory
    else if t.files.any fun f => f.1.isPrefixOf path then .throughFile
    else .missing

/-- Follows a path from `here` on. -/
def follow (t : FileTree) (here : List String) : List String → Settings.File
  | [] => t.entry here
  | part :: rest =>
    match t.entry here with
    | .bytes _ => .throughFile
    | .missing => .missing
    | .unreadable _ => t.follow (if part = ".." then here.dropLast else here ++ [part]) rest

/-- What stands at a path. Nothing stands at a path that does not start at the
root. -/
def find (t : FileTree) (path : String) : Settings.File :=
  if path.toList.head? ≠ some '/' then .missing
  else
    match t.follow [] (parts path), path.toList.getLast? with
    | .bytes _, some '/' => .throughFile
    | file, _ => file

end FileTree

end RunControl
