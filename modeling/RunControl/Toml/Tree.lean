/-
RunControl/Toml/Tree.lean

Tables under construction.  A text names the tables of a document in three ways,
and each forbids some of the others later on:

* a header opens its table, and no table is opened twice;
* the tables on the way to the one that a header opens are implied; a header may
  still open them;
* the tables on the way to the key of an entry are dotted; only further entries
  of the same section may add to them, and headers may go through them.

`define` adds an entry, `openTable` and `openItem` add a section; each fails if
the text says something twice.
-/
import RunControl.Toml

namespace RunControl.Toml

/-- How a table came to be. -/
inductive Origin where
  /-- A header, or the braces of an inline table. -/
  | opened
  /-- On the way to the table of a header. -/
  | implied
  /-- On the way to the key of an entry. -/
  | dotted
  deriving DecidableEq, Inhabited

/-- Something under construction that a key stands for. -/
inductive Node where
  | value (value : Value)
  | table (origin : Origin) (entries : List (String × Node))
  /-- The tables that headers in double brackets have opened. -/
  | tables (items : List (List (String × Node)))
  deriving Inhabited

/-- The entries of a table under construction. -/
abbrev Nodes :=
  List (String × Node)

namespace Nodes

/-- The entries with `node` in the place of what `key` stands for, or at the end. -/
def set (key : String) (node : Node) : Nodes → Nodes
  | [] => [(key, node)]
  | e :: es => if e.1 = key then (key, node) :: es else e :: set key node es

/-- Changes the last of a list of tables. -/
def onLast (f : Nodes → Option Nodes) : List Nodes → Option (List Nodes)
  | [] => none
  | [es] => do pure [← f es]
  | es :: rest => do pure (es :: (← onLast f rest))

/-- Goes down a path and changes the table at its end. Tables that are missing
are made, as dotted or as implied ones; a way of dotted keys leads through no
table that was opened, and no way leads through a value. -/
def descend (dotted : Bool) (f : Origin → Nodes → Option Nodes) :
    List String → Origin → Nodes → Option Nodes
  | [], origin, es => f origin es
  | key :: path, _, es => do
    match es.lookup key with
    | none =>
      let origin := if dotted then .dotted else .implied
      pure (set key (.table origin (← descend dotted f path origin [])) es)
    | some (.value _) => none
    | some (.table origin inner) =>
      if dotted && origin = .opened then none
      else pure (set key (.table origin (← descend dotted f path origin inner)) es)
    | some (.tables items) =>
      pure (set key (.tables (← onLast (descend dotted f path .opened) items)) es)

/-- Adds an entry to a table. The path to its key must not lead to a table that
is not made of dotted keys. -/
def define (path : List String) (value : Value) (es : Nodes) : Option Nodes := do
  let key ← path.getLast?
  let way := path.dropLast
  let put (origin : Origin) (inner : Nodes) : Option Nodes :=
    if !way.isEmpty && origin ≠ .dotted then none
    else if (inner.lookup key).isSome then none
    else some (inner ++ [(key, .value value)])
  descend true put way .opened es

/-- Adds entries to a table, in order. -/
def defineAll (entries : List (List String × Value)) (es : Nodes) : Option Nodes :=
  entries.foldlM (fun es (path, value) => define path value es) es

/-- Adds the table that a header opens, with its entries. -/
def openTable (path : List String) (entries : List (List String × Value)) (es : Nodes) :
    Option Nodes := do
  let key ← path.getLast?
  let put (_ : Origin) (inner : Nodes) : Option Nodes := do
    let started ←
      match inner.lookup key with
      | none => some []
      | some (.table .implied started) => some started
      | some _ => none
    pure (set key (.table .opened (← defineAll entries started)) inner)
  descend false put path.dropLast .opened es

/-- Adds one more table to those of a header in double brackets, with its entries. -/
def openItem (path : List String) (entries : List (List String × Value)) (es : Nodes) :
    Option Nodes := do
  let key ← path.getLast?
  let put (_ : Origin) (inner : Nodes) : Option Nodes := do
    let items ←
      match inner.lookup key with
      | none => some []
      | some (.tables items) => some items
      | some _ => none
    pure (set key (.tables (items ++ [← defineAll entries []])) inner)
  descend false put path.dropLast .opened es

end Nodes

/-! ### Finished tables -/

mutual

/-- The value that is complete. -/
def Node.toValue : Node → Value
  | .value v => v
  | .table _ es => .table (Nodes.finish es)
  | .tables items => .array (Nodes.finishAll items)

/-- The entries of a table that is complete. -/
def Nodes.finish : List (String × Node) → List (String × Value)
  | [] => []
  | (k, n) :: es => (k, n.toValue) :: Nodes.finish es

/-- The tables of a list that is complete. -/
def Nodes.finishAll : List (List (String × Node)) → List Value
  | [] => []
  | es :: rest => .table (Nodes.finish es) :: Nodes.finishAll rest

end

end RunControl.Toml
