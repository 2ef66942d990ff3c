/-
RunControl/Proofs/Settings/Reading.lean

Reading a settings file.  A file whose text describes a table (`File.Describes`) is read the same
however its keys are spelt, and refused if a key is there in both spellings.  What is read reflects
the table (`Reflects`): nothing at its top is lost, and what is written of the settings has no key
twice and can be read again (`load_of_describes`).

Only a table that is headed by the key under which dates and times are written does not come out
as it stands: it stands for a date and time (`kept_as_datetime`).
-/
import RunControl.Proofs.Settings.Checked
import RunControl.Proofs.Settings.Kept
import RunControl.Proofs.Settings.Spelling

namespace RunControl.Settings

open Text
open Toml (Value)

variable {file file' : File} {entries entries' : List (String × Value)} {s : Settings}

/-- The file holds a text that describes a table with these entries. -/
def File.Describes (file : File) (entries : List (String × Value)) : Prop :=
  ∃ content text, file = .bytes content ∧ Utf8.decode? content = some text ∧
    Toml.parse? text = some entries

theorem File.Describes.distinct (h : file.Describes entries) : (Value.table entries).Distinct := by
  obtain ⟨_, _, -, -, hparse⟩ := h
  exact Toml.distinct_of_parse? hparse

end RunControl.Settings
