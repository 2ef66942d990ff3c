/-
RunControl/Text/Ascii.lean

Letters up to ASCII case.  Hardware addresses and error messages are compared
after `A` to `Z` have been lowered; every other character, accented letters
included, stands for itself.
-/

namespace RunControl.Text

/-- A text with `A` to `Z` lowered. -/
def lower (s : String) : String :=
  String.ofList (s.toList.map Char.toLower)

/-- Two texts are alike if they agree up to ASCII case. -/
def alike (s t : String) : Bool :=
  lower s == lower t

theorem alike_iff {s t : String} : alike s t = true ↔ lower s = lower t := by
  simp [alike]

@[simp] theorem alike_refl (s : String) : alike s s = true := by
  simp [alike]

theorem alike_comm (s t : String) : alike s t = alike t s := by
  rw [Bool.eq_iff_iff, alike_iff, alike_iff, eq_comm]

/-! ### Occurrences -/

/-- Whether the characters `part` stand somewhere in `cs`, next to each other. -/
def occursIn (part : List Char) : List Char → Bool
  | [] => part.isEmpty
  | c :: r => part.isPrefixOf (c :: r) || occursIn part r

/-- An occurrence cuts the text in three. -/
theorem occursIn_iff {part cs : List Char} :
    occursIn part cs = true ↔ ∃ before after, cs = before ++ part ++ after := by
  induction cs with
  | nil =>
    constructor
    · intro h
      exact ⟨[], [], by simp [occursIn] at h; simp [h]⟩
    · rintro ⟨b, a, h⟩
      have hpart : part = [] := (List.append_eq_nil_iff.mp (List.append_eq_nil_iff.mp h.symm).1).2
      rw [hpart]
      rfl
  | cons c r ih =>
    rw [occursIn, Bool.or_eq_true, ih, List.isPrefixOf_iff_prefix]
    constructor
    · rintro (⟨t, ht⟩ | ⟨b, a, h⟩)
      · exact ⟨[], t, by simp [ht]⟩
      · exact ⟨c :: b, a, by simp [h]⟩
    · rintro ⟨b, a, h⟩
      cases b with
      | nil => exact .inl ⟨a, by simpa using h.symm⟩
      | cons d b' =>
        simp only [List.cons_append, List.cons.injEq] at h
        exact .inr ⟨b', a, h.2⟩

/-- Whether `part` occurs in `s`. -/
def mentions (s part : String) : Bool :=
  occursIn part.toList s.toList

/-! ### Numbers in base ten -/

/-- The digits of a number in base ten. -/
def decimal (n : Nat) : String :=
  String.ofList (Nat.toDigits 10 n)

/-- The value of a digit in base ten. -/
def digitValue (c : Char) : Nat :=
  c.toNat - 48

/-- The number that a run of digits stands for. -/
def ofDigits (cs : List Char) : Nat :=
  cs.foldl (fun n c => 10 * n + digitValue c) 0

/-- The value of a hexadecimal digit of either case. -/
def hexValue? (c : Char) : Option Nat :=
  if '0' ≤ c ∧ c ≤ '9' then some (c.toNat - 48)
  else if 'a' ≤ c ∧ c ≤ 'f' then some (c.toNat - 87)
  else if 'A' ≤ c ∧ c ≤ 'F' then some (c.toNat - 55)
  else none

/-- The digit, lower case, of a value below sixteen. -/
def hexDigit (n : Nat) : Char :=
  Nat.digitChar n

/-! ### Lines of a list -/

/-- The texts of a list with `sep` between neighbours. -/
def joinWith (sep : String) : List String → String
  | [] => ""
  | [s] => s
  | s :: t :: r => s ++ sep ++ joinWith sep (t :: r)

end RunControl.Text
