/-
RunControl/Text/Blank.lean

White space.  A blank is a character with the Unicode property `White_Space`;
trimming takes the blanks off both ends of a text and leaves the inside alone.

Main statements: what is left after the leading blanks starts with no blank
(`trimLeft_head`), a text that starts with none keeps all its characters
(`trimLeft_eq_self`), and every white-space character that the core library
knows is a blank (`isBlank_of_isWhitespace`).
-/

namespace RunControl.Text

/-- The characters with the Unicode property `White_Space`. -/
def isBlank (c : Char) : Bool :=
  let n := c.toNat
  (9 ≤ n && n ≤ 13) || n == 0x20 || n == 0x85 || n == 0xA0 || n == 0x1680 ||
  (0x2000 ≤ n && n ≤ 0x200A) || n == 0x2028 || n == 0x2029 || n == 0x202F ||
  n == 0x205F || n == 0x3000

/-- The core library's white space is blank. -/
theorem isBlank_of_isWhitespace {c : Char} (h : c.isWhitespace = true) : isBlank c = true := by
  simp only [Char.isWhitespace, Bool.or_eq_true, decide_eq_true_eq] at h
  rcases h with ((rfl | rfl) | rfl) | rfl <;> decide

/-! ### Trimming -/

/-- The characters after the leading blanks. -/
def trimLeft (cs : List Char) : List Char :=
  cs.dropWhile isBlank

/-- The characters between the leading and the trailing blanks. -/
def trimChars (cs : List Char) : List Char :=
  (trimLeft (trimLeft cs).reverse).reverse

/-- A text without its leading and trailing blanks. -/
def trim (s : String) : String :=
  String.ofList (trimChars s.toList)

/-- What is left after the leading blanks starts with no blank. -/
theorem trimLeft_head {cs : List Char} {c : Char} (h : (trimLeft cs).head? = some c) :
    isBlank c = false := by
  induction cs with
  | nil => simp [trimLeft] at h
  | cons a r ih =>
    by_cases ha : isBlank a = true
    · exact ih (by simpa [trimLeft, List.dropWhile_cons, ha] using h)
    · have : a = c := by simpa [trimLeft, List.dropWhile_cons, ha] using h
      simpa [this] using ha

/-- A text that starts with no blank keeps all its characters. -/
theorem trimLeft_eq_self {cs : List Char} (h : ∀ c, cs.head? = some c → isBlank c = false) :
    trimLeft cs = cs := by
  cases cs with
  | nil => rfl
  | cons a r => simp [trimLeft, h a rfl]

end RunControl.Text
