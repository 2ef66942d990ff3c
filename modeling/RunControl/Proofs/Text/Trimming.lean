/-
RunControl/Proofs/Text/Trimming.lean

What trimming leaves of a text has no blank at either end (`trimmed_trimChars`).  A text of that
form is left as it is (`trimChars_eq_self`), so trimming twice is trimming once (`trim_trim`); and
it comes out again when blanks have been put around it (`trimChars_surrounded`).
-/
import RunControl.Text.Blank

namespace RunControl.Text

/-- There is no blank at either end. -/
structure Trimmed (cs : List Char) : Prop where
  head : ∀ c, cs.head? = some c → isBlank c = false
  last : ∀ c, cs.getLast? = some c → isBlank c = false

variable {cs : List Char}

theorem trimChars_isPrefix (cs : List Char) : trimChars cs <+: trimLeft cs := by
  have h := List.reverse_prefix.mpr (List.dropWhile_suffix isBlank (l := (trimLeft cs).reverse))
  rwa [List.reverse_reverse] at h

theorem trimmed_trimChars (cs : List Char) : Trimmed (trimChars cs) where
  head c h := by
    -- what is cut off at the end leaves the first character alone
    obtain ⟨rest, hrest⟩ := trimChars_isPrefix cs
    have hc : (trimLeft cs).head? = some c := by
      rw [← hrest, List.head?_append, h]
      rfl
    exact trimLeft_head hc
  last c h := by
    rw [trimChars, List.getLast?_reverse] at h
    exact trimLeft_head h

theorem Trimmed.trimLeft_reverse (h : Trimmed cs) : trimLeft cs.reverse = cs.reverse := by
  refine trimLeft_eq_self fun c hc => h.last c ?_
  rwa [List.head?_reverse] at hc

theorem trimChars_eq_self (h : Trimmed cs) : trimChars cs = cs := by
  rw [trimChars, trimLeft_eq_self h.head, h.trimLeft_reverse, List.reverse_reverse]

theorem trimLeft_append {blanks : List Char} (h : ∀ c ∈ blanks, isBlank c = true) :
    trimLeft (blanks ++ cs) = trimLeft cs :=
  List.dropWhile_append_of_pos h

/-- Blanks around a text that has none at its ends are taken off. -/
theorem trimChars_surrounded {before after : List Char} (h : Trimmed cs) (hne : cs ≠ [])
    (hbefore : ∀ c ∈ before, isBlank c = true) (hafter : ∀ c ∈ after, isBlank c = true) :
    trimChars (before ++ cs ++ after) = cs := by
  have hleft : trimLeft (cs ++ after) = cs ++ after := by
    obtain ⟨d, ds, rfl⟩ := List.exists_cons_of_ne_nil hne
    exact trimLeft_eq_self h.head
  rw [trimChars, List.append_assoc, trimLeft_append hbefore, hleft, List.reverse_append,
    trimLeft_append fun c hc => hafter c (List.mem_reverse.mp hc), h.trimLeft_reverse,
    List.reverse_reverse]

/-- The characters stand in a text with nothing but blanks around them, if anything. -/
def StandsIn (cs : List Char) (s : String) : Prop :=
  ∃ before after, (∀ c ∈ before, isBlank c = true) ∧ (∀ c ∈ after, isBlank c = true) ∧
    s.toList = before ++ cs ++ after

theorem StandsIn.trimChars_eq {s : String} (h : StandsIn cs s) (ht : Trimmed cs) (hne : cs ≠ []) :
    trimChars s.toList = cs := by
  obtain ⟨before, after, hbefore, hafter, hs⟩ := h
  rw [hs, trimChars_surrounded ht hne hbefore hafter]

@[simp] theorem trim_trim (s : String) : trim (trim s) = trim s := by
  unfold trim
  rw [String.toList_ofList, trimChars_eq_self (trimmed_trimChars _)]

end RunControl.Text
