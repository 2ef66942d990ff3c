/-
RunControl/Proofs/Json/Writing.lean

What is written can be read.  A value without floating-point numbers (`Exact`) is written as
one document (`Json.document`), and whoever reads its compact text finds that document
(`Document.ofText?_compact`).

The text is followed by something else wherever a value stands inside another one, so each
part is read off the front of a longer text.  A number could go on in what follows it, and so
what follows must not look like it (`Ends`).
-/
import Mathlib.Data.Nat.Digits.Defs
import RunControl.Json.Document

namespace RunControl

namespace Json

/-! ### The document of a value -/

/-- A value without floating-point numbers. -/
inductive Exact : Json → Prop
  | null : Exact .null
  | bool (b : Bool) : Exact (.bool b)
  | int (i : Int) : Exact (.int i)
  | string (s : String) : Exact (.string s)
  | array {items : List Json} (h : ∀ a ∈ items, Exact a) : Exact (.array items)
  | object {members : List (String × Json)} (h : ∀ m ∈ members, Exact m.2) :
    Exact (.object members)

/-- An integer as it is written. -/
def Numeral.ofInt (i : Int) : Numeral where
  negative := i < 0
  whole := Nat.toDigits 10 i.natAbs
  fraction := none
  exponent := none

mutual

/-- The document as which a value is written that holds no floating-point number. -/
def document : Json → Document
  | null => .null
  | bool b => .bool b
  | int i => .number (.ofInt i)
  | double _ => .null
  | string s => .string s
  | array items => .array (documents items)
  | object members => .object (memberDocuments members)

/-- The documents of values. -/
def documents : List Json → List Document
  | [] => []
  | a :: r => document a :: documents r

/-- The documents of members. -/
def memberDocuments : List (String × Json) → List (Option String × Document)
  | [] => []
  | (k, a) :: r => (some k, document a) :: memberDocuments r

end

theorem documents_eq_map (items : List Json) : documents items = items.map document := by
  induction items with
  | nil => rfl
  | cons a r ih => rw [documents, ih, List.map_cons]

theorem memberDocuments_eq_map (members : List (String × Json)) :
    memberDocuments members = members.map fun m => (some m.1, m.2.document) := by
  induction members with
  | nil => rfl
  | cons m r ih => rw [memberDocuments, ih, List.map_cons]

namespace Document

variable {r : List Char} {n : Nat}

/-! ### Numbers -/

/-- A number ends before this text. -/
def Ends (r : List Char) : Prop :=
  ∀ c, r.head? = some c → c.isDigit = false ∧ c ≠ '.' ∧ c ≠ 'e' ∧ c ≠ 'E'

theorem ends_nil : Ends [] := nofun

theorem ends_cons {c : Char} (hd : c.isDigit = false) (hc : c ≠ '.' ∧ c ≠ 'e' ∧ c ≠ 'E') :
    Ends (c :: r) := by
  rintro _ ⟨⟩
  exact ⟨hd, hc⟩

theorem digits_append {ds : List Char} (hds : ∀ c ∈ ds, c.isDigit = true) (hr : Ends r) :
    digits (ds ++ r) = (ds, r) := by
  have hn : r.takeWhile Char.isDigit = [] ∧ r.dropWhile Char.isDigit = r := by
    cases r with
    | nil => exact ⟨rfl, rfl⟩
    | cons c r => simp [(hr c rfl).1]
  rw [digits, List.takeWhile_append_of_pos hds, List.dropWhile_append_of_pos hds, hn.1, hn.2,
    List.append_nil]

theorem isDigit_of_mem_toDigits {c : Char} (h : c ∈ Nat.toDigits 10 n) : c.isDigit = true :=
  Nat.isDigit_of_mem_toDigits (by decide) (by decide) h

/-- The first digit of a positive number is not zero. -/
theorem toDigits_head (h : 0 < n) : ∃ c ds, Nat.toDigits 10 n = c :: ds ∧ c ≠ '0' := by
  induction n using Nat.strongRecOn with
  | ind n ih =>
    rcases Nat.lt_or_ge n 10 with hn | hn
    · refine ⟨n.digitChar, [], Nat.toDigits_of_lt_base hn, ?_⟩
      have hne : ∀ m < 10, 0 < m → m.digitChar ≠ '0' := by decide
      exact hne n hn h
    · obtain ⟨c, ds, he, hc⟩ := ih (n / 10) (by omega) (by omega)
      exact ⟨c, ds ++ [(n % 10).digitChar], by rw [Nat.toDigits_of_base_le (by decide) hn, he]; rfl,
        hc⟩

theorem digits?_toDigits (n : Nat) (hr : Ends r) :
    digits? (Nat.toDigits 10 n ++ r) = some (Nat.toDigits 10 n, r) := by
  unfold digits?
  rw [digits_append (fun c hc => isDigit_of_mem_toDigits hc) hr]
  cases hd : Nat.toDigits 10 n with
  | nil => exact absurd hd Nat.toDigits_ne_nil
  | cons c ds => rfl

theorem whole?_toDigits (n : Nat) (hr : Ends r) :
    whole? (Nat.toDigits 10 n ++ r) = some (Nat.toDigits 10 n, r) := by
  rcases Nat.eq_zero_or_pos n with rfl | hn
  · rfl
  · rw [← digits?_toDigits n hr]
    obtain ⟨c, ds, hc, hne⟩ := toDigits_head hn
    rw [hc, List.cons_append]
    unfold whole?
    split
    · next h =>
      cases h
      exact absurd rfl hne
    · rfl

theorem fraction?_of_ends (hr : Ends r) : fraction? r = some (none, r) := by
  unfold fraction?
  split
  · exact absurd rfl (hr _ rfl).2.1
  · rfl

theorem exponent?_of_ends (hr : Ends r) : exponent? r = some (none, r) := by
  unfold exponent?
  split
  · exact absurd rfl (hr _ rfl).2.2.1
  · exact absurd rfl (hr _ rfl).2.2.2
  · rfl

theorem unsigned?_toDigits (negative : Bool) (n : Nat) (hr : Ends r) :
    unsigned? negative (Nat.toDigits 10 n ++ r)
      = some ({ negative, whole := Nat.toDigits 10 n, fraction := none, exponent := none }, r) := by
  simp [unsigned?, whole?_toDigits n hr, fraction?_of_ends hr, exponent?_of_ends hr]

/-- What an integer starts with. -/
theorem intText_head (i : Int) :
    ∃ c cs, intText i = c :: cs ∧ (c = '-' ∨ c.isDigit = true) := by
  unfold intText
  split
  · exact ⟨'-', _, rfl, .inl rfl⟩
  · cases hd : Nat.toDigits 10 i.natAbs with
    | nil => exact absurd hd Nat.toDigits_ne_nil
    | cons c cs => exact ⟨c, cs, rfl, .inr (isDigit_of_mem_toDigits (hd ▸ List.mem_cons_self))⟩

/-- An integer is read back as it was written, up to where it ends. -/
theorem numeral?_intText (i : Int) (hr : Ends r) :
    numeral? (intText i ++ r) = some (.ofInt i, r) := by
  unfold intText
  split
  · next hi =>
    show unsigned? true (Nat.toDigits 10 i.natAbs ++ r) = _
    rw [unsigned?_toDigits true _ hr]
    simp [Numeral.ofInt, hi]
  · next hi =>
    have hu : numeral? (Nat.toDigits 10 i.natAbs ++ r)
        = unsigned? false (Nat.toDigits 10 i.natAbs ++ r) := by
      unfold numeral?
      split
      · next h =>
        -- a digit is no sign
        cases hd : Nat.toDigits 10 i.natAbs with
        | nil => exact absurd hd Nat.toDigits_ne_nil
        | cons c cs =>
          have hc := isDigit_of_mem_toDigits (n := i.natAbs) (hd ▸ List.mem_cons_self)
          rw [hd] at h
          cases h
          cases hc
      · rfl
    rw [hu, unsigned?_toDigits false _ hr]
    simp [Numeral.ofInt, hi]

/-! ### Strings -/

theorem hexValue?_hexDigit : ∀ n < 16, Text.hexValue? (Text.hexDigit n) = some n := by
  decide

/-- An escaped character is read as itself. -/
theorem pieces_escape (c : Char) (n : Nat) (r : List Char) :
    pieces (n + 1) (escape c ++ r) = (pieces n r).map fun (ps, r) => (.char c :: ps, r) := by
  unfold escape
  split
  · simp [pieces]
  · simp [pieces]
  · simp [pieces]
  · simp [pieces]
  · simp [pieces]
  · simp [pieces]
  · simp [pieces]
  · next hquote hslash _ _ _ _ _ =>
    split
    · -- a control character is written by its number, in four hexadecimal digits
      next hc =>
      have hhigh := hexValue?_hexDigit (c.toNat / 16) (by omega)
      have hlow := hexValue?_hexDigit (c.toNat % 16) (by omega)
      have hzero : Text.hexValue? '0' = some 0 := by decide
      have hunit : Piece.ofUnit c.toNat = .char c := by
        rw [Piece.ofUnit, if_neg (by omega), Char.ofNat_toNat]
      have hn : c.toNat / 16 * 16 + c.toNat % 16 = c.toNat := by omega
      simp only [List.cons_append, List.nil_append, pieces, hexFour?, hhigh, hlow, hzero]
      simp only [Option.pure_def, Option.bind_eq_bind, Option.bind_some, Nat.zero_mul,
        Nat.add_zero, Nat.zero_add, hn, hunit]
      cases pieces n r <;> rfl
    · -- any other character stands for itself: it is neither the quote nor the backslash
      next hc =>
      rw [List.cons_append, List.nil_append, pieces]
      · rw [if_neg (by simp [hc]; exact hslash)]
      · exact hquote
      · rintro _ _ rfl _
        exact hslash rfl

theorem pieces_flatMap_escape (cs : List Char) (hn : cs.length < n) (r : List Char) :
    pieces n (cs.flatMap escape ++ '"' :: r) = some (cs.map .char, r) := by
  induction cs generalizing n with
  | nil =>
    obtain ⟨m, rfl⟩ := Nat.exists_eq_add_of_lt hn
    rfl
  | cons c cs ih =>
    obtain ⟨m, rfl⟩ := Nat.exists_eq_succ_of_ne_zero (Nat.ne_of_gt (Nat.zero_lt_of_lt hn))
    rw [List.flatMap_cons, List.append_assoc, pieces_escape, ih (Nat.lt_of_succ_lt_succ hn)]
    rfl

theorem joinPieces_map_char (cs : List Char) : joinPieces (cs.map .char) = some cs := by
  induction cs with
  | nil => rfl
  | cons c cs ih => simp [joinPieces, ih]

theorem length_escape_pos (c : Char) : 0 < (escape c).length := by
  unfold escape
  repeat' split
  all_goals exact Nat.zero_lt_succ _

theorem length_le_flatMap_escape (cs : List Char) : cs.length ≤ (cs.flatMap escape).length := by
  induction cs with
  | nil => exact Nat.le_refl _
  | cons c cs ih =>
    have hc := length_escape_pos c
    rw [List.flatMap_cons, List.length_append, List.length_cons]
    omega

/-- After its opening quote, a quoted text is read up to its closing quote. -/
theorem string?_quote (s : String) (r : List Char) :
    string? (s.toList.flatMap escape ++ '"' :: r) = some (some s, r) := by
  have hl := length_le_flatMap_escape s.toList
  rw [string?, pieces_flatMap_escape s.toList (by rw [List.length_append]; omega) r]
  simp [joinPieces_map_char]

/-! ### Values -/

/-- What a value starts with: no white space, and nothing that closes a bracket. -/
theorem compactChars_head {j : Json} (h : Exact j) :
    ∃ c cs, j.compactChars = c :: cs ∧ isSpace c = false ∧ c ≠ ']' := by
  cases h with
  | null => exact ⟨'n', _, rfl, rfl, by decide⟩
  | bool b => cases b <;> exact ⟨_, _, rfl, rfl, by decide⟩
  | int i =>
    obtain ⟨c, cs, he, hc⟩ := intText_head i
    refine ⟨c, cs, he, ?_⟩
    rcases hc with rfl | hc
    · exact ⟨rfl, by decide⟩
    · have hne : ∀ d, d.isDigit = false → c ≠ d := by
        rintro d hd rfl
        rw [hc] at hd
        cases hd
      simp [isSpace, hne]
  | string s => exact ⟨'"', _, rfl, rfl, by decide⟩
  | array _ => exact ⟨'[', _, rfl, rfl, by decide⟩
  | object _ => exact ⟨'\x7b', _, rfl, rfl, by decide⟩

theorem skipSpace_cons {c : Char} (h : isSpace c = false) : skipSpace (c :: r) = c :: r := by
  simp [skipSpace, h]

theorem skipSpace_compactChars {j : Json} (h : Exact j) (r : List Char) :
    skipSpace (j.compactChars ++ r) = j.compactChars ++ r := by
  obtain ⟨c, cs, hj, hc, -⟩ := compactChars_head h
  rw [hj, List.cons_append, skipSpace_cons hc]

/-- A value is read off the front of a text. -/
def Reads (j : Json) : Prop :=
  ∀ {n : Nat} {r : List Char}, j.compactChars.length ≤ n → Ends r →
    value? n (j.compactChars ++ r) = some (j.document, r)

/-- The last of some values. -/
theorem items?_last {a : Json} (ha : Exact a) (hread : Reads a) (hn : a.compactChars.length ≤ n)
    (r : List Char) : items? (n + 1) (a.compactChars ++ ']' :: r) = some ([a.document], r) := by
  rw [items?, skipSpace_compactChars ha, hread hn (ends_cons rfl (by decide))]
  rfl

/-- A value that others follow. -/
theorem items?_more {a : Json} (ha : Exact a) (hread : Reads a) (hn : a.compactChars.length ≤ n)
    (r : List Char) :
    items? (n + 1) (a.compactChars ++ ',' :: r)
      = (items? n r).map fun (ds, r) => (a.document :: ds, r) := by
  rw [items?, skipSpace_compactChars ha, hread hn (ends_cons rfl (by decide))]
  show (items? n r).bind _ = _
  cases items? n r <;> rfl

theorem items?_compactItems {items : List Json} (hne : items ≠ [])
    (hitems : ∀ a ∈ items, Exact a ∧ Reads a) (hn : (compactItems items).length < n)
    (r : List Char) : items? n (compactItems items ++ ']' :: r) = some (documents items, r) := by
  induction items generalizing n with
  | nil => exact absurd rfl hne
  | cons a items ih =>
    obtain ⟨m, rfl⟩ := Nat.exists_eq_succ_of_ne_zero (Nat.ne_of_gt (Nat.zero_lt_of_lt hn))
    rw [List.forall_mem_cons] at hitems
    obtain ⟨⟨ha, hread⟩, hitems⟩ := hitems
    cases items with
    | nil => exact items?_last ha hread (Nat.le_of_lt_succ hn) r
    | cons b items =>
      rw [compactItems, List.length_append, List.length_cons] at hn
      rw [compactItems, List.append_assoc, List.cons_append, items?_more ha hread (by omega),
        ih (List.cons_ne_nil _ _) hitems (by omega)]
      rfl

theorem skipSpace_quote (k : String) (r : List Char) :
    skipSpace (quote k ++ r) = '"' :: (k.toList.flatMap escape ++ '"' :: r) := by
  simp [quote, skipSpace_cons (show isSpace '"' = false from rfl)]

/-- The last of some members. -/
theorem members?_last {k : String} {a : Json} (ha : Exact a) (hread : Reads a)
    (hn : a.compactChars.length ≤ n) (r : List Char) :
    members? (n + 1) (quote k ++ ':' :: (a.compactChars ++ '\x7d' :: r))
      = some ([(some k, a.document)], r) := by
  rw [members?, skipSpace_quote]
  show (string? _).bind _ = _
  rw [string?_quote]
  show (value? n (skipSpace _)).bind _ = _
  rw [skipSpace_compactChars ha, hread hn (ends_cons rfl (by decide))]
  rfl

/-- A member that others follow. -/
theorem members?_more {k : String} {a : Json} (ha : Exact a) (hread : Reads a)
    (hn : a.compactChars.length ≤ n) (r : List Char) :
    members? (n + 1) (quote k ++ ':' :: (a.compactChars ++ ',' :: r))
      = (members? n r).map fun (ms, r) => ((some k, a.document) :: ms, r) := by
  rw [members?, skipSpace_quote]
  show (string? _).bind _ = _
  rw [string?_quote]
  show (value? n (skipSpace _)).bind _ = _
  rw [skipSpace_compactChars ha, hread hn (ends_cons rfl (by decide))]
  show (members? n r).bind _ = _
  cases members? n r <;> rfl

/-- The members of an object are read back one after the other; each value can be, and the text
behind it, a comma or a brace, ends it. -/
theorem members?_compactMembers {members : List (String × Json)} (hne : members ≠ [])
    (hmembers : ∀ m ∈ members, Exact m.2 ∧ Reads m.2)
    (hn : (compactMembers members).length < n) (r : List Char) :
    members? n (compactMembers members ++ '\x7d' :: r) = some (memberDocuments members, r) := by
  induction members generalizing n with
  | nil => exact absurd rfl hne
  | cons member members ih =>
    obtain ⟨k, a⟩ := member
    obtain ⟨m, rfl⟩ := Nat.exists_eq_succ_of_ne_zero (Nat.ne_of_gt (Nat.zero_lt_of_lt hn))
    rw [List.forall_mem_cons] at hmembers
    obtain ⟨⟨(ha : Exact a), (hread : Reads a)⟩, hmembers⟩ := hmembers
    cases members with
    | nil =>
      rw [compactMembers, List.length_append, List.length_cons] at hn
      rw [compactMembers, List.append_assoc, List.cons_append, members?_last ha hread (by omega)]
      rfl
    | cons b members =>
      simp only [compactMembers, List.length_append, List.length_cons] at hn
      have htext : compactMembers ((k, a) :: b :: members) ++ '\x7d' :: r
          = quote k ++ ':' :: (a.compactChars ++ ',' :: (compactMembers (b :: members)
            ++ '\x7d' :: r)) := by
        simp [compactMembers]
      rw [htext, members?_more ha hread (by omega), ih (List.cons_ne_nil _ _) hmembers (by omega)]
      rfl

theorem value?_int (i : Int) (hr : Ends r) :
    value? (n + 1) (intText i ++ r) = some (.number (.ofInt i), r) := by
  have hnumeral := numeral?_intText i hr
  obtain ⟨c, cs, hi, hc⟩ := intText_head i
  rw [hi, List.cons_append] at hnumeral ⊢
  have hne : ∀ d, d ≠ '-' → d.isDigit = false → c ≠ d := by
    rintro d hd hdigit rfl
    rcases hc with hc | hc
    · exact hd hc
    · rw [hdigit] at hc
      cases hc
  rw [value?]
  · rw [hnumeral]
    rfl
  all_goals exact hne _ (by decide) rfl

/-- What a value starts with that is not empty. -/
theorem compactItems_head {items : List Json} (hne : items ≠ [])
    (hitems : ∀ a ∈ items, Exact a) :
    ∃ c cs, compactItems items = c :: cs ∧ isSpace c = false ∧ c ≠ ']' := by
  cases items with
  | nil => exact absurd rfl hne
  | cons a items =>
    obtain ⟨c, cs, ha, hc⟩ := compactChars_head (hitems a List.mem_cons_self)
    cases items with
    | nil => exact ⟨c, cs, ha, hc⟩
    | cons b items => exact ⟨c, _, by rw [compactItems, ha]; rfl, hc⟩

theorem value?_items {c : Char} (hspace : isSpace c = false) (hc : c ≠ ']') (r : List Char) :
    value? (n + 1) ('[' :: c :: r) = (items? n (c :: r)).map fun (ds, r) => (.array ds, r) := by
  rw [value?, skipSpace_cons hspace]
  split
  · next h =>
    cases h
    exact absurd rfl hc
  · rfl

/-- A value is read in at least one level of the recursion, because no text is empty. -/
theorem reads_of_succ {j : Json} (h : Exact j)
    (hread : ∀ m r, j.compactChars.length ≤ m + 1 → Ends r →
      value? (m + 1) (j.compactChars ++ r) = some (j.document, r)) : Reads j := by
  intro n r hn hr
  obtain ⟨c, cs, hj, -⟩ := compactChars_head h
  cases n with
  | zero =>
    rw [hj, List.length_cons] at hn
    exact absurd hn (Nat.not_succ_le_zero _)
  | succ m => exact hread m r hn hr

theorem reads_array {items : List Json} (hitems : ∀ a ∈ items, Exact a ∧ Reads a) :
    Reads (.array items) := by
  refine reads_of_succ (.array fun a ha => (hitems a ha).1) fun m r hn _ => ?_
  simp only [compactChars, List.length_cons, List.length_append, List.length_nil] at hn
  have htext : (Json.array items).compactChars ++ r = '[' :: (compactItems items ++ ']' :: r) := by
    simp [compactChars]
  rw [htext]
  rcases eq_or_ne items [] with rfl | hne
  · rfl
  · have hread := items?_compactItems hne hitems (n := m) (by omega) r
    obtain ⟨c, cs, hi, hspace, hc⟩ := compactItems_head hne fun a ha => (hitems a ha).1
    rw [hi, List.cons_append] at hread ⊢
    rw [value?_items hspace hc, hread]
    rfl

/-- An object is read back if the values in it are. -/
theorem reads_object {members : List (String × Json)}
    (hmembers : ∀ m ∈ members, Exact m.2 ∧ Reads m.2) : Reads (.object members) := by
  refine reads_of_succ (.object fun a ha => (hmembers a ha).1) fun m r hn _ => ?_
  simp only [compactChars, List.length_cons, List.length_append, List.length_nil] at hn
  have htext : (Json.object members).compactChars ++ r
      = '\x7b' :: (compactMembers members ++ '\x7d' :: r) := by
    simp [compactChars]
  rw [htext]
  cases members with
  | nil => rfl
  | cons member members =>
    have hread := members?_compactMembers (List.cons_ne_nil _ _) hmembers (n := m) (by omega) r
    obtain ⟨cs, hhead⟩ : ∃ cs, compactMembers (member :: members) = '"' :: cs := by
      cases members <;> exact ⟨_, rfl⟩
    rw [hhead, List.cons_append] at hread ⊢
    show (members? m ('"' :: (cs ++ '\x7d' :: r))).map _ = _
    rw [hread]
    rfl

/-- A value without floating-point numbers is read off the front of a text. -/
theorem reads_of_exact {j : Json} (h : Exact j) : Reads j := by
  induction h with
  | null => exact reads_of_succ .null fun _ _ _ _ => rfl
  | bool b => exact reads_of_succ (.bool b) fun _ _ _ _ => by cases b <;> rfl
  | int i => exact reads_of_succ (.int i) fun _ _ _ hr => value?_int i hr
  | string s =>
    refine reads_of_succ (.string s) fun m r _ _ => ?_
    have htext : (Json.string s).compactChars ++ r
        = '"' :: (s.toList.flatMap escape ++ '"' :: r) := by
      simp [compactChars, quote]
    rw [htext]
    show (string? (s.toList.flatMap escape ++ '"' :: r)).map _ = _
    rw [string?_quote]
    rfl
  | array h ih => exact reads_array fun a ha => ⟨h a ha, ih a ha⟩
  | object h ih => exact reads_object fun m hm => ⟨h m hm, ih m hm⟩

/-- The compact text of a value without floating-point numbers writes its document. -/
theorem ofText?_compact {j : Json} (h : Exact j) : ofText? j.compact = some j.document := by
  have hread := reads_of_exact h (n := 2 * j.compactChars.length + 2) (by omega) ends_nil
  have hspace := skipSpace_compactChars h []
  rw [List.append_nil] at hread hspace
  rw [ofText?, compact, String.toList_ofList, ofChars?, hspace, hread]
  rfl

end Document

end Json

end RunControl
