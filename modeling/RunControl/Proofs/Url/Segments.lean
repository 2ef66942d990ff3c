/-
RunControl/Proofs/Url/Segments.lean

The segments of a path that was read.  There is one at least, and no segment has a slash in it
(`pathAfter_ne_nil`, `unslashed_pathAfter`): the characters between two slashes have none, writing
some of them with a percent sign brings none in, and the dots that lead back only take segments
away.

So a path that was read ends with a slash exactly if its last segment is empty, and to close a
path is to put a slash behind its text where there is none (`text_closedSegments`).  A slash at
the end of what is read makes an empty segment, unless there is one already; closing the path
comes to the same with and without it (`closed_pathAfter_concat`).
-/
import RunControl.Url.Parse

namespace RunControl.Url

/-! ### Splitting -/

section Splitting

variable {isSep : Char → Bool} {cs part : List Char} {c : Char}

theorem splitWhere_eq_splitOnP (isSep : Char → Bool) (cs : List Char) :
    splitWhere isSep cs = cs.splitOnP isSep := by
  induction cs with
  | nil => rfl
  | cons c cs ih =>
    rw [splitWhere, List.splitOnP_cons_eq_if_modifyHead, ih]
    split
    · rfl
    · cases h : cs.splitOnP isSep with
      | nil => exact absurd h (List.splitOnP_ne_nil isSep cs)
      | cons part parts => rfl

theorem splitWhere_concat (h : isSep c = true) (cs : List Char) :
    splitWhere isSep (cs ++ [c]) = splitWhere isSep cs ++ [[]] := by
  rw [splitWhere_eq_splitOnP, splitWhere_eq_splitOnP]
  exact List.splitOnP_append_cons cs [] h

/-- The parts consist of what is not a separator. -/
theorem not_isSep_of_mem_splitWhere (h : part ∈ splitWhere isSep cs) (hc : c ∈ part) :
    isSep c = false := by
  induction cs generalizing part with
  | nil =>
    obtain rfl := List.mem_singleton.mp h
    cases hc
  | cons d cs ih =>
    unfold splitWhere at h
    split at h
    · rcases List.mem_cons.mp h with rfl | h
      · cases hc
      · exact ih h hc
    · next hd =>
      have hd : isSep d = false := Bool.eq_false_iff.mpr hd
      split at h
      · obtain rfl := List.mem_singleton.mp h
        rwa [List.mem_singleton.mp hc]
      · next first parts hs =>
        rw [hs] at ih
        rcases List.mem_cons.mp h with rfl | h
        · rcases List.mem_cons.mp hc with rfl | hc
          · exact hd
          · exact ih List.mem_cons_self hc
        · exact ih (List.mem_cons_of_mem _ h) hc

/-- What does not end with a separator has a last part that is not empty. -/
theorem exists_splitWhere_eq_concat (h : cs.getLast? = some c) (hc : isSep c = false) :
    ∃ parts part, splitWhere isSep cs = parts ++ [part] ∧ part ≠ [] := by
  induction cs with
  | nil => cases h
  | cons d cs ih =>
    unfold splitWhere
    rcases cs with - | ⟨e, cs⟩
    · obtain rfl : d = c := Option.some.inj h
      rw [hc]
      exact ⟨[], [d], rfl, List.cons_ne_nil _ _⟩
    · rw [List.getLast?_cons_cons] at h
      obtain ⟨parts, part, hs, hne⟩ := ih h
      rw [hs]
      split
      · exact ⟨[] :: parts, part, rfl, hne⟩
      · -- the first part grows, and it may be the last one as well
        rcases parts with - | ⟨first, parts⟩
        · exact ⟨[], d :: part, rfl, List.cons_ne_nil _ _⟩
        · exact ⟨(d :: first) :: parts, part, rfl, hne⟩

end Splitting

/-! ### Writing with percent signs -/

theorem slash_not_mem_percentByte (b : UInt8) : '/' ∉ percentByte b := by
  have hdigit : ∀ n < 16, (Text.hexDigit n).toUpper ≠ '/' := by decide
  have hb : b.toNat < 256 := b.toNat_lt
  intro h
  rcases List.mem_cons.mp h with h | h
  · cases h
  · rcases List.mem_cons.mp h with h | h
    · exact hdigit _ (by omega) h.symm
    · exact hdigit _ (by omega) (List.mem_singleton.mp h).symm

theorem slash_not_mem_percentEncode {cs : List Char} (isSpecial : Char → Bool) (h : '/' ∉ cs) :
    '/' ∉ percentEncode isSpecial cs := by
  intro hm
  obtain ⟨c, hc, hm⟩ := List.mem_flatMap.mp hm
  split at hm
  · obtain ⟨b, -, hb⟩ := List.mem_flatMap.mp hm
    exact slash_not_mem_percentByte b hb
  · obtain rfl := List.mem_singleton.mp hm
    exact h hc

/-- No character is encoded as nothing. -/
theorem percentEncode_ne_nil {cs : List Char} (isSpecial : Char → Bool) (h : cs ≠ []) :
    percentEncode isSpecial cs ≠ [] := by
  obtain ⟨c, cs, rfl⟩ := List.exists_cons_of_ne_nil h
  have hbytes : Text.Utf8.encodeChar c ≠ [] := by
    unfold Text.Utf8.encodeChar
    dsimp only
    split
    · exact List.cons_ne_nil _ _
    · split
      · exact List.cons_ne_nil _ _
      · split <;> exact List.cons_ne_nil _ _
  intro he
  have hc := List.flatMap_eq_nil_iff.mp he c List.mem_cons_self
  split at hc
  · obtain ⟨b, bs, hb⟩ := List.exists_cons_of_ne_nil hbytes
    rw [hb] at hc
    cases hc
  · cases hc

/-! ### Following segments -/

variable {ss : List String} {parts : List (List Char)} {part : List Char} {isLast : Bool}

/-- No segment has a slash in it. -/
def Unslashed (ss : List String) : Prop :=
  ∀ s ∈ ss, '/' ∉ s.toList

theorem Unslashed.append {ss' : List String} (h : Unslashed ss) (h' : Unslashed ss') :
    Unslashed (ss ++ ss') :=
  List.forall_mem_append.mpr ⟨h, h'⟩

theorem Unslashed.dropLast (h : Unslashed ss) : Unslashed ss.dropLast :=
  fun s hs => h s (List.dropLast_subset ss hs)

theorem unslashed_trail (isLast : Bool) : Unslashed (if isLast then [""] else []) := by
  cases isLast with
  | true => exact List.forall_mem_singleton.mpr (by decide)
  | false => exact List.forall_mem_nil _

/-- Where an address has a host, nothing is said about drive letters. -/
theorem enter_special (ss : List String) (part : List Char) (isLast : Bool) :
    enter .special ss part isLast =
      if plainDots part = ['.', '.'] then ss.dropLast ++ (if isLast then [""] else [])
      else if plainDots part = ['.'] then ss ++ (if isLast then [""] else [])
      else ss ++ [String.ofList (percentEncode notInPath part)] := by
  rfl

theorem Unslashed.enter (h : Unslashed ss) (hp : '/' ∉ part) (isLast : Bool) :
    Unslashed (enter .special ss part isLast) := by
  rw [enter_special]
  split
  · exact h.dropLast.append (unslashed_trail isLast)
  · split
    · exact h.append (unslashed_trail isLast)
    · refine h.append (List.forall_mem_singleton.mpr ?_)
      rw [String.toList_ofList]
      exact slash_not_mem_percentEncode _ hp

theorem Unslashed.walk (h : Unslashed ss) (hp : ∀ part ∈ parts, '/' ∉ part) :
    Unslashed (walk .special ss parts) := by
  induction parts generalizing ss with
  | nil => exact h
  | cons part parts ih =>
    rw [List.forall_mem_cons] at hp
    rcases parts with - | ⟨next, parts⟩
    · exact h.enter hp.1 true
    · exact ih (h.enter hp.1 false) hp.2

/-- At the end of a path there is a segment, if only an empty one. -/
theorem enter_last_ne_nil (ss : List String) (part : List Char) :
    enter .special ss part true ≠ [] := by
  rw [enter_special]
  split
  · simp
  · split <;> simp

theorem walk_ne_nil (ss : List String) (hp : parts ≠ []) : walk .special ss parts ≠ [] := by
  induction parts generalizing ss with
  | nil => exact absurd rfl hp
  | cons part parts ih =>
    rcases parts with - | ⟨next, parts⟩
    · exact enter_last_ne_nil ss part
    · exact ih _ (List.cons_ne_nil _ _)

/-! ### Closed paths -/

/-- Segments with an empty one at the end. -/
def closedSegments (ss : List String) : List String :=
  if ss.getLast? = some "" then ss else ss ++ [""]

theorem Path.closed_segments (ss : List String) :
    (Path.segments ss).closed = .segments (closedSegments ss) := by
  unfold Path.closed closedSegments
  dsimp only
  split <;> rfl

theorem closedSegments_concat_empty (ss : List String) :
    closedSegments (ss ++ [""]) = ss ++ [""] := by
  simp [closedSegments]

theorem closedSegments_concat {s : String} (h : s ≠ "") (ss : List String) :
    closedSegments (ss ++ [s]) = ss ++ [s, ""] := by
  simp [closedSegments, h]

/-- A slash behind a segment makes no difference to the closed path. -/
theorem closed_enter_enter (ss : List String) (h : part ≠ []) :
    closedSegments (enter .special (enter .special ss part false) [] true)
      = closedSegments (enter .special ss part true) := by
  have hempty : ∀ ss, enter .special ss [] true = ss ++ [""] := fun ss => by
    rw [enter_special]
    rfl
  rw [hempty, closedSegments_concat_empty, enter_special, enter_special]
  split
  · simp [closedSegments_concat_empty]
  · split
    · simp [closedSegments_concat_empty]
    · have hs : String.ofList (percentEncode notInPath part) ≠ "" := by
        intro he
        exact percentEncode_ne_nil notInPath h (String.ofList_eq_empty_iff.mp he)
      rw [closedSegments_concat hs, List.append_assoc]
      rfl

theorem closed_walk_concat (ss : List String) (h : part ≠ []) (parts : List (List Char)) :
    closedSegments (walk .special ss (parts ++ [part] ++ [[]]))
      = closedSegments (walk .special ss (parts ++ [part])) := by
  induction parts generalizing ss with
  | nil => exact closed_enter_enter ss h
  | cons first parts ih =>
    -- another segment follows the first one with and without the slash
    rcases parts with - | ⟨next, parts⟩
    · exact ih _
    · exact ih _

/-! ### Paths that were read -/

variable {cs : List Char} {c : Char}

theorem pathFrom_special (cs : List Char) :
    pathFrom .special cs = walk .special [] (splitWhere (Kind.isSlash .special) cs) := by
  rfl

theorem splitWhere_ne_nil (isSep : Char → Bool) (cs : List Char) : splitWhere isSep cs ≠ [] := by
  rw [splitWhere_eq_splitOnP]
  exact List.splitOnP_ne_nil isSep cs

theorem pathAfter_ne_nil (cs : List Char) : pathAfter .special cs ≠ [] := by
  have hfrom : ∀ cs, pathFrom .special cs ≠ [] := fun cs =>
    walk_ne_nil [] (splitWhere_ne_nil _ cs)
  unfold pathAfter
  split
  · exact List.cons_ne_nil _ _
  · split <;> exact hfrom _

theorem unslashed_pathAfter (cs : List Char) : Unslashed (pathAfter .special cs) := by
  have hfrom : ∀ cs, Unslashed (pathFrom .special cs) := by
    intro cs
    rw [pathFrom_special]
    refine Unslashed.walk (List.forall_mem_nil _) fun part hp hc => ?_
    have hsep : Kind.isSlash .special '/' = false := not_isSep_of_mem_splitWhere hp hc
    cases hsep
  unfold pathAfter
  split
  · exact List.forall_mem_singleton.mpr (by decide)
  · split <;> exact hfrom _

/-- One more slash at the end makes no difference to the closed path. -/
theorem closed_pathAfter_concat (hc : Kind.isSlash .special c = true)
    (hcs : ∀ d, cs.head? = some d → Kind.isSlash .special d = true)
    (h : ∀ d, cs.getLast? = some d → Kind.isSlash .special d = false) :
    closedSegments (pathAfter .special (cs ++ [c])) = closedSegments (pathAfter .special cs) := by
  rcases cs with - | ⟨d, cs⟩
  · -- without a path there is the empty segment
    simp only [List.nil_append, pathAfter, hc, if_true]
    rfl
  · have hd : Kind.isSlash .special d = true := hcs d rfl
    simp only [List.cons_append, pathAfter, hd, if_true, pathFrom_special,
      splitWhere_concat hc]
    -- what comes after the first slash is not empty, for the path would end with that slash
    rcases hl : cs.getLast? with - | e
    · rw [List.getLast?_eq_none_iff.mp hl] at h
      rw [h d rfl] at hd
      cases hd
    · have he : Kind.isSlash .special e = false := by
        apply h
        rw [List.getLast?_cons, hl]
        rfl
      obtain ⟨parts, part, hs, hne⟩ := exists_splitWhere_eq_concat hl he
      rw [hs]
      exact closed_walk_concat [] hne parts

/-! ### Texts of paths -/

theorem Path.text_append (ss ss' : List String) :
    (Path.segments (ss ++ ss')).text = (Path.segments ss).text ++ (Path.segments ss').text := by
  simp only [Path.text, List.map_append, String.join_append]

theorem Path.text_singleton (s : String) : (Path.segments [s]).text = "/" ++ s := by
  simp [Path.text, String.join_cons]

/-- Whether a text ends with a slash. -/
def endsWithSlash (s : String) : Bool :=
  s.toList.getLast? == some '/'

/-- The text of a path ends with a slash exactly if its last segment is empty. -/
theorem endsWithSlash_text {s : String} (h : '/' ∉ s.toList) (ss : List String) :
    endsWithSlash (Path.segments (ss ++ [s])).text = true ↔ s = "" := by
  rw [Path.text_append, Path.text_singleton, endsWithSlash, beq_iff_eq, String.toList_append,
    String.toList_append]
  constructor
  · intro hl
    rcases List.eq_nil_or_concat s.toList with hs | ⟨init, last, hs⟩
    · exact String.toList_eq_nil_iff.mp hs
    · -- the slash would be the last character of the segment
      rw [List.concat_eq_append] at hs
      rw [hs, ← List.append_assoc, ← List.append_assoc, List.getLast?_concat] at hl
      rw [hs, Option.some.inj hl] at h
      exact absurd (List.mem_append_right _ (List.mem_singleton_self _)) h
  · intro he
    rw [he]
    exact List.getLast?_concat

/-- To close a path that was read is to put a slash behind its text where there is none. -/
theorem text_closedSegments (hss : ss ≠ []) (h : Unslashed ss) :
    (Path.segments (closedSegments ss)).text =
      if endsWithSlash (Path.segments ss).text then (Path.segments ss).text
      else (Path.segments ss).text ++ "/" := by
  obtain ⟨init, s, rfl⟩ := List.eq_nil_or_concat ss |>.resolve_left hss
  rw [List.concat_eq_append] at h ⊢
  have hs : '/' ∉ s.toList := h s (List.mem_append_right _ (List.mem_singleton_self _))
  have hends := endsWithSlash_text hs init
  by_cases he : s = ""
  · rw [if_pos (hends.mpr he), he, closedSegments_concat_empty]
  · rw [if_neg fun hslash => he (hends.mp hslash), closedSegments_concat he,
      show init ++ [s, ""] = init ++ [s] ++ [""] by simp, Path.text_append]
    rfl

end RunControl.Url
