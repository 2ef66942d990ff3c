/-
RunControl/Proofs/Url/References.lean

Where references lead that stand next to an address.  Segments without dots, drive letters and
characters that have to be written with a percent sign stand for themselves, so following them puts
them at the end of the path (`walk_of_plain`).  A reference of such segments changes nothing but
the path of the address, whose last segment they replace, and drops its query and its fragment
(`follow?_beside`).

The segments of a text are those of the path that this text has after one slash
(`text_segmentsOf`).
-/
import Mathlib.Data.List.TakeWhile
import RunControl.Proofs.Url.Segments
import RunControl.Url.Reference

namespace RunControl.Url

variable {u : Url} {kind : Kind} {ss : List String} {cs part : List Char}
  {parts : List (List Char)}

/-! ### Segments that stand for themselves -/

/-- A segment that stands for itself. -/
structure IsPlain (part : List Char) : Prop where
  dots : plainDots part ≠ ['.', '.'] ∧ plainDots part ≠ ['.']
  drive : isDrive part = false
  encoded : percentEncode notInPath part = part

instance (part : List Char) : Decidable (IsPlain part) :=
  decidable_of_iff ((plainDots part ≠ ['.', '.'] ∧ plainDots part ≠ ['.']) ∧
    isDrive part = false ∧ percentEncode notInPath part = part)
    ⟨fun h => ⟨h.1, h.2.1, h.2.2⟩, fun h => ⟨h.dots, h.drive, h.encoded⟩⟩

theorem enter_of_plain (h : IsPlain part) (kind : Kind) (ss : List String) (isLast : Bool) :
    enter kind ss part isLast = ss ++ [String.ofList part] := by
  have hdrive : ¬(kind = .file ∧ ss.isEmpty = true ∧ isDrive part = true) := by
    rw [h.drive]
    simp
  unfold enter
  dsimp only
  rw [if_neg h.dots.1, if_neg h.dots.2, if_neg hdrive, h.encoded]

/-- Segments that stand for themselves come to the end of the path. -/
theorem walk_of_plain (h : ∀ part ∈ parts, IsPlain part) (kind : Kind) (ss : List String) :
    walk kind ss parts = ss ++ parts.map String.ofList := by
  induction parts generalizing ss with
  | nil => exact (List.append_nil ss).symm
  | cons part parts ih =>
    rw [List.forall_mem_cons] at h
    rcases parts with - | ⟨next, parts⟩
    · exact enter_of_plain h.1 kind ss true
    · -- the first segment is at the end already when the others follow
      show walk kind (enter kind ss part false) (next :: parts) = _
      rw [enter_of_plain h.1, ih h.2, List.append_assoc]
      rfl

/-! ### References next to an address -/

theorem splitTail_of_plain (hq : '?' ∉ cs) (hf : '#' ∉ cs) (kind : Kind) :
    splitTail kind cs = (cs, none, none) := by
  have stays (mark : Char) (h : mark ∉ cs) :
      cs.takeWhile (· != mark) = cs ∧ cs.dropWhile (· != mark) = [] := by
    have hall : ∀ c ∈ cs, (c != mark) = true := fun c hc =>
      bne_iff_ne.mpr fun he => h (he ▸ hc)
    exact ⟨List.takeWhile_eq_self_iff.mpr hall, List.dropWhile_eq_nil_iff.mpr hall⟩
  obtain ⟨htake, hdrop⟩ := stays '#' hf
  obtain ⟨htake', hdrop'⟩ := stays '?' hq
  unfold splitTail
  dsimp only
  rw [htake, hdrop, htake', hdrop']

/-- Segments that stand for themselves, next to an address with a slash at the end of its path,
come after all segments of that path. -/
theorem follow?_beside (hpath : u.path = .segments (ss ++ [""])) (hq : '?' ∉ cs) (hf : '#' ∉ cs)
    (hplain : ∀ part ∈ splitWhere (Kind.ofScheme u.scheme).isSlash cs, IsPlain part) :
    u.follow? (.beside cs) = .ok
      { scheme := u.scheme, authority := u.authority
        path := .segments
          (ss ++ (splitWhere (Kind.ofScheme u.scheme).isSlash cs).map String.ofList) } := by
  have hdrop : dropLast (Kind.ofScheme u.scheme) (ss ++ [""]) = ss := by
    unfold dropLast
    split
    · next s hkind hs =>
      -- the only segment is the empty one, which is no drive letter
      obtain ⟨rfl, rfl⟩ : ss = [] ∧ "" = s := by
        rcases ss with - | ⟨s', ss⟩
        · exact ⟨rfl, (List.cons.inj hs).1⟩
        · simp at hs
      rfl
    · exact List.dropLast_concat
  unfold follow?
  rw [hpath]
  dsimp only
  rw [splitTail_of_plain hq hf, hdrop]
  dsimp only
  rw [walk_of_plain hplain]

/-! ### Texts of segments -/

/-- The segments of a text make up the path that this text has after one slash. -/
theorem text_segmentsOf (text : String) :
    (Path.segments (segmentsOf text)).text = "/" ++ text := by
  have hcons (part : List Char) (parts : List (List Char)) :
      (Path.segments ((part :: parts).map String.ofList)).text.toList
        = '/' :: part ++ (Path.segments (parts.map String.ofList)).text.toList := by
    rw [List.map_cons, ← List.singleton_append, Path.text_append, Path.text_singleton,
      String.toList_append, String.toList_append, String.toList_ofList, String.toList_ofList]
    rfl
  have key (cs : List Char) : (Path.segments
      ((splitWhere (· == '/') cs).map String.ofList)).text.toList = '/' :: cs := by
    induction cs with
    | nil => rfl
    | cons c cs ih =>
      unfold splitWhere
      split
      · next hc =>
        -- a slash starts the next segment
        rw [hcons, ih, beq_iff_eq.mp hc]
        rfl
      · split
        · next hs => exact absurd hs (splitWhere_ne_nil _ cs)
        · next part parts hs =>
          -- any other character makes the first segment longer
          rw [hs, hcons] at ih
          rw [hcons]
          exact congrArg (fun r => '/' :: c :: r) (List.cons.inj ih).2
  rw [← String.toList_inj, String.toList_append]
  exact key text.toList

end RunControl.Url
