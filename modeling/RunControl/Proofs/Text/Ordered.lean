/-
RunControl/Proofs/Text/Ordered.lean

Texts whose order is that of numbers.  Two texts of one length compare as two numbers do
(`Ordered`) if they are padded numbers (`ordered_padded`), and they go on doing so when the same
character is put between them and further ones (`Ordered.append`): the numbers behind count for
less than one of those in front.
-/
import RunControl.Proofs.Text.Scanning

namespace RunControl.Text

/-! ### The order of lists -/

section
variable {a b x y : List Char}

/-- Behind beginnings of one length it is only between equal ones that the ends matter. -/
theorem append_lt_append_iff (h : a.length = b.length) :
    a ++ x < b ++ y ↔ a < b ∨ a = b ∧ x < y := by
  induction a generalizing b with
  | nil =>
    obtain rfl : b = [] := List.length_eq_zero_iff.mp h.symm
    simp
  | cons c a ih =>
    cases b with
    | nil => cases h
    | cons d b =>
      rw [List.cons_append, List.cons_append, List.cons_lt_cons_iff, List.cons_lt_cons_iff,
        ih (Nat.succ.inj h), List.cons.injEq, and_or_left, ← or_assoc, and_assoc]

end

/-! ### Texts that compare as numbers do -/

/-- Two texts of one length stand to each other as two numbers do. -/
structure Ordered (a b : List Char) (k l : Int) : Prop where
  length : a.length = b.length
  lt : a < b ↔ k < l
  gt : b < a ↔ l < k

variable {a b x y : List Char} {k l m n : Int}

namespace Ordered

theorem eq_iff (h : Ordered a b k l) : a = b ↔ k = l := by
  constructor
  · rintro rfl
    have hlt : ¬k < l := fun hkl => List.lt_irrefl _ (h.lt.mpr hkl)
    have hgt : ¬l < k := fun hlk => List.lt_irrefl _ (h.gt.mpr hlk)
    omega
  · rintro rfl
    have hlt : ¬a < b := fun hab => Int.lt_irrefl _ (h.lt.mp hab)
    have hgt : ¬b < a := fun hba => Int.lt_irrefl _ (h.gt.mp hba)
    exact List.le_antisymm (List.not_lt.mp hgt) (List.not_lt.mp hlt)

theorem symm (h : Ordered a b k l) : Ordered b a l k where
  length := h.length.symm
  lt := h.gt
  gt := h.lt

/-- The numbers may be others that compare in the same way. -/
theorem of_iff (h : Ordered a b k l) (hlt : k < l ↔ m < n) (hgt : l < k ↔ n < m) :
    Ordered a b m n where
  length := h.length
  lt := h.lt.trans hlt
  gt := h.gt.trans hgt

theorem cons (c : Char) (h : Ordered a b k l) : Ordered (c :: a) (c :: b) k l where
  length := congrArg (· + 1) h.length
  lt := by simp [h.lt]
  gt := by simp [h.gt]

/-- What comes behind is written with numbers below `w`. -/
theorem append {w : Nat} (h : Ordered a b k l) (h' : Ordered x y m n) (hm : 0 ≤ m ∧ m < w)
    (hn : 0 ≤ n ∧ n < w) : Ordered (a ++ x) (b ++ y) (k * w + m) (l * w + n) where
  length := by rw [List.length_append, List.length_append, h.length, h'.length]
  lt := by
    rw [append_lt_append_iff h.length, h.lt, h.eq_iff, h'.lt]
    exact (lex_iff hm hn).symm
  gt := by
    rw [append_lt_append_iff h.length.symm, h.gt, h.symm.eq_iff, h'.gt]
    exact (lex_iff hn hm).symm
where
  lex_iff {k l m n : Int} {w : Nat} (hm : 0 ≤ m ∧ m < w) (hn : 0 ≤ n ∧ n < w) :
      k * w + m < l * w + n ↔ k < l ∨ k = l ∧ m < n := by
    rcases Int.lt_trichotomy k l with hlt | rfl | hgt
    · have hw : (k + 1) * w ≤ l * w := Int.mul_le_mul_of_nonneg_right hlt (Int.natCast_nonneg w)
      rw [Int.add_mul, Int.one_mul] at hw
      omega
    · omega
    · have hw : (l + 1) * w ≤ k * w := Int.mul_le_mul_of_nonneg_right hgt (Int.natCast_nonneg w)
      rw [Int.add_mul, Int.one_mul] at hw
      omega

end Ordered

theorem digitChar_lt_iff :
    ∀ i < 10, ∀ j < 10, [Nat.digitChar i] < [Nat.digitChar j] ↔ i < j := by
  decide

theorem ordered_digitChar {i j : Nat} (hi : i < 10) (hj : j < 10) :
    Ordered [Nat.digitChar i] [Nat.digitChar j] i j where
  length := rfl
  lt := (digitChar_lt_iff i hi j hj).trans Int.ofNat_lt.symm
  gt := (digitChar_lt_iff j hj i hi).trans Int.ofNat_lt.symm

/-- Padded numbers compare as the numbers do. -/
theorem ordered_padded {w i j : Nat} (hi : i < Nat.pow 10 w) (hj : j < Nat.pow 10 w) :
    Ordered (padded w i) (padded w j) i j := by
  induction w generalizing i j with
  | zero =>
    obtain rfl : i = 0 := Nat.lt_one_iff.mp hi
    obtain rfl : j = 0 := Nat.lt_one_iff.mp hj
    exact ⟨rfl, by simp [padded], by simp [padded]⟩
  | succ w ih =>
    have hi' : i / 10 < Nat.pow 10 w := (Nat.div_lt_iff_lt_mul (by decide)).mpr hi
    have hj' : j / 10 < Nat.pow 10 w := (Nat.div_lt_iff_lt_mul (by decide)).mpr hj
    have hlast := ordered_digitChar (i := i % 10) (j := j % 10) (by omega) (by omega)
    exact ((ih hi' hj').append (w := 10) hlast (by omega) (by omega)).of_iff (by omega) (by omega)

end RunControl.Text
