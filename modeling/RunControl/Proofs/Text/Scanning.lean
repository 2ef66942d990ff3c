/-
RunControl/Proofs/Text/Scanning.lean

What a scan takes off the front of a text, stated for each building block as an equivalence: it
succeeds with a value and a rest exactly if the text is what is written for the value, followed by
the rest.  Scans that go on as long as they can (`takeSome`) need to know in addition that the rest
makes them stop.

A number of fixed width is written as its digits with zeros in front (`padded`).  Reading such
digits and writing such numbers are inverse to each other (`ofDigits_padded`, `padded_ofDigits`),
so `Scan.number` reads the padded numbers and no other texts (`Scan.number_eq_some_iff`).

Where it only matters what kind of values a scan can yield (`Scan.Yields`), there is a rule for each
way of building scans.
-/
import Mathlib.Data.List.Induction
import Mathlib.Data.List.TakeWhile
import Mathlib.Data.Option.Basic
import RunControl.Text.Scan

namespace RunControl.Text

variable {cs r ds : List Char} {c : Char} {n k : Nat}

/-! ### Digits -/

theorem ofDigits_concat (ds : List Char) (c : Char) :
    ofDigits (ds ++ [c]) = 10 * ofDigits ds + digitValue c := by
  rw [ofDigits, List.foldl_append]
  rfl

theorem isDigit_digitChar : ∀ d < 10, (Nat.digitChar d).isDigit = true := by
  decide

theorem digitValue_digitChar : ∀ d < 10, digitValue (Nat.digitChar d) = d := by
  decide

/-- Every digit is that of a number below ten. -/
theorem exists_digitChar (h : c.isDigit = true) : ∃ d < 10, Nat.digitChar d = c := by
  obtain ⟨hl, hu⟩ : 48 ≤ c.toNat ∧ c.toNat ≤ 57 := Char.isDigit_iff_toNat.mp h
  have hd : ∀ d < 10, Nat.digitChar d = Char.ofNat (48 + d) := by decide
  refine ⟨c.toNat - 48, by omega, ?_⟩
  rw [hd _ (by omega), Nat.add_sub_cancel' hl, Char.ofNat_toNat]

/-- The last `n` digits of a number in base ten, with zeros in front. -/
def padded : Nat → Nat → List Char
  | 0, _ => []
  | n + 1, k => padded n (k / 10) ++ [Nat.digitChar (k % 10)]

@[simp] theorem length_padded (n k : Nat) : (padded n k).length = n := by
  induction n generalizing k with
  | zero => rfl
  | succ n ih => simp [padded, ih]

theorem isDigit_of_mem_padded (h : c ∈ padded n k) : c.isDigit = true := by
  induction n generalizing k with
  | zero => cases h
  | succ n ih =>
    rcases List.mem_append.mp h with h | h
    · exact ih h
    · rw [List.mem_singleton.mp h]
      exact isDigit_digitChar _ (Nat.mod_lt _ (by decide))

theorem exists_padded_eq_cons (n k : Nat) :
    ∃ d ds, padded (n + 1) k = d :: ds ∧ d.isDigit = true := by
  have hlen := length_padded (n + 1) k
  rcases h : padded (n + 1) k with - | ⟨d, ds⟩
  · rw [h] at hlen
    cases hlen
  · exact ⟨d, ds, rfl, isDigit_of_mem_padded (h ▸ List.mem_cons_self)⟩

theorem ofDigits_padded (h : k < Nat.pow 10 n) : ofDigits (padded n k) = k := by
  induction n generalizing k with
  | zero =>
    obtain rfl : k = 0 := Nat.lt_one_iff.mp h
    rfl
  | succ n ih =>
    have hk : k / 10 < Nat.pow 10 n := (Nat.div_lt_iff_lt_mul (by decide)).mpr h
    rw [padded, ofDigits_concat, ih hk, digitValue_digitChar _ (Nat.mod_lt _ (by decide)),
      Nat.div_add_mod]

theorem padded_ofDigits (h : ∀ c ∈ ds, c.isDigit = true) :
    padded ds.length (ofDigits ds) = ds ∧ ofDigits ds < Nat.pow 10 ds.length := by
  induction ds using List.reverseRecOn with
  | nil => exact ⟨rfl, by decide⟩
  | append_singleton ds c ih =>
    obtain ⟨hp, hlt⟩ := ih fun c hc => h c (List.mem_append_left _ hc)
    obtain ⟨d, hd, rfl⟩ := exists_digitChar (h c (by simp))
    rw [ofDigits_concat, digitValue_digitChar d hd, List.length_append, List.length_singleton]
    refine ⟨?_, ?_⟩
    · have hdiv : (10 * ofDigits ds + d) / 10 = ofDigits ds := by omega
      have hmod : (10 * ofDigits ds + d) % 10 = d := by omega
      rw [padded, hdiv, hmod, hp]
    · show 10 * ofDigits ds + d < Nat.pow 10 ds.length * 10
      omega

namespace Scan

variable {α β : Type} {a : α} {b : β}

/-! ### One scan after another -/

theorem bind_eq_some_iff {s : Scan α} {f : α → Scan β} :
    (s >>= f) cs = some (b, r) ↔ ∃ a t, s cs = some (a, t) ∧ f a t = some (b, r) := by
  show (s cs).bind (fun p => f p.1 p.2) = some (b, r) ↔ _
  rw [Option.bind_eq_some_iff, Prod.exists]

theorem pure_eq_some_iff {a' : α} : (pure a' : Scan α) cs = some (a, r) ↔ a' = a ∧ cs = r := by
  show some (a', cs) = some (a, r) ↔ _
  rw [Option.some.injEq, Prod.mk.injEq]

theorem map_eq_some_iff {s : Scan α} {f : α → β} :
    (f <$> s) cs = some (b, r) ↔ ∃ a, s cs = some (a, r) ∧ f a = b := by
  rw [← bind_pure_comp, bind_eq_some_iff]
  simp only [pure_eq_some_iff]
  constructor
  · rintro ⟨a, t, h, hb, rfl⟩
    exact ⟨a, h, hb⟩
  · rintro ⟨a, h, hb⟩
    exact ⟨a, r, h, hb, rfl⟩

theorem lift_eq_some_iff {o : Option α} :
    (liftM o : Scan α) cs = some (a, r) ↔ o = some a ∧ cs = r := by
  show (o.bind fun a => some (a, cs)) = some (a, r) ↔ _
  cases o with
  | none => simp
  | some a' => simp

theorem not_failure_eq_some {p : α × List Char} : (failure : Scan α) cs ≠ some p :=
  nofun

theorem whole?_eq_some_iff {s : Scan α} : whole? s cs = some a ↔ s cs = some (a, []) := by
  unfold whole?
  rcases s cs with - | ⟨a', - | ⟨c, r⟩⟩ <;> simp

/-! ### Characters and numbers -/

theorem char_eq_some_iff {wanted : Char → Bool} :
    char wanted cs = some (c, r) ↔ wanted c = true ∧ cs = c :: r := by
  cases cs with
  | nil => simp [char]
  | cons d cs =>
    simp only [char, Option.ite_none_right_eq_some, Option.some.injEq, Prod.mk.injEq,
      List.cons.injEq]
    constructor
    · rintro ⟨hw, rfl, rfl⟩
      exact ⟨hw, rfl, rfl⟩
    · rintro ⟨hw, rfl, rfl⟩
      exact ⟨hw, rfl, rfl⟩

theorem one_eq_some_iff {d : Char} : one d cs = some (c, r) ↔ c = d ∧ cs = d :: r := by
  rw [one, char_eq_some_iff, beq_iff_eq]
  constructor
  · rintro ⟨rfl, h⟩
    exact ⟨rfl, h⟩
  · rintro ⟨rfl, h⟩
    exact ⟨rfl, h⟩

/-- A number is read off exactly the digits that it is padded to. -/
theorem number_eq_some_iff :
    number n cs = some (k, r) ↔ k < Nat.pow 10 n ∧ cs = padded n k ++ r := by
  simp only [number, Option.ite_none_right_eq_some, List.all_eq_true, Option.some.injEq,
    Prod.mk.injEq]
  constructor
  · rintro ⟨⟨hl, hd⟩, rfl, rfl⟩
    obtain ⟨hp, hlt⟩ := padded_ofDigits hd
    rw [hl] at hp hlt
    exact ⟨hlt, by rw [hp, List.take_append_drop]⟩
  · rintro ⟨hk, rfl⟩
    rw [List.take_left' (length_padded n k), List.drop_left' (length_padded n k)]
    exact ⟨⟨length_padded n k, fun c hc => isDigit_of_mem_padded hc⟩, ofDigits_padded hk, rfl⟩

theorem numberBelow_eq_some_iff {bound : Nat} (hb : bound ≤ Nat.pow 10 n) :
    numberBelow n bound cs = some (k, r) ↔ k < bound ∧ cs = padded n k ++ r := by
  rw [numberBelow, bind_eq_some_iff]
  simp only [number_eq_some_iff]
  constructor
  · rintro ⟨m, t, ⟨-, rfl⟩, h⟩
    split at h
    · next hm =>
      obtain ⟨rfl, rfl⟩ := pure_eq_some_iff.mp h
      exact ⟨hm, rfl⟩
    · exact absurd h not_failure_eq_some
  · rintro ⟨hk, rfl⟩
    refine ⟨k, r, ⟨by omega, rfl⟩, ?_⟩
    rw [if_pos hk]
    rfl

/-- A run of wanted characters is read to its end. -/
theorem takeSome_eq_some_iff {wanted : Char → Bool} :
    takeSome wanted cs = some (ds, r) ↔
      (ds ≠ [] ∧ ∀ c ∈ ds, wanted c = true) ∧ cs = ds ++ r ∧
        ∀ c, r.head? = some c → wanted c = false := by
  -- the text is cut where the first unwanted character stands
  have hs : takeSome wanted cs = some (ds, r) ↔
      cs.takeWhile wanted = ds ∧ cs.dropWhile wanted = r ∧ ds ≠ [] := by
    rw [takeSome, bind_eq_some_iff]
    simp only [takeWhile, Option.some.injEq, Prod.mk.injEq]
    constructor
    · rintro ⟨ds', t, ⟨rfl, rfl⟩, h⟩
      split at h
      · exact absurd h not_failure_eq_some
      · next he =>
        obtain ⟨rfl, rfl⟩ := pure_eq_some_iff.mp h
        exact ⟨rfl, rfl, by simpa using he⟩
    · rintro ⟨rfl, rfl, hne⟩
      refine ⟨_, _, ⟨rfl, rfl⟩, ?_⟩
      rw [if_neg (by simpa using hne)]
      rfl
  rw [hs]
  constructor
  · rintro ⟨rfl, rfl, hne⟩
    refine ⟨⟨hne, fun c hc => List.mem_takeWhile_imp hc⟩,
      List.takeWhile_append_dropWhile.symm, ?_⟩
    intro c hc
    have hn := List.head?_dropWhile_not wanted cs
    rw [hc] at hn
    exact hn
  · rintro ⟨⟨hne, hds⟩, rfl, hr⟩
    have hstop : r.takeWhile wanted = [] ∧ r.dropWhile wanted = r := by
      cases r with
      | nil => exact ⟨rfl, rfl⟩
      | cons c r => simp [hr c rfl]
    rw [List.takeWhile_append_of_pos hds, List.dropWhile_append_of_pos hds, hstop.1, hstop.2,
      List.append_nil]
    exact ⟨rfl, rfl, hne⟩

/-! ### What a scan yields -/

/-- Whatever the scan reads has a property. -/
def Yields (P : α → Prop) (s : Scan α) : Prop :=
  ∀ cs a r, s cs = some (a, r) → P a

variable {P : α → Prop} {Q : β → Prop}

theorem yields_pure (h : P a) : Yields P (pure a : Scan α) := by
  intro cs a' r hr
  obtain ⟨rfl, -⟩ := pure_eq_some_iff.mp hr
  exact h

theorem Yields.bind {s : Scan α} {f : α → Scan β} (h : Yields P s)
    (hf : ∀ a, P a → Yields Q (f a)) : Yields Q (s >>= f) := by
  intro cs b r hb
  obtain ⟨a, t, ha, hb⟩ := bind_eq_some_iff.mp hb
  exact hf a (h cs a t ha) t b r hb

/-- Nothing need be known about what is read first. -/
theorem yields_bind {s : Scan α} {f : α → Scan β} (hf : ∀ a, Yields Q (f a)) :
    Yields Q (s >>= f) :=
  Yields.bind (P := fun _ => True) (fun _ _ _ _ => trivial) fun a _ => hf a

theorem Yields.orElse {s t : Scan α} (h : Yields P s) (ht : Yields P t) :
    Yields P (s <|> t) := by
  intro cs a r ha
  rcases (Option.orElse_eq_some _ _ _).mp ha with ha | ⟨-, ha⟩
  · exact h cs a r ha
  · exact ht cs a r ha

theorem yields_map {s : Scan α} {f : α → β} (h : ∀ a, Q (f a)) : Yields Q (f <$> s) := by
  intro cs b r hb
  obtain ⟨a, -, rfl⟩ := map_eq_some_iff.mp hb
  exact h a

theorem Yields.maybe {s : Scan α} (h : Yields P s) :
    Yields (fun o => ∀ a, o = some a → P a) (maybe s) := by
  intro cs o r ho a ha
  unfold Scan.maybe at ho
  split at ho
  · next a' r' hs =>
    cases ho
    cases ha
    exact h _ _ _ hs
  · cases ho
    cases ha

theorem Yields.many {s : Scan α} (h : Yields P s) : Yields (fun as => ∀ a ∈ as, P a) (many s) := by
  intro cs as r has
  obtain rfl : as = (manyFrom s cs).1 := (congrArg Prod.fst (Option.some.inj has)).symm
  clear has
  fun_induction manyFrom s cs with
  | case1 cs a t hs hlt as u ht ih =>
    rw [ht] at ih
    exact List.forall_mem_cons.mpr ⟨h _ _ _ hs, ih⟩
  | case2 | case3 => exact List.forall_mem_nil _

theorem Yields.sepBy {s : Scan α} {sep : Scan β} (h : Yields P s) :
    Yields (fun as => ∀ a ∈ as, P a) (sepBy s sep) := by
  refine h.bind fun a ha => ?_
  refine (Yields.many (yields_bind fun _ => h)).bind fun as has => ?_
  exact yields_pure (List.forall_mem_cons.mpr ⟨ha, has⟩)

theorem Yields.whole? {s : Scan α} (h : Yields P s) {cs : List Char} (ha : whole? s cs = some a) :
    P a :=
  h _ _ _ (whole?_eq_some_iff.mp ha)

end Scan

end RunControl.Text
