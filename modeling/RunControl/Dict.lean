/-
RunControl/Dict.lean

Finite maps from texts, kept in the order of their keys.  The order is the one
of code points, which is also the order of the keys' UTF-8 bytes.  The order is
part of the type, so equal maps have equal entries (`Dict.ext`), and the view of
a map is its list of entries.

`Entries.insert` is the operation on the bare list; a map wraps it with the
proof that the list stays sorted.
-/

namespace RunControl

variable {α β : Type}

/-! ### Sorted lists of entries -/

namespace Entries

/-- The list with `k` bound to `v`, an older binding of `k` replaced. -/
def insert (k : String) (v : α) : List (String × α) → List (String × α)
  | [] => [(k, v)]
  | e :: r =>
    if k < e.1 then (k, v) :: e :: r
    else if k = e.1 then (k, v) :: r
    else e :: insert k v r

/-- The value bound to `k`. -/
def get? (k : String) : List (String × α) → Option α
  | [] => none
  | e :: r => if k = e.1 then some e.2 else get? k r

/-- The keys strictly increase. -/
def Sorted (es : List (String × α)) : Prop :=
  es.Pairwise fun a b => a.1 < b.1

theorem sorted_nil : Sorted ([] : List (String × α)) :=
  List.Pairwise.nil

theorem mem_insert {k : String} {v : α} {es : List (String × α)} {e : String × α}
    (h : e ∈ insert k v es) : e = (k, v) ∨ e ∈ es := by
  induction es with
  | nil => simpa [insert] using h
  | cons a r ih =>
    rw [insert] at h
    split at h
    · simpa using h
    · split at h
      · rcases List.mem_cons.1 h with h | h
        · exact .inl h
        · exact .inr (List.mem_cons_of_mem _ h)
      · rcases List.mem_cons.1 h with h | h
        · exact .inr (h ▸ List.mem_cons_self ..)
        · exact (ih h).imp id (List.mem_cons_of_mem _)

private theorem key_lt_trans {a b c : String} (h₁ : a < b) (h₂ : b < c) : a < c :=
  String.lt_trans h₁ h₂

private theorem key_lt_of_not {a b : String} (h₁ : ¬ a < b) (h₂ : a ≠ b) : b < a :=
  Decidable.byContradiction fun h =>
    h₂ (String.le_antisymm (String.not_lt.1 h) (String.not_lt.1 h₁))

/-- An insertion keeps the keys in order: it is made in front of the first larger key. -/
theorem sorted_insert {k : String} {v : α} {es : List (String × α)} (h : Sorted es) :
    Sorted (insert k v es) := by
  induction es with
  | nil => simp [insert, Sorted]
  | cons a r ih =>
    have hr : Sorted r := List.Pairwise.of_cons h
    have ha : ∀ e ∈ r, a.1 < e.1 := fun e he => List.rel_of_pairwise_cons h he
    rw [insert]
    split
    · next hk =>
      refine List.Pairwise.cons (fun e he => ?_) h
      rcases List.mem_cons.1 he with rfl | he
      · exact hk
      · exact key_lt_trans hk (ha e he)
    · next hk =>
      split
      · next hk' => exact List.Pairwise.cons (fun e he => hk' ▸ ha e he) hr
      · next hk' =>
        refine List.Pairwise.cons (fun e he => ?_) (ih hr)
        rcases mem_insert he with rfl | he
        · exact key_lt_of_not hk hk'
        · exact ha e he

theorem get?_insert_self (k : String) (v : α) (es : List (String × α)) :
    get? k (insert k v es) = some v := by
  induction es with
  | nil => simp [insert, get?]
  | cons a r ih =>
    rw [insert]
    split
    · simp [get?]
    · split
      · simp [get?]
      · next h => simp [get?, h, ih]

theorem get?_insert_of_ne {k k' : String} (h : k' ≠ k) (v : α) (es : List (String × α)) :
    get? k' (insert k v es) = get? k' es := by
  induction es with
  | nil => simp [insert, get?, h]
  | cons a r ih =>
    rw [insert]
    split
    · simp [get?, h]
    · split
      · next hk => simp [get?, h, ← hk]
      · by_cases hk' : k' = a.1 <;> simp [get?, hk', ih]

theorem mem_of_get? {k : String} {v : α} {es : List (String × α)} (h : get? k es = some v) :
    (k, v) ∈ es := by
  induction es with
  | nil => cases h
  | cons a r ih =>
    rw [get?] at h
    split at h
    · next hk =>
      cases h
      exact hk ▸ List.mem_cons_self ..
    · exact List.mem_cons_of_mem _ (ih h)

/-- A key above all others is bound at the end. -/
theorem insert_of_gt {k : String} {v : α} {es : List (String × α)} (h : ∀ e ∈ es, e.1 < k) :
    insert k v es = es ++ [(k, v)] := by
  induction es with
  | nil => rfl
  | cons a r ih =>
    have ha : a.1 < k := h a (List.mem_cons_self ..)
    have hk : ¬ k < a.1 := fun hk => String.lt_irrefl k (key_lt_trans hk ha)
    have hne : k ≠ a.1 := fun he => String.lt_irrefl k (he ▸ ha)
    rw [insert, if_neg hk, if_neg hne, ih fun e he => h e (List.mem_cons_of_mem _ he),
      List.cons_append]

/-- Binding the entries of a sorted list in order builds that list. -/
theorem foldl_insert_of_sorted {acc es : List (String × α)} (h : Sorted (acc ++ es)) :
    es.foldl (fun es e => insert e.1 e.2 es) acc = acc ++ es := by
  induction es generalizing acc with
  | nil => exact (List.append_nil acc).symm
  | cons a r ih =>
    have ha : ∀ e ∈ acc, e.1 < a.1 := fun e he =>
      (List.pairwise_append.1 h).2.2 e he a (List.mem_cons_self ..)
    have hacc : Sorted (acc ++ [a] ++ r) := by rwa [List.append_assoc]
    rw [List.foldl_cons, insert_of_gt ha, ih hacc, List.append_assoc]
    rfl

theorem mem_foldl_insert {acc es : List (String × α)} {e : String × α}
    (h : e ∈ es.foldl (fun es e => insert e.1 e.2 es) acc) : e ∈ acc ∨ e ∈ es := by
  induction es generalizing acc with
  | nil => exact .inl h
  | cons a r ih =>
    rcases ih h with h | h
    · rcases mem_insert h with rfl | h
      · exact .inr (List.mem_cons_self ..)
      · exact .inl h
    · exact .inr (List.mem_cons_of_mem _ h)

/-- The last value that a list gives a key is the one that counts. -/
theorem get?_foldl_insert_of_last {k : String} {v : α} {acc xs ys : List (String × α)}
    (h : ∀ e ∈ ys, e.1 ≠ k) :
    get? k ((xs ++ (k, v) :: ys).foldl (fun es e => insert e.1 e.2 es) acc) = some v := by
  have hys : ∀ es, get? k (ys.foldl (fun es e => insert e.1 e.2 es) es) = get? k es := by
    induction ys with
    | nil => exact fun _ => rfl
    | cons a r ih =>
      intro es
      rw [List.foldl_cons, ih (fun e he => h e (List.mem_cons_of_mem _ he)),
        get?_insert_of_ne (h a (List.mem_cons_self ..)).symm]
  rw [List.foldl_append, List.foldl_cons, hys, get?_insert_self]

end Entries

/-! ### Maps -/

/-- A finite map from texts to `α`, its entries in the order of the keys. -/
structure Dict (α : Type) where
  /-- The entries, by increasing key. -/
  entries : List (String × α)
  sorted : Entries.Sorted entries := by exact Entries.sorted_nil

namespace Dict

@[ext] theorem ext {m n : Dict α} (h : m.entries = n.entries) : m = n := by
  cases m; cases n; cases h; rfl

/-- The map that binds nothing. -/
def empty : Dict α where
  entries := []

instance : Inhabited (Dict α) := ⟨empty⟩

instance [DecidableEq α] : DecidableEq (Dict α) := fun m n =>
  decidable_of_iff (m.entries = n.entries) ⟨ext, fun h => h ▸ rfl⟩

instance [BEq α] : BEq (Dict α) := ⟨fun m n => m.entries == n.entries⟩

instance [BEq α] [LawfulBEq α] : LawfulBEq (Dict α) where
  rfl {m} := beq_self_eq_true m.entries
  eq_of_beq {m n} h := ext (eq_of_beq (a := m.entries) (b := n.entries) h)

/-- The map with `k` bound to `v`. -/
def insert (m : Dict α) (k : String) (v : α) : Dict α where
  entries := Entries.insert k v m.entries
  sorted := Entries.sorted_insert m.sorted

/-- The value bound to `k`. -/
def get? (m : Dict α) (k : String) : Option α :=
  Entries.get? k m.entries

/-- Whether `k` is bound. -/
def contains (m : Dict α) (k : String) : Bool :=
  (m.get? k).isSome

/-- The map that binds each key of a list to the last value the list gives it. -/
def ofList (es : List (String × α)) : Dict α :=
  es.foldl (fun m e => m.insert e.1 e.2) empty

/-- The keys, increasing. -/
def keys (m : Dict α) : List String :=
  m.entries.map (·.1)

/-- The number of keys. -/
def size (m : Dict α) : Nat :=
  m.entries.length

/-- Whether no key is bound. -/
def isEmpty (m : Dict α) : Bool :=
  m.entries.isEmpty

@[simp] theorem get?_insert_self (m : Dict α) (k : String) (v : α) :
    (m.insert k v).get? k = some v :=
  Entries.get?_insert_self ..

theorem get?_insert_of_ne (m : Dict α) {k k' : String} (h : k' ≠ k) (v : α) :
    (m.insert k v).get? k' = m.get? k' :=
  Entries.get?_insert_of_ne h ..

@[simp] theorem get?_empty (k : String) : (empty : Dict α).get? k = none := rfl

theorem isEmpty_eq_true_iff {m : Dict α} : m.isEmpty = true ↔ m = empty :=
  ⟨fun h => ext (List.isEmpty_iff.1 h), fun h => h ▸ rfl⟩

theorem mem_entries_of_get? {m : Dict α} {k : String} {v : α} (h : m.get? k = some v) :
    (k, v) ∈ m.entries :=
  Entries.mem_of_get? h

/-- No key is bound twice. -/
theorem nodup_keys (m : Dict α) : m.keys.Nodup := by
  refine List.pairwise_map.2 (List.Pairwise.imp (fun {a b} h he => ?_) m.sorted)
  exact String.lt_irrefl b.1 (he ▸ h)

theorem entries_ofList (es : List (String × α)) :
    (ofList es).entries = es.foldl (fun es e => Entries.insert e.1 e.2 es) [] := by
  have hfold : ∀ m : Dict α, (es.foldl (fun m e => m.insert e.1 e.2) m).entries
      = es.foldl (fun es e => Entries.insert e.1 e.2 es) m.entries := by
    induction es with
    | nil => exact fun _ => rfl
    | cons a r ih => exact fun m => ih (m.insert a.1 a.2)
  exact hfold empty

@[simp] theorem ofList_entries (m : Dict α) : ofList m.entries = m := by
  apply ext
  rw [entries_ofList, Entries.foldl_insert_of_sorted (by exact m.sorted), List.nil_append]

theorem mem_of_mem_entries_ofList {es : List (String × α)} {e : String × α}
    (h : e ∈ (ofList es).entries) : e ∈ es := by
  rw [entries_ofList] at h
  exact (Entries.mem_foldl_insert h).resolve_left (List.not_mem_nil)

theorem get?_ofList_of_last {k : String} {v : α} {xs ys : List (String × α)}
    (h : ∀ e ∈ ys, e.1 ≠ k) : (ofList (xs ++ (k, v) :: ys)).get? k = some v := by
  rw [get?, entries_ofList, Entries.get?_foldl_insert_of_last h]

end Dict

end RunControl
