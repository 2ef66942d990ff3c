/-
RunControl/Proofs/Json/Lawful.lean

Reading again what was read and then written.  A decoder and the function that writes its
values are lawful (`Lawful`) when every value that the decoder reads is written as a document
that it reads as that same value.  The decoder may need some levels for parts that it did not
read but filled in, and only values with certain kept parts are written exactly.

The laws of the plain decoders are stated here, with those of lists, maps and the members of
records; a record's own law is put together from those of its members.
-/
import Mathlib.Data.List.Nodup
import RunControl.Json.Decode
import RunControl.Proofs.Json.Writing

namespace RunControl.Json

variable {α β : Type}

theorem mapM_eq_some_map {g : α → Option β} {h : α → β} {as : List α}
    (hg : ∀ a ∈ as, g a = some (h a)) : as.mapM g = some (as.map h) := by
  induction as with
  | nil => rfl
  | cons a as ih =>
    rw [List.forall_mem_cons] at hg
    simp [List.mapM_cons, hg.1, ih hg.2]

theorem exists_of_mem_mapM {g : α → Option β} {as : List α} {bs : List β}
    (h : as.mapM g = some bs) {b : β} (hb : b ∈ bs) : ∃ a ∈ as, g a = some b := by
  induction as generalizing bs with
  | nil =>
    cases h
    cases hb
  | cons a as ih =>
    simp only [List.mapM_cons, Option.pure_def, Option.bind_eq_bind, Option.bind_eq_some_iff,
      Option.some.injEq] at h
    obtain ⟨b', hb', bs', hbs', rfl⟩ := h
    rcases List.mem_cons.1 hb with rfl | hb
    · exact ⟨a, List.mem_cons_self, hb'⟩
    · obtain ⟨a', ha', hg⟩ := ih hbs' hb
      exact ⟨a', List.mem_cons_of_mem _ ha', hg⟩

/-- The members of a written object, with their documents. -/
def fields (ms : List (String × Json)) : List (String × Document) :=
  ms.map fun m => (m.1, m.2.document)

theorem lookup_fields (key : String) (ms : List (String × Json)) :
    (fields ms).lookup key = (ms.lookup key).map document := by
  induction ms with
  | nil => rfl
  | cons m ms ih =>
    show List.lookup key ((m.1, m.2.document) :: fields ms) = _
    rw [List.lookup_cons, List.lookup_cons, ih]
    cases key == m.1 <;> rfl

theorem keys_maybe_sublist (k : String) (o : Option Json) :
    ((maybe k o).map (·.1)).Sublist [k] := by
  cases o with
  | none => exact List.nil_sublist _
  | some j => exact List.Sublist.refl _

theorem keys_append_sublist {ms ns : List (String × Json)} {known others : List String}
    (hms : (ms.map (·.1)).Sublist known) (hns : (ns.map (·.1)).Sublist others) :
    ((ms ++ ns).map (·.1)).Sublist (known ++ others) := by
  rw [List.map_append]
  exact hms.append hns

theorem exact_maybe_iff {k : String} {o : Option Json} :
    (∀ m ∈ maybe k o, Exact m.2) ↔ ∀ j ∈ o, Exact j := by
  cases o <;> simp [maybe]

/-- A member that is left out under a condition. -/
theorem leftOut_eq_maybe (b : Bool) (k : String) (j : Json) :
    (if b then [] else [(k, j)]) = maybe k (if b then none else some j) := by
  cases b <;> rfl

@[simp] theorem lookup_member (key k : String) (j : Json) (ms : List (String × Json)) :
    ((k, j) :: ms).lookup key = if key = k then some j else ms.lookup key := by
  by_cases h : key = k <;> simp [h, List.lookup_cons, beq_false_of_ne]

@[simp] theorem lookup_maybe (key k : String) (o : Option Json) :
    (maybe k o).lookup key = if key = k then o else none := by
  cases o with
  | none => simp [maybe]
  | some j => exact lookup_member key k j []

namespace Decode

variable {n k : Nat} {doc : Document} {d : Decoder α} {f : α → Json} {ok : α → Prop}

/-! ### Any values -/

/-- The values of members, with their keys. -/
def valuesOf (d : Decoder α) (n : Nat) (ms : List (String × Document)) :
    Option (List (String × α)) :=
  ms.mapM fun m => (d n m.2).map fun a => (m.1, a)

theorem valuesOf_fields {es : List (String × α)}
    (h : ∀ e ∈ es, d n (f e.2).document = some e.2) :
    valuesOf d n (fields (es.map fun e => (e.1, f e.2))) = some es := by
  rw [fields, valuesOf, List.map_map, List.mapM_map]
  conv_rhs => rw [← List.map_id es]
  refine mapM_eq_some_map fun e he => ?_
  simp [h e he]

theorem exists_of_mem_valuesOf {ms : List (String × Document)} {es : List (String × α)}
    (h : valuesOf d n ms = some es) {e : String × α} (he : e ∈ es) :
    ∃ doc, (e.1, doc) ∈ ms ∧ d n doc = some e.2 := by
  obtain ⟨m, hm, hd⟩ := exists_of_mem_mapM h he
  obtain ⟨a, ha, rfl⟩ := Option.map_eq_some_iff.1 hd
  exact ⟨m.2, hm, ha⟩

theorem keyed_memberDocuments (ms : List (String × Json)) :
    keyed (memberDocuments ms) = some (fields ms) := by
  rw [keyed, memberDocuments_eq_map, List.mapM_map]
  exact mapM_eq_some_map fun _ _ => rfl

theorem dict_object (d : Decoder α) (n : Nat) (members : List (Option String × Document)) :
    dict d (n + 1) (.object members)
      = (keyed members).bind fun ms => (valuesOf d n ms).map Dict.ofList := by
  rw [dict]
  cases keyed members with
  | none => rfl
  | some ms =>
    show (valuesOf d n ms).bind _ = (valuesOf d n ms).map _
    cases valuesOf d n ms <;> rfl

theorem anyItems_eq_mapM (n : Nat) (ds : List Document) : anyItems n ds = ds.mapM (any n) := by
  induction ds with
  | nil => rfl
  | cons d ds ih => simp [anyItems, ih, List.mapM_cons]

theorem keyed_cons (k : String) (doc : Document) (ms : List (Option String × Document)) :
    keyed ((some k, doc) :: ms) = (keyed ms).map fun ms => (k, doc) :: ms := by
  rw [keyed, List.mapM_cons]
  show (keyed ms).bind _ = _
  cases keyed ms <;> rfl

theorem anyMembers_eq_valuesOf (n : Nat) (ms : List (Option String × Document)) :
    anyMembers n ms = (keyed ms).bind (valuesOf any n) := by
  induction ms with
  | nil => rfl
  | cons m ms ih =>
    obtain ⟨k, doc⟩ := m
    cases k with
    | none => simp [anyMembers, keyed]
    | some k =>
      rw [anyMembers, ih, keyed_cons]
      cases keyed ms with
      | none => cases any n doc <;> rfl
      | some ms => cases h : any n doc <;> simp [valuesOf, List.mapM_cons, h]

/-! ### Lawful decoders -/

/-- What a decoder reads and a function writes: every value is written without floating-point
numbers, and its document is read as the value again. -/
structure Lawful (k : Nat) (d : Decoder α) (f : α → Json) (ok : α → Prop) : Prop where
  exact : ∀ {a}, ok a → Exact (f a)
  again : ∀ {n doc a}, k ≤ n → d n doc = some a → ok a → d n (f a).document = some a

theorem Lawful.mono {l : Nat} {ok' : α → Prop} (h : Lawful k d f ok) (hk : k ≤ l)
    (hok : ∀ a, ok' a → ok a) : Lawful l d f ok' where
  exact ha := h.exact (hok _ ha)
  again hl hd ha := h.again (Nat.le_trans hk hl) hd (hok _ ha)

theorem ofDigits_toDigits (n : Nat) : Text.ofDigits (Nat.toDigits 10 n) = n :=
  Nat.ofDigitChars_ten_toDigits

/-- An integer that a numeral stands for is written as a numeral that stands for it. -/
theorem toInt?_ofInt {x : Numeral} {i : Int} (h : x.toInt? = some i) :
    (Numeral.ofInt i).toInt? = some i := by
  have hbounds : (0 ≤ i ∧ i.natAbs < Nat.pow 2 64) ∨ (i < 0 ∧ i.natAbs ≤ Nat.pow 2 63) := by
    unfold Numeral.toInt? at h
    split at h
    · dsimp only at h
      split at h <;> split at h <;> cases h <;> omega
    · cases h
  rcases hbounds with ⟨hi, hlt⟩ | ⟨hi, hle⟩
  · have hneg : ¬ i < 0 := by omega
    simp only [Numeral.toInt?, Numeral.ofInt, ofDigits_toDigits, hneg, decide_false,
      Bool.false_eq_true, if_false, if_pos hlt, Option.some.injEq]
    omega
  · have hpos : 0 < i.natAbs ∧ i.natAbs ≤ Nat.pow 2 63 := ⟨by omega, hle⟩
    simp only [Numeral.toInt?, Numeral.ofInt, ofDigits_toDigits, hi, decide_true, if_true,
      if_pos hpos, Option.some.injEq]
    omega

theorem lawful_string : Lawful 0 string .string fun _ => True where
  exact {s} _ := .string s
  again {_ _ _} _ _ _ := rfl

theorem lawful_bool : Lawful 0 bool .bool fun _ => True where
  exact {b} _ := .bool b
  again {_ _ _} _ _ _ := rfl

/-- A natural number below a bound is read back. -/
theorem lawful_below (bound : Nat) :
    Lawful 0 (below bound) (fun n => .int n) fun _ => True where
  exact {n} _ := .int n
  again {n doc a} _ h _ := by
    unfold below at h
    split at h
    · next x =>
      split at h
      · next m hm =>
        split at h
        · next hlt =>
          cases h
          show below bound n (.number (.ofInt (.ofNat a))) = some a
          rw [below, toInt?_ofInt hm]
          exact if_pos hlt
        · cases h
      · cases h
    · cases h

/-- What a value was read from. -/
theorem any_eq_some {j : Json} (h : any n doc = some j) :
    match j with
    | .int i => ∃ x, doc = .number x ∧ x.toInt? = some i
    | .array items => ∃ m ds, n = m + 1 ∧ doc = .array ds ∧ ds.mapM (any m) = some items
    | .object members => ∃ m ds ms, n = m + 1 ∧ doc = .object ds ∧
      (keyed ds).bind (valuesOf any m) = some ms ∧ members = (Dict.ofList ms).entries
    | _ => True := by
  -- by kinds of documents; only what nests costs a level
  cases doc with
  | null => cases h; trivial
  | bool _ => cases h; trivial
  | number x =>
    rw [any, Numeral.toJson?] at h
    split at h
    · next hx =>
      cases h
      exact ⟨x, rfl, hx⟩
    · obtain ⟨_, _, rfl⟩ := Option.map_eq_some_iff.1 h
      trivial
  | string s =>
    obtain ⟨_, _, rfl⟩ := Option.map_eq_some_iff.1 h
    trivial
  | array ds =>
    cases n with
    | zero => simp [any] at h
    | succ m =>
      obtain ⟨items, hitems, rfl⟩ := Option.map_eq_some_iff.1 h
      exact ⟨m, ds, rfl, rfl, anyItems_eq_mapM m ds ▸ hitems⟩
  | object ds =>
    cases n with
    | zero => simp [any] at h
    | succ m =>
      obtain ⟨ms, hms, rfl⟩ := Option.map_eq_some_iff.1 h
      rw [anyMembers_eq_valuesOf] at hms
      exact ⟨m, ds, ms, rfl, rfl, hms, (Dict.entries_ofList ms).symm⟩

/-- Any value without floating-point numbers that was read is read from its document.  The
induction is on the value; its parts were read with one level less. -/
theorem any_again {j : Json} (h : any n doc = some j) (hj : Exact j) :
    any n j.document = some j := by
  induction hj generalizing n doc with
  | null => rfl
  | bool b => rfl
  | int i =>
    obtain ⟨x, rfl, hx⟩ := any_eq_some h
    show (Numeral.ofInt i).toJson? = _
    rw [Numeral.toJson?, toInt?_ofInt hx]
  | string s => rfl
  | @array items _ ih =>
    obtain ⟨m, ds, rfl, rfl, hds⟩ := any_eq_some h
    -- each item was read from some document, so it is read from its own as well
    have hitems : (documents items).mapM (any m) = some items := by
      rw [documents_eq_map, List.mapM_map]
      conv_rhs => rw [← List.map_id items]
      refine mapM_eq_some_map fun a ha => ?_
      obtain ⟨d, -, hd⟩ := exists_of_mem_mapM hds ha
      exact ih a ha hd
    show (anyItems m (documents items)).map _ = _
    rw [anyItems_eq_mapM, hitems]
    rfl
  | @object members _ ih =>
    obtain ⟨m, ds, ms, rfl, rfl, hms, rfl⟩ := any_eq_some h
    obtain ⟨ks, -, hks⟩ := Option.bind_eq_some_iff.1 hms
    -- of repeated keys the last one was kept, and its value is among those that were read
    have hvalues : valuesOf any m (fields (Dict.ofList ms).entries)
        = some (Dict.ofList ms).entries := by
      have hvalue : ∀ e ∈ (Dict.ofList ms).entries, any m (id e.2).document = some e.2 := by
        intro e he
        obtain ⟨d, -, hd⟩ := exists_of_mem_valuesOf hks (Dict.mem_of_mem_entries_ofList he)
        exact ih e he hd
      simpa using valuesOf_fields hvalue
    show (anyMembers m (memberDocuments (Dict.ofList ms).entries)).map _ = _
    rw [anyMembers_eq_valuesOf, keyed_memberDocuments, Option.bind_some, hvalues]
    show some (Json.object _) = _
    rw [← Dict.entries_ofList, Dict.ofList_entries]

theorem lawful_any : Lawful 0 any id Exact where
  exact h := h
  again _ h hok := any_again h hok

/-! ### Lists and maps -/

theorem Lawful.list (hd : Lawful k d f ok) :
    Lawful (k + 1) (Decode.list d) (fun as => .array (as.map f)) fun as => ∀ a ∈ as, ok a where
  exact {as} hok := .array <| List.forall_mem_map.2 fun a ha => hd.exact (hok a ha)
  again {n doc as} hk h hok := by
    unfold Decode.list at h
    split at h
    · next m items =>
      show Decode.list d (m + 1) (.array (documents (as.map f))) = some as
      rw [Decode.list, documents_eq_map, List.map_map, List.mapM_map]
      conv_rhs => rw [← List.map_id as]
      refine mapM_eq_some_map fun a ha => ?_
      obtain ⟨doc, -, hdoc⟩ := exists_of_mem_mapM h ha
      exact hd.again (Nat.le_of_succ_le_succ hk) hdoc (hok a ha)
    · cases h

/-- The entries of a map that was read are read from their documents. -/
theorem Lawful.valuesOf (hd : Lawful k d f ok) (hk : k ≤ n) {ms : List (String × Document)}
    {es : List (String × α)} (h : valuesOf d n ms = some es)
    (hok : ∀ e ∈ (Dict.ofList es).entries, ok e.2) :
    valuesOf d n (fields ((Dict.ofList es).entries.map fun e => (e.1, f e.2)))
      = some (Dict.ofList es).entries := by
  refine valuesOf_fields fun e he => ?_
  obtain ⟨doc, -, hdoc⟩ := exists_of_mem_valuesOf h (Dict.mem_of_mem_entries_ofList he)
  exact hd.again hk hdoc (hok e he)

theorem Lawful.dict (hd : Lawful k d f ok) :
    Lawful (k + 1) (Decode.dict d) (ofDict f) fun m => ∀ e ∈ m.entries, ok e.2 where
  exact {m} hok := .object <| List.forall_mem_map.2 fun e he => hd.exact (hok e he)
  again {n doc m} hk h hok := by
    cases doc with
    | object members =>
      cases n with
      | zero => cases h
      | succ n =>
        rw [dict_object] at h
        obtain ⟨ms, -, hms⟩ := Option.bind_eq_some_iff.1 h
        obtain ⟨es, hes, rfl⟩ := Option.map_eq_some_iff.1 hms
        show Decode.dict d (n + 1) (.object (memberDocuments _)) = _
        rw [dict_object, keyed_memberDocuments, Option.bind_some,
          hd.valuesOf (Nat.le_of_succ_le_succ hk) hes hok, Option.map_some, Dict.ofList_entries]
    | _ => cases n <;> cases h

/-! ### Records -/

/-- The members of a record that was written in the place of one that was read: those that it
knows, the others, and as many levels. -/
def Members.written (M : Members) (ms es : List (String × Json)) : Members where
  known := fields ms
  others := fields es
  levels := M.levels

variable {known : List String} {M : Members} {ms es : List (String × Json)} {key : String}

theorem membersOf_eq_some (h : membersOf known n doc = some M) :
    ∃ members ks, n = M.levels + 1 ∧ doc = .object members ∧ keyed members = some ks ∧
      M.others = ks.filter fun m => !known.contains m.1 := by
  unfold membersOf at h
  split at h
  · next levels members =>
    simp only [Option.bind_eq_bind, Option.bind_eq_some_iff, List.partition_eq_filter_filter] at h
    obtain ⟨ks, hks, h⟩ := h
    split at h
    · cases h
      exact ⟨members, ks, rfl, rfl, hks, rfl⟩
    · cases h
  · cases h

/-- Members written in front of others that are not known are read apart from these again. -/
theorem membersOf_written (hknown : ∀ m ∈ ms, m.1 ∈ known) (hnodup : (ms.map (·.1)).Nodup)
    (hothers : ∀ e ∈ es, e.1 ∉ known) :
    membersOf known (M.levels + 1) (Json.object (ms ++ es)).document = some (M.written ms es) := by
  have hours : ∀ m ∈ fields ms, known.contains m.1 = true :=
    List.forall_mem_map.2 fun m hm => by simp [hknown m hm]
  have hrest : ∀ m ∈ fields es, known.contains m.1 = false :=
    List.forall_mem_map.2 fun m hm => by simp [hothers m hm]
  have hpartition : (fields (ms ++ es)).partition (fun m => known.contains m.1)
      = (fields ms, fields es) := by
    rw [List.partition_eq_filter_filter, fields, List.map_append]
    show (List.filter _ (fields ms ++ fields es), List.filter _ (fields ms ++ fields es)) = _
    rw [List.filter_append, List.filter_append, List.filter_eq_self.2 hours,
      List.filter_eq_nil_iff.2 (by simpa using hrest),
      List.filter_eq_nil_iff.2 (by simpa using hours), List.filter_eq_self.2 (by simpa using hrest),
      List.append_nil, List.nil_append]
  have hkeys : ((fields ms).map (·.1)).Nodup := by
    rwa [fields, List.map_map]
  show membersOf known (M.levels + 1) (.object (memberDocuments (ms ++ es))) = _
  simp only [membersOf, keyed_memberDocuments, Option.bind_eq_bind, Option.bind_some, hpartition,
    if_pos hkeys]
  rfl

theorem recordOf_written (hknown : known.Nodup) (hkeys : (ms.map (·.1)).Sublist known) :
    recordOf known (M.levels + 1) (Json.object ms).document = some (M.written ms []) := by
  have hmem : ∀ m ∈ ms, m.1 ∈ known := fun m hm => hkeys.subset (List.mem_map_of_mem hm)
  have h : membersOf known (M.levels + 1) (Json.object (ms ++ [])).document
      = some (M.written ms []) :=
    membersOf_written hmem (hknown.sublist hkeys) nofun
  rwa [List.append_nil] at h

theorem recordOf_levels (h : recordOf known n doc = some M) : n = M.levels + 1 := by
  unfold recordOf at h
  split at h
  · split at h <;> cases h
    rfl
  · obtain ⟨_, _, hn, -⟩ := membersOf_eq_some h
    exact hn

theorem Members.extra_eq_map (M : Members) :
    M.extra = (valuesOf any M.levels M.others).map Dict.ofList := by
  show (valuesOf any M.levels M.others).bind _ = _
  cases valuesOf any M.levels M.others <;> rfl

/-- What a record keeps of the members that it does not know is not known. -/
theorem extra_not_known {m : Dict Json} (h : membersOf known n doc = some M)
    (hm : M.extra = some m) : ∀ e ∈ m.entries, e.1 ∉ known := by
  obtain ⟨_, ks, -, -, -, hothers⟩ := membersOf_eq_some h
  rw [M.extra_eq_map] at hm
  obtain ⟨entries, hentries, rfl⟩ := Option.map_eq_some_iff.1 hm
  intro e he
  obtain ⟨doc, hdoc, -⟩ := exists_of_mem_valuesOf hentries (Dict.mem_of_mem_entries_ofList he)
  rw [hothers, List.mem_filter] at hdoc
  simpa using hdoc.2

theorem keyed_append {before after : List (Option String × Document)} {d : Document}
    {ks : List (String × Document)} (h : keyed (before ++ (some key, d) :: after) = some ks) :
    ∃ ks₁ ks₂, ks = ks₁ ++ (key, d) :: ks₂ ∧ ∀ e ∈ ks₂, (some e.1, e.2) ∈ after := by
  simp only [keyed, List.mapM_append, List.mapM_cons, Option.map_some, Option.pure_def,
    Option.bind_eq_bind, Option.bind_some, Option.bind_eq_some_iff, Option.some.injEq] at h
  obtain ⟨ks₁, -, _, ⟨ks₂, hks₂, rfl⟩, rfl⟩ := h
  refine ⟨ks₁, ks₂, rfl, fun e he => ?_⟩
  obtain ⟨⟨k, doc⟩, hk, hmap⟩ := exists_of_mem_mapM hks₂ he
  obtain ⟨_, rfl, rfl⟩ := Option.map_eq_some_iff.1 hmap
  exact hk

/-- What a record keeps of a member that it does not know is the last value of that key. -/
theorem extra_last {members before after : List (Option String × Document)} {d : Document}
    {m : Dict Json} (h : membersOf known n (.object members) = some M) (hm : M.extra = some m)
    (hmembers : members = before ++ (some key, d) :: after) (hkey : key ∉ known)
    (hlast : ∀ e ∈ after, e.1 ≠ some key) :
    ∃ j, any M.levels d = some j ∧ (key, j) ∈ m.entries := by
  obtain ⟨_, ks, -, ⟨⟩, hks, hothers⟩ := membersOf_eq_some h
  obtain ⟨ks₁, ks₂, rfl, hks₂⟩ := keyed_append (hmembers ▸ hks)
  rw [List.filter_append, List.filter_cons_of_pos (by simpa using hkey)] at hothers
  rw [M.extra_eq_map, hothers] at hm
  obtain ⟨entries, hentries, rfl⟩ := Option.map_eq_some_iff.1 hm
  simp only [valuesOf, List.mapM_append, List.mapM_cons, Option.pure_def, Option.bind_eq_bind,
    Option.bind_eq_some_iff, Option.some.injEq, Option.map_eq_some_iff] at hentries
  obtain ⟨es₁, -, _, ⟨_, ⟨j, hj, rfl⟩, es₂, hes₂, rfl⟩, rfl⟩ := hentries
  refine ⟨j, hj, Dict.mem_entries_of_get? (Dict.get?_ofList_of_last fun e he hek => ?_)⟩
  obtain ⟨doc, hdoc, -⟩ := exists_of_mem_valuesOf hes₂ he
  exact hlast _ (hks₂ _ (List.mem_filter.1 hdoc).1) (congrArg some hek)

namespace Members

theorem required_again {a : α} (hd : Lawful k d f ok) (hk : k ≤ M.levels)
    (h : M.required key d = some a) (hok : ok a) (hms : ms.lookup key = some (f a)) :
    (M.written ms es).required key d = some a := by
  obtain ⟨doc, -, hdoc⟩ := Option.bind_eq_some_iff.1 h
  simp only [required, written, lookup_fields, hms, Option.map_some, Option.bind_eq_bind,
    Option.bind_some]
  exact hd.again hk hdoc hok

theorem withDefault_eq_some {a fallback : α} (h : M.withDefault key d fallback = some a) :
    a = fallback ∨ ∃ doc, d M.levels doc = some a := by
  unfold withDefault at h
  split at h
  · cases h
    exact .inl rfl
  · exact .inr ⟨_, h⟩

theorem withDefault_written {a fallback : α} (hd : d M.levels (f a).document = some a)
    (hms : ms.lookup key = some (f a)) :
    (M.written ms es).withDefault key d fallback = some a := by
  simp only [withDefault, written, lookup_fields, hms, Option.map_some]
  exact hd

theorem withDefault_again {a fallback : α} (hd : Lawful k d f ok) (hk : k ≤ M.levels)
    (h : M.withDefault key d fallback = some a) (hok : ok a)
    (hfallback : d M.levels (f fallback).document = some fallback)
    (hms : ms.lookup key = some (f a)) :
    (M.written ms es).withDefault key d fallback = some a := by
  refine withDefault_written ?_ hms
  rcases withDefault_eq_some h with rfl | ⟨doc, hdoc⟩
  · exact hfallback
  · exact hd.again hk hdoc hok

/-- A member that is left out when it has the value that it stands for. -/
theorem withDefault_leftOut {a fallback : α} [Decidable (a = fallback)]
    (hd : Lawful k d f ok) (hk : k ≤ M.levels) (h : M.withDefault key d fallback = some a)
    (hok : ok a) (hms : ms.lookup key = if a = fallback then none else some (f a)) :
    (M.written ms es).withDefault key d fallback = some a := by
  by_cases ha : a = fallback
  · rw [if_pos ha] at hms
    simp only [withDefault, written, lookup_fields, hms, Option.map_none, ha]
  · rw [if_neg ha] at hms
    obtain ⟨doc, hdoc⟩ := (withDefault_eq_some h).resolve_left ha
    exact withDefault_written (hd.again hk hdoc hok) hms

/-- A member that may be missing is read back, if no value of it is written as nothing. -/
theorem optional_again {o : Option α} (hd : Lawful k d f ok) (hk : k ≤ M.levels)
    (h : M.optional key d = some o) (hok : ∀ a ∈ o, ok a)
    (hnull : ∀ a, (f a).document ≠ .null) (hms : ms.lookup key = o.map f) :
    (M.written ms es).optional key d = some o := by
  cases o with
  | none => simp [optional, withDefault, written, lookup_fields, hms]
  | some a =>
    obtain ⟨doc, hdoc⟩ := (withDefault_eq_some h).resolve_left (Option.some_ne_none a)
    have ha : d M.levels doc = some a := by
      unfold nullable at hdoc
      split at hdoc
      · cases hdoc
      · simpa using hdoc
    simp only [optional, withDefault, written, lookup_fields, hms, Option.map_some]
    unfold nullable
    split
    · next hf => exact absurd hf (hnull a)
    · rw [hd.again hk ha (hok a rfl), Option.map_some]

theorem required_string {s : String} (h : M.required key string = some s)
    (hms : ms.lookup key = some (.string s)) : (M.written ms es).required key string = some s :=
  required_again lawful_string (Nat.zero_le _) h trivial hms

theorem withDefault_string {s fallback : String}
    (h : M.withDefault key string fallback = some s) (hms : ms.lookup key = some (.string s)) :
    (M.written ms es).withDefault key string fallback = some s :=
  withDefault_again lawful_string (Nat.zero_le _) h trivial rfl hms

theorem optional_string {o : Option String} (h : M.optional key string = some o)
    (hms : ms.lookup key = o.map .string) : (M.written ms es).optional key string = some o :=
  optional_again lawful_string (Nat.zero_le _) h (fun _ _ => trivial) nofun hms

theorem extra_again {m : Dict Json} (h : M.extra = some m) (hok : ∀ e ∈ m.entries, Exact e.2) :
    (M.written ms m.entries).extra = some m := by
  rw [M.extra_eq_map] at h
  obtain ⟨entries, hentries, rfl⟩ := Option.map_eq_some_iff.1 h
  have hagain := lawful_any.valuesOf (Nat.zero_le M.levels) hentries hok
  rw [List.map_id''] at hagain
  · rw [extra_eq_map]
    show (valuesOf any M.levels (fields _)).map _ = _
    rw [hagain, Option.map_some, Dict.ofList_entries]
  · exact fun _ => rfl

end Members

/-! ### Texts -/

/-- A text that was read, written again and read again gives the same value. -/
theorem Lawful.ofText? {text : String} {a : α} (hd : Lawful k d f ok) (hk : k ≤ levelLimit)
    (h : ofText? d text = some a) (hok : ok a) : ofText? d (f a).compact = some a := by
  obtain ⟨doc, -, hdoc⟩ := Option.bind_eq_some_iff.1 h
  rw [Decode.ofText?, Document.ofText?_compact (hd.exact hok)]
  exact hd.again hk hdoc hok

end Decode

end RunControl.Json
