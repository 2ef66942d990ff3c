/-
RunControl/Proofs/Toml/Distinct.lean

No table has a key twice.  The tables under construction are kept that way by everything that is
added to them (`Nodes.distinct_define`, `Nodes.distinct_openTable`, `Nodes.distinct_openItem`): a
way down a path changes one table at its end, and the tables on the way get at most one new key
each (`Nodes.distinct_descend`).  The values that are added are of that kind themselves, since an
inline table is built in the same way (`yields_value`).  So are all tables of a text
(`distinct_of_parse?`).
-/
import Mathlib.Data.List.Nodup
import RunControl.Proofs.Text.Scanning
import RunControl.Toml.Section

namespace RunControl.Toml

open Text

/-! ### Distinct keys -/

/-- No key stands twice in the entries. -/
def DistinctKeys {α : Type} (es : List (String × α)) : Prop :=
  (es.map (·.1)).Nodup

section
variable {α : Type} {es : List (String × α)} {key : String} {a : α}

theorem mem_of_lookup (h : es.lookup key = some a) : (key, a) ∈ es := by
  obtain ⟨before, after, rfl, -⟩ := List.lookup_eq_some_iff.mp h
  exact List.mem_append_right _ List.mem_cons_self

theorem not_mem_keys_of_lookup (h : es.lookup key = none) : key ∉ es.map (·.1) := by
  intro hmem
  obtain ⟨e, he, rfl⟩ := List.mem_map.mp hmem
  have hne := List.lookup_eq_none_iff.mp h e he
  simp at hne

theorem DistinctKeys.filter (h : DistinctKeys es) (wanted : String × α → Bool) :
    DistinctKeys (es.filter wanted) :=
  h.sublist (List.filter_sublist.map _)

theorem DistinctKeys.concat (h : DistinctKeys es) (hfresh : es.lookup key = none) (a : α) :
    DistinctKeys (es ++ [(key, a)]) := by
  rw [DistinctKeys, List.map_append]
  refine List.nodup_append.mpr ⟨h, List.nodup_singleton _, ?_⟩
  rintro k hk _ hkey rfl
  obtain rfl : k = key := List.mem_singleton.mp hkey
  exact not_mem_keys_of_lookup hfresh hk

end

/-- No table in a value has a key twice. -/
inductive Value.Distinct : Value → Prop
  | string (s : String) : Distinct (.string s)
  | integer (n : Int) : Distinct (.integer n)
  | float (x : Binary64) : Distinct (.float x)
  | boolean (b : Bool) : Distinct (.boolean b)
  | datetime (d : Datetime) : Distinct (.datetime d)
  | array {items : List Value} (values : ∀ v ∈ items, v.Distinct) : Distinct (.array items)
  | table {entries : List (String × Value)} (keys : DistinctKeys entries)
      (values : ∀ e ∈ entries, e.2.Distinct) : Distinct (.table entries)

theorem Value.distinct_table_iff {entries : List (String × Value)} :
    (Value.table entries).Distinct ↔ DistinctKeys entries ∧ ∀ e ∈ entries, e.2.Distinct := by
  constructor
  · intro h
    cases h with
    | table hkeys hvalues => exact ⟨hkeys, hvalues⟩
  · rintro ⟨hkeys, hvalues⟩
    exact .table hkeys hvalues

/-- The same for what is under construction. -/
inductive Node.Distinct : Node → Prop
  | value {v : Value} (value : v.Distinct) : Distinct (.value v)
  | table {origin : Origin} {es : List (String × Node)} (keys : DistinctKeys es)
      (nodes : ∀ e ∈ es, e.2.Distinct) : Distinct (.table origin es)
  | tables {items : List (List (String × Node))} (keys : ∀ es ∈ items, DistinctKeys es)
      (nodes : ∀ es ∈ items, ∀ e ∈ es, e.2.Distinct) : Distinct (.tables items)

namespace Nodes

/-- The same for the entries of a table under construction. -/
structure Distinct (es : Nodes) : Prop where
  keys : DistinctKeys es
  nodes : ∀ e ∈ es, e.2.Distinct

variable {es es' : Nodes} {items items' : List Nodes} {key : String} {node : Node}
  {origin : Origin} {path : List String} {value : Value}

theorem distinct_nil : Distinct [] :=
  ⟨List.nodup_nil, List.forall_mem_nil _⟩

theorem distinct_table_iff : (Node.table origin es).Distinct ↔ Distinct es := by
  constructor
  · rintro (_ | ⟨hkeys, hnodes⟩)
    exact ⟨hkeys, hnodes⟩
  · rintro ⟨hkeys, hnodes⟩
    exact .table hkeys hnodes

theorem distinct_tables_iff : (Node.tables items).Distinct ↔ ∀ es ∈ items, Distinct es := by
  constructor
  · rintro (_ | _ | ⟨hkeys, hnodes⟩) es hes
    exact ⟨hkeys es hes, hnodes es hes⟩
  · intro h
    exact .tables (fun es hes => (h es hes).keys) fun es hes => (h es hes).nodes

theorem Distinct.of_lookup (h : Distinct es) (hnode : es.lookup key = some node) :
    node.Distinct :=
  h.nodes _ (mem_of_lookup hnode)

/-! ### Changing a table -/

theorem mem_set {e : String × Node} (h : e ∈ set key node es) : e = (key, node) ∨ e ∈ es := by
  induction es with
  | nil => exact .inl (List.mem_singleton.mp h)
  | cons e' es ih =>
    rw [set] at h
    split at h
    · exact (List.mem_cons.mp h).imp_right (List.mem_cons_of_mem _)
    · rcases List.mem_cons.mp h with rfl | h
      · exact .inr List.mem_cons_self
      · exact (ih h).imp_right (List.mem_cons_of_mem _)

/-- To set a key replaces its entry, or adds one if there is none. -/
theorem Distinct.set (h : Distinct es) (hnode : node.Distinct) :
    Distinct (set key node es) where
  keys := by
    have hkeys := h.keys
    clear h
    induction es with
    | nil => exact List.nodup_singleton key
    | cons e es ih =>
      obtain ⟨hfresh, hes⟩ := List.nodup_cons.mp hkeys
      rw [Nodes.set]
      split
      · next heq =>
        subst heq
        exact List.nodup_cons.mpr ⟨hfresh, hes⟩
      · next hne =>
        refine List.nodup_cons.mpr ⟨fun hmem => ?_, ih hes⟩
        obtain ⟨e', he', hkey⟩ := List.mem_map.mp hmem
        rcases mem_set he' with rfl | he'
        · exact hne hkey.symm
        · exact hfresh (List.mem_map.mpr ⟨e', he', hkey⟩)
  nodes e he := by
    rcases mem_set he with rfl | he
    · exact hnode
    · exact h.nodes e he

theorem distinct_onLast {f : Nodes → Option Nodes}
    (hf : ∀ es es', Distinct es → f es = some es' → Distinct es')
    (h : ∀ es ∈ items, Distinct es) (hlast : onLast f items = some items') :
    ∀ es ∈ items', Distinct es := by
  induction items generalizing items' with
  | nil => cases hlast
  | cons es rest ih =>
    obtain ⟨hes, hrest⟩ := List.forall_mem_cons.mp h
    cases rest with
    | nil =>
      obtain ⟨es', hes', hp⟩ := Option.bind_eq_some_iff.mp hlast
      cases hp
      exact List.forall_mem_cons.mpr ⟨hf es es' hes hes', List.forall_mem_nil _⟩
    | cons =>
      obtain ⟨rest', hrest', hp⟩ := Option.bind_eq_some_iff.mp hlast
      cases hp
      exact List.forall_mem_cons.mpr ⟨hes, ih hrest hrest'⟩

/-- What is done at the end of a path may do anything that keeps keys distinct. -/
theorem distinct_descend {dotted : Bool} {f : Origin → Nodes → Option Nodes}
    (hf : ∀ origin es es', Distinct es → f origin es = some es' → Distinct es')
    (h : Distinct es) (hdescend : descend dotted f path origin es = some es') : Distinct es' := by
  induction path generalizing origin es es' with
  | nil => exact hf origin es es' h hdescend
  | cons key path ih =>
    rw [descend] at hdescend
    split at hdescend
    · obtain ⟨inner, hinner, hp⟩ := Option.bind_eq_some_iff.mp hdescend
      cases hp
      exact h.set (distinct_table_iff.mpr (ih distinct_nil hinner))
    · cases hdescend
    · next origin' inner hlookup =>
      split at hdescend
      · cases hdescend
      · obtain ⟨inner', hinner, hp⟩ := Option.bind_eq_some_iff.mp hdescend
        cases hp
        have hold : Distinct inner := distinct_table_iff.mp (h.of_lookup hlookup)
        exact h.set (distinct_table_iff.mpr (ih hold hinner))
    · next items hlookup =>
      obtain ⟨items', hitems, hp⟩ := Option.bind_eq_some_iff.mp hdescend
      cases hp
      have hold : ∀ es ∈ items, Distinct es := distinct_tables_iff.mp (h.of_lookup hlookup)
      exact h.set (distinct_tables_iff.mpr (distinct_onLast (fun _ _ => ih) hold hitems))

/-! ### What a text adds -/

theorem distinct_define (h : Distinct es) (hvalue : value.Distinct)
    (hdefine : define path value es = some es') : Distinct es' := by
  obtain ⟨key, -, hdefine⟩ := Option.bind_eq_some_iff.mp hdefine
  refine distinct_descend (fun origin inner inner' hinner hput => ?_) h hdefine
  simp only [Option.ite_none_left_eq_some, Option.some.injEq] at hput
  obtain ⟨-, hfresh, rfl⟩ := hput
  have hnone : inner.lookup key = none := Option.not_isSome_iff_eq_none.mp hfresh
  refine ⟨hinner.keys.concat hnone _, List.forall_mem_append.mpr ⟨hinner.nodes, ?_⟩⟩
  exact List.forall_mem_singleton.mpr (.value hvalue)

theorem distinct_defineAll {entries : List (List String × Value)}
    (hentries : ∀ e ∈ entries, e.2.Distinct) (h : Distinct es)
    (hdefine : defineAll entries es = some es') : Distinct es' := by
  induction entries generalizing es with
  | nil =>
    cases hdefine
    exact h
  | cons e entries ih =>
    obtain ⟨hvalue, hrest⟩ := List.forall_mem_cons.mp hentries
    obtain ⟨es'', hes'', hdefine⟩ := Option.bind_eq_some_iff.mp hdefine
    exact ih hrest (distinct_define h hvalue hes'') hdefine

theorem distinct_openTable {entries : List (List String × Value)}
    (hentries : ∀ e ∈ entries, e.2.Distinct) (h : Distinct es)
    (hopen : openTable path entries es = some es') : Distinct es' := by
  obtain ⟨key, -, hopen⟩ := Option.bind_eq_some_iff.mp hopen
  refine distinct_descend (fun _ inner inner' hinner hput => ?_) h hopen
  have hfilled {started : Nodes} (hstarted : Distinct started)
      (hput : ((defineAll entries started).bind fun filled =>
        some (Nodes.set key (.table .opened filled) inner)) = some inner') :
      Distinct inner' := by
    obtain ⟨filled, hfilled, hput⟩ := Option.bind_eq_some_iff.mp hput
    cases hput
    exact hinner.set (distinct_table_iff.mpr (distinct_defineAll hentries hstarted hfilled))
  dsimp only at hput
  split at hput
  · exact hfilled distinct_nil hput
  · next hlookup => exact hfilled (distinct_table_iff.mp (hinner.of_lookup hlookup)) hput
  · cases hput

/-- A table put behind the others of its array leaves the keys around it as they are. -/
theorem distinct_openItem {entries : List (List String × Value)}
    (hentries : ∀ e ∈ entries, e.2.Distinct) (h : Distinct es)
    (hopen : openItem path entries es = some es') : Distinct es' := by
  obtain ⟨key, -, hopen⟩ := Option.bind_eq_some_iff.mp hopen
  refine distinct_descend (fun _ inner inner' hinner hput => ?_) h hopen
  have hadded {items : List Nodes} (hitems : ∀ es ∈ items, Distinct es)
      (hput : ((defineAll entries []).bind fun item =>
        some (Nodes.set key (.tables (items ++ [item])) inner)) = some inner') :
      Distinct inner' := by
    obtain ⟨item, hitem, hput⟩ := Option.bind_eq_some_iff.mp hput
    cases hput
    have hnew : Distinct item := distinct_defineAll hentries distinct_nil hitem
    refine hinner.set (distinct_tables_iff.mpr (List.forall_mem_append.mpr ⟨hitems, ?_⟩))
    exact List.forall_mem_singleton.mpr hnew
  dsimp only at hput
  split at hput
  · exact hadded (List.forall_mem_nil _) hput
  · next hlookup => exact hadded (distinct_tables_iff.mp (hinner.of_lookup hlookup)) hput
  · cases hput

/-! ### Finished tables -/

theorem finish_eq_map (es : Nodes) : finish es = es.map fun e => (e.1, e.2.toValue) := by
  induction es with
  | nil => rfl
  | cons e es ih => exact congrArg ((e.1, e.2.toValue) :: ·) ih

theorem finishAll_eq_map (items : List Nodes) :
    finishAll items = items.map fun es => .table (finish es) := by
  induction items with
  | nil => rfl
  | cons es items ih => exact congrArg (.table (finish es) :: ·) ih

theorem distinctKeys_finish (h : DistinctKeys es) : DistinctKeys (finish es) := by
  rw [finish_eq_map, DistinctKeys, List.map_map]
  exact h

end Nodes

theorem Node.Distinct.toValue {n : Node} (h : n.Distinct) : n.toValue.Distinct := by
  have htable {es : Nodes} (hkeys : DistinctKeys es) (hvalues : ∀ e ∈ es, e.2.toValue.Distinct) :
      (Value.table (Nodes.finish es)).Distinct := by
    refine .table (Nodes.distinctKeys_finish hkeys) fun e he => ?_
    rw [Nodes.finish_eq_map] at he
    obtain ⟨e', he', rfl⟩ := List.mem_map.mp he
    exact hvalues e' he'
  induction h with
  | value h => exact h
  | table hkeys _ ih => exact htable hkeys ih
  | tables hkeys _ ih =>
    rw [Node.toValue, Nodes.finishAll_eq_map]
    refine .array fun v hv => ?_
    obtain ⟨es, hes, rfl⟩ := List.mem_map.mp hv
    exact htable (hkeys es hes) (ih es hes)

theorem Nodes.Distinct.finish {es : Nodes} (h : Distinct es) :
    (Value.table (Nodes.finish es)).Distinct := by
  have htable : (Node.table .opened es).Distinct := distinct_table_iff.mpr h
  exact htable.toValue

/-! ### What is read -/

theorem yields_scalar : Scan.Yields Value.Distinct scalar := by
  refine .orElse ?_ (.orElse ?_ (.orElse ?_ (.orElse ?_ ?_)))
  · exact Scan.yields_map Value.Distinct.string
  · exact Scan.yields_map Value.Distinct.datetime
  · exact Scan.yields_map Value.Distinct.float
  · exact Scan.yields_map Value.Distinct.integer
  · exact Scan.yields_map Value.Distinct.boolean

theorem yields_array {value : Scan Value} (h : Scan.Yields Value.Distinct value) :
    Scan.Yields Value.Distinct (array value) := by
  have hitem : Scan.Yields Value.Distinct
      (do arraySpace; let v ← value; arraySpace; pure v : Scan Value) :=
    Scan.yields_bind fun _ => h.bind fun _ hv => Scan.yields_bind fun _ => Scan.yields_pure hv
  refine Scan.yields_bind fun _ => ?_
  refine (Scan.Yields.maybe (hitem.sepBy.bind fun items hitems =>
    Scan.yields_bind fun _ => Scan.yields_pure hitems)).bind fun items hitems => ?_
  refine Scan.yields_bind fun _ => Scan.yields_bind fun _ => Scan.yields_pure (.array ?_)
  cases items with
  | none => exact List.forall_mem_nil _
  | some items => exact hitems items rfl

/-- An inline table is built like any other, so its keys are distinct as well. -/
theorem yields_inlineTable {value : Scan Value} (h : Scan.Yields Value.Distinct value) :
    Scan.Yields Value.Distinct (inlineTable value) := by
  have hentry : Scan.Yields (fun e : List String × Value => e.2.Distinct)
      (do
        let path ← key
        let _ ← Scan.one '='
        spaces
        let v ← value
        spaces
        pure (path, v) : Scan (List String × Value)) :=
    Scan.yields_bind fun _ => Scan.yields_bind fun _ => Scan.yields_bind fun _ =>
      h.bind fun _ hv => Scan.yields_bind fun _ => Scan.yields_pure hv
  refine Scan.yields_bind fun _ => hentry.sepBy.maybe.bind fun entries hentries => ?_
  refine Scan.yields_bind fun _ => Scan.yields_bind fun _ => ?_
  intro cs v r hv
  obtain ⟨nodes, t, hnodes, hv⟩ := Scan.bind_eq_some_iff.mp hv
  obtain ⟨hnodes, -⟩ := Scan.lift_eq_some_iff.mp hnodes
  obtain ⟨rfl, -⟩ := Scan.pure_eq_some_iff.mp hv
  refine (Nodes.distinct_defineAll ?_ Nodes.distinct_nil hnodes).finish
  cases entries with
  | none => exact List.forall_mem_nil _
  | some entries => exact hentries entries rfl

theorem yields_value (depth : Nat) : Scan.Yields Value.Distinct (value depth) := by
  induction depth with
  | zero => exact yields_scalar
  | succ depth ih => exact yields_scalar.orElse ((yields_array ih).orElse (yields_inlineTable ih))

/-- An entry of a line has a value of that kind. -/
def Line.Distinct : Line → Prop
  | .entry _ v => v.Distinct
  | .blank => True
  | .header .. => True

theorem yields_line : Scan.Yields Line.Distinct line := by
  have hentry : Scan.Yields Line.Distinct entryLine :=
    Scan.yields_bind fun _ => Scan.yields_bind fun _ => Scan.yields_bind fun _ =>
      (yields_value _).bind fun _ hv => Scan.yields_bind fun _ => Scan.yields_pure hv
  have htable : Scan.Yields Line.Distinct tableHeader :=
    Scan.yields_bind fun _ => Scan.yields_bind fun _ => Scan.yields_bind fun _ =>
      Scan.yields_bind fun _ => Scan.yields_pure trivial
  have hitem : Scan.Yields Line.Distinct itemHeader :=
    Scan.yields_bind fun _ => Scan.yields_bind fun _ => Scan.yields_bind fun _ =>
      Scan.yields_bind fun _ => Scan.yields_pure trivial
  refine Scan.yields_bind fun _ => .orElse ?_ (.orElse ?_ (hitem.orElse (htable.orElse hentry)))
  · exact Scan.yields_bind fun _ => Scan.yields_bind fun _ => Scan.yields_pure trivial
  · exact Scan.yields_bind fun _ => Scan.yields_pure trivial

theorem yields_lines : Scan.Yields (fun ls => ∀ l ∈ ls, Line.Distinct l) lines :=
  Scan.yields_bind fun _ => yields_line.many.bind fun _ hls =>
    Scan.yields_bind fun _ => Scan.yields_pure hls

theorem distinct_sections {ls : List Line} (h : ∀ l ∈ ls, Line.Distinct l) :
    (∀ e ∈ (sections ls).1, e.2.Distinct) ∧
      ∀ s ∈ (sections ls).2, ∀ e ∈ s.entries, e.2.Distinct := by
  induction ls with
  | nil => exact ⟨List.forall_mem_nil _, List.forall_mem_nil _⟩
  | cons l ls ih =>
    obtain ⟨hl, hls⟩ := List.forall_mem_cons.mp h
    obtain ⟨hentries, hsections⟩ := ih hls
    cases l with
    | blank => exact ⟨hentries, hsections⟩
    | entry path v => exact ⟨List.forall_mem_cons.mpr ⟨hl, hentries⟩, hsections⟩
    | header isItem path =>
      exact ⟨List.forall_mem_nil _, List.forall_mem_cons.mpr ⟨hentries, hsections⟩⟩

theorem Section.distinct_addTo {s : Section} {es es' : Nodes}
    (hs : ∀ e ∈ s.entries, e.2.Distinct) (h : es.Distinct) (hadd : s.addTo es = some es') :
    es'.Distinct := by
  unfold Section.addTo at hadd
  split at hadd
  · exact Nodes.distinct_openItem hs h hadd
  · exact Nodes.distinct_openTable hs h hadd

theorem distinct_foldlM_addTo {ss : List Section} {es es' : Nodes}
    (hss : ∀ s ∈ ss, ∀ e ∈ s.entries, e.2.Distinct) (h : es.Distinct)
    (hadd : ss.foldlM (fun es s => s.addTo es) es = some es') : es'.Distinct := by
  induction ss generalizing es with
  | nil =>
    cases hadd
    exact h
  | cons s ss ih =>
    obtain ⟨hs, hrest⟩ := List.forall_mem_cons.mp hss
    obtain ⟨es'', hes'', hadd⟩ := Option.bind_eq_some_iff.mp hadd
    exact ih hrest (Section.distinct_addTo hs h hes'') hadd

/-- No table of a text has a key twice. -/
theorem distinct_of_parse? {text : String} {entries : List (String × Value)}
    (h : parse? text = some entries) : (Value.table entries).Distinct := by
  obtain ⟨ls, hls, h⟩ := Option.bind_eq_some_iff.mp h
  obtain ⟨hentries, hsections⟩ := distinct_sections (yields_lines.whole? hls)
  obtain ⟨root, hroot, h⟩ := Option.bind_eq_some_iff.mp h
  obtain ⟨root', hroot', h⟩ := Option.bind_eq_some_iff.mp h
  cases h
  have hstart := Nodes.distinct_defineAll hentries Nodes.distinct_nil hroot
  exact (distinct_foldlM_addTo hsections hstart hroot').finish

end RunControl.Toml
