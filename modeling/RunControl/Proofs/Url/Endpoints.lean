/-
RunControl/Proofs/Url/Endpoints.lean

Where the requests of a client lead.  The address of a backend has a scheme and an authority, and
its path may lead to somewhere below the root of the host.  Every request keeps the scheme and the
authority, and its path is the path of the address with the endpoint behind it, with one slash
between the two; no segment of the path is lost, whether a slash ends it or not, and the query and
the fragment of the address are of no account (`requests_below_base`).  This is so because no
endpoint is an address of its own, starts at the root of the host, or is empty
(`Call.endpoint_beside`): any of these would lead elsewhere.

What a text comes to as an address is read off the characters that count (`relevant`).  They are
cut where the query or the fragment starts (`Cut`), and everything that requests need of an
address is in front of that cut (`Cut.parse`).  Two addresses whose fronts differ in one slash at
their ends at most are `Nearby`; their authorities are read off the same characters, and their
paths are closed to the same segments (`Nearby.parts`).
-/
import RunControl.Client
import RunControl.Proofs.Settings.Checked
import RunControl.Proofs.Url.References

namespace RunControl

namespace Url

variable {s address other scheme : String} {front tail tail' : List Char}

/-! ### The characters that count -/

/-- Nothing of the scheme and the slashes after it is a margin or left out. -/
theorem exists_relevant_eq (h : Settings.HasHost s) :
    ∃ scheme ∈ ["http", "https"], ∃ rest,
      relevant s = scheme.toList ++ ':' :: '/' :: '/' :: rest := by
  obtain ⟨scheme, hscheme, c, rest, -, hs⟩ := h
  have hsolid : ∀ d ∈ scheme.toList, (d != '\t' && d != '\n' && d != '\r') = true := by
    simp only [List.mem_cons, List.not_mem_nil, or_false] at hscheme
    rcases hscheme with rfl | rfl
    · exact List.all_eq_true.mp rfl
    · exact List.all_eq_true.mp rfl
  -- the margins are taken off behind the slashes at most
  obtain ⟨kept, hkept⟩ : ∃ kept, relevant s = scheme.toList ++ kept := by
    have hhead : ∀ cs, (scheme.toList ++ cs).dropWhile (fun c => decide (c.toNat ≤ 0x20))
        = scheme.toList ++ cs := by
      intro cs
      simp only [List.mem_cons, List.not_mem_nil, or_false] at hscheme
      rcases hscheme with rfl | rfl <;> rfl
    have hlast : ∀ cs : List Char, ∃ cs', (cs.reverse ++ scheme.toList.reverse).dropWhile
        (fun c => decide (c.toNat ≤ 0x20)) = cs' ++ scheme.toList.reverse := by
      intro cs
      rw [List.dropWhile_append]
      split
      · refine ⟨[], ?_⟩
        simp only [List.mem_cons, List.not_mem_nil, or_false] at hscheme
        rcases hscheme with rfl | rfl <;> rfl
      · exact ⟨_, rfl⟩
    obtain ⟨cs', hcs'⟩ := hlast (c :: rest)
    refine ⟨cs'.reverse.filter fun c => c != '\t' && c != '\n' && c != '\r', ?_⟩
    unfold relevant
    dsimp only
    rw [hs, hhead, List.reverse_append, hcs', List.reverse_append, List.reverse_reverse,
      List.filter_append, List.filter_eq_self.mpr hsolid]
  simp only [List.mem_cons, List.not_mem_nil, or_false] at hscheme
  rcases hscheme with rfl | rfl
  · exact ⟨"http", List.mem_cons_self, kept, hkept⟩
  · exact ⟨"https", List.mem_cons_of_mem _ (List.mem_singleton_self _), kept, hkept⟩

theorem not_of_head?_dropWhile {p : Char → Bool} {c : Char} {cs : List Char}
    (h : (cs.dropWhile p).head? = some c) : p c = false := by
  have hstop := List.head?_dropWhile_not p cs
  rw [h] at hstop
  exact Bool.eq_false_iff.mpr (by simpa using hstop)

/-- What counts of an address: its scheme, what stands before its query and its fragment, and
the two with their marks. -/
structure Cut (address scheme : String) (front tail : List Char) : Prop where
  relevant : relevant (Text.trim address) = scheme.toList ++ ':' :: (front ++ tail)
  scheme : scheme ∈ ["http", "https"]
  front : ∀ c ∈ front, c ≠ '?' ∧ c ≠ '#'
  tail : ∀ c, tail.head? = some c → c = '?' ∨ c = '#'

/-- Every address that is taken for one can be cut. -/
theorem exists_cut (h : Settings.isUrl address = true) :
    ∃ scheme front tail, Cut address scheme front tail := by
  obtain ⟨scheme, hscheme, rest, hs⟩ := exists_relevant_eq (Settings.isUrl_iff.mp h)
  let isPlain : Char → Bool := fun c => c != '?' && c != '#'
  refine ⟨scheme, ('/' :: '/' :: rest).takeWhile isPlain, ('/' :: '/' :: rest).dropWhile isPlain,
    ?_, hscheme, fun c hc => ?_, fun c hc => ?_⟩
  · rw [List.takeWhile_append_dropWhile]
    exact hs
  · have hplain : isPlain c = true := List.all_eq_true.mp List.all_takeWhile c hc
    simpa [isPlain] using hplain
  · have hmark : isPlain c = false := not_of_head?_dropWhile hc
    by_cases hq : c = '?'
    · exact .inl hq
    · refine .inr ?_
      simpa [isPlain, hq] using hmark

/-! ### The parts of an address -/

/-- The characters of the authority. -/
def authorityChars (front : List Char) : List Char :=
  (front.dropWhile (Kind.isSlash .special)).takeWhile fun c => !Kind.endsAuthority .special c

/-- The characters of the path. -/
def pathChars (front : List Char) : List Char :=
  (front.dropWhile (Kind.isSlash .special)).dropWhile fun c => !Kind.endsAuthority .special c

theorem locate_dropWhile (scheme : String) (front : List Char) :
    locate scheme .special (front.dropWhile (Kind.isSlash .special)) =
      (authority? scheme .special (authorityChars front)).map fun a =>
        (a, pathAfter .special (pathChars front)) := by
  unfold locate authorityChars pathChars
  dsimp only
  cases authority? scheme .special _ <;> rfl

theorem scheme?_append (h : scheme ∈ ["http", "https"]) (rest : List Char) :
    scheme? (scheme.toList ++ ':' :: rest) = some (scheme, rest) := by
  simp only [List.mem_cons, List.not_mem_nil, or_false] at h
  unfold scheme?
  dsimp only
  rcases h with rfl | rfl
  · simp [List.takeWhile, List.dropWhile]
    decide
  · simp [List.takeWhile, List.dropWhile]
    decide

theorem takeWhile_append_of_stop {p : Char → Bool} (hfront : ∀ c ∈ front, p c = true)
    (htail : ∀ c, tail.head? = some c → p c = false) :
    (front ++ tail).takeWhile p = front := by
  rw [List.takeWhile_append_of_pos hfront]
  rcases tail with - | ⟨c, tail⟩
  · simp
  · rw [List.takeWhile_cons_of_neg (by simp [htail c rfl]), List.append_nil]

/-- The query and the fragment are split off at the cut. -/
theorem Cut.splitTail (h : Cut address scheme front tail) :
    (splitTail .special (front ++ tail)).1 = front := by
  -- a query goes up to the fragment, so the fragment is taken off first
  obtain ⟨query, hq, hhead⟩ : ∃ query, (front ++ tail).takeWhile (· != '#') = front ++ query
      ∧ ∀ c, query.head? = some c → c = '?' := by
    refine ⟨tail.takeWhile (· != '#'), ?_, fun c hc => ?_⟩
    · exact List.takeWhile_append_of_pos fun c hc => by simpa using (h.front c hc).2
    · rcases tail with - | ⟨d, tail⟩
      · cases hc
      · rw [List.takeWhile_cons] at hc
        split at hc
        · next hd =>
          obtain rfl : d = c := Option.some.inj hc
          exact (h.tail d rfl).resolve_right (by simpa using hd)
        · cases hc
  unfold Url.splitTail
  dsimp only
  rw [hq]
  apply takeWhile_append_of_stop
  · intro c hc
    simpa using (h.front c hc).1
  · intro c hc
    simp [hhead c hc]

/-- What an address comes to, if its authority can be read. -/
theorem Cut.parse (h : Cut address scheme front tail) :
    ∃ query fragment, Url.parse (Text.trim address) =
      (authority? scheme .special (authorityChars front)).map fun a =>
        { scheme, authority := some a, path := .segments (pathAfter .special (pathChars front)),
          query, fragment } := by
  have hkind : Kind.ofScheme scheme = .special := by
    have hscheme := h.scheme
    simp only [List.mem_cons, List.not_mem_nil, or_false] at hscheme
    rcases hscheme with rfl | rfl <;> rfl
  have hfront := h.splitTail
  obtain ⟨body, query, fragment, hs⟩ :
      ∃ body query fragment, Url.splitTail .special (front ++ tail) = (body, query, fragment) :=
    ⟨_, _, _, rfl⟩
  rw [hs] at hfront
  obtain rfl : body = front := hfront
  refine ⟨query, fragment, ?_⟩
  unfold Url.parse
  rw [h.relevant, scheme?_append h.scheme]
  dsimp only
  rw [hkind, hs]
  dsimp only
  rw [locate_dropWhile]
  cases authority? scheme .special (authorityChars body) <;> rfl

/-! ### One more slash -/

theorem authorityChars_concat (front : List Char) :
    authorityChars (front ++ ['/']) = authorityChars front := by
  unfold authorityChars
  rw [List.dropWhile_append]
  split
  · next hempty => rw [List.isEmpty_iff.mp hempty]; rfl
  · rw [List.takeWhile_append]
    split
    · next hall =>
      rw [(List.takeWhile_sublist _).eq_of_length hall]
      exact List.append_nil _
    · rfl

theorem pathChars_concat (front : List Char) :
    pathChars (front ++ ['/']) = pathChars front ∨
      pathChars (front ++ ['/']) = pathChars front ++ ['/'] := by
  unfold pathChars
  rw [List.dropWhile_append]
  split
  · next hempty => rw [List.isEmpty_iff.mp hempty]; exact .inl rfl
  · refine .inr ?_
    rw [List.dropWhile_append]
    split
    · next hempty => rw [List.isEmpty_iff.mp hempty]; rfl
    · rfl

/-- One more slash at the end of an address makes no difference to the closed path. -/
theorem closed_pathChars_concat (hplain : ∀ c ∈ front, c ≠ '?' ∧ c ≠ '#')
    (hlast : ∀ c, front.getLast? = some c → Kind.isSlash .special c = false) :
    closedSegments (pathAfter .special (pathChars (front ++ ['/'])))
      = closedSegments (pathAfter .special (pathChars front)) := by
  have hsuffix : pathChars front <:+ front :=
    (List.dropWhile_suffix _).trans (List.dropWhile_suffix _)
  rcases pathChars_concat front with hc | hc
  · rw [hc]
  · rw [hc]
    apply closed_pathAfter_concat rfl
    · -- only a slash can end the authority here
      intro c hhead
      have hends := not_of_head?_dropWhile hhead
      obtain ⟨hq, hf⟩ := hplain c (hsuffix.mem (List.mem_of_head? hhead))
      simpa [Kind.endsAuthority, hq, hf] using hends
    · intro c hc
      apply hlast
      obtain ⟨before, hbefore⟩ := hsuffix
      rw [← hbefore, List.getLast?_append, hc]
      rfl

/-! ### Nearby addresses -/

/-- Two addresses that differ in their query and fragment, and perhaps in one slash at the end of
what stands before. -/
inductive Nearby (address other : String) : Prop
  | same {scheme : String} {front tail tail' : List Char}
      (h : Cut address scheme front tail) (h' : Cut other scheme front tail')
  | longer {scheme : String} {front tail tail' : List Char}
      (hlast : ∀ c, front.getLast? = some c → Kind.isSlash .special c = false)
      (h : Cut address scheme front tail) (h' : Cut other scheme (front ++ ['/']) tail')
  | shorter {scheme : String} {front tail tail' : List Char}
      (hlast : ∀ c, front.getLast? = some c → Kind.isSlash .special c = false)
      (h : Cut address scheme (front ++ ['/']) tail) (h' : Cut other scheme front tail')

/-- A path with one slash behind it, unless it ends with one. -/
def withSlash (path : String) : String :=
  if endsWithSlash path then path else path ++ "/"

theorem exists_closedSegments_eq {ss : List String} (hss : ss ≠ []) :
    ∃ base, closedSegments ss = base ++ [""] ∧ (ss = base ∨ ss = base ++ [""]) := by
  obtain ⟨init, s, rfl⟩ := List.eq_nil_or_concat ss |>.resolve_left hss
  rw [List.concat_eq_append]
  by_cases he : s = ""
  · rw [he, closedSegments_concat_empty]
    exact ⟨init, rfl, .inr rfl⟩
  · rw [closedSegments_concat he]
    exact ⟨init ++ [s], by simp, .inl rfl⟩

end Url

/-! ### Endpoints -/

namespace Call

/-- No endpoint is an address of its own, starts at the root of the host, or is empty. -/
theorem endpoint_beside (call : Call) (scheme : String) :
    Url.Reference.ofChars scheme (Url.relevant call.endpoint) = .beside call.endpoint.toList := by
  have hnone : Url.scheme? (Url.relevant call.endpoint) = none := by
    cases call <;> simp only [endpoint] <;> decide
  have hrelative (kind : Url.Kind) :
      Url.Reference.relative kind (Url.relevant call.endpoint) = .beside call.endpoint.toList := by
    cases call <;> simp only [endpoint] <;> cases kind <;> decide
  unfold Url.Reference.ofChars
  rw [hnone]
  exact hrelative _

/-- The segments of an endpoint stand for themselves, and it has the same ones beside every kind of
address. -/
theorem endpoint_plain (call : Call) (kind : Url.Kind) :
    (Url.splitWhere kind.isSlash call.endpoint.toList).map String.ofList
        = Url.segmentsOf call.endpoint ∧
      ∀ part ∈ Url.splitWhere kind.isSlash call.endpoint.toList, Url.IsPlain part := by
  cases call <;> simp only [endpoint] <;> cases kind <;> decide

/-- An endpoint, beside an address with a slash at the end of its path, comes after all segments
of that path. -/
theorem join?_endpoint {u : Url} {base : List String} (hpath : u.path = .segments (base ++ [""]))
    (call : Call) :
    u.join? call.endpoint = .ok
      { scheme := u.scheme, authority := u.authority
        path := .segments (base ++ Url.segmentsOf call.endpoint) } := by
  obtain ⟨hsegments, hplain⟩ := call.endpoint_plain (Url.Kind.ofScheme u.scheme)
  have hmarks : '?' ∉ call.endpoint.toList ∧ '#' ∉ call.endpoint.toList := by
    cases call <;> simp only [endpoint] <;> decide
  unfold Url.join?
  rw [call.endpoint_beside, Url.follow?_beside hpath hmarks.1 hmarks.2 hplain, hsegments]

end Call

/-! ### Requests -/

namespace Client

variable {c : Client}

/-- The request of a client whose address is closed leads below that address. -/
theorem request?_of_closed {base : List String} (hpath : c.base.path = .segments (base ++ [""]))
    (hscheme : c.base.scheme ∈ ["http", "https"]) (call : Call) :
    c.request? call = .ok
      { method := call.method
        url := { scheme := c.base.scheme, authority := c.base.authority,
                 path := .segments (base ++ Url.segmentsOf call.endpoint) }
        body := call.body } := by
  have hhttp : c.base.scheme = "http" ∨ c.base.scheme = "https" := by
    simpa using hscheme
  unfold request?
  rw [call.join?_endpoint hpath]
  exact if_pos hhttp

end Client

namespace Url

variable {address other scheme : String} {front tail : List Char} {u : Url}

/-- An address that was read has a special scheme, a host, and a path with a segment at least. -/
theorem Cut.parse_eq_ok (h : Cut address scheme front tail)
    (hu : Url.parse (Text.trim address) = .ok u) :
    ∃ a, authority? scheme .special (authorityChars front) = .ok a ∧ u.scheme = scheme ∧
      u.authority = some a ∧ u.path = .segments (pathAfter .special (pathChars front)) := by
  obtain ⟨query, fragment, hp⟩ := h.parse
  rw [hp] at hu
  cases ha : authority? scheme .special (authorityChars front) with
  | error e => rw [ha] at hu; cases hu
  | ok a =>
    rw [ha] at hu
    obtain rfl := Except.ok.inj hu
    exact ⟨a, rfl, rfl, rfl, rfl⟩

/-- The client of an address that can be read. -/
theorem Cut.of?_eq_ok (h : Cut address scheme front tail) {a : Authority}
    (ha : authority? scheme .special (authorityChars front) = .ok a) :
    ∃ c, Client.of? address = .ok c ∧ c.base.scheme = scheme ∧ c.base.authority = some a ∧
      c.base.path = .segments (closedSegments (pathAfter .special (pathChars front))) := by
  obtain ⟨query, fragment, hp⟩ := h.parse
  unfold Client.of?
  rw [hp, ha]
  exact ⟨_, rfl, rfl, rfl, Path.closed_segments _⟩

/-- What two addresses that are nearby have in common. -/
theorem Nearby.parts (h : Nearby address other) :
    ∃ scheme front tail front' tail', Cut address scheme front tail ∧
      Cut other scheme front' tail' ∧ authorityChars front' = authorityChars front ∧
      closedSegments (pathAfter .special (pathChars front'))
        = closedSegments (pathAfter .special (pathChars front)) := by
  cases h with
  | same h h' => exact ⟨_, _, _, _, _, h, h', rfl, rfl⟩
  | longer hlast h h' =>
    exact ⟨_, _, _, _, _, h, h', authorityChars_concat _, closed_pathChars_concat h.front hlast⟩
  | shorter hlast h h' =>
    exact ⟨_, _, _, _, _, h, h', (authorityChars_concat _).symm,
      (closed_pathChars_concat h'.front hlast).symm⟩

/-- Every request leads below the path of the address, with the same scheme and authority and
without query and fragment, and one slash more or less, another query or another fragment make no
difference to any of them. -/
theorem requests_below_base (h : Settings.isUrl address = true)
    (hu : Url.parse (Text.trim address) = .ok u) :
    ∃ c, Client.of? address = .ok c ∧
      (∃ base, (u.path = .segments base ∨ u.path = .segments (base ++ [""])) ∧
        c.base = { u with path := .segments (base ++ [""]) } ∧
        c.base.path.text = withSlash u.path.text ∧
        ∀ call, ∃ q, c.request? call = .ok q ∧
          q.url = { scheme := u.scheme, authority := u.authority,
                    path := .segments (base ++ segmentsOf call.endpoint), query := none,
                    fragment := none } ∧
          q.url.path.text = c.base.path.text ++ call.endpoint) ∧
      ∀ other, Nearby address other →
        ∃ c', Client.of? other = .ok c' ∧ ∀ call, c'.request? call = c.request? call := by
  obtain ⟨scheme, front, tail, hcut⟩ := exists_cut h
  obtain ⟨a, ha, hscheme, hauthority, hpath⟩ := hcut.parse_eq_ok hu
  have hbase : Client.of? address = .ok { base := u.closed } := by
    unfold Client.of?
    rw [hu]
  -- the path of the address with a slash at its end, which it may have had before
  have hss := pathAfter_ne_nil (pathChars front)
  obtain ⟨base, hclosed, hfrom⟩ := exists_closedSegments_eq hss
  have hu' : u.closed = { u with path := .segments (base ++ [""]) } := by
    unfold Url.closed
    rw [hpath, Path.closed_segments, hclosed]
  have hscheme' : u.scheme ∈ ["http", "https"] := hscheme ▸ hcut.scheme
  have hq := Client.request?_of_closed (c := { base := u.closed })
    (show u.closed.path = _ by rw [hu']) (show u.scheme ∈ _ from hscheme')
  refine ⟨_, hbase, ⟨base, ?_, hu', ?_, fun call => ⟨_, hq call, rfl, ?_⟩⟩, ?_⟩
  · rw [hpath]
    exact hfrom.imp (congrArg Path.segments) (congrArg Path.segments)
  · -- the text of the closed path
    dsimp only
    rw [hu', hpath, ← hclosed]
    exact text_closedSegments hss (unslashed_pathAfter _)
  · -- the text of an address below it
    dsimp only
    rw [hu', Path.text_append, text_segmentsOf, Path.text_append, Path.text_singleton,
      ← String.append_assoc, String.append_empty]
  · -- the other client has the same scheme, authority and closed path
    intro other hnear
    obtain ⟨scheme', front₀, tail₀, front', tail', hcut₀, hcut', hchars, hclosed'⟩ := hnear.parts
    obtain ⟨a₀, ha₀, hscheme₀, hauthority₀, hpath₀⟩ := hcut₀.parse_eq_ok hu
    obtain ⟨c', hc', hsch, hauth, hpath'⟩ := hcut'.of?_eq_ok (by rw [hchars, ha₀])
    have hpath'' : c'.base.path = .segments (base ++ [""]) := by
      rw [hpath', hclosed', ← Path.closed_segments, ← hpath₀]
      exact congrArg Url.path hu'
    refine ⟨c', hc', fun call => ?_⟩
    rw [Client.request?_of_closed hpath'' (hsch ▸ hscheme₀ ▸ hscheme'), hq, hsch, hauth, ← hscheme₀,
      ← hauthority₀]
    rfl

/-- An address with a user, a port, a path of two segments, a query and a fragment. -/
theorem requests_below_prefix :
    Settings.isUrl "http://u:p@10.0.0.2:8000/api/v1?x=1#frag" = true ∧
      ∃ u, Url.parse (Text.trim "http://u:p@10.0.0.2:8000/api/v1?x=1#frag") = .ok u ∧
        ∃ c c', Client.of? "http://u:p@10.0.0.2:8000/api/v1?x=1#frag" = .ok c ∧
          Client.of? "http://u:p@10.0.0.2:8000/api/v1/" = .ok c' ∧
          c.base.path.text = "/api/v1/" ∧ ∀ call, c'.request? call = c.request? call := by
  have hurl : Settings.isUrl "http://u:p@10.0.0.2:8000/api/v1?x=1#frag" = true := by
    decide +kernel
  have hpath : (Url.parse (Text.trim "http://u:p@10.0.0.2:8000/api/v1?x=1#frag")).toOption.map
      (fun u => u.path) = some (.segments ["api", "v1"]) := by
    decide +kernel
  -- of the address that is read only the path is of interest here
  obtain ⟨u, hu, hp⟩ : ∃ u, Url.parse (Text.trim "http://u:p@10.0.0.2:8000/api/v1?x=1#frag")
      = .ok u ∧ u.path = .segments ["api", "v1"] := by
    cases hread : Url.parse (Text.trim "http://u:p@10.0.0.2:8000/api/v1?x=1#frag") with
    | error e => rw [hread] at hpath; cases hpath
    | ok u => rw [hread] at hpath; exact ⟨u, rfl, Option.some.inj hpath⟩
  obtain ⟨c, hc, ⟨base, -, -, htext, -⟩, hnear⟩ := requests_below_base hurl hu
  have near : Nearby "http://u:p@10.0.0.2:8000/api/v1?x=1#frag"
      "http://u:p@10.0.0.2:8000/api/v1/" := by
    have hplain : ("//u:p@10.0.0.2:8000/api/v1".toList.all fun c => c != '?' && c != '#')
        = true := by
      decide
    have hfront : ∀ c ∈ "//u:p@10.0.0.2:8000/api/v1".toList, c ≠ '?' ∧ c ≠ '#' := by
      intro c hc
      simpa using List.all_eq_true.mp hplain c hc
    have hcut : Cut "http://u:p@10.0.0.2:8000/api/v1?x=1#frag" "http"
        "//u:p@10.0.0.2:8000/api/v1".toList "?x=1#frag".toList :=
      ⟨by decide +kernel, by decide, hfront, by simp⟩
    have hcut' : Cut "http://u:p@10.0.0.2:8000/api/v1/" "http"
        ("//u:p@10.0.0.2:8000/api/v1".toList ++ ['/']) [] :=
      ⟨by decide +kernel, by decide, List.forall_mem_append.mpr ⟨hfront, by simp⟩, by simp⟩
    -- the second address is the first with a slash more, and without what follows the path
    refine .longer (fun c hc => ?_) hcut hcut'
    obtain rfl : '1' = c := by simpa using hc
    rfl
  obtain ⟨c', hc', hsame⟩ := hnear _ near
  refine ⟨hurl, u, hu, c, c', hc, hc', ?_, hsame⟩
  rw [htext, hp]
  decide

end Url

end RunControl
