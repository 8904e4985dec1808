import KubeClient.Proofs.Addresses

/-!
# Segments of paths

A server cuts the path of an address at its slashes and decodes each piece. A text that goes into a
path as it is comes out again only if it is one piece and nothing in it is decoded.

* `Percent.hasEscape` : a text with something to decode;
* `Percent.decode_cases` : without an escape nothing is decoded, and with one the bytes get fewer;
* `Address.path`, `Address.segments` : the path of an address, and its pieces;
* `Address.LeadsTo` : an address that leads to one object, or to a part of it, and to nothing else;
* `Address.leadsTo_iff` : this is so exactly for the names that a path keeps.
-/

namespace KubeClient

/-! ### Bytes of a text -/

namespace Utf8

theorem encode_cons (c : Char) (cs : List Char) :
    encode (String.ofList (c :: cs)) =
      encode (String.singleton c) ++ encode (String.ofList cs) := by
  have hsplit : String.ofList (c :: cs) = String.singleton c ++ String.ofList cs := by simp
  rw [encode, encode, encode, hsplit]
  simp

theorem encode_singleton_ne_nil (c : Char) : encode (String.singleton c) ≠ [] := by
  intro hnil
  have hread := decode?_encode (String.singleton c)
  rw [hnil, ← show encode "" = [] from rfl, decode?_encode] at hread
  simpa using congrArg String.toList (Option.some.inj hread)

theorem eq_encode_of_decode? {bs : Bytes} {s : String} (h : decode? bs = some s) :
    bs = encode s := by
  rw [decode?, String.fromUTF8?] at h
  split at h
  · obtain rfl := Option.some.inj h
    simp [encode, String.fromUTF8]
  · cases h

/-- The number of bytes of a text. -/
def size (cs : List Char) : Nat :=
  (encode (String.ofList cs)).length

theorem size_cons (c : Char) (cs : List Char) :
    size (c :: cs) = (encode (String.singleton c)).length + size cs := by
  rw [size, encode_cons, List.length_append, size]

theorem size_lt_size_cons (c : Char) (cs : List Char) : size cs < size (c :: cs) := by
  have hpos := List.length_pos_of_ne_nil (encode_singleton_ne_nil c)
  rw [size_cons]
  omega

theorem size_le_of_sublist {xs ys : List Char} (h : xs.Sublist ys) : size xs ≤ size ys := by
  induction h with
  | slnil => exact Nat.le_refl _
  | cons c _ ih => exact Nat.le_trans ih (Nat.le_of_lt (size_lt_size_cons c _))
  | cons_cons c _ ih => rw [size_cons, size_cons]; omega

/-- A part that has as many bytes as the whole is the whole. -/
theorem eq_of_sublist_of_size_le {xs ys : List Char} (h : xs.Sublist ys)
    (hsize : size ys ≤ size xs) : xs = ys := by
  induction h with
  | slnil => rfl
  | @cons xs ys c h _ =>
    have hxs := size_le_of_sublist h
    have hys := size_lt_size_cons c ys
    omega
  | cons_cons c _ ih =>
    rw [size_cons, size_cons] at hsize
    rw [ih (by omega)]

end Utf8

/-! ### Escapes -/

namespace Percent

/-- There is a percent sign with two digits behind it, which together stand for a byte. -/
def hasEscape : List Char → Bool
  | '%' :: a :: b :: cs =>
    ((hexValue? a).isSome && (hexValue? b).isSome) || hasEscape (a :: b :: cs)
  | _ :: cs => hasEscape cs
  | [] => false

/-- Without an escape nothing is decoded, and with one the bytes get fewer. -/
theorem decode_cases (cs : List Char) :
    (hasEscape cs = false ∧ decode cs = Utf8.encode (String.ofList cs)) ∨
      (hasEscape cs = true ∧ (decode cs).length < Utf8.size cs) := by
  fun_induction decode cs with
  | case1 => exact .inl ⟨rfl, rfl⟩
  | case2 a b cs m n hlow hhigh ih =>
    -- three characters have become one byte
    have hle : (decode cs).length ≤ Utf8.size cs := by
      rcases ih with ⟨-, hsame⟩ | ⟨-, hless⟩
      · rw [hsame, Utf8.size]
      · exact Nat.le_of_lt hless
    have hb := Utf8.size_lt_size_cons b cs
    have ha := Utf8.size_lt_size_cons a (b :: cs)
    have hpercent := Utf8.size_lt_size_cons '%' (a :: b :: cs)
    refine .inr ⟨by simp [hasEscape, hlow, hhigh], ?_⟩
    simp only [List.length_cons]
    omega
  | case3 a b cs hnone ih =>
    have hdigits : ((hexValue? a).isSome && (hexValue? b).isSome) = false := by
      cases ha : hexValue? a with
      | none => rfl
      | some m =>
        cases hb : hexValue? b with
        | none => rfl
        | some n => exact absurd hb (hnone m n ha)
    have hpercent : Utf8.encode (String.singleton '%') = [0x25] := rfl
    rw [hasEscape, hdigits, Bool.false_or, Utf8.encode_cons, Utf8.size_cons, hpercent]
    simpa [Utf8.size, Nat.add_comm] using ih
  | case4 c cs hc ih =>
    have hescape : hasEscape (c :: cs) = hasEscape cs := by
      rw [hasEscape]
      exact hc
    rw [hescape, Utf8.encode_cons, Utf8.size_cons, List.length_append]
    simpa using ih

end Percent

namespace Address

/-! ### Paths and their pieces -/

/-- There is a character that ends a path. -/
def HasMark (cs : List Char) : Prop :=
  '?' ∈ cs ∨ '#' ∈ cs

instance (cs : List Char) : Decidable (HasMark cs) :=
  inferInstanceAs (Decidable (_ ∨ _))

/-- What a server takes for the path of an address: all in front of a query or a fragment. -/
def path (url : List Char) : List Char :=
  url.takeWhile fun c => c != '?' && c != '#'

/-- The pieces of a path between its slashes; empty ones do not count. -/
def segments (path : List Char) : List (List Char) :=
  (path.splitOn '/').filter (· ≠ [])

theorem all_unmarked {cs : List Char} (h : ¬HasMark cs) :
    ∀ c ∈ cs, (c != '?' && c != '#') = true := by
  intro c hc
  simp only [Bool.and_eq_true, bne_iff_ne]
  constructor
  · rintro rfl
    exact h (.inl hc)
  · rintro rfl
    exact h (.inr hc)

theorem path_append {cs : List Char} (h : ¬HasMark cs) (ds : List Char) :
    path (cs ++ ds) = cs ++ path ds :=
  List.takeWhile_append_of_pos (all_unmarked h)

theorem path_append_of_hasMark {cs : List Char} (h : HasMark cs) (ds : List Char) :
    path (cs ++ ds) = path cs := by
  induction cs with
  | nil => simp [HasMark] at h
  | cons c cs ih =>
    by_cases hc : c = '?' ∨ c = '#'
    · rcases hc with rfl | rfl <;> simp [path]
    · rw [not_or] at hc
      have hrest : HasMark cs := by
        simpa [HasMark, Ne.symm hc.1, Ne.symm hc.2] using h
      have hsame := ih hrest
      simp only [path] at hsame ⊢
      simp [hc, hsame]

theorem path_sublist (cs : List Char) : (path cs).Sublist cs :=
  List.takeWhile_sublist _

theorem not_hasMark_path (cs : List Char) : ¬HasMark (path cs) := by
  rintro (h | h) <;> simpa using List.mem_takeWhile_imp h

theorem path_queryText (pairs : Pairs) : path (Request.queryText pairs) = [] := by
  cases pairs <;> simp [path, Request.queryText]

theorem flatten_filter_ne_nil (pieces : List (List Char)) :
    (pieces.filter (· ≠ [])).flatten = pieces.flatten := by
  induction pieces with
  | nil => rfl
  | cons piece pieces ih => by_cases h : piece = [] <;> simp_all

/-- The pieces hold all that is no slash. -/
theorem flatten_segments (cs : List Char) : (segments cs).flatten = cs.filter (· ≠ '/') := by
  rw [segments, flatten_filter_ne_nil, List.splitOn_eq_splitOnP]
  induction cs with
  | nil => rfl
  | cons c cs ih =>
    rw [List.splitOnP_cons_eq_if_modifyHead]
    by_cases hc : c = '/'
    · simp [hc, ih]
    · obtain ⟨piece, pieces, hsplit⟩ :=
        List.exists_cons_of_ne_nil (List.splitOnP_ne_nil (· == '/') cs)
      rw [hsplit] at ih ⊢
      simp_all

theorem segments_append_slash (cs ds : List Char) :
    segments (cs ++ '/' :: ds) = segments cs ++ segments ds := by
  rw [segments, List.splitOn_eq_splitOnP, List.splitOnP_append_cons _ _ (by simp)]
  simp [segments, List.splitOn_eq_splitOnP]

theorem segments_singleton {cs : List Char} (hne : cs ≠ []) (h : '/' ∉ cs) :
    segments cs = [cs] := by
  rw [segments, List.splitOn_eq_singleton h]
  simp [hne]

theorem segments_slashes (cs : List Char) (n : Nat) :
    segments (cs ++ List.replicate n '/') = segments cs := by
  induction n generalizing cs with
  | zero => simp
  | succ n ih =>
    have hnil := ih []
    rw [List.nil_append] at hnil
    rw [List.replicate_succ, segments_append_slash, hnil]
    simp [segments]

theorem segments_trimSlashes (base : List Char) :
    segments (Request.trimSlashes base) = segments base := by
  obtain ⟨⟨n, hbase⟩, -⟩ := Request.trimSlashes_spec base
  conv_rhs => rw [hbase, segments_slashes]

theorem hasMark_trimSlashes (base : List Char) :
    HasMark (Request.trimSlashes base) ↔ HasMark base := by
  obtain ⟨⟨n, hbase⟩, -⟩ := Request.trimSlashes_spec base
  conv_rhs => rw [hbase]
  simp [HasMark]

/-! ### Paths that are put together -/

/-- The text is one piece of a path. -/
structure IsSegment (s : String) : Prop where
  ne_empty : s ≠ ""
  noSlash : '/' ∉ s.toList
  unmarked : ¬HasMark s.toList

instance (s : String) : Decidable (IsSegment s) :=
  decidable_of_iff (s ≠ "" ∧ '/' ∉ s.toList ∧ ¬HasMark s.toList)
    ⟨fun h => ⟨h.1, h.2.1, h.2.2⟩, fun h => ⟨h.1, h.2, h.3⟩⟩

/-- Texts with a slash in front of each. -/
def slashed (words : List String) : List Char :=
  words.flatMap fun w => '/' :: w.toList

theorem segments_slashed {words : List String} (h : ∀ w ∈ words, IsSegment w) (cs : List Char) :
    segments (cs ++ slashed words) = segments cs ++ words.map String.toList := by
  induction words generalizing cs with
  | nil => simp [slashed]
  | cons w words ih =>
    have hw := h w List.mem_cons_self
    have hsplit : cs ++ slashed (w :: words) = (cs ++ '/' :: w.toList) ++ slashed words := by
      simp [slashed]
    have hne : w.toList ≠ [] := by simpa using hw.ne_empty
    rw [hsplit, ih fun v hv => h v (List.mem_cons_of_mem w hv), segments_append_slash,
      segments_singleton hne hw.noSlash]
    simp

theorem not_hasMark_slashed {words : List String} (h : ∀ w ∈ words, IsSegment w) :
    ¬HasMark (slashed words) := by
  have hmark (c : Char) (hslash : c ≠ '/') (hc : ∀ w ∈ words, c ∉ w.toList) :
      c ∉ slashed words := by
    simpa [slashed, hslash] using hc
  rintro (hmem | hmem)
  · exact hmark '?' (by decide) (fun w hw hc => (h w hw).unmarked (.inl hc)) hmem
  · exact hmark '#' (by decide) (fun w hw hc => (h w hw).unmarked (.inr hc)) hmem

/-! ### Addresses of objects -/

/-- An address leads to one object below the segments `above`, or to the part of it that `part`
names, and to nothing else: there is one more segment, which is decoded as the name, and the query
holds the pairs. -/
structure LeadsTo (url : List Char) (above : List (List Char)) (name : String)
    (part : List String) (pairs : Pairs) : Prop where
  segments : ∃ segment, segments (path url) = above ++ segment :: part.map String.toList ∧
    Query.half? segment = some name
  query : Query.ofUrl? url = some pairs

/-- A path keeps a name: it is one piece, and nothing in it is decoded. -/
structure Keeps (name : String) : Prop extends IsSegment name where
  noEscape : Percent.hasEscape name.toList = false

instance (name : String) : Decidable (Keeps name) :=
  decidable_of_iff (IsSegment name ∧ Percent.hasEscape name.toList = false)
    ⟨fun h => ⟨h.1, h.2⟩, fun h => ⟨h.1, h.2⟩⟩

/-- Where some of a name is decoded as the whole name, it is all of it, and has no escape. -/
theorem eq_of_half? {segment : List Char} {name : String} (hsub : segment.Sublist name.toList)
    (h : Query.half? segment = some name) :
    segment = name.toList ∧ Percent.hasEscape name.toList = false := by
  have hbytes : Percent.decode segment = Utf8.encode name := Utf8.eq_encode_of_decode? h
  have hsize : Utf8.size name.toList = (Percent.decode segment).length := by
    rw [hbytes, Utf8.size, String.ofList_toList]
  have hle := Utf8.size_le_of_sublist hsub
  rcases Percent.decode_cases segment with ⟨hescape, hsame⟩ | ⟨-, hless⟩
  · rw [hsame, ← Utf8.size] at hsize
    have hall := Utf8.eq_of_sublist_of_size_le hsub (Nat.le_of_eq hsize)
    exact ⟨hall, hall ▸ hescape⟩
  · omega

theorem half?_of_not_hasEscape {name : String} (h : Percent.hasEscape name.toList = false) :
    Query.half? name.toList = some name := by
  rcases Percent.decode_cases name.toList with ⟨-, hsame⟩ | ⟨hescape, -⟩
  · rw [Query.half?, hsame, String.ofList_toList, Utf8.decode?_encode]
  · rw [h] at hescape
    cases hescape

section

variable {base : String} {words part : List String} {pairs : Pairs} {name : String}

/-- The address of an object, or of a part of it: the address of the server, the segments that lead
to the collection, the name as it is, the part, and the query. -/
def ofObject (base : String) (words : List String) (name : String) (part : List String)
    (pairs : Pairs) : List Char :=
  Request.trimSlashes base.toList ++ slashed (words ++ name :: part) ++ Request.queryText pairs

/-- What stands in front of the name, and behind it. -/
theorem ofObject_eq : ofObject base words name part pairs =
    (Request.trimSlashes base.toList ++ slashed words) ++
      '/' :: (name.toList ++ (slashed part ++ Request.queryText pairs)) := by
  simp [ofObject, slashed]

/-- What is addressed: below the collection come the pieces of the name, up to a character that ends
the path. Without one the part follows. -/
theorem segments_ofObject (hwords : ∀ w ∈ words, IsSegment w) (hpart : ∀ w ∈ part, IsSegment w)
    (hbase : ¬HasMark base.toList) :
    segments (path (ofObject base words name part pairs)) =
      segments base.toList ++ words.map String.toList ++ segments (path name.toList) ++
        if HasMark name.toList then [] else part.map String.toList := by
  have hfront : ¬HasMark (Request.trimSlashes base.toList ++ slashed words ++ ['/']) := by
    have hserver := (hasMark_trimSlashes base.toList).not.mpr hbase
    have hcollection := not_hasMark_slashed hwords
    simp only [HasMark, not_or, List.mem_append, List.mem_singleton] at hserver hcollection ⊢
    simp [hserver, hcollection]
  have hurl : ofObject base words name part pairs =
      (Request.trimSlashes base.toList ++ slashed words ++ ['/']) ++
        (name.toList ++ (slashed part ++ Request.queryText pairs)) := by
    simp [ofObject_eq]
  rw [hurl, path_append hfront, List.append_assoc _ ['/'], List.singleton_append,
    segments_append_slash, segments_slashed hwords, segments_trimSlashes]
  by_cases hmark : HasMark name.toList
  · rw [path_append_of_hasMark hmark, if_pos hmark, List.append_nil]
  · have hname : path name.toList = name.toList := by
      simpa [path] using path_append hmark []
    rw [path_append hmark, path_append (not_hasMark_slashed hpart), path_queryText, if_neg hmark,
      List.append_nil, segments_slashed hpart, hname]
    simp

theorem ofUrl?_ofObject (hwords : ∀ w ∈ words, IsSegment w) (hpart : ∀ w ∈ part, IsSegment w)
    (hbase : ¬HasMark base.toList) (hname : IsSegment name) :
    Query.ofUrl? (ofObject base words name part pairs) = some pairs := by
  have hall : ∀ w ∈ words ++ name :: part, IsSegment w := by
    intro w hw
    rcases List.mem_append.mp hw with hw | hw
    · exact hwords w hw
    · rcases List.mem_cons.mp hw with rfl | hw
      · exact hname
      · exact hpart w hw
  have hserver := (hasMark_trimSlashes base.toList).not.mpr hbase
  have hwhole := not_hasMark_slashed hall
  simp only [HasMark, not_or] at hserver hwhole
  let r : Request := { method := .get, path := String.ofList (slashed (words ++ name :: part))
                       query := pairs }
  have hurl : (r.url base).toList = ofObject base words name part pairs := by
    simp [Request.toList_url, ofObject, r]
  rw [← hurl]
  exact Request.ofUrl?_url (by simp [r, hserver, hwhole]) (by simp [r, hserver, hwhole])

/-- Behind a mark of its own, the address of the server hides all that follows. -/
theorem segments_ofObject_ne (hbase : HasMark base.toList) (hwords : ∀ w ∈ words, IsSegment w)
    (hne : words ≠ []) (below : List (List Char)) :
    segments (path (ofObject base words name part pairs)) ≠
      segments base.toList ++ words.map String.toList ++ below := by
  intro heq
  have hserver := (hasMark_trimSlashes base.toList).mpr hbase
  rw [ofObject, List.append_assoc, path_append_of_hasMark hserver] at heq
  -- the pieces on the left have fewer characters than the address of the server alone
  have htrim : (Request.trimSlashes base.toList).Sublist base.toList :=
    (List.rdropWhile_prefix (· == '/') base.toList).sublist
  have hsub := (path_sublist (Request.trimSlashes base.toList)).trans htrim
  have hle := (hsub.filter fun c => decide (c ≠ '/')).length_le
  have hflat := congrArg (fun pieces => pieces.flatten.length) heq
  obtain ⟨w, ws, rfl⟩ := List.exists_cons_of_ne_nil hne
  have hw : 0 < w.toList.length :=
    List.length_pos_of_ne_nil (by simpa using (hwords w List.mem_cons_self).ne_empty)
  simp only [List.flatten_append, List.length_append, flatten_segments, List.map_cons,
    List.flatten_cons] at hflat
  omega

/-- An address leads to the object of a name exactly if the address of the server has no query or
fragment of its own and the path keeps the name. -/
theorem leadsTo_iff (hwords : ∀ w ∈ words, IsSegment w) (hne : words ≠ [])
    (hpart : ∀ w ∈ part, IsSegment w) :
    LeadsTo (ofObject base words name part pairs)
        (segments base.toList ++ words.map String.toList) name part pairs ↔
      ¬HasMark base.toList ∧ Keeps name := by
  constructor
  · rintro ⟨⟨segment, hsegments, hdecoded⟩, -⟩
    have hbase : ¬HasMark base.toList :=
      fun hmark => segments_ofObject_ne hmark hwords hne _ hsegments
    rw [segments_ofObject hwords hpart hbase, List.append_assoc,
      List.append_cancel_left_eq] at hsegments
    by_cases hmark : HasMark name.toList
    · -- the segment would be all of the name, but the path ends in front of the mark
      rw [if_pos hmark, List.append_nil] at hsegments
      have hflat := congrArg List.flatten hsegments
      rw [flatten_segments, List.flatten_cons] at hflat
      have hsub : segment.Sublist (path name.toList) :=
        (List.sublist_append_left segment _).trans (hflat ▸ List.filter_sublist)
      obtain ⟨rfl, -⟩ := eq_of_half? (hsub.trans (path_sublist _)) hdecoded
      exact absurd (hmark.imp (fun h => hsub.mem h) fun h => hsub.mem h) (not_hasMark_path _)
    · have hpath : path name.toList = name.toList := by
        simpa [path] using path_append hmark []
      rw [if_neg hmark, hpath, ← List.singleton_append,
        List.append_cancel_right_eq] at hsegments
      have hflat := congrArg List.flatten hsegments
      rw [flatten_segments, List.flatten_singleton] at hflat
      obtain ⟨rfl, hescape⟩ := eq_of_half? (hflat ▸ List.filter_sublist) hdecoded
      refine ⟨hbase, ⟨⟨?_, ?_, hmark⟩, hescape⟩⟩
      · rintro rfl
        cases hsegments
      · intro hslash
        have hkept := List.filter_eq_self.mp hflat '/' hslash
        simp at hkept
  · rintro ⟨hbase, hname⟩
    refine ⟨⟨name.toList, ?_, half?_of_not_hasEscape hname.noEscape⟩,
      ofUrl?_ofObject hwords hpart hbase hname.toIsSegment⟩
    have hpath : path name.toList = name.toList := by
      simpa [path] using path_append hname.unmarked []
    have hsingle := segments_singleton (by simpa using hname.ne_empty) hname.noSlash
    rw [segments_ofObject hwords hpart hbase, hpath, hsingle, if_neg hname.unmarked]
    simp

end

end Address
end KubeClient
