import KubeClient.Http.Request
import Mathlib.Data.List.TakeWhile

/-!
# The text of a query

Percent encoding leaves out the characters that keep the parts of an address apart. So a query is
read back as the pairs it was written from, and the address of a request as its pairs.

* `Percent.decode_encode` : the bytes of an encoded text are those of the text;
* `Query.pairs?`, `Query.ofUrl?` : the pairs of a query, and of an address;
* `Query.pairs?_text` : a written query is read as its pairs;
* `Request.ofUrl?_url` : the address of a request has the pairs of the request.
-/

namespace KubeClient

/-! ### Percent encoding -/

namespace Percent

/-- What is checked of all numbers below 256 holds of all bytes. -/
theorem forall_byte {P : UInt8 → Prop} (h : ∀ n : Fin 256, P (UInt8.ofNat n.val)) (b : UInt8) :
    P b := by
  simpa using h ⟨b.toNat, b.toNat_lt⟩

/-- A byte that is written as it is is ASCII, and no percent sign. -/
theorem char_of_plain : ∀ b, isPlain b = true →
    Char.ofNat b.toNat ≠ '%' ∧ Utf8.encode (String.singleton (Char.ofNat b.toNat)) = [b] :=
  forall_byte (by decide +kernel)

theorem hexValue?_hexDigit : ∀ n : Fin 16, hexValue? (hexDigit n.val) = some n.val := by
  decide

theorem decode_cons {c : Char} (h : c ≠ '%') (cs : List Char) :
    decode (c :: cs) = Utf8.encode (String.singleton c) ++ decode cs := by
  rw [decode]
  intro a b cs hc
  exact absurd hc h

theorem decode_encodeByte (b : UInt8) (rest : List Char) :
    decode (encodeByte b ++ rest) = b :: decode rest := by
  unfold encodeByte
  split
  · rename_i hplain
    obtain ⟨hpercent, hbytes⟩ := char_of_plain b hplain
    rw [List.singleton_append, decode_cons hpercent, hbytes, List.singleton_append]
  · have hb : b.toNat < 256 := b.toNat_lt
    have hhigh := hexValue?_hexDigit ⟨b.toNat / 16, by omega⟩
    have hlow := hexValue?_hexDigit ⟨b.toNat % 16, by omega⟩
    have hvalue : b.toNat / 16 * 16 + b.toNat % 16 = b.toNat := Nat.div_add_mod' _ _
    simp only [List.cons_append, List.nil_append, decode, hhigh, hlow, hvalue, UInt8.ofNat_toNat]

theorem decode_encodeBytes (bs : Bytes) : decode (encodeBytes bs) = bs := by
  induction bs with
  | nil => rfl
  | cons b bs ih => rw [encodeBytes, List.flatMap_cons, decode_encodeByte, ← encodeBytes, ih]

/-- The bytes of an encoded text are those of the text. -/
theorem decode_encode (s : String) : decode (encode s).toList = Utf8.encode s := by
  rw [encode, String.toList_ofList, decode_encodeBytes]

/-- The characters that keep the parts of an address apart. -/
def separators : List Char := ['&', '=', '?', '#']

theorem all_separators_not_mem : ∀ b, separators.all (fun c => decide (c ∉ encodeByte b)) = true :=
  forall_byte (by decide +kernel)

theorem separator_not_mem_encode {c : Char} (h : c ∈ separators) (s : String) :
    c ∉ (encode s).toList := by
  rw [encode, String.toList_ofList, encodeBytes, List.mem_flatMap]
  rintro ⟨b, -, hc⟩
  exact of_decide_eq_true (List.all_eq_true.mp (all_separators_not_mem b) c h) hc

end Percent

/-! ### Reading a query -/

namespace Query

/-- The text that was encoded. -/
def half? (cs : List Char) : Option String :=
  Utf8.decode? (Percent.decode cs)

/-- A name and a value: what is in front of the first equals sign, and what is behind it. -/
def pair? (cs : List Char) : Option (String × String) := do
  let name ← half? (cs.takeWhile (· != '='))
  let value ← half? ((cs.dropWhile (· != '=')).drop 1)
  return (name, value)

/-- The pairs of a query, in order. -/
def pairs? (cs : List Char) : Option Pairs :=
  (cs.splitOn '&').mapM pair?

/-- The pairs of an address: what is behind its first question mark, up to a fragment. -/
def ofUrl? (url : List Char) : Option Pairs :=
  match (url.takeWhile (· != '#')).dropWhile (· != '?') with
  | [] => some []
  | _ :: query => pairs? query

/-- The values of a name, in order. -/
def values (name : String) (pairs : Pairs) : List String :=
  (pairs.filter (·.1 = name)).map (·.2)

/-! ### Reading what was written -/

theorem half?_encode (s : String) : half? (Percent.encode s).toList = some s := by
  rw [half?, Percent.decode_encode, Utf8.decode?_encode]

theorem pair?_pairText (p : String × String) : pair? (Request.pairText p) = some p := by
  have hname : ∀ c ∈ (Percent.encode p.1).toList, (c != '=') = true := by
    intro c hc
    rw [bne_iff_ne]
    rintro rfl
    exact Percent.separator_not_mem_encode (by decide) p.1 hc
  have hstop (cs : List Char) : ('=' :: cs).takeWhile (· != '=') = [] ∧
      ('=' :: cs).dropWhile (· != '=') = '=' :: cs := ⟨rfl, rfl⟩
  rw [pair?, Request.pairText, List.takeWhile_append_of_pos hname,
    List.dropWhile_append_of_pos hname, (hstop _).1, (hstop _).2, List.append_nil, half?_encode,
    List.drop_one, List.tail_cons, half?_encode]
  rfl

theorem separator_not_mem_pairText {c : Char} (h : c ∈ Percent.separators) (hc : c ≠ '=')
    (p : String × String) : c ∉ Request.pairText p := by
  rw [Request.pairText, List.mem_append, List.mem_cons]
  rintro (hmem | rfl | hmem)
  · exact Percent.separator_not_mem_encode h p.1 hmem
  · exact hc rfl
  · exact Percent.separator_not_mem_encode h p.2 hmem

/-- The pairs of a query, with `&` between them. -/
def text (pairs : Pairs) : List Char :=
  ['&'].intercalate (pairs.map Request.pairText)

theorem text_cons (p : String × String) (ps : Pairs) :
    text (p :: ps) = Request.pairText p ++ ps.flatMap fun p => '&' :: Request.pairText p := by
  -- the first pair is general, as each pair comes first in its turn
  induction ps generalizing p with
  | nil => simp [text]
  | cons q ps ih =>
    rw [text, List.map_cons, List.map_cons, List.intercalate_cons_cons, ← List.map_cons, ← text,
      ih q, List.flatMap_cons, List.append_assoc, List.singleton_append, List.cons_append]

/-- The text behind the question mark of a written query. -/
theorem queryText_eq {pairs : Pairs} (h : pairs ≠ []) :
    Request.queryText pairs = '?' :: text pairs := by
  obtain ⟨p, ps, rfl⟩ := List.exists_cons_of_ne_nil h
  rw [text_cons]
  rfl

theorem mapM_pair?_pairText (pairs : Pairs) :
    (pairs.map Request.pairText).mapM pair? = some pairs := by
  induction pairs with
  | nil => rfl
  | cons p ps ih => rw [List.map_cons, List.mapM_cons, pair?_pairText, ih]; rfl

/-- A written query is read as its pairs. -/
theorem pairs?_text {pairs : Pairs} (h : pairs ≠ []) : pairs? (text pairs) = some pairs := by
  have hsplit : (text pairs).splitOn '&' = pairs.map Request.pairText := by
    -- no pair holds the character that keeps them apart
    refine List.splitOn_intercalate '&' ?_ (by simpa using h)
    intro cs hcs
    obtain ⟨p, -, rfl⟩ := List.mem_map.mp hcs
    exact separator_not_mem_pairText (by decide) (by decide) p
  rw [pairs?, hsplit, mapM_pair?_pairText]

theorem fragment_not_mem_queryText (pairs : Pairs) : '#' ∉ Request.queryText pairs := by
  have hpair (p : String × String) : '#' ∉ Request.pairText p :=
    separator_not_mem_pairText (by decide) (by decide) p
  cases pairs with
  | nil => exact List.not_mem_nil
  | cons p ps => simp [Request.queryText, hpair]

end Query

namespace Request

/-- The address of a request has the pairs of the request, where the address of the server and the
path have no query of their own. -/
theorem ofUrl?_url {r : Request} {base : String}
    (hmark : '?' ∉ trimSlashes base.toList ++ r.path.toList)
    (hhash : '#' ∉ trimSlashes base.toList ++ r.path.toList) :
    Query.ofUrl? (r.url base).toList = some r.query := by
  have hfragment : ∀ c ∈ (r.url base).toList, (c != '#') = true := by
    intro c hc
    rw [url, String.toList_ofList, List.mem_append] at hc
    rw [bne_iff_ne]
    rintro rfl
    exact hc.elim hhash (Query.fragment_not_mem_queryText r.query)
  have hfront : ∀ c ∈ trimSlashes base.toList ++ r.path.toList, (c != '?') = true := by
    intro c hc
    rw [bne_iff_ne]
    rintro rfl
    exact hmark hc
  rw [Query.ofUrl?, List.takeWhile_eq_self_iff.mpr hfragment, url, String.toList_ofList,
    List.dropWhile_append_of_pos hfront]
  cases hquery : r.query with
  | nil => rfl
  | cons p ps =>
    rw [Query.queryText_eq (List.cons_ne_nil p ps)]
    exact Query.pairs?_text (List.cons_ne_nil p ps)

end Request
end KubeClient
