import KubeClient.Proofs.QueryText
import Mathlib.Data.List.DropRight

/-!
# The parts of an address

An address consists of what is in front of its first question mark, and of a query behind that. A
request can be told from its address: the part in front is the address of the server and the path,
and the query is read as the pairs of the request.

* `Address.front`, `Address.pairs?` : what is in front of the first question mark, and the pairs
  behind it;
* `Request.front_url`, `Request.pairs?_url` : the two parts of a request's address;
* `Request.url_reads_back` : an address is read back, so no two queries have the same one.
-/

namespace KubeClient

namespace Address

/-- What is in front of the first question mark. -/
def front (url : List Char) : List Char :=
  url.takeWhile (· != '?')

/-- The pairs of the query behind the first question mark; without one there are none. -/
def pairs? (url : List Char) : Option Pairs :=
  match url.dropWhile (· != '?') with
  | [] => some []
  | _ :: query => Query.pairs? query

theorem all_ne_mark {cs : List Char} (h : '?' ∉ cs) : ∀ c ∈ cs, (c != '?') = true := by
  intro c hc
  rw [bne_iff_ne]
  rintro rfl
  exact h hc

end Address

namespace Request

/-- The end of an address that is cut off is slashes, and none is left. -/
theorem trimSlashes_spec (base : List Char) :
    (∃ n, base = trimSlashes base ++ List.replicate n '/') ∧
      (trimSlashes base).getLast? ≠ some '/' := by
  have htrim : trimSlashes base = base.rdropWhile (· == '/') := rfl
  constructor
  · refine ⟨(base.reverse.takeWhile (· == '/')).length, ?_⟩
    have hslashes : base.reverse.takeWhile (· == '/') =
        List.replicate (base.reverse.takeWhile (· == '/')).length '/' := by
      refine List.eq_replicate_iff.mpr ⟨rfl, fun c hc => ?_⟩
      simpa using List.mem_takeWhile_imp hc
    have hsplit := congrArg List.reverse
      (List.takeWhile_append_dropWhile (p := (· == '/')) (l := base.reverse))
    rw [List.reverse_append, List.reverse_reverse, hslashes, List.reverse_replicate] at hsplit
    exact hsplit.symm
  · rw [htrim]
    by_cases hnil : base.rdropWhile (· == '/') = []
    · simp [hnil]
    · rw [List.getLast?_eq_some_getLast hnil]
      have hlast := List.rdropWhile_last_not (· == '/') base hnil
      simpa using hlast

theorem mem_of_mem_trimSlashes {base : List Char} {c : Char} (h : c ∈ trimSlashes base) :
    c ∈ base := by
  obtain ⟨⟨n, hbase⟩, -⟩ := trimSlashes_spec base
  rw [hbase]
  exact List.mem_append_left _ h

variable (r : Request) (base : String)

theorem toList_url :
    (r.url base).toList = trimSlashes base.toList ++ r.path.toList ++ queryText r.query := by
  rw [url, String.toList_ofList]

/-- A query has a question mark unless it is empty. -/
theorem mark_mem_queryText (pairs : Pairs) : '?' ∈ queryText pairs ↔ pairs ≠ [] := by
  cases pairs <;> simp [queryText]

variable {r base}

theorem front_url (h : '?' ∉ trimSlashes base.toList ++ r.path.toList) :
    Address.front (r.url base).toList = trimSlashes base.toList ++ r.path.toList := by
  have hquery : (queryText r.query).takeWhile (· != '?') = [] := by
    cases r.query <;> simp [queryText]
  rw [Address.front, toList_url, List.takeWhile_append_of_pos (Address.all_ne_mark h), hquery,
    List.append_nil]

theorem pairs?_url (h : '?' ∉ trimSlashes base.toList ++ r.path.toList) :
    Address.pairs? (r.url base).toList = some r.query := by
  rw [Address.pairs?, toList_url, List.dropWhile_append_of_pos (Address.all_ne_mark h)]
  cases hquery : r.query with
  | nil => rfl
  | cons p ps =>
    rw [Query.queryText_eq (List.cons_ne_nil p ps)]
    exact Query.pairs?_text (List.cons_ne_nil p ps)

/-- The address of a request is read back. In front of its first question mark are the address of
the server, without the slashes at its end, and the path; behind it are the pairs of the request, in
order, whatever texts their names and values are. There is a question mark exactly if there is a
pair, and a fragment only where the server or the path starts one. So requests with the same path
have the same address only if they have the same pairs. -/
theorem url_reads_back (r : Request) (base : String) (hbase : '?' ∉ base.toList)
    (hpath : '?' ∉ r.path.toList) :
    let url := (r.url base).toList
    (∃ server n, base.toList = server ++ List.replicate n '/' ∧ server.getLast? ≠ some '/' ∧
      Address.front url = server ++ r.path.toList) ∧
    Address.pairs? url = some r.query ∧
    ('?' ∈ url ↔ r.query ≠ []) ∧
    ('#' ∉ base.toList → '#' ∉ r.path.toList → '#' ∉ url) ∧
    ∀ s : Request, s.path = r.path → (s.url base = r.url base ↔ s.query = r.query) := by
  intro url
  have hserver : '?' ∉ trimSlashes base.toList := fun h => hbase (mem_of_mem_trimSlashes h)
  have hfront : '?' ∉ trimSlashes base.toList ++ r.path.toList := by
    simp [hserver, hpath]
  refine ⟨?_, pairs?_url hfront, ?_, ?_, ?_⟩
  · obtain ⟨⟨n, hslashes⟩, hlast⟩ := trimSlashes_spec base.toList
    exact ⟨_, n, hslashes, hlast, front_url hfront⟩
  · show '?' ∈ (r.url base).toList ↔ r.query ≠ []
    rw [toList_url, List.mem_append, mark_mem_queryText]
    exact or_iff_right hfront
  · intro hbase hpath
    have hserver : '#' ∉ trimSlashes base.toList := fun h => hbase (mem_of_mem_trimSlashes h)
    show '#' ∉ (r.url base).toList
    simp [toList_url, hserver, hpath, Query.fragment_not_mem_queryText]
  · intro s hs
    constructor
    · intro hsame
      -- both queries are what is read behind the question mark of the one address
      have hread : Address.pairs? (s.url base).toList = some s.query :=
        pairs?_url (by rwa [hs])
      rw [hsame, pairs?_url hfront] at hread
      exact (Option.some.inj hread).symm
    · intro hquery
      rw [Request.url, Request.url, hs, hquery]

theorem url_reads_back_hostile :
    let r : Request := ⟨.get, "/api/v1/pods",
      [("", ""), ("a&b", "c=d%2F+?#"), ("ü=", "ä/"), ("", ""), ("a&b", "")], none⟩
    '?' ∉ "https://host//".toList ∧ '?' ∉ r.path.toList ∧
    (r.url "https://host//" = "https://host/api/v1/pods" ++
      "?=&a%26b=c%3Dd%252F%2B%3F%23&%C3%BC%3D=%C3%A4%2F&=&a%26b=") ∧
    Address.pairs? (r.url "https://host//").toList = some r.query := by
  intro r
  have hbase : '?' ∉ "https://host//".toList := by decide
  have hpath : '?' ∉ r.path.toList := by decide
  exact ⟨hbase, hpath, by decide +kernel, (url_reads_back r "https://host//" hbase hpath).2.1⟩

end Request
end KubeClient
