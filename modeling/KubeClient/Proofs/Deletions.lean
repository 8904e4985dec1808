import KubeClient.Client.Resource
import KubeClient.Object.ConfigMap
import KubeClient.Proofs.JsonRereading
import KubeClient.Proofs.JsonRoundTrip
import KubeClient.Proofs.Refusals

/-!
# Deletions

The answer to a deletion is read as a value first, since it may be a status. What is left of it is
read as the object that all other calls read from the bytes at once.

* `Serializer.TellsGone` : a body that tells that the object is gone;
* `Json.read_value` : what is read from a text is read from its value;
* `Client.deletionOf_decodeBody`, `Client.tellsGone_of_gone` : what a body tells;
* `Client.Delivers`, `Client.Deletes` : responses, and what two calls make of the same one;
* `Client.delete_agrees` : what a deletion tells, for a body that any other call reads;
* `Client.delete_halfPair` : a body that other calls read, but a deletion does not.
-/

namespace KubeClient

open Documented Json

/-! ### Documents -/

namespace Json

open Json.Reader

variable {s : Shape} {bs : Bytes} {v w : Value}

theorem exists_of_read_eq_ok (h : read s bs = .ok v) :
    ∃ d, s.ofText maxDepth ⟨0, bs⟩ = .ok v d ∧ (behindBlanks d).rest = [] := by
  unfold read at h
  cases hdocument : document s ⟨0, bs⟩ with
  | error _ _ =>
    rw [hdocument] at h
    cases h
  | ok v' e =>
    rw [hdocument] at h
    cases h
    obtain ⟨v', d, hread, htail⟩ := exists_of_bind_eq_ok hdocument
    rw [bind_eq_of_ok (peekToken_eq d)] at htail
    cases hhead : (behindBlanks d).rest.head? with
    | none =>
      rw [hhead] at htail
      cases htail
      exact ⟨d, hread, List.head?_eq_none_iff.mp hhead⟩
    | some _ =>
      rw [hhead] at htail
      cases htail

theorem exists_of_read_any (h : read .any bs = .ok v) :
    ∃ x d, content maxDepth ⟨0, bs⟩ = .ok x d ∧ v = x.toValue ∧ (behindBlanks d).rest = [] := by
  obtain ⟨d, hread, hrest⟩ := exists_of_read_eq_ok h
  rw [Shape.ofText] at hread
  dsimp only at hread
  rw [map_eq_pure_bind] at hread
  obtain ⟨x, d', hx, hpure⟩ := exists_of_bind_eq_ok hread
  cases hpure
  exact ⟨x, d, hx, rfl, hrest⟩

/-- What is read from a text is read from its value. -/
theorem read_value {surplus : Content.Surplus} (hs : s.isPlain = true) (hw : read s bs = .ok w)
    (hv : read .any bs = .ok v) : s.read surplus (Content.ofValue v) = .ok w := by
  obtain ⟨d, hread, -⟩ := exists_of_read_eq_ok hw
  obtain ⟨x, e, hx, rfl, -⟩ := exists_of_read_any hv
  exact (s.accords hs maxDepth ⟨0, bs⟩ w d x e hread hx).2

theorem rest_of_ident {word : Bytes} {c d : Cursor} {u : Unit} (h : ident word c = .ok u d) :
    c.rest = word ++ d.rest := by
  induction word generalizing c with
  | nil =>
    cases h
    rfl
  | cons b word ih =>
    obtain ⟨offset, _ | ⟨b', bs⟩⟩ := c
    · cases h
    · have hnext : next ⟨offset, b' :: bs⟩ = .ok (some b') ⟨offset + 1, bs⟩ := rfl
      unfold ident at h
      rw [bind_eq_of_ok hnext] at h
      dsimp only at h
      split at h
      · rename_i hb
        rw [List.cons_append, ← ih h, hb]
      · cases h

/-- Null stands alone, between blanks. -/
theorem exists_of_read_null (h : read .any bs = .ok .null) :
    ∃ front back, bs = front ++ [0x6E, 0x75, 0x6C, 0x6C] ++ back ∧
      (∀ b ∈ front, isBlank b = true) ∧ ∀ b ∈ back, isBlank b = true := by
  obtain ⟨x, d, hx, hnull, hrest⟩ := exists_of_read_any h
  obtain rfl : x = .null := by
    cases x with
    | null => rfl
    | _ => cases hnull
  have hdepth : content (127 + 1) ⟨0, bs⟩ = .ok .null d := hx
  obtain ⟨b, hhead, hcontent⟩ := exists_of_content_eq_ok hdepth
  have hb : b = 0x6E := by
    by_contra hne
    exact contentAt_ne_null hne hcontent
  subst hb
  obtain ⟨offset, rest, hc⟩ := exists_cons_of_head? hhead
  rw [hc] at hcontent
  have hword : word [0x75, 0x6C, 0x6C] Content.null ⟨offset, 0x6E :: rest⟩ = .ok .null d :=
    hcontent
  obtain ⟨_, c₁, hadvance, hident⟩ := exists_of_bind_eq_ok hword
  obtain ⟨_, c₂, hident, hpure⟩ := exists_of_bind_eq_ok hident
  cases hadvance
  cases hpure
  have htail : rest = [0x75, 0x6C, 0x6C] ++ d.rest := rest_of_ident hident
  have hfront : bs.dropWhile isBlank = 0x6E :: rest := congrArg Cursor.rest hc
  refine ⟨bs.takeWhile isBlank, d.rest, ?_, fun b hb => List.mem_takeWhile_imp hb,
    List.dropWhile_eq_nil_iff.mp hrest⟩
  conv_lhs => rw [← List.takeWhile_append_dropWhile (p := isBlank) (l := bs), hfront, htail]
  simp

theorem isAscii_of_isBlank {b : UInt8} (h : isBlank b = true) : Blank.isAscii b = true := by
  simp only [isBlank, Bool.or_eq_true, beq_iff_eq] at h
  rcases h with ((h | h) | h) | h <;> rw [h] <;> decide

end Json

/-! ### Bodies -/

namespace Serializer

variable {α : Type} [Documented α] {s : Serializer} {bs : Bytes}

/-- The body tells that an object is gone: it is blank, or null, or an object whose kind is
`Status`. -/
inductive TellsGone (bs : Bytes) : Prop
  | blank (h : ∀ b ∈ bs, Blank.isAscii b = true)
  | null {front back : Bytes} (h : bs = front ++ [0x6E, 0x75, 0x6C, 0x6C] ++ back)
    (hfront : ∀ b ∈ front, Blank.isAscii b = true) (hback : ∀ b ∈ back, Blank.isAscii b = true)
  | status {v : Value} (h : Json.read .any bs = .ok v)
    (hkind : v.get? "kind" = some (.string "Status"))

theorem tellsGone_of_isNothing (h : isNothing bs = true) : TellsGone bs := by
  obtain ⟨front, back, hbs, hfront, hback⟩ := Blank.exists_trimBoth Blank.isAscii bs
  simp only [isNothing, Bool.or_eq_true, List.isEmpty_iff, beq_iff_eq, Blank.trimBytes] at h
  rcases h with hempty | hnull
  · refine .blank fun b hb => ?_
    rw [hempty, List.append_nil] at hbs
    rw [hbs] at hb
    exact (List.mem_append.mp hb).elim (hfront b) (hback b)
  · rw [hnull] at hbs
    exact .null hbs hfront hback

theorem tellsGone_of_read_null (h : Json.read .any bs = .ok .null) : TellsGone bs := by
  obtain ⟨front, back, hbs, hfront, hback⟩ := exists_of_read_null h
  exact .null hbs (fun b hb => isAscii_of_isBlank (hfront b hb))
    fun b hb => isAscii_of_isBlank (hback b hb)

/-- A body that stands for a value is read as a document. -/
theorem decodeBody_eq_ok (hs : s.format = .json) (hn : isNothing bs = false) {a : α} :
    s.decodeBody α bs = .ok a ↔ ∃ w, Json.read (shape α) bs = .ok w ∧ ofValue w = a := by
  unfold decodeBody decode
  rw [hn, if_neg Bool.false_ne_true, hs, Format.read]
  cases Json.read (shape α) bs with
  | error _ => simp [Except.mapError]
  | ok w => simp [Except.mapError]

theorem read_of_decodeBody_value (hs : s.format = .json) (hn : isNothing bs = false) {v : Value}
    (h : s.decodeBody Value bs = .ok v) : Json.read .any bs = .ok v := by
  obtain ⟨w, hread, hw⟩ := (decodeBody_eq_ok hs hn).mp h
  exact hread.trans (congrArg Except.ok hw)

theorem decodeDocument_of_read {contentType : String} {v w : Value}
    (h : (shape α).read surplus (Content.ofValue v) = .ok w) :
    decodeDocument α contentType bs v = .ok (ofValue w) := by
  unfold decodeDocument ofDocument
  rw [h]
  rfl

end Serializer

open Serializer

namespace Client

variable {α : Type} [Documented α] {contentType : String} {v : Value}

theorem deletionOf_of_pending (hnull : v ≠ .null)
    (hkind : v.get? "kind" ≠ some (.string "Status")) :
    deletionOf α contentType v = .pending <$> decodeDocument α contentType [] v := by
  unfold deletionOf
  split
  · exact (hnull rfl).elim
  · split
    · rename_i hstatus
      exact (hkind hstatus).elim
    · rfl

theorem of_deletionOf_eq_gone {status : Status}
    (h : deletionOf α contentType v = .ok (.gone status)) :
    v = .null ∨ v.get? "kind" = some (.string "Status") := by
  by_contra hpending
  obtain ⟨hnull, hkind⟩ := not_or.mp hpending
  rw [deletionOf_of_pending hnull hkind] at h
  cases hread : decodeDocument α contentType [] v with
  | error _ =>
    rw [hread] at h
    cases h
  | ok a =>
    rw [hread] at h
    cases h

variable {s : Serializer} {bs : Bytes}

/-- What is left of a deleted object is what the body is read as at once, if it is read as a value
as well. -/
theorem deletionOf_decodeBody (hplain : (shape α).isPlain = true) (hs : s.format = .json)
    {a : α} (ha : s.decodeBody α bs = .ok a) (hv : s.decodeBody Value bs = .ok v)
    (hbs : ¬TellsGone bs) : deletionOf α contentType v = .ok (.pending a) := by
  have hn : isNothing bs = false := by
    by_contra hnothing
    exact hbs (tellsGone_of_isNothing (Bool.not_eq_false _ ▸ hnothing))
  obtain ⟨w, hw, rfl⟩ := (decodeBody_eq_ok hs hn).mp ha
  have hread := read_of_decodeBody_value hs hn hv
  rw [deletionOf_of_pending, decodeDocument_of_read (read_value hplain hw hread)]
  · rfl
  · intro hnull
    exact hbs (tellsGone_of_read_null (hread.trans (congrArg Except.ok hnull)))
  · exact fun hkind => hbs (.status hread hkind)

theorem tellsGone_of_gone (hs : s.format = .json) {status : Status}
    (hv : s.decodeBody Value bs = .ok v)
    (h : deletionOf α contentType v = .ok (.gone status)) : TellsGone bs := by
  cases hn : isNothing bs with
  | true => exact tellsGone_of_isNothing hn
  | false =>
    have hread := read_of_decodeBody_value hs hn hv
    rcases of_deletionOf_eq_gone h with hnull | hkind
    · exact tellsGone_of_read_null (hread.trans (congrArg Except.ok hnull))
    · exact .status hread hkind

/-! ### Calls -/

variable {σ : Type} {c : Client σ} {r r' : Request} {world world' : σ} {response : Response}

/-- The response is a success, and its body has come as `bs` and is read as JSON. -/
structure Delivers (c : Client σ) (response : Response) (bs : Bytes) : Prop where
  success : 200 ≤ response.status ∧ response.status < 300
  body : ∃ chunks : List Bytes,
    response.body = (chunks.map fun chunk => .ends (.ok chunk) false) ∧ chunks.flatten = bs
  json : (c.registry.serializerOf response).format = .json

theorem Delivers.exchange (h : c.Delivers response bs) (hlast : c.LastResponse r world response) :
    ((c.exchange r).run world false).1 = .ok (c.registry.serializerOf response, bs) := by
  obtain ⟨chunks, hbody, hflatten⟩ := h.body
  have hsuccess : response.isSuccess = true := by
    simpa only [Response.isSuccess, Bool.and_eq_true, decide_eq_true_eq] using h.success
  have hcontents : contents r response.body = .ok bs := by
    rw [hbody, contents_map_ok, hflatten]
  obtain ⟨next, trace, hsent⟩ := sendAuthorized_of_lastResponse hlast
  obtain ⟨count, fired, hread⟩ :=
    readBody_of_unfired (c := c) (r := r) response.body (p := ⟨next, false, trace⟩) rfl
  rw [hcontents] at hread
  show (c.exchange r ⟨world, false, []⟩).1 = _
  rw [Client.exchange, Call.bind_ok hsent, finish, if_pos hsuccess, Call.bind_ok hread]
  rfl

theorem Delivers.invoke (h : c.Delivers response bs) (hlast : c.LastResponse r world response)
    (α : Type) [Documented α] : ((c.invoke α r).run world false).1 =
      (c.registry.serializerOf response).decodeBody α bs := by
  have hinvoke : ((c.invoke α r).run world false).1 =
      ((c.exchange r).run world false).1.bind fun read => read.1.decodeBody α read.2 :=
    congrArg Prod.fst (Call.bind_ofExcept _ _ _)
  rw [hinvoke, h.exchange hlast]
  rfl

theorem delete_eq (c : Client σ) (r : Request) (world : σ) (α : Type) [Documented α] :
    ((c.delete α r).run world false).1 =
      ((c.invoke Value r).run world false).1.bind (deletionOf α c.registry.defaultType) :=
  congrArg Prod.fst (Call.bind_ofExcept _ _ _)

/-- What a call and a deletion make of the same body. -/
structure Deletes (c : Client σ) (r r' : Request) (world world' : σ) (bs : Bytes) (α : Type)
    [Documented α] : Prop where
  /-- The object that is read at once is the one that stays, if the body is read as a value too. -/
  pending : ∀ a v, ((c.invoke α r).run world false).1 = .ok a →
    ((c.invoke Value r).run world false).1 = .ok v → ¬TellsGone bs →
    ((c.delete α r').run world' false).1 = .ok (.pending a)
  /-- The deletion fails for the reason for which the body is no value. -/
  failed : ∀ e, ((c.invoke Value r).run world false).1 = .error e →
    ((c.delete α r').run world' false).1 = .error e
  gone : ∀ status, ((c.delete α r').run world' false).1 = .ok (.gone status) → TellsGone bs

theorem Delivers.deletes (h : c.Delivers response bs) (hlast : c.LastResponse r world response)
    (hlast' : c.LastResponse r' world' response) {α : Type} [Documented α]
    (hplain : (shape α).isPlain = true) : c.Deletes r r' world world' bs α where
  pending := by
    intro a v ha hv hbs
    rw [h.invoke hlast] at ha hv
    rw [delete_eq, h.invoke hlast', hv]
    exact deletionOf_decodeBody hplain h.json ha hv hbs
  failed := by
    intro e he
    rw [h.invoke hlast] at he
    rw [delete_eq, h.invoke hlast', he]
    rfl
  gone := by
    intro status hgone
    rw [delete_eq, h.invoke hlast'] at hgone
    cases hv : (c.registry.serializerOf response).decodeBody Value bs with
    | error e =>
      rw [hv] at hgone
      cases hgone
    | ok v =>
      rw [hv] at hgone
      exact tellsGone_of_gone h.json hv hgone

/-- A deletion and any other call that get the same successful response of JSON. If the body is
neither blank nor null nor a status, the object that the other call reads from it is the one that
the deletion tells of, provided that the body is read as a value as well; if it is not, the deletion
fails for that reason. Only a body that is blank, null or a status tells that the object is gone. -/
theorem delete_agrees [Home] (c : Client σ) (r r' : Request) (world world' : σ)
    (response : Response) (bs : Bytes) (hdelivers : c.Delivers response bs)
    (hlast : c.LastResponse r world response) (hlast' : c.LastResponse r' world' response) :
    c.Deletes r r' world world' bs ConfigMap ∧ c.Deletes r r' world world' bs Widget ∧
      c.Deletes r r' world world' bs Value :=
  ⟨hdelivers.deletes hlast hlast' rfl, hdelivers.deletes hlast hlast' rfl,
    hdelivers.deletes hlast hlast' rfl⟩

/-- A successful response without headers. -/
def delivering (text : String) : Response :=
  ⟨200, [], [.ends (.ok (Utf8.encode text)) false]⟩

/-- An outside that gives this response. -/
def offering (text : String) : Script :=
  ⟨.listed [.ends (.ok (.bearer "t")) false], [.response (delivering text)]⟩

theorem delivers_delivering (text : String) :
    scripted.Delivers (delivering text) (Utf8.encode text) :=
  ⟨show (200 : UInt16) ≤ 200 ∧ (200 : UInt16) < 300 by decide,
    ⟨[Utf8.encode text], rfl, List.append_nil _⟩, rfl⟩

theorem lastResponse_offering (r : Request) (text : String) :
    scripted.LastResponse r (offering text) (delivering text) :=
  .accepted ⟨.bearer "t", _, .credential rfl (.send rfl (.nil _))⟩ (by simp [delivering])

theorem not_tellsGone_of_object {bs : Bytes} (hbrace : bs.head? = some 0x7B)
    (hkind : ((Json.read .any bs).toOption.bind (Value.get? "kind")).isNone = true) :
    ¬TellsGone bs := by
  obtain ⟨bs, rfl⟩ : ∃ tail, bs = 0x7B :: tail := by
    cases bs with
    | nil => cases hbrace
    | cons b tail =>
      cases hbrace
      exact ⟨tail, rfl⟩
  intro hgone
  cases hgone with
  | blank h => exact absurd (h 0x7B List.mem_cons_self) (by decide)
  | @null front _ h hfront _ =>
    cases front with
    | nil => cases h
    | cons b front =>
      cases h
      exact absurd (hfront 0x7B List.mem_cons_self) (by decide)
  | status h hstatus =>
    rw [h] at hkind
    simp [Except.toOption, hstatus] at hkind

/-- What is left of an object with a field that nothing asks for. -/
def remnant : String :=
  "\x7b\"metadata\":\x7b\"name\":\"web\"\x7d,\"x\":[1]\x7d"

theorem delete_agrees_remnant :
    let get : Request := ⟨.get, "/web", [], none⟩
    let delete : Request := ⟨.delete, "/web", [], none⟩
    let bs := Utf8.encode remnant
    let web : ConfigMap := ⟨{ (default : ObjectMeta) with name := some "web" }, default⟩
    scripted.Delivers (delivering remnant) bs ∧
      scripted.LastResponse get (offering remnant) (delivering remnant) ∧
      scripted.LastResponse delete (offering remnant) (delivering remnant) ∧
      ((scripted.delete ConfigMap delete).run (offering remnant) false).1 =
        .ok (.pending web) := by
  intro get delete bs web
  have hdelivers := delivers_delivering remnant
  have hget := lastResponse_offering get remnant
  have hdelete := lastResponse_offering delete remnant
  have hdeletes := (delete_agrees scripted get delete _ _ _ bs hdelivers hget hdelete).1
  have hvalue : ((scripted.invoke Value get).run (offering remnant) false).1.isOk = true := by
    decide +kernel
  cases hv : ((scripted.invoke Value get).run (offering remnant) false).1 with
  | error e =>
    rw [hv] at hvalue
    cases hvalue
  | ok v =>
    refine ⟨hdelivers, hget, hdelete, hdeletes.pending web v (by decide +kernel) hv ?_⟩
    exact not_tellsGone_of_object (by decide +kernel) (by decide +kernel)

/-- A field that nothing asks for holds half of a pair of surrogates. -/
def halfPair : String :=
  "\x7b\"metadata\":\x7b\x7d,\"x\":\"\\ud800\"\x7d"

theorem delete_halfPair :
    let get : Request := ⟨.get, "/web", [], none⟩
    let delete : Request := ⟨.delete, "/web", [], none⟩
    let bs := Utf8.encode halfPair
    scripted.Delivers (delivering halfPair) bs ∧
      scripted.LastResponse get (offering halfPair) (delivering halfPair) ∧
      scripted.LastResponse delete (offering halfPair) (delivering halfPair) ∧
      ¬TellsGone bs ∧
      ((scripted.invoke ConfigMap get).run (offering halfPair) false).1 = .ok default ∧
      ((scripted.delete ConfigMap delete).run (offering halfPair) false).1 ≠
        .ok (.pending default) := by
  intro get delete bs
  refine ⟨delivers_delivering halfPair, lastResponse_offering get halfPair,
    lastResponse_offering delete halfPair, ?_, ?_, ?_⟩
  · exact not_tellsGone_of_object (by decide +kernel) (by decide +kernel)
  · decide +kernel
  · decide +kernel

end Client
end KubeClient
