import KubeClient.Proofs.DocumentFields
import KubeClient.Watch.Event

/-!
# Lines of a watch

A line is read twice: for the type of its event, then for the object, whose type depends on it.

* `WatchEvent.Tells`, `WatchEvent.Holds` : what a line is read as;
* `WatchEvent.decodeAs`, `WatchEvent.decode_cases` : the second reading, and when it takes place;
* `WatchEvent.Decodes` : what becomes of a line, whatever type its objects have;
* `WatchEvent.decodes_line` : this becomes of every line;
* `WatchEvent.decode_unnamed` : a list of one item is an event whose fields have no names.
-/

namespace KubeClient

open Documented

namespace Serializer

variable {β : Type} [Documented β] {s : Serializer} {line : Bytes}

theorem decode_eq_some {b : β} : s.decode β line = .ok (some b) ↔
    isNothing line = false ∧ ∃ w, s.format.read (shape β) line = .ok w ∧ ofValue w = b := by
  unfold decode
  cases hn : isNothing line with
  | true => simp
  | false =>
    rw [if_neg Bool.false_ne_true]
    cases s.format.read (shape β) line with
    | error _ => simp
    | ok w => simp

theorem decode_eq_none : s.decode β line = .ok none ↔ isNothing line = true := by
  unfold decode
  cases hn : isNothing line with
  | true => simp
  | false =>
    rw [if_neg Bool.false_ne_true]
    cases s.format.read (shape β) line with
    | error _ => simp
    | ok w => simp

end Serializer

open Serializer

namespace WatchEvent

variable {α β : Type} [Documented α] [Documented β] {s : Serializer} {line : Bytes} {t : EventType}

/-! ### What is made of an outcome -/

section

variable {ε γ δ : Type} {x : Except ε (Option γ)} {f : γ → δ}

theorem map_eq_some {b : δ} : x.map (·.map f) = .ok (some b) ↔ ∃ a, x = .ok (some a) ∧ f a = b := by
  cases x <;> simp [Except.map]

theorem map_eq_none : x.map (·.map f) = .ok none ↔ x = .ok none := by
  cases x <;> simp [Except.map]

theorem map_eq_error {e : ε} : x.map (·.map f) = .error e ↔ x = .error e := by
  cases x <;> simp [Except.map]

theorem map_map {ζ : Type} (x : Except ε (Option γ)) (f : γ → δ) (g : δ → ζ) :
    (x.map (·.map f)).map (·.map g) = x.map (·.map (g ∘ f)) := by
  cases x <;> simp [Except.map]

end

/-! ### The two readings -/

/-- The line tells the type of its event. -/
def Tells (s : Serializer) (line : Bytes) (t : EventType) : Prop :=
  s.format.read (shape EventHeader) line = .ok (.object [("type", .string (WireToken.wire t))])

/-- The line holds `b` as the object of its event. -/
def Holds (s : Serializer) (line : Bytes) (b : β) : Prop :=
  ∃ x, s.format.read (shape (EventEnvelope β)) line = .ok (.object [("object", x)]) ∧
    ofValue x = b

theorem parse_eq_ok {text : String} :
    (WireToken.parse text : Except ScalarError EventType) = .ok t ↔ text = WireToken.wire t := by
  constructor
  · intro h
    unfold WireToken.parse at h
    cases hfind : (WireToken.ofWire? text : Option EventType) with
    | none =>
      rw [hfind] at h
      cases h
    | some t' =>
      rw [hfind] at h
      cases h
      have hwire := List.find?_some hfind
      exact (beq_iff_eq.mp hwire).symm
  · rintro rfl
    cases t <;> rfl

theorem ofValue_token (t : EventType) : (ofValue (.string (WireToken.wire t)) : EventType) = t := by
  cases t <;> rfl

/-- Only tokens pass the check of the type of an event. -/
theorem exists_of_check_eq_ok {expectation text : String} {check : String → Except String Unit}
    (hshape : shape EventType = .text expectation check) (h : check text = .ok ()) :
    ∃ t : EventType, text = WireToken.wire t := by
  cases hshape
  dsimp only at h
  cases hparse : (Scalar.parse text : Except ScalarError EventType) with
  | error e =>
    rw [hparse] at h
    cases h
  | ok t => exact ⟨t, parse_eq_ok.mp hparse⟩

theorem gives_token : (shape EventType).Gives fun v => ∃ t : EventType,
    v = .string (WireToken.wire t) := by
  refine (Shape.gives_text _ _).mono fun v h => ?_
  obtain ⟨text, rfl, hcheck⟩ := h
  obtain ⟨t, rfl⟩ := exists_of_check_eq_ok rfl hcheck
  exact ⟨t, rfl⟩

theorem decode_header_eq_ok : s.decode EventHeader line = .ok (some ⟨t⟩) ↔
    isNothing line = false ∧ Tells s line t := by
  rw [decode_eq_some]
  refine and_congr_right fun _ => ⟨?_, fun h => ⟨_, h, ?_⟩⟩
  · rintro ⟨w, hread, hw⟩
    obtain ⟨v, rfl, t', rfl⟩ := (gives_token.sole "Header").of_read hread
    cases (congrArg EventHeader.type hw).symm.trans (ofValue_token t')
    exact hread
  · exact congrArg EventHeader.mk (ofValue_token t)

theorem decodeObject_eq_ok {b : β} : decodeObject β s line = .ok (some b) ↔
    isNothing line = false ∧ Holds s line b := by
  rw [decodeObject, map_eq_some]
  constructor
  · rintro ⟨e, hdecode, rfl⟩
    obtain ⟨hn, w, hread, hw⟩ := decode_eq_some.mp hdecode
    obtain ⟨x, rfl, -⟩ := ((shape β).gives_true.sole "Envelope").of_read hread
    exact ⟨hn, x, hread, congrArg EventEnvelope.object hw⟩
  · rintro ⟨hn, x, hread, hx⟩
    exact ⟨⟨b⟩, decode_eq_some.mpr ⟨hn, _, hread, congrArg EventEnvelope.mk hx⟩, rfl⟩

theorem decodeObject_eq_none : decodeObject β s line = .ok none ↔ isNothing line = true :=
  map_eq_none.trans decode_eq_none

theorem decodeObject_eq_error {f : SerializationError} :
    decodeObject β s line = .error f ↔ s.decode (EventEnvelope β) line = .error f :=
  map_eq_error

/-! ### The second reading after the first -/

/-- The event of the type `t` in a line. -/
def decodeAs (α : Type) [Documented α] (s : Serializer) (line : Bytes) :
    EventType → Except SerializationError (Option (WatchEvent α))
  | .added => (decodeObject α s line).map (·.map added)
  | .modified => (decodeObject α s line).map (·.map modified)
  | .deleted => (decodeObject α s line).map (·.map deleted)
  | .bookmark => (decodeObject Bookmark s line).map (·.map bookmark)
  | .error => (decodeObject Status s line).map (·.map error)

theorem bind_pure_eq_map {ε γ δ : Type} (x : Except ε γ) (f : γ → δ) :
    (do return f (← x)) = x.map f := by
  cases x <;> rfl

theorem decode_eq : decode α s line = (s.decode EventHeader line).bind fun header =>
    header.elim (.ok none) fun header => decodeAs α s line header.type := by
  unfold decode
  cases s.decode EventHeader line with
  | error _ => rfl
  | ok header =>
    cases header with
    | none => rfl
    | some header =>
      obtain ⟨t⟩ := header
      cases t <;> exact bind_pure_eq_map _ _

/-- The line holds what the event carries. -/
def HeldIn (s : Serializer) (line : Bytes) : WatchEvent α → Prop
  | .added a | .modified a | .deleted a => Holds s line a
  | .bookmark b => Holds s line b
  | .error e => Holds s line e

/-- The object of an event of some type cannot be read from the line. -/
def Spoiled (α : Type) [Documented α] (s : Serializer) (line : Bytes) (f : SerializationError) :
    EventType → Prop
  | .added | .modified | .deleted => s.decode (EventEnvelope α) line = .error f
  | .bookmark => s.decode (EventEnvelope Bookmark) line = .error f
  | .error => s.decode (EventEnvelope Status) line = .error f

theorem decodeAs_eq_ok {e : WatchEvent α} : decodeAs α s line t = .ok (some e) ↔
    isNothing line = false ∧ t = e.type ∧ e.HeldIn s line := by
  cases t <;> rw [decodeAs, map_eq_some] <;> cases e <;> simp [decodeObject_eq_ok, type, HeldIn]

theorem decodeAs_eq_none : decodeAs α s line t = .ok none ↔ isNothing line = true := by
  cases t <;> rw [decodeAs, map_eq_none, decodeObject_eq_none]

theorem decodeAs_eq_error {f : SerializationError} :
    decodeAs α s line t = .error f ↔ Spoiled α s line f t := by
  cases t <;> rw [decodeAs, map_eq_error, decodeObject_eq_error] <;> rfl

/-- The objects of bookmarks and errors are the same for every watch. -/
theorem exists_decodeAs (s : Serializer) (line : Bytes) (ht : t = .bookmark ∨ t = .error) :
    ∃ r : Except SerializationError (Option (Bookmark ⊕ Status)), ∀ (α : Type) [Documented α],
      decodeAs α s line t = r.map (·.map (Sum.elim bookmark error)) := by
  rcases ht with rfl | rfl
  · refine ⟨(decodeObject Bookmark s line).map (Option.map .inl), fun α _ => ?_⟩
    rw [map_map]
    rfl
  · refine ⟨(decodeObject Status s line).map (Option.map .inr), fun α _ => ?_⟩
    rw [map_map]
    rfl

/-! ### Lines and their values -/

/-- What the event carries is read from the node of YAML that stands for `o`. -/
def IsReadBeside (line : Bytes) (o : Value) : WatchEvent α → Prop
  | .added a | .modified a | .deleted a => ∃ x, Yaml.SameNode (shape α) line x o ∧ ofValue x = a
  | .bookmark b => ∃ x, Yaml.SameNode (shape Bookmark) line x o ∧ ofValue x = b
  | .error e => ∃ x, Yaml.SameNode (shape Status) line x o ∧ ofValue x = e

/-- What the event carries is read from `o`. -/
def IsReadFrom (o : Value) : WatchEvent α → Prop
  | .added a | .modified a | .deleted a => ofDocument α o = .ok a
  | .bookmark b => ofDocument Bookmark o = .ok b
  | .error e => ofDocument Status o = .ok e

theorem string_of_readText {expectation : String} {check : String → Except String Unit}
    {o w : Value} (h : Content.readText expectation check (Content.ofValue o) = .ok w) : o = w := by
  cases o with
  | string text =>
    rw [Content.ofValue, Content.readText] at h
    cases hcheck : check text with
    | error _ =>
      rw [hcheck] at h
      cases h
    | ok _ =>
      rw [hcheck] at h
      cases h
      rfl
  | _ => cases h

/-- The tokens of types stand for themselves in YAML. -/
theorem isWord_token (t : EventType) : Yaml.Plain.IsWord (WireToken.wire t).toList := by
  cases t <;> exact ⟨by decide, by decide, by decide, rfl, rfl⟩

theorem part_type_of_tells {v : Value} (hs : s.format = .json) (h : Tells s line t)
    (hv : s.format.read .any line = .ok v) :
    v.part? "type" = some (.string (WireToken.wire t)) := by
  rw [Tells, hs] at h
  rw [hs] at hv
  obtain ⟨o, ho, hread⟩ := Json.part_of_read Serializer.surplus rfl
    (mapError_eq_ok.mp h) (mapError_eq_ok.mp hv)
  exact ho.trans (congrArg some (string_of_readText hread))

theorem get?_type_of_tells {v : Value} (hs : s.format = .yaml) (h : Tells s line t)
    (hv : s.format.read .any line = .ok v) :
    v.get? "type" = some (.string (WireToken.wire t)) := by
  rw [Tells, hs] at h
  rw [hs] at hv
  refine Yaml.get?_of_read ?_ (mapError_eq_ok.mp h) (mapError_eq_ok.mp hv)
  intro text hcheck
  obtain ⟨t, ht⟩ := exists_of_check_eq_ok rfl hcheck
  have htext : text = (WireToken.wire t).toList := by rw [← ht, String.toList_ofList]
  rw [htext]
  exact isWord_token t

theorem part_object_of_holds {v : Value} (hs : s.format = .json)
    (hplain : (shape β).isPlain = true) {b : β} (h : Holds s line b)
    (hv : s.format.read .any line = .ok v) :
    ∃ o, v.part? "object" = some o ∧ ofDocument β o = .ok b := by
  obtain ⟨x, hread, rfl⟩ := h
  rw [hs] at hread hv
  obtain ⟨o, ho, hx⟩ := Json.part_of_read Serializer.surplus hplain
    (mapError_eq_ok.mp hread) (mapError_eq_ok.mp hv)
  exact ⟨o, ho, congrArg (Except.map ofValue) hx⟩

theorem get?_object_of_holds {v : Value} (hs : s.format = .yaml) {b : β} (h : Holds s line b)
    (hv : s.format.read .any line = .ok v) :
    ∃ o, v.get? "object" = some o ∧ ∃ x, Yaml.SameNode (shape β) line x o ∧ ofValue x = b := by
  obtain ⟨x, hread, hx⟩ := h
  rw [hs] at hread hv
  obtain ⟨o, ho, hnode⟩ :=
    Yaml.exists_get?_of_read (mapError_eq_ok.mp hread) (mapError_eq_ok.mp hv)
  exact ⟨o, ho, x, hnode, hx⟩

/-- What becomes of a line, whatever the objects of the watch are. -/
structure Decodes (s : Serializer) (line : Bytes) : Prop where
  /-- Nothing comes of blank bytes and of null, and of no other line. -/
  nothing : ∀ (α : Type) [Documented α], decode α s line = .ok none ↔
    Blank.trimBytes line = [] ∨ Blank.trimBytes line = [0x6E, 0x75, 0x6C, 0x6C]
  /-- An event comes of a line that tells its type and holds its object. -/
  event : ∀ (α : Type) [Documented α] (e : WatchEvent α), decode α s line = .ok (some e) ↔
    isNothing line = false ∧ Tells s line e.type ∧ e.HeldIn s line
  /-- Either the type cannot be read, or the object of that type. -/
  failed : ∀ (α : Type) [Documented α] (f : SerializationError), decode α s line = .error f ↔
    s.decode EventHeader line = .error f ∨ ∃ t, Tells s line t ∧ Spoiled α s line f t
  /-- Of a bookmark or an error comes the same in every watch. -/
  same : ∀ t, Tells s line t → t = .bookmark ∨ t = .error →
    ∃ r : Except SerializationError (Option (Bookmark ⊕ Status)), ∀ (α : Type) [Documented α],
      decode α s line = r.map (·.map (Sum.elim bookmark error))
  /-- In JSON, both are fields of the value that the line stands for. -/
  json : ∀ (α : Type) [Documented α] (e : WatchEvent α) (v : Value), s.format = .json →
    decode α s line = .ok (some e) → s.format.read .any line = .ok v →
      v.part? "type" = some (.string (WireToken.wire e.type)) ∧
        ((shape α).isPlain = true → ∃ o, v.part? "object" = some o ∧ e.IsReadFrom o)
  /-- In YAML, both are members of that value, and the object is read from the node of its own. -/
  yaml : ∀ (α : Type) [Documented α] (e : WatchEvent α) (v : Value), s.format = .yaml →
    decode α s line = .ok (some e) → s.format.read .any line = .ok v →
      v.get? "type" = some (.string (WireToken.wire e.type)) ∧
        ∃ o, v.get? "object" = some o ∧ e.IsReadBeside line o

theorem isNothing_iff : isNothing line = true ↔
    Blank.trimBytes line = [] ∨ Blank.trimBytes line = [0x6E, 0x75, 0x6C, 0x6C] := by
  simp only [isNothing, Bool.or_eq_true, List.isEmpty_iff, beq_iff_eq]

/-- The first reading fails, or there is nothing to read, or it leads to the second one. -/
theorem decode_cases (α : Type) [Documented α] (s : Serializer) (line : Bytes) :
    (∃ f, s.decode EventHeader line = .error f ∧ decode α s line = .error f) ∨
      (isNothing line = true ∧ decode α s line = .ok none) ∨
        (isNothing line = false ∧
          ∃ t, Tells s line t ∧ decode α s line = decodeAs α s line t) := by
  rw [decode_eq]
  cases hheader : s.decode EventHeader line with
  | error f => exact .inl ⟨f, rfl, rfl⟩
  | ok header =>
    cases header with
    | none => exact .inr (.inl ⟨decode_eq_none.mp hheader, rfl⟩)
    | some header =>
      obtain ⟨hn, htells⟩ := decode_header_eq_ok.mp hheader
      exact .inr (.inr ⟨hn, header.type, htells, rfl⟩)

theorem decode_of_tells (h : Tells s line t) : decode α s line = decodeAs α s line t := by
  rw [decode_eq]
  cases hn : isNothing line with
  | true =>
    rw [decode_eq_none.mpr hn]
    exact (decodeAs_eq_none.mpr hn).symm
  | false =>
    rw [decode_header_eq_ok.mpr ⟨hn, h⟩]
    rfl

theorem decode_eq_ok_none : decode α s line = .ok none ↔ isNothing line = true := by
  constructor
  · intro h
    rcases decode_cases α s line with ⟨f, -, hdecode⟩ | ⟨hn, -⟩ | ⟨-, t, -, hdecode⟩
    · cases hdecode.symm.trans h
    · exact hn
    · exact decodeAs_eq_none.mp (hdecode.symm.trans h)
  · intro hn
    rw [decode_eq, decode_eq_none.mpr hn]
    rfl

theorem decode_eq_ok_some {e : WatchEvent α} : decode α s line = .ok (some e) ↔
    isNothing line = false ∧ Tells s line e.type ∧ e.HeldIn s line := by
  constructor
  · intro h
    rcases decode_cases α s line with ⟨f, -, hdecode⟩ | ⟨-, hdecode⟩ | ⟨hn, t, htells, hdecode⟩
    · cases hdecode.symm.trans h
    · cases hdecode.symm.trans h
    · obtain ⟨-, rfl, hheld⟩ := decodeAs_eq_ok.mp (hdecode.symm.trans h)
      exact ⟨hn, htells, hheld⟩
  · rintro ⟨hn, htells, hheld⟩
    exact (decode_of_tells htells).trans (decodeAs_eq_ok.mpr ⟨hn, rfl, hheld⟩)

theorem decode_eq_error {f : SerializationError} : decode α s line = .error f ↔
    s.decode EventHeader line = .error f ∨ ∃ t, Tells s line t ∧ Spoiled α s line f t := by
  constructor
  · intro h
    rcases decode_cases α s line with ⟨f', hheader, hdecode⟩ | ⟨-, hdecode⟩ |
      ⟨-, t, htells, hdecode⟩
    · cases hdecode.symm.trans h
      exact .inl hheader
    · cases hdecode.symm.trans h
    · exact .inr ⟨t, htells, decodeAs_eq_error.mp (hdecode.symm.trans h)⟩
  · rintro (hheader | ⟨t, htells, hspoiled⟩)
    · rw [decode_eq, hheader]
      rfl
    · exact (decode_of_tells htells).trans (decodeAs_eq_error.mpr hspoiled)

/-- Nothing comes of blank lines and of null; an event or a failure comes of all others. The event
is of the type that the line tells and carries the object that it holds, which is read as what the
type asks for, and a failure is one of these two readings. -/
theorem decodes_line (s : Serializer) (line : Bytes) : Decodes s line where
  nothing _ _ := decode_eq_ok_none.trans isNothing_iff
  event _ _ _ := decode_eq_ok_some
  failed _ _ _ := decode_eq_error
  same t h ht := by
    obtain ⟨r, hr⟩ := exists_decodeAs s line ht
    exact ⟨r, fun α _ => (decode_of_tells h).trans (hr α)⟩
  json α _ e v hs h hv := by
    obtain ⟨-, htells, hheld⟩ := decode_eq_ok_some.mp h
    refine ⟨part_type_of_tells hs htells hv, fun hplain => ?_⟩
    cases e with
    | added a | modified a | deleted a => exact part_object_of_holds hs hplain hheld hv
    | bookmark b | error b => exact part_object_of_holds hs rfl hheld hv
  yaml α _ e v hs h hv := by
    obtain ⟨-, htells, hheld⟩ := decode_eq_ok_some.mp h
    refine ⟨get?_type_of_tells hs htells hv, ?_⟩
    cases e <;> exact get?_object_of_holds hs hheld hv

/-- What one watch hears of its end, all watches hear. -/
theorem decodes_line_expired :
    let json : Serializer := ⟨"application/json", .json⟩
    let line := Utf8.encode "\x7b\"type\":\"ERROR\",\"object\":\x7b\"code\":410\x7d\x7d"
    let expired : Status := ⟨none, 410, "", "", none⟩
    Tells json line .error ∧
      ∀ (α : Type) [Documented α], decode α json line = .ok (some (.error expired)) := by
  intro json line expired
  have hunit : decode Unit json line = .ok (some (.error expired)) := by decide +kernel
  have hline := decodes_line json line
  obtain ⟨-, htells, -⟩ := (hline.event Unit _).mp hunit
  obtain ⟨r, hr⟩ := hline.same .error htells (.inr rfl)
  obtain ⟨marker, rfl, hmarker⟩ := map_eq_some.mp ((hr Unit).symm.trans hunit)
  refine ⟨htells, fun α _ => (hr α).trans ?_⟩
  cases marker with
  | inl _ => cases hmarker
  | inr _ =>
    cases hmarker
    rfl

/-- A list of one item is an event: the item is its type and its object, though neither has a
name. -/
theorem decode_unnamed :
    let json : Serializer := ⟨"application/json", .json⟩
    let line := Utf8.encode "[\"ADDED\"]"
    ∃ v, Json.read .any line = .ok v ∧ v.get? "type" = none ∧ v.get? "object" = none ∧
      decode Value json line = .ok (some (.added (.string "ADDED"))) :=
  ⟨_, rfl, rfl, rfl, rfl⟩

end WatchEvent
end KubeClient
