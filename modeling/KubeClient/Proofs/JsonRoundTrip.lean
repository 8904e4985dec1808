import KubeClient.Codec.Registry
import KubeClient.Proofs.JsonRecords
import KubeClient.Proofs.KeptObjects
import KubeClient.Proofs.ShapeDepth
import KubeClient.Proofs.TimestampText
import Mathlib.Data.List.DropRight

/-!
# JSON payloads are read as what was written

* `Serializer.RoundTrips` : a value is read back from its own payload;
* `Serializer.roundTrips_iff` : a readable value is, exactly when its document is kept;
* `Serializer.json_round_trip` : metadata, outcomes, pages, terminal sizes and configurations are.
-/

namespace KubeClient

open Documented Json

/-- A regular timestamp is kept. -/
theorem kept_time {surplus : Content.Surplus} {t : Timestamp .seconds}
    (h : t.instant.Regular .seconds) : Kept surplus t :=
  kept_scalar (Timestamp.parse_text h)

namespace Serializer

variable {α : Type} [Documented α] {s : Serializer} {a : α} {w : Value}

/-- The value is read back from its own payload. -/
def RoundTrips (s : Serializer) (a : α) : Prop :=
  s.decode α (s.encode a) = .ok (some a)

/-! ### Payloads -/

/-- An object is not taken for nothing. -/
theorem isNothing_object (ms : List (String × Value)) : isNothing (print (.object ms)) = false := by
  rw [print_object]
  have htrim : Blank.trimBytes (0x7B :: objectTail ms) <+: 0x7B :: objectTail ms :=
    List.rdropWhile_prefix Blank.isAscii (0x7B :: objectTail ms)
  have hne : Blank.trimBytes (0x7B :: objectTail ms) ≠ [] := fun hnil =>
    absurd (List.rdropWhile_eq_nil_iff.mp hnil 0x7B List.mem_cons_self) (by decide)
  obtain ⟨b, bs, hcons⟩ := List.exists_cons_of_ne_nil hne
  rw [isNothing, hcons]
  rw [hcons, List.cons_prefix_cons] at htrim
  obtain ⟨rfl, -⟩ := htrim
  rfl

/-- A payload holds a value exactly when its text does, and is not taken for nothing. -/
theorem decode_json_iff (hs : s.format = .json) {bs : Bytes} :
    s.decode α bs = .ok (some a) ↔
      isNothing bs = false ∧ ∃ v, Json.read (shape α) bs = .ok v ∧ ofValue v = a := by
  rw [decode, hs, Format.read]
  cases isNothing bs with
  | true => exact ⟨nofun, nofun⟩
  | false =>
    cases Json.read (shape α) bs with
    | error _ => exact ⟨nofun, nofun⟩
    | ok v => simp [Except.mapError]

/-- A readable value is read as `w` from its text exactly when it is from its document. -/
theorem read_print_iff {v : Value} (h : Readable maxDepth v) (shape : Shape) :
    Json.read shape (print v) = .ok w ↔
      shape.read Reader.surplus (Content.ofValue v) = .ok w := by
  have hok {ε : Type} (x : Except ε Value) : x = .ok w ↔ x.toOption = some w := by
    cases x with
    | error _ => exact ⟨nofun, nofun⟩
    | ok v =>
      exact ⟨fun h => congrArg Except.toOption h, fun h => congrArg Except.ok (Option.some.inj h)⟩
  rw [hok, hok, read_print shape h]

/-- A readable value is read back exactly when it is kept, and not taken for nothing. -/
theorem roundTrips_iff (hs : s.format = .json) (h : Readable maxDepth (toValue a)) :
    s.RoundTrips a ↔
      isNothing (print (toValue a)) = false ∧ ∃ w, KeptAs Reader.surplus a w := by
  rw [RoundTrips, encode, hs, Format.print, decode_json_iff hs]
  refine and_congr_right fun _ => exists_congr fun w => ?_
  rw [read_print_iff h]
  exact ⟨fun h => ⟨h.1, h.2⟩, fun h => ⟨h.read, h.value⟩⟩

/-- A readable object is read back when it is kept. -/
theorem roundTrips_of_keptAs (hs : s.format = .json) (h : KeptAs Reader.surplus a w)
    {ms : List (String × Value)} (hobject : toValue a = .object ms)
    (hreadable : Readable maxDepth (toValue a)) : s.RoundTrips a :=
  (roundTrips_iff hs hreadable).mpr ⟨hobject ▸ isNothing_object ms, w, h⟩

/-- What is read as it was written is readable, if its shape looks at everything. -/
theorem readable_of_kept (h : Kept Reader.surplus a) (hshape : (shape α).bounded maxDepth = true) :
    Readable maxDepth (toValue a) :=
  (shape α).yields Reader.surplus hshape _ _ h.read

/-- An object of such a shape is read back when it is kept. -/
theorem roundTrips_of_kept (hs : s.format = .json) (h : Kept Reader.surplus a)
    (hshape : (shape α).bounded maxDepth = true)
    {ms : List (String × Value)} (hobject : toValue a = .object ms) : s.RoundTrips a :=
  roundTrips_of_keptAs hs h hobject (readable_of_kept h hshape)

/-! ### Pages -/

/-- The items of a readable page are readable. -/
theorem readable_of_mem_items {d : Nat} {l : ObjectList α} (h : Readable d (toValue l)) :
    ∀ a ∈ l.items, Readable d (toValue a) := by
  intro a ha
  cases h with
  | object hmembers =>
    have hitems := hmembers ("items", .list (l.items.map toValue))
      (List.mem_filterMap.mpr ⟨ObjectList.itemsKey.entry l.items, by simp, rfl⟩)
    cases hitems with
    | list hvalues => exact (hvalues _ (List.mem_map_of_mem ha)).mono (by omega)

/-- A readable page is read back when all its items are. -/
theorem roundTrips_objectList (hs : s.format = .json) {l : ObjectList α}
    (hitems : ∀ a ∈ l.items, s.RoundTrips a) (h : Readable maxDepth (toValue l)) :
    s.RoundTrips l := by
  have hkept : ∀ a ∈ l.items, ∃ w, KeptAs Reader.surplus a w := fun a ha =>
    ((roundTrips_iff hs (readable_of_mem_items h a ha)).mp (hitems a ha)).2
  choose! w hw using hkept
  have hws : List.Forall₂ (fun a w => KeptAs Reader.surplus a w) l.items (l.items.map w) :=
    List.forall₂_map_right_iff.mpr (List.forall₂_same.mpr hw)
  exact roundTrips_of_keptAs hs (keptAs_objectList hws) rfl h

/-- What is written in JSON is read back: metadata with regular timestamps, outcomes, pages of
items that are read back themselves, terminal sizes and configurations. Timestamps that are not
regular lie in a year that four digits do not show, or have the nanoseconds of a leap second away
from second 59, which no RFC 3339 text denotes. That a page is readable says that its text can be
taken back: no double is rounded, and nothing nests too deep. -/
theorem json_round_trip (hs : s.format = .json) :
    (∀ m : TypeMeta, s.RoundTrips m) ∧
    (∀ m : ObjectMeta, (∀ t ∈ m.creationTimestamp, t.instant.Regular .seconds) →
      (∀ t ∈ m.deletionTimestamp, t.instant.Regular .seconds) → s.RoundTrips m) ∧
    (∀ m : ListMeta, s.RoundTrips m) ∧
    (∀ x : Status, s.RoundTrips x) ∧
    (∀ (α : Type) [Documented α] (l : ObjectList α), (∀ a ∈ l.items, s.RoundTrips a) →
      Readable maxDepth (toValue l) → s.RoundTrips l) ∧
    (∀ t : TerminalSize, s.RoundTrips t) ∧
    ∀ c : Config, s.RoundTrips c := by
  refine ⟨fun m => ?_, fun m hcreation hdeletion => ?_, fun m => ?_, fun x => ?_,
    fun α _ l hitems h => ?_, fun t => ?_, fun c => ?_⟩
  · exact roundTrips_of_kept hs (kept_typeMeta m) rfl rfl
  · exact roundTrips_of_kept hs (kept_objectMeta (fun t ht => kept_time (hcreation t ht))
      fun t ht => kept_time (hdeletion t ht)) rfl rfl
  · exact roundTrips_of_kept hs (kept_listMeta m) rfl rfl
  · exact roundTrips_of_kept hs (kept_status x) rfl rfl
  · exact roundTrips_objectList hs hitems h
  · exact roundTrips_of_kept hs (kept_terminalSize t) rfl rfl
  · exact roundTrips_of_kept hs (kept_config c) rfl rfl

/-- A page of one object, which is being deleted in a leap second. -/
theorem json_round_trip_of_page :
    let s : Serializer := ⟨MediaType.json, .json⟩
    let m : ObjectMeta := { (default : ObjectMeta) with
      name := some "web"
      creationTimestamp := some ⟨⟨1451606400, 0⟩⟩
      deletionTimestamp := some ⟨⟨1483228799, 10 ^ 9⟩⟩ }
    let l : ObjectList ObjectMeta := ⟨⟨"v1", "List"⟩, default, [m]⟩
    s.format = .json ∧ (∀ t ∈ m.creationTimestamp, t.instant.Regular .seconds) ∧
      (∀ t ∈ m.deletionTimestamp, t.instant.Regular .seconds) ∧ s.RoundTrips m ∧
      (∀ a ∈ l.items, s.RoundTrips a) ∧ Readable maxDepth (toValue l) ∧ s.RoundTrips l := by
  intro s m l
  have hcreation : ∀ t ∈ m.creationTimestamp, t.instant.Regular .seconds := by
    rintro _ ⟨⟩
    exact ⟨by decide, by decide, by decide⟩
  have hdeletion : ∀ t ∈ m.deletionTimestamp, t.instant.Regular .seconds := by
    rintro _ ⟨⟩
    exact ⟨by decide, by decide, by decide⟩
  obtain ⟨-, hmeta, -, -, hlist, -, -⟩ := json_round_trip (s := s) rfl
  have hm := hmeta m hcreation hdeletion
  have hitems : ∀ a ∈ l.items, s.RoundTrips a := List.forall_mem_singleton.mpr hm
  have hkept : KeptAs Reader.surplus l (l.document [toValue m]) :=
    keptAs_objectList (.cons (kept_objectMeta (fun t ht => kept_time (hcreation t ht))
      fun t ht => kept_time (hdeletion t ht)) .nil)
  have hreadable : Readable maxDepth (toValue l) := readable_of_kept hkept rfl
  exact ⟨rfl, hcreation, hdeletion, hm, hitems, hreadable, hlist _ l hitems hreadable⟩

end Serializer
end KubeClient
