import KubeClient.Document.NameMap
import KubeClient.Proofs.JsonText
import KubeClient.Proofs.Outcomes

/-!
# How deep the values of a shape nest

* `Shape.bounded` : a shape that looks at everything it reads, down to some depth;
* `Shape.yields` : what a reader of such a shape accepts is printed as readable text.
-/

namespace KubeClient

open Json

mutual

/-- The values of the shape nest less deep than `d`, and their integers have 64 bits at most. -/
def Shape.bounded : Shape → Nat → Bool
  | .any => fun _ => false
  | .string | .text _ _ | .bool | .intOrString | .unit => fun d => 0 < d
  | .int _ low high => fun d => 0 < d && -2 ^ 63 ≤ low && high < 2 ^ 64
  | .option s => fun d => 0 < d && s.bounded d
  | .list s | .map s => fun d => 1 < d && s.bounded (d - 1)
  | .record _ fields => fun d => 1 < d && fields.bounded (d - 1)
  | .merged _ fields inner => fun d => 1 < d && fields.bounded (d - 1) && inner.bounded (d - 1)
  | .tagged _ _ cases => cases.bounded

/-- All fields are bounded. -/
def Fields.bounded : Fields → Nat → Bool
  | .nil => fun _ => true
  | .cons _ _ s rest => fun d => s.bounded d && rest.bounded d

end

/-- What a reader accepts is printed as readable text. -/
def Content.Yields (r : Content.Reader) (d : Nat) : Prop :=
  ∀ c w, r c = .ok w → Readable d w

namespace Content

variable {surplus : Surplus} {r : Reader} {d : Nat} {fields : List Field}

/-! ### Scalars -/

theorem yields_text (expectation : String) (check : String → Except String Unit) :
    Yields (readText expectation check) (d + 1) := by
  intro c w h
  cases c with
  | string s =>
    rw [readText] at h
    cases hcheck : check s with
    | ok u =>
      rw [hcheck] at h
      obtain rfl := Except.ok.inj h
      exact .string s
    | error e =>
      rw [hcheck] at h
      cases h
  | _ => cases h

theorem yields_int {word : String} {low high : Int} (hlow : -2 ^ 63 ≤ low) (hhigh : high < 2 ^ 64) :
    Yields (readInt word low high) (d + 1) := by
  intro c w h
  cases c with
  | number n =>
    cases n with
    | int n =>
      rw [readInt] at h
      split at h
      · next hn =>
        obtain rfl := Except.ok.inj h
        exact .number (legible_int (Int.le_trans hlow hn.1) (Int.lt_of_le_of_lt hn.2 hhigh))
      · cases h
    | float _ => cases h
  | _ => cases h

theorem yields_intOrString : Yields readIntOrString (d + 1) := by
  intro c w h
  cases c with
  | string s =>
    obtain rfl := Except.ok.inj h
    exact .string s
  | number n =>
    cases n with
    | int n =>
      rw [readIntOrString] at h
      split at h
      · next hn =>
        obtain rfl := Except.ok.inj h
        unfold Fits at hn
        exact .number (legible_int (by omega) (by omega))
      · cases h
    | float _ => cases h
  | _ => cases h

/-! ### Lists and maps -/

theorem readable_of_readItems (hr : Yields r d) {cs : List Content} {ws : List Value}
    (h : readItems r cs = .ok ws) : ∀ w ∈ ws, Readable d w := by
  induction cs generalizing ws with
  | nil =>
    obtain rfl := Except.ok.inj h
    exact nofun
  | cons c cs ih =>
    obtain ⟨w, hw, h⟩ := exists_of_bind_ok h
    obtain ⟨ws', hws, h⟩ := exists_of_bind_ok h
    obtain rfl := Except.ok.inj h
    exact List.forall_mem_cons.mpr ⟨hr c w hw, ih hws⟩

theorem readable_of_readMap (hr : Yields r d) {cs : List (Content × Content)}
    {ms : List (String × Value)} (h : readMap r cs = .ok ms) : ∀ m ∈ ms, Readable d m.2 := by
  induction cs generalizing ms with
  | nil =>
    obtain rfl := Except.ok.inj h
    exact nofun
  | cons c cs ih =>
    obtain ⟨name, c⟩ := c
    cases name with
    | string s =>
      obtain ⟨w, hw, h⟩ := exists_of_bind_ok h
      obtain ⟨ms', hms, h⟩ := exists_of_bind_ok h
      obtain rfl := Except.ok.inj h
      exact List.forall_mem_cons.mpr ⟨hr c w hw, ih hms⟩
    | _ => cases h

/-- Putting members in order adds none. -/
theorem mem_of_mem_ofList {α : Type} {ms : List (String × α)} {m : String × α}
    (h : m ∈ Members.ofList ms) : m ∈ ms := by
  have go : ∀ (ms sorted : List (String × α)),
      m ∈ ms.foldl (fun sorted m => Members.insert m.1 m.2 sorted) sorted →
        m ∈ ms ∨ m ∈ sorted := by
    intro ms
    induction ms with
    | nil => exact fun _ h => .inr h
    | cons n ms ih =>
      intro sorted h
      rcases ih _ h with h | h
      · exact .inl (List.mem_cons_of_mem n h)
      · rcases Members.mem_insert h with rfl | h
        · exact .inl List.mem_cons_self
        · exact .inr h
  exact (go ms [] h).resolve_right List.not_mem_nil

/-! ### Records -/

/-- A name stands for one of the fields. -/
theorem mem_of_selectField {c : Content} {f : Field} (h : selectField fields c = .ok (some f)) :
    f ∈ fields := by
  cases c with
  | string s => exact List.mem_of_find?_eq_some (Except.ok.inj h)
  | number n =>
    cases n with
    | int n =>
      rw [selectField] at h
      split at h
      · cases h
      · exact List.mem_of_getElem? (Except.ok.inj h)
    | float _ => cases h
  | _ => cases h

/-- A field that was read is readable. -/
theorem forall_mem_put {slots : Slots} (hslots : ∀ m ∈ slots, Readable d m.2) {w : Value}
    (hw : Readable d w) (name : String) : ∀ m ∈ slots.put name w, Readable d m.2 :=
  List.forall_mem_append.mpr ⟨hslots, List.forall_mem_singleton.mpr hw⟩

theorem readable_of_readMembers (hfields : ∀ f ∈ fields, Yields f.read d) {slots slots' : Slots}
    {cs : List (Content × Content)} (h : readMembers fields slots cs = .ok slots')
    (hslots : ∀ m ∈ slots, Readable d m.2) : ∀ m ∈ slots', Readable d m.2 := by
  induction cs generalizing slots with
  | nil =>
    obtain rfl := Except.ok.inj h
    exact hslots
  | cons c cs ih =>
    obtain ⟨name, c⟩ := c
    obtain ⟨f, hf, h⟩ := exists_of_bind_ok h
    cases f with
    | none => exact ih h hslots
    | some f =>
      dsimp only at h
      split at h
      · cases h
      · obtain ⟨w, hw, h⟩ := exists_of_bind_ok h
        have hread := hfields f (mem_of_selectField hf) c w hw
        exact ih h (forall_mem_put hslots hread f.name)

theorem readable_of_readPositions (hfields : ∀ f ∈ fields, Yields f.read d) {words : String}
    {index : Nat} {slots : Slots} {cs : List Content} {p : Slots × List Content}
    (h : readPositions words index slots fields cs = .ok p)
    (hslots : ∀ m ∈ slots, Readable d m.2) : ∀ m ∈ p.1, Readable d m.2 := by
  induction fields generalizing index slots cs with
  | nil =>
    obtain rfl := Except.ok.inj h
    exact hslots
  | cons f fields ih =>
    have hfields' := fun g hg => hfields g (List.mem_cons_of_mem f hg)
    cases cs with
    | nil =>
      rw [readPositions] at h
      split at h
      · cases h
      · exact ih hfields' h hslots
    | cons c cs =>
      obtain ⟨w, hw, h⟩ := exists_of_bind_ok h
      have hread := hfields f List.mem_cons_self c w hw
      exact ih hfields' h (forall_mem_put hslots hread f.name)

/-- The fields of a record are fields that were read. -/
theorem readable_of_finish {slots : Slots} {names : List (String × Bool)}
    {ms : List (String × Value)} (h : slots.finish names = .ok ms)
    (hslots : ∀ m ∈ slots, Readable d m.2) : ∀ m ∈ ms, Readable d m.2 := by
  induction names generalizing ms with
  | nil =>
    obtain rfl := Except.ok.inj h
    exact nofun
  | cons n names ih =>
    obtain ⟨name, required⟩ := n
    rw [Slots.finish] at h
    split at h
    · next v hlookup =>
      obtain ⟨front, back, rfl, -⟩ := List.lookup_eq_some_iff.mp hlookup
      have hv := hslots (name, v) (List.mem_append_right front List.mem_cons_self)
      cases htail : Slots.finish (front ++ (name, v) :: back) names with
      | error _ =>
        rw [htail] at h
        cases h
      | ok tail =>
        rw [htail] at h
        obtain rfl := Except.ok.inj h
        exact List.forall_mem_cons.mpr ⟨hv, ih htail⟩
    · split at h
      · cases h
      · exact ih h

theorem readable_of_object {slots : Slots} {names : List (String × Bool)} {w : Value}
    (h : Value.object <$> slots.finish names = .ok w)
    (hslots : ∀ m ∈ slots, Readable (d + 1) m.2) : Readable (d + 2) w := by
  obtain ⟨ms, hms, rfl⟩ := exists_of_map_ok h
  exact .object (readable_of_finish hms hslots)

theorem yields_record (hfields : ∀ f ∈ fields, Yields f.read (d + 1)) (expectation : String) :
    Yields (readRecord surplus expectation fields) (d + 2) := by
  intro c w h
  cases c with
  | map cs =>
    obtain ⟨slots, hslots, h⟩ := exists_of_bind_ok h
    exact readable_of_object h (readable_of_readMembers hfields hslots nofun)
  | list cs =>
    obtain ⟨⟨slots, left⟩, hslots, h⟩ := exists_of_bind_ok h
    dsimp only at h
    split at h
    · exact readable_of_object h (readable_of_readPositions hfields hslots nofun)
    · cases h
  | _ => cases h

theorem yields_merged {inner : List Field} (hfields : ∀ f ∈ fields, Yields f.read (d + 1))
    (hinner : ∀ f ∈ inner, Yields f.read (d + 1)) (expectation : String) :
    Yields (readMerged expectation fields inner) (d + 2) := by
  intro c w h
  cases c with
  | map cs =>
    obtain ⟨slots, hslots, h⟩ := exists_of_bind_ok h
    obtain ⟨own, hown, h⟩ := exists_of_bind_ok h
    obtain ⟨slots', hslots', h⟩ := exists_of_bind_ok h
    obtain ⟨more, hmore, h⟩ := exists_of_bind_ok h
    obtain rfl := Except.ok.inj h
    exact .object (List.forall_mem_append.mpr
      ⟨readable_of_finish hmore (readable_of_readMembers hinner hslots' nofun),
        readable_of_finish hown (readable_of_readMembers hfields hslots nofun)⟩)
  | _ => cases h

/-- A tag in front adds no level. -/
theorem readable_withTag (tag name : String) {w : Value} (h : Readable d w) :
    Readable d (withTag tag name w) := by
  cases h with
  | object h => exact .object (List.forall_mem_cons.mpr ⟨.string name, h⟩)
  | null => exact .null
  | bool b => exact .bool b
  | number h => exact .number h
  | string s => exact .string s
  | list h => exact .list h

theorem mem_of_selectCase {c : Content} {f : Field} (h : selectCase fields c = .ok f) :
    f ∈ fields := by
  cases c with
  | string s =>
    rw [selectCase] at h
    split at h
    · next g hfind =>
      obtain rfl := Except.ok.inj h
      exact List.mem_of_find?_eq_some hfind
    · cases h
  | _ => cases h

theorem yields_tagged (hfields : ∀ f ∈ fields, Yields f.read d) (expectation tag : String) :
    Yields (readTagged expectation tag fields) d := by
  have hcase {c c' : Content} {w : Value} (h : (do
      let f ← selectCase fields c
      withTag tag f.name <$> f.read c') = .ok w) : Readable d w := by
    obtain ⟨f, hf, h⟩ := exists_of_bind_ok h
    obtain ⟨w', hw, rfl⟩ := exists_of_map_ok h
    exact readable_withTag tag f.name (hfields f (mem_of_selectCase hf) _ w' hw)
  intro c w h
  cases c with
  | map cs =>
    obtain ⟨⟨found, left⟩, -, h⟩ := exists_of_bind_ok h
    cases found with
    | none => cases h
    | some c => exact hcase h
  | list cs =>
    cases cs with
    | nil => cases h
    | cons c cs => exact hcase h
  | _ => cases h

end Content

/-! ### All shapes -/

open Content

mutual

/-- What a reader of a bounded shape accepts is printed as readable text. -/
theorem Shape.yields (surplus : Content.Surplus) : (s : Shape) → {d : Nat} →
    s.bounded d = true → Yields (s.read surplus) d
  | .any, _, h => by cases h
  | .string, 0, h | .text _ _, 0, h | .bool, 0, h | .intOrString, 0, h | .unit, 0, h => by cases h
  | .string, _ + 1, _ => yields_text Shape.string.expectation fun _ => .ok ()
  | .text e check, _ + 1, _ => yields_text e check
  | .bool, _ + 1, _ => by
    intro c w h
    cases c with
    | bool b =>
      obtain rfl := Except.ok.inj h
      exact .bool b
    | _ => cases h
  | .intOrString, _ + 1, _ => yields_intOrString
  | .unit, _ + 1, _ => by
    intro c w h
    cases c with
    | null =>
      obtain rfl := Except.ok.inj h
      exact .null
    | _ => cases h
  | .int word low high, d, h => by
    simp only [Shape.bounded, Bool.and_eq_true, decide_eq_true_eq] at h
    obtain ⟨d, rfl⟩ := Nat.exists_eq_add_of_lt h.1.1
    exact Nat.zero_add d ▸ yields_int h.1.2 h.2
  | .option s, 0, h => by cases h
  | .option s, d + 1, h => by
    simp only [Shape.bounded, Bool.and_eq_true, decide_eq_true_eq] at h
    have hs := s.yields surplus h.2
    intro c w hread
    cases c with
    | null =>
      obtain rfl := Except.ok.inj hread
      exact .null
    | _ => exact hs _ w hread
  | .list s, 0, h | .map s, 0, h | .list s, 1, h | .map s, 1, h => by cases h
  | .list s, d + 2, h => by
    simp only [Shape.bounded, Bool.and_eq_true, decide_eq_true_eq] at h
    have hs := s.yields surplus h.2
    intro c w hread
    cases c with
    | list cs =>
      obtain ⟨ws, hws, rfl⟩ := exists_of_map_ok hread
      exact .list (readable_of_readItems hs hws)
    | _ => cases hread
  | .map s, d + 2, h => by
    simp only [Shape.bounded, Bool.and_eq_true, decide_eq_true_eq] at h
    have hs := s.yields surplus h.2
    intro c w hread
    cases c with
    | map cs =>
      obtain ⟨ms, hms, rfl⟩ := exists_of_map_ok hread
      exact .object fun m hm => readable_of_readMap hs hms m (mem_of_mem_ofList hm)
    | _ => cases hread
  | .record _ fields, 0, h | .record _ fields, 1, h => by cases h
  | .record _ fields, d + 2, h => by
    simp only [Shape.bounded, Bool.and_eq_true, decide_eq_true_eq] at h
    exact yields_record (fields.yields surplus h.2) _
  | .merged _ fields inner, 0, h | .merged _ fields inner, 1, h => by cases h
  | .merged _ fields inner, d + 2, h => by
    simp only [Shape.bounded, Bool.and_eq_true, decide_eq_true_eq] at h
    exact yields_merged (fields.yields surplus h.1.2) (inner.yields surplus h.2) _
  | .tagged _ tag cases, _, h => yields_tagged (cases.yields surplus h) _ tag

/-- What the readers of bounded fields accept is printed as readable text. -/
theorem Fields.yields (surplus : Content.Surplus) : (fields : Fields) → {d : Nat} →
    fields.bounded d = true → ∀ f ∈ fields.readers surplus, Yields f.read d
  | .nil, _, _ => nofun
  | .cons _ _ s rest, _, h => by
    rw [Fields.bounded, Bool.and_eq_true] at h
    exact List.forall_mem_cons.mpr ⟨s.yields surplus h.1, rest.yields surplus h.2⟩

end

end KubeClient
