import KubeClient.Proofs.JsonShapes

/-!
# Records of printed values

* `Json.Reader.FieldsAgree` : fields of the same names, each read from text as from a tree;
* `Json.Reader.agrees_record`, `agrees_merged`, `agrees_tagged` : records are read alike;
* `Shape.agrees` : every shape is read from a printed value as from the value itself.
-/

namespace KubeClient

open Json

namespace Json.Reader

variable {α β : Type} {d : Nat} {v : Value} {rest : Bytes} {fs : List Field}
  {ts : List Content.Field}

/-- Fields of the same names, each read from text as from a tree. -/
def FieldsAgree (fs : List Field) (ts : List Content.Field) : Prop :=
  List.Forall₂ (fun f t => f.name = t.name ∧ f.required = t.required ∧ Agrees f.read t.read) fs ts

/-- What is declared is the same on both sides. -/
theorem FieldsAgree.declared (h : FieldsAgree fs ts) :
    (fs.map fun f => (f.name, f.required)) = ts.map fun t => (t.name, t.required) := by
  induction h with
  | nil => rfl
  | cons hft _ ih => rw [List.map_cons, List.map_cons, ih, hft.1, hft.2.1]

theorem FieldsAgree.optional (h : FieldsAgree fs ts) :
    (fs.map fun f => (f.name, false)) = ts.map fun t => (t.name, false) := by
  induction h with
  | nil => rfl
  | cons hft _ ih => rw [List.map_cons, List.map_cons, ih, hft.1]

theorem FieldsAgree.length_eq (h : FieldsAgree fs ts) : fs.length = ts.length := by
  have hlength := congrArg List.length h.declared
  rwa [List.length_map, List.length_map] at hlength

/-- A name stands for fields that are read alike, or for none. -/
theorem FieldsAgree.find? (h : FieldsAgree fs ts) (n : String) :
    (fs.find? (fun f => f.name == n) = none ∧ ts.find? (fun t => t.name == n) = none) ∨
      ∃ f t, fs.find? (fun f => f.name == n) = some f ∧
        ts.find? (fun t => t.name == n) = some t ∧ t.name = n ∧ Agrees f.read t.read := by
  induction h with
  | nil => exact .inl ⟨rfl, rfl⟩
  | @cons f t fs ts hft _ ih =>
    rw [List.find?_cons, List.find?_cons, hft.1]
    cases hn : t.name == n with
    | false => exact ih
    | true => exact .inr ⟨f, t, rfl, rfl, beq_iff_eq.mp hn, hft.2.2⟩

/-! ### Named fields -/

/-- One member of a record. -/
def fieldStep (ts : List Content.Field) (slots : Slots) (m : String × Value) : Option Slots :=
  match ts.find? fun t => t.name == m.1 with
  | none => some slots
  | some t =>
    if (slots.lookup t.name).isSome then none
    else (t.read (Content.ofValue m.2)).toOption.map (slots.put t.name)

theorem toOption_readMembers (ts : List Content.Field) (slots : Slots)
    (ms : List (String × Value)) :
    (Content.readMembers ts slots (Content.ofMembers ms)).toOption =
      ms.foldlM (fieldStep ts) slots := by
  induction ms generalizing slots with
  | nil => rfl
  | cons m ms ih =>
    have hselect : Content.selectField ts (.string m.1) =
        .ok (ts.find? fun t : Content.Field => t.name == m.1) := rfl
    rw [Content.ofMembers, Content.readMembers, hselect, List.foldlM_cons, fieldStep]
    cases ts.find? fun t : Content.Field => t.name == m.1 with
    | none => exact ih slots
    | some t =>
      show (if (slots.lookup t.name).isSome then .error (.duplicateField t.name)
        else t.read (Content.ofValue m.2) >>= fun w =>
          Content.readMembers ts (slots.put t.name w) (Content.ofMembers ms)).toOption = _
      dsimp only
      split
      · rfl
      · rw [toOption_bind]
        cases (t.read (Content.ofValue m.2)).toOption with
        | none => rfl
        | some w => exact ih _

theorem gives_fieldMember (h : FieldsAgree fs ts) (slots : Slots) {m : String × Value}
    (hm : Readable d m.2) (hrest : EndsValue rest) :
    (fieldMember fs d slots m.1).Gives (0x3A :: (print m.2 ++ rest))
      ((fieldStep ts slots m).map (·, rest)) := by
  rw [fieldMember, fieldStep]
  rcases h.find? m.1 with ⟨hf, ht⟩ | ⟨f, t, hf, ht, hname, hread⟩
  · rw [hf, ht]
    exact (gives_colon _).bind ((gives_skipValue hm hrest).bind (gives_pure slots rest))
  · rw [hf, ht]
    dsimp only
    rw [hname]
    split
    · exact gives_failShape _ _
    · exact (gives_colon _).bind ((hread d m.2 rest hm hrest).andPure (slots.put m.1))

/-- The record of the fields that were read. -/
theorem gives_finish (slots : Slots) (names : List (String × Bool)) (bs : Bytes) :
    (Value.object <$> ofExcept (slots.finish names)).Gives bs
      ((Value.object <$> slots.finish names).toOption.map (·, bs)) := by
  have hfinish := (gives_ofExcept (slots.finish names) bs).map Value.object
  rw [Option.map_map] at hfinish
  rw [toOption_map, Option.map_map]
  exact hfinish

/-- The fields of a record, from an object. -/
theorem gives_namedFields (h : FieldsAgree fs ts) {ms : List (String × Value)}
    (hms : ∀ m ∈ ms, Readable d m.2) (expectation : String) (surplus : Content.Surplus)
    (rest : Bytes) :
    (namedFields fs d).Gives (objectTail ms ++ rest)
      ((Content.readRecord surplus expectation ts (.map (Content.ofMembers ms))).toOption.map
        (·, 0x7D :: rest)) := by
  rw [Content.readRecord, toOption_bind, toOption_readMembers, Option.map_bind]
  refine Gives.andThen (gives_members (fieldMember fs d) (fieldStep ts) ms
    (fun m hm slots rest hrest => gives_fieldMember h slots (hms m hm) hrest) [] rest)
    fun slots _ => ?_
  rw [h.declared]
  exact gives_finish slots _ _

/-! ### Fields in order -/

/-- The bytes in front of items, be they the first ones or not. -/
def itemsFrom (index : Nat) (vs : List Value) : Bytes :=
  if index = 0 then listTail vs else printItems vs

theorem itemsFrom_nil (index : Nat) : itemsFrom index [] = [0x5D] := by
  unfold itemsFrom
  split <;> rfl

theorem gives_moreItems (index : Nat) (hv : Readable d v) (vs : List Value) (rest : Bytes) :
    (moreItems (index = 0)).Gives (itemsFrom index (v :: vs) ++ rest)
      (some (true, print v ++ (printItems vs ++ rest))) := by
  cases index with
  | zero =>
    have hbytes : itemsFrom 0 (v :: vs) ++ rest = print v ++ (printItems vs ++ rest) :=
      List.append_assoc _ _ _
    rw [hbytes]
    exact gives_moreItems_first hv _
  | succ index =>
    have hbytes : itemsFrom (index + 1) (v :: vs) ++ rest =
        0x2C :: (print v ++ (printItems vs ++ rest)) := printItems_cons v vs rest
    rw [hbytes]
    exact gives_moreItems_cons hv _

/-- A list does not end in front of an item. -/
theorem gives_endList_none (index : Nat) (hv : Readable d v) (vs : List Value) (rest : Bytes) :
    endList.Gives (itemsFrom index (v :: vs) ++ rest) none := by
  cases index with
  | zero =>
    have hbytes : itemsFrom 0 (v :: vs) ++ rest = print v ++ (printItems vs ++ rest) :=
      List.append_assoc _ _ _
    rw [hbytes]
    exact gives_endList_first hv _
  | succ index => exact gives_endList_cons vs rest hv

/-- The fields of a record, from the items of a list, and the items that are left. -/
theorem gives_positionalFields (h : FieldsAgree fs ts) (words : String) (index : Nat)
    (slots : Slots) {vs : List Value} (hvs : ∀ v ∈ vs, Readable d v) (rest : Bytes) :
    (positionalFields words d index slots fs).Gives (itemsFrom index vs ++ rest)
      ((Content.readPositions words index slots ts (Content.ofValues vs)).toOption.map fun p =>
        (p.1, itemsFrom (index + fs.length) (vs.drop fs.length) ++ rest)) := by
  induction h generalizing index slots vs with
  | nil => exact gives_pure slots _
  | @cons f t fs ts hft _ ih =>
    have hlength : index + (f :: fs).length = index + 1 + fs.length := by
      rw [List.length_cons]
      omega
    rw [hlength]
    cases vs with
    | nil =>
      have hnext := ih (index + 1) slots hvs
      rw [itemsFrom_nil] at hnext ⊢
      refine (gives_moreItems_nil _ rest).bind ?_
      rw [if_neg nofun, hft.2.1, Content.ofValues, Content.readPositions]
      split
      · exact gives_failShape _ _
      · rw [List.drop_nil] at hnext ⊢
        exact hnext
    | cons v vs =>
      refine (gives_moreItems index (hvs v List.mem_cons_self) vs rest).bind ?_
      rw [if_pos rfl, Content.ofValues, Content.readPositions, toOption_bind, Option.map_bind]
      refine Gives.andThen (hft.2.2 d v _ (hvs v List.mem_cons_self)
        (endsValue_printItems vs rest)) fun w _ => ?_
      rw [hft.1]
      exact ih (index + 1) _ fun w hw => hvs w (List.mem_cons_of_mem v hw)

/-- What is left are the items behind the fields. -/
theorem left_of_readPositions {words : String} {index : Nat} {slots : Slots}
    {cs : List Content} {p : Slots × List Content}
    (h : (Content.readPositions words index slots ts cs).toOption = some p) :
    p.2 = cs.drop ts.length := by
  induction ts generalizing index slots cs with
  | nil =>
    obtain rfl := Option.some.inj h
    rfl
  | cons t ts ih =>
    cases cs with
    | nil =>
      rw [Content.readPositions] at h
      split at h
      · cases h
      · rw [ih h, List.drop_nil, List.drop_nil]
    | cons c cs =>
      rw [Content.readPositions, toOption_bind, Option.bind_eq_some_iff] at h
      obtain ⟨w, -, h⟩ := h
      exact ih h

/-- The fields of a record, from the items of a list that holds nothing else. -/
theorem gives_positionalRecord (h : FieldsAgree fs ts) (expectation : String)
    (surplus : Content.Surplus) {vs : List Value} (hvs : ∀ v ∈ vs, Readable (d + 1) v)
    (rest : Bytes) :
    (nested (d + 2) (fun depth => do
      let slots ← positionalFields (Shape.lengthExpectation expectation fs.length) depth 0 [] fs
      Value.object <$> ofExcept (Slots.finish slots (fs.map fun f => (f.name, false))))
        endList).Gives
      (0x5B :: (listTail vs ++ rest))
      ((Content.readRecord surplus expectation ts (.list (Content.ofValues vs))).toOption.map
        (·, rest)) := by
  have hpositions := gives_positionalFields h (Shape.lengthExpectation expectation fs.length) 0 []
    hvs rest
  rw [Nat.zero_add] at hpositions
  rw [Content.readRecord, h.optional, ← h.length_eq, toOption_bind]
  cases hp : (Content.readPositions (Shape.lengthExpectation expectation fs.length) 0 [] ts
      (Content.ofValues vs)).toOption with
  | none =>
    rw [hp] at hpositions
    exact gives_nested_none (d := d) hpositions.bind_none
  | some p =>
    obtain ⟨slots, left⟩ := p
    rw [hp] at hpositions
    have hleft : left = Content.ofValues (vs.drop fs.length) := by
      have hdropped : left = (Content.ofValues vs).drop ts.length := left_of_readPositions hp
      rw [hdropped, ← h.length_eq, Content.ofValues_eq_map, Content.ofValues_eq_map, List.map_drop]
    have hfinish := Gives.bind
      (k := fun slots => Value.object <$> ofExcept (slots.finish (ts.map fun t => (t.name, false))))
      hpositions (gives_finish slots _ _)
    rw [Option.bind_some, hleft]
    cases hdrop : vs.drop fs.length with
    | nil =>
      rw [hdrop, itemsFrom_nil] at hfinish
      exact gives_nested hfinish (gives_endList rest)
    | cons w ws =>
      rw [hdrop] at hfinish
      have hw : w ∈ vs := List.drop_subset fs.length vs (hdrop ▸ List.mem_cons_self)
      exact gives_nested_fails hfinish (gives_endList_none _ (hvs w hw) ws rest)

/-- A record is read from an object or a list. -/
theorem agrees_record (h : FieldsAgree fs ts) (expectation : String) (surplus : Content.Surplus) :
    Agrees (record expectation fs) (Content.readRecord surplus expectation ts) := by
  intro d v rest hv hrest
  cases v with
  | object ms =>
    rw [print_object, Content.ofValue]
    cases hv with
    | @object d _ hms =>
      refine Gives.locate ((gives_token (b := 0x7B) rfl _).bind ?_)
      dsimp only
      rw [if_pos rfl]
      exact gives_nested (gives_namedFields h hms expectation surplus rest) (gives_endObject rest)
  | list vs =>
    rw [print_list, Content.ofValue]
    cases hv with
    | @list d _ hvs =>
      refine Gives.locate ((gives_token (b := 0x5B) rfl _).bind ?_)
      dsimp only
      rw [if_neg (by decide), if_pos rfl]
      exact gives_positionalRecord h expectation surplus hvs rest
  | _ =>
    obtain ⟨b, hb, htoken⟩ := gives_peekToken_print hv rest
    refine Gives.locate (htoken.bind ?_)
    dsimp only
    rw [if_neg (ne_of_opens hb rfl), if_neg (ne_of_opens hb rfl)]
    exact gives_mismatch _ hv hrest

/-! ### Records that take over fields -/

/-- One member of a record, the others kept. -/
def mergedStep (ts : List Content.Field) (p : Slots × List (Content × Content))
    (m : String × Value) : Option (Slots × List (Content × Content)) :=
  match ts.find? fun t => t.name == m.1 with
  | none => some (p.1, (.string m.1, Content.ofValue m.2) :: p.2)
  | some _ => (fieldStep ts p.1 m).map (·, p.2)

/-- The member is none of the fields. -/
def isOther (ts : List Content.Field) (m : Content × Content) : Bool :=
  ts.all fun t => some t.name != m.1.name?

theorem isOther_eq (ts : List Content.Field) (s : String) (c : Content) :
    isOther ts (.string s, c) = (ts.find? fun t => t.name == s).isNone := by
  induction ts with
  | nil => rfl
  | cons t ts ih =>
    have hne : (some t.name != (Content.string s).name?) = !(t.name == s) := rfl
    rw [isOther, List.all_cons, hne, List.find?_cons]
    cases t.name == s with
    | true => rfl
    | false => exact ih

theorem foldlM_mergedStep (ts : List Content.Field) (slots : Slots)
    (others : List (Content × Content)) (ms : List (String × Value)) :
    ms.foldlM (mergedStep ts) (slots, others) = (ms.foldlM (fieldStep ts) slots).map
      (·, ((Content.ofMembers ms).filter (isOther ts)).reverse ++ others) := by
  induction ms generalizing slots others with
  | nil => rfl
  | cons m ms ih =>
    rw [List.foldlM_cons, List.foldlM_cons, mergedStep, Content.ofMembers]
    cases hfind : ts.find? fun t => t.name == m.1 with
    | none =>
      have hother : isOther ts (.string m.1, Content.ofValue m.2) = true := by
        rw [isOther_eq, hfind]
        rfl
      have hstep : fieldStep ts slots m = some slots := by
        rw [fieldStep, hfind]
      rw [hstep, List.filter_cons_of_pos hother, List.reverse_cons, List.append_assoc]
      exact ih slots _
    | some t =>
      have hother : ¬ isOther ts (.string m.1, Content.ofValue m.2) = true := by
        rw [isOther_eq, hfind]
        exact Bool.false_ne_true
      rw [List.filter_cons_of_neg hother]
      cases fieldStep ts slots m with
      | none => rfl
      | some slots' => exact ih slots' others

/-- The reader of one member, the others kept. -/
def mergedMember (fs : List Field) (d : Nat) (p : Slots × List (Content × Content)) (n : String) :
    Reader (Slots × List (Content × Content)) := do
  match fs.find? fun f => f.name == n with
  | none =>
    colon
    return (p.1, (.string n, ← content d) :: p.2)
  | some _ => return (← fieldMember fs d p.1 n, p.2)

/-- One member is read into its field, or kept. -/
theorem gives_mergedMember (h : FieldsAgree fs ts) (p : Slots × List (Content × Content))
    {m : String × Value} (hm : Readable d m.2) (hrest : EndsValue rest) :
    (mergedMember fs d p m.1).Gives (0x3A :: (print m.2 ++ rest))
      ((mergedStep ts p m).map (·, rest)) := by
  have hmember := gives_fieldMember h p.1 hm hrest
  rw [mergedMember, mergedStep]
  rcases h.find? m.1 with ⟨hf, ht⟩ | ⟨f, t, hf, ht, -, -⟩
  · rw [hf, ht]
    exact (gives_colon _).bind ((gives_content hm hrest).bind (gives_pure _ rest))
  · rw [hf, ht]
    exact hmember.andPure (·, p.2)

/-- The fields of an inner record are put in front of the record's own. -/
theorem gives_innerFields (expectation : String) (inner : List Content.Field)
    (taken : List (Content × Content)) (own : List (String × Value)) (rest : Bytes) :
    Gives (do
      match ← ofExcept (Content.readRecord surplus expectation inner (.map taken)) with
      | .object ms => return .object (ms ++ own)
      | v => return v) rest
      ((do
        let more ← Content.readMembers inner [] taken
        let more ← more.finish (inner.map fun f : Content.Field => (f.name, f.required))
        return Value.object (more ++ own)).toOption.map (·, rest)) := by
  rw [Content.readRecord]
  cases Content.readMembers inner [] taken with
  | error _ => exact (gives_failShape _ _).bind_none
  | ok more =>
    show Gives (ofExcept (Value.object <$> more.finish _) >>= _) rest
      (Except.toOption (more.finish _ >>= _) |>.map _)
    cases more.finish (inner.map fun f => (f.name, f.required)) with
    | error _ => exact (gives_failShape _ _).bind_none
    | ok ms => exact (gives_pure _ _).bind (gives_pure _ _)

/-- The members of an object, some read into fields and some kept for the inner record. -/
theorem gives_mergedMembers (h : FieldsAgree fs ts) (expectation : String)
    (inner : List Content.Field) {ms : List (String × Value)} (hms : ∀ m ∈ ms, Readable d m.2)
    (rest : Bytes) :
    Gives (do
      let (slots, others) ← members (mergedMember fs d) ([], [])
      let own ← ofExcept (Slots.finish slots (fs.map fun f => (f.name, f.required)))
      let taken := others.reverse.filter fun m => inner.any fun f => some f.name == m.1.name?
      match ← ofExcept (Content.readRecord surplus expectation inner (.map taken)) with
      | .object ms => return .object (ms ++ own)
      | v => return v) (objectTail ms ++ rest)
      ((Content.readMerged expectation ts inner (.map (Content.ofMembers ms))).toOption.map
        (·, 0x7D :: rest)) := by
  have hmembers := gives_members (mergedMember fs d) (mergedStep ts) ms
    (fun m hm p rest hrest => gives_mergedMember h p (hms m hm) hrest) ([], []) rest
  rw [foldlM_mergedStep, List.append_nil] at hmembers
  rw [Content.readMerged, toOption_bind, toOption_readMembers, Option.map_bind]
  cases hslots : ms.foldlM (fieldStep ts) [] with
  | none =>
    rw [hslots] at hmembers
    exact hmembers.bind_none
  | some slots =>
    rw [hslots] at hmembers
    refine hmembers.bind ?_
    dsimp only
    rw [List.reverse_reverse, h.declared, Option.bind_some, Function.comp_apply, toOption_bind,
      Option.map_bind]
    refine (gives_ofExcept (slots.finish _) _).andThen fun own _ => ?_
    exact gives_innerFields expectation inner _ own _

/-- A record that takes over fields is read from an object. -/
theorem agrees_merged (h : FieldsAgree fs ts) (expectation : String)
    (inner : List Content.Field) :
    Agrees (merged expectation fs inner) (Content.readMerged expectation ts inner) := by
  intro d v rest hv hrest
  cases v with
  | object ms =>
    rw [print_object, Content.ofValue]
    cases hv with
    | @object d _ hms =>
      refine Gives.locate ((gives_token (b := 0x7B) rfl _).bind ?_)
      dsimp only
      rw [if_pos rfl]
      exact gives_nested (gives_mergedMembers h expectation inner hms rest)
        (gives_endObject rest)
  | _ => exact gives_refused _ hv hrest fun b hb => ne_of_opens hb rfl

/-! ### Tagged records -/

section Tagged

variable (tag : String) (cases : List Content.Field)

/-- What stands in the field of the tag, if it names a case. -/
def checkedTag (c : Content) : Option Content :=
  (Content.selectCase cases c).toOption.map fun _ => c

/-- One member of a tagged record, the tag apart. -/
def taggedStep (p : Option Content × List (Content × Content)) (m : String × Value) :
    Option (Option Content × List (Content × Content)) :=
  if m.1 = tag then
    if p.1.isSome then none
    else (checkedTag cases (Content.ofValue m.2)).map fun c => (some c, p.2)
  else some (p.1, (.string m.1, Content.ofValue m.2) :: p.2)

/-- The reader of one member, the tag apart. -/
def taggedMember (d : Nat) (p : Option Content × List (Content × Content)) (n : String) :
    Reader (Option Content × List (Content × Content)) := do
  if n = tag then
    if p.1.isSome then failShape (.duplicateField tag)
    else
      colon
      return (some (← caseName cases), p.2)
  else
    colon
    return (p.1, (.string n, ← content d) :: p.2)

theorem gives_caseName (hv : Readable d v) (hrest : EndsValue rest) :
    (caseName cases).Gives (print v ++ rest)
      ((checkedTag cases (Content.ofValue v)).map (·, rest)) := by
  cases v with
  | string s =>
    refine Gives.locate ((gives_token (b := 0x22) rfl _).bind ((gives_name s rest).bind ?_))
    exact (gives_ofExcept _ rest).andPure fun _ => Content.string s
  | _ => exact gives_refused _ hv hrest fun b hb => ne_of_opens hb rfl

theorem gives_taggedMember (p : Option Content × List (Content × Content)) {m : String × Value}
    (hm : Readable d m.2) (hrest : EndsValue rest) :
    (taggedMember tag cases d p m.1).Gives (0x3A :: (print m.2 ++ rest))
      ((taggedStep tag cases p m).map (·, rest)) := by
  rw [taggedMember, taggedStep]
  split
  · split
    · exact gives_failShape _ _
    · refine (gives_colon _).bind ?_
      exact (gives_caseName cases hm hrest).andPure fun c => (some c, p.2)
  · exact (gives_colon _).bind ((gives_content hm hrest).bind (gives_pure _ rest))

/-- What comes out of the members, beside what was found before: the tag, if it comes once and names
a case, and the others, the last one first. -/
def taken (found : Option Content) (others : List (Content × Content)) :
    Option Content × List (Content × Content) → Option (Option Content × List (Content × Content))
  | (none, left) => some (found, left.reverse ++ others)
  | (some c, left) =>
    if found.isSome then none
    else (checkedTag cases c).map fun c => (some c, left.reverse ++ others)

theorem taken_other (found : Option Content) (others : List (Content × Content))
    (m : Content × Content) (p : Option Content × List (Content × Content)) :
    taken cases found others (p.1, m :: p.2) = taken cases found (m :: others) p := by
  obtain ⟨_ | c, left⟩ := p
  · simp only [taken, List.reverse_cons, List.append_assoc, List.singleton_append]
  · simp only [taken, List.reverse_cons, List.append_assoc, List.singleton_append]

/-- A tag comes once, be it before or behind the others. -/
theorem taken_tag (found : Option Content) (others : List (Content × Content)) (c : Content)
    (p : Option Content × List (Content × Content)) :
    (if p.1.isSome then none else taken cases found others (some c, p.2)) =
      if found.isSome then none
      else (checkedTag cases c).bind fun c => taken cases (some c) others p := by
  obtain ⟨_ | c', left⟩ := p
  · rw [if_neg nofun, taken]
    split
    · rfl
    · exact Option.map_eq_bind
  · show none = _
    split
    · rfl
    · cases checkedTag cases c <;> rfl

/-- The tag is taken out, and checked at once. -/
theorem foldlM_taggedStep (found : Option Content) (others : List (Content × Content))
    (ms : List (String × Value)) :
    ms.foldlM (taggedStep tag cases) (found, others) =
      (Content.takeTag tag (Content.ofMembers ms)).toOption.bind (taken cases found others) := by
  induction ms generalizing found others with
  | nil => rfl
  | cons m ms ih =>
    have hname : ((Content.string m.1).name? == some tag) = (m.1 == tag) := rfl
    rw [List.foldlM_cons, taggedStep, Content.ofMembers, Content.takeTag, toOption_bind, hname]
    by_cases htag : m.1 = tag
    · rw [if_pos htag, beq_iff_eq.mpr htag]
      have hrest : ((if found.isSome then none
          else (checkedTag cases (Content.ofValue m.2)).map fun c => (some c, others)) >>=
            fun p => ms.foldlM (taggedStep tag cases) p) =
          if found.isSome then none
          else (checkedTag cases (Content.ofValue m.2)).bind fun c =>
            (Content.takeTag tag (Content.ofMembers ms)).toOption.bind
              (taken cases (some c) others) := by
        split
        · rfl
        · cases checkedTag cases (Content.ofValue m.2) with
          | none => rfl
          | some c => exact ih (some c) others
      refine hrest.trans ?_
      cases Content.takeTag tag (Content.ofMembers ms) with
      | error _ =>
        split
        · rfl
        · cases checkedTag cases (Content.ofValue m.2) <;> rfl
      | ok p =>
        refine (taken_tag cases found others (Content.ofValue m.2) p).symm.trans ?_
        obtain ⟨_ | _, left⟩ := p <;> rfl
    · rw [if_neg htag, beq_eq_false_iff_ne.mpr htag]
      refine (ih found _).trans ?_
      cases Content.takeTag tag (Content.ofMembers ms) with
      | error _ => rfl
      | ok p => exact (taken_other cases found others _ p).symm

/-- No tag is left when it was taken out. -/
theorem takeTag_left {cs left : List (Content × Content)} {found : Option Content}
    (h : Content.takeTag tag cs = .ok (found, left)) :
    Content.takeTag tag left = .ok (none, left) := by
  induction cs generalizing found left with
  | nil =>
    obtain ⟨rfl, rfl⟩ := Prod.mk.inj (Except.ok.inj h)
    rfl
  | cons m cs ih =>
    rw [Content.takeTag] at h
    cases htail : Content.takeTag tag cs with
    | error _ =>
      rw [htail] at h
      cases h
    | ok p =>
      obtain ⟨found', left'⟩ := p
      rw [htail] at h
      cases hname : m.1.name? == some tag with
      | true =>
        cases found' with
        | some c => simp [hname, bind, Except.bind] at h
        | none =>
          simp only [hname, bind, Except.bind] at h
          obtain ⟨-, rfl⟩ := Prod.mk.inj (Except.ok.inj h)
          exact ih htail
      | false =>
        simp only [hname, bind, Except.bind] at h
        obtain ⟨-, rfl⟩ := Prod.mk.inj (Except.ok.inj h)
        rw [Content.takeTag, ih htail]
        simp only [hname, bind, Except.bind]

/-- A tagged record whose tag was checked. -/
def checkedRecord : Content → Option Content
  | .map cs => ((Content.takeTag tag cs).toOption.bind (taken cases none [])).bind fun p =>
    p.1.map fun c => .map ((.string tag, c) :: p.2.reverse)
  | .list (c :: cs) => (checkedTag cases c).map fun c => .list (c :: cs)
  | _ => none

/-- Checking the tag first makes no difference. -/
theorem checkedRecord_bind (expectation : String) (c : Content) :
    ((checkedRecord tag cases c).bind fun c =>
      (Content.readTagged expectation tag cases c).toOption) =
      (Content.readTagged expectation tag cases c).toOption := by
  cases c with
  | map cs =>
    rw [checkedRecord, Content.readTagged]
    cases htake : Content.takeTag tag cs with
    | error _ => rfl
    | ok p =>
      obtain ⟨_ | c, left⟩ := p
      · rfl
      · have hagain : Content.takeTag tag ((.string tag, c) :: left) = .ok (some c, left) := by
          rw [Content.takeTag, takeTag_left tag htake]
          simp [Content.name?, bind, Except.bind]
        show Option.bind (Option.bind ((checkedTag cases c).map fun c =>
          (some c, left.reverse ++ [])) _) _ = (do
            let f ← Content.selectCase cases c
            Content.withTag tag f.name <$> f.read (.map left)).toOption
        rw [checkedTag]
        cases hcase : Content.selectCase cases c with
        | error _ => rfl
        | ok f =>
          show (Content.readTagged expectation tag cases
            (.map ((.string tag, c) :: (left.reverse ++ []).reverse))).toOption = _
          rw [List.append_nil, List.reverse_reverse, Content.readTagged, hagain]
          simp [hcase, bind, Except.bind]
  | list cs =>
    cases cs with
    | nil => rfl
    | cons c cs =>
      rw [checkedRecord, checkedTag, Content.readTagged]
      cases hcase : Content.selectCase cases c with
      | error _ => rfl
      | ok f =>
        show (Content.readTagged expectation tag cases (.list (c :: cs))).toOption = _
        rw [Content.readTagged, hcase]
  | _ => rfl

/-- The members of an object, with the tag in front. -/
theorem gives_taggedMembers {ms : List (String × Value)} (hms : ∀ m ∈ ms, Readable d m.2)
    (rest : Bytes) :
    Gives (do
      let (found, others) ← members (taggedMember tag cases d) (none, [])
      match found with
      | none => failShape (.missingField tag)
      | some c => return (.map ((.string tag, c) :: others.reverse) : Content))
      (objectTail ms ++ rest)
      ((checkedRecord tag cases (.map (Content.ofMembers ms))).map (·, 0x7D :: rest)) := by
  have hmembers := gives_members (taggedMember tag cases d) (taggedStep tag cases) ms
    (fun m hm p rest hrest => gives_taggedMember tag cases p (hms m hm) hrest) (none, []) rest
  rw [foldlM_taggedStep] at hmembers
  rw [checkedRecord, Option.map_bind]
  refine hmembers.andThen fun p _ => ?_
  obtain ⟨_ | c, others⟩ := p
  · exact gives_failShape _ _
  · exact gives_pure _ _

/-- The items of a list, the tag in front of them. -/
theorem gives_taggedItems {vs : List Value} (hvs : ∀ v ∈ vs, Readable d v) (rest : Bytes) :
    Gives (do
      if ← moreItems true then
        let c ← caseName cases
        let cs ← foldItems (fun cs => do return (← content d) :: cs) false [] ((← remaining) + 1)
        return (.list (c :: cs.reverse) : Content)
      else failShape (.missingField tag))
      (listTail vs ++ rest)
      ((checkedRecord tag cases (.list (Content.ofValues vs))).map (·, 0x5D :: rest)) := by
  cases vs with
  | nil => exact (gives_moreItems_nil true rest).bind (gives_failShape _ _)
  | cons v vs =>
    have hbytes : listTail (v :: vs) ++ rest = print v ++ (printItems vs ++ rest) :=
      List.append_assoc _ _ _
    rw [hbytes, Content.ofValues, checkedRecord, Option.map_map, Option.map_eq_bind]
    refine (gives_moreItems_first (hvs v List.mem_cons_self) _).bind ?_
    rw [if_pos rfl]
    refine (gives_caseName cases (hvs v List.mem_cons_self)
      (endsValue_printItems vs rest)).andThen fun c _ => ?_
    refine (gives_remaining _).bind ?_
    have hfuel : vs.length < (printItems vs ++ rest).length + 1 := by
      have hlength := length_le_printItems vs
      rw [List.length_append]
      omega
    have hitems := gives_foldItems (fun cs => do return (← content d) :: cs)
      (fun cs v => some (Content.ofValue v :: cs))
      (fun w hw => hvs w (List.mem_cons_of_mem v hw))
      (fun w hw cs rest hrest => (gives_content (hvs w (List.mem_cons_of_mem v hw)) hrest).bind
        (gives_pure _ rest)) [] hfuel rest
    rw [foldlM_some_cons] at hitems
    refine hitems.bind ?_
    rw [List.reverse_reverse, ← Content.ofValues_eq_map]
    exact gives_pure _ _

/-- A tagged record is read from an object, or from a list with the tag in front. -/
theorem agrees_tagged (expectation : String) :
    Agrees (tagged expectation tag cases) (Content.readTagged expectation tag cases) := by
  intro d v rest hv hrest
  rw [← checkedRecord_bind, Option.map_bind]
  refine Gives.andThen (Gives.locate ?_) fun found _ => gives_ofExcept _ rest
  cases v with
  | object ms =>
    rw [print_object, Content.ofValue]
    refine (gives_scalar_open (.inr rfl) _).bind ?_
    cases hv with
    | @object d _ hms =>
      dsimp only
      rw [if_pos rfl]
      exact gives_nested (gives_taggedMembers tag cases hms rest) (gives_endObject rest)
  | list vs =>
    rw [print_list, Content.ofValue]
    refine (gives_scalar_open (.inl rfl) _).bind ?_
    cases hv with
    | @list d _ hvs =>
      dsimp only
      rw [if_neg (by decide), if_pos rfl]
      exact gives_nested (gives_taggedItems tag cases hvs rest) (gives_endList rest)
  | _ => exact (gives_scalar hv (by simp) (by simp) hrest).bind (gives_failShape _ _)

end Tagged

end Json.Reader

open Json.Reader

/-! ### All shapes -/

mutual

/-- A shape is read from a printed value as from the value itself. -/
theorem Shape.agrees : (s : Shape) → Agrees s.ofText (s.read Reader.surplus)
  | .any => agrees_any
  | .string => agrees_checkedString Shape.string.expectation fun _ => .ok ()
  | .text e check => agrees_checkedString e check
  | .bool => agrees_bool Reader.surplus
  | .int word low high => agrees_boundedInt word low high
  | .intOrString => agrees_intOrString
  | .unit => agrees_unit Reader.surplus
  | .option s => s.agrees.optional
  | .list s => s.agrees.list
  | .map s => s.agrees.map
  | .record _ fields => agrees_record fields.agree _ _
  | .merged _ fields _ => agrees_merged fields.agree _ _
  | .tagged _ tag _ => agrees_tagged tag _ _

/-- Fields of shapes are read from printed values as from the values themselves. -/
theorem Fields.agree : (fs : Fields) → FieldsAgree fs.ofText (fs.readers Reader.surplus)
  | .nil => .nil
  | .cons _ _ s fs => .cons ⟨rfl, rfl, s.agrees⟩ fs.agree

end

namespace Json

/-- The whole text of a readable value is read as the value. -/
theorem read_print (s : Shape) {v : Value} (h : Readable maxDepth v) :
    (Json.read s (print v)).toOption = (s.read Reader.surplus (Content.ofValue v)).toOption := by
  have hdocument : (document s).Gives (print v)
      ((s.read Reader.surplus (Content.ofValue v)).toOption.map (·, [])) := by
    have hvalue := s.agrees maxDepth v [] h EndsValue.nil
    rw [List.append_nil] at hvalue
    rw [Option.map_eq_bind]
    refine hvalue.andThen fun w _ => ?_
    exact (gives_peekToken rfl).bind (gives_pure w [])
  have hread := hdocument 0
  have hfst : ((s.read Reader.surplus (Content.ofValue v)).toOption.map (·, ([] : Bytes))).map
      Prod.fst = (s.read Reader.surplus (Content.ofValue v)).toOption := by
    rw [Option.map_map]
    exact Option.map_id'
  rw [Json.read, ← hfst, ← hread]
  cases document s ⟨0, print v⟩ <;> rfl

end Json
end KubeClient
