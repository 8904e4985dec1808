import KubeClient.Proofs.JsonSkippedScalars
import KubeClient.Proofs.JsonSkipping

/-!
# Trees that are read are stepped over

A value that nothing asks for is stepped over in one loop, which keeps what is open; a tree is read
by recursion. What can be read as a tree is stepped over, up to the same place.

* `Json.Reader.closeAt`, `skipClosers_fuel` : what closes, given enough fuel;
* `Json.Reader.SteppedOver` : what the loop does in front of a value, whatever is open around it;
* `Json.Reader.Leaves` : what it does inside of a frame;
* `Json.Reader.leaves_items`, `leaves_members` : lists and objects;
* `Json.Reader.skipValue_of_content` : trees.
-/

namespace KubeClient.Json.Reader

variable {α β : Type} {r : Reader α} {c d e : Cursor} {offset : Nat} {b : UInt8} {bs : Bytes}

/-! ### What is open -/

theorem bind_congr_at {q : Reader α} {f : α → Reader β} (h : r c = q d) :
    (r >>= f) c = (q >>= f) d := by
  show EStateM.bind r f c = EStateM.bind q f d
  rw [EStateM.bind, EStateM.bind, h]

theorem dropWhile_dropWhile (p : UInt8 → Bool) (bs : Bytes) :
    (bs.dropWhile p).dropWhile p = bs.dropWhile p := by
  induction bs with
  | nil => rfl
  | cons b bs ih => by_cases hb : p b = true <;> simp [hb, ih]

theorem behindBlanks_behindBlanks (c : Cursor) :
    behindBlanks (behindBlanks c) = behindBlanks c := by
  have hnone : (c.rest.dropWhile isBlank).takeWhile isBlank = [] := by
    have hlength := congrArg List.length
      (List.takeWhile_append_dropWhile (p := isBlank) (l := c.rest.dropWhile isBlank))
    rw [dropWhile_dropWhile, List.length_append] at hlength
    exact List.eq_nil_of_length_eq_zero (by omega)
  simp only [behindBlanks, dropWhile_dropWhile, hnone, List.length_nil, Nat.add_zero]

theorem length_behindBlanks (c : Cursor) : (behindBlanks c).rest.length ≤ c.rest.length :=
  length_dropWhile_le isBlank c.rest

theorem advance_cons (offset : Nat) (b : UInt8) (bs : Bytes) :
    advance ⟨offset, b :: bs⟩ = .ok () ⟨offset + 1, bs⟩ :=
  rfl

theorem exists_cons_of_head? (h : c.rest.head? = some b) :
    ∃ offset bs, c = ⟨offset, b :: bs⟩ := by
  obtain ⟨offset, _ | ⟨b', bs⟩⟩ := c
  · cases h
  · cases h
    exact ⟨offset, bs, rfl⟩

/-- A reader that looks at the first byte, and fails where there is none. -/
theorem exists_of_token_eq_ok {k : Option UInt8 → Reader α} {a : α}
    (h : (peekToken >>= k) c = .ok a d) (hnone : ∀ c a d, k none c ≠ .ok a d) :
    ∃ offset b bs, behindBlanks c = ⟨offset, b :: bs⟩ ∧
      k (some b) ⟨offset, b :: bs⟩ = .ok a d := by
  rw [bind_eq_of_ok (peekToken_eq c)] at h
  cases hhead : (behindBlanks c).rest.head? with
  | none =>
    rw [hhead] at h
    exact (hnone _ _ _ h).elim
  | some b =>
    obtain ⟨offset, bs, hc⟩ := exists_cons_of_head? hhead
    rw [hc] at h
    exact ⟨offset, b, bs, hc, h⟩

theorem not_ok_failNext (f : SyntaxFault) (c : Cursor) (a : α) (d : Cursor) :
    failNext f c ≠ .ok a d := by
  intro h
  cases h

/-- The byte closes what the frame stands for. -/
def Frame.ClosedBy (f : Frame) (b : UInt8) : Prop :=
  (b = 0x5D ∧ f = .list) ∨ (b = 0x7D ∧ f = .object)

variable {mayClose : Bool} {f : Frame} {outer : List Frame}

/-- What closes here, by the next byte; `next` goes on outside the frame. -/
def closeAt (mayClose : Bool) (f : Frame) (outer : List Frame) (next : Reader (List Frame)) :
    Option UInt8 → Reader (List Frame)
  | none => failNext (if f = .list then .endInList else .endInObject)
  | some b =>
    if b = 0x2C ∧ mayClose then advance >>= fun _ => pure (f :: outer)
    else if (b = 0x5D ∧ f = .list) ∨ (b = 0x7D ∧ f = .object) then advance >>= fun _ => next
    else if mayClose then failNext (if f = .list then .noListEnd else .noObjectEnd)
    else pure (f :: outer)

theorem skipClosers_succ (mayClose : Bool) (f : Frame) (outer : List Frame) (fuel : Nat)
    (c : Cursor) :
    skipClosers mayClose (f :: outer) (fuel + 1) c =
      closeAt mayClose f outer (skipClosers true outer fuel) (behindBlanks c).rest.head?
        (behindBlanks c) :=
  rfl

theorem closeAt_of_closedBy {next : Reader (List Frame)} (hb : f.ClosedBy b) :
    closeAt mayClose f outer next (some b) ⟨offset, b :: bs⟩ = next ⟨offset + 1, bs⟩ := by
  have hcomma : ¬(b = 0x2C ∧ mayClose = true) := by
    rintro ⟨rfl, -⟩
    rcases hb with ⟨hb, -⟩ | ⟨hb, -⟩ <;> cases hb
  unfold Frame.ClosedBy at hb
  rw [closeAt, if_neg hcomma, if_pos hb]
  rfl

/-- What follows the closing of a frame. -/
theorem skipClosers_close {fuel : Nat} (hb : f.ClosedBy b)
    (h : behindBlanks c = ⟨offset, b :: bs⟩) :
    skipClosers mayClose (f :: outer) (fuel + 1) c =
      skipClosers true outer fuel ⟨offset + 1, bs⟩ := by
  rw [skipClosers_succ, h]
  exact closeAt_of_closedBy hb

/-- Enough fuel is enough. -/
theorem skipClosers_fuel {open_ : List Frame} {n n' : Nat} (hn : c.rest.length < n)
    (hn' : c.rest.length < n') :
    skipClosers mayClose open_ n c = skipClosers mayClose open_ n' c := by
  -- every frame that closes here uses up a byte, so the bytes that are left bound the turns
  induction n generalizing mayClose open_ n' c with
  | zero => cases hn
  | succ n ih =>
    obtain ⟨n', rfl⟩ := Nat.exists_eq_succ_of_ne_zero (Nat.ne_zero_of_lt hn')
    cases open_ with
    | nil => rfl
    | cons f outer =>
      cases hhead : (behindBlanks c).rest.head? with
      | none =>
        rw [skipClosers_succ, skipClosers_succ, hhead]
        rfl
      | some b =>
        obtain ⟨offset, bs, hc⟩ := exists_cons_of_head? hhead
        by_cases hb : f.ClosedBy b
        · have hlength := length_behindBlanks c
          rw [hc, List.length_cons] at hlength
          rw [skipClosers_close hb hc, skipClosers_close hb hc]
          exact ih (by simp only; omega) (by simp only; omega)
        · rw [skipClosers_succ, skipClosers_succ, hhead]
          unfold Frame.ClosedBy at hb
          rw [closeAt, closeAt, if_neg hb, if_neg hb]

/-- The next item or member inside a frame. -/
def skipNext (f : Frame) (outer : List Frame) (fuel : Nat) : Reader Unit := do
  if f = .object then skipName
  skipOpen (f :: outer) fuel

theorem skipRest_close {fuel : Nat} (hb : f.ClosedBy b) (h : behindBlanks c = ⟨offset, b :: bs⟩) :
    skipRest mayClose (f :: outer) fuel c = skipRest true outer fuel ⟨offset + 1, bs⟩ := by
  have hlength := length_behindBlanks c
  rw [h, List.length_cons] at hlength
  have hclosers : skipClosers mayClose (f :: outer) (c.rest.length + 1) c =
      skipClosers true outer (bs.length + 1) ⟨offset + 1, bs⟩ := by
    rw [skipClosers_close hb h]
    exact skipClosers_fuel (by simp only; omega) (Nat.lt_succ_self _)
  exact bind_congr_at hclosers

theorem skipRest_comma {fuel : Nat} (h : behindBlanks c = ⟨offset, 0x2C :: bs⟩) :
    skipRest true (f :: outer) fuel c = skipNext f outer fuel ⟨offset + 1, bs⟩ := by
  have hclosers : skipClosers true (f :: outer) (c.rest.length + 1) c =
      .ok (f :: outer) ⟨offset + 1, bs⟩ := by
    rw [skipClosers_succ, h]
    rfl
  exact bind_eq_of_ok hclosers

/-- Directly behind the opening byte stands no comma. -/
theorem skipRest_first {fuel : Nat} (hb : ¬f.ClosedBy b)
    (h : behindBlanks c = ⟨offset, b :: bs⟩) :
    skipRest false (f :: outer) fuel c = skipNext f outer fuel ⟨offset, b :: bs⟩ := by
  have hclosers : skipClosers false (f :: outer) (c.rest.length + 1) c =
      .ok (f :: outer) ⟨offset, b :: bs⟩ := by
    unfold Frame.ClosedBy at hb
    rw [skipClosers_succ, h, List.head?_cons, closeAt, if_neg (by simp), if_neg hb,
      if_neg (by simp)]
    rfl
  exact bind_eq_of_ok hclosers

/-! ### Values -/

/-- From `c` the loop comes to `d`, behind a value, and has fuel enough to go on, whatever is open
around it. -/
structure SteppedOver (c d : Cursor) : Prop where
  length_lt : d.rest.length < c.rest.length
  goes_on : ∀ open_ n, c.rest.length < n →
    ∃ m, d.rest.length < m ∧ skipOpen open_ n c = skipRest true open_ m d

/-- Blanks in front of a value do not matter. -/
theorem skipOpen_behindBlanks (open_ : List Frame) (n : Nat) (c : Cursor) :
    skipOpen open_ (n + 1) (behindBlanks c) = skipOpen open_ (n + 1) c := by
  have htoken : peekToken (behindBlanks c) = peekToken c := by
    rw [peekToken_eq, peekToken_eq, behindBlanks_behindBlanks]
  unfold skipOpen skipStart
  exact bind_congr_at (bind_congr_at htoken)

theorem SteppedOver.of_behindBlanks (h : SteppedOver (behindBlanks c) d) : SteppedOver c d := by
  have hlength := length_behindBlanks c
  refine ⟨Nat.lt_of_lt_of_le h.length_lt hlength, fun open_ n hn => ?_⟩
  obtain ⟨m, hm, hstep⟩ := h.goes_on open_ n (Nat.lt_of_le_of_lt hlength hn)
  obtain ⟨n, rfl⟩ := Nat.exists_eq_succ_of_ne_zero (Nat.ne_zero_of_lt hn)
  exact ⟨m, hm, (skipOpen_behindBlanks open_ n c).symm.trans hstep⟩

theorem steppedOver_scalar (hskip : skipStart c = .ok none d)
    (hlength : d.rest.length < c.rest.length) : SteppedOver c d := by
  refine ⟨hlength, fun open_ n hn => ?_⟩
  obtain ⟨n, rfl⟩ := Nat.exists_eq_succ_of_ne_zero (Nat.ne_zero_of_lt hn)
  refine ⟨n, by omega, ?_⟩
  exact bind_eq_of_ok (f := fun started => skipRest started.isNone _ n) hskip

/-- From `c`, inside a frame, the loop comes to `d`, behind the frame. -/
structure Leaves (mayClose : Bool) (f : Frame) (c d : Cursor) : Prop where
  length_lt : d.rest.length < c.rest.length
  goes_on : ∀ outer n, c.rest.length < n →
    ∃ m, d.rest.length < m ∧ skipRest mayClose (f :: outer) n c = skipRest true outer m d

theorem leaves_close (hb : f.ClosedBy b) (h : behindBlanks c = ⟨offset, b :: bs⟩) :
    Leaves mayClose f c ⟨offset + 1, bs⟩ := by
  have hlength := length_behindBlanks c
  rw [h, List.length_cons] at hlength
  exact ⟨hlength, fun outer n hn => ⟨n, Nat.lt_trans hlength hn, skipRest_close hb h⟩⟩

/-- One more value, and the rest of the frame. -/
theorem Leaves.step {c' d' : Cursor} (h : Leaves true f d' e) (hvalue : SteppedOver c' d')
    (hlength : c'.rest.length ≤ c.rest.length)
    (hnext : ∀ outer n, c.rest.length < n →
      skipRest mayClose (f :: outer) n c = skipOpen (f :: outer) n c') :
    Leaves mayClose f c e := by
  have hlt := Nat.lt_of_lt_of_le hvalue.length_lt hlength
  refine ⟨Nat.lt_trans h.length_lt hlt, fun outer n hn => ?_⟩
  obtain ⟨m, hm, hstep⟩ := hvalue.goes_on (f :: outer) n (Nat.lt_of_le_of_lt hlength hn)
  obtain ⟨k, hk, hstep'⟩ := h.goes_on outer m hm
  exact ⟨k, hk, (hnext outer n hn).trans (hstep.trans hstep')⟩

/-- A frame is entered, and left where its closing byte was. -/
theorem Leaves.steppedOver (h : Leaves false f d e) (hskip : skipStart c = .ok (some f) d)
    (hlength : d.rest.length < c.rest.length) : SteppedOver c e := by
  refine ⟨Nat.lt_trans h.length_lt hlength, fun open_ n hn => ?_⟩
  obtain ⟨n, rfl⟩ := Nat.exists_eq_succ_of_ne_zero (Nat.ne_zero_of_lt hn)
  obtain ⟨m, hm, hstep⟩ := h.goes_on open_ n (by omega)
  have hopen : skipOpen open_ (n + 1) c = skipRest false (f :: open_) n d := by
    rw [skipOpen, bind_eq_of_ok hskip]
    rfl
  exact ⟨m, hm, hopen.trans hstep⟩

/-! ### Lists -/

/-- What comes next in a list: its end, the first item, or an item behind a comma. -/
theorem moreItems_eq_ok {first more : Bool} (h : moreItems first c = .ok more d) :
    ∃ offset b bs, behindBlanks c = ⟨offset, b :: bs⟩ ∧
      (b = 0x5D ∧ more = false ∧ d = ⟨offset, b :: bs⟩ ∨
        b ≠ 0x5D ∧ more = true ∧ first = true ∧ d = ⟨offset, b :: bs⟩ ∨
        b = 0x2C ∧ more = true ∧ first = false ∧ d = behindBlanks ⟨offset + 1, bs⟩) := by
  obtain ⟨offset, b, bs, hc, h⟩ := exists_of_token_eq_ok h (not_ok_failNext _)
  refine ⟨offset, b, bs, hc, ?_⟩
  dsimp only at h
  by_cases hend : b = 0x5D
  · rw [if_pos hend] at h
    cases h
    exact .inl ⟨hend, rfl, rfl⟩
  rw [if_neg hend] at h
  cases first with
  | true =>
    cases h
    exact .inr (.inl ⟨hend, rfl, rfl, rfl⟩)
  | false =>
    rw [if_neg Bool.false_ne_true] at h
    by_cases hcomma : b = 0x2C
    · rw [if_pos hcomma, bind_eq_of_ok (advance_cons offset b bs)] at h
      obtain ⟨offset', b', bs', hnext, h⟩ := exists_of_token_eq_ok h (not_ok_failNext _)
      dsimp only at h
      split at h
      · cases h
      · cases h
        exact .inr (.inr ⟨hcomma, rfl, rfl, hnext.symm⟩)
    · rw [if_neg hcomma] at h
      cases h

theorem endList_eq_ok {u : Unit} (h : endList c = .ok u d) :
    ∃ offset bs, behindBlanks c = ⟨offset, 0x5D :: bs⟩ ∧ d = ⟨offset + 1, bs⟩ := by
  obtain ⟨offset, b, bs, hc, h⟩ := exists_of_token_eq_ok h (not_ok_failNext _)
  dsimp only at h
  by_cases hend : b = 0x5D
  · rw [if_pos hend] at h
    cases h
    exact ⟨offset, bs, hend ▸ hc, rfl⟩
  rw [if_neg hend] at h
  split at h
  · rw [bind_eq_of_ok (advance_cons offset b bs), bind_eq_of_ok (peekToken_eq _)] at h
    split at h <;> cases h
  · cases h

/-- The items of a list are stepped over, up to its bracket. -/
theorem leaves_items {depth : Nat}
    (hcontent : ∀ {c x d}, content depth c = .ok x d → SteppedOver c d) {first : Bool}
    {cs cs' : List Content} {n : Nat}
    (h : foldItems (contentItem depth) first cs n c = .ok cs' d) {u : Unit}
    (hend : endList d = .ok u e) : Leaves (!first) .list c e := by
  -- by the turns of the loop over items; the skipping loop has the item and the rest in one
  induction n generalizing first cs c with
  | zero =>
    cases h
    obtain ⟨offset, bs, hc, rfl⟩ := endList_eq_ok hend
    exact leaves_close (.inl ⟨rfl, rfl⟩) hc
  | succ n ih =>
    obtain ⟨more, c', hmore, hrest⟩ := exists_of_bind_eq_ok h
    obtain ⟨offset, b, bs, hc, hcases⟩ := moreItems_eq_ok hmore
    have hlength := length_behindBlanks c
    rw [hc, List.length_cons] at hlength
    rcases hcases with ⟨rfl, rfl, rfl⟩ | ⟨hb, rfl, rfl, rfl⟩ | ⟨rfl, rfl, rfl, rfl⟩
    · cases hrest
      rw [← hc] at hend
      obtain ⟨offset', bs', hc', rfl⟩ := endList_eq_ok hend
      rw [behindBlanks_behindBlanks] at hc'
      exact leaves_close (.inl ⟨rfl, rfl⟩) hc'
    · obtain ⟨more, d', hitem, hrest⟩ := exists_of_bind_eq_ok hrest
      obtain ⟨x, _, hx, hpure⟩ := exists_of_bind_eq_ok hitem
      cases hpure
      have hopen : ¬Frame.list.ClosedBy b := by
        rintro (⟨hb', -⟩ | ⟨-, hf⟩)
        · exact hb hb'
        · cases hf
      exact (ih hrest).step (hcontent hx) hlength fun outer n _ => skipRest_first hopen hc
    · obtain ⟨more, d', hitem, hrest⟩ := exists_of_bind_eq_ok hrest
      obtain ⟨x, _, hx, hpure⟩ := exists_of_bind_eq_ok hitem
      cases hpure
      refine (ih hrest).step (hcontent hx).of_behindBlanks (Nat.le_of_lt hlength)
        fun outer n _ => ?_
      exact skipRest_comma hc

/-! ### Objects -/

/-- What comes next in an object: its end, the first member, or a member behind a comma. -/
theorem moreMembers_eq_ok {first more : Bool} (h : moreMembers first c = .ok more d) :
    ∃ offset b bs, behindBlanks c = ⟨offset, b :: bs⟩ ∧
      (b = 0x7D ∧ more = false ∧ d = ⟨offset, b :: bs⟩ ∨
        b = 0x22 ∧ more = true ∧ first = true ∧ d = ⟨offset, b :: bs⟩ ∨
        b = 0x2C ∧ more = true ∧ first = false ∧ d = behindBlanks ⟨offset + 1, bs⟩ ∧
          d.rest.head? = some 0x22) := by
  obtain ⟨offset, b, bs, hc, h⟩ := exists_of_token_eq_ok h (not_ok_failNext _)
  refine ⟨offset, b, bs, hc, ?_⟩
  dsimp only at h
  by_cases hend : b = 0x7D
  · rw [if_pos hend] at h
    cases h
    exact .inl ⟨hend, rfl, rfl⟩
  rw [if_neg hend] at h
  cases first with
  | true =>
    rw [if_pos rfl] at h
    by_cases hquote : b = 0x22
    · rw [if_pos hquote] at h
      cases h
      exact .inr (.inl ⟨hquote, rfl, rfl, rfl⟩)
    · rw [if_neg hquote] at h
      cases h
  | false =>
    rw [if_neg Bool.false_ne_true] at h
    by_cases hcomma : b = 0x2C
    · rw [if_pos hcomma, bind_eq_of_ok (advance_cons offset b bs)] at h
      obtain ⟨offset', b', bs', hnext, h⟩ := exists_of_token_eq_ok h (not_ok_failNext _)
      dsimp only at h
      by_cases hquote : b' = 0x22
      · rw [if_pos hquote] at h
        cases h
        exact .inr (.inr ⟨hcomma, rfl, rfl, hnext.symm, congrArg some hquote⟩)
      · rw [if_neg hquote] at h
        split at h <;> cases h
    · rw [if_neg hcomma] at h
      cases h

theorem endObject_eq_ok {u : Unit} (h : endObject c = .ok u d) :
    ∃ offset bs, behindBlanks c = ⟨offset, 0x7D :: bs⟩ ∧ d = ⟨offset + 1, bs⟩ := by
  obtain ⟨offset, b, bs, hc, h⟩ := exists_of_token_eq_ok h (not_ok_failNext _)
  dsimp only at h
  by_cases hend : b = 0x7D
  · rw [if_pos hend] at h
    cases h
    exact ⟨offset, bs, hend ▸ hc, rfl⟩
  · rw [if_neg hend] at h
    split at h <;> cases h

theorem colon_eq_ok {u : Unit} (h : colon c = .ok u d) :
    ∃ offset bs, behindBlanks c = ⟨offset, 0x3A :: bs⟩ ∧ d = ⟨offset + 1, bs⟩ := by
  obtain ⟨offset, b, bs, hc, h⟩ := exists_of_token_eq_ok h (not_ok_failNext _)
  dsimp only at h
  by_cases hcolon : b = 0x3A
  · rw [if_pos hcolon] at h
    cases h
    exact ⟨offset, bs, hcolon ▸ hc, rfl⟩
  · rw [if_neg hcolon] at h
    cases h

/-- A name that is read is stepped over, with its colon. -/
theorem skipName_of_name {s : String} {u : Unit}
    (hquote : (behindBlanks c).rest.head? = some 0x22) (hname : name (behindBlanks c) = .ok s d)
    (hcolon : colon d = .ok u e) :
    skipName c = .ok () e ∧ e.rest.length ≤ c.rest.length := by
  obtain ⟨offset, bs, hc⟩ := exists_cons_of_head? hquote
  have hlength := length_behindBlanks c
  rw [hc] at hname hlength
  obtain ⟨hskip, hlt⟩ := skip_of_name hname
  obtain ⟨offset', bs', hd, rfl⟩ := colon_eq_ok hcolon
  have hlength' := length_behindBlanks d
  rw [hd, List.length_cons] at hlength'
  rw [List.length_cons] at hlength
  refine ⟨?_, by simp only; omega⟩
  unfold skipName
  rw [bind_eq_of_ok (peekToken_eq c), hc]
  show (skipString (bs.length + 1) >>= fun _ => peekToken >>= _) ⟨offset + 1, bs⟩ = _
  rw [bind_eq_of_ok hskip, bind_eq_of_ok (peekToken_eq d), hd]
  rfl

/-- One more member of an object, from where its name is looked for. -/
theorem Leaves.member {depth : Nat} {c' d' : Cursor} {s : String}
    {ms ms' : List (Content × Content)}
    (hcontent : ∀ {c x d}, content depth c = .ok x d → SteppedOver c d)
    (hquote : (behindBlanks c').rest.head? = some 0x22)
    (hname : name (behindBlanks c') = .ok s d)
    (hmember : contentMember depth ms s d = .ok ms' d') (h : Leaves true .object d' e)
    (hlength : c'.rest.length ≤ c.rest.length)
    (hnext : ∀ outer n, skipRest mayClose (.object :: outer) n c = skipNext .object outer n c') :
    Leaves mayClose .object c e := by
  obtain ⟨_, c'', hcolon, hvalue⟩ := exists_of_bind_eq_ok hmember
  obtain ⟨x, _, hx, hpure⟩ := exists_of_bind_eq_ok hvalue
  cases hpure
  obtain ⟨hskip, hlength'⟩ := skipName_of_name hquote hname hcolon
  refine h.step (hcontent hx) (Nat.le_trans hlength' hlength) fun outer n _ => ?_
  exact (hnext outer n).trans (bind_eq_of_ok hskip)

/-- The members of an object are stepped over, up to its brace. -/
theorem leaves_members {depth : Nat}
    (hcontent : ∀ {c x d}, content depth c = .ok x d → SteppedOver c d) {first : Bool}
    {ms ms' : List (Content × Content)} {n : Nat}
    (h : foldMembers (contentMember depth) first ms n c = .ok ms' d) {u : Unit}
    (hend : endObject d = .ok u e) : Leaves (!first) .object c e := by
  induction n generalizing first ms c with
  | zero =>
    cases h
    obtain ⟨offset, bs, hc, rfl⟩ := endObject_eq_ok hend
    exact leaves_close (.inr ⟨rfl, rfl⟩) hc
  | succ n ih =>
    obtain ⟨more, c', hmore, hrest⟩ := exists_of_bind_eq_ok h
    obtain ⟨offset, b, bs, hc, hcases⟩ := moreMembers_eq_ok hmore
    have hlength := length_behindBlanks c
    rw [hc, List.length_cons] at hlength
    rcases hcases with ⟨rfl, rfl, rfl⟩ | ⟨rfl, rfl, rfl, rfl⟩ | ⟨rfl, rfl, rfl, rfl, hquote⟩
    · cases hrest
      rw [← hc] at hend
      obtain ⟨offset', bs', hc', rfl⟩ := endObject_eq_ok hend
      rw [behindBlanks_behindBlanks] at hc'
      exact leaves_close (.inr ⟨rfl, rfl⟩) hc'
    · obtain ⟨s, d', hname, hrest⟩ := exists_of_bind_eq_ok hrest
      obtain ⟨ms'', d'', hmember, hrest⟩ := exists_of_bind_eq_ok hrest
      have hopen : ¬Frame.object.ClosedBy 0x22 := by
        rintro (⟨hb, -⟩ | ⟨hb, -⟩) <;> cases hb
      have hself : behindBlanks ⟨offset, 0x22 :: bs⟩ = ⟨offset, 0x22 :: bs⟩ := by
        rw [← hc, behindBlanks_behindBlanks]
      have hquote : (behindBlanks ⟨offset, 0x22 :: bs⟩).rest.head? = some 0x22 := by
        rw [hself]
        rfl
      rw [← hself] at hname
      exact Leaves.member hcontent hquote hname hmember (ih hrest) hlength
        fun outer n => skipRest_first hopen hc
    · obtain ⟨s, d', hname, hrest⟩ := exists_of_bind_eq_ok hrest
      obtain ⟨ms'', d'', hmember, hrest⟩ := exists_of_bind_eq_ok hrest
      exact Leaves.member hcontent hquote hname hmember (ih hrest) (Nat.le_of_lt hlength)
        fun outer n => skipRest_comma hc

/-! ### Trees -/

/-- What is read as a tree is stepped over. -/
theorem steppedOver_content {depth : Nat} {x : Content} (h : content depth c = .ok x d) :
    SteppedOver c d := by
  induction depth generalizing c x d with
  | zero => exact absurd h (not_ok_content_zero c x d)
  | succ depth ih =>
    obtain ⟨b, hhead, h⟩ := exists_of_content_eq_ok h
    have hstart := skipStart_of_head? hhead
    have hlength := length_behindBlanks c
    obtain ⟨offset, bs, hc⟩ := exists_cons_of_head? hhead
    rw [hc] at h hstart hlength
    rw [List.length_cons] at hlength
    by_cases hlist : b = 0x5B
    · subst hlist
      rw [contentAt_list] at h
      obtain ⟨_, d', hadvance, hitems, hend⟩ := exists_of_nested_eq_ok h
      cases hadvance
      obtain ⟨cs, _, hitems, hpure⟩ := exists_of_bind_eq_ok hitems
      cases hpure
      have hloop : Leaves false .list ⟨offset + 1, bs⟩ d := leaves_items ih hitems hend
      exact hloop.steppedOver hstart hlength
    · by_cases hobject : b = 0x7B
      · subst hobject
        rw [contentAt_object] at h
        obtain ⟨_, d', hadvance, hmembers, hend⟩ := exists_of_nested_eq_ok h
        cases hadvance
        obtain ⟨ms, _, hmembers, hpure⟩ := exists_of_bind_eq_ok hmembers
        cases hpure
        have hloop : Leaves false .object ⟨offset + 1, bs⟩ d := leaves_members ih hmembers hend
        exact hloop.steppedOver hstart hlength
      · obtain ⟨hskip, hlt⟩ := skipAt_of_contentAt hlist hobject h
        exact steppedOver_scalar (hstart.trans hskip) (Nat.lt_of_lt_of_le hlt hlength)

/-- What is read as a tree is stepped over, up to the same place. -/
theorem skipValue_of_content {depth : Nat} {x : Content} (h : content depth c = .ok x d) :
    skipValue c = .ok () d := by
  obtain ⟨m, -, hstep⟩ := (steppedOver_content h).goes_on [] _ (Nat.lt_succ_self _)
  exact hstep

end KubeClient.Json.Reader
