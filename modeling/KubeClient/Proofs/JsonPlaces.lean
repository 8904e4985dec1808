import KubeClient.Proofs.JsonSkippedScalars

/-!
# Places in JSON text

Every reader moves on through its text, and what it complains about lies in what it had before it.

* `Json.Cursor.In` : the offset of a cursor is the number of bytes in front of it;
* `Json.Reader.Stays` : a reader leaves its cursor in the text, not in front of where it began, and
  so do the places of its failures;
* `Json.Reader.Stays.bind` and the other rules : what one step keeps, all steps keep;
* `Shape.stays`, `Json.offset_le_of_read_eq_error` : all shapes, and whole documents.
-/

namespace KubeClient.Json

variable {bs : Bytes} {c d : Cursor}

/-- The cursor stands in `bs`, behind as many bytes as its offset says. -/
def Cursor.In (c : Cursor) (bs : Bytes) : Prop :=
  ∃ front, bs = front ++ c.rest ∧ c.offset = front.length

theorem Cursor.In.length_eq (h : c.In bs) : bs.length = c.offset + c.rest.length := by
  obtain ⟨front, rfl, hoffset⟩ := h
  rw [List.length_append, hoffset]

/-- The cursor behind some of the bytes that come next. -/
theorem Cursor.In.behind (h : c.In bs) (taken : Bytes) {rest : Bytes}
    (hrest : c.rest = taken ++ rest) :
    (Cursor.mk (c.offset + taken.length) rest).In bs := by
  obtain ⟨front, rfl, hoffset⟩ := h
  refine ⟨front ++ taken, ?_, ?_⟩
  · rw [hrest, List.append_assoc]
  · rw [hoffset, List.length_append]

namespace Reader

variable {α β : Type} {r q : Reader α}

/-- What becomes of a reader that began at the offset `start` of `bs`. -/
def Ends (bs : Bytes) (start : Nat) : EStateM.Result Fault Cursor α → Prop
  | .ok _ d => d.In bs ∧ start ≤ d.offset
  | .error f d => d.In bs ∧ start ≤ d.offset ∧ ∀ n ∈ f.offset, start ≤ n ∧ n ≤ bs.length

/-- Wherever the reader begins in `bs`, it moves on in `bs`, and what it complains about lies in
the bytes that were before it. -/
def Stays (bs : Bytes) (r : Reader α) : Prop :=
  ∀ c, c.In bs → Ends bs c.offset (r c)

/-! ### Rules -/

theorem Ends.mono {start start' : Nat} {result : EStateM.Result Fault Cursor α}
    (h : Ends bs start' result) (hle : start ≤ start') : Ends bs start result := by
  cases result with
  | ok a d => exact ⟨h.1, Nat.le_trans hle h.2⟩
  | error f d =>
    obtain ⟨hd, hstart, hplace⟩ := h
    exact ⟨hd, Nat.le_trans hle hstart, fun n hn => ⟨Nat.le_trans hle (hplace n hn).1,
      (hplace n hn).2⟩⟩

theorem stays_pure (a : α) : Stays bs (pure a) :=
  fun _ hc => ⟨hc, Nat.le_refl _⟩

theorem stays_failHere (f : SyntaxFault) : Stays bs (failHere (α := α) f) := by
  intro c hc
  refine ⟨hc, Nat.le_refl _, ?_⟩
  rintro n ⟨⟩
  have hlength := hc.length_eq
  omega

theorem stays_failNext (f : SyntaxFault) : Stays bs (failNext (α := α) f) := by
  rintro ⟨offset, rest⟩ hc
  refine ⟨hc, Nat.le_refl _, ?_⟩
  rintro n ⟨⟩
  have hlength := hc.length_eq
  cases rest with
  | nil =>
    simp at hlength ⊢
    omega
  | cons b rest =>
    simp at hlength ⊢
    omega

theorem stays_failShape (cause : Cause) : Stays bs (failShape (α := α) cause) :=
  fun _ hc => ⟨hc, Nat.le_refl _, fun n hn => by cases hn⟩

theorem Stays.bind {f : α → Reader β} (hr : Stays bs r) (hf : ∀ a, Stays bs (f a)) :
    Stays bs (r >>= f) := by
  intro c hc
  have hfirst := hr c hc
  show Ends bs c.offset (EStateM.bind r f c)
  unfold EStateM.bind
  cases hrun : r c with
  | error e d =>
    rw [hrun] at hfirst
    exact hfirst
  | ok a d =>
    rw [hrun] at hfirst
    exact (hf a d hfirst.1).mono hfirst.2

theorem Stays.map (hr : Stays bs r) (f : α → β) : Stays bs (f <$> r) := by
  rw [map_eq_pure_bind]
  exact hr.bind fun a => stays_pure _

theorem Stays.ite {p : Prop} [Decidable p] (hr : Stays bs r) (hq : Stays bs q) :
    Stays bs (if p then r else q) := by
  split
  · exact hr
  · exact hq

/-- A step that is made sometimes. -/
theorem Stays.behind_step {p : Prop} [Decidable p] {step : Reader β} (hstep : Stays bs step)
    (hr : Stays bs r) : Stays bs (if p then step >>= fun _ => r else r) :=
  .ite (hstep.bind fun _ => hr) hr

/-- A failure without a place is given that of the cursor. -/
theorem Stays.locate (hr : Stays bs r) : Stays bs (Reader.locate r) := by
  intro c hc
  have hend := hr c hc
  unfold Reader.locate
  cases hrun : r c with
  | ok a d =>
    rw [hrun] at hend
    exact hend
  | error f d =>
    rw [hrun] at hend
    obtain ⟨hd, hle, hplace⟩ := hend
    refine ⟨hd, hle, fun n hn => ?_⟩
    dsimp only at hn
    cases hf : f.offset with
    | some m => exact hplace n (by rw [hf] at hn ⊢; exact hn)
    | none =>
      rw [hf] at hn
      obtain rfl : d.offset = n := Option.some.inj hn
      have hlength := hd.length_eq
      omega

theorem Stays.closing {close : Reader Unit} (hr : Stays bs r) (hclose : Stays bs close) :
    Stays bs (Reader.closing r close) := by
  intro c hc
  have hend := hr c hc
  unfold Reader.closing
  cases hrun : r c with
  | ok a d =>
    rw [hrun] at hend
    have hlast := (hclose d hend.1).mono hend.2
    dsimp only
    cases hrun' : close d with
    | ok u e =>
      rw [hrun'] at hlast
      exact hlast
    | error f e =>
      rw [hrun'] at hlast
      exact hlast
  | error f d =>
    rw [hrun] at hend
    obtain ⟨hd, hle, hplace⟩ := hend
    have hlast := (hclose d hd).mono hle
    dsimp only
    -- the reader's own failure is kept, whatever becomes of the bytes that close it
    cases hrun' : close d with
    | ok u e =>
      rw [hrun'] at hlast
      exact ⟨hlast.1, hlast.2, hplace⟩
    | error f' e =>
      rw [hrun'] at hlast
      exact ⟨hlast.1, hlast.2.1, hplace⟩

/-! ### Single bytes -/

theorem stays_peek : Stays bs peek :=
  fun _ hc => ⟨hc, Nat.le_refl _⟩

theorem stays_remaining : Stays bs remaining :=
  fun _ hc => ⟨hc, Nat.le_refl _⟩

theorem stays_atDigit : Stays bs atDigit :=
  fun _ hc => ⟨hc, Nat.le_refl _⟩

theorem stays_advance : Stays bs advance := by
  rintro ⟨offset, rest⟩ hc
  cases rest with
  | nil => exact ⟨hc, Nat.le_refl _⟩
  | cons b rest => exact ⟨hc.behind [b] rfl, Nat.le_succ _⟩

theorem stays_next : Stays bs next := by
  rintro ⟨offset, rest⟩ hc
  cases rest with
  | nil => exact ⟨hc, Nat.le_refl _⟩
  | cons b rest => exact ⟨hc.behind [b] rfl, Nat.le_succ _⟩

theorem stays_skipWhile (p : UInt8 → Bool) : Stays bs (skipWhile p) :=
  fun _ hc => ⟨hc.behind _ List.takeWhile_append_dropWhile.symm, Nat.le_add_right _ _⟩

theorem stays_countDigits : Stays bs countDigits :=
  fun _ hc => ⟨hc.behind _ List.takeWhile_append_dropWhile.symm, Nat.le_add_right _ _⟩

theorem stays_peekToken : Stays bs peekToken :=
  (stays_skipWhile isBlank).bind fun _ => stays_peek

/-- What follows a look at the next byte behind blanks. -/
theorem Stays.token {k : Option UInt8 → Reader α} (hnone : Stays bs (k none))
    (hsome : ∀ b, Stays bs (k (some b))) : Stays bs (peekToken >>= k) := by
  refine stays_peekToken.bind fun o => ?_
  cases o with
  | none => exact hnone
  | some b => exact hsome b

/-- What follows the next byte. -/
theorem Stays.next {k : Option UInt8 → Reader α} (hnone : Stays bs (k none))
    (hsome : ∀ b, Stays bs (k (some b))) : Stays bs (Reader.next >>= k) := by
  refine stays_next.bind fun o => ?_
  cases o with
  | none => exact hnone
  | some b => exact hsome b

/-- What follows a look at the next byte. -/
theorem Stays.peek {k : Option UInt8 → Reader α} (hnone : Stays bs (k none))
    (hsome : ∀ b, Stays bs (k (some b))) : Stays bs (Reader.peek >>= k) := by
  refine stays_peek.bind fun o => ?_
  cases o with
  | none => exact hnone
  | some b => exact hsome b

theorem stays_ident (word : Bytes) : Stays bs (ident word) := by
  induction word with
  | nil => exact stays_pure ()
  | cons b word ih => exact .next (stays_failHere _) fun _ => .ite ih (stays_failHere _)

theorem stays_word (rest : Bytes) (a : α) : Stays bs (word rest a) :=
  stays_advance.bind fun _ => (stays_ident rest).bind fun _ => stays_pure a

/-! ### Numbers -/

theorem appendDigits_spec (bound n : Nat) (rest : Bytes) :
    ∃ taken, rest = taken ++ (appendDigits bound n rest).2.2 ∧
      (appendDigits bound n rest).2.1 = taken.length := by
  obtain ⟨m, taken, tail, rfl, -, happend⟩ := exists_appendDigits bound n rest
  have hself := happend [] .nil
  rw [List.append_nil, List.append_nil] at hself
  exact ⟨taken, by rw [hself], by rw [hself]⟩

theorem stays_takeDigits (bound n : Nat) : Stays bs (takeDigits bound n) := by
  intro c hc
  obtain ⟨taken, hrest, hcount⟩ := appendDigits_spec bound n c.rest
  unfold takeDigits
  dsimp only
  rw [hcount]
  exact ⟨hc.behind _ hrest, Nat.le_add_right _ _⟩

theorem stays_scale (negative : Bool) (significand : Nat) (exponent : Int) :
    Stays bs (scale negative significand exponent) := by
  unfold scale
  dsimp only
  split
  · exact stays_pure _
  split
  · split
    · exact (stays_failHere _).bind fun _ => stays_pure _
    · exact stays_pure _
  split
  · exact stays_pure _
  · exact (stays_failHere _).bind fun _ => stays_pure _

theorem stays_exponentPart (negative : Bool) (significand : Nat) (start : Int) :
    Stays bs (exponentPart negative significand start) := by
  unfold exponentPart
  refine stays_advance.bind fun _ => stays_peek.bind fun sign => ?_
  -- the sign is stepped over or not, and the digits behind it are read in the same way
  refine Stays.behind_step stays_advance (.next (stays_failHere _) fun b => ?_)
  refine .ite (stays_failHere _) ((stays_takeDigits _ _).bind fun p => ?_)
  refine stays_atDigit.bind fun more => .ite ?_ (stays_scale _ _ _)
  refine stays_advance.bind fun _ => Stays.behind_step (stays_failHere _) ?_
  exact stays_countDigits.bind fun _ => stays_pure _

theorem stays_afterDigits (negative : Bool) (significand : Nat) (exponent : Int) :
    Stays bs (afterDigits negative significand exponent) :=
  stays_peek.bind fun _ => .ite (stays_exponentPart _ _ _) (stays_scale _ _ _)

theorem stays_fractionPart (negative : Bool) (significand : Nat) (start : Int) :
    Stays bs (fractionPart negative significand start) := by
  unfold fractionPart
  refine stays_advance.bind fun _ => (stays_takeDigits _ _).bind fun p => ?_
  refine stays_atDigit.bind fun more => .ite ?_ (.ite ?_ ?_)
  · exact stays_countDigits.bind fun _ => stays_afterDigits _ _ _
  · exact .peek (stays_failHere _) fun _ => stays_failNext _
  · exact stays_afterDigits _ _ _

theorem stays_numberTail (negative : Bool) (significand : Nat) :
    Stays bs (numberTail negative significand) :=
  stays_peek.bind fun _ =>
    .ite (stays_fractionPart _ _ _) (.ite (stays_exponentPart _ _ _) (stays_pure _))

theorem stays_unsignedNumber (negative : Bool) : Stays bs (unsignedNumber negative) := by
  unfold unsignedNumber
  refine .next (stays_failHere _) fun b => .ite ?_ (.ite (stays_failHere _) ?_)
  · exact stays_atDigit.bind fun _ => .ite (stays_failNext _) (stays_numberTail _ _)
  · refine (stays_takeDigits _ _).bind fun p => stays_atDigit.bind fun more => .ite ?_ ?_
    · refine stays_countDigits.bind fun n => stays_peek.bind fun o => .ite ?_ ?_
      · exact stays_fractionPart _ _ _
      · exact stays_afterDigits _ _ _
    · exact stays_numberTail _ _

theorem stays_number : Stays bs number :=
  stays_peek.bind fun _ =>
    .ite (stays_advance.bind fun _ => stays_unsignedNumber true) (stays_unsignedNumber false)

/-! ### Strings -/

theorem stays_hexEscape : Stays bs hexEscape := by
  rintro ⟨offset, rest⟩ hc
  unfold hexEscape
  split
  · rename_i b₁ b₂ b₃ b₄ rest' hrest
    dsimp only at hrest ⊢
    have hbehind := hc.behind [b₁, b₂, b₃, b₄] hrest
    split
    · exact ⟨hbehind, Nat.le_add_right _ _⟩
    · exact (stays_failHere _ _ hbehind).mono (Nat.le_add_right _ _)
  · have hbehind := hc.behind _ (List.append_nil _).symm
    exact (stays_failHere _ _ hbehind).mono (Nat.le_add_right _ _)

theorem stays_pairByte (expected : UInt8) : Stays bs (pairByte expected) :=
  .next (stays_failHere _) fun _ => .ite (stays_pure _) (stays_failHere _)

/-- The character of an escape behind its first four digits, which may call for four more. -/
def secondHalf (n : Nat) : Reader Char := do
  if isTrail n then failHere .loneSurrogate
  else if isLead n then
    pairByte 0x5C
    pairByte 0x75
    let m ← hexEscape
    if isTrail m then return Char.ofNat (0x10000 + (n - 0xD800) * 0x400 + (m - 0xDC00))
    else failHere .loneSurrogate
  else return Char.ofNat n

theorem stays_secondHalf (n : Nat) : Stays bs (secondHalf n) := by
  refine .ite (stays_failHere _) (.ite ?_ (stays_pure _))
  refine (stays_pairByte _).bind fun _ => (stays_pairByte _).bind fun _ => ?_
  exact stays_hexEscape.bind fun _ => .ite (stays_pure _) (stays_failHere _)

theorem stays_unicodeEscape : Stays bs unicodeEscape :=
  stays_hexEscape.bind stays_secondHalf

theorem stays_escaped : Stays bs escaped := by
  unfold escaped
  refine .next (stays_failHere _) fun b => ?_
  dsimp only
  cases shortEscape? b with
  | some b' => exact stays_pure _
  | none => exact .ite (stays_unicodeEscape.bind fun _ => stays_pure _) (stays_failHere _)

theorem stays_stringBytes (read : Bytes) (fuel : Nat) : Stays bs (stringBytes read fuel) := by
  induction fuel generalizing read with
  | zero => exact stays_failHere _
  | succ fuel ih =>
    unfold stringBytes
    refine .next (stays_failHere _) fun b => .ite (stays_pure _) (.ite ?_ ?_)
    · exact stays_escaped.bind fun _ => ih _
    · exact .ite (stays_failHere _) (ih _)

/-- The bytes of a character are no more than those of its escape. -/
theorem length_encode_singleton_le (x : Char) : (Utf8.encode (String.singleton x)).length ≤ 4 := by
  have hsize : (Utf8.encode (String.singleton x)).length = x.utf8Size := by
    rw [Utf8.encode, Array.length_toList]
    exact String.utf8ByteSize_singleton
  have hle := x.utf8Size_le_four
  omega

theorem offset_of_hexEscape {n : Nat} (h : hexEscape c = .ok n d) : d.offset = c.offset + 4 := by
  obtain ⟨offset, _, _, _, _, _, rfl, rfl⟩ := hexEscape_eq_ok h
  rfl

/-- An escaped character takes four digits at least. -/
theorem offset_le_of_unicodeEscape (hc : c.In bs) {x : Char} (h : unicodeEscape c = .ok x d) :
    c.offset + 4 ≤ d.offset := by
  obtain ⟨n, c', hdigits, hhalf⟩ := exists_of_bind_eq_ok h
  have hin := stays_hexEscape c hc
  rw [hdigits] at hin
  have hrest : Ends bs c'.offset (.ok x d) := by
    rw [← hhalf]
    exact stays_secondHalf n c' hin.1
  rw [← offset_of_hexEscape hdigits]
  exact hrest.2

/-- An escape stands for no more bytes than it takes. -/
theorem length_le_of_escaped (hc : c.In bs) {out : Bytes} (h : escaped c = .ok out d) :
    out.length + c.offset ≤ d.offset := by
  obtain ⟨o, c', hnext, h⟩ := exists_of_bind_eq_ok h
  have hin := stays_next c hc
  rw [hnext] at hin
  obtain ⟨offset, rest⟩ := c
  cases rest with
  | nil =>
    cases hnext
    cases h
  | cons b rest =>
    cases hnext
    dsimp only at h
    cases hshort : shortEscape? b with
    | some b' =>
      rw [hshort] at h
      cases h
      exact Nat.le_of_eq (Nat.add_comm 1 offset)
    | none =>
      rw [hshort] at h
      dsimp only at h
      split at h
      · obtain ⟨x, e, hx, h⟩ := exists_of_bind_eq_ok h
        cases h
        have hfour := offset_le_of_unicodeEscape hin.1 hx
        have hsize := length_encode_singleton_le x
        dsimp only at hfour ⊢
        omega
      · cases h

/-- The bytes of a string are no more than those that were read. -/
theorem length_le_of_stringBytes (hc : c.In bs) {read out : Bytes} {fuel : Nat}
    (h : stringBytes read fuel c = .ok out d) : out.length + c.offset ≤ read.length + d.offset := by
  induction fuel generalizing read c with
  | zero => cases h
  | succ fuel ih =>
    obtain ⟨o, c', hnext, h⟩ := exists_of_bind_eq_ok h
    have hin := stays_next c hc
    rw [hnext] at hin
    obtain ⟨offset, rest⟩ := c
    cases rest with
    | nil =>
      cases hnext
      cases h
    | cons b rest =>
      cases hnext
      dsimp only at h ⊢
      split at h
      · cases h
        simp
      split at h
      · obtain ⟨more, c', hescaped, h⟩ := exists_of_bind_eq_ok h
        have hend := stays_escaped _ hin.1
        rw [hescaped] at hend
        have hmore := length_le_of_escaped hin.1 hescaped
        have hlast := ih hend.1 h
        simp only [List.length_append, List.length_reverse] at hlast hmore
        omega
      split at h
      · cases h
      · have hlast := ih hin.1 h
        simp only [List.length_cons] at hlast
        omega

theorem validLength_le (bs : Bytes) : Utf8.validLength bs ≤ bs.length := by
  fun_induction Utf8.validLength bs with
  | case1 => exact Nat.le_refl _
  | case2 lead bs c rest hstep n _ ih =>
    have hlength := Utf8.step_length lead bs
    rw [hstep] at ih hlength ⊢
    simp only [n, List.length_cons] at ih hlength ⊢
    omega
  | case3 => exact Nat.zero_le _

theorem stays_stringBody : Stays bs stringBody := by
  intro c hc
  have hend : Ends bs c.offset _ := stays_stringBytes [] (c.rest.length + 1) c hc
  unfold stringBody
  cases hrun : stringBytes [] (c.rest.length + 1) c with
  | error f d =>
    rw [hrun] at hend
    exact hend
  | ok out d =>
    rw [hrun] at hend
    obtain ⟨hd, hle⟩ := hend
    dsimp only
    cases Utf8.decode? out with
    | some s => exact ⟨hd, hle⟩
    | none =>
      refine ⟨hd, hle, ?_⟩
      rintro n ⟨⟩
      have hout := length_le_of_stringBytes hc hrun
      have hvalid := validLength_le out
      have hlength := hd.length_eq
      simp only [List.length_nil] at hout
      omega

theorem stays_name : Stays bs name :=
  stays_advance.bind fun _ => stays_stringBody

/-! ### What nothing asks for -/

theorem stays_skipExponent : Stays bs skipExponent := by
  unfold skipExponent
  refine stays_advance.bind fun _ => stays_peek.bind fun sign => ?_
  refine Stays.behind_step stays_advance (.next (stays_failHere _) fun b => ?_)
  exact .ite (stays_skipWhile _) (stays_failHere _)

theorem stays_skipTail : Stays bs skipTail := by
  have hexponent : Stays bs skipOptionalExponent :=
    stays_peek.bind fun _ => .ite stays_skipExponent (stays_pure ())
  unfold skipTail
  refine stays_peek.bind fun o => .ite ?_ hexponent
  refine stays_advance.bind fun _ => stays_countDigits.bind fun n => ?_
  exact Stays.behind_step (stays_failNext _) hexponent

theorem stays_skipNumber : Stays bs skipNumber := by
  unfold skipNumber
  refine .next ((stays_failHere _).bind fun _ => stays_skipTail) fun b => .ite ?_ (.ite ?_ ?_)
  · exact stays_atDigit.bind fun _ => Stays.behind_step (stays_failNext _) stays_skipTail
  · exact (stays_skipWhile _).bind fun _ => stays_skipTail
  · exact (stays_failHere _).bind fun _ => stays_skipTail

theorem stays_skipString (fuel : Nat) : Stays bs (skipString fuel) := by
  induction fuel with
  | zero => exact stays_failHere _
  | succ fuel ih =>
    unfold skipString
    refine .peek (stays_failHere _) fun b => .ite stays_advance (.ite ?_ ?_)
    · refine stays_advance.bind fun _ => .next (stays_failHere _) fun e => ?_
      exact .ite (stays_hexEscape.bind fun _ => ih) (.ite ih (stays_failHere _))
    · exact .ite (stays_failHere _) (stays_advance.bind fun _ => ih)

theorem stays_skipName : Stays bs skipName := by
  unfold skipName
  refine .token (stays_failNext _) fun b => .ite ?_ (stays_failNext _)
  refine stays_advance.bind fun _ => stays_remaining.bind fun n => ?_
  refine (stays_skipString _).bind fun _ => .token (stays_failNext _) fun b => ?_
  exact .ite stays_advance (stays_failNext _)

theorem stays_skipStart : Stays bs skipStart := by
  have hword (rest : Bytes) :
      Stays bs (advance >>= fun _ => ident rest >>= fun _ => pure (none : Option Frame)) :=
    stays_word rest none
  unfold skipStart
  refine .token (stays_failNext _) fun b => ?_
  refine .ite (hword _) (.ite (hword _) (.ite (hword _) (.ite ?_ (.ite ?_ (.ite ?_ ?_)))))
  · exact stays_advance.bind fun _ => stays_skipNumber.bind fun _ => stays_pure _
  · exact stays_skipNumber.bind fun _ => stays_pure _
  · exact stays_advance.bind fun _ => stays_remaining.bind fun n =>
      (stays_skipString _).bind fun _ => stays_pure _
  · have hopen (frame : Frame) : Stays bs (advance >>= fun _ => pure (some frame)) :=
      stays_advance.bind fun _ => stays_pure _
    exact .ite (hopen _) (.ite (hopen _) (stays_failNext _))

theorem stays_skipClosers (mayClose : Bool) (open_ : List Frame) (fuel : Nat) :
    Stays bs (skipClosers mayClose open_ fuel) := by
  induction fuel generalizing mayClose open_ with
  | zero =>
    unfold skipClosers
    exact stays_pure _
  | succ fuel ih =>
    unfold skipClosers
    cases open_ with
    | nil => exact stays_pure _
    | cons f outer =>
      refine .token (stays_failNext _) fun b => .ite ?_ (.ite ?_ (.ite ?_ ?_))
      · exact stays_advance.bind fun _ => stays_pure _
      · exact stays_advance.bind fun _ => ih _ _
      · exact stays_failNext _
      · exact stays_pure _

theorem stays_skipOpen (open_ : List Frame) (fuel : Nat) : Stays bs (skipOpen open_ fuel) := by
  induction fuel generalizing open_ with
  | zero => exact stays_failNext _
  | succ fuel ih =>
    unfold skipOpen
    refine stays_skipStart.bind fun started => ?_
    refine stays_remaining.bind fun n => (stays_skipClosers _ _ _).bind fun open_ => ?_
    cases open_ with
    | nil => exact stays_pure _
    | cons f outer => exact Stays.behind_step stays_skipName (ih _)

theorem stays_skipValue : Stays bs skipValue :=
  stays_remaining.bind fun _ => stays_skipOpen _ _

/-! ### Lists and objects -/

theorem stays_moreItems (first : Bool) : Stays bs (moreItems first) := by
  unfold moreItems
  refine .token (stays_failNext _) fun b => .ite (stays_pure _) (.ite (stays_pure _) ?_)
  refine .ite (stays_advance.bind fun _ => ?_) (stays_failNext _)
  exact .token (stays_failNext _) fun b => .ite (stays_failNext _) (stays_pure _)

theorem stays_endList : Stays bs endList := by
  unfold endList
  refine .token (stays_failNext _) fun b => .ite stays_advance (.ite ?_ (stays_failNext _))
  exact stays_advance.bind fun _ => stays_peekToken.bind fun _ =>
    .ite (stays_failNext _) (stays_failNext _)

theorem stays_moreMembers (first : Bool) : Stays bs (moreMembers first) := by
  unfold moreMembers
  refine .token (stays_failNext _) fun b => .ite (stays_pure _) (.ite ?_ (.ite ?_ ?_))
  · exact .ite (stays_pure _) (stays_failNext _)
  · refine stays_advance.bind fun _ => .token (stays_failNext _) fun b => ?_
    exact .ite (stays_pure _) (.ite (stays_failNext _) (stays_failNext _))
  · exact stays_failNext _

theorem stays_endObject : Stays bs endObject :=
  .token (stays_failNext _) fun _ =>
    .ite stays_advance (.ite (stays_failNext _) (stays_failNext _))

theorem stays_colon : Stays bs colon :=
  .token (stays_failNext _) fun _ => .ite stays_advance (stays_failNext _)

theorem stays_nested {depth : Nat} {r : Nat → Reader α} {close : Reader Unit}
    (hr : ∀ depth, Stays bs (r depth)) (hclose : Stays bs close) :
    Stays bs (nested depth r close) :=
  .ite (stays_failNext _) (.closing (stays_advance.bind fun _ => hr _) hclose)

theorem stays_foldItems {item : α → Reader α} (h : ∀ a, Stays bs (item a)) (first : Bool) (a : α)
    (fuel : Nat) : Stays bs (foldItems item first a fuel) := by
  induction fuel generalizing first a with
  | zero => exact stays_pure a
  | succ fuel ih =>
    unfold foldItems
    exact (stays_moreItems _).bind fun _ => .ite ((h a).bind fun _ => ih _ _) (stays_pure a)

theorem stays_foldMembers {member : α → String → Reader α} (h : ∀ a n, Stays bs (member a n))
    (first : Bool) (a : α) (fuel : Nat) : Stays bs (foldMembers member first a fuel) := by
  induction fuel generalizing first a with
  | zero => exact stays_pure a
  | succ fuel ih =>
    unfold foldMembers
    refine (stays_moreMembers _).bind fun _ => .ite (stays_name.bind fun n => ?_) (stays_pure a)
    exact (h a n).bind fun _ => ih _ _

theorem stays_items {item : α → Reader α} (h : ∀ a, Stays bs (item a)) (a : α) :
    Stays bs (items item a) :=
  stays_remaining.bind fun _ => stays_foldItems h _ _ _

theorem stays_members {member : α → String → Reader α} (h : ∀ a n, Stays bs (member a n)) (a : α) :
    Stays bs (members member a) :=
  stays_remaining.bind fun _ => stays_foldMembers h _ _ _

/-! ### Values of any shape -/

theorem stays_scalar : Stays bs scalar := by
  unfold scalar
  refine .token (stays_failNext _) fun b => ?_
  refine .ite (stays_word _ _) (.ite (stays_word _ _) (.ite (stays_word _ _) ?_))
  refine .ite ?_ (.ite ?_ ?_)
  · exact stays_number.bind fun _ => stays_pure _
  · exact stays_name.bind fun _ => stays_pure _
  · exact stays_pure _

theorem stays_content (depth : Nat) : Stays bs (content depth) := by
  induction depth with
  | zero => exact stays_failNext _
  | succ depth ih =>
    unfold content
    refine .locate (stays_scalar.bind fun x => ?_)
    cases x with
    | inl x => exact stays_pure x
    | inr b =>
      refine .ite (stays_nested (fun _ => ?_) stays_endList)
        (.ite (stays_nested (fun _ => ?_) stays_endObject) (stays_failNext _))
      · exact (stays_items (fun _ => ih.bind fun _ => stays_pure _) _).bind fun _ => stays_pure _
      · refine (stays_members (fun _ _ => ?_) _).bind fun _ => stays_pure _
        exact stays_colon.bind fun _ => ih.bind fun _ => stays_pure _

/-! ### Shapes -/

theorem stays_ofExcept (x : Except Cause α) : Stays bs (ofExcept x) := by
  cases x with
  | ok a => exact stays_pure a
  | error cause => exact stays_failShape cause

theorem stays_mismatch (expected : String) : Stays bs (mismatch (α := α) expected) := by
  refine .locate (stays_scalar.bind fun x => ?_)
  cases x with
  | inl x => exact stays_failShape _
  | inr b => exact .ite (stays_failShape _) (.ite (stays_failShape _) (stays_failNext _))

theorem stays_checkedString (expected : String) (check : String → Except String Unit) :
    Stays bs (checkedString expected check) := by
  refine .locate (.token (stays_failNext _) fun b => .ite (stays_name.bind fun s => ?_) ?_)
  · cases check s with
    | ok u => exact stays_pure _
    | error reason => exact stays_failShape _
  · exact stays_mismatch _

theorem stays_boolean : Stays bs boolean :=
  .locate (.token (stays_failNext _) fun _ =>
    .ite (stays_word _ _) (.ite (stays_word _ _) (stays_mismatch _)))

theorem stays_boundedInt (expected : String) (low high : Int) :
    Stays bs (boundedInt expected low high) :=
  .locate (.token (stays_failNext _) fun _ =>
    .ite (stays_number.bind fun _ => stays_ofExcept _) (stays_mismatch _))

theorem stays_unit : Stays bs unit :=
  .locate (.token (stays_failNext _) fun _ => .ite (stays_word _ _) (stays_mismatch _))

theorem stays_optional {r : Reader Value} (hr : Stays bs r) : Stays bs (optional r) :=
  stays_peekToken.bind fun _ => .ite (stays_word _ _) hr

theorem stays_intOrString (depth : Nat) : Stays bs (intOrString depth) := by
  refine .locate (stays_scalar.bind fun x => ?_)
  cases x with
  | inl x => exact stays_ofExcept _
  | inr b =>
    refine .ite (stays_nested (fun _ => ?_) stays_endList)
      (.ite (stays_nested (fun _ => ?_) stays_endObject) (stays_failNext _))
    · exact stays_failShape _
    · exact stays_failShape _

theorem stays_list {depth : Nat} {expected : String} {r : Nat → Reader α}
    (hr : ∀ depth, Stays bs (r depth)) : Stays bs (list depth expected r) :=
  .locate (.token (stays_failNext _) fun _ =>
    .ite (stays_nested hr stays_endList) (stays_mismatch _))

theorem stays_object {depth : Nat} {expected : String} {r : Nat → Reader α}
    (hr : ∀ depth, Stays bs (r depth)) : Stays bs (object depth expected r) :=
  .locate (.token (stays_failNext _) fun _ =>
    .ite (stays_nested hr stays_endObject) (stays_mismatch _))

section Fields

variable {fields : List Field}

theorem stays_fieldMember (h : ∀ f ∈ fields, ∀ depth, Stays bs (f.read depth)) (depth : Nat)
    (slots : Slots) (n : String) : Stays bs (fieldMember fields depth slots n) := by
  unfold fieldMember
  cases hfind : fields.find? fun f => f.name == n with
  | none => exact stays_colon.bind fun _ => stays_skipValue.bind fun _ => stays_pure _
  | some f =>
    refine .ite (stays_failShape _) (stays_colon.bind fun _ => ?_)
    exact (h f (List.mem_of_find?_eq_some hfind) depth).bind fun _ => stays_pure _

theorem stays_namedFields (h : ∀ f ∈ fields, ∀ depth, Stays bs (f.read depth)) (depth : Nat) :
    Stays bs (namedFields fields depth) :=
  (stays_members (stays_fieldMember h depth) _).bind fun _ => (stays_ofExcept _).map _

theorem stays_positionalFields (h : ∀ f ∈ fields, ∀ depth, Stays bs (f.read depth))
    (expected : String) (depth index : Nat) (slots : Slots) :
    Stays bs (positionalFields expected depth index slots fields) := by
  induction fields generalizing index slots with
  | nil => exact stays_pure _
  | cons f fields ih =>
    have htail := ih fun g hg => h g (List.mem_cons_of_mem f hg)
    unfold positionalFields
    refine (stays_moreItems _).bind fun _ => .ite ?_ (.ite (stays_failShape _) (htail _ _))
    exact (h f List.mem_cons_self depth).bind fun _ => htail _ _

theorem stays_record (h : ∀ f ∈ fields, ∀ depth, Stays bs (f.read depth)) (expected : String)
    (depth : Nat) : Stays bs (record expected fields depth) := by
  refine .locate (.token (stays_failNext _) fun b => .ite ?_ (.ite ?_ (stays_mismatch _)))
  · exact stays_nested (stays_namedFields h) stays_endObject
  · refine stays_nested (fun depth => ?_) stays_endList
    exact (stays_positionalFields h _ _ _ _).bind fun _ => (stays_ofExcept _).map _

theorem stays_merged (h : ∀ f ∈ fields, ∀ depth, Stays bs (f.read depth)) (expected : String)
    (inner : List Content.Field) (depth : Nat) : Stays bs (merged expected fields inner depth) := by
  refine stays_object fun depth => (stays_members (fun a n => ?_) _).bind fun a => ?_
  · cases fields.find? fun f => f.name == n with
    | none => exact stays_colon.bind fun _ => (stays_content _).bind fun _ => stays_pure _
    | some f => exact (stays_fieldMember h depth _ n).bind fun _ => stays_pure _
  · refine (stays_ofExcept _).bind fun own => (stays_ofExcept _).bind fun v => ?_
    cases v <;> exact stays_pure _

end Fields

theorem stays_caseName (cases : List Content.Field) : Stays bs (caseName cases) := by
  refine .locate (.token (stays_failNext _) fun b => .ite (stays_name.bind fun s => ?_) ?_)
  · exact (stays_ofExcept _).bind fun _ => stays_pure _
  · exact stays_mismatch _

theorem stays_tagged (expected tag : String) (cases : List Content.Field) (depth : Nat) :
    Stays bs (tagged expected tag cases depth) := by
  refine Stays.bind (.locate (stays_scalar.bind fun x => ?_)) fun _ => stays_ofExcept _
  cases x with
  | inl x => exact stays_failShape _
  | inr b =>
    refine .ite (stays_nested (fun depth => ?_) stays_endObject)
      (.ite (stays_nested (fun depth => ?_) stays_endList) (stays_failNext _))
    · refine (stays_members (fun a n => .ite (.ite (stays_failShape _) ?_) ?_) _).bind fun a => ?_
      · exact stays_colon.bind fun _ => (stays_caseName cases).bind fun _ => stays_pure _
      · exact stays_colon.bind fun _ => (stays_content _).bind fun _ => stays_pure _
      · obtain ⟨found, others⟩ := a
        cases found with
        | none => exact stays_failShape _
        | some c => exact stays_pure _
    · refine (stays_moreItems true).bind fun more => .ite ?_ (stays_failShape _)
      refine (stays_caseName cases).bind fun c => stays_remaining.bind fun n => ?_
      refine (stays_foldItems (fun cs => ?_) _ _ _).bind fun _ => stays_pure _
      exact (stays_content _).bind fun _ => stays_pure _

end Reader

end Json

open Json Json.Reader

variable {bs : Bytes}

mutual

/-- Every shape is read on through the text. -/
theorem Shape.stays : (s : Shape) → ∀ depth, Stays bs (s.ofText depth)
  | .any, depth => (stays_content depth).map _
  | .string, _ => stays_checkedString Shape.string.expectation fun _ => .ok ()
  | .text e check, _ => stays_checkedString e check
  | .bool, _ => stays_boolean
  | .int word low high, _ => stays_boundedInt word low high
  | .intOrString, depth => stays_intOrString depth
  | .unit, _ => stays_unit
  | .option s, depth => stays_optional (s.stays depth)
  | .list s, _ => stays_list fun depth =>
    (stays_items (fun _ => (s.stays depth).bind fun _ => stays_pure _) _).bind fun _ => stays_pure _
  | .map s, _ => stays_object fun depth =>
    (stays_members (fun _ _ => stays_colon.bind fun _ => (s.stays depth).bind fun _ =>
      stays_pure _) _).bind fun _ => stays_pure _
  | .record _ fields, depth => stays_record fields.stays _ depth
  | .merged _ fields _, depth => stays_merged fields.stays _ _ depth
  | .tagged _ tag _, depth => stays_tagged _ tag _ depth

theorem Fields.stays : (fields : Fields) → ∀ f ∈ fields.ofText, ∀ depth, Stays bs (f.read depth)
  | .nil => fun _ h => absurd h List.not_mem_nil
  | .cons _ _ s rest => List.forall_mem_cons.mpr ⟨s.stays, rest.stays⟩

end

namespace Json

/-- What is wrong with a document is noticed in its text, if it is noticed at some place. -/
theorem offset_le_of_read_eq_error {s : Shape} {f : Fault} (h : read s bs = .error f) :
    ∀ n ∈ f.offset, n ≤ bs.length := by
  have hdocument : Stays bs (document s) :=
    (s.stays maxDepth).bind fun _ => .token (stays_pure _) fun _ => stays_failNext _
  have hend := hdocument ⟨0, bs⟩ ⟨[], rfl, rfl⟩
  unfold read at h
  cases hrun : document s ⟨0, bs⟩ with
  | ok v d =>
    rw [hrun] at h
    cases h
  | error f' d =>
    rw [hrun] at h hend
    cases h
    exact fun n hn => (hend.2.2 n hn).2

end Json
end KubeClient
