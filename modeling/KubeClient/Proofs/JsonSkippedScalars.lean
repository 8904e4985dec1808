import KubeClient.Proofs.JsonExtent
import KubeClient.Proofs.JsonLockstep

/-!
# Scalars that are read are stepped over

Where nothing asks for a scalar, it is stepped over, and what it stands for is not looked at: half
of a pair of surrogates or a number that is too large does no harm there. The other way round, every
scalar that is read is stepped over, up to the same place.

* `Json.Reader.Shortens` : readers that leave no more than there was;
* `Json.Reader.InString` : how far the loop over a string has come;
* `Json.Reader.skipString_of_stringBody` : strings;
* `Json.Reader.skipAt_of_contentAt` : scalars of all kinds.
-/

namespace KubeClient.Json.Reader

variable {α β : Type} {r : Reader α} {c d e : Cursor}

/-! ### Readers leave no more than there was -/

/-- A reader that succeeds leaves no more than there was. -/
def Shortens (r : Reader α) : Prop :=
  ∀ c a d, r c = .ok a d → d.rest.length ≤ c.rest.length

theorem shortens_pure (a : α) : Shortens (pure a) := by
  intro c b d h
  cases h
  exact Nat.le_refl _

theorem shortens_failHere (f : SyntaxFault) : Shortens (failHere (α := α) f) := by
  intro c a d h
  cases h

theorem shortens_failNext (f : SyntaxFault) : Shortens (failNext (α := α) f) := by
  intro c a d h
  cases h

theorem Shortens.bind {f : α → Reader β} (hr : Shortens r) (hf : ∀ a, Shortens (f a)) :
    Shortens (r >>= f) := by
  intro c b e h
  obtain ⟨a, d, hrun, hrest⟩ := exists_of_bind_eq_ok h
  exact Nat.le_trans (hf a d b e hrest) (hr c a d hrun)

theorem shortens_peek : Shortens peek := by
  intro c a d h
  cases h
  exact Nat.le_refl _

theorem shortens_advance : Shortens advance := by
  rintro ⟨offset, bs⟩ a d h
  cases bs with
  | nil =>
    cases h
    exact Nat.le_refl _
  | cons b bs =>
    cases h
    exact Nat.le_succ _

theorem shortens_next : Shortens next := by
  rintro ⟨offset, bs⟩ a d h
  cases bs with
  | nil =>
    cases h
    exact Nat.le_refl _
  | cons b bs =>
    cases h
    exact Nat.le_succ _

theorem length_dropWhile_le (p : UInt8 → Bool) (bs : Bytes) :
    (bs.dropWhile p).length ≤ bs.length :=
  (List.dropWhile_sublist p).length_le

theorem shortens_skipWhile (p : UInt8 → Bool) : Shortens (skipWhile p) := by
  intro c a d h
  cases h
  exact length_dropWhile_le p c.rest

theorem shortens_countDigits : Shortens countDigits := by
  intro c a d h
  cases h
  exact length_dropWhile_le isDigit c.rest

/-- A step that is made sometimes. -/
theorem Shortens.behind_step {p : Prop} [Decidable p] (hr : Shortens r) (hq : Shortens q) :
    Shortens (if p then r >>= fun _ => q else q) := by
  split
  · exact hr.bind fun _ => hq
  · exact hq

theorem shortens_skipExponent : Shortens skipExponent := by
  unfold skipExponent
  refine shortens_advance.bind fun _ => shortens_peek.bind fun sign => ?_
  refine shortens_advance.behind_step (shortens_next.bind fun o => ?_)
  cases o with
  | none => exact shortens_failHere _
  | some b =>
    dsimp only
    split
    · exact shortens_skipWhile _
    · exact shortens_failHere _

theorem shortens_skipTail : Shortens skipTail := by
  have hexponent : Shortens skipOptionalExponent := by
    unfold skipOptionalExponent
    refine shortens_peek.bind fun o => ?_
    split
    · exact shortens_skipExponent
    · exact shortens_pure ()
  unfold skipTail
  refine shortens_peek.bind fun o => ?_
  split
  · refine shortens_advance.bind fun _ => shortens_countDigits.bind fun n => ?_
    split
    · exact (shortens_failNext _).bind fun _ => hexponent
    · exact hexponent
  · exact hexponent

/-- A number has a byte at least. -/
theorem length_lt_of_skipNumber (h : skipNumber c = .ok () d) : d.rest.length < c.rest.length := by
  obtain ⟨offset, bs⟩ := c
  cases bs with
  | nil => cases h
  | cons b bs =>
    refine Nat.lt_succ_of_le (?_ : d.rest.length ≤ (⟨offset + 1, bs⟩ : Cursor).rest.length)
    obtain ⟨o, d', hnext, h⟩ := exists_of_bind_eq_ok h
    cases hnext
    dsimp only at h
    split at h
    · obtain ⟨more, d', hmore, h⟩ := exists_of_bind_eq_ok h
      cases hmore
      split at h
      · cases h
      · exact shortens_skipTail _ _ _ h
    · split at h
      · exact (shortens_skipWhile isDigit).bind (fun _ => shortens_skipTail) _ _ _ h
      · cases h

/-! ### Strings -/

theorem hexEscape_eq_ok {n : Nat} (h : hexEscape c = .ok n d) :
    ∃ offset b₁ b₂ b₃ b₄ bs, c = ⟨offset, b₁ :: b₂ :: b₃ :: b₄ :: bs⟩ ∧ d = ⟨offset + 4, bs⟩ := by
  obtain ⟨offset, bs⟩ := c
  unfold hexEscape at h
  split at h
  · rename_i b₁ b₂ b₃ b₄ rest hrest
    dsimp only at hrest h
    split at h
    · cases h
      exact ⟨offset, b₁, b₂, b₃, b₄, rest, by rw [hrest], rfl⟩
    · cases h
  · cases h

/-- One byte of what joins the halves of a pair. -/
theorem pairByte_eq_ok {b : UInt8} {u : Unit} (h : pairByte b c = .ok u d) :
    ∃ offset bs, c = ⟨offset, b :: bs⟩ ∧ d = ⟨offset + 1, bs⟩ := by
  obtain ⟨offset, bs⟩ := c
  obtain ⟨o, d', hnext, h⟩ := exists_of_bind_eq_ok h
  cases bs with
  | nil =>
    cases hnext
    cases h
  | cons b' bs =>
    cases hnext
    dsimp only at h
    split at h
    · rename_i heq
      cases h
      exact ⟨offset, bs, by rw [heq], rfl⟩
    · cases h

/-- From `c` the loop over a string comes to `d`, and has fuel enough to go on. -/
structure InString (c d : Cursor) : Prop where
  length_lt : d.rest.length < c.rest.length
  goes_on : ∀ n, c.rest.length < n → ∃ m, d.rest.length < m ∧ skipString n c = skipString m d

theorem InString.trans (hcd : InString c d) (hde : InString d e) : InString c e := by
  refine ⟨Nat.lt_trans hde.length_lt hcd.length_lt, fun n hn => ?_⟩
  obtain ⟨m, hm, hstep⟩ := hcd.goes_on n hn
  obtain ⟨k, hk, hstep'⟩ := hde.goes_on m hm
  exact ⟨k, hk, hstep.trans hstep'⟩

/-- A byte that stands for itself. -/
theorem inString_plain {offset : Nat} {b : UInt8} {bs : Bytes} (hquote : b ≠ 0x22)
    (hescape : b ≠ 0x5C) (hcontrol : ¬b < 0x20) :
    InString ⟨offset, b :: bs⟩ ⟨offset + 1, bs⟩ := by
  refine ⟨Nat.lt_succ_self _, fun n hn => ?_⟩
  obtain ⟨n, rfl⟩ := Nat.exists_eq_succ_of_ne_zero (Nat.ne_zero_of_lt hn)
  refine ⟨n, Nat.lt_of_succ_lt_succ hn, ?_⟩
  show (if b = 0x22 then advance else if b = 0x5C then _ else if b < 0x20 then _
    else advance >>= fun _ => skipString n) ⟨offset, b :: bs⟩ = _
  rw [if_neg hquote, if_neg hescape, if_neg hcontrol]
  rfl

/-- A short escape. -/
theorem inString_short {offset : Nat} {b : UInt8} {bs : Bytes} (h : (shortEscape? b).isSome) :
    InString ⟨offset, 0x5C :: b :: bs⟩ ⟨offset + 2, bs⟩ := by
  have hb : b ≠ 0x75 := by
    rintro rfl
    cases h
  refine ⟨by simp only [List.length_cons]; omega, fun n hn => ?_⟩
  simp only [List.length_cons] at hn
  obtain ⟨n, rfl⟩ := Nat.exists_eq_succ_of_ne_zero (Nat.ne_zero_of_lt hn)
  refine ⟨n, by simp only; omega, ?_⟩
  show (if b = 0x75 then hexEscape >>= fun _ => skipString n
    else if (shortEscape? b).isSome then skipString n else failHere .badEscape)
      ⟨offset + 2, bs⟩ = _
  rw [if_neg hb, if_pos h]

/-- Four digits. -/
theorem inString_hex {offset n : Nat} {bs : Bytes} (h : hexEscape ⟨offset + 2, bs⟩ = .ok n d) :
    InString ⟨offset, 0x5C :: 0x75 :: bs⟩ d := by
  obtain ⟨_, b₁, b₂, b₃, b₄, rest, heq, rfl⟩ := hexEscape_eq_ok h
  cases heq
  refine ⟨by simp only [List.length_cons]; omega, fun n hn => ?_⟩
  simp only [List.length_cons] at hn
  obtain ⟨n, rfl⟩ := Nat.exists_eq_succ_of_ne_zero (Nat.ne_zero_of_lt hn)
  refine ⟨n, by simp only; omega, ?_⟩
  show (hexEscape >>= fun _ => skipString n) ⟨offset + 2, _⟩ = _
  exact bind_eq_of_ok h

/-- An escape stands for one character, which may take two times four digits. -/
theorem inString_unicode {offset : Nat} {bs : Bytes} {x : Char}
    (h : unicodeEscape ⟨offset + 2, bs⟩ = .ok x d) :
    InString ⟨offset, 0x5C :: 0x75 :: bs⟩ d := by
  obtain ⟨n, d₁, hfirst, hpair⟩ := exists_of_bind_eq_ok h
  have hin := inString_hex hfirst
  by_cases htrail : isTrail n = true
  · rw [if_pos htrail] at hpair
    cases hpair
  rw [if_neg htrail] at hpair
  by_cases hlead : isLead n = true
  · rw [if_pos hlead] at hpair
    obtain ⟨_, d₂, hslash, hpair⟩ := exists_of_bind_eq_ok hpair
    obtain ⟨_, d₃, hu, hpair⟩ := exists_of_bind_eq_ok hpair
    obtain ⟨m, d₄, hsecond, hlast⟩ := exists_of_bind_eq_ok hpair
    obtain ⟨offset', bs', rfl, rfl⟩ := pairByte_eq_ok hslash
    obtain ⟨_, rest, heq, rfl⟩ := pairByte_eq_ok hu
    cases heq
    have hend : d₄ = d := by
      split at hlast
      · exact (EStateM.Result.ok.inj hlast).2
      · cases hlast
    exact hend ▸ hin.trans (inString_hex hsecond)
  · rw [if_neg hlead] at hpair
    cases hpair
    exact hin

theorem inString_escaped {offset : Nat} {bs out : Bytes}
    (h : escaped ⟨offset + 1, bs⟩ = .ok out d) : InString ⟨offset, 0x5C :: bs⟩ d := by
  obtain ⟨o, d', hnext, hrest⟩ := exists_of_bind_eq_ok h
  cases bs with
  | nil =>
    cases hnext
    cases hrest
  | cons b bs =>
    cases hnext
    dsimp only at hrest
    cases hshort : shortEscape? b with
    | some b' =>
      rw [hshort] at hrest
      cases hrest
      exact inString_short (by rw [hshort]; rfl)
    | none =>
      rw [hshort] at hrest
      dsimp only at hrest
      by_cases hu : b = 0x75
      · rw [if_pos hu] at hrest
        obtain ⟨x, d', hunicode, hout⟩ := exists_of_bind_eq_ok hrest
        cases hout
        subst hu
        exact inString_unicode hunicode
      · rw [if_neg hu] at hrest
        cases hrest

/-- A string that is read is stepped over. -/
theorem skipString_of_stringBytes {fuel : Nat} {front out : Bytes}
    (h : stringBytes front fuel c = .ok out d) :
    d.rest.length < c.rest.length ∧ ∀ n, c.rest.length < n → skipString n c = .ok () d := by
  induction fuel generalizing front c with
  | zero => cases h
  | succ fuel ih =>
    -- what follows one more byte or escape
    have hnext {c' : Cursor} {front' : Bytes} (hin : InString c c')
        (h' : stringBytes front' fuel c' = .ok out d) :
        d.rest.length < c.rest.length ∧ ∀ n, c.rest.length < n → skipString n c = .ok () d := by
      obtain ⟨hlt, hskip⟩ := ih h'
      refine ⟨Nat.lt_trans hlt hin.length_lt, fun n hn => ?_⟩
      obtain ⟨m, hm, hstep⟩ := hin.goes_on n hn
      rw [hstep, hskip m hm]
    obtain ⟨offset, bs⟩ := c
    obtain ⟨o, c', ho, hbyte⟩ := exists_of_bind_eq_ok h
    cases bs with
    | nil =>
      cases ho
      cases hbyte
    | cons b bs =>
      cases ho
      dsimp only at hbyte
      by_cases hquote : b = 0x22
      · rw [if_pos hquote] at hbyte
        cases hbyte
        refine ⟨Nat.lt_succ_self _, fun n hn => ?_⟩
        obtain ⟨n, rfl⟩ := Nat.exists_eq_succ_of_ne_zero (Nat.ne_zero_of_lt hn)
        rw [hquote]
        rfl
      rw [if_neg hquote] at hbyte
      by_cases hescape : b = 0x5C
      · rw [if_pos hescape] at hbyte
        obtain ⟨more, c', hescaped, hmore⟩ := exists_of_bind_eq_ok hbyte
        subst hescape
        exact hnext (inString_escaped hescaped) hmore
      rw [if_neg hescape] at hbyte
      by_cases hcontrol : b < 0x20
      · rw [if_pos hcontrol] at hbyte
        cases hbyte
      · rw [if_neg hcontrol] at hbyte
        exact hnext (inString_plain hquote hescape hcontrol) hbyte

theorem skipString_of_stringBody {s : String} (h : stringBody c = .ok s d) :
    d.rest.length < c.rest.length ∧ ∀ n, c.rest.length < n → skipString n c = .ok () d := by
  unfold stringBody at h
  split at h
  · cases h
  · rename_i bs c' hbytes
    split at h
    · cases h
      exact skipString_of_stringBytes hbytes
    · cases h

/-! ### Scalars -/

/-- Steps over a scalar whose first byte is `b`, or into what it opens. -/
def skipAt (b : UInt8) : Reader (Option Frame) :=
  if b = 0x6E then advance >>= fun _ => ident [0x75, 0x6C, 0x6C] >>= fun _ => pure none
  else if b = 0x74 then advance >>= fun _ => ident [0x72, 0x75, 0x65] >>= fun _ => pure none
  else if b = 0x66 then advance >>= fun _ => ident [0x61, 0x6C, 0x73, 0x65] >>= fun _ => pure none
  else if b = 0x2D then advance >>= fun _ => skipNumber >>= fun _ => pure none
  else if isDigit b then skipNumber >>= fun _ => pure none
  else if b = 0x22 then
    advance >>= fun _ => remaining >>= fun n => skipString (n + 1) >>= fun _ => pure none
  else if b = 0x5B then advance >>= fun _ => pure (some .list)
  else if b = 0x7B then advance >>= fun _ => pure (some .object)
  else failNext .noValue

theorem skipStart_of_head? {b : UInt8} (h : (behindBlanks c).rest.head? = some b) :
    skipStart c = skipAt b (behindBlanks c) := by
  unfold skipStart
  rw [bind_eq_of_ok (peekToken_eq c), h]
  rfl

theorem shortens_ident (word : Bytes) : Shortens (ident word) := by
  induction word with
  | nil => exact shortens_pure ()
  | cons b word ih =>
    unfold ident
    refine shortens_next.bind fun o => ?_
    cases o with
    | none => exact shortens_failHere _
    | some b' =>
      dsimp only
      split
      · exact ih
      · exact shortens_failHere _

variable {offset : Nat} {b : UInt8} {bs : Bytes}

theorem skip_of_word {word' : Bytes} {a a' : α} (h : word word' a ⟨offset, b :: bs⟩ = .ok a' d) :
    (advance >>= fun _ => ident word' >>= fun _ => pure (none : Option Frame))
      ⟨offset, b :: bs⟩ = .ok none d ∧ d.rest.length < (b :: bs).length := by
  obtain ⟨_, d', hident, hpure⟩ :=
    exists_of_bind_eq_ok (show (ident word' >>= fun _ => pure a) ⟨offset + 1, bs⟩ = .ok a' d from h)
  cases hpure
  refine ⟨?_, Nat.lt_succ_of_le (shortens_ident _ _ _ _ hident)⟩
  show (ident word' >>= fun _ => pure none) ⟨offset + 1, bs⟩ = _
  rw [bind_eq_of_ok hident]
  rfl

/-- A number is stepped over, with its sign. -/
theorem skip_of_number {n : Number} (h : number ⟨offset, b :: bs⟩ = .ok n d) :
    (if b = 0x2D then advance >>= fun _ => skipNumber >>= fun _ => pure none
      else skipNumber >>= fun _ => pure (none : Option Frame)) ⟨offset, b :: bs⟩ = .ok none d ∧
      d.rest.length < (b :: bs).length := by
  have hskip := (reaches_number n d h).1
  by_cases hminus : b = 0x2D
  · subst hminus
    have hnumber : skipNumber ⟨offset + 1, bs⟩ = .ok () d := hskip
    rw [if_pos rfl]
    refine ⟨?_, Nat.lt_succ_of_lt (length_lt_of_skipNumber hnumber)⟩
    show (skipNumber >>= fun _ => pure none) ⟨offset + 1, bs⟩ = _
    rw [bind_eq_of_ok hnumber]
    rfl
  · have hnumber : skipNumber ⟨offset, b :: bs⟩ = .ok () d := by
      rw [← hskip]
      exact (congrFun (if_neg fun h => hminus (Option.some.inj h)) _).symm
    rw [if_neg hminus, bind_eq_of_ok hnumber]
    exact ⟨rfl, length_lt_of_skipNumber hnumber⟩

theorem skip_of_name {s : String} (h : name ⟨offset, b :: bs⟩ = .ok s d) :
    skipString (bs.length + 1) ⟨offset + 1, bs⟩ = .ok () d ∧ d.rest.length < bs.length := by
  have hbody : stringBody ⟨offset + 1, bs⟩ = .ok s d := h
  obtain ⟨hlt, hskip⟩ := skipString_of_stringBody hbody
  exact ⟨hskip _ (Nat.lt_succ_self _), hlt⟩

/-- A scalar that is read is stepped over. -/
theorem skipAt_of_contentAt {depth : Nat} {x : Content} (hlist : b ≠ 0x5B) (hobject : b ≠ 0x7B)
    (h : contentAt depth b ⟨offset, b :: bs⟩ = .ok x d) :
    skipAt b ⟨offset, b :: bs⟩ = .ok none d ∧ d.rest.length < (b :: bs).length := by
  unfold contentAt at h
  unfold skipAt
  by_cases hnull : b = 0x6E
  · rw [if_pos hnull] at h ⊢
    exact skip_of_word h
  rw [if_neg hnull] at h ⊢
  by_cases htrue : b = 0x74
  · rw [if_pos htrue] at h ⊢
    exact skip_of_word h
  rw [if_neg htrue] at h ⊢
  by_cases hfalse : b = 0x66
  · rw [if_pos hfalse] at h ⊢
    exact skip_of_word h
  rw [if_neg hfalse] at h ⊢
  by_cases hnumber : b = 0x2D ∨ isDigit b = true
  · rw [if_pos hnumber] at h
    obtain ⟨n, d', hn, hpure⟩ := exists_of_bind_eq_ok h
    cases hpure
    have hskip := skip_of_number hn
    by_cases hminus : b = 0x2D
    · rwa [if_pos hminus] at hskip ⊢
    · rw [if_neg hminus] at hskip ⊢
      rwa [if_pos (hnumber.resolve_left hminus)]
  rw [if_neg hnumber] at h
  rw [not_or] at hnumber
  rw [if_neg hnumber.1, if_neg hnumber.2]
  by_cases hstring : b = 0x22
  · rw [if_pos hstring] at h ⊢
    obtain ⟨s, d', hname, hpure⟩ := exists_of_bind_eq_ok h
    cases hpure
    obtain ⟨hskip, hlt⟩ := skip_of_name hname
    refine ⟨?_, Nat.lt_succ_of_lt hlt⟩
    show (skipString (bs.length + 1) >>= fun _ => pure none) ⟨offset + 1, bs⟩ = _
    rw [bind_eq_of_ok hskip]
    rfl
  rw [if_neg hstring, if_neg hlist, if_neg hobject] at h
  cases h

end KubeClient.Json.Reader
