import KubeClient.Proofs.JsonReading

/-!
# How far a number reaches

* `Json.EndsValue` : what can follow a printed value;
* `Json.Reader.Reaches` : what a reader reads is stepped over by another one, and is read just as
  well where more follows;
* `Json.Reader.reaches_unsignedNumber` : numbers are stepped over, and end where a value can end.
-/

namespace KubeClient.Json

/-- What can follow a printed value: nothing, a comma or a bracket. -/
def EndsValue (rest : Bytes) : Prop :=
  ∀ b ∈ rest.head?, b = 0x2C ∨ b = 0x5D ∨ b = 0x7D

theorem EndsValue.nil : EndsValue [] :=
  fun _ h => by cases h

theorem endsValue_cons {b : UInt8} (h : b = 0x2C ∨ b = 0x5D ∨ b = 0x7D) (bs : Bytes) :
    EndsValue (b :: bs) := by
  rintro _ ⟨⟩
  exact h

/-- The cursor where more follows. -/
def Cursor.before (c : Cursor) (rest : Bytes) : Cursor :=
  ⟨c.offset, c.rest ++ rest⟩

namespace Reader

variable {α β : Type} {r : Reader α} {k k' : Reader Unit} {c : Cursor}

/-- What follows a value does not go on with a number. -/
theorem head?_of_endsValue {rest : Bytes} (h : EndsValue rest) :
    rest.head?.any isDigit = false ∧ isExponent rest.head? = false ∧ rest.head? ≠ some 0x2E := by
  cases rest with
  | nil => exact ⟨rfl, rfl, nofun⟩
  | cons b bs =>
    rw [List.head?_cons]
    rcases h b rfl with rfl | rfl | rfl <;> decide

/-- What `r` reads is stepped over by `k`, and is read just as well where more follows. -/
def Reaches (r : Reader α) (k : Reader Unit) (c : Cursor) : Prop :=
  ∀ a d, r c = .ok a d →
    k c = .ok () d ∧ ∀ rest, EndsValue rest → r (c.before rest) = .ok a (d.before rest)

/-! ### Rules -/

theorem reaches_of_fails (h : ∀ a d, r c ≠ .ok a d) : Reaches r k c :=
  fun a d hr => (h a d hr).elim

theorem reaches_failHere (f : SyntaxFault) : Reaches (failHere (α := α) f) k c :=
  reaches_of_fails fun _ _ h => by cases h

theorem reaches_failNext (f : SyntaxFault) : Reaches (failNext (α := α) f) k c :=
  reaches_of_fails fun _ _ h => by cases h

theorem reaches_pure (a : α) : Reaches (pure a) (pure ()) c := by
  intro a' d h
  cases h
  exact ⟨rfl, fun _ _ => rfl⟩

/-- What steps over the same in another way. -/
theorem Reaches.congr (h : Reaches r k c) (hk : k' c = k c) : Reaches r k' c :=
  fun a d hr => ⟨hk.trans (h a d hr).1, (h a d hr).2⟩

/-- One step, and the rest. -/
theorem Reaches.bind {f : α → Reader β} (h : Reaches r k c)
    (hf : ∀ a d, r c = .ok a d → Reaches (f a) k' d) : Reaches (r >>= f) (k >>= fun _ => k') c := by
  intro b e hrun
  change EStateM.bind r f c = _ at hrun
  unfold EStateM.bind at hrun
  cases hr : r c with
  | error _ _ =>
    rw [hr] at hrun
    cases hrun
  | ok a d =>
    rw [hr] at hrun
    obtain ⟨hskip, hmore⟩ := h a d hr
    obtain ⟨hskip', hmore'⟩ := hf a d hr b e hrun
    refine ⟨?_, fun rest hrest => ?_⟩
    · show EStateM.bind k (fun _ => k') c = _
      rw [EStateM.bind, hskip]
      exact hskip'
    · show EStateM.bind r f (c.before rest) = _
      rw [EStateM.bind, hmore rest hrest]
      exact hmore' rest hrest

/-- A look at the next byte, at the end of the text as in front of what ends a value. -/
theorem reaches_peek {f : Option UInt8 → Reader α} (h : Reaches (f c.rest.head?) k c)
    (hend : ∀ b : UInt8, b = 0x2C ∨ b = 0x5D ∨ b = 0x7D → f (some b) = f none) :
    Reaches (peek >>= f) k c := by
  intro a d hr
  obtain ⟨hskip, hmore⟩ := h a d hr
  refine ⟨hskip, fun rest hrest => ?_⟩
  have hhead : f (c.rest ++ rest).head? = f c.rest.head? := by
    cases hc : c.rest with
    | cons b bs => rfl
    | nil =>
      cases rest with
      | nil => rfl
      | cons b bs => exact hend b (hrest b rfl)
  show f (c.rest ++ rest).head? (c.before rest) = _
  rw [hhead]
  exact hmore rest hrest

/-- A look at a byte that is there. -/
theorem reaches_peek_cons {f : Option UInt8 → Reader α} {g : Option UInt8 → Reader Unit}
    {offset : Nat} {b : UInt8} {bs : Bytes}
    (h : Reaches (f (some b)) (g (some b)) ⟨offset, b :: bs⟩) :
    Reaches (peek >>= f) (peek >>= g) ⟨offset, b :: bs⟩ :=
  h

theorem reaches_advance (h : c.rest ≠ []) : Reaches advance advance c := by
  obtain ⟨offset, bs⟩ := c
  cases bs with
  | nil => exact (h rfl).elim
  | cons b bs =>
    intro a d hr
    cases hr
    exact ⟨rfl, fun _ _ => rfl⟩

/-- The next byte is taken; without one, nothing is read. -/
theorem reaches_next {f : Option UInt8 → Reader α} {g : Option UInt8 → Reader Unit}
    (h : ∀ b d, Reaches (f (some b)) (g (some b)) d) (hnone : ∀ c a d, f none c ≠ .ok a d) :
    Reaches (next >>= f) (next >>= g) c := by
  obtain ⟨offset, bs⟩ := c
  cases bs with
  | nil => exact reaches_of_fails (hnone _)
  | cons b bs => exact h b ⟨offset + 1, bs⟩

/-- A step that moves nothing, whatever follows the value. -/
theorem reaches_stays {f : α → Reader β} {a : α}
    (hr : ∀ rest, EndsValue rest → r (c.before rest) = .ok a (c.before rest))
    (h : Reaches (f a) k c) : Reaches (r >>= f) k c := by
  have hstep (rest : Bytes) (hrest : EndsValue rest) :
      (r >>= f) (c.before rest) = f a (c.before rest) := by
    show EStateM.bind r f _ = _
    rw [EStateM.bind, hr rest hrest]
  have hself : c.before [] = c := by
    rw [Cursor.before, List.append_nil]
  intro b d hrun
  rw [← hself, hstep [] .nil, hself] at hrun
  obtain ⟨hskip, hmore⟩ := h b d hrun
  exact ⟨hskip, fun rest hrest => (hstep rest hrest).trans (hmore rest hrest)⟩

/-- No digit follows a value. -/
theorem any_isDigit_before {rest : Bytes} (hrest : EndsValue rest) (bs : Bytes) :
    (bs ++ rest).head?.any isDigit = bs.head?.any isDigit := by
  cases bs with
  | nil => exact (head?_of_endsValue hrest).1
  | cons b bs => rfl

theorem reaches_atDigit {f : Bool → Reader α} (h : Reaches (f (c.rest.head?.any isDigit)) k c) :
    Reaches (atDigit >>= f) k c :=
  reaches_stays (fun rest hrest => by
    rw [atDigit, Cursor.before, any_isDigit_before hrest]) h

/-! ### Runs of digits -/

/-- A run of digits ends where a value ends. -/
theorem takeWhile_before {rest : Bytes} (hrest : EndsValue rest) (bs : Bytes) :
    (bs ++ rest).takeWhile isDigit = bs.takeWhile isDigit ∧
      (bs ++ rest).dropWhile isDigit = bs.dropWhile isDigit ++ rest := by
  induction bs with
  | nil =>
    have hhead := (head?_of_endsValue hrest).1
    cases rest with
    | nil => exact ⟨rfl, rfl⟩
    | cons b bs =>
      have hb : ¬ isDigit b = true := Bool.eq_false_iff.mp hhead
      exact ⟨List.takeWhile_cons_of_neg hb, List.dropWhile_cons_of_neg hb⟩
  | cons b bs ih =>
    rw [List.cons_append]
    cases hb : isDigit b with
    | true =>
      rw [List.takeWhile_cons_of_pos hb, List.takeWhile_cons_of_pos hb,
        List.dropWhile_cons_of_pos hb, List.dropWhile_cons_of_pos hb, ih.1, ih.2]
      exact ⟨rfl, rfl⟩
    | false =>
      have hb : ¬ isDigit b = true := Bool.eq_false_iff.mp hb
      rw [List.takeWhile_cons_of_neg hb, List.takeWhile_cons_of_neg hb,
        List.dropWhile_cons_of_neg hb, List.dropWhile_cons_of_neg hb]
      exact ⟨rfl, rfl⟩

theorem reaches_countDigits : Reaches countDigits (skipWhile isDigit) c := by
  intro n d hr
  cases hr
  refine ⟨rfl, fun rest hrest => ?_⟩
  obtain ⟨htake, hdrop⟩ := takeWhile_before hrest c.rest
  simp only [countDigits, Cursor.before, htake, hdrop]

/-- The digits that fit are some of those that come next, whatever follows the value. -/
theorem exists_appendDigits (bound n : Nat) (bs : Bytes) :
    ∃ m ds tl, bs = ds ++ tl ∧ (∀ b ∈ ds, isDigit b = true) ∧
      ∀ rest, EndsValue rest → appendDigits bound n (bs ++ rest) = (m, ds.length, tl ++ rest) := by
  induction bs generalizing n with
  | nil =>
    refine ⟨n, [], [], rfl, nofun, fun rest hrest => ?_⟩
    have hhead := (head?_of_endsValue hrest).1
    cases rest with
    | nil => rfl
    | cons b bs =>
      have hb : isDigit b = false := hhead
      rw [List.nil_append, appendDigits, hb]
      rfl
  | cons b bs ih =>
    by_cases hfits : (isDigit b && decide (n * 10 + digit b < bound)) = true
    · obtain ⟨m, ds, tl, rfl, hds, happend⟩ := ih (n * 10 + digit b)
      have hb : isDigit b = true := (Bool.and_eq_true_iff.mp hfits).1
      refine ⟨m, b :: ds, tl, rfl, List.forall_mem_cons.mpr ⟨hb, hds⟩, fun rest hrest => ?_⟩
      rw [List.cons_append, appendDigits, if_pos hfits, happend rest hrest]
      rfl
    · refine ⟨n, [], b :: bs, rfl, nofun, fun rest _ => ?_⟩
      rw [List.cons_append, appendDigits, if_neg hfits]
      rfl

/-- After some digits, those behind them are stepped over. -/
theorem skipWhile_append {ds tl : Bytes} (hds : ∀ b ∈ ds, isDigit b = true) (offset : Nat) :
    skipWhile isDigit ⟨offset, ds ++ tl⟩ = skipWhile isDigit ⟨offset + ds.length, tl⟩ := by
  simp only [skipWhile, List.takeWhile_append_of_pos hds, List.dropWhile_append_of_pos hds,
    List.length_append, Nat.add_assoc]

/-- The digits that fit are read, and all digits have still to be stepped over. -/
theorem reaches_takeDigits {bound n : Nat} {f : Nat × Nat → Reader α}
    (h : ∀ p d, takeDigits bound n c = .ok p d →
      Reaches (f p) (skipWhile isDigit >>= fun _ => k) d) :
    Reaches (takeDigits bound n >>= f) (skipWhile isDigit >>= fun _ => k) c := by
  obtain ⟨offset, bs⟩ := c
  obtain ⟨m, ds, tl, rfl, hds, happend⟩ := exists_appendDigits bound n bs
  have htake (rest : Bytes) (hrest : EndsValue rest) :
      takeDigits bound n ⟨offset, ds ++ tl ++ rest⟩ =
        .ok (m, ds.length) ⟨offset + ds.length, tl ++ rest⟩ := by
    simp only [takeDigits, happend rest hrest]
  have hself := htake [] .nil
  rw [List.append_nil, List.append_nil] at hself
  intro a e hr
  change EStateM.bind _ _ _ = _ at hr
  rw [EStateM.bind, hself] at hr
  obtain ⟨hskip, hmore⟩ := h _ _ hself a e hr
  refine ⟨?_, fun rest hrest => ?_⟩
  · rw [← hskip]
    show EStateM.bind _ _ _ = EStateM.bind _ _ _
    rw [EStateM.bind, EStateM.bind, skipWhile_append hds]
  · show EStateM.bind _ _ _ = _
    rw [Cursor.before, EStateM.bind, htake rest hrest]
    exact hmore rest hrest

/-- No digits are left to step over. -/
theorem Reaches.noDigits (h : Reaches r k c) (hc : c.rest.head?.any isDigit = false) :
    Reaches r (skipWhile isDigit >>= fun _ => k) c := by
  refine h.congr ?_
  obtain ⟨offset, bs⟩ := c
  cases bs with
  | nil => rfl
  | cons b bs =>
    have hb : ¬ isDigit b = true := Bool.eq_false_iff.mp hc
    show k ⟨offset + ((b :: bs).takeWhile isDigit).length, (b :: bs).dropWhile isDigit⟩ = _
    rw [List.takeWhile_cons_of_neg hb, List.dropWhile_cons_of_neg hb]
    rfl

theorem ne_nil_of_any {bs : Bytes} {p : UInt8 → Bool} (h : bs.head?.any p = true) : bs ≠ [] := by
  rintro rfl
  cases h

/-- One digit is stepped over, and those behind it. -/
theorem Reaches.digit (h : Reaches r (advance >>= fun _ => skipWhile isDigit >>= fun _ => k) c)
    (hc : c.rest.head?.any isDigit = true) :
    Reaches r (skipWhile isDigit >>= fun _ => k) c := by
  refine h.congr ?_
  obtain ⟨offset, bs⟩ := c
  cases bs with
  | nil => cases hc
  | cons b bs =>
    have hskip : skipWhile isDigit ⟨offset, b :: bs⟩ = skipWhile isDigit ⟨offset + 1, bs⟩ :=
      skipWhile_append (List.forall_mem_singleton.mpr hc) offset
    show EStateM.bind (skipWhile isDigit) (fun _ => k) _ =
      EStateM.bind (skipWhile isDigit) (fun _ => k) (Cursor.mk (offset + 1) bs)
    rw [EStateM.bind, EStateM.bind, hskip]

/-! ### Parts of a number -/

/-- Scaling reads nothing. -/
theorem reaches_scale (negative : Bool) (n : Nat) (e : Int) :
    Reaches (scale negative n e) (pure ()) c := by
  unfold scale
  dsimp only
  by_cases hneg : e < 0
  · rw [if_pos hneg]
    exact reaches_pure _
  rw [if_neg hneg]
  by_cases hsmall : e ≤ 308
  · rw [if_pos hsmall]
    by_cases hinf : (Float.ofNat n * powTen e.toNat).isInf = true
    · rw [if_pos hinf]
      exact reaches_of_fails fun _ _ h => by cases h
    · rw [if_neg hinf]
      exact reaches_pure _
  · rw [if_neg hsmall]
    by_cases hzero : (Float.ofNat n == 0) = true
    · rw [if_pos hzero]
      exact reaches_pure _
    · rw [if_neg hzero]
      exact reaches_of_fails fun _ _ h => by cases h

/-- The digits of an exponent are stepped over, whatever sign they have. -/
theorem reaches_exponentDigits (negative : Bool) (n : Nat) (start : Int) (sign : Option UInt8) :
    Reaches (do
      match ← next with
      | none => failHere .endInValue
      | some b =>
        if !isDigit b then failHere .badNumber else
        let (e, _) ← takeDigits exponentBound (digit b)
        if ← atDigit then
          advance
          if n ≠ 0 ∧ sign ≠ some 0x2D then failHere .numberRange
          let _ ← countDigits
          return .float (if negative then -0.0 else 0.0)
        scale negative n (if sign = some 0x2D then start - e else start + e)) (do
      match ← next with
      | some b => if isDigit b then skipWhile isDigit else failHere .badNumber
      | none => failHere .badNumber) c := by
  refine reaches_next (fun b d => ?_) fun _ _ _ h => by cases h
  dsimp only
  cases hb : isDigit b with
  | false => exact reaches_failHere _
  | true =>
    refine Reaches.congr (k := skipWhile isDigit >>= fun _ => pure ()) ?_ rfl
    refine reaches_takeDigits fun p d _ => ?_
    refine reaches_atDigit ?_
    cases hdigit : d.rest.head?.any isDigit with
    | false => exact Reaches.noDigits (reaches_scale negative n _) hdigit
    | true =>
      refine Reaches.digit ?_ hdigit
      refine (reaches_advance (ne_nil_of_any hdigit)).bind fun _ e _ => ?_
      by_cases hrange : n ≠ 0 ∧ sign ≠ some 0x2D
      · rw [if_pos hrange]
        exact reaches_of_fails fun _ _ h => by cases h
      · rw [if_neg hrange]
        exact reaches_countDigits.bind fun _ _ _ => reaches_pure _

/-- An exponent is stepped over. -/
theorem reaches_exponentPart (negative : Bool) (n : Nat) (start : Int)
    (h : isExponent c.rest.head? = true) :
    Reaches (exponentPart negative n start) skipExponent c := by
  have hne : c.rest ≠ [] := by
    intro hnil
    rw [hnil] at h
    cases h
  refine (reaches_advance hne).bind fun _ d _ => ?_
  obtain ⟨offset, bs⟩ := d
  cases bs with
  | nil => exact reaches_of_fails fun _ _ h => by cases h
  | cons b bs =>
    refine reaches_peek_cons ?_
    dsimp only
    by_cases hsign : some b = some 0x2B ∨ some b = some 0x2D
    · rw [if_pos hsign, if_pos hsign]
      refine (reaches_advance (List.cons_ne_nil b bs)).bind fun _ _ _ => ?_
      exact reaches_exponentDigits negative n start (some b)
    · rw [if_neg hsign, if_neg hsign]
      exact reaches_exponentDigits negative n start (some b)

/-- Steps over an exponent, if there is one. -/
def skipOptionalExponent : Reader Unit := do
  if isExponent (← peek) then skipExponent

/-- Steps over what can follow the first digits of a number. -/
def skipTail : Reader Unit := do
  if (← peek) = some 0x2E then
    advance
    if (← countDigits) = 0 then failNext .badNumber
    skipOptionalExponent
  else skipOptionalExponent

/-- An exponent is stepped over, if there is one. -/
theorem reaches_optionalExponent {plain : Reader Number} (hplain : Reaches plain (pure ()) c)
    (negative : Bool) (n : Nat) (e : Int) :
    Reaches (if isExponent c.rest.head? then exponentPart negative n e else plain)
      skipOptionalExponent c := by
  cases hexponent : isExponent c.rest.head? with
  | true =>
    exact (reaches_exponentPart negative n e hexponent).congr (congrFun (if_pos hexponent) c)
  | false =>
    exact hplain.congr (congrFun (if_neg (Bool.eq_false_iff.mp hexponent)) c)

theorem reaches_afterDigits (negative : Bool) (n : Nat) (e : Int) :
    Reaches (afterDigits negative n e) skipOptionalExponent c := by
  have hend : ∀ b : UInt8, b = 0x2C ∨ b = 0x5D ∨ b = 0x7D →
      isExponent (some b) = isExponent none := by
    rintro b (rfl | rfl | rfl) <;> rfl
  refine reaches_peek ?_ fun b hb => by rw [hend b hb]
  exact reaches_optionalExponent (reaches_scale negative n e) negative n e

/-- There is no digit to take. -/
theorem reaches_takeDigits_none {bound n : Nat} {f : Nat × Nat → Reader α}
    (hc : c.rest.head?.any isDigit = false) (h : Reaches (f (n, 0)) k c) :
    Reaches (takeDigits bound n >>= f) k c := by
  refine reaches_stays (fun rest hrest => ?_) h
  rw [← any_isDigit_before hrest] at hc
  rw [takeDigits, Cursor.before]
  generalize c.rest ++ rest = bs at hc ⊢
  cases bs with
  | nil => rfl
  | cons b bs =>
    have hb : isDigit b = false := hc
    simp only [appendDigits, hb, Bool.false_and]
    rfl

/-- Digits that are there are stepped over, counted or not. -/
theorem Reaches.counted {f : Nat → Reader Unit}
    (h : Reaches r (skipWhile isDigit >>= fun _ => k) c) (hc : c.rest.head?.any isDigit = true)
    (hf : ∀ n, f (n + 1) = k) : Reaches r (countDigits >>= f) c := by
  refine h.congr ?_
  obtain ⟨offset, bs⟩ := c
  cases bs with
  | nil => cases hc
  | cons b bs =>
    have hb : isDigit b = true := hc
    have hcount : countDigits ⟨offset, b :: bs⟩ = .ok ((bs.takeWhile isDigit).length + 1)
        ⟨offset + ((b :: bs).takeWhile isDigit).length, (b :: bs).dropWhile isDigit⟩ := by
      simp only [countDigits, List.takeWhile_cons_of_pos hb, List.length_cons]
    show EStateM.bind countDigits f _ = EStateM.bind (skipWhile isDigit) (fun _ => k) _
    rw [EStateM.bind, hcount]
    dsimp only
    rw [hf]
    rfl

/-- A fraction without digits is not read. -/
theorem not_ok_missingDigits (c : Cursor) (n : Number) (d : Cursor) :
    (do
      match ← peek with
      | some _ => failNext .badNumber
      | none => failHere .endInValue : Reader Number) c ≠ .ok n d := by
  obtain ⟨offset, bs⟩ := c
  cases bs <;> exact nofun

/-- The digits of a fraction are stepped over, and the exponent behind them. -/
theorem reaches_fractionDigits (negative : Bool) (n : Nat) (start : Int) :
    Reaches (do
      let (n, count) ← takeDigits (2 ^ 64) n
      if ← atDigit then
        let _ ← countDigits
        afterDigits negative n (start - count)
      else if count = 0 then
        match ← peek with
        | some _ => failNext .badNumber
        | none => failHere .endInValue
      else afterDigits negative n (start - count)) (do
      if (← countDigits) = 0 then failNext .badNumber
      skipOptionalExponent) c := by
  cases hdigit : c.rest.head?.any isDigit with
  | false =>
    refine reaches_takeDigits_none hdigit (reaches_atDigit ?_)
    rw [hdigit, if_neg (by decide), if_pos rfl]
    exact reaches_of_fails (not_ok_missingDigits c)
  | true =>
    refine Reaches.counted ?_ hdigit fun _ => rfl
    refine reaches_takeDigits fun p d _ => reaches_atDigit ?_
    cases hdigit : d.rest.head?.any isDigit with
    | true => exact reaches_countDigits.bind fun _ _ _ => reaches_afterDigits negative _ _
    | false =>
      refine Reaches.noDigits ?_ hdigit
      dsimp only
      by_cases hcount : p.2 = 0
      · rw [if_neg (by decide), if_pos hcount]
        exact reaches_of_fails (not_ok_missingDigits d)
      · rw [if_neg (by decide), if_neg hcount]
        exact reaches_afterDigits negative _ _

/-- A fraction is stepped over. -/
theorem reaches_fractionPart (negative : Bool) (n : Nat) (start : Int)
    (h : c.rest.head? = some 0x2E) : Reaches (fractionPart negative n start) skipTail c := by
  obtain ⟨offset, bs⟩ := c
  cases bs with
  | nil => cases h
  | cons b bs =>
    obtain rfl := Option.some.inj h
    refine Reaches.congr ((reaches_advance (List.cons_ne_nil _ bs)).bind fun _ _ _ =>
      reaches_fractionDigits negative n start) rfl

/-- What follows the first digits of a number is stepped over. -/
theorem reaches_tail {plain : Reader Number} (hplain : Reaches plain skipOptionalExponent c)
    (negative : Bool) (n : Nat) (e : Int) :
    Reaches (if c.rest.head? = some 0x2E then fractionPart negative n e else plain) skipTail c := by
  by_cases hpoint : c.rest.head? = some 0x2E
  · rw [if_pos hpoint]
    exact reaches_fractionPart negative n e hpoint
  · rw [if_neg hpoint]
    exact hplain.congr (congrFun (if_neg hpoint) c)

theorem reaches_numberTail (negative : Bool) (n : Nat) :
    Reaches (numberTail negative n) skipTail c := by
  refine reaches_peek ?_ ?_
  · exact reaches_tail (reaches_optionalExponent (reaches_pure _) negative n 0) negative n 0
  · rintro b (rfl | rfl | rfl) <;> rfl

/-- A number is stepped over behind its sign. -/
theorem reaches_unsignedNumber (negative : Bool) :
    Reaches (unsignedNumber negative) skipNumber c := by
  refine reaches_next (fun b d => ?_) fun _ _ _ h => by cases h
  dsimp only
  by_cases hzero : b = 0x30
  · rw [if_pos hzero, if_pos hzero]
    refine reaches_atDigit ?_
    cases hdigit : d.rest.head?.any isDigit with
    | true => exact reaches_failNext _
    | false =>
      exact (reaches_numberTail negative 0).congr
        (congrFun (if_neg (Bool.eq_false_iff.mp hdigit)) d)
  · rw [if_neg hzero, if_neg hzero]
    cases hb : isDigit b with
    | false => exact reaches_failHere _
    | true =>
      refine reaches_takeDigits fun p d _ => reaches_atDigit ?_
      cases hdigit : d.rest.head?.any isDigit with
      | true =>
        refine reaches_countDigits.bind fun more d _ => reaches_peek ?_ ?_
        · exact reaches_tail (reaches_afterDigits negative _ _) negative _ _
        · rintro b (rfl | rfl | rfl) <;> rfl
      | false =>
        exact (reaches_numberTail negative p.1).noDigits hdigit

/-- Steps over a number. -/
def skipSigned : Reader Unit := do
  if (← peek) = some 0x2D then
    advance
    skipNumber
  else skipNumber

theorem reaches_number : Reaches number skipSigned c := by
  refine reaches_peek ?_ ?_
  · by_cases hminus : c.rest.head? = some 0x2D
    · rw [if_pos hminus]
      have hne : c.rest ≠ [] := by
        intro hnil
        rw [hnil] at hminus
        cases hminus
      refine Reaches.congr ?_ (congrFun (if_pos hminus) c)
      exact (reaches_advance hne).bind fun _ _ _ => reaches_unsignedNumber true
    · rw [if_neg hminus]
      exact (reaches_unsignedNumber false).congr (congrFun (if_neg hminus) c)
  · rintro b (rfl | rfl | rfl) <;> rfl

/-- What is read as a whole is read, and stepped over, wherever a value can end. -/
theorem Gives.before {bs rest : Bytes} {a : α} (h : r.Gives bs (some (a, [])))
    (hreaches : ∀ c, Reaches r k c) (hrest : EndsValue rest) :
    r.Gives (bs ++ rest) (some (a, rest)) ∧ k.Gives (bs ++ rest) (some ((), rest)) := by
  have hrun (offset : Nat) : ∃ offset', r ⟨offset, bs ++ rest⟩ = .ok a ⟨offset', rest⟩ := by
    have hself := h offset
    cases hr : r ⟨offset, bs⟩ with
    | error _ _ =>
      rw [hr] at hself
      cases hself
    | ok a' d =>
      rw [hr] at hself
      obtain ⟨rfl, hnil⟩ := Prod.mk.inj (Option.some.inj hself)
      have hmore := (hreaches ⟨offset, bs⟩ a' d hr).2 rest hrest
      rw [Cursor.before, Cursor.before, hnil] at hmore
      exact ⟨d.offset, hmore⟩
  refine ⟨fun offset => ?_, fun offset => ?_⟩ <;> obtain ⟨offset', hr⟩ := hrun offset
  · rw [hr]
  · rw [((hreaches _) a _ hr).1]

end Reader
end KubeClient.Json
