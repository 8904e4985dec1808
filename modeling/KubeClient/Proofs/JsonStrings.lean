import KubeClient.Document.Json.Printer
import KubeClient.Proofs.JsonReading

/-!
# Strings of JSON text

* `Json.Reader.gives_name` : a printed string is read as the string;
* `Json.Reader.gives_skipString` : a printed string is stepped over.
-/

namespace KubeClient.Json.Reader

variable {bs rest : Bytes}

/-! ### Escapes -/

/-- Four hexadecimal digits of a control character. -/
theorem gives_hexEscape {b : UInt8} (h : b < 0x20) (rest : Bytes) :
    hexEscape.Gives
      (0x30 :: 0x30 :: hexDigit (b.toNat / 16) :: hexDigit (b.toNat % 16) :: rest)
      (some (b.toNat, rest)) := by
  have hdigits : ∀ n : Fin 32, hexValue? (hexDigit (n.val / 16)) = some (n.val / 16) ∧
      hexValue? (hexDigit (n.val % 16)) = some (n.val % 16) := by
    decide
  obtain ⟨hhigh, hlow⟩ := hdigits ⟨b.toNat, h⟩
  intro offset
  have hzero : hexValue? 0x30 = some 0 := rfl
  simp only [hexEscape, hzero, hhigh, hlow]
  have hvalue : ((0 * 16 + 0) * 16 + b.toNat / 16) * 16 + b.toNat % 16 = b.toNat := by
    omega
  rw [hvalue]

theorem encode_control : ∀ n : Fin 32,
    Utf8.encode (String.singleton (Char.ofNat n.val)) = [n.val.toUInt8] := by
  decide

theorem gives_unicodeEscape {b : UInt8} (h : b < 0x20) (rest : Bytes) :
    unicodeEscape.Gives
      (0x30 :: 0x30 :: hexDigit (b.toNat / 16) :: hexDigit (b.toNat % 16) :: rest)
      (some (Char.ofNat b.toNat, rest)) := by
  have hlt : b.toNat < 32 := h
  have htrail : isTrail b.toNat = false := by
    simp only [isTrail, Bool.and_eq_false_iff, decide_eq_false_iff_not]
    omega
  have hlead : isLead b.toNat = false := by
    simp only [isLead, Bool.and_eq_false_iff, decide_eq_false_iff_not]
    omega
  refine (gives_hexEscape h rest).bind ?_
  rw [htrail, hlead]
  exact gives_pure _ rest

/-- An escape of two bytes. -/
theorem gives_escaped_short {e b : UInt8} (h : shortEscape? e = some b) (rest : Bytes) :
    escaped.Gives (e :: rest) (some ([b], rest)) := by
  refine (gives_next e rest).bind ?_
  dsimp only
  rw [h]
  exact gives_pure _ rest

theorem gives_escaped_control {b : UInt8} (h : b < 0x20) (rest : Bytes) :
    escaped.Gives
      (0x75 :: 0x30 :: 0x30 :: hexDigit (b.toNat / 16) :: hexDigit (b.toNat % 16) :: rest)
      (some ([b], rest)) := by
  have hshort : shortEscape? 0x75 = none := rfl
  refine (gives_next 0x75 _).bind ?_
  dsimp only
  rw [hshort]
  dsimp only
  rw [if_pos rfl]
  refine (gives_unicodeEscape h rest).bind ?_
  have hbytes := encode_control ⟨b.toNat, h⟩
  rw [hbytes]
  have hself : b.toNat.toUInt8 = b := UInt8.ofNat_toNat
  rw [hself]
  exact gives_pure _ rest

/-! ### Bytes -/

theorem gives_stringBytes_escaped {read : Bytes} {b : UInt8} {fuel : Nat}
    {out : Option (Bytes × Bytes)} (hescaped : escaped.Gives bs (some ([b], rest)))
    (h : (stringBytes (b :: read) fuel).Gives rest out) :
    (stringBytes read (fuel + 1)).Gives (0x5C :: bs) out := by
  refine (gives_next 0x5C bs).bind ?_
  dsimp only
  rw [if_neg (by decide), if_pos rfl]
  exact hescaped.bind h

/-- One byte of a string is read as it was printed. -/
theorem gives_stringBytes_escape {read : Bytes} (b : UInt8) {fuel : Nat}
    {out : Option (Bytes × Bytes)} (h : (stringBytes (b :: read) fuel).Gives rest out) :
    (stringBytes read (fuel + 1)).Gives (escape b ++ rest) out := by
  have short (e : UInt8) (he : shortEscape? e = some b) :
      (stringBytes read (fuel + 1)).Gives ([0x5C, e] ++ rest) out :=
    gives_stringBytes_escaped (gives_escaped_short he rest) h
  unfold escape
  split
  · rename_i hquote
    refine short b ?_
    rcases hquote with rfl | rfl <;> rfl
  split
  · rename_i hb
    exact short 0x62 (hb ▸ rfl)
  split
  · rename_i hb
    exact short 0x74 (hb ▸ rfl)
  split
  · rename_i hb
    exact short 0x6E (hb ▸ rfl)
  split
  · rename_i hb
    exact short 0x66 (hb ▸ rfl)
  split
  · rename_i hb
    exact short 0x72 (hb ▸ rfl)
  split
  · rename_i hcontrol
    exact gives_stringBytes_escaped (gives_escaped_control hcontrol rest) h
  · rename_i hquote _ _ _ _ _ hcontrol
    refine (gives_next b rest).bind ?_
    dsimp only
    rw [if_neg fun hb => hquote (.inl hb), if_neg fun hb => hquote (.inr hb), if_neg hcontrol]
    exact h

theorem gives_stringBytes (bs read : Bytes) {fuel : Nat} (hfuel : bs.length < fuel)
    (rest : Bytes) :
    (stringBytes read fuel).Gives (bs.flatMap escape ++ 0x22 :: rest)
      (some (read.reverse ++ bs, rest)) := by
  induction bs generalizing read fuel with
  | nil =>
    obtain ⟨fuel, rfl⟩ := Nat.exists_eq_add_of_lt hfuel
    refine (gives_next 0x22 rest).bind ?_
    dsimp only
    rw [if_pos rfl, List.append_nil]
    exact gives_pure _ rest
  | cons b bs ih =>
    obtain ⟨fuel, rfl⟩ : ∃ n, fuel = n + 1 := ⟨fuel - 1, by simp at hfuel; omega⟩
    have hrest := ih (b :: read) (Nat.lt_of_succ_lt_succ hfuel)
    rw [List.reverse_cons, List.append_assoc] at hrest
    rw [List.flatMap_cons, List.append_assoc]
    exact gives_stringBytes_escape b hrest

theorem escape_ne_nil (b : UInt8) : escape b ≠ [] := by
  unfold escape ascii
  repeat' split
  all_goals simp

theorem length_le_flatMap_escape (bs : Bytes) : bs.length ≤ (bs.flatMap escape).length := by
  induction bs with
  | nil => exact Nat.le_refl 0
  | cons b bs ih =>
    have hpos := List.length_pos_iff.mpr (escape_ne_nil b)
    rw [List.flatMap_cons, List.length_append, List.length_cons]
    omega

theorem gives_stringBody (s : String) (rest : Bytes) :
    stringBody.Gives ((Utf8.encode s).flatMap escape ++ 0x22 :: rest) (some (s, rest)) := by
  intro offset
  have hlength := length_le_flatMap_escape (Utf8.encode s)
  have hfuel : (Utf8.encode s).length <
      ((Utf8.encode s).flatMap escape ++ 0x22 :: rest).length + 1 := by
    rw [List.length_append]
    omega
  have hbytes := gives_stringBytes (Utf8.encode s) [] hfuel rest offset
  rw [stringBody]
  cases hrun : stringBytes [] (((Utf8.encode s).flatMap escape ++ 0x22 :: rest).length + 1)
      ⟨offset, (Utf8.encode s).flatMap escape ++ 0x22 :: rest⟩ with
  | ok read c =>
    rw [hrun] at hbytes
    obtain ⟨rfl, rfl⟩ := Prod.mk.inj (Option.some.inj hbytes)
    dsimp only
    rw [List.reverse_nil, List.nil_append, Utf8.decode?_encode]
  | error e c =>
    rw [hrun] at hbytes
    cases hbytes

theorem printString_append (s : String) (rest : Bytes) :
    printString s ++ rest = 0x22 :: ((Utf8.encode s).flatMap escape ++ 0x22 :: rest) := by
  simp only [printString, List.cons_append, List.append_assoc, List.nil_append]

/-- A printed string is read as the string. -/
theorem gives_name (s : String) (rest : Bytes) :
    name.Gives (printString s ++ rest) (some (s, rest)) := by
  rw [printString_append]
  exact (gives_advance 0x22 _).bind (gives_stringBody s rest)

/-! ### Skipping -/

/-- One byte of a string is stepped over. -/
theorem gives_skipString_escape (b : UInt8) {fuel : Nat} {out : Option (Unit × Bytes)}
    (h : (skipString fuel).Gives rest out) :
    (skipString (fuel + 1)).Gives (escape b ++ rest) out := by
  have short (e : UInt8) (hne : e ≠ 0x75) (he : (shortEscape? e).isSome = true) :
      (skipString (fuel + 1)).Gives ([0x5C, e] ++ rest) out := by
    refine (gives_peek _).bind ?_
    dsimp only [List.cons_append, List.head?_cons]
    rw [if_neg (by decide), if_pos rfl]
    refine (gives_advance 0x5C _).bind ((gives_next e _).bind ?_)
    dsimp only
    rw [if_neg hne, if_pos he]
    exact h
  unfold escape
  split
  · rename_i hquote
    rcases hquote with rfl | rfl
    · exact short 0x22 (by decide) rfl
    · exact short 0x5C (by decide) rfl
  split
  · exact short 0x62 (by decide) rfl
  split
  · exact short 0x74 (by decide) rfl
  split
  · exact short 0x6E (by decide) rfl
  split
  · exact short 0x66 (by decide) rfl
  split
  · exact short 0x72 (by decide) rfl
  split
  · rename_i hcontrol
    refine (gives_peek _).bind ?_
    dsimp only [ascii, List.map, List.cons_append, List.nil_append, List.head?_cons]
    rw [if_neg (by decide), if_pos (by decide)]
    refine (gives_advance _ _).bind ((gives_next _ _).bind ?_)
    dsimp only
    rw [if_pos (by decide)]
    exact (gives_hexEscape hcontrol rest).bind h
  · rename_i hquote _ _ _ _ _ hcontrol
    refine (gives_peek _).bind ?_
    dsimp only [List.cons_append, List.nil_append, List.head?_cons]
    rw [if_neg fun hb => hquote (.inl hb), if_neg fun hb => hquote (.inr hb), if_neg hcontrol]
    exact (gives_advance b rest).bind h

theorem gives_skipString (bs : Bytes) {fuel : Nat} (hfuel : bs.length < fuel) (rest : Bytes) :
    (skipString fuel).Gives (bs.flatMap escape ++ 0x22 :: rest) (some ((), rest)) := by
  induction bs generalizing fuel with
  | nil =>
    obtain ⟨fuel, rfl⟩ := Nat.exists_eq_add_of_lt hfuel
    refine (gives_peek _).bind ?_
    exact gives_advance 0x22 rest
  | cons b bs ih =>
    obtain ⟨fuel, rfl⟩ : ∃ n, fuel = n + 1 := ⟨fuel - 1, by simp at hfuel; omega⟩
    rw [List.flatMap_cons, List.append_assoc]
    exact gives_skipString_escape b (ih (Nat.lt_of_succ_lt_succ hfuel))

/-- A printed string is stepped over behind its quote, with a fuel of all bytes. -/
theorem gives_skipString_string (s : String) (rest : Bytes) :
    (skipString (((Utf8.encode s).flatMap escape ++ 0x22 :: rest).length + 1)).Gives
      ((Utf8.encode s).flatMap escape ++ 0x22 :: rest) (some ((), rest)) := by
  have hlength := length_le_flatMap_escape (Utf8.encode s)
  refine gives_skipString (Utf8.encode s) ?_ rest
  rw [List.length_append]
  omega

end KubeClient.Json.Reader
