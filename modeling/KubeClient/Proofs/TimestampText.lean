import KubeClient.Proofs.Calendar
import KubeClient.Proofs.Digits
import KubeClient.Scalar.Timestamp

/-!
# The text of a timestamp is read back

* `Instant.Regular` : an instant of universal time whose text shows all of it;
* `Instant.parseChars_chars` : such an instant is read from its text;
* `Timestamp.parse_text` : so is a timestamp.
-/

namespace KubeClient

open Numeral

namespace Instant

/-! ### Parts of the text -/

theorem digits_padded {width n : Nat} (hwidth : 0 < width) (hn : n < 10 ^ width)
    (rest : List Char) : digits width (padded width n ++ rest) = .ok (n, rest) := by
  have hlength := length_padded hwidth hn
  have hall : (padded width n).all Char.isDigit = true :=
    List.all_eq_true.mpr (isDigits_padded width n)
  simp only [digits, List.take_left' hlength, List.drop_left' hlength, hlength, hall, true_and,
    if_true, value_padded]

theorem oneOf_cons {allowed : List Char} {c : Char} (h : c ∈ allowed) (cs : List Char) :
    oneOf allowed (c :: cs) = .ok cs :=
  if_pos h

/-- The date in front of a text. -/
theorem date_append {d : Date} (hvalid : d.Valid) (hyear : 0 ≤ d.year ∧ d.year ≤ 9999)
    (rest : List Char) :
    date (yearChars d.year ++ '-' :: (padded 2 d.month ++ '-' :: (padded 2 d.day ++ rest))) =
      .ok (d, rest) := by
  obtain ⟨hm0, hm1, hd0, hd1⟩ := id hvalid
  have hday := Date.daysInMonth_le d.year d.month
  have hself : (⟨(d.year.toNat : Int), d.month, d.day⟩ : Date) = d := by
    rw [Int.toNat_of_nonneg hyear.1]
  rw [yearChars, if_pos hyear, date, digits_padded (by decide) (by omega)]
  simp only [bind, Except.bind, oneOf_cons (List.mem_singleton_self '-')]
  rw [digits_padded (by decide) (by omega)]
  simp only [oneOf_cons (List.mem_singleton_self '-')]
  rw [digits_padded (by decide) (by omega)]
  simp only [hself, if_pos hvalid]

/-- The nanoseconds behind the seconds. -/
theorem fraction_chars {p : Precision} {n : Nat} (hn : n < 10 ^ 9) (hwhole : n % p.unit = 0) :
    fraction (p.fraction.chars n ++ ['Z']) = .ok (n, ['Z']) := by
  cases p with
  | seconds =>
    have hzero : n = 0 := (Nat.mod_eq_of_lt hn).symm.trans hwhole
    rw [hzero]
    rfl
  | micros =>
    have hlength : (padded 6 (n / 10 ^ 3)).length = 6 := length_padded (by decide) (by omega)
    have hne : padded 6 (n / 10 ^ 3) ≠ [] := fun h => by
      rw [h] at hlength
      cases hlength
    have hends : EndsRun ['Z'] := endsRun_cons rfl []
    have htake : (padded 6 (n / 10 ^ 3) ++ ['Z']).take 9 = padded 6 (n / 10 ^ 3) ++ ['Z'] := by
      refine List.take_of_length_le ?_
      rw [List.length_append, hlength]
      decide
    have hwhole : n % 10 ^ 3 = 0 := hwhole
    show fraction ('.' :: (padded 6 (n / 10 ^ 3) ++ ['Z'])) = _
    simp only [fraction, htake, takeWhile_run (isDigits_padded 6 _) hends,
      dropWhile_run (isDigits_padded 6 _) hends, if_neg hne, hlength, value_padded]
    rw [if_neg (by simp)]
    have hvalue : n / 10 ^ 3 * 10 ^ (9 - 6) = n := by omega
    rw [hvalue]

/-- The time of day, and `Z` behind it. -/
theorem timeOfDay_chars {p : Precision} {s nanos : Nat} (hs : s < 86400)
    (hwhole : nanos % p.unit = 0)
    (hleap : nanos < 10 ^ 9 ∨ nanos < 2 * 10 ^ 9 ∧ s % 60 = 59) :
    timeOfDay (padded 2 (s / 3600) ++ ':' :: (padded 2 (s % 3600 / 60) ++
      ':' :: (padded 2 (if 10 ^ 9 ≤ nanos then s % 60 + 1 else s % 60) ++
        (p.fraction.chars (if 10 ^ 9 ≤ nanos then nanos - 10 ^ 9 else nanos) ++ ['Z'])))) =
      .ok (s, nanos, ['Z']) := by
  rw [timeOfDay, digits_padded (by decide) (by omega)]
  simp only [bind, Except.bind, oneOf_cons (List.mem_singleton_self ':')]
  rw [digits_padded (by decide) (by omega)]
  simp only [oneOf_cons (List.mem_singleton_self ':')]
  rw [digits_padded (by decide) (by split <;> omega)]
  dsimp only
  by_cases h : 10 ^ 9 ≤ nanos
  · -- a leap second is the second behind the last one of its minute
    obtain ⟨hnanos, hlast⟩ := hleap.resolve_left (Nat.not_lt.mpr h)
    have hwhole : (nanos - 10 ^ 9) % p.unit = 0 := by
      cases p <;> simp only [Precision.unit] at hwhole ⊢ <;> omega
    simp only [if_pos h, fraction_chars (show nanos - 10 ^ 9 < 10 ^ 9 by omega) hwhole]
    rw [if_neg (by omega), if_pos (by omega)]
    have hsecond : s / 3600 * 3600 + s % 3600 / 60 * 60 + 59 = s := by omega
    rw [hsecond, Nat.sub_add_cancel h]
  · simp only [if_neg h, fraction_chars (Nat.not_le.mp h) hwhole]
    rw [if_neg (by omega), if_neg (by omega)]
    have hsecond : s / 3600 * 3600 + s % 3600 / 60 * 60 + s % 60 = s := by omega
    rw [hsecond]

theorem length_le_byteCount (cs : List Char) : cs.length ≤ byteCount cs := by
  unfold byteCount
  induction cs with
  | nil => exact Nat.le_refl 0
  | cons c cs ih =>
    have hc := Char.utf8Size_pos c
    rw [List.map_cons, List.sum_cons, List.length_cons]
    omega

theorem le_length_padded (width n : Nat) : width ≤ (padded width n).length := by
  rw [padded, List.length_append, List.length_replicate]
  omega

theorem four_le_length_yearChars (year : Int) : 4 ≤ (yearChars year).length := by
  unfold yearChars
  split
  · exact le_length_padded 4 _
  · exact Nat.le_succ_of_le (le_length_padded 4 _)

/-- No text of an instant is too short for a timestamp. -/
theorem minBytes_le (t : Instant) (f : Fraction) : minBytes ≤ byteCount (t.chars f) := by
  refine Nat.le_trans ?_ (length_le_byteCount _)
  have hyear := four_le_length_yearChars (Date.ofDays (t.seconds / 86400)).year
  have hmonth := le_length_padded 2 (Date.ofDays (t.seconds / 86400)).month
  have hday := le_length_padded 2 (Date.ofDays (t.seconds / 86400)).day
  have hhour := le_length_padded 2 ((t.seconds % 86400).toNat / 3600)
  have hminute := le_length_padded 2 ((t.seconds % 86400).toNat % 3600 / 60)
  have hsecond := le_length_padded 2 (if 10 ^ 9 ≤ t.nanos
    then (t.seconds % 86400).toNat % 60 + 1 else (t.seconds % 86400).toNat % 60)
  simp only [chars, List.length_append, List.length_cons, minBytes]
  omega

/-! ### The whole text -/

/-- An instant of universal time that the text of a timestamp can show: no finer than its precision,
a leap second at the end of a minute, and in a year of four digits. What this excludes besides the
years are nanoseconds of a second or more behind any other second than the 59th of a minute: no
RFC 3339 text denotes them, and they are shown as the second that follows. -/
structure Regular (p : Precision) (t : Instant) : Prop where
  whole : t.nanos % p.unit = 0
  leap : t.nanos < 10 ^ 9 ∨ t.nanos < 2 * 10 ^ 9 ∧ t.seconds % 60 = 59
  year : 0 ≤ (Date.ofDays (t.seconds / 86400)).year ∧
    (Date.ofDays (t.seconds / 86400)).year ≤ 9999

/-- A regular instant is read from its text. -/
theorem parseChars_chars {p : Precision} {t : Instant} (h : t.Regular p) :
    parseChars (t.chars p.fraction) = .ok t := by
  have hs : (t.seconds % 86400).toNat < 86400 := by omega
  have hleap : t.nanos < 10 ^ 9 ∨ t.nanos < 2 * 10 ^ 9 ∧ (t.seconds % 86400).toNat % 60 = 59 := by
    rcases h.leap with hleap | ⟨hnanos, hlast⟩
    · exact .inl hleap
    · exact .inr ⟨hnanos, by omega⟩
  have hvalid := Date.valid_ofDays (t.seconds / 86400)
  have hdate := date_append hvalid h.year
  have htime := timeOfDay_chars hs h.whole hleap
  rw [parseChars, if_neg (Nat.not_lt.mpr (minBytes_le t p.fraction))]
  simp only [chars, List.append_assoc, List.cons_append]
  rw [hdate]
  simp only [bind, Except.bind, oneOf_cons (show 'T' ∈ ['T', 't', ' '] by decide)]
  rw [htime]
  have hseconds : (Date.ofDays (t.seconds / 86400)).toDays * 86400 +
      ((t.seconds % 86400).toNat : Int) - 0 = t.seconds := by
    rw [Date.toDays_ofDays]
    omega
  show (if ([] : List Char) ≠ [] then .error .trailing
    else if maxOffset ≤ (0 : Int).natAbs then .error .range
    else .ok (⟨_, t.nanos⟩ : Instant)) = Except.ok t
  rw [if_neg (by simp), if_neg (by decide), hseconds]

end Instant

namespace Timestamp

/-- A regular timestamp is read from its text. -/
theorem parse_text {p : Precision} {t : Timestamp p} (h : t.instant.Regular p) :
    parse p t.text = .ok t := by
  have hself : ofInstant p t.instant = t := by
    rw [ofInstant, Instant.truncate, h.whole, Nat.sub_zero]
  rw [parse, parseChars, text, Instant.text, String.toList_ofList, Instant.parseChars_chars h]
  exact congrArg Except.ok hself

end Timestamp
end KubeClient
